import TcpChat.Base.PrefixTable
import TcpChat.Server.Operations
import TcpChat.Server.Sends

/-!
# The words of the commands

The dispatcher compares beginnings only. A test that ends with the word and not with a blank
also takes lines that go on with other letters.
-/

namespace TcpChat.Server

open Base Base.Runs
set_option autoImplicit false

inductive WordKind where
  | bare
  | argument
  | keyword
  deriving DecidableEq

/-- A word of the help text, or one of the two keywords, and what a line that begins with it
asks for. -/
structure Word where
  text : CString
  kind : WordKind
  request : CString → Request

def words : List Word :=
  [⟨"/create", .argument, fun line => .create (line.drop 8)⟩,
    ⟨"/join", .argument, fun line => .join (line.drop 6)⟩,
    ⟨"/leave", .bare, fun _ => .leave⟩,
    ⟨"/rooms", .bare, fun _ => .rooms⟩,
    ⟨"/nick", .argument, fun line => .nick (line.drop 6)⟩,
    ⟨"/users", .bare, fun _ => .users⟩,
    ⟨"/list", .bare, fun _ => .users⟩,
    ⟨"/help", .bare, fun _ => .help⟩,
    ⟨"/quit", .bare, fun _ => .quit⟩,
    ⟨"/keyexchange:", .keyword, .keyExchange⟩,
    ⟨"/e2emsg:", .keyword, .e2eMessage⟩]

def firstWord (line : CString) : CString := line.upTo (· == 32)

/-- The line names the word: it is the line's first word, or a keyword at its start. -/
def Word.Names (w : Word) (line : CString) : Prop :=
  match w.kind with
  | .bare | .argument => firstWord line = w.text
  | .keyword => line.startsWith w.text = true

instance (w : Word) (line : CString) : Decidable (w.Names line) := by
  unfold Word.Names
  split <;> infer_instance

/-- The request that is documented for the first word of the line. -/
def Documented (line : CString) (r : Request) : Prop :=
  ∃ w ∈ words, w.Names line ∧ w.request line = r

def unknownMsg : CString := "Unknown command. Type /help for available commands.\n"

/-- The answer to a line that is no command: the client is told so, and nothing else is done. -/
def unknownReply (env : Env) (s : State) (c : Slot) : State × Int :=
  (s.emit [.send (s.session c).socketFd (.text unknownMsg) (!env.sendFails 0 c)], 0)

/-- The handler that runs is the documented one, and without one there is only a reply. -/
structure RunsDocumented (libc : Libc) (env : Env) (s : State) (c : Slot) (message : CString) :
    Prop where
  documented : ∀ r, Documented (cleanMessage message) r →
    chatProtocolHandleMessage libc env s c message = perform libc env s c r
  unknown : (∀ r, ¬ Documented (cleanMessage message) r) →
    chatProtocolHandleMessage libc env s c message = unknownReply env s c

/-- A line that begins with a word that takes no argument goes on with a blank if at all, and a
word that takes one does not stand alone. -/
def Word.Whole (w : Word) (line : CString) : Prop :=
  match w.kind with
  | .bare => line.startsWith w.text = true → line = w.text ∨ line.startsWith (w.text ++ " ") = true
  | .argument => line ≠ w.text
  | .keyword => True

instance (w : Word) (line : CString) : Decidable (w.Whole line) := by
  unfold Word.Whole
  split <;> infer_instance

def WholeWords (line : CString) : Prop := ∀ w ∈ words, w.Whole line

instance (line : CString) : Decidable (WholeWords line) :=
  inferInstanceAs (Decidable (∀ w ∈ words, w.Whole line))

/-- What the dispatcher looks for. -/
def Word.test (w : Word) : CString := if w.kind = .argument then w.text ++ " " else w.text

theorem words_incomparable :
    words.Pairwise fun v w => CString.Incomparable v.text w.text := by
  decide +kernel

theorem blank_notMem_words : ∀ w ∈ words, (32 : UInt8) ∉ w.text.bytes := by
  decide +kernel

theorem parseCommand_eq (line : CString) :
    parseCommand line =
      (CString.lookup Word.test words line).elim .unknown fun w => w.request line := by
  have hcreate : ("/create" : CString) ++ " " = "/create " := by decide +kernel
  have hjoin : ("/join" : CString) ++ " " = "/join " := by decide +kernel
  have hnick : ("/nick" : CString) ++ " " = "/nick " := by decide +kernel
  simp only [words, CString.elim_lookup_cons, CString.elim_lookup_nil, Word.test, if_true,
    reduceCtorEq, if_false, hcreate, hjoin, hnick]
  rw [parseCommand]
  simp only [Bool.or_eq_true, ite_or]

section Tests
variable {w : Word} {line : CString}

theorem firstWord_eq_iff (hblank : (32 : UInt8) ∉ w.text.bytes) :
    firstWord line = w.text ↔ line = w.text ∨ line.startsWith (w.text ++ " ") = true := by
  rw [firstWord, CString.upTo_eq_iff hblank, CString.startsWith_iff]
  rfl

theorem startsWith_text (h : line.startsWith w.test = true) : line.startsWith w.text = true := by
  unfold Word.test at h
  split at h
  · rw [CString.startsWith_iff] at h ⊢
    exact (List.prefix_append _ _).trans h
  · exact h

theorem Word.Names.startsWith (h : w.Names line) : line.startsWith w.text = true := by
  have hfirst : firstWord line = w.text → line.startsWith w.text = true := by
    intro hword
    rw [CString.startsWith_iff, ← hword]
    exact List.takeWhile_prefix _
  unfold Word.Names at h
  cases hkind : w.kind with
  | bare | argument =>
    rw [hkind] at h
    exact hfirst h
  | keyword =>
    rw [hkind] at h
    exact h

/-- The test for a word goes wrong in two ways, one for each kind of word of the help text. -/
theorem Word.whole_iff (hblank : (32 : UInt8) ∉ w.text.bytes) :
    w.Whole line ↔ (line.startsWith w.test = true ↔ w.Names line) := by
  unfold Word.Whole Word.Names Word.test
  cases w.kind with
  | bare =>
    simp only [reduceCtorEq, if_false, firstWord_eq_iff hblank]
    constructor
    · intro hwhole
      refine ⟨hwhole, ?_⟩
      rintro (rfl | hgoes)
      · exact (CString.startsWith_iff _ _).mpr (List.prefix_refl _)
      · rw [CString.startsWith_iff] at hgoes ⊢
        exact (List.prefix_append _ _).trans hgoes
    · exact fun hiff => hiff.mp
  | argument =>
    simp only [if_true, firstWord_eq_iff hblank]
    constructor
    · intro hne
      exact ⟨Or.inr, fun h => h.resolve_left hne⟩
    · rintro hiff rfl
      have hlong := hiff.mpr (Or.inl rfl)
      rw [CString.startsWith_iff] at hlong
      have hle := hlong.length_le
      simp only [CString.bytes_append, List.length_append] at hle
      have hone : (CString.ofString " ").bytes.length = 1 := by decide
      omega
  | keyword => simp

end Tests

/-- The last text that was sent. -/
def lastText (s : State) : Option CString :=
  match s.trace.getLast? with
  | some (.send _ (.text message) _) => some message
  | _ => none

theorem lastText_send (fails : Slot → Bool) (s : State) (c : Slot) (message : CString) :
    lastText (chatProtocolSendMessageToClient fails s c message).1 = some message := by
  rw [sendMessageToClient_fst, lastText, State.trace_emit, List.getLast?_concat]

section Lists
variable {size : Nat} {head : CString}

theorem ne_unknownMsg {message : CString} (h : head.bytes.IsPrefix message.bytes)
    (hother : ¬ head.bytes.IsPrefix unknownMsg.bytes) : message ≠ unknownMsg :=
  fun heq => hother (heq ▸ h)

theorem head_strncatWithin {dst : CString} (h : head.bytes.IsPrefix dst.bytes)
    (src : CString) : head.bytes.IsPrefix (strncatWithin size dst src).bytes :=
  h.trans (List.prefix_append _ _)

theorem head_listRoomsLoop {manager : RoomManager} {slots : List (Fin maxRooms)}
    {buffer : CString} (h : head.bytes.IsPrefix buffer.bytes) :
    head.bytes.IsPrefix (listRoomsLoop manager size slots buffer).bytes := by
  induction slots generalizing buffer with
  | nil => exact h
  | cons i rest ih =>
    unfold listRoomsLoop
    split
    · apply ih
      split
      · exact head_strncatWithin h _
      · exact h
    · exact h

theorem head_foldl_strncatWithin {α : Type} {f : α → CString} {l : List α} {buffer : CString}
    (h : head.bytes.IsPrefix buffer.bytes) :
    head.bytes.IsPrefix
      (l.foldl (fun buffer a => strncatWithin size buffer (f a)) buffer).bytes := by
  induction l generalizing buffer with
  | nil => exact h
  | cons a rest ih => exact ih (head_strncatWithin h _)

end Lists

/-- The list of the rooms begins with its title. -/
theorem head_listRooms (manager : RoomManager) :
    (CString.ofString "=").bytes.IsPrefix
      (roomManagerListRooms manager (bufferSize * 2)).bytes := by
  have htitle : (CString.ofString "=").bytes.IsPrefix
      (("=== Active Rooms ===\n" : CString).take (bufferSize * 2 - 1)).bytes := by
    decide +kernel
  unfold roomManagerListRooms
  apply head_strncatWithin
  split
  · exact head_strncatWithin htitle _
  · exact head_listRoomsLoop htitle

theorem getRoomUsers_ne_unknownMsg (s : State) (roomId : CString) :
    roomManagerGetRoomUsers s roomId bufferSize ≠ unknownMsg := by
  unfold roomManagerGetRoomUsers
  split
  · decide +kernel
  · rename_i r _
    refine @ne_unknownMsg "=" _ ?_ (by decide +kernel)
    apply head_strncatWithin
    apply head_foldl_strncatWithin
    have htitle : (CString.ofString "=").bytes.IsPrefix
        (CString.ofString "=== Users in Room ").bytes := by
      decide +kernel
    have hwhole := htitle.trans ((List.prefix_append _ (s.roomManager.rooms r).roomName.bytes).trans
      (List.prefix_append _ (CString.ofString " ===\n").bytes))
    exact List.prefix_take_iff.mpr ⟨hwhole, by decide +kernel⟩

section Replies
variable (libc : Libc) (env : Env) (s : State) (c : Slot)

theorem ne_unknownReply {result : State × Int} {message : CString}
    (htext : lastText result.1 = some message) (hne : message ≠ unknownMsg) :
    result ≠ unknownReply env s c := by
  intro heq
  rw [heq] at htext
  have hunknown := lastText_send (env.sendFails 0) s c unknownMsg
  rw [sendMessageToClient_fst] at hunknown
  exact hne (Option.some.inj (htext.symm.trans hunknown))

theorem leaveRoom_ne_unknownReply :
    chatProtocolHandleLeaveRoom env s c ≠ unknownReply env s c := by
  unfold chatProtocolHandleLeaveRoom
  dsimp only
  split
  · exact ne_unknownReply env s c (lastText_send _ _ _ _) (by decide +kernel)
  · exact ne_unknownReply env s c (lastText_send _ _ _ _) (by decide +kernel)

theorem listUsers_ne_unknownReply :
    chatProtocolHandleListUsers env s c ≠ unknownReply env s c := by
  unfold chatProtocolHandleListUsers
  dsimp only
  split
  · exact ne_unknownReply env s c (lastText_send _ _ _ _) (by decide +kernel)
  · exact ne_unknownReply env s c (lastText_send _ _ _ _) (getRoomUsers_ne_unknownMsg _ _)

/-- Every other handler can be told from the answer to an unknown command, and a command that
lacks its argument as well. -/
theorem perform_ne_unknownReply {w : Word} (hmem : w ∈ words) {line : CString}
    (hkind : w.kind ≠ .keyword) (halone : w.kind = .argument → line = w.text) :
    perform libc env s c (w.request line) ≠ unknownReply env s c := by
  have htold : ∀ {message : CString}, message ≠ unknownMsg →
      ((chatProtocolSendMessageToClient (env.sendFails 0) s c message).1, (0 : Int)) ≠
        unknownReply env s c := fun hne =>
    ne_unknownReply env s c (lastText_send _ _ _ _) hne
  simp only [words, List.mem_cons, List.not_mem_nil, or_false] at hmem
  rcases hmem with rfl | rfl | rfl | rfl | rfl | rfl | rfl | rfl | rfl | rfl | rfl
  · rw [halone rfl]
    exact htold (by decide +kernel)
  · rw [halone rfl]
    exact htold (by decide +kernel)
  · exact leaveRoom_ne_unknownReply env s c
  · exact htold (ne_unknownMsg (head_listRooms s.roomManager) (by decide +kernel))
  · rw [halone rfl]
    exact htold (by decide +kernel)
  · exact listUsers_ne_unknownReply env s c
  · exact listUsers_ne_unknownReply env s c
  · exact htold (by decide +kernel)
  · intro heq
    have hresult : (-1 : Int) = 0 := congrArg Prod.snd heq
    omega
  · exact absurd rfl hkind
  · exact absurd rfl hkind

end Replies

section Dispatch
variable {w : Word} {line message : CString}

theorem parseCommand_of_test (hmem : w ∈ words) (htest : line.startsWith w.test = true) :
    parseCommand line = w.request line := by
  rw [parseCommand_eq, CString.lookup_eq_some hmem htest fun v hv hvtest =>
    CString.eq_of_startsWith words_incomparable hv hmem (startsWith_text hvtest)
      (startsWith_text htest)]
  rfl

theorem parseCommand_of_no_test (h : ∀ w ∈ words, ¬ line.startsWith w.test = true) :
    parseCommand line = .unknown := by
  rw [parseCommand_eq, CString.lookup_eq_none_iff.mpr fun w hw =>
    Bool.eq_false_iff.mpr (h w hw)]
  rfl

theorem handleMessage_of_slash (libc : Libc) (env : Env) (s : State) (c : Slot)
    (hslash : (cleanMessage message).bytes.head? = some 47) :
    chatProtocolHandleMessage libc env s c message =
      perform libc env s c (parseCommand (cleanMessage message)) := by
  have hlength : (cleanMessage message).length ≠ 0 := by
    intro hzero
    rw [List.length_eq_zero_iff.mp hzero] at hslash
    cases hslash
  rw [handleMessage_eq, parse, if_neg hlength, if_pos hslash]

theorem wholeWords_iff :
    WholeWords line ↔ ∀ w ∈ words, (line.startsWith w.test = true ↔ w.Names line) :=
  forall₂_congr fun w hw => Word.whole_iff (blank_notMem_words w hw)

/-- Only words of the help text go wrong, and those that take an argument when they stand
alone. -/
theorem of_not_whole (hbroken : ¬ w.Whole line) :
    w.kind ≠ .keyword ∧ (w.kind = .argument → line = w.text) := by
  unfold Word.Whole at hbroken
  cases hkind : w.kind with
  | bare => simp
  | argument =>
    rw [hkind] at hbroken
    exact ⟨by simp, fun _ => not_not.mp hbroken⟩
  | keyword =>
    rw [hkind] at hbroken
    exact absurd trivial hbroken

end Dispatch

/-- A line is served as the help text says exactly when each word it begins with is a whole
word, and has its argument if it takes one. -/
theorem runsDocumented_iff (libc : Libc) (env : Env) (s : State) (c : Slot) (message : CString)
    (hslash : (cleanMessage message).bytes.head? = some 47) :
    RunsDocumented libc env s c message ↔ WholeWords (cleanMessage message) := by
  have hrun := handleMessage_of_slash libc env s c hslash
  generalize hline : cleanMessage message = line at hrun hslash
  constructor
  · intro hall w hmem
    obtain ⟨hdocumented, hunknown⟩ := hall
    rw [hline, hrun] at hdocumented hunknown
    by_contra hbroken
    obtain ⟨hkind, halone⟩ := of_not_whole hbroken
    have hdiffer := perform_ne_unknownReply libc env s c hmem hkind halone
    have honly : ∀ v ∈ words, line.startsWith v.text = true → line.startsWith w.text = true →
        v = w := fun v hv => CString.eq_of_startsWith words_incomparable hv hmem
    rw [Word.whole_iff (blank_notMem_words w hmem)] at hbroken
    by_cases htest : line.startsWith w.test = true
    · have hnames : ¬ w.Names line := fun h => hbroken (iff_of_true htest h)
      rw [parseCommand_of_test hmem htest] at hunknown
      refine hdiffer (hunknown ?_)
      rintro r ⟨v, hv, hvnames, _⟩
      rw [honly v hv hvnames.startsWith (startsWith_text htest)] at hvnames
      exact hnames hvnames
    · have hnames : w.Names line := by
        by_contra h
        exact hbroken (iff_of_false htest h)
      have hnone : ∀ v ∈ words, ¬ line.startsWith v.test = true := by
        intro v hv hvtest
        rw [honly v hv (startsWith_text hvtest) hnames.startsWith] at hvtest
        exact htest hvtest
      have hserved := hdocumented _ ⟨w, hmem, hnames, rfl⟩
      rw [parseCommand_of_no_test hnone] at hserved
      exact hdiffer hserved.symm
  · intro hwhole
    rw [wholeWords_iff] at hwhole
    constructor
    · rw [hline, hrun]
      rintro r ⟨w, hmem, hnames, rfl⟩
      rw [parseCommand_of_test hmem ((hwhole w hmem).mpr hnames)]
    · rw [hline, hrun]
      intro hnone
      rw [parseCommand_of_no_test fun w hmem htest =>
        hnone _ ⟨w, hmem, (hwhole w hmem).mp htest, rfl⟩]
      rfl

/-- A room is opened for a line that names it. -/
theorem runsDocumented_iff_create :
    RunsDocumented countingLibc calm zeroedMemory 0 "/create den\n" :=
  (runsDocumented_iff countingLibc calm zeroedMemory 0 _ (by decide +kernel)).mpr
    (by decide +kernel)

/-- A line that begins with a word of another meaning ends the session. -/
theorem quitting_time_quits :
    ¬ ∀ (libc : Libc) (env : Env) (s : State) (c : Slot) (message : CString),
      (cleanMessage message).bytes.head? = some 47 → RunsDocumented libc env s c message := by
  intro h
  have hruns := h countingLibc calm zeroedMemory 0 "/quitting time\n" (by decide +kernel)
  have hnamed : ∀ w ∈ words, ¬ w.Names (cleanMessage "/quitting time\n") := by
    decide +kernel
  have hreply := hruns.unknown fun _ hdocumented => by
    obtain ⟨w, hmem, hnames, _⟩ := hdocumented
    exact hnamed w hmem hnames
  have hresult : (chatProtocolHandleMessage countingLibc calm zeroedMemory 0
      "/quitting time\n").2 = -1 := by
    decide +kernel
  rw [hreply] at hresult
  cases hresult

end TcpChat.Server
