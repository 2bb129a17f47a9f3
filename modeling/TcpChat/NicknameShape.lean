import TcpChat.Server.Nicknames

/-!
# The shape of nicknames

A nickname is put at the front of the lines that others read. `/nick` cuts it at the first
blank; a SYN is only looked at for its length.
-/

namespace TcpChat.Server

open Base Base.Runs
set_option autoImplicit false

/-- Space, tab, carriage return and line feed. -/
def blanks : List UInt8 := [32, 9, 13, 10]

/-- One line, with its end. -/
def SingleLine (line : CString) : Prop :=
  ∃ body : CString, line = body ++ "\n" ∧ ∀ b ∈ body.bytes, b ≠ 10 ∧ b ≠ 13

/-- The nickname of a session, and the lines that are formatted with it. -/
structure NicknameOk (session : ClientSession) : Prop where
  length_pos : 1 ≤ session.nickname.length
  length_le : session.nickname.length ≤ 31
  no_blank : ∀ b ∈ session.nickname.bytes, b ∉ blanks
  chat_line : ∀ message text line, parse message = .chat text →
    relayText session (.chat text) = some line → SingleLine line
  joined_line : SingleLine
    (("*** " ++ session.nickname ++ " joined the room ***\n" : CString).take (bufferSize - 1))

def NicknamesOk (sys : System) : Prop :=
  ∀ d, (sys.server.session d).active = true → NicknameOk (sys.server.session d)

/-- A SYN whose nickname goes to a live session has no blank in it. -/
def CleanSyn (sys : System) (label : Label) : Prop :=
  ∀ d nickname, TakesNickname sys label d nickname → (sys.server.session d).active = true →
    ∀ b ∈ nickname.bytes, b ∉ blanks

/-- What the nickname itself has to be. -/
structure Shaped (nickname : CString) : Prop where
  length_pos : 1 ≤ nickname.length
  length_lt : nickname.length < maxNicknameLen
  no_blank : ∀ b ∈ nickname.bytes, b ∉ blanks

section Lines
variable {session : ClientSession} {message text line : CString}

theorem parseCommand_ne_chat (command text : CString) : parseCommand command ≠ .chat text := by
  have hite : ∀ (p : Prop) [Decidable p] (r r' : Request), r ≠ .chat text → r' ≠ .chat text →
      (if p then r else r') ≠ .chat text := by
    intro p _ r r' hr hr'
    split
    · exact hr
    · exact hr'
  unfold parseCommand
  repeat' apply hite
  all_goals
    intro h
    cases h

/-- The text of a chat message is cut to the buffer and at its first line end. -/
theorem chat_text (h : parse message = .chat text) :
    text.length < bufferSize ∧ ∀ b ∈ text.bytes, b ≠ 10 ∧ b ≠ 13 := by
  have htext : text = cleanMessage message := by
    unfold parse at h
    dsimp only at h
    split at h
    · cases h
    · split at h
      · exact absurd h (parseCommand_ne_chat _ text)
      · exact (Request.chat.inj h).symm
  subst htext
  constructor
  · have hpre := (List.takeWhile_prefix (l := (message.take (bufferSize - 1)).bytes)
      fun b => !decide (b ∈ [10, 13])).length_le
    have htake : (message.take (bufferSize - 1)).bytes.length ≤ 1023 := by
      rw [CString.bytes_take, List.length_take]
      exact Nat.min_le_left _ _
    exact Nat.lt_succ_of_le (Nat.le_trans hpre htake)
  · intro b hb
    have hkept := List.mem_takeWhile_imp hb
    simp only [List.mem_cons, List.not_mem_nil, or_false, Bool.not_eq_true',
      decide_eq_false_iff_not, not_or] at hkept
    exact hkept

/-- The line of a chat message is not cut. -/
theorem chat_line_eq (hshort : session.nickname.length < maxNicknameLen)
    (hparse : parse message = .chat text) (hline : relayText session (.chat text) = some line) :
    line = session.nickname ++ ": " ++ text ++ "\n" := by
  have hname : session.nickname.length < 32 := hshort
  have htext : text.length < 1024 := (chat_text hparse).1
  have hcolon : CString.length ": " = 2 := by decide
  have hend : CString.length "\n" = 1 := by decide
  cases hline
  apply CString.take_of_length_le
  rw [CString.length_append, CString.length_append, CString.length_append, hcolon, hend]
  change _ ≤ 1065
  omega

end Lines

section Shape
variable {session : ClientSession}

theorem lineEnd_free {text : CString} (h : (text.bytes.all fun b => b != 10 && b != 13) = true) :
    ∀ b ∈ text.bytes, b ≠ 10 ∧ b ≠ 13 := by
  intro b hb
  have hboth := List.all_eq_true.mp h b hb
  simp only [Bool.and_eq_true, bne_iff_ne] at hboth
  exact hboth

theorem Shaped.no_lineEnd {nickname : CString} (h : Shaped nickname) {b : UInt8}
    (hb : b ∈ nickname.bytes) : b ≠ 10 ∧ b ≠ 13 := by
  have hblank := h.no_blank b hb
  simp only [blanks, List.mem_cons, List.not_mem_nil, or_false, not_or] at hblank
  exact ⟨hblank.2.2.2, hblank.2.2.1⟩

theorem Shaped.nicknameOk (h : Shaped session.nickname) : NicknameOk session := by
  have hshort := h.length_lt
  constructor
  · exact h.length_pos
  · exact Nat.le_of_lt_succ hshort
  · exact h.no_blank
  · intro message text line hparse hline
    rw [chat_line_eq hshort hparse hline]
    refine ⟨session.nickname ++ ": " ++ text, rfl, fun b hb => ?_⟩
    have hcolon : ∀ b ∈ (CString.ofString ": ").bytes, b ≠ 10 ∧ b ≠ 13 :=
      lineEnd_free (by decide)
    simp only [CString.bytes_append, List.mem_append] at hb
    rcases hb with (hname | hsep) | htext
    · exact h.no_lineEnd hname
    · exact hcolon b hsep
    · exact (chat_text hparse).2 b htext
  · refine ⟨"*** " ++ session.nickname ++ " joined the room ***", ?_, fun b hb => ?_⟩
    · have hstars : CString.length "*** " = 4 := by decide
      have hjoined : CString.length " joined the room ***\n" = 21 := by decide
      have hsplit : CString.ofString " joined the room ***\n" =
          CString.ofString " joined the room ***" ++ "\n" := by
        ext1
        decide
      rw [CString.take_of_length_le]
      · ext1
        rw [hsplit, CString.bytes_append, CString.bytes_append, CString.bytes_append,
          CString.bytes_append, CString.bytes_append]
        exact (List.append_assoc _ _ _).symm
      · have hname : session.nickname.length < 32 := hshort
        rw [CString.length_append, CString.length_append, hstars, hjoined]
        change _ ≤ 1023
        omega
    · have hstars : ∀ b ∈ (CString.ofString "*** ").bytes, b ≠ 10 ∧ b ≠ 13 :=
        lineEnd_free (by decide)
      have hjoined : ∀ b ∈ (CString.ofString " joined the room ***").bytes, b ≠ 10 ∧ b ≠ 13 :=
        lineEnd_free (by decide)
      simp only [CString.bytes_append, List.mem_append] at hb
      rcases hb with (hfront | hname) | hback
      · exact hstars b hfront
      · exact h.no_lineEnd hname
      · exact hjoined b hback

theorem NicknameOk.shaped (h : NicknameOk session) : Shaped session.nickname :=
  ⟨h.length_pos, Nat.lt_succ_of_le h.length_le, h.no_blank⟩

theorem shaped_cleanNickname {newNickname : CString}
    (h : (cleanNickname newNickname).length ≠ 0) : Shaped (cleanNickname newNickname) := by
  refine ⟨Nat.one_le_iff_ne_zero.mpr h, length_cleanNickname_lt newNickname, fun b hb => ?_⟩
  have hkept := List.mem_takeWhile_imp hb
  simp only [List.mem_cons, List.not_mem_nil, or_false, Bool.not_eq_true',
    decide_eq_false_iff_not, not_or] at hkept
  simp only [blanks, List.mem_cons, List.not_mem_nil, or_false, not_or]
  exact ⟨hkept.2.2.1, hkept.2.2.2, hkept.2.1, hkept.1⟩

theorem shaped_defaultNickname {socketFd : Int} (h : 0 ≤ socketFd) :
    Shaped (defaultNickname socketFd) := by
  have huser : CString.length "User" = 4 := by decide
  constructor
  · rw [defaultNickname, CString.length_take, CString.length_append, huser, maxNicknameLen]
    omega
  · rw [defaultNickname, CString.length_take, maxNicknameLen]
    omega
  · intro b hb
    have hword : ((CString.ofString "User").bytes.all fun b => !blanks.contains b) = true := by
      decide
    rcases List.mem_append.mp (List.mem_of_mem_take hb) with hfront | hdigits
    · have hletter := List.all_eq_true.mp hword b hfront
      rw [Bool.not_eq_true', List.contains_eq_mem, decide_eq_false_iff_not] at hletter
      exact hletter
    · have hrange := CString.digit_of_mem_ofInt h hdigits
      intro hblank
      simp only [blanks, List.mem_cons, List.not_mem_nil, or_false] at hblank
      rcases hblank with rfl | rfl | rfl | rfl
      all_goals
        revert hrange
        decide

end Shape

theorem nicknamesOk_step_iff {libc : Libc} {sys : System} (h : NicknamesOk sys) (label : Label) :
    NicknamesOk (sys.step libc label) ↔ CleanSyn sys label := by
  constructor
  · intro hafter d nickname htakes hactive
    obtain ⟨hname, hsame⟩ := @TakesNickname.taken libc _ _ _ _ htakes
    have hok := hafter d (hsame.trans hactive)
    rw [← hname]
    exact hok.no_blank
  · intro hclean d hactive
    apply Shaped.nicknameOk
    generalize hname : ((sys.step libc label).server.session d).nickname = nickname
    have hfrom := nicknameFrom_step hactive
    rw [hname] at hfrom
    cases hfrom with
    | kept hbefore => exact (h d hbefore).shaped
    | syn htakes =>
      have hbefore := (@TakesNickname.taken libc _ _ _ _ htakes).2.symm.trans hactive
      obtain ⟨_, _, _, _, _, _, _, _, hpos, hlt⟩ := id htakes
      exact ⟨hpos, hlt, hclean d nickname htakes hbefore⟩
    | asked hne => exact shaped_cleanNickname hne
    | given hfd => exact shaped_defaultNickname hfd

/-- Nicknames keep their shape throughout a run exactly when no SYN brings a blank to a live
session. -/
theorem nicknamesOk_iff_cleanSyns (libc : Libc) (memory : State) (labels : List Label) :
    Always (System.step libc) NicknamesOk (System.start memory) labels ↔
      EachStep (System.step libc) CleanSyn (System.start memory) labels := by
  apply always_iff_eachStep (I := fun _ => True) (H := fun _ _ => True)
  · exact fun _ _ _ _ _ _ => trivial
  · exact fun sys label _ h _ => nicknamesOk_step_iff h label
  · trivial
  · intro d hactive
    cases hactive
  · exact fun _ _ _ => trivial

/-- The SYN brings a line end, and a second line under somebody else's name. -/
theorem nickname_forges_line :
    ¬ ∀ (libc : Libc) (memory : State) (labels : List Label),
      Always (System.step libc) NicknamesOk (System.start memory) labels := by
  intro h
  have hok := (h countingLibc zeroedMemory
    [.accept 5 true true calm,
      .handler 0 ⟨some (HandshakePacket.zero.setNickname "eve\nbob"), none, 0, calm⟩]).last
  exact (hok 0 (by decide +kernel)).no_blank 10 (by decide +kernel) (by decide)

end TcpChat.Server
