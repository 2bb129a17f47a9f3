import TcpChat.FrameTags

/-!
# The list of online users

`client_manager_broadcast_user_list` puts the nicknames together with `strcat`. With the texts
around them, 1002 bytes of nicknames and separators fit the buffer, and there is no check.
-/

namespace TcpChat.Server

open Base Base.Runs
set_option autoImplicit false

/-- The nicknames of the active sessions, in the order of their slots. -/
def onlineNicknames (s : State) : List CString :=
  ((List.finRange maxClients).filter fun i => (s.session i).active).map fun i =>
    (s.session i).nickname

/-- The list and its terminator fit the buffer, and no active session is missing. -/
structure UserListOk (s : State) : Prop where
  fits : (userList s).length + 1 ≤ bufferSize
  complete : ∀ d, (s.session d).active = true →
    (s.session d).nickname.bytes <:+: (userList s).bytes

/-- The nicknames and their separators leave room for the header and the trailer. -/
def NicknamesFit (s : State) : Prop :=
  ((onlineNicknames s).map fun nickname => nickname.length + 2).sum ≤ 1002

instance (s : State) : Decidable (NicknamesFit s) := inferInstanceAs (Decidable (_ ≤ _))

section Text

/-- What stands between the header and the trailer. -/
def listed : List CString → CString
  | [] => "None"
  | nickname :: rest => nickname ++ CString.concat (rest.map fun next => ", " ++ next)

theorem infix_listed {nickname : CString} {nicknames : List CString} (h : nickname ∈ nicknames) :
    nickname.bytes <:+: (listed nicknames).bytes := by
  cases nicknames with
  | nil => cases h
  | cons first rest =>
    rw [listed, CString.bytes_append]
    rcases List.mem_cons.mp h with rfl | h
    · exact List.infix_append' [] nickname.bytes _
    · have hpiece : nickname.bytes <:+: (", " ++ nickname : CString).bytes :=
        (List.suffix_append _ _).isInfix
      exact (hpiece.trans (CString.infix_concat (List.mem_map_of_mem h))).trans
        (List.suffix_append _ _).isInfix

theorem length_concat (l : List CString) :
    (CString.concat l).length = (l.map CString.length).sum := by
  induction l with
  | nil => rfl
  | cons s l ih => rw [CString.concat_cons, CString.length_append, ih, List.map_cons, List.sum_cons]

theorem length_listed (nicknames : List CString) :
    (listed nicknames).length + 2 = if nicknames = [] then 6 else
      (nicknames.map fun nickname => nickname.length + 2).sum := by
  cases nicknames with
  | nil => decide
  | cons first rest =>
    have hcomma : (CString.ofString ", ").length = 2 := by decide
    have hrest : (rest.map fun next => (", " ++ next : CString)).map CString.length =
        rest.map fun next => next.length + 2 := by
      rw [List.map_map]
      apply List.map_congr_left
      intro next _
      rw [Function.comp_apply, CString.length_append, hcomma, Nat.add_comm]
    rw [if_neg (List.cons_ne_nil _ _), listed, CString.length_append, length_concat, hrest,
      List.map_cons, List.sum_cons]
    omega

/-- The loop body, for a slot that is in use. -/
def appendName (s : State) (acc : CString × Nat) (i : Slot) : CString × Nat :=
  ((if acc.2 > 0 then acc.1 ++ ", " else acc.1) ++ (s.session i).nickname, acc.2 + 1)

/-- Behind the first name a separator goes in front of each. -/
theorem foldl_appendName (s : State) (slots : List Slot) (list : CString) {userCount : Nat}
    (h : 0 < userCount) :
    slots.foldl (appendName s) (list, userCount) =
      (list ++ CString.concat (slots.map fun i => ", " ++ (s.session i).nickname),
        userCount + slots.length) := by
  induction slots generalizing list userCount with
  | nil => rw [List.foldl_nil, List.map_nil, CString.concat_nil, CString.append_empty,
      List.length_nil, Nat.add_zero]
  | cons i slots ih =>
    have hcount : userCount + 1 + slots.length = userCount + (i :: slots).length := by
      rw [List.length_cons]
      omega
    rw [List.foldl_cons, appendName, if_pos h, ih _ (Nat.succ_pos userCount), List.map_cons,
      CString.concat_cons, ← CString.append_assoc, ← CString.append_assoc, hcount]

/-- The loop passes over the slots that are not in use. -/
theorem foldl_active (s : State) (slots : List Slot) (init : CString × Nat) :
    slots.foldl (fun (list, userCount) i =>
      if (s.session i).active then
        ((if userCount > 0 then list ++ ", " else list) ++ (s.session i).nickname, userCount + 1)
      else (list, userCount)) init =
    (slots.filter fun i => (s.session i).active).foldl (appendName s) init := by
  rw [List.foldl_filter]
  apply List.foldl_ext
  intro acc i _
  obtain ⟨list, userCount⟩ := acc
  rfl

/-- The text is the header, the nicknames and the trailer. -/
theorem userList_eq (s : State) :
    userList s = "*** Online users: " ++ listed (onlineNicknames s) ++ " ***\n" := by
  unfold userList onlineNicknames
  rw [foldl_active]
  cases (List.finRange maxClients).filter fun i => (s.session i).active with
  | nil =>
    rw [List.foldl_nil, List.map_nil, listed]
    dsimp only
    rw [if_pos rfl]
  | cons first rest =>
    rw [List.foldl_cons, appendName, if_neg (lt_irrefl 0), foldl_appendName s rest _ (by decide)]
    dsimp only
    rw [if_neg (by omega), List.map_cons, listed, List.map_map, ← CString.append_assoc]
    simp only [Function.comp_def]

theorem length_userList (s : State) :
    (userList s).length = 23 + (listed (onlineNicknames s)).length := by
  have hheader : (CString.ofString "*** Online users: ").length = 18 := by decide
  have htrailer : (CString.ofString " ***\n").length = 5 := by decide
  rw [userList_eq, CString.length_append, CString.length_append, hheader, htrailer]
  omega

theorem userList_complete (s : State) {d : Slot} (h : (s.session d).active = true) :
    (s.session d).nickname.bytes <:+: (userList s).bytes := by
  have hmem : (s.session d).nickname ∈ onlineNicknames s :=
    List.mem_map.mpr ⟨d, List.mem_filter.mpr ⟨List.mem_finRange d, h⟩, rfl⟩
  rw [userList_eq]
  exact (infix_listed hmem).trans ((List.suffix_append _ _).isInfix.trans
    (List.prefix_append _ _).isInfix)

theorem userListOk_iff (s : State) : UserListOk s ↔ NicknamesFit s := by
  have hlength := length_userList s
  have hlisted := length_listed (onlineNicknames s)
  have hsize : (userList s).length + 1 ≤ bufferSize ↔ NicknamesFit s := by
    rw [NicknamesFit, bufferSize]
    by_cases hnone : onlineNicknames s = []
    · rw [if_pos hnone] at hlisted
      rw [hnone, List.map_nil, List.sum_nil]
      omega
    · rw [if_neg hnone] at hlisted
      omega
  rw [← hsize]
  exact ⟨fun h => h.fits, fun h => ⟨h, fun d => userList_complete s⟩⟩

end Text

/-- In every state of the server the list is as it should be exactly when the nicknames of those
who are online fit. -/
theorem userList_fits_iff (libc : Libc) (memory : State) (labels : List Label) :
    Always (System.step libc) (fun sys => UserListOk sys.server ↔ NicknamesFit sys.server)
      (System.start memory) labels := by
  intro pre _
  exact userListOk_iff _

section Crowd

/-- A nickname that is as long as nicknames can be. -/
def longNickname : CString := "maximilian_alexander_the_fourth"

/-- `k` clients connect, one after the other, and each asks for the long nickname. -/
def crowd : Nat → List Label
  | 0 => []
  | k + 1 => crowd k ++ [.accept (k + 5) true true calm,
      .handler k ⟨some (HandshakePacket.zero.setNickname longNickname), none, 0, calm⟩]

/-- With 31 clients the list does not fit any more. -/
theorem long_list_overflows :
    ¬ ∀ (libc : Libc) (memory : State) (labels : List Label),
      Always (System.step libc) (fun sys => UserListOk sys.server) (System.start memory) labels := by
  intro h
  have hfits := (h countingLibc zeroedMemory (crowd 31)).last.fits
  exact absurd hfits (by decide +kernel)

end Crowd

end TcpChat.Server
