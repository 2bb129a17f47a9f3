import TcpChat.UserList

/-!
# Changing a nickname

`chat_protocol_handle_nickname_change` cuts the argument to the size of its buffer before it looks
for the end of the nickname and checks the length. Its copy of the old nickname ends inside the
array only where the nickname is shorter than the copy.
-/

namespace TcpChat.Server

open Base Base.Runs
set_option autoImplicit false

/-- The text in front of the first line feed, carriage return, blank or tab. -/
def askedNickname (newNickname : CString) : CString := newNickname.upTo (· ∈ [10, 13, 32, 9])

def renamed (s : State) (c : Slot) (nickname : CString) : State :=
  s.setSession c { s.session c with nickname := nickname }

/-- The announcement goes out from `s`, and the list of users behind it. -/
def announced (env : Env) (s : State) (announcement : CString) : State :=
  clientManagerBroadcastUserList (env.sendFails 1)
    (clientManagerBroadcastMessage (env.sendFails 0) s announcement (-1))

section Handler
variable (env : Env) (s : State) (c : Slot) {newNickname : CString}

theorem cleanNickname_eq (newNickname : CString) :
    cleanNickname newNickname = (askedNickname newNickname).take (maxNicknameLen - 1) := by
  ext1
  exact (List.take_takeWhile ..).symm

theorem length_cleanNickname (newNickname : CString) :
    (cleanNickname newNickname).length =
      min (maxNicknameLen - 1) (askedNickname newNickname).length := by
  rw [cleanNickname_eq, CString.length_take]

/-- A nickname that is not empty is never refused: the copy is shorter than the limit. -/
theorem nicknameChange_eq_announced (h : (cleanNickname newNickname).length ≠ 0) :
    chatProtocolHandleNicknameChange env s c newNickname =
      (announced env (renamed s c (cleanNickname newNickname))
        ((nickAnnouncement (oldNickname env.stack (s.session c).nickname)
          (cleanNickname newNickname)).take (bufferSize - 1)), 0) := by
  rw [nicknameChange_of_not_empty env s c h, setNickname_cleanNickname]
  rfl

end Handler

section Events
variable {fails : Slot → Bool} {message : CString} {senderId : Int} {s : State}

/-- A broadcast sends its text and no other. -/
theorem text_of_mem_broadcastEvents {l : List Slot} {fd : Int} {text : CString} {ok : Bool}
    (h : .send fd (.text text) ok ∈ l.flatMap (broadcastEvents fails message senderId s)) :
    text = message := by
  rcases mem_broadcastEvents h with ⟨_, hclose⟩ | ⟨d, _, hsend⟩
  · cases hclose
  · cases hsend
    rfl

/-- Where there is anybody to send to, the text goes out first. -/
theorem head_broadcastEvents (fails : Slot → Bool) {l : List Slot} {d : Slot} (hd : d ∈ l)
    (hreached : Reached s senderId d) :
    ∃ fd ok, ∀ message, (l.flatMap (broadcastEvents fails message senderId s)).head? =
      some (.send fd (.text message) ok) := by
  induction l with
  | nil => cases hd
  | cons i l ih =>
    by_cases hi : Reached s senderId i
    · refine ⟨(s.session i).socketFd, !fails i, fun message => ?_⟩
      rw [List.flatMap_cons, broadcastEvents, if_pos hi]
      rfl
    · have hdl : d ∈ l := (List.mem_cons.mp hd).resolve_left fun heq => hi (heq ▸ hreached)
      obtain ⟨fd, ok, hhead⟩ := ih hdl
      refine ⟨fd, ok, fun message => ?_⟩
      rw [List.flatMap_cons, broadcastEvents, if_neg hi, List.nil_append]
      exact hhead message

theorem trace_announced (env : Env) (s : State) (announcement : CString) :
    (announced env s announcement).trace = s.trace ++
      ((List.finRange maxClients).flatMap
          (broadcastEvents (env.sendFails 0) announcement (-1) s) ++
        (List.finRange maxClients).flatMap (broadcastEvents (env.sendFails 1)
          (userList (clientManagerBroadcastMessage (env.sendFails 0) s announcement (-1))) (-1)
          (clientManagerBroadcastMessage (env.sendFails 0) s announcement (-1)))) := by
  rw [announced, clientManagerBroadcastUserList, trace_broadcast, trace_broadcast,
    List.append_assoc]

/-- Somebody who is online can tell two announcements apart. -/
theorem announced_inj {env : Env} {c : Slot} (hactive : (s.session c).active = true)
    {first second : CString} (h : announced env s first = announced env s second) :
    first = second := by
  have hreached : Reached s (-1) c := ⟨hactive, by omega⟩
  obtain ⟨fd, ok, hhead⟩ := head_broadcastEvents (env.sendFails 0) (List.mem_finRange c) hreached
  have htrace := congrArg State.trace h
  rw [trace_announced, trace_announced] at htrace
  have hfirst := congrArg List.head? (List.append_cancel_left htrace)
  rw [List.head?_append, List.head?_append, hhead, hhead] at hfirst
  cases hfirst
  rfl

end Events

section Copy

/-- The terminator of the copy is inside the array: behind a shorter nickname it is written, behind
31 bytes it is what was there before. -/
def Terminated (stack : List UInt8) (nickname : CString) : Prop :=
  nickname.length < maxNicknameLen - 1 ∨ stack.getD (maxNicknameLen - 1) 0 = 0

instance (stack : List UInt8) (nickname : CString) : Decidable (Terminated stack nickname) :=
  inferInstanceAs (Decidable (_ ∨ _))

theorem ofBuffer_eq_empty_iff (buffer : List UInt8) :
    CString.ofBuffer buffer = .empty ↔ buffer.getD 0 0 = 0 := by
  rw [CString.ext_iff, CString.bytes_empty]
  cases buffer with
  | nil => exact iff_of_true rfl rfl
  | cons b buffer => simp [CString.ofBuffer, List.takeWhile_cons]

/-- The copy is the nickname exactly when it is terminated. -/
theorem oldNickname_eq_iff (stack : List UInt8) {nickname : CString}
    (h : nickname.length ≤ maxNicknameLen - 1) :
    oldNickname stack nickname = nickname ↔ Terminated stack nickname := by
  have hcopied : nickname.bytes.take (maxNicknameLen - 1) = nickname.bytes :=
    List.take_of_length_le h
  rw [oldNickname, Terminated, hcopied, List.append_assoc, CString.ofBuffer_append]
  change nickname ++ CString.ofBuffer (List.replicate (maxNicknameLen - 1 - nickname.length) 0 ++
    stack.drop (maxNicknameLen - 1)) = nickname ↔ _
  rw [CString.ext_iff, CString.bytes_append, List.append_right_eq_self, ← CString.bytes_empty,
    ← CString.ext_iff, ofBuffer_eq_empty_iff]
  by_cases hlt : nickname.length < maxNicknameLen - 1
  · obtain ⟨k, hk⟩ := Nat.exists_eq_add_one_of_ne_zero (Nat.sub_ne_zero_of_lt hlt)
    rw [hk, List.replicate_succ]
    exact iff_of_true rfl (Or.inl hlt)
  · rw [Nat.sub_eq_zero_of_le (Nat.not_lt.mp hlt), List.replicate_zero, List.nil_append]
    simp [hlt, List.getD_eq_getElem?_getD]

end Copy

section Announcement
variable {old old' new : CString}

theorem length_nickAnnouncement (old new : CString) :
    (nickAnnouncement old new).length = 26 + old.length + new.length := by
  have hfront : (CString.ofString "*** ").length = 4 := by decide
  have hmiddle : (CString.ofString " is now known as ").length = 17 := by decide
  have hback : (CString.ofString " ***\n").length = 5 := by decide
  simp only [nickAnnouncement, CString.length_append, hfront, hmiddle, hback]
  omega

theorem nickAnnouncement_inj (h : nickAnnouncement old new = nickAnnouncement old' new) :
    old = old' := by
  have hbytes := congrArg CString.bytes h
  simp only [nickAnnouncement, CString.bytes_append, List.append_assoc] at hbytes
  have hback := List.append_cancel_left hbytes
  ext1
  exact List.append_cancel_right hback

/-- The text that goes out is as it should be exactly when the copy of the old nickname is. -/
theorem take_nickAnnouncement_eq_iff (hold : old.length ≤ maxNicknameLen - 1)
    (hnew : new.length ≤ maxNicknameLen - 1) :
    (nickAnnouncement old' new).take (bufferSize - 1) = nickAnnouncement old new ↔ old' = old := by
  have hlength := length_nickAnnouncement old new
  have hsmall : (nickAnnouncement old new).length < bufferSize - 1 := by
    simp only [maxNicknameLen] at hold hnew
    simp only [bufferSize]
    omega
  constructor
  · intro h
    have hcut := congrArg CString.length h
    rw [CString.length_take] at hcut
    rw [CString.take_of_length_le (by omega)] at h
    exact nickAnnouncement_inj h
  · rintro rfl
    exact CString.take_of_length_le (Nat.le_of_lt hsmall)

end Announcement

/-- With either content of the array the change does the same, and everybody is told the old
nickname and the new one. -/
structure AnnouncesExactly (env : Env) (s : State) (c : Slot) (newNickname : CString)
    (stack₁ stack₂ : List UInt8) : Prop where
  same : chatProtocolHandleNicknameChange { env with stack := stack₁ } s c newNickname =
    chatProtocolHandleNicknameChange { env with stack := stack₂ } s c newNickname
  named : chatProtocolHandleNicknameChange { env with stack := stack₁ } s c newNickname =
    (announced env (renamed s c (cleanNickname newNickname))
      (nickAnnouncement (s.session c).nickname (cleanNickname newNickname)), 0)

section Announced
variable {s : State} {c : Slot} {newNickname : CString}
  (hactive : (s.session c).active = true)
  (hold : (s.session c).nickname.length ≤ maxNicknameLen - 1)
  (hnew : (cleanNickname newNickname).length ≠ 0)
include hactive hold hnew

theorem nicknameChange_eq_iff (env : Env) (stack : List UInt8) :
    chatProtocolHandleNicknameChange { env with stack := stack } s c newNickname =
      (announced env (renamed s c (cleanNickname newNickname))
        (nickAnnouncement (s.session c).nickname (cleanNickname newNickname)), 0) ↔
      Terminated stack (s.session c).nickname := by
  have hlt := Nat.le_sub_one_of_lt (length_cleanNickname_lt newNickname)
  have hrenamed : ((renamed s c (cleanNickname newNickname)).session c).active = true := by
    rw [renamed, State.session_setSession_self]
    exact hactive
  have hsends : announced { env with stack := stack } = announced env := rfl
  rw [nicknameChange_eq_announced _ s c hnew, hsends, ← oldNickname_eq_iff stack hold,
    ← take_nickAnnouncement_eq_iff hold hlt]
  constructor
  · intro h
    exact announced_inj hrenamed (Prod.mk.inj h).1
  · intro h
    rw [h]

/-- The announcement does not depend on the memory of the array exactly when both contents
terminate the copy. -/
theorem nickAnnouncement_exact_iff (env : Env) (stack₁ stack₂ : List UInt8) :
    AnnouncesExactly env s c newNickname stack₁ stack₂ ↔
      Terminated stack₁ (s.session c).nickname ∧ Terminated stack₂ (s.session c).nickname := by
  have hfirst := nicknameChange_eq_iff hactive hold hnew env stack₁
  have hsecond := nicknameChange_eq_iff hactive hold hnew env stack₂
  constructor
  · intro h
    exact ⟨hfirst.mp h.named, hsecond.mp (h.same ▸ h.named)⟩
  · rintro ⟨h₁, h₂⟩
    exact ⟨(hfirst.mpr h₁).trans (hsecond.mpr h₂).symm, hfirst.mpr h₁⟩

end Announced

section Greeting

/-- One client has connected and asked for a nickname; `c` is the slot it is in. -/
def greeted (c : Slot) (nickname : CString) : State :=
  run (Op.step countingLibc) (start zeroedMemory)
    [.connect 5 true, .enterLobby c, .message c ("/nick " ++ nickname) calm]

theorem short_nickname_announced :
    ((greeted 0 "alice").session 0).active = true ∧
      ((greeted 0 "alice").session 0).nickname.length ≤ maxNicknameLen - 1 ∧
      (cleanNickname "bob").length ≠ 0 ∧
      AnnouncesExactly calm (greeted 0 "alice") 0 "bob" (List.replicate 40 65)
        (List.replicate 40 66) := by
  have hactive : ((greeted 0 "alice").session 0).active = true := by decide +kernel
  have hold : ((greeted 0 "alice").session 0).nickname.length ≤ maxNicknameLen - 1 := by
    decide +kernel
  have hnew : (cleanNickname "bob").length ≠ 0 := by decide
  refine ⟨hactive, hold, hnew, (nickAnnouncement_exact_iff hactive hold hnew _ _ _).mpr ?_⟩
  decide +kernel

/-- Behind a nickname of 31 bytes everybody is told what the memory held. -/
theorem stack_leaks :
    ¬ ∀ (env : Env) (s : State) (c : Slot) (newNickname : CString) (stack₁ stack₂ : List UInt8),
      (s.session c).active = true → 1 ≤ (s.session c).nickname.length →
      (s.session c).nickname.length ≤ 31 → (cleanNickname newNickname).length ≠ 0 →
      AnnouncesExactly env s c newNickname stack₁ stack₂ := by
  intro h
  have hsame := (h calm (greeted 0 longNickname) 0 "bob" (List.replicate 40 65)
    (List.replicate 40 66) (by decide +kernel) (by decide +kernel) (by decide +kernel)
    (by decide)).same
  have htrace := congrArg (fun result => result.1.trace) hsame
  exact absurd htrace (by decide +kernel)

end Greeting

/-- A nickname of 1 to 31 bytes is taken as it is, and any other is answered with an error and
nothing else. -/
structure NickExact (env : Env) (s : State) (c : Slot) (newNickname : CString) : Prop where
  taken : 1 ≤ (askedNickname newNickname).length → (askedNickname newNickname).length ≤ 31 →
    (chatProtocolHandleNicknameChange env s c newNickname).1.session c =
      { s.session c with nickname := askedNickname newNickname }
  refused : ¬ (1 ≤ (askedNickname newNickname).length ∧
      (askedNickname newNickname).length ≤ 31) →
    ∃ error : CString, error.startsWith "Error: " = true ∧
      (chatProtocolHandleNicknameChange env s c newNickname).1 =
        s.emit [.send (s.session c).socketFd (.text error) (!env.sendFails 0 c)]

section Exact
variable (env : Env) (s : State) (c : Slot)

theorem session_announced_renamed (nickname announcement : CString) :
    (announced env (renamed s c nickname) announcement).session c =
      if Dropped env s c then (s.session c).cleaned
      else { s.session c with nickname := nickname } := by
  rw [announced, clientManagerBroadcastUserList, session_broadcast_broadcast, renamed,
    State.session_setSession_self]
  rfl

/-- No error is sent with the announcement or with the list of users. -/
theorem announced_ne_error {env : Env} {s t : State} {announcement error : CString} {fd : Int}
    {ok : Bool} (htrace : t.trace = s.trace)
    (hannouncement : announcement.startsWith "***" = true)
    (herror : error.startsWith "Error: " = true) :
    announced env t announcement ≠ s.emit [.send fd (.text error) ok] := by
  intro h
  have hevents := congrArg State.trace h
  rw [trace_announced, htrace] at hevents
  have hmem : Event.send fd (.text error) ok ∈ [Event.send fd (.text error) ok] :=
    List.mem_singleton_self _
  rw [← List.append_cancel_left hevents] at hmem
  have hstars : error.startsWith "***" = true := by
    rcases List.mem_append.mp hmem with hmem | hmem
    · rw [text_of_mem_broadcastEvents hmem]
      exact hannouncement
    · rw [text_of_mem_broadcastEvents hmem, userList_eq, CString.append_assoc,
        CString.startsWith_append _ (by decide)]
      decide
  rw [CString.startsWith_iff] at hstars herror
  have hprefix := List.prefix_of_prefix_length_le hstars herror (by decide)
  exact absurd hprefix (by decide)

theorem startsWith_nickAnnouncement (old new : CString) :
    ((nickAnnouncement old new).take (bufferSize - 1)).startsWith "***" = true := by
  rw [CString.startsWith_iff, CString.bytes_take, List.prefix_take_iff, ← CString.startsWith_iff,
    nickAnnouncement, CString.append_assoc, CString.append_assoc, CString.append_assoc,
    CString.startsWith_append _ (by decide)]
  decide

/-- `/nick` takes effect exactly or not at all exactly when the nickname has at most 31 bytes and
the client gets both broadcasts. A longer one is cut, and the test for its length finds nothing;
a client that does not get one is evicted, and its nickname with it. -/
theorem nickname_taken_or_refused_iff (newNickname : CString) :
    NickExact env s c newNickname ↔
      (askedNickname newNickname).length < maxNicknameLen ∧
        ((askedNickname newNickname).length ≠ 0 → ¬ Dropped env s c) := by
  have hclean := length_cleanNickname newNickname
  by_cases hshort : (askedNickname newNickname).length < maxNicknameLen
  · have hsame : cleanNickname newNickname = askedNickname newNickname := by
      rw [cleanNickname_eq, CString.take_of_length_le (Nat.le_sub_one_of_lt hshort)]
    by_cases hempty : (askedNickname newNickname).length = 0
    · refine iff_of_true ⟨fun hsome => by omega, fun _ => ?_⟩ ⟨hshort, fun h => absurd hempty h⟩
      rw [nicknameChange_of_empty _ _ _ (hsame ▸ hempty)]
      exact ⟨_, by decide, rfl⟩
    · have hsession : (chatProtocolHandleNicknameChange env s c newNickname).1.session c =
          if Dropped env s c then (s.session c).cleaned
          else { s.session c with nickname := askedNickname newNickname } := by
        rw [nicknameChange_eq_announced env s c (hsame ▸ hempty), session_announced_renamed, hsame]
      rw [maxNicknameLen] at hshort
      constructor
      · intro h
        refine ⟨hshort, fun _ hdropped => hempty ?_⟩
        have htaken := h.taken (by omega) (by omega)
        rw [hsession, if_pos hdropped] at htaken
        have hcleaned := congrArg (fun session => session.nickname.length) htaken
        exact hcleaned.symm
      · intro h
        refine ⟨fun _ _ => ?_, fun hnone => absurd ⟨by omega, by omega⟩ hnone⟩
        rw [hsession, if_neg (h.2 hempty)]
  · refine iff_of_false (fun h => ?_) fun h => hshort h.1
    rw [Nat.not_lt, maxNicknameLen] at hshort
    obtain ⟨error, herror, heq⟩ := h.refused (by omega)
    have hne : (cleanNickname newNickname).length ≠ 0 := by
      rw [hclean, maxNicknameLen]
      omega
    rw [nicknameChange_eq_announced _ _ _ hne] at heq
    dsimp only at heq
    have htrace : (renamed s c (cleanNickname newNickname)).trace = s.trace := rfl
    have hstars := startsWith_nickAnnouncement (oldNickname env.stack (s.session c).nickname)
      (cleanNickname newNickname)
    exact announced_ne_error htrace hstars herror heq

end Exact

/-- A nickname of 32 bytes. -/
theorem cut_nickname_taken :
    ¬ ∀ (env : Env) (s : State) (c : Slot) (newNickname : CString),
      NickExact env s c newNickname := by
  intro h
  obtain ⟨error, _, heq⟩ := (h calm (greeted 0 "alice") 0 (longNickname ++ "_x")).refused (by decide)
  have hnickname := congrArg (fun t => (t.session 0).nickname) heq
  rw [State.session_emit] at hnickname
  exact absurd hnickname (by decide +kernel)

end TcpChat.Server
