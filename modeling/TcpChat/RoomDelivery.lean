import TcpChat.Server.Descriptors
import TcpChat.Server.Membership

/-!
# Delivery to rooms

While nobody is torn down, every client is in at most one room, and a line of chat reaches each
of the others in its sender's room once, and nobody else.
-/

namespace TcpChat.Server

open Base Base.Runs
set_option autoImplicit false

structure RoomsExact (s : State) : Prop where
  one_room : ∀ (c : Slot) i k, Member s.roomManager i (c : Int) → Member s.roomManager k (c : Int) →
    i = k
  in_room : ∀ (c : Slot) i, Member s.roomManager i (c : Int) →
    (s.session c).active = true ∧ (s.session c).state = .inRoom ∧
      (s.session c).currentRoomId = (s.roomManager.rooms i).roomId

/-- `d` is another member of the room that `c` speaks in. -/
def Recipient (s : State) (c d : Slot) : Prop :=
  d ≠ c ∧ ∃ i, Member s.roomManager i (d : Int) ∧
    (s.roomManager.rooms i).roomId = (s.session c).currentRoomId

def sentTo (fd : Int) : Event → Bool
  | .send fd' _ _ => fd' == fd
  | _ => false

/-- A line of chat is sent once to each recipient, and on no other connection. -/
def ChatDelivered (libc : Libc) (s : State) : Op → Prop
  | .message c line env => ∀ text, Served s c → parse line = .chat text →
    (s.session c).hasRoom = true →
    ∃ es, (chatProtocolHandleMessage libc env s c line).1.trace = s.trace ++ es ∧
      (∀ d, Recipient s c d → es.countP (sentTo (s.session d).socketFd) = 1) ∧
      (∀ d, (s.session d).active = true → ¬ Recipient s c d →
        es.countP (sentTo (s.session d).socketFd) = 0) ∧
      ∀ e ∈ es, ∃ d ok, Recipient s c d ∧ e = .send (s.session d).socketFd
        (.text (((s.session c).nickname ++ ": " ++ text ++ "\n" : CString).take
          (bufferSize + maxNicknameLen + 10 - 1))) ok
  | _ => True

theorem roomsExact_of_entered {s : State} (ok : RoomsOk s.roomManager)
    (h : Entered s.session s.roomManager) : RoomsExact s := by
  constructor
  · intro c i k hi hk
    exact h.member_unique ok.distinct hi hk (by omega)
  · intro c i hi
    obtain ⟨d, hd, hfields⟩ := h i c hi (by omega)
    have hdc : d = c := Fin.ext (by omega)
    rw [hdc] at hfields
    exact hfields

section Delivery
variable {libc : Libc} {s : State}

theorem mem_targets_iff_recipient (ok : RoomsOk s.roomManager)
    (hentered : Entered s.session s.roomManager) (c d : Slot) :
    d ∈ roomTargets s (s.session c).currentRoomId c ↔ Recipient s c d := by
  rw [mem_roomTargets_iff]
  constructor
  · intro h
    obtain ⟨r, hr, hlists, hne, _⟩ := h
    exact ⟨fun hdc => hne (by rw [hdc]), r, ⟨found_active hr, hlists⟩, found_roomId hr⟩
  · intro h
    obtain ⟨hdc, i, hmember, hid⟩ := h
    have hactive := ((roomsExact_of_entered ok hentered).in_room d i hmember).1
    refine ⟨i, ?_, hmember.2, fun heq => hdc (Fin.ext (by omega)), hactive⟩
    rw [← hid]
    exact ok.distinct.find hmember.1

/-- In a broadcast to distinct sessions with descriptors of their own, each descriptor is sent
to as often as its session is a target. -/
theorem countP_textTo (hfds : FdsDistinct s) (fails : Slot → Bool) (message : CString)
    {targets : List Slot} (htargets : ∀ d ∈ targets, (s.session d).active = true) {d : Slot}
    (hd : (s.session d).active = true) :
    (textTo fails s message targets).countP (sentTo (s.session d).socketFd) = targets.count d := by
  rw [textTo, List.countP_map, List.count]
  apply List.countP_congr
  intro e he
  simp only [Function.comp_apply, sentTo, beq_iff_eq]
  constructor
  · exact hfds e d (htargets e he) hd
  · intro heq
    subst heq
    rfl

theorem chatDelivered (ok : RoomsOk s.roomManager) (hentered : Entered s.session s.roomManager)
    (hfds : FdsDistinct s) (op : Op) : ChatDelivered libc s op := by
  cases op with
  | message c line env =>
    intro text _ hparse hroom
    have hmem := mem_targets_iff_recipient ok hentered c
    have hactive : ∀ d ∈ roomTargets s (s.session c).currentRoomId c,
        (s.session d).active = true := by
      intro d hd
      obtain ⟨_, _, _, _, hd'⟩ := mem_roomTargets_iff.mp hd
      exact hd'
    have hnodup := nodup_roomTargets ok.table (s.session c).currentRoomId c
    rw [handleMessage_eq, hparse, perform_relay libc env hroom rfl]
    refine ⟨_, rfl, ?_, ?_, ?_⟩
    · intro d hd
      have htarget := (hmem d).mpr hd
      rw [countP_textTo hfds _ _ hactive (hactive d htarget)]
      exact List.count_eq_one_of_mem hnodup htarget
    · intro d hd hnot
      rw [countP_textTo hfds _ _ hactive hd]
      exact List.count_eq_zero.mpr fun h => hnot ((hmem d).mp h)
    · intro e he
      obtain ⟨d, hd, rfl⟩ := List.mem_map.mp he
      exact ⟨d, _, (hmem d).mp hd, rfl⟩
  | connect | enterLobby | disconnect => trivial

end Delivery

/-- In a run without disconnects and with fresh room ids every client is in at most one room,
its session says which, and lines of chat are delivered to that room exactly. -/
theorem rooms_deliver_exactly (libc : Libc) (memory : State) (ops : List Op)
    (hfresh : EachStep (Op.step libc) (FreshIds libc) (start memory) ops)
    (hkept : EachStep (Op.step libc) Undisturbed (start memory) ops) :
    Always (Op.step libc) RoomsExact (start memory) ops ∧
      EachStep (Op.step libc) (ChatDelivered libc) (start memory) ops := by
  have hinv : Always (Op.step libc)
      (fun s => RoomsOk s.roomManager ∧ Entered s.session s.roomManager ∧ FdsDistinct s)
      (start memory) ops := always_of_eachStep
    (fun s op h hstep => ⟨h.1.step op hstep.1, (entered_step_iff h.1 op hstep.1 h.2.1).mpr
      fun d hd => absurd hd (hstep.2 d), h.2.2.step op⟩)
    ⟨RoomsOk.initial memory.roomManager, entered_start memory,
      fun _ _ h => absurd h Bool.false_ne_true⟩ (hfresh.and hkept)
  refine ⟨hinv.imp fun s h => roomsExact_of_entered h.1 h.2.1, fun pre op hpre => ?_⟩
  obtain ⟨ok, hentered, hfds⟩ := hinv pre ((List.prefix_append pre [op]).trans hpre)
  exact chatDelivered ok hentered hfds op

/-- One client of two in a room speaks, a third one is in the lobby. -/
theorem rooms_deliver_exactly_three :
    Always (Op.step countingLibc) RoomsExact (start zeroedMemory)
        [.connect 5 true, .enterLobby 0, .message 0 "/create den" calm, .connect 6 true,
          .enterLobby 1, .message 1 "/join CDEFGH" calm, .connect 7 true, .enterLobby 2,
          .message 1 "hi" calm] ∧
      EachStep (Op.step countingLibc) (ChatDelivered countingLibc) (start zeroedMemory)
        [.connect 5 true, .enterLobby 0, .message 0 "/create den" calm, .connect 6 true,
          .enterLobby 1, .message 1 "/join CDEFGH" calm, .connect 7 true, .enterLobby 2,
          .message 1 "hi" calm] := by
  have hcreate : parse "/create den" = .create "den" := by decide +kernel
  have hjoin : parse "/join CDEFGH" = .join "CDEFGH" := by decide +kernel
  have hchat : parse "hi" = .chat "hi" := by decide +kernel
  apply rooms_deliver_exactly _ _ _
  · simp only [eachStep_cons, eachStep_nil, and_true, FreshIds, hcreate, hjoin, hchat, true_and]
    intro _ _ _ i hi
    revert i
    decide +kernel
  · simp only [eachStep_cons, eachStep_nil, and_true, Undisturbed, TearsDown, hcreate, hjoin, hchat,
      Evicts, and_false, not_false_eq_true, implies_true]

end TcpChat.Server
