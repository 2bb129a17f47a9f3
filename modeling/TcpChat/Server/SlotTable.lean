import TcpChat.Base.Slots
import TcpChat.Server.Operations

/-!
# The session table on its own

The client manager as a machine whose steps are calls of its three operations, with any
descriptors, any client ids and any sends that fail. Each of them rewrites one slot at a time.
-/

namespace TcpChat.Server

open Base Base.Runs Base.Slots
set_option autoImplicit false

inductive SlotOp where
  | add (socketFd : Int) (created : Bool)
  | remove (clientId : Int) (fails : Slot → Bool)
  | broadcast (message : CString) (senderId : Int) (fails : Slot → Bool)

/-- A client id outside the slots removes nobody. -/
def SlotOp.step (s : State) : SlotOp → State
  | .add socketFd created => (clientManagerAddNewClient s socketFd created).1
  | .remove clientId fails =>
    if h : 0 ≤ clientId ∧ clientId < maxClients then
      clientManagerRemoveClient fails s ⟨clientId.toNat, toNat_lt_maxClients h⟩
    else s
  | .broadcast message senderId fails => clientManagerBroadcastMessage fails s message senderId

/-- A removal removes the slot of that number, if there is one. -/
theorem SlotOp.step_remove (s : State) (clientId : Int) (fails : Slot → Bool) :
    (∃ c : Slot, (c : Int) = clientId ∧
      SlotOp.step s (.remove clientId fails) = clientManagerRemoveClient fails s c) ∨
    (¬ (0 ≤ clientId ∧ clientId < maxClients) ∧ SlotOp.step s (.remove clientId fails) = s) := by
  by_cases hid : 0 ≤ clientId ∧ clientId < maxClients
  · refine Or.inl ⟨⟨clientId.toNat, toNat_lt_maxClients hid⟩, ?_, dif_pos hid⟩
    exact Int.toNat_of_nonneg hid.1
  · exact Or.inr ⟨hid, dif_neg hid⟩

/-- What a session shows about itself when it is dead, and only then. -/
structure SessionOk (session : ClientSession) : Prop where
  active_iff : session.active = true ↔ session.socketFd ≠ -1
  nickname_dead : session.active = false → session.nickname = .empty

structure SlotsOk (s : State) : Prop where
  count_eq : s.clientManager.clientCount =
    occupancy ClientSession.active s.clientManager.clients
  session_ok : ∀ c, SessionOk (s.session c)

theorem sessionOk_cleaned (session : ClientSession) : SessionOk session.cleaned :=
  ⟨by simp, fun _ => rfl⟩

theorem sessionOk_newSession (s : State) {socketFd : Int} (h : 0 ≤ socketFd) (i : Slot) :
    SessionOk (newSession s socketFd i) := by
  have hfd : socketFd ≠ -1 := by omega
  constructor
  · exact iff_of_true rfl hfd
  · intro hdead
    cases hdead

section Invariant
variable {s : State}

/-- One slot is rewritten, and the counter moves with it. -/
theorem SlotsOk.of_update (ok : SlotsOk s) {s' : State} {c : Slot} {v : ClientSession} {n : Int}
    (hclients : s'.clientManager.clients = Function.update s.clientManager.clients c v)
    (hcount : s'.clientManager.clientCount = s.clientManager.clientCount + n)
    (hn : n + (if (s.session c).active = true then 1 else 0) = if v.active = true then 1 else 0)
    (hv : SessionOk v) : SlotsOk s' := by
  constructor
  · have hmoved := occupancy_update ClientSession.active s.clientManager.clients c v
    have hbefore := ok.count_eq
    rw [hclients, hcount]
    unfold State.session at hn
    split at hn
    all_goals
      rename_i hold
      simp only [hold] at hmoved
      split at hn
      all_goals
        rename_i hnew
        simp only [hnew] at hmoved
        simp at hmoved
        omega
  · intro d
    unfold State.session
    rw [hclients, Function.update_apply]
    split
    · exact hv
    · exact ok.session_ok d

theorem SlotsOk.added (ok : SlotsOk s) {socketFd : Int} (hfd : 0 ≤ socketFd) {i : Slot}
    (hfree : (s.session i).active = false) : SlotsOk (added s socketFd i) := by
  apply ok.of_update (c := i) (v := newSession s socketFd i) (n := 1)
  · rfl
  · rfl
  · rw [hfree]
    rfl
  · exact sessionOk_newSession s hfd i

/-- A session that was set up and cleaned again leaves the counter alone. -/
theorem SlotsOk.refused (ok : SlotsOk s) {socketFd : Int} {i : Slot} {m : SecurityManager}
    (hfree : (s.session i).active = false) :
    SlotsOk (clientSessionCleanup ((s.setSession i (newSession s socketFd i)).setSecurity m) i) := by
  apply ok.of_update (c := i) (v := (newSession s socketFd i).cleaned) (n := 0)
  · simp [clientSessionCleanup, State.setSession, State.setSecurity, State.emit, State.session,
      Function.update_idem]
  · exact (Int.add_zero _).symm
  · rw [hfree]
    rfl
  · exact sessionOk_cleaned _

theorem SlotsOk.removed (ok : SlotsOk s) {c : Slot} (hactive : (s.session c).active = true) :
    SlotsOk (removed s c) := by
  apply ok.of_update (c := c) (v := (s.session c).cleaned) (n := -1)
  · rfl
  · rfl
  · rw [hactive]
    rfl
  · exact sessionOk_cleaned _

theorem SlotsOk.broadcastStep (ok : SlotsOk s) (fails : Slot → Bool) (message : CString)
    (senderId : Int) (i : Slot) : SlotsOk (broadcastStep fails message senderId s i) := by
  rw [broadcastStep_eq]
  split
  · rename_i hevicted
    apply ok.of_update (c := i) (v := (s.session i).cleaned) (n := -1)
    · simp [clientSessionCleanup, State.setSession, State.emit, State.session,
        State.addClientCount, Function.update_idem, ClientSession.cleaned]
    · rfl
    · rw [hevicted.1.1]
      rfl
    · exact sessionOk_cleaned _
  · split
    · exact ⟨ok.count_eq, ok.session_ok⟩
    · exact ok

theorem SlotsOk.broadcast (ok : SlotsOk s) (fails : Slot → Bool) (message : CString)
    (senderId : Int) : SlotsOk (clientManagerBroadcastMessage fails s message senderId) := by
  unfold clientManagerBroadcastMessage
  apply List.foldlRecOn
  · exact ok
  · intro t ht i _
    exact ht.broadcastStep fails message senderId i

theorem SlotsOk.remove (ok : SlotsOk s) (fails : Slot → Bool) (c : Slot) :
    SlotsOk (clientManagerRemoveClient fails s c) := by
  cases hactive : (s.session c).active with
  | true =>
    rw [remove_of_active fails s c hactive]
    exact (ok.removed hactive).broadcast fails (farewell s c) c
  | false =>
    rw [remove_of_inactive fails s c hactive]
    exact ok

theorem SlotsOk.add (ok : SlotsOk s) {socketFd : Int} (hfd : 0 ≤ socketFd) (created : Bool) :
    SlotsOk (clientManagerAddNewClient s socketFd created).1 := by
  rcases add_cases s socketFd created with
    ⟨_, heq⟩ | ⟨i, hfree, ⟨_, heq⟩ | ⟨_, heq⟩⟩
  · rw [heq]
    exact ok
  · rw [heq]
    exact ok.added hfd hfree.1
  · rw [heq]
    exact ok.refused hfree.1

theorem SlotsOk.initial (memory : State) :
    SlotsOk { memory with clientManager := clientManagerInitialize memory.clientManager } := by
  constructor
  · have hnone : occupancy ClientSession.active
        (clientManagerInitialize memory.clientManager).clients = 0 :=
      (occupancy_eq_zero_iff _).mpr fun _ => rfl
    rw [hnone]
    rfl
  · intro c
    constructor
    · exact iff_of_false (fun hactive => by cases hactive) (fun hfd => hfd rfl)
    · exact fun _ => rfl

end Invariant

end TcpChat.Server
