import TcpChat.Server.SlotTable

/-!
# Slot accounting

`client_count` is changed from three places, one of them inside a loop that a removal runs as
well. It counts the active slots in every state that calls of the client manager lead to.
-/

namespace TcpChat.Server

open Base Base.Runs Base.Slots
set_option autoImplicit false

def Event.isSend : Event → Bool
  | .send _ _ _ => true
  | _ => false

/-- The slots that a broadcast from `senderId` sends to, in order. -/
def recipients (s : State) (senderId : Int) : List Slot :=
  (List.finRange maxClients).filter fun i => decide (Reached s senderId i)

/-- One attempt at sending `message` to each slot of `slots`, over the descriptors of `s`. -/
def attempts (fails : Slot → Bool) (message : CString) (s : State) (slots : List Slot) :
    List Event :=
  slots.map fun i => .send (s.session i).socketFd (.text message) (!fails i)

/-- `s'` comes after `s`, and what was sent on the way is `sent`. -/
def SentBetween (s s' : State) (sent : List Event) : Prop :=
  ∃ es, s'.trace = s.trace ++ es ∧ es.filter Event.isSend = sent

structure SlotAccounting (s : State) : Prop where
  count_eq : s.clientManager.clientCount =
    (Finset.univ.filter fun c => (s.session c).active = true).card
  count_nonneg : 0 ≤ s.clientManager.clientCount
  count_le : s.clientManager.clientCount ≤ maxClients
  active_iff : ∀ c, (s.session c).active = true ↔ (s.session c).socketFd ≠ -1
  nickname_dead : ∀ c, (s.session c).active = false → (s.session c).nickname = .empty
  broadcast_once : ∀ fails message senderId,
    SentBetween s (clientManagerBroadcastMessage fails s message senderId)
      (attempts fails message s (recipients s senderId))
  farewell_once : ∀ fails c, (s.session c).active = true →
    SentBetween s (clientManagerRemoveClient fails s c)
      (attempts fails (farewell s c) s (recipients s c))

/-- The descriptor of a new connection came from `accept`. -/
def SlotOp.SocketValid : SlotOp → Prop
  | .add socketFd _ => 0 ≤ socketFd
  | _ => True

section Sent
variable (fails : Slot → Bool) (message : CString) (s : State) (senderId : Int)

theorem filter_isSend_broadcastEvents (i : Slot) :
    (broadcastEvents fails message senderId s i).filter Event.isSend =
      if Reached s senderId i then
        [.send (s.session i).socketFd (.text message) (!fails i)]
      else [] := by
  unfold broadcastEvents
  split
  · rw [List.filter_cons_of_pos rfl]
    split
    · rfl
    · rfl
  · rfl

theorem attempts_recipients :
    attempts fails message s (recipients s senderId) =
      (List.finRange maxClients).flatMap fun i =>
        if Reached s senderId i then
          [.send (s.session i).socketFd (.text message) (!fails i)]
        else [] := by
  unfold attempts recipients
  induction List.finRange maxClients with
  | nil => rfl
  | cons i rest ih =>
    rw [List.flatMap_cons, ← ih]
    by_cases hreached : Reached s senderId i
    · rw [List.filter_cons_of_pos (p := fun i => decide (Reached s senderId i)) (by simpa using hreached),
        if_pos hreached]
      rfl
    · rw [List.filter_cons_of_neg (by simpa using hreached), if_neg hreached]
      rfl

theorem sentBetween_broadcast :
    SentBetween s (clientManagerBroadcastMessage fails s message senderId)
      (attempts fails message s (recipients s senderId)) := by
  refine ⟨_, trace_broadcast fails message senderId s, ?_⟩
  rw [attempts_recipients, List.filter_flatMap]
  apply List.flatMap_congr
  intro i _
  exact filter_isSend_broadcastEvents fails message s senderId i

theorem reached_removed (c i : Slot) : Reached (removed s c) c i ↔ Reached s c i := by
  unfold Reached
  rw [session_removed]
  split
  · rename_i heq
    simp [heq]
  · exact Iff.rfl

/-- The broadcast inside a removal finds every session but the removed one as it was. -/
theorem sentBetween_remove (c : Slot) (hactive : (s.session c).active = true) :
    SentBetween s (clientManagerRemoveClient fails s c)
      (attempts fails (farewell s c) s (recipients s c)) := by
  obtain ⟨es, htrace, hsent⟩ := sentBetween_broadcast fails (farewell s c) (removed s c) (c : Int)
  have hclosed : ∃ closed, (removed s c).trace = s.trace ++ closed ∧
      closed.filter Event.isSend = [] := by
    refine ⟨if (s.session c).socketFd ≥ 0 then [.close (s.session c).socketFd] else [], rfl, ?_⟩
    split
    · rfl
    · rfl
  obtain ⟨closed, hclosed, hnone⟩ := hclosed
  refine ⟨closed ++ es, ?_, ?_⟩
  · rw [remove_of_active fails s c hactive, htrace, hclosed, List.append_assoc]
  · rw [List.filter_append, hnone, List.nil_append, hsent]
    have hsame : recipients (removed s c) c = recipients s c := by
      unfold recipients
      simp only [reached_removed]
    rw [hsame]
    unfold attempts
    apply List.map_congr_left
    intro i hi
    have hreached : Reached s c i := of_decide_eq_true (List.mem_filter.mp hi).2
    have hne : i ≠ c := by
      intro heq
      exact hreached.2 (by rw [heq])
    rw [session_removed, if_neg hne]

end Sent

theorem SlotsOk.accounting {s : State} (ok : SlotsOk s) : SlotAccounting s := by
  have hcount := ok.count_eq
  have hle := occupancy_le ClientSession.active s.clientManager.clients
  constructor
  · exact hcount
  · omega
  · omega
  · exact fun c => (ok.session_ok c).active_iff
  · exact fun c => (ok.session_ok c).nickname_dead
  · exact fun fails message senderId => sentBetween_broadcast fails message s senderId
  · exact fun fails c hactive => sentBetween_remove fails s c hactive

theorem SlotsOk.step {s : State} (ok : SlotsOk s) (op : SlotOp) (hop : op.SocketValid) :
    SlotsOk (op.step s) := by
  cases op with
  | add socketFd created => exact ok.add hop created
  | remove clientId fails =>
    rcases SlotOp.step_remove s clientId fails with ⟨c, _, heq⟩ | ⟨_, heq⟩
    · rw [heq]
      exact ok.remove fails c
    · rw [heq]
      exact ok
  | broadcast message senderId fails => exact ok.broadcast fails message senderId

/-- The accounting holds after any calls in any order. -/
theorem slots_accounted (memory : State) (ops : List SlotOp) (h : ∀ op ∈ ops, op.SocketValid) :
    Always SlotOp.step SlotAccounting
      { memory with clientManager := clientManagerInitialize memory.clientManager } ops := by
  have hvalid : EachStep SlotOp.step (fun _ op => op.SocketValid)
      { memory with clientManager := clientManagerInitialize memory.clientManager } ops := by
    intro pre op hpre
    exact h op (hpre.subset (List.mem_append_right pre List.mem_cons_self))
  have hok : Always SlotOp.step SlotsOk
      { memory with clientManager := clientManagerInitialize memory.clientManager } ops :=
    always_of_eachStep (fun s op ok hop => ok.step op hop) (SlotsOk.initial memory) hvalid
  exact hok.imp fun s ok => ok.accounting

/-- A refused connection, a removal whose farewell fails, an id out of range and an eviction. -/
theorem slots_accounted_six :
    Always SlotOp.step SlotAccounting
      { zeroedMemory with
        clientManager := clientManagerInitialize zeroedMemory.clientManager }
      [.add 5 true, .add 6 false, .add 7 true, .remove 0 (fun i => i = 1), .remove (-3) (fun _ => true),
        .broadcast "hello" (-1) (fun _ => true)] :=
  slots_accounted zeroedMemory _ (by
    intro op hop
    simp only [List.mem_cons, List.not_mem_nil, or_false] at hop
    rcases hop with rfl | rfl | rfl | rfl | rfl | rfl <;> simp [SlotOp.SocketValid])

end TcpChat.Server
