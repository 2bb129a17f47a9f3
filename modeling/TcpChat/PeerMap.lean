import TcpChat.Base.Runs
import TcpChat.Base.WriteLog
import TcpChat.Client.KeyExchange

/-!
# The peer table as a map

What the peer table is for: a finite map from user ids to keys and nicknames. A removal leaves
the entry in its slot, inactive, and a later packet for the same user id revives it there.
-/

namespace TcpChat.Client

open Base Base.Runs Base.WriteLog
set_option autoImplicit false

inductive PeerOp where
  | add (packet : E2eKeyExchangePacket)
  | remove (userId : Fin 16 → UInt8)

def PeerOp.call (ctx : E2eContext) : PeerOp → E2eContext × Int
  | .add packet => e2eAddPeerKey ctx packet
  | .remove userId => e2eRemovePeerKey ctx userId

/-- What a successful call writes to the map. -/
def PeerOp.write : PeerOp → (Fin 16 → UInt8) × Option E2ePeerKey
  | .add packet => (packet.userId, some packet.entry)
  | .remove userId => (userId, none)

/-- The table, and the calls so far with what they returned. -/
structure PeerRun where
  ctx : E2eContext
  calls : List (PeerOp × Int)

def PeerRun.step (run : PeerRun) (op : PeerOp) : PeerRun :=
  ⟨(op.call run.ctx).1, run.calls ++ [(op, (op.call run.ctx).2)]⟩

/-- The writes of the calls that returned 0, in order. -/
def PeerRun.writes (run : PeerRun) : List ((Fin 16 → UInt8) × Option E2ePeerKey) :=
  (run.calls.filter fun call => call.2 = 0).map fun call => call.1.write

/-- No two slots in use have the same user id. -/
def IdsDistinct (ctx : E2eContext) : Prop :=
  ∀ i j : Fin maxClientsE2e, i.val < ctx.numPeers → j.val < ctx.numPeers →
    (ctx.peerKeys i).userId = (ctx.peerKeys j).userId → i = j

/-- The table holds what the last successful call for each user id left there. -/
structure PeerTableOk (run : PeerRun) : Prop where
  numPeers_le : run.ctx.numPeers ≤ maxClientsE2e
  ids_distinct : IdsDistinct run.ctx
  find_eq : ∀ userId, e2eFindPeerKey run.ctx userId = latest run.writes userId

section Write
variable {ctx : E2eContext} {i : Fin maxClientsE2e} {entry : E2ePeerKey}
  (hslot : i.val < ctx.numPeers ∧ (ctx.peerKeys i).userId = entry.userId ∨ i.val = ctx.numPeers)
  (hfirst : ∀ j < i, j.val < ctx.numPeers → (ctx.peerKeys j).userId ≠ entry.userId)
include hslot hfirst

theorem IdsDistinct.enter (h : IdsDistinct ctx) : IdsDistinct (ctx.enter i entry) := by
  -- another slot in use does not have the user id that is written
  have hother : ∀ j : Fin maxClientsE2e, j ≠ i → j.val < max ctx.numPeers (i + 1) →
      j.val < ctx.numPeers ∧ (ctx.peerKeys j).userId ≠ entry.userId := by
    intro j hj hlt
    have hval : j.val ≠ i.val := fun heq => hj (Fin.ext heq)
    rcases hslot with ⟨hi, hid⟩ | hfree
    · have hused : j.val < ctx.numPeers := by omega
      exact ⟨hused, fun heq => hj (h j i hused hi (heq.trans hid.symm))⟩
    · have hused : j.val < ctx.numPeers := by omega
      exact ⟨hused, hfirst j (Fin.lt_def.mpr (by omega)) hused⟩
  intro j k hj hk heq
  simp only [E2eContext.enter, Function.update_apply] at hj hk heq
  by_cases hji : j = i
  · by_cases hki : k = i
    · rw [hji, hki]
    · rw [if_pos hji, if_neg hki] at heq
      exact absurd heq.symm (hother k hki hk).2
  · by_cases hki : k = i
    · rw [if_neg hji, if_pos hki] at heq
      exact absurd heq (hother j hji hj).2
    · rw [if_neg hji, if_neg hki] at heq
      exact h j k (hother j hji hj).1 (hother k hki hk).1 heq

/-- An entry that is written inactive is not found, nor is any other with its user id. -/
theorem find_enter_inactive (h : IdsDistinct ctx) (hdead : entry.active = false) :
    e2eFindPeerKey (ctx.enter i entry) entry.userId = none := by
  have hself := ctx.enter_self i entry
  have hused : i.val < (ctx.enter i entry).numPeers := by
    simp only [E2eContext.enter]
    omega
  rw [e2eFindPeerKey_eq_none_iff]
  intro j hmatch
  obtain ⟨hj, hactive, hid⟩ := hmatch
  obtain rfl : j = i := by
    apply h.enter hslot hfirst j i hj hused
    rw [hself]
    exact hid
  rw [hself, hdead] at hactive
  cases hactive

end Write

section Calls
variable {ctx : E2eContext}

theorem removePeerKey_of_absent {userId : Fin 16 → UInt8} (h : findEntry ctx userId = none) :
    e2eRemovePeerKey ctx userId = (ctx, -1) := by
  unfold e2eRemovePeerKey
  simp only [h]

theorem removePeerKey_of_entry {userId : Fin 16 → UInt8} {i : Fin maxClientsE2e}
    (h : findEntry ctx userId = some i) :
    e2eRemovePeerKey ctx userId =
      (ctx.enter i { ctx.peerKeys i with active := false, publicKey := fun _ => 0 }, 0) := by
  obtain ⟨⟨hi, _⟩, _⟩ := (findEntry_eq_some_iff _ _).mp h
  unfold e2eRemovePeerKey E2eContext.enter
  simp only [h, Nat.max_eq_left (Nat.succ_le_of_lt hi)]

/-- A call writes nothing and returns -1, or writes one slot and returns 0. -/
theorem PeerOp.call_cases (ctx : E2eContext) (op : PeerOp) :
    op.call ctx = (ctx, -1) ∨
    ∃ i entry, op.call ctx = (ctx.enter i entry, 0) ∧
      (i.val < ctx.numPeers ∧ (ctx.peerKeys i).userId = entry.userId ∨ i.val = ctx.numPeers) ∧
      (∀ j < i, j.val < ctx.numPeers → (ctx.peerKeys j).userId ≠ entry.userId) ∧
      op.write = (entry.userId, if entry.active = true then some entry else none) := by
  cases op with
  | add packet =>
    by_cases hspace : ctx.numPeers < maxClientsE2e
    · by_cases hverify : e2eVerifyKeyExchangePacket packet = true
      · obtain ⟨i, hslot, hfirst, heq⟩ := addPeerKey_cases hspace hverify
        exact Or.inr ⟨i, packet.entry, heq, hslot, hfirst, rfl⟩
      · apply Or.inl
        rw [PeerOp.call, e2eAddPeerKey, dif_pos hspace, if_neg hverify]
    · apply Or.inl
      rw [PeerOp.call, e2eAddPeerKey, dif_neg hspace]
  | remove userId =>
    cases hfind : findEntry ctx userId with
    | none => exact Or.inl (removePeerKey_of_absent hfind)
    | some i =>
      obtain ⟨⟨hi, hid⟩, hfirst⟩ := (findEntry_eq_some_iff _ _).mp hfind
      refine Or.inr ⟨i, { ctx.peerKeys i with active := false, publicKey := fun _ => 0 },
        removePeerKey_of_entry hfind, Or.inl ⟨hi, rfl⟩, ?_, ?_⟩
      · intro j hj hlt heq
        exact hfirst j hj ⟨hlt, heq.trans hid⟩
      · rw [PeerOp.write, ← hid]
        rfl

theorem PeerTableOk.step {run : PeerRun} (ok : PeerTableOk run) (op : PeerOp) :
    PeerTableOk (run.step op) := by
  rcases op.call_cases run.ctx with heq | ⟨i, entry, heq, hslot, hfirst, hwrite⟩
  · have hctx : (run.step op).ctx = run.ctx := by rw [PeerRun.step, heq]
    have hwrites : (run.step op).writes = run.writes := by
      simp [PeerRun.step, PeerRun.writes, heq]
    constructor
    · rw [hctx]
      exact ok.numPeers_le
    · rw [hctx]
      exact ok.ids_distinct
    · rw [hctx, hwrites]
      exact ok.find_eq
  · have hctx : (run.step op).ctx = run.ctx.enter i entry := by rw [PeerRun.step, heq]
    have hwrites : (run.step op).writes = run.writes ++
        [(entry.userId, if entry.active = true then some entry else none)] := by
      simp [PeerRun.step, PeerRun.writes, heq, hwrite]
    constructor
    · have hle := ok.numPeers_le
      have hi := i.isLt
      rw [hctx, E2eContext.enter]
      exact Nat.max_le.mpr ⟨hle, hi⟩
    · rw [hctx]
      exact ok.ids_distinct.enter hslot hfirst
    · intro userId
      rw [hctx, hwrites]
      by_cases hid : userId = entry.userId
      · subst hid
        rw [latest_concat_self]
        cases hactive : entry.active with
        | true => exact find_enter_self hslot hfirst hactive
        | false => exact find_enter_inactive hslot hfirst ok.ids_distinct hactive
      · rw [find_enter_of_ne hslot hid, latest_concat_of_ne _ _ hid]
        exact ok.find_eq userId

/-- The number of slots in use only grows, and a refused call leaves the table as it was. -/
def CallKeeps (run : PeerRun) (op : PeerOp) : Prop :=
  run.ctx.numPeers ≤ (run.step op).ctx.numPeers ∧
    ((op.call run.ctx).2 = -1 → (run.step op).ctx = run.ctx)

theorem callKeeps (run : PeerRun) (op : PeerOp) : CallKeeps run op := by
  unfold CallKeeps PeerRun.step
  rcases op.call_cases run.ctx with heq | ⟨i, entry, heq, _⟩
  · rw [heq]
    exact ⟨Nat.le_refl _, fun _ => rfl⟩
  · rw [heq]
    exact ⟨Nat.le_max_left _ _, fun hfailed => by cases hfailed⟩

end Calls

/-- From `e2e_context_init` on, after any calls, the table is the map that the successful calls
have built. -/
theorem peerTable_refines_map (nickname : CString) (timestamp pid : UInt32)
    (privateKey : Fin 32 → UInt8) (ops : List PeerOp) :
    Always PeerRun.step PeerTableOk ⟨e2eContextInit nickname timestamp pid privateKey, []⟩ ops ∧
      EachStep PeerRun.step CallKeeps ⟨e2eContextInit nickname timestamp pid privateKey, []⟩
        ops := by
  constructor
  · apply always_of_invariant
    · intro run op ok
      exact ok.step op
    · constructor
      · exact Nat.zero_le _
      · intro i j hi
        exact absurd hi (Nat.not_lt_zero _)
      · intro userId
        apply e2eFindPeerKey_eq_none_iff.mpr
        intro i hmatch
        exact absurd hmatch.1 (Nat.not_lt_zero _)
  · intro pre op _
    exact callKeeps _ op

end TcpChat.Client
