import TcpChat.PeerMap

/-!
# When the peer table takes a key

`e2e_add_peer_key` counts the slots before it looks for the user, and a removal gives no slot
back. Once 64 user ids have been entered nothing is taken any more, not even a new key for a
user who has an entry.
-/

namespace TcpChat.Client

open Base Base.Runs
set_option autoImplicit false

/-- Some slot in use has this user id, active or not. -/
def InTable (ctx : E2eContext) (userId : Fin 16 → UInt8) : Prop :=
  ∃ i : Fin maxClientsE2e, i.val < ctx.numPeers ∧ (ctx.peerKeys i).userId = userId

def activePeers (ctx : E2eContext) : Finset (Fin maxClientsE2e) :=
  Finset.univ.filter fun i => i.val < ctx.numPeers ∧ (ctx.peerKeys i).active = true

def activeUsers (ctx : E2eContext) : Finset (Fin 16 → UInt8) :=
  (activePeers ctx).image fun i => (ctx.peerKeys i).userId

/-- A packet is taken if its user is known or a peer less than the limit is active, and refused
only if as many others are active as the table has room for. -/
structure CapacityLaw (ctx : E2eContext) (packet : E2eKeyExchangePacket) : Prop where
  taken : InTable ctx packet.userId ∨ (activePeers ctx).card < maxClientsE2e →
    (e2eAddPeerKey ctx packet).2 = 0
  refused : (e2eAddPeerKey ctx packet).2 ≠ 0 →
    ((activeUsers ctx).erase packet.userId).card = maxClientsE2e

/-- A slot has never been used, or every slot is that of another user who is active. -/
def HasCapacity (ctx : E2eContext) (userId : Fin 16 → UInt8) : Prop :=
  ctx.numPeers < maxClientsE2e ∨
    ∀ i, (ctx.peerKeys i).active = true ∧ (ctx.peerKeys i).userId ≠ userId

section Law
variable {ctx : E2eContext} {packet : E2eKeyExchangePacket}

theorem addPeerKey_of_space (hspace : ctx.numPeers < maxClientsE2e)
    (hverify : e2eVerifyKeyExchangePacket packet = true) : (e2eAddPeerKey ctx packet).2 = 0 := by
  obtain ⟨i, _, _, heq⟩ := addPeerKey_cases hspace hverify
  rw [heq]

theorem addPeerKey_of_full (hfull : ¬ ctx.numPeers < maxClientsE2e)
    (packet : E2eKeyExchangePacket) : e2eAddPeerKey ctx packet = (ctx, -1) := by
  rw [e2eAddPeerKey, dif_neg hfull]

theorem card_activeUsers_le (ctx : E2eContext) : (activeUsers ctx).card ≤ (activePeers ctx).card :=
  Finset.card_image_le

theorem card_activePeers_le (ctx : E2eContext) : (activePeers ctx).card ≤ maxClientsE2e := by
  have h := Finset.card_le_univ (activePeers ctx)
  rwa [Fintype.card_fin] at h

/-- As many others as there are slots: every slot is that of one of them. -/
theorem all_other_of_card {userId : Fin 16 → UInt8}
    (h : ((activeUsers ctx).erase userId).card = maxClientsE2e) (i : Fin maxClientsE2e) :
    (ctx.peerKeys i).active = true ∧ (ctx.peerKeys i).userId ≠ userId := by
  have husers := card_activeUsers_le ctx
  have hpeers := card_activePeers_le ctx
  have herase := Finset.card_erase_le (s := activeUsers ctx) (a := userId)
  have huniv : activePeers ctx = Finset.univ := by
    apply Finset.eq_univ_of_card
    rw [Fintype.card_fin]
    omega
  have hi : i ∈ activePeers ctx := huniv ▸ Finset.mem_univ i
  refine ⟨(Finset.mem_filter.mp hi).2.2, ?_⟩
  intro heq
  -- the user would be missing among the others
  have hlt := Finset.card_erase_lt_of_mem
    (heq ▸ Finset.mem_image_of_mem (fun j => (ctx.peerKeys j).userId) hi : userId ∈ activeUsers ctx)
  omega

theorem card_of_all_other {userId : Fin 16 → UInt8} (hids : IdsDistinct ctx)
    (hfull : maxClientsE2e ≤ ctx.numPeers)
    (h : ∀ i, (ctx.peerKeys i).active = true ∧ (ctx.peerKeys i).userId ≠ userId) :
    ((activeUsers ctx).erase userId).card = maxClientsE2e := by
  have hused : ∀ i : Fin maxClientsE2e, i.val < ctx.numPeers := fun i => by omega
  have huniv : activePeers ctx = Finset.univ :=
    Finset.filter_true_of_mem fun i _ => ⟨hused i, (h i).1⟩
  have hother : userId ∉ activeUsers ctx := by
    intro hmem
    obtain ⟨i, _, hi⟩ := Finset.mem_image.mp hmem
    exact (h i).2 hi
  rw [Finset.erase_eq_of_notMem hother, activeUsers, Finset.card_image_of_injective, huniv,
    Finset.card_univ, Fintype.card_fin]
  intro i j heq
  exact hids i j (hused i) (hused j) heq

theorem capacityLaw_iff_hasCapacity (hids : IdsDistinct ctx)
    (hverify : e2eVerifyKeyExchangePacket packet = true) :
    CapacityLaw ctx packet ↔ HasCapacity ctx packet.userId := by
  by_cases hspace : ctx.numPeers < maxClientsE2e
  · have hzero := addPeerKey_of_space hspace hverify
    exact iff_of_true ⟨fun _ => hzero, fun hne => absurd hzero hne⟩ (Or.inl hspace)
  · have hrefused : (e2eAddPeerKey ctx packet).2 = -1 := by rw [addPeerKey_of_full hspace]
    constructor
    · intro law
      exact Or.inr (all_other_of_card (law.refused (by rw [hrefused]; decide)))
    · intro h
      have hall := h.resolve_left hspace
      have hcard := card_of_all_other hids (Nat.not_lt.mp hspace) hall
      refine ⟨fun hroom => ?_, fun _ => hcard⟩
      exfalso
      rcases hroom with ⟨i, _, hi⟩ | hfew
      · exact (hall i).2 hi
      · have husers := card_activeUsers_le ctx
        have herase := Finset.card_erase_le (s := activeUsers ctx) (a := packet.userId)
        omega

end Law

section Run
variable (nickname : CString) (timestamp pid : UInt32) (privateKey : Fin 32 → UInt8)

/-- In every state that adds and removes lead to, the law holds of a valid packet exactly when a
slot has never been used or all slots are those of active others. -/
theorem capacityLaw_iff (ops : List PeerOp) :
    Always PeerRun.step (fun run => ∀ packet, e2eVerifyKeyExchangePacket packet = true →
      (CapacityLaw run.ctx packet ↔ HasCapacity run.ctx packet.userId))
      ⟨e2eContextInit nickname timestamp pid privateKey, []⟩ ops := by
  refine (peerTable_refines_map nickname timestamp pid privateKey ops).1.imp ?_
  intro run ok packet hverify
  exact capacityLaw_iff_hasCapacity ok.ids_distinct hverify

end Run

section Full

/-- The packet of a user with `k` for an id. -/
def packetOf (k : Nat) : E2eKeyExchangePacket :=
  e2eCreateKeyExchangePacket ⟨⟨fun _ => 0, fun _ => 0, fun _ => UInt8.ofNat k, .empty⟩,
    fun _ => ⟨fun _ => 0, fun _ => 0, .empty, false⟩, 0⟩

/-- `k` users have been entered, one after the other. -/
structure Filled (ctx : E2eContext) (k : Nat) : Prop where
  numPeers_eq : ctx.numPeers = k
  entered : ∀ i : Fin maxClientsE2e, i.val < k →
    ∃ j < k, (ctx.peerKeys i).userId = (packetOf j).userId

theorem packetOf_ne {j k : Nat} (hlt : j < k) (hk : k < 256) :
    (packetOf j).userId ≠ (packetOf k).userId := by
  intro heq
  have hbyte : UInt8.ofNat j = UInt8.ofNat k := congrFun heq 0
  have hvalue := congrArg UInt8.toNat hbyte
  rw [UInt8.toNat_ofNat', UInt8.toNat_ofNat', Nat.mod_eq_of_lt (by omega),
    Nat.mod_eq_of_lt (by omega)] at hvalue
  omega

theorem Filled.add {ctx : E2eContext} {k : Nat} (h : Filled ctx k) (hk : k < maxClientsE2e) :
    Filled (e2eAddPeerKey ctx (packetOf k)).1 (k + 1) := by
  have hspace : ctx.numPeers < maxClientsE2e := h.numPeers_eq ▸ hk
  have hverify : e2eVerifyKeyExchangePacket (packetOf k) = true := verify_create _
  obtain ⟨i, hslot, _, heq⟩ := addPeerKey_cases hspace hverify
  have hi : i.val = k := by
    rcases hslot with ⟨hlt, hid⟩ | hfree
    · obtain ⟨j, hj, hentered⟩ := h.entered i (h.numPeers_eq ▸ hlt)
      exact absurd (hentered.symm.trans hid) (packetOf_ne hj (Nat.lt_trans hk (by decide)))
    · exact hfree.trans h.numPeers_eq
  have hctx : (e2eAddPeerKey ctx (packetOf k)).1 = ctx.enter i (packetOf k).entry := by rw [heq]
  rw [hctx]
  constructor
  · rw [E2eContext.enter, h.numPeers_eq, hi]
    exact Nat.max_eq_right (Nat.le_succ k)
  · intro l hl
    by_cases hli : l = i
    · refine ⟨k, Nat.lt_succ_self k, ?_⟩
      rw [hli, E2eContext.enter_self]
      rfl
    · have hlk : l.val < k := by
        have hval : l.val ≠ i.val := fun hsame => hli (Fin.ext hsame)
        omega
      obtain ⟨j, hj, hentered⟩ := h.entered l hlk
      refine ⟨j, Nat.lt_succ_of_lt hj, ?_⟩
      rw [E2eContext.enter_of_ne _ _ hli]
      exact hentered

theorem filled_run (nickname : CString) (timestamp pid : UInt32) (privateKey : Fin 32 → UInt8)
    {k : Nat} (hk : k ≤ maxClientsE2e) :
    Filled (run PeerRun.step ⟨e2eContextInit nickname timestamp pid privateKey, []⟩
      ((List.range k).map fun j => .add (packetOf j))).ctx k := by
  induction k with
  | zero => exact ⟨rfl, fun i hi => absurd hi (Nat.not_lt_zero _)⟩
  | succ k ih =>
    rw [List.range_succ, List.map_append, run_append]
    exact (ih (Nat.le_of_succ_le hk)).add hk

/-- After 64 users have been entered, the first of them cannot announce a new key. -/
theorem known_user_refused :
    ¬ ∀ (nickname : CString) (timestamp pid : UInt32) (privateKey : Fin 32 → UInt8)
      (ops : List PeerOp),
      Always PeerRun.step (fun run => ∀ packet, e2eVerifyKeyExchangePacket packet = true →
        CapacityLaw run.ctx packet)
        ⟨e2eContextInit nickname timestamp pid privateKey, []⟩ ops := by
  intro h
  have hfilled := filled_run "ann" 0 0 (fun _ => 0) (Nat.le_refl maxClientsE2e)
  obtain ⟨j, _, hfirst⟩ := hfilled.entered 0 (by decide)
  have law := (h "ann" 0 0 (fun _ => 0)
    ((List.range maxClientsE2e).map fun k => .add (packetOf k))).last (packetOf j) (verify_create _)
  have hzero := law.taken (Or.inl ⟨0, by rw [hfilled.numPeers_eq]; decide, hfirst⟩)
  rw [addPeerKey_of_full (by rw [hfilled.numPeers_eq]; decide)] at hzero
  exact absurd hzero (by decide)

end Full

end TcpChat.Client
