import TcpChat.Server.SlotTable

/-!
# Security contexts and sessions

The security manager keeps a context for every session, slot by slot, and a count. A removal
takes down both sides of a slot. A broadcast that fails to reach a session takes down the
session only.
-/

namespace TcpChat.Server

open Base Base.Runs Base.Slots
set_option autoImplicit false

structure ContextsTrack (s : State) : Prop where
  context_iff : ∀ i, s.securityManager.contexts i ≠ none ↔ (s.session i).active = true
  count_eq : s.securityManager.numContexts.toNat =
    (Finset.univ.filter fun i => s.securityManager.contexts i ≠ none).card

/-- No session is evicted: every send that the operation makes to a session comes through. -/
def NoneEvicted (s : State) : SlotOp → Prop
  | .add _ _ => True
  | .remove clientId fails => ∀ c : Slot, (c : Int) = clientId → (s.session c).active = true →
    ∀ d, ¬ Evicted fails s c d
  | .broadcast _ senderId fails => ∀ d, ¬ Evicted fails s senderId d

section Tracks
variable {s s' : State}

theorem ContextsTrack.count (h : ContextsTrack s) :
    s.securityManager.numContexts.toNat =
      occupancy Option.isSome s.securityManager.contexts := by
  rw [h.count_eq]
  simp only [occupancy, Option.isSome_iff_ne_none]

/-- One slot is rewritten on both sides, and the count moves with it. -/
theorem ContextsTrack.of_update (h : ContextsTrack s) {c : Slot} {ctx : Option EncryptionContext}
    (hcontexts : s'.securityManager.contexts = Function.update s.securityManager.contexts c ctx)
    (hcount : s'.securityManager.numContexts.toNat +
        (if (s.securityManager.contexts c).isSome = true then 1 else 0) =
      s.securityManager.numContexts.toNat + (if ctx.isSome = true then 1 else 0))
    (hothers : ∀ d, d ≠ c → (s'.session d).active = (s.session d).active)
    (hown : ctx ≠ none ↔ (s'.session c).active = true) : ContextsTrack s' := by
  constructor
  · intro d
    rw [hcontexts]
    by_cases hd : d = c
    · subst hd
      rw [Function.update_self]
      exact hown
    · rw [Function.update_of_ne hd, hothers d hd]
      exact h.context_iff d
  · have hmoved := occupancy_update Option.isSome s.securityManager.contexts c ctx
    have hbefore := h.count
    have hafter : s'.securityManager.numContexts.toNat =
        occupancy Option.isSome s'.securityManager.contexts := by
      rw [hcontexts]
      omega
    rw [hafter]
    simp only [occupancy, Option.isSome_iff_ne_none]

theorem ContextsTrack.free (h : ContextsTrack s) {i : Slot} (hfree : (s.session i).active = false) :
    s.securityManager.contexts i = none := by
  by_contra hsome
  rw [(h.context_iff i).mp hsome] at hfree
  cases hfree

theorem ContextsTrack.live (h : ContextsTrack s) {c : Slot} (hactive : (s.session c).active = true) :
    ∃ ctx, s.securityManager.contexts c = some ctx :=
  Option.ne_none_iff_exists'.mp ((h.context_iff c).mpr hactive)

theorem ContextsTrack.add (h : ContextsTrack s) (socketFd : Int) (created : Bool) :
    ContextsTrack (clientManagerAddNewClient s socketFd created).1 := by
  rcases add_cases s socketFd created with
    ⟨_, heq⟩ | ⟨i, hlowest, ⟨_, heq⟩ | ⟨_, heq⟩⟩
  · rw [heq]
    exact h
  · rw [heq]
    have hnone := h.free hlowest.1
    have hle : occupancy Option.isSome s.securityManager.contexts ≤ 100 :=
      occupancy_le Option.isSome s.securityManager.contexts
    apply h.of_update (c := i)
    · rfl
    · have hcount := h.count
      have hnext : (s.securityManager.numContexts + 1).toNat =
          s.securityManager.numContexts.toNat + 1 := by
        rw [UInt32.toNat_add, UInt32.toNat_one]
        omega
      rw [hnone]
      exact hnext
    · intro d hd
      dsimp only
      rw [session_added, if_neg hd]
    · dsimp only
      rw [session_added, if_pos rfl]
      exact iff_of_true (Option.some_ne_none _) rfl
  · rw [heq]
    have hnone := h.free hlowest.1
    apply h.of_update (c := i)
    · rfl
    · rw [hnone]
      rfl
    · intro d hd
      rw [session_clientSessionCleanup, if_neg hd, State.session_setSecurity,
        State.session_setSession_of_ne _ _ _ _ hd]
    · rw [session_clientSessionCleanup, if_pos rfl]
      exact iff_of_false (fun hsome => hsome rfl) (fun hactive => by cases hactive)

theorem ContextsTrack.removed (h : ContextsTrack s) {c : Slot}
    (hactive : (s.session c).active = true) : ContextsTrack (removed s c) := by
  obtain ⟨ctx, hctx⟩ := h.live hactive
  have hsecurity : (TcpChat.Server.removed s c).securityManager =
      { contexts := Function.update s.securityManager.contexts c none
        numContexts := s.securityManager.numContexts - 1 } := by
    change securityManagerRemoveClient s.securityManager c = _
    unfold securityManagerRemoveClient
    rw [hctx]
  have hpos : 0 < s.securityManager.numContexts.toNat := by
    rw [h.count]
    exact (occupancy_pos_iff _).mpr ⟨c, by rw [hctx]; rfl⟩
  have hle : (1 : UInt32) ≤ s.securityManager.numContexts := by
    rw [UInt32.le_iff_toNat_le, UInt32.toNat_one]
    exact hpos
  apply @ContextsTrack.of_update _ _ h c none
  · rw [hsecurity]
  · rw [hsecurity, hctx]
    dsimp only
    rw [UInt32.toNat_sub_of_le _ _ hle, UInt32.toNat_one]
    simp
    omega
  · intro d hd
    rw [session_removed, if_neg hd]
  · rw [session_removed, if_pos rfl]
    exact iff_of_false (fun hsome => hsome rfl) (fun hdead => by cases hdead)

/-- Of a broadcast nothing but an eviction shows in the tables. -/
theorem contextsTrack_broadcast_iff (h : ContextsTrack s) (fails : Slot → Bool)
    (message : CString) (senderId : Int) :
    ContextsTrack (clientManagerBroadcastMessage fails s message senderId) ↔
      ∀ d, ¬ Evicted fails s senderId d := by
  constructor
  · intro hafter d hevicted
    have hctx := (hafter.context_iff d).mp (by
      rw [securityManager_broadcast]
      exact (h.context_iff d).mpr hevicted.1.1)
    rw [session_broadcast, if_pos hevicted] at hctx
    cases hctx
  · intro hnone
    constructor
    · intro d
      rw [securityManager_broadcast, session_broadcast, if_neg (hnone d)]
      exact h.context_iff d
    · rw [securityManager_broadcast]
      exact h.count_eq

theorem evicted_removed_iff (fails : Slot → Bool) (c d : Slot) :
    Evicted fails (removed s c) c d ↔ Evicted fails s c d := by
  unfold Evicted Reached
  rw [session_removed]
  split
  · rename_i heq
    simp [heq]
  · exact Iff.rfl

theorem contextsTrack_remove_iff (h : ContextsTrack s) (fails : Slot → Bool) (c : Slot) :
    ContextsTrack (clientManagerRemoveClient fails s c) ↔
      ((s.session c).active = true → ∀ d, ¬ Evicted fails s c d) := by
  cases hactive : (s.session c).active with
  | true =>
    rw [remove_of_active fails s c hactive, contextsTrack_broadcast_iff (h.removed hactive)]
    simp only [evicted_removed_iff, forall_const]
  | false =>
    rw [remove_of_inactive fails s c hactive]
    exact iff_of_true h fun hlive => by cases hlive

theorem contextsTrack_step_iff (h : ContextsTrack s) (op : SlotOp) :
    ContextsTrack (op.step s) ↔ NoneEvicted s op := by
  cases op with
  | add socketFd created => exact iff_of_true (h.add socketFd created) trivial
  | remove clientId fails =>
    rcases SlotOp.step_remove s clientId fails with ⟨c, rfl, heq⟩ | ⟨hid, heq⟩
    · rw [heq, contextsTrack_remove_iff h]
      constructor
      · intro hkept d hd
        obtain rfl : d = c := Fin.ext (Int.ofNat_inj.mp hd)
        exact hkept
      · intro hnone
        exact hnone c rfl
    · rw [heq]
      refine iff_of_true h fun c hc => absurd ?_ hid
      have hlt := c.isLt
      omega
  | broadcast message senderId fails =>
    exact contextsTrack_broadcast_iff h fails message senderId

end Tracks

/-- The contexts track the sessions in every state of a run exactly when no send that a
broadcast makes to a session fails. -/
theorem contextsTrack_iff_noneEvicted (memory : State) (ops : List SlotOp) :
    Always SlotOp.step ContextsTrack (start memory) ops ↔
      EachStep SlotOp.step NoneEvicted (start memory) ops := by
  have hstart : ContextsTrack (start memory) := by
    constructor
    · intro i
      exact iff_of_false (fun hsome => hsome rfl) (fun hactive => by cases hactive)
    · simp [start]
  exact always_iff_eachStep (I := fun _ => True) (H := fun _ _ => True)
    (fun _ _ _ _ _ _ => trivial) (fun _ op _ h _ => contextsTrack_step_iff h op)
    trivial hstart (fun _ _ _ => trivial)

/-- The message does not reach slot 0, whose session goes while its context stays. -/
theorem contexts_outlive_sessions :
    ¬ ∀ (memory : State) (ops : List SlotOp),
      Always SlotOp.step ContextsTrack (start memory) ops := by
  intro h
  have htrack := (h zeroedMemory
    [.add 5 true, .add 6 true, .broadcast "hello" 1 (fun i => i = 0)]).last
  have hactive := (htrack.context_iff 0).mp (by decide +kernel)
  exact absurd hactive (by decide +kernel)

end TcpChat.Server
