import TcpChat.Base.Leases
import TcpChat.SecureHeap

/-!
# Lifetimes of security contexts

Contexts are created, written to and destroyed in any order. Through all of it what is mapped
beside the rest of the program is two blocks for each context that is alive, and the mutexes
that are initialized are theirs. A create that fails half-way leaves nothing behind.
-/

namespace TcpChat.Client

open Base Base.AddressSpace Base.Leases Base.Runs
set_option autoImplicit false

def MutexCall.use : MutexCall → Option (Use (UInt64 × ContextMutex))
  | .init ctx mutex => some (.acquire (ctx, mutex))
  | .destroy ctx mutex => some (.release (ctx, mutex))

/-- The context that a call is about. -/
def MutexCall.context : MutexCall → UInt64
  | .init ctx _ | .destroy ctx _ => ctx

/-- `live` are the contexts that have been handed out and not destroyed. -/
structure ContextRun where
  heap : ContextHeap
  live : List UInt64

/-- `store` writes through the pointer `enc_ctx`. -/
inductive ContextAction where
  | create (env : ContextEnv) (level : SecurityLevel)
  | store (address length : UInt64) (pattern : Pattern)
  | count (ctx : UInt64) (operation : CString)
  | destroy (ctx : UInt64)

namespace ContextRun

def start (headers : UInt64 → AllocationHeader) (contexts : UInt64 → ContextFields) : ContextRun :=
  ⟨⟨⟨headers, []⟩, contexts, []⟩, []⟩

def step (sizes : ContextSizes) (r : ContextRun) : ContextAction → ContextRun
  | .create env level =>
    match securityContextCreate sizes env r.heap level with
    | (heap, some ctx) => ⟨heap, ctx :: r.live⟩
    | (heap, none) => ⟨heap, r.live⟩
  | .store address length pattern =>
    ⟨r.heap.setMemory (r.heap.memory.call [.fill address length pattern]), r.live⟩
  | .count ctx operation => ⟨updatePerformanceCounters r.heap ctx operation, r.live⟩
  | .destroy ctx => ⟨securityContextDestroy sizes r.heap ctx, r.live.erase ctx⟩

/-- The blocks of the contexts that are alive. -/
def blocks (sizes : ContextSizes) (r : ContextRun) : List Block :=
  r.live.flatMap fun ctx =>
    [⟨ctx, sizes.context⟩, ⟨(r.heap.contexts ctx).encCtx, sizes.encryption⟩]

/-- The kernel maps new addresses, stores stay within an encryption context, and no context is
used that is not alive. -/
def Allowed (sizes : ContextSizes) (space : Space UInt8) (r : ContextRun) : ContextAction → Prop
  | .create env level =>
    GrantsNew env.kernel (mappingSize sizes.context) (r.heap.memory.space space) ∧
      GrantsNew env.encKernel (mappingSize sizes.encryption)
        ((allocateFrom env.kernel env.memoryEnv r.heap.memory sizes.context level).1.space space)
  | .store address length _ =>
    ∃ ctx ∈ r.live, (r.heap.contexts ctx).encCtx.toNat ≤ address.toNat ∧
      address.toNat + length.toNat ≤
        (r.heap.contexts ctx).encCtx.toNat + sizes.encryption.toNat
  | .count ctx _ | .destroy ctx => ctx = 0 ∨ ctx ∈ r.live

end ContextRun

/-- Beside the rest of the program the blocks of the living contexts are mapped, each apart from
the others. Every memory call was proper, every mutex that was destroyed was initialized, and
those still initialized belong to living contexts. -/
structure HeapSound (sizes : ContextSizes) (space : Space UInt8) (r : ContextRun) : Prop where
  holds : Holds (r.heap.memory.space space) space.mapped ((r.blocks sizes).map Block.region)
  proper : EachStep MemoryCall.apply MemoryCall.Proper space r.heap.memory.calls
  disciplined : Disciplined MutexCall.use (fun _ => false) r.heap.mutexCalls
  initialized : ∀ ctx mutex,
    heldAfter MutexCall.use (fun _ => false) r.heap.mutexCalls (ctx, mutex) =
      decide (ctx ∈ r.live)

structure MutexesOk (calls : List MutexCall) (live : List UInt64) : Prop where
  disciplined : Disciplined MutexCall.use (fun _ => false) calls
  initialized : ∀ ctx mutex,
    heldAfter MutexCall.use (fun _ => false) calls (ctx, mutex) = decide (ctx ∈ live)

section Mutexes
variable {calls : List MutexCall} {live live' : List UInt64}

theorem after_of_ne {held : UInt64 × ContextMutex → Bool} {call : MutexCall} {ctx : UInt64}
    (hne : ctx ≠ call.context) (mutex : ContextMutex) :
    after MutexCall.use held call (ctx, mutex) = held (ctx, mutex) := by
  have hpair : ∀ k, (ctx, mutex) ≠ (call.context, k) := fun k heq => hne (Prod.mk.inj heq).1
  cases call with
  | init c k => exact Function.update_of_ne (hpair k) _ _
  | destroy c k => exact Function.update_of_ne (hpair k) _ _

/-- Calls about one context leave the mutexes of the others as they are. -/
theorem heldAfter_of_ne {held : UInt64 × ContextMutex → Bool} {more : List MutexCall}
    {ctx ctx' : UInt64} (hmore : ∀ call ∈ more, call.context = ctx) (hne : ctx' ≠ ctx)
    (mutex : ContextMutex) :
    heldAfter MutexCall.use held more (ctx', mutex) = held (ctx', mutex) := by
  induction more generalizing held with
  | nil => rfl
  | cons call more ih =>
    have hfirst := hmore call List.mem_cons_self
    rw [← hfirst] at hne
    exact (ih fun call hcall => hmore call (List.mem_cons_of_mem _ hcall)).trans
      (after_of_ne hne mutex)

theorem MutexesOk.append (h : MutexesOk calls live) (ctx : UInt64) (more : List MutexCall)
    (hlive : ∀ ctx' ≠ ctx, (ctx' ∈ live' ↔ ctx' ∈ live))
    (hmore : ∀ call ∈ more, call.context = ctx)
    (hself : ∀ held : UInt64 × ContextMutex → Bool,
      (∀ mutex, held (ctx, mutex) = decide (ctx ∈ live)) →
        Disciplined MutexCall.use held more ∧
          ∀ mutex, heldAfter MutexCall.use held more (ctx, mutex) = decide (ctx ∈ live')) :
    MutexesOk (calls ++ more) live' := by
  obtain ⟨hordered, hheld⟩ := hself _ (h.initialized ctx)
  refine ⟨disciplined_append.mpr ⟨h.disciplined, hordered⟩, fun ctx' mutex => ?_⟩
  rw [heldAfter_append]
  by_cases heq : ctx' = ctx
  · rw [heq]
    exact hheld mutex
  · rw [heldAfter_of_ne hmore heq, h.initialized]
    exact decide_eq_decide.mpr (hlive ctx' heq).symm

variable {env : ContextEnv} {heap : ContextHeap} {ctx : UInt64}

theorem initializeContextMutexes_spec (h : MutexesOk heap.mutexCalls live) (hnew : ctx ∉ live) :
    ∃ calls,
      (initializeContextMutexes env heap ctx = (heap.mutex calls, -1) ∧
        MutexesOk (heap.mutexCalls ++ calls) live) ∨
      (initializeContextMutexes env heap ctx = (heap.mutex calls, 0) ∧
        MutexesOk (heap.mutexCalls ++ calls) (ctx :: live)) := by
  unfold initializeContextMutexes
  split
  · refine ⟨[], .inl ⟨by simp [ContextHeap.mutex], ?_⟩⟩
    rw [List.append_nil]
    exact h
  dsimp only
  split
  · refine ⟨[.init ctx .context, .destroy ctx .context],
      .inl ⟨by simp [ContextHeap.mutex], ?_⟩⟩
    apply h.append ctx _ fun _ _ => Iff.rfl
    · simp [MutexCall.context]
    · intro held hheld
      refine ⟨by simp [disciplined_cons, after, MutexCall.use], fun mutex => ?_⟩
      cases mutex <;> simp [heldAfter, after, MutexCall.use, hheld, hnew]
  split
  · refine ⟨[.init ctx .context, .init ctx .pool, .destroy ctx .pool, .destroy ctx .context],
      .inl ⟨by simp [ContextHeap.mutex], ?_⟩⟩
    apply h.append ctx _ fun _ _ => Iff.rfl
    · simp [MutexCall.context]
    · intro held hheld
      refine ⟨by simp [disciplined_cons, after, MutexCall.use], fun mutex => ?_⟩
      cases mutex <;> simp [heldAfter, after, MutexCall.use, hheld, hnew]
  · refine ⟨[.init ctx .context, .init ctx .pool, .init ctx .memory],
      .inr ⟨by simp [ContextHeap.mutex], ?_⟩⟩
    apply h.append ctx _ fun ctx' hne => by simp [hne]
    · simp [MutexCall.context]
    · intro held hheld
      refine ⟨by simp [disciplined_cons, MutexCall.use], fun mutex => ?_⟩
      cases mutex <;> simp [heldAfter, after, MutexCall.use]

theorem cleanupContextMutexes_spec (h : MutexesOk heap.mutexCalls (ctx :: live))
    (hnew : ctx ∉ live) : MutexesOk (cleanupContextMutexes heap ctx).mutexCalls live := by
  apply h.append ctx _ fun ctx' hne => by simp [hne]
  · simp [MutexCall.context]
  · intro held hheld
    refine ⟨by simp [disciplined_cons, after, MutexCall.use, hheld], fun mutex => ?_⟩
    cases mutex <;> simp [heldAfter, after, MutexCall.use, hnew]

theorem MutexesOk.perm (h : MutexesOk calls live) (hperm : live.Perm live') :
    MutexesOk calls live' :=
  ⟨h.disciplined, fun ctx mutex => by
    rw [h.initialized]
    exact decide_eq_decide.mpr hperm.mem_iff⟩

end Mutexes

/-- What a run keeps. -/
structure ContextsOk (sizes : ContextSizes) (space : Space UInt8) (r : ContextRun) : Prop where
  heap : HeapOk space r.heap.memory (r.blocks sizes)
  nodup : r.live.Nodup
  noGuardPages : ∀ ctx ∈ r.live, (r.heap.contexts ctx).guardPages = []
  mutexes : MutexesOk r.heap.mutexCalls r.live

section Contexts
variable {sizes : ContextSizes} {space : Space UInt8} {r : ContextRun} {env : ContextEnv}
  {level : SecurityLevel} {ctx : UInt64}

theorem ContextRun.blocks_congr {heap heap' : ContextHeap} {live : List UInt64}
    (h : ∀ ctx ∈ live, heap'.contexts ctx = heap.contexts ctx) :
    ContextRun.blocks sizes ⟨heap', live⟩ = ContextRun.blocks sizes ⟨heap, live⟩ := by
  apply List.flatMap_congr
  intro ctx hctx
  rw [h ctx hctx]

theorem ContextRun.blocks_cons {heap : ContextHeap} {live : List UInt64} :
    ContextRun.blocks sizes ⟨heap, ctx :: live⟩ =
      ⟨ctx, sizes.context⟩ :: ⟨(heap.contexts ctx).encCtx, sizes.encryption⟩ ::
        ContextRun.blocks sizes ⟨heap, live⟩ := rfl

theorem ContextRun.mem_blocks (hctx : ctx ∈ r.live) :
    ⟨ctx, sizes.context⟩ ∈ r.blocks sizes ∧
      ⟨(r.heap.contexts ctx).encCtx, sizes.encryption⟩ ∈ r.blocks sizes :=
  ⟨List.mem_flatMap.mpr ⟨ctx, hctx, by simp⟩, List.mem_flatMap.mpr ⟨ctx, hctx, by simp⟩⟩

/-- A block that is beside those of the contexts is none of them. -/
theorem not_live_of_block {memory : Memory} {size : UInt64}
    (h : HeapOk space memory (⟨ctx, size⟩ :: r.blocks sizes)) : ctx ∉ r.live :=
  fun hctx => h.ptr_ne (ContextRun.mem_blocks hctx).1 rfl

/-- A create that gives up. -/
theorem ContextsOk.given_up (h : ContextsOk sizes space r) {heap : ContextHeap}
    (hheap : HeapOk space heap.memory (r.blocks sizes))
    (hcontexts : ∀ c ∈ r.live, heap.contexts c = r.heap.contexts c)
    (hmutexes : MutexesOk heap.mutexCalls r.live) : ContextsOk sizes space ⟨heap, r.live⟩ := by
  refine ⟨?_, h.nodup, fun c hc => ?_, hmutexes⟩
  · rw [ContextRun.blocks_congr hcontexts]
    exact hheap
  · rw [hcontexts c hc]
    exact h.noGuardPages c hc

/-- A create that hands out a context. -/
theorem ContextsOk.handed_out (h : ContextsOk sizes space r) {heap : ContextHeap} {encCtx : UInt64}
    (hheap : HeapOk space heap.memory
      (⟨encCtx, sizes.encryption⟩ :: ⟨ctx, sizes.context⟩ :: r.blocks sizes))
    (hctx : ctx ∉ r.live) (hself : (heap.contexts ctx).encCtx = encCtx)
    (hpages : (heap.contexts ctx).guardPages = [])
    (hcontexts : ∀ c ∈ r.live, heap.contexts c = r.heap.contexts c)
    (hmutexes : MutexesOk heap.mutexCalls (ctx :: r.live)) :
    ContextsOk sizes space ⟨heap, ctx :: r.live⟩ := by
  refine ⟨?_, List.nodup_cons.mpr ⟨hctx, h.nodup⟩, fun c hc => ?_, hmutexes⟩
  · rw [ContextRun.blocks_cons, ContextRun.blocks_congr hcontexts, hself]
    exact hheap.perm (List.Perm.swap _ _ _)
  · rcases List.mem_cons.mp hc with rfl | hc
    · exact hpages
    · rw [hcontexts c hc]
      exact h.noGuardPages c hc

theorem encCtx_initialized (env : ContextEnv) (fields : ContextFields) (level : SecurityLevel) :
    (initializeContextFields env (initializeCanaries env fields) level).encCtx = fields.encCtx := by
  unfold initializeContextFields initializeCanaries
  split <;> rfl

theorem ContextsOk.create (h : ContextsOk sizes space r)
    (hallowed : r.Allowed sizes space (.create env level)) :
    ContextsOk sizes space (r.step sizes (.create env level)) := by
  obtain ⟨hnew, hnewEnc⟩ := hallowed
  unfold ContextRun.step securityContextCreate
  dsimp only
  rcases hfirst : allocateFrom env.kernel env.memoryEnv r.heap.memory sizes.context level with
    ⟨memory, _ | ctx⟩
  · -- nothing was allocated
    rw [allocateFrom_none hfirst]
    exact h.given_up h.heap (fun _ _ => rfl) h.mutexes
  rw [hfirst] at hnewEnc
  have hheap := h.heap.allocateFrom sizes.context_small hnew hfirst
  have hctx := not_live_of_block hheap
  have hne : ∀ c ∈ r.live, c ≠ ctx := fun c hc heq => hctx (heq ▸ hc)
  obtain ⟨calls, ⟨hinit, hmutexes⟩ | ⟨hinit, hmutexes⟩⟩ :=
    @initializeContextMutexes_spec r.live env (r.heap.setMemory memory) ctx h.mutexes hctx
  · -- the mutexes failed, and the block is freed
    dsimp only
    rw [hinit]
    dsimp only
    rw [if_pos (by decide)]
    exact h.given_up hheap.free (fun _ _ => rfl) hmutexes
  dsimp only
  rw [hinit]
  dsimp only
  rw [if_neg (by decide)]
  unfold initializeEncryptionContext
  rcases hsecond : allocateFrom env.encKernel env.memoryEnv
    ((r.heap.setMemory memory).mutex calls).memory sizes.encryption level with
    ⟨memory', _ | encCtx⟩
  · -- the second block was not allocated, and the first is freed
    dsimp only
    rw [if_pos (by decide)]
    obtain rfl := allocateFrom_none hsecond
    refine h.given_up hheap.free (fun c hc => ?_) ?_
    · exact ContextHeap.contexts_setFields_of_ne _ _ (hne c hc)
    · exact cleanupContextMutexes_spec hmutexes hctx
  · dsimp only
    rw [if_neg (by simp)]
    have hboth := hheap.allocateFrom sizes.encryption_small hnewEnc hsecond
    refine h.handed_out hboth hctx ?_ ?_ (fun c hc => ?_) hmutexes
    · rw [ContextHeap.contexts_setFields_self, encCtx_initialized,
        ContextHeap.contexts_setFields_self]
    · rw [ContextHeap.contexts_setFields_self]
      rfl
    · rw [ContextHeap.contexts_setFields_of_ne _ _ (hne c hc),
        ContextHeap.contexts_setFields_of_ne _ _ (hne c hc), ContextHeap.contexts_setMemory,
        ContextHeap.contexts_mutex, ContextHeap.contexts_setMemory]

/-- Nothing but the memory of a run changes, and the blocks stay. -/
theorem ContextsOk.memory (h : ContextsOk sizes space r) {memory : Memory}
    (hheap : HeapOk space memory (r.blocks sizes)) :
    ContextsOk sizes space ⟨r.heap.setMemory memory, r.live⟩ :=
  ⟨hheap, h.nodup, h.noGuardPages, h.mutexes⟩

theorem ContextsOk.store (h : ContextsOk sizes space r) {address length : UInt64}
    {pattern : Pattern} (hallowed : r.Allowed sizes space (.store address length pattern)) :
    ContextsOk sizes space (r.step sizes (.store address length pattern)) := by
  obtain ⟨ctx, hctx, hlow, hhigh⟩ := hallowed
  exact h.memory (h.heap.fill (ContextRun.mem_blocks hctx).2 pattern hlow hhigh)

/-- Counting changes nothing but the counters. -/
theorem count_keeps (heap : ContextHeap) (ctx : UInt64) (operation : CString) :
    (updatePerformanceCounters heap ctx operation).memory = heap.memory ∧
      (updatePerformanceCounters heap ctx operation).mutexCalls = heap.mutexCalls ∧
      ∀ c, ((updatePerformanceCounters heap ctx operation).contexts c).encCtx =
          (heap.contexts c).encCtx ∧
        ((updatePerformanceCounters heap ctx operation).contexts c).guardPages =
          (heap.contexts c).guardPages := by
  unfold updatePerformanceCounters
  split
  · exact ⟨rfl, rfl, fun _ => ⟨rfl, rfl⟩⟩
  refine ⟨rfl, rfl, fun c => ?_⟩
  by_cases hc : c = ctx
  · rw [hc, ContextHeap.contexts_setFields_self]
    split
    · exact ⟨rfl, rfl⟩
    · split
      · exact ⟨rfl, rfl⟩
      · split <;> exact ⟨rfl, rfl⟩
  · rw [ContextHeap.contexts_setFields_of_ne _ _ hc]
    exact ⟨rfl, rfl⟩

theorem ContextsOk.count (h : ContextsOk sizes space r) (ctx : UInt64) (operation : CString) :
    ContextsOk sizes space (r.step sizes (.count ctx operation)) := by
  obtain ⟨hmemory, hcalls, hfields⟩ := count_keeps r.heap ctx operation
  have hblocks : (r.step sizes (.count ctx operation)).blocks sizes = r.blocks sizes := by
    apply List.flatMap_congr
    intro c _
    rw [ContextRun.step, (hfields c).1]
  refine ⟨?_, h.nodup, fun c hc => (hfields c).2.trans (h.noGuardPages c hc), ?_⟩
  · rw [hblocks, ContextRun.step, hmemory]
    exact h.heap
  · rw [ContextRun.step, hcalls]
    exact h.mutexes

theorem destroy_eq {heap : ContextHeap} (hctx : ctx ≠ 0) (henc : (heap.contexts ctx).encCtx ≠ 0)
    (hpages : (heap.contexts ctx).guardPages = []) :
    ∃ memory,
      memory = secureMemoryFree (secureMemoryWipe heap.memory (heap.contexts ctx).encCtx
        sizes.encryption).1 (heap.contexts ctx).encCtx ∧
      securityContextDestroy sizes heap ctx =
        ((cleanupContextMutexes (heap.setMemory memory) ctx).setFields ctx
          (heap.contexts ctx).wiped).setMemory
          (secureMemoryFree (secureMemoryWipe memory ctx sizes.context).1 ctx) := by
  have hclean : cleanupGuardPages (cleanupEncryptionContext sizes heap ctx) ctx =
      heap.setMemory (secureMemoryFree (secureMemoryWipe heap.memory (heap.contexts ctx).encCtx
        sizes.encryption).1 (heap.contexts ctx).encCtx) := by
    unfold cleanupGuardPages cleanupEncryptionContext
    simp [if_neg henc, hpages, Memory.call, ContextHeap.setMemory]
  refine ⟨_, rfl, ?_⟩
  unfold securityContextDestroy
  rw [if_neg hctx]
  dsimp only
  rw [hclean]
  rfl

theorem ContextsOk.destroy (h : ContextsOk sizes space r)
    (hallowed : r.Allowed sizes space (.destroy ctx)) :
    ContextsOk sizes space (r.step sizes (.destroy ctx)) := by
  have hzero : ∀ c ∈ r.live, c ≠ 0 := fun c hc =>
    (h.heap.placed _ (ContextRun.mem_blocks hc).1).ptr_ne_zero
  rcases hallowed with rfl | hctx
  · have hlive : r.live.erase 0 = r.live :=
      List.erase_of_not_mem fun hin => hzero 0 hin rfl
    rw [ContextRun.step, hlive, securityContextDestroy, if_pos rfl]
    exact h
  have hperm := List.perm_cons_erase hctx
  have hout : ctx ∉ r.live.erase ctx := h.nodup.not_mem_erase
  have hne : ∀ c ∈ r.live.erase ctx, c ≠ ctx := fun c hc heq => hout (heq ▸ hc)
  have hblocks : HeapOk space r.heap.memory
      (⟨ctx, sizes.context⟩ :: ⟨(r.heap.contexts ctx).encCtx, sizes.encryption⟩ ::
        ContextRun.blocks sizes ⟨r.heap, r.live.erase ctx⟩) :=
    h.heap.perm (hperm.flatMap_right _)
  have henc : (r.heap.contexts ctx).encCtx ≠ 0 :=
    (h.heap.placed _ (ContextRun.mem_blocks hctx).2).ptr_ne_zero
  obtain ⟨memory, hmemory, heq⟩ :=
    destroy_eq (hzero ctx hctx) henc (h.noGuardPages ctx hctx)
  -- The encryption context goes first, then the context.
  have hfirst : HeapOk space memory (⟨ctx, sizes.context⟩ ::
      ContextRun.blocks sizes ⟨r.heap, r.live.erase ctx⟩) := by
    rw [hmemory]
    exact ((hblocks.perm (List.Perm.swap _ _ _)).wipe List.mem_cons_self).1.free
  have hsecond := (hfirst.wipe List.mem_cons_self).1.free
  have hcontexts : ∀ c ∈ r.live.erase ctx,
      (securityContextDestroy sizes r.heap ctx).contexts c = r.heap.contexts c := by
    intro c hc
    rw [heq, ContextHeap.contexts_setMemory, ContextHeap.contexts_setFields_of_ne _ _ (hne c hc)]
    rfl
  refine ⟨?_, h.nodup.erase ctx, fun c hc => ?_, ?_⟩
  · rw [ContextRun.step, ContextRun.blocks_congr hcontexts, heq]
    exact hsecond
  · rw [ContextRun.step, hcontexts c hc]
    exact h.noGuardPages c (List.mem_of_mem_erase hc)
  · rw [ContextRun.step, heq]
    exact cleanupContextMutexes_spec (h.mutexes.perm hperm) hout

/-- The step lemma. -/
theorem ContextsOk.step (h : ContextsOk sizes space r) (action : ContextAction)
    (hallowed : r.Allowed sizes space action) : ContextsOk sizes space (r.step sizes action) := by
  cases action with
  | create env level => exact h.create hallowed
  | store address length pattern => exact h.store hallowed
  | count ctx operation => exact h.count ctx operation
  | destroy ctx => exact h.destroy hallowed

theorem contextsOk_start (sizes : ContextSizes) (space : Space UInt8)
    (headers : UInt64 → AllocationHeader) (contexts : UInt64 → ContextFields) :
    ContextsOk sizes space (ContextRun.start headers contexts) := by
  refine ⟨⟨⟨?_, List.Pairwise.nil, ?_⟩, ?_, ?_, ?_, eachStep_nil⟩, List.nodup_nil, ?_,
    ⟨disciplined_nil, fun _ _ => rfl⟩⟩
  · change space.mapped = space.mapped ∪ covered []
    rw [covered_nil, Set.union_empty]
  all_goals simp [ContextRun.start, ContextRun.blocks]

end Contexts

/-- Contexts that are created, used and destroyed in any order leave no memory behind and touch
none but their own. -/
theorem contexts_heap_sound (sizes : ContextSizes) (space : Space UInt8)
    (headers : UInt64 → AllocationHeader) (contexts : UInt64 → ContextFields)
    (actions : List ContextAction)
    (h : EachStep (ContextRun.step sizes) (ContextRun.Allowed sizes space)
      (ContextRun.start headers contexts) actions) :
    Always (ContextRun.step sizes) (HeapSound sizes space) (ContextRun.start headers contexts)
      actions := by
  have hok := always_of_eachStep (fun r action hr hallowed => hr.step action hallowed)
    (contextsOk_start sizes space headers contexts) h
  exact hok.imp fun r hr =>
    ⟨hr.heap.holds, hr.heap.proper, hr.mutexes.disciplined, hr.mutexes.initialized⟩

/-- A kernel that maps what is short at one address. -/
def kernelAt (address : UInt64) (h : address.toNat ≤ 2 ^ 63) : Kernel where
  mmap length := if length = 0 then none else some (if length ≤ 65536 then address else 0 - length)
  mprotect _ := true
  mmap_zero := if_pos rfl
  mmap_pages length hne _ := by rw [if_neg hne]; rfl
  mmap_fits length mem hmem := by
    have hlt := length.toNat_lt
    split at hmem
    · cases hmem
    · rw [← Option.some.inj hmem]
      split
      · next hshort =>
        rw [UInt64.le_iff_toNat_le] at hshort
        have hbound : (65536 : UInt64).toNat = 65536 := rfl
        omega
      · rw [UInt64.toNat_sub, UInt64.toNat_zero]
        omega

def shortSizes : ContextSizes := ⟨1024, 512, by decide, by decide, by decide, by decide⟩

/-- Such a kernel grants new addresses where nothing is mapped behind its address. -/
theorem grantsNew_kernelAt {address length : UInt64} (h : address.toNat ≤ 2 ^ 63)
    {s : Space UInt8} (hlength : length ≤ 65536)
    (hnew : Disjoint (⟨address.toNat, length.toNat⟩ : Region).addresses s.mapped) :
    GrantsNew (some (kernelAt address h)) length s := by
  intro kernel mem hkernel hmem
  cases hkernel
  dsimp only [kernelAt] at hmem
  split at hmem
  · cases hmem
  · cases hmem
    exact hnew

def firstEnv : ContextEnv :=
  ⟨some (kernelAt 0x10000 (by decide)), some (kernelAt 0x20000 (by decide)), ⟨0, false⟩,
    fun _ => false, 0⟩

def secondEnv : ContextEnv :=
  ⟨some (kernelAt 0x30000 (by decide)), some (kernelAt 0x40000 (by decide)), ⟨1, true⟩,
    fun _ => false, 0⟩

/-- The encryption context is refused its memory. -/
def deniedEnv : ContextEnv :=
  ⟨some (kernelAt 0x50000 (by decide)), none, ⟨2, true⟩, fun _ => false, 0⟩

def shortStart : ContextRun :=
  ContextRun.start (fun _ => ⟨0, 0, .low, 0, 0⟩)
    (fun _ => ⟨fun _ => 0, fun _ => 0, 0, [], .low, 0, 0, 0, false, 0⟩)

def emptySpace : Space UInt8 := ⟨∅, ∅, fun _ => 0⟩

/-- Two contexts that are alive at once, a third that is refused, and a store through the
`enc_ctx` of the first. -/
def overlappingLives : List ContextAction :=
  [.create firstEnv .high, .create secondEnv .maximum, .create deniedEnv .low,
    .store 0x21028 16 (.constant 7), .destroy 0x11028, .count 0x31028 "encrypt",
    .destroy 0x31028]

theorem contexts_heap_sound_overlapping :
    Always (ContextRun.step shortSizes) (HeapSound shortSizes emptySpace) shortStart
      overlappingLives := by
  have hbelow {a b : Nat} (h : a + 0x3000 ≤ b) :
      Disjoint (⟨b, 0x3000⟩ : Region).addresses (⟨a, 0x3000⟩ : Region).addresses :=
    (Region.disjoint_of_le h).symm
  apply contexts_heap_sound
  rw [overlappingLives]
  iterate 7 rw [eachStep_cons]
  refine ⟨⟨?_, ?_⟩, ⟨?_, ?_⟩, ⟨?_, fun _ _ hkernel => by cases hkernel⟩,
    ⟨0x11028, by decide, by decide, by decide⟩, .inr (by decide), .inr (by decide),
    .inr (by decide), eachStep_nil⟩
  all_goals
    apply grantsNew_kernelAt _ (by decide)
  · exact Set.disjoint_empty _
  · change Disjoint _ (∅ ∪ (⟨0x10000, 0x3000⟩ : Region).addresses)
    rw [Set.empty_union]
    exact hbelow (by decide)
  · change Disjoint _ (∅ ∪ (⟨0x10000, 0x3000⟩ : Region).addresses ∪
      (⟨0x20000, 0x3000⟩ : Region).addresses)
    rw [Set.empty_union, Set.disjoint_union_right]
    exact ⟨hbelow (by decide), hbelow (by decide)⟩
  · change Disjoint _ (∅ ∪ (⟨0x10000, 0x3000⟩ : Region).addresses ∪
      (⟨0x20000, 0x3000⟩ : Region).addresses ∪ (⟨0x30000, 0x3000⟩ : Region).addresses)
    rw [Set.empty_union, Set.disjoint_union_right, Set.disjoint_union_right]
    exact ⟨⟨hbelow (by decide), hbelow (by decide)⟩, hbelow (by decide)⟩
  · change Disjoint _ (∅ ∪ (⟨0x10000, 0x3000⟩ : Region).addresses ∪
      (⟨0x20000, 0x3000⟩ : Region).addresses ∪ (⟨0x30000, 0x3000⟩ : Region).addresses ∪
      (⟨0x40000, 0x3000⟩ : Region).addresses)
    rw [Set.empty_union, Set.disjoint_union_right, Set.disjoint_union_right,
      Set.disjoint_union_right]
    exact ⟨⟨⟨hbelow (by decide), hbelow (by decide)⟩, hbelow (by decide)⟩, hbelow (by decide)⟩

end TcpChat.Client
