import TcpChat.Base.AddressSpace
import TcpChat.Base.Leases
import TcpChat.Base.Runs
import TcpChat.Client.SecurityContext

/-!
# The secure heap

What the memory calls of the client do to its address space. Blocks lie apart, each between the
guard pages of a mapping of its own, and a mapping that is given back holds zeros.
-/

namespace TcpChat.Client

open Base Base.AddressSpace Base.Runs
set_option autoImplicit false

def Pattern.byte : Pattern → Nat → UInt8
  | .constant value, _ => value
  | .indexed key, i => UInt8.ofNat i ^^^ key

/-- What a call does to the address space. A new mapping is filled with zeros. -/
def MemoryCall.apply (s : Space UInt8) : MemoryCall → Space UInt8
  | .mmap length address => s.map ⟨address.toNat, length.toNat⟩ 0
  | .mprotect address length => s.guard ⟨address.toNat, length.toNat⟩
  | .fill address length pattern => s.write ⟨address.toNat, length.toNat⟩ pattern.byte
  | .munmap address length => s.unmap ⟨address.toNat, length.toNat⟩
  | .mlock _ _ | .munlock _ _ => s

/-- Mappings are new, writes go to mapped addresses that are not guarded, and what is unmapped
is mapped and holds zeros behind its guard page and its header. -/
def MemoryCall.Proper (s : Space UInt8) : MemoryCall → Prop
  | .mmap length address =>
    Disjoint (⟨address.toNat, length.toNat⟩ : Region).addresses s.mapped
  | .fill address length _ =>
    (⟨address.toNat, length.toNat⟩ : Region).addresses ⊆ s.mapped \ s.guarded
  | .mlock address length | .mprotect address length | .munlock address length =>
    (⟨address.toNat, length.toNat⟩ : Region).addresses ⊆ s.mapped
  | .munmap address length =>
    (⟨address.toNat, length.toNat⟩ : Region).addresses ⊆ s.mapped ∧
      ∀ x ∈ (⟨address.toNat, length.toNat⟩ : Region).addresses,
        address.toNat + 4136 ≤ x → s.byte x = 0

def Memory.space (start : Space UInt8) (memory : Memory) : Space UInt8 :=
  run MemoryCall.apply start memory.calls

/-- A pointer that has been handed out, and the size that was asked for. -/
structure Block where
  ptr : UInt64
  size : UInt64
  deriving DecidableEq

def Block.user (b : Block) : Region := ⟨b.ptr.toNat, b.size.toNat⟩

/-- The mapping of a block begins a page and a header before it. -/
def Block.region (b : Block) : Region := ⟨b.ptr.toNat - 4136, (mappingSize b.size).toNat⟩

/-- The block fits into its mapping, and its header says so. -/
structure Placed (memory : Memory) (b : Block) : Prop where
  pos : 0 < b.size.toNat
  low : 4136 ≤ b.ptr.toNat
  fits : b.ptr.toNat - 4136 + (mappingSize b.size).toNat ≤ 2 ^ 64
  room : 8232 + b.size.toNat ≤ (mappingSize b.size).toNat
  magic : (memory.headers (b.ptr - headerSize)).magic = allocationMagic
  size : (memory.headers (b.ptr - headerSize)).size = b.size
  canary : (memory.headers (b.ptr - headerSize)).canary = canaryValue

/-- The blocks that are held, beside what was mapped from the start. -/
structure HeapOk (start : Space UInt8) (memory : Memory) (blocks : List Block) : Prop where
  holds : Holds (memory.space start) start.mapped (blocks.map Block.region)
  placed : ∀ b ∈ blocks, Placed memory b
  blank : ∀ b ∈ blocks, ∀ x ∈ b.region.addresses, b.ptr.toNat + b.size.toNat ≤ x →
    (memory.space start).byte x = 0
  unguarded : ∀ b ∈ blocks, ∀ x ∈ b.user.addresses, x ∉ (memory.space start).guarded
  proper : EachStep MemoryCall.apply MemoryCall.Proper start memory.calls

section Blocks
variable {memory memory' : Memory} {b : Block}

theorem Memory.space_call (start : Space UInt8) (memory : Memory) (calls : List MemoryCall) :
    (memory.call calls).space start = run MemoryCall.apply (memory.space start) calls :=
  run_append ..

theorem Placed.congr (h : Placed memory b)
    (hheader : memory'.headers (b.ptr - headerSize) = memory.headers (b.ptr - headerSize)) :
    Placed memory' b :=
  ⟨h.pos, h.low, h.fits, h.room, by rw [hheader]; exact h.magic, by rw [hheader]; exact h.size,
    by rw [hheader]; exact h.canary⟩

theorem Block.start_region (b : Block) : b.region.start = b.ptr.toNat - 4136 := rfl

theorem Block.length_region (b : Block) : b.region.length = (mappingSize b.size).toNat := rfl

theorem Block.start_user (b : Block) : b.user.start = b.ptr.toNat := rfl

theorem Block.length_user (b : Block) : b.user.length = b.size.toNat := rfl

theorem Placed.ptr_ne_zero (h : Placed memory b) : b.ptr ≠ 0 := by
  intro hzero
  have hlow := h.low
  rw [hzero] at hlow
  exact absurd hlow (by decide)

theorem Placed.user_subset (h : Placed memory b) : b.user.addresses ⊆ b.region.addresses := by
  have hlow := h.low
  have hroom := h.room
  apply Region.subset_of_le
  · rw [b.start_region, b.start_user]
    omega
  · rw [b.start_region, b.start_user, b.length_region, b.length_user]
    omega

theorem toNat_sub_headerSize {ptr : UInt64} (h : 4136 ≤ ptr.toNat) :
    (ptr - headerSize).toNat = ptr.toNat - 40 := by
  have hle : headerSize ≤ ptr := by
    rw [UInt64.le_iff_toNat_le]
    exact Nat.le_trans (by decide) h
  rw [UInt64.toNat_sub_of_le _ _ hle]
  rfl

theorem toNat_sub_pageSize {ptr : UInt64} (h : 4136 ≤ ptr.toNat) :
    (ptr - headerSize - pageSize).toNat = ptr.toNat - 4136 := by
  have hheader := toNat_sub_headerSize h
  have hle : pageSize ≤ ptr - headerSize := by
    rw [UInt64.le_iff_toNat_le, hheader]
    exact Nat.le_sub_of_add_le h
  rw [UInt64.toNat_sub_of_le _ _ hle, hheader]
  have hpage : pageSize.toNat = 4096 := rfl
  omega

theorem Placed.header_mem (h : Placed memory b) :
    (b.ptr - headerSize).toNat ∈ b.region.addresses := by
  have hlow := h.low
  have hroom := h.room
  rw [Region.mem_addresses, b.start_region, b.length_region, toNat_sub_headerSize hlow]
  omega

end Blocks

namespace HeapOk

variable {start : Space UInt8} {memory : Memory} {blocks blocks' : List Block} {b b' : Block}
  (h : HeapOk start memory blocks)
include h

theorem perm (hperm : blocks.Perm blocks') : HeapOk start memory blocks' :=
  ⟨h.holds.perm (hperm.map _), fun b hb => h.placed b (hperm.mem_iff.mpr hb),
    fun b hb => h.blank b (hperm.mem_iff.mpr hb), fun b hb => h.unguarded b (hperm.mem_iff.mpr hb),
    h.proper⟩

theorem region_subset (hb : b ∈ blocks) : b.region.addresses ⊆ (memory.space start).mapped :=
  h.holds.subset_mapped (List.mem_map_of_mem hb)

/-- Writing into a block. -/
theorem fill (hb : b ∈ blocks) {address length : UInt64} (pattern : Pattern)
    (hlow : b.ptr.toNat ≤ address.toNat)
    (hhigh : address.toNat + length.toNat ≤ b.ptr.toNat + b.size.toNat) :
    HeapOk start (memory.call [.fill address length pattern]) blocks := by
  have hinside : (⟨address.toNat, length.toNat⟩ : Region).addresses ⊆ b.user.addresses :=
    Region.subset_of_le hlow hhigh
  have huser := (h.placed b hb).user_subset
  have hspace := memory.space_call start [.fill address length pattern]
  rw [run_cons, run_nil] at hspace
  constructor
  · rw [hspace]
    exact h.holds.congr rfl
  · exact fun b' hb' => (h.placed b' hb').congr rfl
  · intro b' hb' x hx hbehind
    rw [hspace]
    change (if x ∈ (⟨address.toNat, length.toNat⟩ : Region).addresses then _ else _) = _
    rw [if_neg]
    · exact h.blank b' hb' x hx hbehind
    · intro hin
      have hsame := h.holds.eq_of_mem hb' hb hx (huser (hinside hin))
      have hbefore := (Region.mem_addresses.mp (hinside hin)).2
      rw [b.start_user, b.length_user] at hbefore
      rw [hsame] at hbehind
      omega
  · rw [hspace]
    exact h.unguarded
  · rw [Memory.call, eachStep_append, eachStep_cons]
    refine ⟨h.proper, fun x hx => ?_, eachStep_nil⟩
    exact ⟨h.region_subset hb (huser (hinside hx)), h.unguarded b hb x (hinside hx)⟩

/-- A block that is wiped holds zeros. -/
theorem wipe (hb : b ∈ blocks) :
    HeapOk start (secureMemoryWipe memory b.ptr b.size).1 blocks ∧
      ∀ x ∈ b.user.addresses,
        ((secureMemoryWipe memory b.ptr b.size).1.space start).byte x = 0 := by
  have hplaced := h.placed b hb
  have hinside : ¬ (b.ptr = 0 ∨ b.size = 0) := by
    rintro (hptr | hsize)
    · exact hplaced.ptr_ne_zero hptr
    · have hpos := hplaced.pos
      rw [hsize] at hpos
      exact absurd hpos (by decide)
  have hwiped : (secureMemoryWipe memory b.ptr b.size).1 =
      (((memory.call [.fill b.ptr b.size (.constant 0)]).call
        [.fill b.ptr b.size (.constant 0xFF)]).call [.fill b.ptr b.size (.indexed 0xAA)]).call
          [.fill b.ptr b.size (.constant 0)] := by
    unfold secureMemoryWipe
    rw [if_neg hinside]
    simp [Memory.call]
  rw [hwiped]
  constructor
  · have hfirst := h.fill hb (.constant 0) le_rfl le_rfl
    have hsecond := hfirst.fill hb (.constant 0xFF) le_rfl le_rfl
    have hthird := hsecond.fill hb (.indexed 0xAA) le_rfl le_rfl
    exact hthird.fill hb (.constant 0) le_rfl le_rfl
  · intro x hx
    rw [Memory.space_call]
    exact if_pos hx

end HeapOk

/-- Blocks have addresses of their own. -/
theorem HeapOk.ptr_ne {start : Space UInt8} {memory : Memory} {blocks : List Block} {b b' : Block}
    (h : HeapOk start memory (b :: blocks)) (hb' : b' ∈ blocks) : b'.ptr ≠ b.ptr := by
  intro heq
  have hb := h.placed b List.mem_cons_self
  have hb'' := h.placed b' (List.mem_cons_of_mem b hb')
  have hmem := hb.header_mem
  have hmem' := hb''.header_mem
  rw [heq] at hmem'
  have hdisjoint := (List.pairwise_cons.mp h.holds.apart).1 _ (List.mem_map_of_mem hb')
  exact Set.disjoint_left.mp hdisjoint hmem hmem'

/-- Freeing a block gives back its mapping and leaves the other blocks. -/
theorem HeapOk.free {start : Space UInt8} {memory : Memory} {blocks : List Block} {b : Block}
    (h : HeapOk start memory (b :: blocks)) :
    HeapOk start (secureMemoryFree memory b.ptr) blocks := by
  have hplaced := h.placed b List.mem_cons_self
  have hlow := hplaced.low
  have hkept : ¬ ((memory.headers (b.ptr - headerSize)).magic ≠ allocationMagic ∨
      (memory.headers (b.ptr - headerSize)).canary ≠ canaryValue) := by
    simp [hplaced.magic, hplaced.canary]
  obtain ⟨hwiped, hzeros⟩ := h.wipe List.mem_cons_self
  have hfreed : secureMemoryFree memory b.ptr =
      (secureMemoryWipe memory b.ptr b.size).1.call
        [.munlock (b.ptr - headerSize - pageSize) (mappingSize b.size),
          .munmap (b.ptr - headerSize - pageSize) (mappingSize b.size)] := by
    unfold secureMemoryFree
    rw [if_neg hplaced.ptr_ne_zero]
    dsimp only
    rw [if_neg hkept, hplaced.size]
    rfl
  rw [hfreed]
  generalize (secureMemoryWipe memory b.ptr b.size).1 = wiped at hwiped hzeros
  have hregion : (⟨(b.ptr - headerSize - pageSize).toNat, (mappingSize b.size).toNat⟩ : Region) =
      b.region := by
    rw [toNat_sub_pageSize hlow]
    rfl
  have hspace := wiped.space_call start
    [.munlock (b.ptr - headerSize - pageSize) (mappingSize b.size),
      .munmap (b.ptr - headerSize - pageSize) (mappingSize b.size)]
  rw [run_cons, run_cons, run_nil, MemoryCall.apply, MemoryCall.apply, hregion] at hspace
  constructor
  · rw [hspace]
    exact hwiped.holds.unmap
  · exact fun b' hb' => (hwiped.placed b' (List.mem_cons_of_mem b hb')).congr rfl
  · intro b' hb'
    rw [hspace]
    exact hwiped.blank b' (List.mem_cons_of_mem b hb')
  · intro b' hb' x hx hguarded
    rw [hspace] at hguarded
    exact hwiped.unguarded b' (List.mem_cons_of_mem b hb') x hx hguarded.1
  · have hmapped := hwiped.region_subset (b := b) List.mem_cons_self
    rw [Memory.call, eachStep_append, eachStep_cons, eachStep_cons]
    refine ⟨hwiped.proper, ?_, ⟨?_, ?_⟩, eachStep_nil⟩
    · rw [MemoryCall.Proper, hregion]
      exact hmapped
    · rw [hregion]
      exact hmapped
    · intro x hx hbehind
      rw [hregion] at hx
      rw [toNat_sub_pageSize hlow] at hbehind
      by_cases hinside : x < b.ptr.toNat + b.size.toNat
      · exact hzeros x (Region.mem_addresses.mpr ⟨by rw [b.start_user]; omega, hinside⟩)
      · exact hwiped.blank b List.mem_cons_self x hx (by omega)

section Allocations
variable {start : Space UInt8} {kernel : Kernel} {env : MemoryEnv} {memory memory' : Memory}
  {size ptr : UInt64} {level : SecurityLevel} {blocks : List Block}

/-- The kernel maps addresses that are not mapped yet. -/
def GrantsNew (kernel : Option Kernel) (length : UInt64) (s : Space UInt8) : Prop :=
  ∀ k mem, kernel = some k → k.mmap length = some mem →
    Disjoint (⟨mem.toNat, length.toNat⟩ : Region).addresses s.mapped

def guardCalls (first last : UInt64) (both : Bool) : List MemoryCall :=
  .mprotect first pageSize :: if both then [.mprotect last pageSize] else []

theorem run_guardCalls (s : Space UInt8) (first last : UInt64) (both : Bool) :
    (run MemoryCall.apply s (guardCalls first last both)).mapped = s.mapped ∧
      (run MemoryCall.apply s (guardCalls first last both)).byte = s.byte ∧
      (run MemoryCall.apply s (guardCalls first last both)).guarded ⊆
        s.guarded ∪ (⟨first.toNat, 4096⟩ : Region).addresses ∪
          (⟨last.toNat, 4096⟩ : Region).addresses := by
  cases both with
  | false => exact ⟨rfl, rfl, Set.subset_union_left⟩
  | true => exact ⟨rfl, rfl, subset_rfl⟩

theorem proper_guardCalls {s : Space UInt8} {first last : UInt64} {both : Bool}
    (hfirst : (⟨first.toNat, 4096⟩ : Region).addresses ⊆ s.mapped)
    (hlast : (⟨last.toNat, 4096⟩ : Region).addresses ⊆ s.mapped) :
    EachStep MemoryCall.apply MemoryCall.Proper s (guardCalls first last both) := by
  cases both with
  | false => exact eachStep_cons.mpr ⟨hfirst, eachStep_nil⟩
  | true => exact eachStep_cons.mpr ⟨hfirst, eachStep_cons.mpr ⟨hlast, eachStep_nil⟩⟩

/-- The memory of an allocation before the first bytes of its block are written. -/
def newMapping (kernel : Kernel) (env : MemoryEnv) (memory : Memory) (size : UInt64)
    (level : SecurityLevel) (mem : UInt64) : Memory where
  headers := Function.update memory.headers (mem + pageSize)
    ⟨allocationMagic, size, level, env.now, canaryValue⟩
  calls := memory.calls ++ .mmap (mappingSize size) mem :: .mlock mem (mappingSize size) ::
    guardCalls mem (mem + mappingSize size - pageSize) (kernel.mprotect mem)

theorem allocate_eq
    (h : secureMemoryAllocate kernel env memory size level = (memory', some ptr)) :
    ∃ mem, size ≠ 0 ∧ kernel.mmap (mappingSize size) = some mem ∧
      ptr = mem + pageSize + headerSize ∧
      memory' = (newMapping kernel env memory size level mem).call
        [.fill ptr size (initializeMemoryContent env level)] := by
  unfold secureMemoryAllocate at h
  by_cases hsize : size = 0
  · rw [if_pos hsize] at h
    cases h
  · rw [if_neg hsize] at h
    dsimp only at h
    cases hmapped : kernel.mmap (mappingSize size) with
    | none =>
      rw [mappingSize, Base.Alignment.alignUp, Base.Alignment.alignDown] at hmapped
      rw [hmapped] at h
      cases h
    | some mem =>
      have hlength := hmapped
      rw [mappingSize, Base.Alignment.alignUp, Base.Alignment.alignDown] at hlength
      rw [hlength] at h
      obtain ⟨hmemory, hptr⟩ := Prod.mk.inj h
      have hptr := Option.some.inj hptr
      refine ⟨mem, hsize, rfl, hptr.symm, ?_⟩
      rw [← hmemory, ← hptr]
      rfl

/-- Where a mapping at `mem` puts a block of `size` bytes. -/
structure Layout (size mem ptr : UInt64) : Prop where
  room : 8232 + size.toNat ≤ (mappingSize size).toNat
  fits : mem.toNat + (mappingSize size).toNat ≤ 2 ^ 64
  address : ptr.toNat = mem.toNat + 4136
  header : (mem + pageSize).toNat = mem.toNat + 4096
  back : ptr - headerSize = mem + pageSize
  last : (mem + mappingSize size - pageSize).toNat = mem.toNat + (mappingSize size).toNat - 4096

section Layout
variable {mem : UInt64} (l : Layout size mem ptr)

theorem Layout.of_fits (hroom : 8232 + size.toNat ≤ (mappingSize size).toNat)
    (hfits : mem.toNat + (mappingSize size).toNat ≤ 2 ^ 64)
    (hptr : ptr = mem + pageSize + headerSize) : Layout size mem ptr := by
  have hpage : pageSize.toNat = 4096 := rfl
  have hhead : headerSize.toNat = 40 := rfl
  have hheader : (mem + pageSize).toNat = mem.toNat + 4096 := by
    rw [UInt64.toNat_add, hpage]
    omega
  refine ⟨hroom, hfits, ?_, hheader, ?_, ?_⟩
  · rw [hptr, UInt64.toNat_add, hheader, hhead]
    omega
  · rw [hptr, UInt64.add_sub_cancel]
  · rw [UInt64.toNat_sub, UInt64.toNat_add, hpage]
    omega

include l

theorem Layout.region_eq :
    (⟨mem.toNat, (mappingSize size).toNat⟩ : Region) = (⟨ptr, size⟩ : Block).region := by
  have haddress := l.address
  have hstart : mem.toNat = ptr.toNat - 4136 := by omega
  rw [hstart]
  rfl

theorem Layout.mem_region {x : Nat} : x ∈ (⟨ptr, size⟩ : Block).region.addresses ↔
    mem.toNat ≤ x ∧ x < mem.toNat + (mappingSize size).toNat := by
  rw [← l.region_eq]
  exact Region.mem_addresses

/-- The pages that are guarded belong to the mapping and not to the block. -/
theorem Layout.first_page {x : Nat} (hx : x ∈ (⟨mem.toNat, 4096⟩ : Region).addresses) :
    x ∈ (⟨ptr, size⟩ : Block).region.addresses ∧ x ∉ (⟨ptr, size⟩ : Block).user.addresses := by
  have hroom := l.room
  have haddress := l.address
  change mem.toNat ≤ x ∧ x < mem.toNat + 4096 at hx
  refine ⟨l.mem_region.mpr (by omega), fun hin => ?_⟩
  change ptr.toNat ≤ x ∧ x < ptr.toNat + size.toNat at hin
  omega

theorem Layout.last_page {x : Nat}
    (hx : x ∈ (⟨(mem + mappingSize size - pageSize).toNat, 4096⟩ : Region).addresses) :
    x ∈ (⟨ptr, size⟩ : Block).region.addresses ∧ x ∉ (⟨ptr, size⟩ : Block).user.addresses := by
  have hroom := l.room
  have haddress := l.address
  rw [l.last] at hx
  change mem.toNat + (mappingSize size).toNat - 4096 ≤ x ∧
    x < mem.toNat + (mappingSize size).toNat - 4096 + 4096 at hx
  refine ⟨l.mem_region.mpr (by omega), fun hin => ?_⟩
  change ptr.toNat ≤ x ∧ x < ptr.toNat + size.toNat at hin
  omega

theorem Layout.placed (hsize : size ≠ 0) :
    Placed (newMapping kernel env memory size level mem) ⟨ptr, size⟩ := by
  have haddress := l.address
  have hfits := l.fits
  have hpos : 0 < size.toNat := by
    by_contra hzero
    exact hsize (UInt64.toNat_inj.mp (Nat.eq_zero_of_not_pos hzero))
  refine ⟨hpos, ?_, ?_, l.room, ?_, ?_, ?_⟩
  · rw [haddress]
    omega
  · change ptr.toNat - 4136 + (mappingSize size).toNat ≤ 2 ^ 64
    omega
  all_goals
    dsimp only [newMapping]
    rw [l.back, Function.update_self]

theorem Layout.space_newMapping :
    (newMapping kernel env memory size level mem).space start =
      run MemoryCall.apply ((memory.space start).map (⟨ptr, size⟩ : Block).region 0)
        (guardCalls mem (mem + mappingSize size - pageSize) (kernel.mprotect mem)) := by
  rw [Memory.space, newMapping, run_append, run_cons, run_cons, MemoryCall.apply,
    MemoryCall.apply, l.region_eq]
  rfl

/-- What is guarded once the mapping is there. -/
theorem Layout.guarded {x : Nat}
    (hx : x ∈ ((newMapping kernel env memory size level mem).space start).guarded) :
    x ∈ (memory.space start).guarded \ (⟨ptr, size⟩ : Block).region.addresses ∨
      x ∈ (⟨ptr, size⟩ : Block).region.addresses ∧
        x ∉ (⟨ptr, size⟩ : Block).user.addresses := by
  rw [l.space_newMapping] at hx
  obtain ⟨_, _, hguarded⟩ := run_guardCalls
    ((memory.space start).map (⟨ptr, size⟩ : Block).region 0) mem
    (mem + mappingSize size - pageSize) (kernel.mprotect mem)
  rcases hguarded hx with (hbefore | hfirst) | hlast
  · exact .inl hbefore
  · exact .inr (l.first_page hfirst)
  · exact .inr (l.last_page hlast)

theorem Layout.proper
    (hnew : Disjoint (⟨ptr, size⟩ : Block).region.addresses (memory.space start).mapped) :
    EachStep MemoryCall.apply MemoryCall.Proper (memory.space start)
      (.mmap (mappingSize size) mem :: .mlock mem (mappingSize size) ::
        guardCalls mem (mem + mappingSize size - pageSize) (kernel.mprotect mem)) := by
  have hnow : (⟨ptr, size⟩ : Block).region.addresses ⊆
      ((memory.space start).map (⟨ptr, size⟩ : Block).region 0).mapped :=
    Set.subset_union_right
  rw [eachStep_cons, eachStep_cons]
  refine ⟨?_, ?_, ?_⟩
  · change Disjoint (⟨mem.toNat, (mappingSize size).toNat⟩ : Region).addresses _
    rw [l.region_eq]
    exact hnew
  · change (⟨mem.toNat, (mappingSize size).toNat⟩ : Region).addresses ⊆ _
    rw [MemoryCall.apply, l.region_eq]
    exact hnow
  · rw [MemoryCall.apply, MemoryCall.apply, l.region_eq]
    apply proper_guardCalls
    · exact fun x hx => hnow (l.first_page hx).1
    · exact fun x hx => hnow (l.last_page hx).1

end Layout

/-- A mapping that is new and long enough is a block beside the others. -/
theorem HeapOk.newMapping (h : HeapOk start memory blocks) {mem : UInt64}
    (l : Layout size mem ptr) (hsize : size ≠ 0)
    (hnew : Disjoint (⟨ptr, size⟩ : Block).region.addresses (memory.space start).mapped) :
    HeapOk start (newMapping kernel env memory size level mem) (⟨ptr, size⟩ :: blocks) := by
  obtain ⟨hmap, hbyte, _⟩ := run_guardCalls
    ((memory.space start).map (⟨ptr, size⟩ : Block).region 0) mem
    (mem + mappingSize size - pageSize) (kernel.mprotect mem)
  have hothers : ∀ b ∈ blocks, ∀ x ∈ b.region.addresses,
      x ∉ (⟨ptr, size⟩ : Block).region.addresses := fun b hb x hx hin =>
    Set.disjoint_left.mp hnew hin (h.region_subset hb hx)
  have hself : Placed (Client.newMapping kernel env memory size level mem) ⟨ptr, size⟩ := l.placed hsize
  constructor
  · rw [l.space_newMapping]
    exact (h.holds.map 0 hnew).congr hmap
  · intro b hb
    rcases List.mem_cons.mp hb with rfl | hb
    · exact hself
    · have hplaced := h.placed b hb
      apply hplaced.congr
      have hne : b.ptr - headerSize ≠ mem + pageSize := by
        intro hsame
        have hroom := l.room
        apply hothers b hb _ hplaced.header_mem
        rw [hsame, l.header, l.mem_region]
        omega
      dsimp only [Client.newMapping]
      rw [Function.update_of_ne hne]
  · intro b hb x hx hbehind
    rw [l.space_newMapping, hbyte, Space.byte_map]
    split
    · rfl
    · next hout =>
      rcases List.mem_cons.mp hb with rfl | hb
      · exact absurd hx hout
      · exact h.blank b hb x hx hbehind
  · intro b hb x hx hin
    rcases List.mem_cons.mp hb with rfl | hb
    · rcases l.guarded hin with ⟨_, hout⟩ | ⟨_, hout⟩
      · exact hout (hself.user_subset hx)
      · exact hout hx
    · rcases l.guarded hin with ⟨hbefore, _⟩ | ⟨hinside, _⟩
      · exact h.unguarded b hb x hx hbefore
      · exact hothers b hb x ((h.placed b hb).user_subset hx) hinside
  · rw [Client.newMapping, eachStep_append]
    exact ⟨h.proper, l.proper hnew⟩

theorem HeapOk.allocate (h : HeapOk start memory blocks)
    (hroom : 8232 + size.toNat ≤ (mappingSize size).toNat)
    (hnew : GrantsNew (some kernel) (mappingSize size) (memory.space start))
    (heq : secureMemoryAllocate kernel env memory size level = (memory', some ptr)) :
    HeapOk start memory' (⟨ptr, size⟩ :: blocks) := by
  obtain ⟨mem, hsize, hmapped, hptr, hmemory⟩ := allocate_eq heq
  have l := Layout.of_fits hroom (kernel.mmap_fits _ _ hmapped) hptr
  have hdisjoint := hnew kernel mem rfl hmapped
  rw [l.region_eq] at hdisjoint
  rw [hmemory]
  exact (h.newMapping l hsize hdisjoint).fill List.mem_cons_self _ le_rfl le_rfl

theorem allocateFrom_none {kernel : Option Kernel}
    (h : allocateFrom kernel env memory size level = (memory', none)) : memory' = memory := by
  unfold allocateFrom at h
  split at h
  · exact (Prod.mk.inj h).1.symm
  · unfold secureMemoryAllocate at h
    split at h
    · exact (Prod.mk.inj h).1.symm
    · dsimp only at h
      split at h
      · exact (Prod.mk.inj h).1.symm
      · cases h

theorem HeapOk.allocateFrom {kernel : Option Kernel} (h : HeapOk start memory blocks)
    (hsmall : size.toNat ≤ 2 ^ 32)
    (hnew : GrantsNew kernel (mappingSize size) (memory.space start))
    (heq : allocateFrom kernel env memory size level = (memory', some ptr)) :
    HeapOk start memory' (⟨ptr, size⟩ :: blocks) := by
  have hroom : 8232 + size.toNat ≤ (mappingSize size).toNat := by
    rw [toNat_mappingSize]
    omega
  cases kernel with
  | none => cases heq
  | some kernel => exact h.allocate hroom hnew heq

end Allocations

end TcpChat.Client
