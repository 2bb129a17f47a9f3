import TcpChat.Client.SecureMemory

/-!
# Allocations between guard pages

The length of a mapping is a sum of `size_t`, so it wraps for the largest sizes. A length of 0 is
refused, and a longer one is mapped although the block does not fit.
-/

namespace TcpChat.Client

open Base.Alignment
set_option autoImplicit false

/-- The block at `ptr` lies, behind its header, between the first and the last page of its
mapping, and freeing it later gives back that mapping. -/
structure Guarded (memory memory' : Memory) (size ptr mem total : UInt64) : Prop where
  mapped : ∃ rest, memory'.calls = memory.calls ++ .mmap total mem :: rest
  header_after : mem.toNat + pageSize.toNat ≤ (ptr - headerSize).toNat
  block_after : (ptr - headerSize).toNat + headerSize.toNat ≤ ptr.toNat
  block_before : ptr.toNat + size.toNat + pageSize.toNat ≤ mem.toNat + total.toNat
  freed : ∀ later : Memory,
    later.headers (ptr - headerSize) = memory'.headers (ptr - headerSize) →
      ∃ wiped, (secureMemoryFree later ptr).calls =
        later.calls ++ wiped ++ [.munlock mem total, .munmap mem total]

def GuardPagesHold (kernel : Kernel) (env : MemoryEnv) (memory : Memory) (size : UInt64)
    (level : SecurityLevel) : Prop :=
  ∀ memory' ptr, secureMemoryAllocate kernel env memory size level = (memory', some ptr) →
    ∃ mem total, Guarded memory memory' size ptr mem total

section Layout
variable {kernel : Kernel} {env : MemoryEnv} {memory memory' : Memory} {size ptr mem : UInt64}
  {level : SecurityLevel}

theorem sub_headerSize (mem : UInt64) :
    mem + pageSize + headerSize - headerSize = mem + pageSize :=
  UInt64.add_sub_cancel _ _

/-- A mapping that holds the header, the block and two more pages. -/
theorem Allocated.guarded (h : Allocated kernel memory size memory' ptr mem)
    (hroom : 8232 + size.toNat ≤ (mappingSize size).toNat) :
    Guarded memory memory' size ptr mem (mappingSize size) := by
  have hfits := kernel.mmap_fits _ _ h.mapped
  have hpage : pageSize.toNat = 4096 := rfl
  have hhead : headerSize.toNat = 40 := rfl
  have hheader : (mem + pageSize).toNat = mem.toNat + 4096 := by
    rw [UInt64.toNat_add, hpage]
    omega
  have hptr : ptr.toNat = mem.toNat + 4136 := by
    rw [h.ptr_eq, UInt64.toNat_add, hheader, hhead]
    omega
  have hback : ptr - headerSize = mem + pageSize := by
    rw [h.ptr_eq, sub_headerSize]
  constructor
  · exact h.calls
  · rw [hback, hheader, hpage]
  · rw [hback, hheader, hhead, hptr]
  · rw [hptr, hpage]
    omega
  · intro later hlater
    rw [hback] at hlater
    have hne : ptr ≠ 0 := by
      intro hzero
      rw [hzero] at hptr
      cases hptr.symm.trans (rfl : (0 : UInt64).toNat = 0)
    obtain ⟨wiped, hcalls⟩ := @free_of_header later size ptr hne
      (by rw [hback, hlater, h.magic]) (by rw [hback, hlater, h.size])
      (by rw [hback, hlater, h.canary])
    rw [hback, UInt64.add_sub_cancel] at hcalls
    exact ⟨wiped, hcalls⟩

/-- Where the sum wraps the mapping is at most three pages long. -/
theorem not_guarded_of_wrapped {total mem' : UInt64}
    (h : Allocated kernel memory size memory' ptr mem) (hsize : 2 ^ 64 - 8232 < size.toNat) :
    ¬ Guarded memory memory' size ptr mem' total := by
  intro hguarded
  obtain ⟨rest, hrest⟩ := hguarded.mapped
  obtain ⟨rest', hrest'⟩ := h.calls
  rw [hrest] at hrest'
  obtain ⟨hcall, _⟩ := List.cons.inj (List.append_cancel_left hrest')
  obtain ⟨rfl, rfl⟩ := MemoryCall.mmap.inj hcall
  have hfits := kernel.mmap_fits _ _ h.mapped
  have hafter := hguarded.header_after
  have hblock := hguarded.block_after
  have hbefore := hguarded.block_before
  have hpage : pageSize.toNat = 4096 := rfl
  have hhead : headerSize.toNat = 40 := rfl
  rw [hpage] at hafter hbefore
  rw [hhead] at hblock
  omega

end Layout

/-- The guard pages stand around every block that is handed out exactly when the header, the
block and the guard pages together are no longer than the address space. -/
theorem guardPagesHold_iff (kernel : Kernel) (env : MemoryEnv) (memory : Memory) (size : UInt64)
    (level : SecurityLevel) :
    GuardPagesHold kernel env memory size level ↔ size.toNat ≤ 2 ^ 64 - 8232 := by
  have htotal := toNat_mappingSize size
  have hlt := size.toNat_lt
  constructor
  · intro hall
    by_contra hlarge
    have hsize : size ≠ 0 := by
      rintro rfl
      exact hlarge (by decide)
    have hnonzero : mappingSize size ≠ 0 := by
      intro hzero
      rw [hzero, UInt64.toNat_zero] at htotal
      omega
    obtain ⟨mem, hmapped⟩ := Option.isSome_iff_exists.mp
      (kernel.mmap_pages _ hnonzero (by rw [htotal, Nat.mul_mod_left]))
    obtain ⟨memory', heq⟩ := @allocate_of_mapped kernel env memory size level mem hsize hmapped
    obtain ⟨_, hallocated⟩ := allocated_of_some heq
    obtain ⟨_, _, hguarded⟩ := hall _ _ heq
    exact not_guarded_of_wrapped hallocated (by omega) hguarded
  · intro hsmall memory' ptr heq
    obtain ⟨mem, hallocated⟩ := allocated_of_some heq
    refine ⟨mem, mappingSize size, hallocated.guarded ?_⟩
    have hnonzero : (mappingSize size).toNat ≠ 0 := by
      intro hzero
      have hmapped := hallocated.mapped
      rw [UInt64.toNat_inj.mp (hzero.trans UInt64.toNat_zero.symm), kernel.mmap_zero] at hmapped
      cases hmapped
    omega

/-- A kernel that maps everything at the second page. -/
def lowKernel : Kernel where
  mmap length := if length = 0 then none
    else if length.toNat + 4096 ≤ 2 ^ 64 then some 4096 else some 0
  mprotect _ := true
  mmap_zero := rfl
  mmap_pages := by
    intro length hne _
    rw [if_neg hne]
    split <;> rfl
  mmap_fits := by
    intro length mem hmem
    have hlt := length.toNat_lt
    split at hmem
    · cases hmem
    · split at hmem
      · cases hmem
        rename_i hfits
        have hfour : (4096 : UInt64).toNat = 4096 := rfl
        omega
      · cases hmem
        rw [UInt64.toNat_zero]
        omega

def noHeaders : Memory := ⟨fun _ => ⟨0, 0, .low, 0, 0⟩, []⟩

/-- For the largest size three pages are mapped. -/
theorem largest_block_is_not_guarded :
    ¬ ∀ (kernel : Kernel) (env : MemoryEnv) (memory : Memory) (size : UInt64)
      (level : SecurityLevel), GuardPagesHold kernel env memory size level := by
  intro h
  have hall := h lowKernel ⟨0, false⟩ noHeaders (UInt64.ofNat (2 ^ 64 - 1)) .low
  have hmapped : lowKernel.mmap (mappingSize (UInt64.ofNat (2 ^ 64 - 1))) = some 4096 := by
    decide +kernel
  obtain ⟨memory', heq⟩ := @allocate_of_mapped _ ⟨0, false⟩ noHeaders _ .low _
    (by decide +kernel) hmapped
  obtain ⟨_, hallocated⟩ := allocated_of_some heq
  obtain ⟨_, _, hguarded⟩ := hall _ _ heq
  exact not_guarded_of_wrapped hallocated (by decide +kernel) hguarded

end TcpChat.Client
