import Mathlib.Logic.Function.Basic
import TcpChat.Base.Alignment

/-!
# Secure memory (client/src/secure_memory.c)

Addresses and sizes are 64-bit words. The headers are kept by address; the calls that map, lock,
protect and fill memory are recorded in the order they are made.
-/

namespace TcpChat.Client

open Base.Alignment
set_option autoImplicit false

inductive SecurityLevel where
  | low
  | medium
  | high
  | maximum
  deriving DecidableEq

structure AllocationHeader where
  magic : UInt32
  size : UInt64
  securityLevel : SecurityLevel
  allocationTime : UInt64
  canary : UInt32

def allocationMagic : UInt32 := 0xDEADBEEF
def pageSize : UInt64 := 4096
def canaryValue : UInt32 := 0xCAFEBABE

/-- `sizeof(allocation_header_t)`, with the padding behind three of its fields. -/
def headerSize : UInt64 := 40

/-- The bytes that a loop over a block writes: all alike, or byte `i` is `i ^ key`. -/
inductive Pattern where
  | constant (value : UInt8)
  | indexed (key : UInt8)
  deriving DecidableEq

inductive MemoryCall where
  | mmap (length address : UInt64)
  | mlock (address length : UInt64)
  | mprotect (address length : UInt64)
  | fill (address length : UInt64) (pattern : Pattern)
  | munlock (address length : UInt64)
  | munmap (address length : UInt64)
  deriving DecidableEq

structure Memory where
  headers : UInt64 → AllocationHeader
  calls : List MemoryCall

def Memory.call (memory : Memory) (calls : List MemoryCall) : Memory :=
  { memory with calls := memory.calls ++ calls }

/-- A kernel that maps whatever is not empty, in whole pages and within the address space.
`mprotect` says whether the page at an address can be protected. -/
structure Kernel where
  mmap : UInt64 → Option UInt64
  mprotect : UInt64 → Bool
  mmap_zero : mmap 0 = none
  mmap_pages : ∀ length, length ≠ 0 → length.toNat % 4096 = 0 → (mmap length).isSome
  mmap_fits : ∀ length mem, mmap length = some mem → mem.toNat + length.toNat ≤ 2 ^ 64

/-- The clock, and whether there is a global security context. -/
structure MemoryEnv where
  now : UInt64
  hasContext : Bool

def initializeMemoryContent (env : MemoryEnv) : SecurityLevel → Pattern
  | .maximum => if env.hasContext then .indexed 0x42 else .constant 0xAA
  | .high => .constant 0xAA
  | _ => .constant 0

/-- Whether locking or protecting fails is only logged, but the second guard page is not asked
for when the first is refused. -/
def secureMemoryAllocate (kernel : Kernel) (env : MemoryEnv) (memory : Memory) (size : UInt64)
    (level : SecurityLevel) : Memory × Option UInt64 :=
  if size = 0 then (memory, none)
  else
    let totalSize := headerSize + size + pageSize * 2
    let totalSize := (totalSize + pageSize - 1) &&& ~~~(pageSize - 1)
    match kernel.mmap totalSize with
    | none => (memory, none)
    | some mem =>
      let header := mem + pageSize
      let userPtr := header + headerSize
      let guards := .mprotect mem pageSize ::
        if kernel.mprotect mem then [.mprotect (mem + totalSize - pageSize) pageSize] else []
      ({ headers := Function.update memory.headers header
          ⟨allocationMagic, size, level, env.now, canaryValue⟩
         calls := memory.calls ++ .mmap totalSize mem :: .mlock mem totalSize :: guards ++
          [.fill userPtr size (initializeMemoryContent env level)] }, some userPtr)

def secureMemoryWipe (memory : Memory) (ptr size : UInt64) : Memory × Int :=
  if ptr = 0 ∨ size = 0 then (memory, -1)
  else
    (memory.call [.fill ptr size (.constant 0), .fill ptr size (.constant 0xFF),
      .fill ptr size (.indexed 0xAA), .fill ptr size (.constant 0)], 0)

def secureMemoryFree (memory : Memory) (ptr : UInt64) : Memory :=
  if ptr = 0 then memory
  else
    let header := ptr - headerSize
    let stored := memory.headers header
    if stored.magic ≠ allocationMagic ∨ stored.canary ≠ canaryValue then memory
    else
      let memory := (secureMemoryWipe memory ptr stored.size).1
      let totalSize := headerSize + stored.size + pageSize * 2
      let totalSize := (totalSize + pageSize - 1) &&& ~~~(pageSize - 1)
      let originalMem := header - pageSize
      memory.call [.munlock originalMem totalSize, .munmap originalMem totalSize]

/-- The length of the mapping, which both functions compute. -/
def mappingSize (size : UInt64) : UInt64 := alignUp pageSize (headerSize + size + pageSize * 2)

theorem toNat_mappingSize (size : UInt64) :
    (mappingSize size).toNat =
      ((8232 + size.toNat) % 2 ^ 64 + 4095) % 2 ^ 64 / 4096 * 4096 := by
  have hpage : pageSize.toNat = 2 ^ 12 := rfl
  have hsum : (headerSize + size + pageSize * 2).toNat = (8232 + size.toNat) % 2 ^ 64 := by
    have hhead : headerSize.toNat = 40 := rfl
    have hguards : (pageSize * 2).toNat = 8192 := rfl
    rw [UInt64.toNat_add, UInt64.toNat_add, hhead, hguards]
    omega
  have hpow : 2 ^ 12 = 4096 := rfl
  rw [mappingSize, toNat_alignUp hpage, hsum, hpow]

section Allocate
variable {kernel : Kernel} {env : MemoryEnv} {memory memory' : Memory} {size ptr : UInt64}
  {level : SecurityLevel}

/-- An allocation that is granted. -/
structure Allocated (kernel : Kernel) (memory : Memory) (size : UInt64) (memory' : Memory)
    (ptr mem : UInt64) : Prop where
  mapped : kernel.mmap (mappingSize size) = some mem
  ptr_eq : ptr = mem + pageSize + headerSize
  calls : ∃ rest, memory'.calls = memory.calls ++ .mmap (mappingSize size) mem :: rest
  magic : (memory'.headers (mem + pageSize)).magic = allocationMagic
  size : (memory'.headers (mem + pageSize)).size = size
  canary : (memory'.headers (mem + pageSize)).canary = canaryValue

theorem allocated_of_some
    (h : secureMemoryAllocate kernel env memory size level = (memory', some ptr)) :
    ∃ mem, Allocated kernel memory size memory' ptr mem := by
  unfold secureMemoryAllocate at h
  by_cases hsize : size = 0
  · rw [if_pos hsize] at h
    cases h
  · rw [if_neg hsize] at h
    dsimp only at h
    cases hmapped : kernel.mmap (mappingSize size) with
    | none =>
      rw [mappingSize, alignUp, alignDown] at hmapped
      rw [hmapped] at h
      cases h
    | some mem =>
      have hlength := hmapped
      rw [mappingSize, alignUp, alignDown] at hlength
      rw [hlength] at h
      obtain ⟨hmemory, hptr⟩ := Prod.mk.inj h
      rw [← hmemory]
      refine ⟨mem, hmapped, (Option.some.inj hptr).symm, ⟨_, List.append_assoc _ _ _⟩, ?_, ?_, ?_⟩
      all_goals
        dsimp only
        rw [Function.update_self]

theorem allocate_of_mapped {mem : UInt64} (hsize : size ≠ 0)
    (hmapped : kernel.mmap (mappingSize size) = some mem) :
    ∃ memory', secureMemoryAllocate kernel env memory size level =
      (memory', some (mem + pageSize + headerSize)) := by
  unfold secureMemoryAllocate
  rw [if_neg hsize]
  dsimp only
  rw [mappingSize, alignUp, alignDown] at hmapped
  rw [hmapped]
  exact ⟨_, rfl⟩

/-- Freeing asks for the mapping that the header tells of. -/
theorem free_of_header (hptr : ptr ≠ 0)
    (hmagic : (memory.headers (ptr - headerSize)).magic = allocationMagic)
    (hsize : (memory.headers (ptr - headerSize)).size = size)
    (hcanary : (memory.headers (ptr - headerSize)).canary = canaryValue) :
    ∃ wiped, (secureMemoryFree memory ptr).calls = memory.calls ++ wiped ++
      [.munlock (ptr - headerSize - pageSize) (mappingSize size),
        .munmap (ptr - headerSize - pageSize) (mappingSize size)] := by
  have hkept : ¬ ((memory.headers (ptr - headerSize)).magic ≠ allocationMagic ∨
      (memory.headers (ptr - headerSize)).canary ≠ canaryValue) := by
    simp [hmagic, hcanary]
  unfold secureMemoryFree
  dsimp only
  rw [if_neg hptr, if_neg hkept, hsize]
  unfold secureMemoryWipe
  split
  · exact ⟨[], by rw [List.append_nil]; rfl⟩
  · exact ⟨_, rfl⟩

end Allocate

end TcpChat.Client
