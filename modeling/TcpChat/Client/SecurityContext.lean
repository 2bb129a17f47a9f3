import TcpChat.Base.CString
import TcpChat.Client.SecureMemory

/-!
# Security contexts (client/src/security_context.c)

A context and its encryption context are two secure allocations. The fields of contexts are kept
by address, as the headers are, and so are the calls that make and destroy their mutexes. What
`security_context_destroy` validates is only logged.
-/

namespace TcpChat.Client

open Base
set_option autoImplicit false

/-- `sizeof(security_context_t)` and `sizeof(encryption_context_t)`, which depend on the size of
a mutex. -/
structure ContextSizes where
  context : UInt64
  encryption : UInt64
  context_pos : 0 < context.toNat
  context_small : context.toNat ≤ 2 ^ 32
  encryption_pos : 0 < encryption.toNat
  encryption_small : encryption.toNat ≤ 2 ^ 32

/-- The fields that the functions of this file write or read. `guardPages` are the entries below
`num_guard_pages`. -/
structure ContextFields where
  canaryStart : Fin 16 → UInt8
  canaryEnd : Fin 16 → UInt8
  encCtx : UInt64
  guardPages : List UInt64
  currentLevel : SecurityLevel
  cryptoOperations : UInt64
  entropyCollected : UInt64
  memoryAllocations : UInt64
  debuggerDetected : Bool
  integrityChecksum : UInt64

/-- `context_mutex`, `entropy.pool_mutex` and `mem_protection.memory_mutex`. -/
inductive ContextMutex where
  | context
  | pool
  | memory
  deriving DecidableEq

inductive MutexCall where
  | init (ctx : UInt64) (mutex : ContextMutex)
  | destroy (ctx : UInt64) (mutex : ContextMutex)
  deriving DecidableEq

structure ContextHeap where
  memory : Memory
  contexts : UInt64 → ContextFields
  mutexCalls : List MutexCall

/-- What the calls of a `security_context_create` meet; `none` is a kernel that maps nothing. -/
structure ContextEnv where
  kernel : Option Kernel
  encKernel : Option Kernel
  memoryEnv : MemoryEnv
  mutexFails : ContextMutex → Bool
  checksum : UInt64

namespace ContextHeap

def setFields (heap : ContextHeap) (ctx : UInt64) (fields : ContextFields) : ContextHeap :=
  { heap with contexts := Function.update heap.contexts ctx fields }

def setMemory (heap : ContextHeap) (memory : Memory) : ContextHeap := { heap with memory := memory }

def mutex (heap : ContextHeap) (calls : List MutexCall) : ContextHeap :=
  { heap with mutexCalls := heap.mutexCalls ++ calls }

variable (heap : ContextHeap) {ctx c : UInt64} (fields : ContextFields)

@[simp] theorem contexts_setFields_self : (heap.setFields ctx fields).contexts ctx = fields :=
  Function.update_self ..

theorem contexts_setFields_of_ne (h : c ≠ ctx) :
    (heap.setFields ctx fields).contexts c = heap.contexts c :=
  Function.update_of_ne h ..

@[simp] theorem contexts_setMemory (memory : Memory) :
    (heap.setMemory memory).contexts = heap.contexts := rfl

@[simp] theorem contexts_mutex (calls : List MutexCall) :
    (heap.mutex calls).contexts = heap.contexts := rfl

end ContextHeap

/-- `secure_memory_allocate`, which gives up when `mmap` fails. -/
def allocateFrom (kernel : Option Kernel) (env : MemoryEnv) (memory : Memory) (size : UInt64)
    (level : SecurityLevel) : Memory × Option UInt64 :=
  match kernel with
  | none => (memory, none)
  | some kernel => secureMemoryAllocate kernel env memory size level

def initializeContextMutexes (env : ContextEnv) (heap : ContextHeap) (ctx : UInt64) :
    ContextHeap × Int :=
  if env.mutexFails .context then (heap, -1)
  else
    let heap := heap.mutex [.init ctx .context]
    if env.mutexFails .pool then (heap.mutex [.destroy ctx .context], -1)
    else
      let heap := heap.mutex [.init ctx .pool]
      if env.mutexFails .memory then
        (heap.mutex [.destroy ctx .pool, .destroy ctx .context], -1)
      else (heap.mutex [.init ctx .memory], 0)

def initializeEncryptionContext (sizes : ContextSizes) (env : ContextEnv) (heap : ContextHeap)
    (ctx : UInt64) (level : SecurityLevel) : ContextHeap × Int :=
  match allocateFrom env.encKernel env.memoryEnv heap.memory sizes.encryption level with
  | (memory, none) =>
    ((heap.setMemory memory).setFields ctx { heap.contexts ctx with encCtx := 0 }, -1)
  | (memory, some encCtx) =>
    ((heap.setMemory memory).setFields ctx { heap.contexts ctx with encCtx := encCtx }, 0)

def initializeCanaries (env : ContextEnv) (fields : ContextFields) : ContextFields :=
  if env.memoryEnv.hasContext then
    { fields with
      canaryStart := fun i => 0x42 + UInt8.ofNat i
      canaryEnd := fun i => 0xAB + UInt8.ofNat i }
  else { fields with canaryStart := fun _ => 0xDE, canaryEnd := fun _ => 0xAD }

def initializeContextFields (env : ContextEnv) (fields : ContextFields) (level : SecurityLevel) :
    ContextFields :=
  { fields with
    guardPages := []
    currentLevel := level
    cryptoOperations := 0
    entropyCollected := 0
    memoryAllocations := 1
    debuggerDetected := false
    integrityChecksum := env.checksum }

def cleanupEncryptionContext (sizes : ContextSizes) (heap : ContextHeap) (ctx : UInt64) :
    ContextHeap :=
  let encCtx := (heap.contexts ctx).encCtx
  if encCtx = 0 then heap
  else
    heap.setMemory
      (secureMemoryFree (secureMemoryWipe heap.memory encCtx sizes.encryption).1 encCtx)

def cleanupGuardPages (heap : ContextHeap) (ctx : UInt64) : ContextHeap :=
  let guardPages := (heap.contexts ctx).guardPages.filter (· ≠ 0)
  heap.setMemory (heap.memory.call (guardPages.map fun page => .munmap page 4096))

def cleanupContextMutexes (heap : ContextHeap) (ctx : UInt64) : ContextHeap :=
  heap.mutex [.destroy ctx .memory, .destroy ctx .pool, .destroy ctx .context]

def securityContextCreate (sizes : ContextSizes) (env : ContextEnv) (heap : ContextHeap)
    (level : SecurityLevel) : ContextHeap × Option UInt64 :=
  match allocateFrom env.kernel env.memoryEnv heap.memory sizes.context level with
  | (memory, none) => (heap.setMemory memory, none)
  | (memory, some ctx) =>
    let (heap, result) := initializeContextMutexes env (heap.setMemory memory) ctx
    if result ≠ 0 then (heap.setMemory (secureMemoryFree heap.memory ctx), none)
    else
      let (heap, result) := initializeEncryptionContext sizes env heap ctx level
      if result ≠ 0 then
        let heap := cleanupContextMutexes heap ctx
        (heap.setMemory (secureMemoryFree heap.memory ctx), none)
      else
        let fields := initializeCanaries env (heap.contexts ctx)
        (heap.setFields ctx (initializeContextFields env fields level), some ctx)

/-- What the last wipe leaves of the fields. -/
def ContextFields.wiped (fields : ContextFields) : ContextFields :=
  { fields with
    canaryStart := fun _ => 0
    canaryEnd := fun _ => 0
    encCtx := 0
    guardPages := []
    cryptoOperations := 0
    entropyCollected := 0
    memoryAllocations := 0
    debuggerDetected := false
    integrityChecksum := 0 }

def securityContextDestroy (sizes : ContextSizes) (heap : ContextHeap) (ctx : UInt64) :
    ContextHeap :=
  if ctx = 0 then heap
  else
    let heap := cleanupEncryptionContext sizes heap ctx
    let heap := cleanupGuardPages heap ctx
    let heap := cleanupContextMutexes heap ctx
    let heap := heap.setFields ctx (heap.contexts ctx).wiped
    heap.setMemory (secureMemoryFree (secureMemoryWipe heap.memory ctx sizes.context).1 ctx)

def updatePerformanceCounters (heap : ContextHeap) (ctx : UInt64) (operation : CString) :
    ContextHeap :=
  if ctx = 0 then heap
  else
    let fields := heap.contexts ctx
    heap.setFields ctx
      (if operation = "encrypt" ∨ operation = "decrypt" then
        { fields with cryptoOperations := fields.cryptoOperations + 1 }
      else if operation = "entropy" then
        { fields with entropyCollected := fields.entropyCollected + 1 }
      else if operation = "memory" then
        { fields with memoryAllocations := fields.memoryAllocations + 1 }
      else fields)

end TcpChat.Client
