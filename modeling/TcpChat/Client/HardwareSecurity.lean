import TcpChat.Base.Bytes
import TcpChat.Base.Loops

/-!
# Hardware entropy (client/src/hardware_security.c)

The processor is a parameter: what CPUID says, and the outcomes of RDRAND and RDTSC in the order
in which they are executed. A write to the buffer is recorded with its index.
-/

namespace TcpChat.Client

open Base.Bytes Base.Loops
set_option autoImplicit false

structure CpuidRegisters where
  eax : UInt32
  ebx : UInt32
  ecx : UInt32
  edx : UInt32

/-- A leaf that is not supported has no registers, and an RDRAND that fails has no value. -/
structure Processor where
  cpuidMax : UInt32
  cpuid : UInt32 → Option CpuidRegisters
  rdrand : Nat → Option UInt32
  rdtsc : Nat → UInt64

structure HwSecurityCaps where
  cetSupported : Bool
  rdrandAvailable : Bool
  aesNiPresent : Bool
  mpkSupported : Bool
  tsxAvailable : Bool
  deriving DecidableEq

def bitSet (register : UInt32) (bit : UInt32) : Bool := register &&& (1 <<< bit) != 0

def detectHardwareSecurity (cpu : Processor) : HwSecurityCaps :=
  if cpu.cpuidMax < 1 then ⟨false, false, false, false, false⟩
  else
    { cetSupported := (cpu.cpuid 7).elim false fun regs => bitSet regs.ecx 7
      rdrandAvailable := (cpu.cpuid 1).elim false fun regs => bitSet regs.ecx 30
      aesNiPresent := (cpu.cpuid 1).elim false fun regs => bitSet regs.ecx 25
      mpkSupported := (cpu.cpuid 7).elim false fun regs => bitSet regs.ecx 3
      tsxAvailable := (cpu.cpuid 7).elim false fun regs => bitSet regs.ebx 11 }

/-- The buffer while it is filled: the bytes written so far, in order, and `collected`. -/
structure Filling where
  writes : List (Nat × UInt8)
  collected : UInt64

/-- `memcpy(buffer + collected, src, n); collected += n`. -/
def Filling.copy (filling : Filling) (src : List UInt8) (n : UInt64) : Filling where
  writes := filling.writes ++
    ((src.take n.toNat).zipIdx filling.collected.toNat).map Prod.swap
  collected := filling.collected + n

/-- The first loop: `i` and the buffer, how often RDRAND was executed, and whether the loop was
left by its `break`. -/
structure RdrandLoop where
  filling : Filling
  i : UInt64
  executed : Nat
  stopped : Bool

def rdrandGuard (size : UInt64) (loop : RdrandLoop) : Bool :=
  !loop.stopped && decide (loop.i < size) && decide (loop.filling.collected < size - 4)

def rdrandBody (cpu : Processor) (loop : RdrandLoop) : RdrandLoop :=
  match cpu.rdrand loop.executed with
  | some randomVal =>
    { filling := loop.filling.copy (List.ofFn (bytesOf randomVal.toUInt64)) 4
      i := loop.i + 4
      executed := loop.executed + 1
      stopped := false }
  | none => { loop with executed := loop.executed + 1, stopped := true }

/-- The second loop. -/
structure TscLoop where
  filling : Filling
  executed : Nat

def tscGuard (size : UInt64) (loop : TscLoop) : Bool := decide (loop.filling.collected < size)

def tscBody (cpu : Processor) (size : UInt64) (loop : TscLoop) : TscLoop :=
  let tsc := cpu.rdtsc loop.executed
  let copySize := if size - loop.filling.collected > 8 then 8 else size - loop.filling.collected
  { filling := loop.filling.copy (List.ofFn (bytesOf tsc)) copySize
    executed := loop.executed + 1 }

/-- The writes and the return value, if both loops end within the given number of turns. -/
def collectHardwareEntropy (cpu : Processor) (size : UInt64) (turns : Nat) :
    Option (List (Nat × UInt8) × Int) :=
  if size = 0 then some ([], -1)
  else
    let caps := detectHardwareSecurity cpu
    let first :=
      if caps.rdrandAvailable then
        (whileLoop (rdrandGuard size) (rdrandBody cpu) turns ⟨⟨[], 0⟩, 0, 0, false⟩).map
          RdrandLoop.filling
      else some ⟨[], 0⟩
    first.bind fun filling =>
      (whileLoop (tscGuard size) (tscBody cpu size) turns ⟨filling, 0⟩).map fun loop =>
        -- the cast to `int`
        (loop.filling.writes, (loop.filling.collected.toNat : Int).bmod (2 ^ 32))

section Copy
variable {filling : Filling} {src : List UInt8} {n : UInt64}

/-- The bytes in front of `collected` were written, each once and in order. -/
def Filling.Filled (filling : Filling) : Prop :=
  filling.writes.map Prod.fst = List.range filling.collected.toNat

theorem toNat_collected_copy (hsum : filling.collected.toNat + n.toNat < 2 ^ 64) :
    (filling.copy src n).collected.toNat = filling.collected.toNat + n.toNat := by
  rw [Filling.copy, UInt64.toNat_add, Nat.mod_eq_of_lt hsum]

theorem Filling.Filled.copy (h : filling.Filled) (hsrc : n.toNat ≤ src.length)
    (hsum : filling.collected.toNat + n.toNat < 2 ^ 64) : (filling.copy src n).Filled := by
  have hnew : (((src.take n.toNat).zipIdx filling.collected.toNat).map Prod.swap).map Prod.fst =
      List.range' filling.collected.toNat n.toNat := by
    rw [List.map_map]
    change ((src.take n.toNat).zipIdx filling.collected.toNat).map Prod.snd = _
    rw [List.zipIdx_map_snd, List.length_take, Nat.min_eq_left hsrc]
  rw [Filling.Filled, toNat_collected_copy hsum]
  have hjoin := List.range'_append_1 (s := 0) (m := filling.collected.toNat) (n := n.toNat)
  rw [Nat.zero_add] at hjoin
  rw [Filling.copy, List.map_append, hnew, h, List.range_eq_range', List.range_eq_range', hjoin]

end Copy

end TcpChat.Client
