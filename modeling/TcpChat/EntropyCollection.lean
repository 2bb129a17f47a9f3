import TcpChat.Client.HardwareSecurity

/-!
# What the entropy collector writes

The first loop is to stop four bytes before the end, and its bound is computed without a sign.
The second loop fills up what is left.
-/

namespace TcpChat.Client

open Base.Bytes Base.Loops
set_option autoImplicit false

/-- The collector ends, and it has written the whole buffer and nothing else. -/
def FillsBuffer (cpu : Processor) (size : UInt64) : Prop :=
  ∃ turns writes result, collectHardwareEntropy cpu size turns = some (writes, result) ∧
    (∀ w ∈ writes, w.1 < size.toNat) ∧
    (∀ index < size.toNat, ∃ value, (index, value) ∈ writes) ∧ result = size.toNat

/-- Four bytes fit, or the processor gives none at first. -/
def FirstCopyFits (cpu : Processor) (size : UInt64) : Prop :=
  4 ≤ size.toNat ∨ (detectHardwareSecurity cpu).rdrandAvailable = false ∨ cpu.rdrand 0 = none

/-- What the first loop keeps. A buffer that is too short for a copy is left empty. -/
structure RdrandInv (size : UInt64) (loop : RdrandLoop) : Prop where
  filled : loop.filling.Filled
  within : loop.filling.collected.toNat < size.toNat
  short : 4 ≤ size.toNat ∨ loop.executed = 0 ∨ loop.stopped = true

section Rdrand
variable {cpu : Processor} {size : UInt64} {loop : RdrandLoop}

/-- The bytes to go, until the loop is left. -/
def rdrandMeasure (size : UInt64) (loop : RdrandLoop) : Nat :=
  if loop.stopped then 0 else size.toNat - loop.filling.collected.toNat

theorem length_bytesOf (value : UInt64) : (List.ofFn (bytesOf value)).length = 8 :=
  List.length_ofFn

/-- A value that is there to be copied fits. -/
theorem RdrandInv.long (h : RdrandInv size loop) (hfits : 4 ≤ size.toNat ∨ cpu.rdrand 0 = none)
    (hrunning : loop.stopped = false) {randomVal : UInt32}
    (hvalue : cpu.rdrand loop.executed = some randomVal) : 4 ≤ size.toNat := by
  rcases h.short with hlong | hfirst | hstopped
  · exact hlong
  · rw [hfirst] at hvalue
    rcases hfits with hlong | hnone
    · exact hlong
    · rw [hnone] at hvalue
      cases hvalue
  · rw [hrunning] at hstopped
    cases hstopped

theorem RdrandInv.step (hfits : 4 ≤ size.toNat ∨ cpu.rdrand 0 = none) (h : RdrandInv size loop)
    (hguard : rdrandGuard size loop = true) :
    RdrandInv size (rdrandBody cpu loop) ∧
      rdrandMeasure size (rdrandBody cpu loop) < rdrandMeasure size loop := by
  unfold rdrandGuard at hguard
  simp only [Bool.and_eq_true, Bool.not_eq_true', decide_eq_true_eq] at hguard
  obtain ⟨⟨hrunning, _⟩, hbound⟩ := hguard
  have hwithin := h.within
  have hsize := size.toNat_lt
  have hmeasure : rdrandMeasure size loop = size.toNat - loop.filling.collected.toNat := by
    rw [rdrandMeasure, hrunning]
    rfl
  unfold rdrandBody
  cases hvalue : cpu.rdrand loop.executed with
  | none =>
    refine ⟨⟨h.filled, h.within, Or.inr (Or.inr rfl)⟩, ?_⟩
    rw [hmeasure]
    exact Nat.sub_pos_of_lt hwithin
  | some randomVal =>
    have hlong := h.long hfits hrunning hvalue
    have hfour : (4 : UInt64).toNat = 4 := rfl
    have hle : (4 : UInt64) ≤ size := UInt64.le_iff_toNat_le.mpr hlong
    have hroom : loop.filling.collected.toNat < size.toNat - 4 := by
      rw [UInt64.lt_iff_toNat_lt, UInt64.toNat_sub_of_le _ _ hle] at hbound
      exact hbound
    have hcollected := @toNat_collected_copy loop.filling
      (List.ofFn (bytesOf randomVal.toUInt64)) 4 (by omega)
    refine ⟨⟨h.filled.copy ?_ (by omega), ?_, Or.inl hlong⟩, ?_⟩
    · rw [length_bytesOf, hfour]
      omega
    · dsimp only
      omega
    · rw [hmeasure, rdrandMeasure]
      dsimp only
      rw [if_neg Bool.false_ne_true]
      omega

end Rdrand

/-- What the second loop keeps. -/
structure TscInv (size : UInt64) (loop : TscLoop) : Prop where
  filled : loop.filling.Filled
  within : loop.filling.collected.toNat ≤ size.toNat

section Tsc
variable {cpu : Processor} {size : UInt64} {loop : TscLoop}

theorem TscInv.step (h : TscInv size loop) (hguard : tscGuard size loop = true) :
    TscInv size (tscBody cpu size loop) ∧
      size.toNat - (tscBody cpu size loop).filling.collected.toNat <
        size.toNat - loop.filling.collected.toNat := by
  have hless : loop.filling.collected.toNat < size.toNat :=
    UInt64.lt_iff_toNat_lt.mp (of_decide_eq_true hguard)
  have hsize := size.toNat_lt
  have hleft : (size - loop.filling.collected).toNat =
      size.toNat - loop.filling.collected.toNat :=
    UInt64.toNat_sub_of_le _ _ (UInt64.le_iff_toNat_le.mpr h.within)
  have height : (8 : UInt64).toNat = 8 := rfl
  -- the step is not empty, and it ends within the buffer
  have hcopy : ∀ n : UInt64, 0 < n.toNat → n.toNat ≤ 8 →
      n.toNat ≤ size.toNat - loop.filling.collected.toNat →
      TscInv size ⟨loop.filling.copy (List.ofFn (bytesOf (cpu.rdtsc loop.executed))) n,
        loop.executed + 1⟩ ∧
      size.toNat - (loop.filling.copy (List.ofFn (bytesOf (cpu.rdtsc loop.executed)))
        n).collected.toNat < size.toNat - loop.filling.collected.toNat := by
    intro n hpos hword hroom
    have hcollected := @toNat_collected_copy loop.filling
      (List.ofFn (bytesOf (cpu.rdtsc loop.executed))) n (by omega)
    refine ⟨⟨h.filled.copy ?_ (by omega), ?_⟩, ?_⟩
    · rw [length_bytesOf]
      exact hword
    · dsimp only
      omega
    · omega
  unfold tscBody
  dsimp only
  split
  · rename_i hmore
    have hmore := UInt64.lt_iff_toNat_lt.mp hmore
    exact hcopy 8 (by omega) (by omega) (by omega)
  · rename_i hless'
    have hless' := mt UInt64.lt_iff_toNat_lt.mpr hless'
    exact hcopy _ (by omega) (by omega) (by omega)

end Tsc

section Whole
variable {cpu : Processor} {size : UInt64}

/-- Whatever the first loop leaves, the second one fills the rest of the buffer. -/
theorem tsc_fills {filling : Filling} (hfilled : filling.Filled)
    (hwithin : filling.collected.toNat ≤ size.toNat) :
    ∃ loop, whileLoop (tscGuard size) (tscBody cpu size) size.toNat ⟨filling, 0⟩ = some loop ∧
      loop.filling.Filled ∧ loop.filling.collected = size := by
  obtain ⟨loop, hends, hinv, hguard⟩ := whileLoop_ends (I := TscInv size)
    (fun loop => size.toNat - loop.filling.collected.toNat)
    (fun _ hinv hguard => TscInv.step hinv hguard) (s := ⟨filling, 0⟩) ⟨hfilled, hwithin⟩
    (Nat.sub_le _ _)
  have hall : size.toNat ≤ loop.filling.collected.toNat :=
    UInt64.le_iff_toNat_le.mp (UInt64.not_lt.mp (of_decide_eq_false hguard))
  exact ⟨loop, hends, hinv.filled, UInt64.toNat_inj.mp (Nat.le_antisymm hinv.within hall)⟩

theorem rdrand_ends (hpos : 0 < size.toNat) (hfits : 4 ≤ size.toNat ∨ cpu.rdrand 0 = none) :
    ∃ loop, whileLoop (rdrandGuard size) (rdrandBody cpu) size.toNat
        ⟨⟨[], 0⟩, 0, 0, false⟩ = some loop ∧ RdrandInv size loop := by
  obtain ⟨loop, hends, hinv, _⟩ := whileLoop_ends (I := RdrandInv size) (rdrandMeasure size)
    (fun _ hinv hguard => hinv.step hfits hguard) (s := ⟨⟨[], 0⟩, 0, 0, false⟩)
    ⟨rfl, hpos, Or.inr (Or.inl rfl)⟩ (Nat.sub_le _ _)
  exact ⟨loop, hends, hinv⟩

theorem fillsBuffer_of_first {filling : Filling} (hpos : 0 < size.toNat)
    (hmax : size.toNat < 2 ^ 31)
    (hfirst : (if (detectHardwareSecurity cpu).rdrandAvailable then
        (whileLoop (rdrandGuard size) (rdrandBody cpu) size.toNat ⟨⟨[], 0⟩, 0, 0, false⟩).map
          RdrandLoop.filling
      else some ⟨[], 0⟩) = some filling)
    (hfilled : filling.Filled) (hwithin : filling.collected.toNat ≤ size.toNat) :
    FillsBuffer cpu size := by
  obtain ⟨loop, hends, hwritten, hcollected⟩ := @tsc_fills cpu size filling hfilled hwithin
  rw [Filling.Filled, hcollected] at hwritten
  have hne : size ≠ 0 := by
    rintro rfl
    exact absurd hpos (Nat.lt_irrefl 0)
  refine ⟨size.toNat, loop.filling.writes, size.toNat, ?_, ?_, ?_, rfl⟩
  · unfold collectHardwareEntropy
    rw [if_neg hne]
    dsimp only
    rw [hfirst, Option.bind_some, hends, Option.map_some, hcollected,
      Int.bmod_eq_of_le (by omega) (by omega)]
  · intro w hw
    have hindex : w.1 ∈ List.range size.toNat := hwritten ▸ List.mem_map_of_mem hw
    exact List.mem_range.mp hindex
  · intro index hindex
    rw [← List.mem_range, ← hwritten] at hindex
    obtain ⟨⟨_, value⟩, hmem, rfl⟩ := List.mem_map.mp hindex
    exact ⟨value, hmem⟩

/-- The bound of the first loop wraps for a buffer of less than four bytes: a value is copied,
and the loop ends only then. -/
theorem rdrand_overruns {randomVal : UInt32} (hpos : 0 < size.toNat) (hshort : size.toNat < 4)
    (hvalue : cpu.rdrand 0 = some randomVal) {turns : Nat} {loop : RdrandLoop}
    (hends : whileLoop (rdrandGuard size) (rdrandBody cpu) turns ⟨⟨[], 0⟩, 0, 0, false⟩ =
      some loop) :
    loop.filling = (⟨[], 0⟩ : Filling).copy (List.ofFn (bytesOf randomVal.toUInt64)) 4 := by
  have hfour : (4 : UInt64).toNat = 4 := rfl
  have hbound : (size - 4).toNat = 2 ^ 64 - 4 + size.toNat := by
    rw [UInt64.toNat_sub, hfour, Nat.mod_eq_of_lt (by omega)]
  have hguard : rdrandGuard size ⟨⟨[], 0⟩, 0, 0, false⟩ = true := by
    simp only [rdrandGuard, Bool.not_false, Bool.true_and, Bool.and_eq_true, decide_eq_true_eq,
      UInt64.lt_iff_toNat_lt, UInt64.toNat_zero, hbound]
    omega
  have hbody : rdrandBody cpu ⟨⟨[], 0⟩, 0, 0, false⟩ =
      ⟨(⟨[], 0⟩ : Filling).copy (List.ofFn (bytesOf randomVal.toUInt64)) 4, 4, 1, false⟩ := by
    unfold rdrandBody
    dsimp only
    rw [hvalue]
    rfl
  have hover : rdrandGuard size
      ⟨(⟨[], 0⟩ : Filling).copy (List.ofFn (bytesOf randomVal.toUInt64)) 4, 4, 1, false⟩ =
        false := by
    have hlate : ¬ (4 : UInt64) < size := by
      rw [UInt64.lt_iff_toNat_lt]
      omega
    simp [rdrandGuard, hlate]
  cases turns with
  | zero =>
    rw [whileLoop_zero_of_true hguard] at hends
    cases hends
  | succ turns =>
    rw [whileLoop_succ_of_true hguard, hbody, whileLoop_of_false hover] at hends
    rw [← Option.some.inj hends]

/-- Such a copy has written past the end. -/
theorem not_fillsBuffer_of_short {randomVal : UInt32} (hpos : 0 < size.toNat)
    (hshort : size.toNat < 4) (havailable : (detectHardwareSecurity cpu).rdrandAvailable = true)
    (hvalue : cpu.rdrand 0 = some randomVal) : ¬ FillsBuffer cpu size := by
  rintro ⟨turns, writes, result, hcollect, hwithin, _⟩
  have hne : size ≠ 0 := by
    rintro rfl
    exact absurd hpos (Nat.lt_irrefl 0)
  have hfull : tscGuard size
      ⟨(⟨[], 0⟩ : Filling).copy (List.ofFn (bytesOf randomVal.toUInt64)) 4, 0⟩ = false := by
    apply decide_eq_false
    rw [UInt64.lt_iff_toNat_lt]
    change ¬ 4 < size.toNat
    omega
  unfold collectHardwareEntropy at hcollect
  rw [if_neg hne] at hcollect
  dsimp only at hcollect
  rw [if_pos havailable] at hcollect
  cases hends : whileLoop (rdrandGuard size) (rdrandBody cpu) turns
      ⟨⟨[], 0⟩, 0, 0, false⟩ with
  | none =>
    rw [hends] at hcollect
    cases hcollect
  | some loop =>
    rw [hends, Option.map_some, Option.bind_some,
      rdrand_overruns hpos hshort hvalue hends, whileLoop_of_false hfull,
      Option.map_some] at hcollect
    obtain ⟨rfl, _⟩ := Prod.mk.inj (Option.some.inj hcollect)
    have hpast := hwithin (3, bytesOf randomVal.toUInt64 3) (by
      simp [Filling.copy, List.ofFn_succ])
    omega

end Whole

/-- The buffer is filled exactly unless it is shorter than the first copy, and that copy is
made. -/
theorem fillsBuffer_iff (cpu : Processor) (size : UInt64) (hpos : 1 ≤ size.toNat)
    (hmax : size.toNat ≤ 2 ^ 31 - 1) : FillsBuffer cpu size ↔ FirstCopyFits cpu size := by
  unfold FirstCopyFits
  cases havailable : (detectHardwareSecurity cpu).rdrandAvailable with
  | false =>
    refine iff_of_true ?_ (Or.inr (Or.inl rfl))
    exact fillsBuffer_of_first hpos (by omega) (if_neg (by rw [havailable]; decide)) rfl
      (Nat.zero_le _)
  | true =>
    by_cases hfits : 4 ≤ size.toNat ∨ cpu.rdrand 0 = none
    · refine iff_of_true ?_ (hfits.imp_right Or.inr)
      obtain ⟨loop, hends, hinv⟩ := rdrand_ends hpos hfits
      exact fillsBuffer_of_first hpos (by omega)
        (by rw [if_pos havailable, hends]; rfl) hinv.filled hinv.within.le
    · obtain ⟨hshort, hsome⟩ := not_or.mp hfits
      obtain ⟨randomVal, hvalue⟩ := Option.ne_none_iff_exists'.mp hsome
      refine iff_of_false
        (not_fillsBuffer_of_short hpos (Nat.lt_of_not_le hshort) havailable hvalue) ?_
      rintro (hlong | hnone | hnone)
      · exact hshort hlong
      · cases hnone
      · exact hsome hnone

/-- A processor with RDRAND, which always gives the same values. -/
def steadyProcessor : Processor where
  cpuidMax := 7
  cpuid _ := some ⟨0, 0, 0x40000000, 0⟩
  rdrand _ := some 0x11223344
  rdtsc k := UInt64.ofNat k

theorem fillsBuffer_iff_ten : FillsBuffer steadyProcessor 10 :=
  (fillsBuffer_iff steadyProcessor 10 (by decide) (by decide)).mpr (Or.inl (by decide))

/-- Four bytes are written to a buffer of one. -/
theorem one_byte_overflows :
    ¬ ∀ (cpu : Processor) (size : UInt64), 1 ≤ size.toNat → size.toNat ≤ 2 ^ 31 - 1 →
      FillsBuffer cpu size := by
  intro h
  exact not_fillsBuffer_of_short (by decide) (by decide) (by decide) rfl
    (h steadyProcessor 1 (by decide) (by decide))

end TcpChat.Client
