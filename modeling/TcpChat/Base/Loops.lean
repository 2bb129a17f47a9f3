import Mathlib.Order.Basic

/-!
# While loops

A loop that has not come to its end within the given number of turns has no result. An invariant
bounds what it can end in, a measure shows that it ends.
-/

namespace Base.Loops

set_option autoImplicit false

universe u
variable {σ : Type u} (guard : σ → Bool) (body : σ → σ)

def whileLoop : Nat → σ → Option σ
  | 0, s => if guard s then none else some s
  | turns + 1, s => if guard s then whileLoop turns (body s) else some s

variable {guard body} {I : σ → Prop} {s t : σ} {turns : Nat}

theorem whileLoop_of_false (h : guard s = false) : whileLoop guard body turns s = some s := by
  cases turns <;> rw [whileLoop, h] <;> rfl

theorem whileLoop_zero_of_true (h : guard s = true) : whileLoop guard body 0 s = none := by
  rw [whileLoop, if_pos h]

theorem whileLoop_succ_of_true (h : guard s = true) :
    whileLoop guard body (turns + 1) s = whileLoop guard body turns (body s) := by
  rw [whileLoop, if_pos h]

/-- With a measure that each turn lowers the loop ends, and its end meets the invariant. -/
theorem whileLoop_ends (measure : σ → Nat)
    (hstep : ∀ s, I s → guard s = true → I (body s) ∧ measure (body s) < measure s)
    (hs : I s) (hturns : measure s ≤ turns) :
    ∃ t, whileLoop guard body turns s = some t ∧ I t ∧ guard t = false := by
  induction turns generalizing s with
  | zero =>
    cases hguard : guard s with
    | false => exact ⟨s, whileLoop_of_false hguard, hs, hguard⟩
    | true =>
      have hless := (hstep s hs hguard).2
      omega
  | succ turns ih =>
    cases hguard : guard s with
    | false => exact ⟨s, whileLoop_of_false hguard, hs, hguard⟩
    | true =>
      obtain ⟨hkept, hless⟩ := hstep s hs hguard
      rw [whileLoop_succ_of_true hguard]
      exact ih hkept (by omega)

end Base.Loops
