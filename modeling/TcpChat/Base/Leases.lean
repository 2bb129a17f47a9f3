import Mathlib.Logic.Function.Basic

/-!
# Leases

Events take resources and give them back. A trace is disciplined if nothing is given back that
is not held at that moment. Then a resource that is given back twice was taken in between.
-/

namespace Base.Leases

set_option autoImplicit false

universe u v
variable {ε : Type u} {ρ : Type v} [DecidableEq ρ]

/-- What an event does to the resource that it is about. -/
inductive Use (ρ : Type v) where
  | acquire (r : ρ)
  | release (r : ρ)

section Traces
variable (use : ε → Option (Use ρ))

/-- The resources held after an event, out of those held before it. -/
def after (held : ρ → Bool) (e : ε) : ρ → Bool :=
  match use e with
  | some (.acquire r) => Function.update held r true
  | some (.release r) => Function.update held r false
  | none => held

def heldAfter (held : ρ → Bool) (es : List ε) : ρ → Bool := es.foldl (after use) held

def Disciplined : (ρ → Bool) → List ε → Prop
  | _, [] => True
  | held, e :: es =>
    (∀ r, use e = some (.release r) → held r = true) ∧ Disciplined (after use held e) es

end Traces

variable {use : ε → Option (Use ρ)} {held : ρ → Bool} {es es' : List ε} {e : ε} {r : ρ}

theorem after_acquire (h : use e = some (.acquire r)) :
    after use held e = Function.update held r true := by
  unfold after
  rw [h]

theorem after_release (h : use e = some (.release r)) :
    after use held e = Function.update held r false := by
  unfold after
  rw [h]

theorem after_other (h : use e = none) : after use held e = held := by
  unfold after
  rw [h]

theorem heldAfter_append :
    heldAfter use held (es ++ es') = heldAfter use (heldAfter use held es) es' :=
  List.foldl_append

/-- Events that are about no resource change nothing. -/
theorem heldAfter_other (h : ∀ e ∈ es, use e = none) : heldAfter use held es = held := by
  induction es with
  | nil => rfl
  | cons e es ih =>
    unfold heldAfter
    rw [List.foldl_cons, after_other (h e List.mem_cons_self)]
    exact ih fun e he => h e (List.mem_cons_of_mem _ he)

/-- What is not held stays so until it is acquired. -/
theorem heldAfter_of_not_acquired (hheld : held r = false)
    (h : ∀ e ∈ es, use e ≠ some (.acquire r)) : heldAfter use held es r = false := by
  induction es generalizing held with
  | nil => exact hheld
  | cons e es ih =>
    apply ih
    · cases huse : use e with
      | none =>
        rw [after_other huse]
        exact hheld
      | some u =>
        cases u with
        | acquire k =>
          have hne : r ≠ k := by
            intro heq
            apply h e List.mem_cons_self
            rw [huse, heq]
          rw [after_acquire huse, Function.update_of_ne hne]
          exact hheld
        | release k =>
          rw [after_release huse, Function.update_apply]
          split
          · rfl
          · exact hheld
    · intro e he
      exact h e (List.mem_cons_of_mem _ he)

@[simp] theorem disciplined_nil : Disciplined use held [] := trivial

theorem disciplined_cons : Disciplined use held (e :: es) ↔
    (∀ r, use e = some (.release r) → held r = true) ∧ Disciplined use (after use held e) es :=
  Iff.rfl

theorem disciplined_append : Disciplined use held (es ++ es') ↔
    Disciplined use held es ∧ Disciplined use (heldAfter use held es) es' := by
  induction es generalizing held with
  | nil => exact (iff_of_eq (true_and _)).symm
  | cons e es ih =>
    rw [List.cons_append, disciplined_cons, disciplined_cons, ih, and_assoc]
    exact Iff.rfl

theorem disciplined_other (h : ∀ e ∈ es, use e = none) : Disciplined use held es := by
  induction es with
  | nil => trivial
  | cons e es ih =>
    have huse := h e List.mem_cons_self
    rw [disciplined_cons]
    constructor
    · intro r hr
      rw [huse] at hr
      cases hr
    · rw [after_other huse]
      exact ih fun e he => h e (List.mem_cons_of_mem _ he)

/-- Between two releases of a resource it is acquired again. -/
theorem acquired_between {before between rest : List ε} {e' : ε}
    (h : Disciplined use held (before ++ e :: (between ++ e' :: rest)))
    (huse : use e = some (.release r)) (huse' : use e' = some (.release r)) :
    ∃ a ∈ between, use a = some (.acquire r) := by
  by_contra hnone
  have hnever : ∀ a ∈ between, use a ≠ some (.acquire r) := by
    intro a ha hacquire
    exact hnone ⟨a, ha, hacquire⟩
  obtain ⟨_, _, htail⟩ := disciplined_append.mp h
  obtain ⟨_, hrelease, _⟩ := disciplined_append.mp htail
  have hheld := hrelease r huse'
  rw [heldAfter_of_not_acquired (by rw [after_release huse, Function.update_self]) hnever] at hheld
  cases hheld

end Base.Leases
