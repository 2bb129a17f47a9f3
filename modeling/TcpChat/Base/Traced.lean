import Mathlib.Data.List.Basic

/-!
# Computations that record what they touch

A value together with the events on the way to it, in order. `All P` says that every event
meets `P`, and goes through `bind` part by part.
-/

namespace Base

set_option autoImplicit false

universe u v

structure Traced (ε : Type u) (α : Type v) where
  value : α
  events : List ε

namespace Traced

variable {ε : Type u} {α β : Type v}

instance : Monad (Traced ε) where
  pure a := ⟨a, []⟩
  bind x f := ⟨(f x.value).value, x.events ++ (f x.value).events⟩

/-- A loop whose body touches `body i` in round `i`, and that ends up with `value`. -/
def loop (n : Nat) (body : Nat → List ε) (value : α) : Traced ε α :=
  ⟨value, (List.range n).flatMap body⟩

def All (P : ε → Prop) (x : Traced ε α) : Prop := ∀ e ∈ x.events, P e

variable {P : ε → Prop}

@[simp] theorem value_pure (a : α) : (pure a : Traced ε α).value = a := rfl

@[simp] theorem value_bind (x : Traced ε α) (f : α → Traced ε β) :
    (x >>= f).value = (f x.value).value := rfl

@[simp] theorem value_loop (n : Nat) (body : Nat → List ε) (a : α) :
    (loop n body a).value = a := rfl

@[simp] theorem all_pure (a : α) : (pure a : Traced ε α).All P :=
  fun _ he => absurd he List.not_mem_nil

theorem all_bind {x : Traced ε α} {f : α → Traced ε β} :
    (x >>= f).All P ↔ x.All P ∧ (f x.value).All P := by
  constructor
  · intro h
    exact ⟨fun e he => h e (List.mem_append_left _ he),
      fun e he => h e (List.mem_append_right _ he)⟩
  · intro h e he
    rcases List.mem_append.mp he with hx | hf
    · exact h.1 e hx
    · exact h.2 e hf

theorem all_loop {n : Nat} {body : Nat → List ε} {a : α} :
    (loop n body a).All P ↔ ∀ i < n, ∀ e ∈ body i, P e := by
  constructor
  · intro h i hi e he
    exact h e (List.mem_flatMap.mpr ⟨i, List.mem_range.mpr hi, he⟩)
  · intro h e he
    obtain ⟨i, hi, hbody⟩ := List.mem_flatMap.mp he
    exact h i (List.mem_range.mp hi) e hbody

end Traced

end Base
