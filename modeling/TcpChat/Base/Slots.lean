import Mathlib.Algebra.BigOperators.Group.Finset.Piecewise
import Mathlib.Data.Fintype.Card
import Mathlib.Data.List.FinRange
import Mathlib.Data.List.Sort

/-!
# Tables of slots

A table of `n` slots is a function on `Fin n`; a slot is in use when `used` accepts its
content. `occupancy` is the number of slots in use, which programs cache in a counter next
to the table.
-/

namespace Base.Slots

set_option autoImplicit false

universe u
variable {n : Nat} {α : Type u} (used : α → Bool)

def occupancy (t : Fin n → α) : Nat := (Finset.univ.filter fun i => used (t i) = true).card

variable {used}

theorem occupancy_eq_sum (t : Fin n → α) :
    occupancy used t = ∑ i, if used (t i) = true then 1 else 0 := by
  rw [occupancy, Finset.card_filter]

/-- Writing one slot moves the occupancy by what enters minus what goes. -/
theorem occupancy_update (used : α → Bool) (t : Fin n → α) (i : Fin n) (v : α) :
    occupancy used (Function.update t i v) + (if used (t i) = true then 1 else 0) =
      occupancy used t + (if used v = true then 1 else 0) := by
  have hupdate : (fun j => if used (Function.update t i v j) = true then 1 else 0) =
      Function.update (fun j => if used (t j) = true then 1 else 0) i
        (if used v = true then 1 else 0) := by
    funext j
    by_cases hj : j = i
    · subst hj
      simp
    · simp [Function.update_of_ne hj]
  have hsplit := Finset.add_sum_erase Finset.univ
    (fun j => if used (t j) = true then 1 else 0) (Finset.mem_univ i)
  rw [occupancy_eq_sum, occupancy_eq_sum, hupdate,
    Finset.sum_update_of_mem (Finset.mem_univ i), ← Finset.erase_eq, ← hsplit]
  omega

theorem occupancy_le (used : α → Bool) (t : Fin n → α) : occupancy used t ≤ n := by
  have h := Finset.card_filter_le Finset.univ fun i => used (t i) = true
  simpa [occupancy] using h

theorem exists_free_of_occupancy_lt {t : Fin n → α} (h : occupancy used t < n) :
    ∃ i, used (t i) = false := by
  by_contra hall
  have hfull : ∀ i, used (t i) = true := by
    intro i
    by_contra hi
    exact hall ⟨i, Bool.eq_false_iff.mpr hi⟩
  simp [occupancy, hfull] at h

theorem occupancy_eq_zero_iff (t : Fin n → α) :
    occupancy used t = 0 ↔ ∀ i, used (t i) = false := by
  simp [occupancy, Finset.filter_eq_empty_iff]

theorem occupancy_pos_iff (t : Fin n → α) : 0 < occupancy used t ↔ ∃ i, used (t i) = true := by
  simp [occupancy, Finset.card_pos, Finset.Nonempty]

theorem takeWhile_eq_filter {l : List α} {p : α → Bool}
    (h : l.Pairwise fun a b => p b = true → p a = true) : l.takeWhile p = l.filter p := by
  induction l with
  | nil => rfl
  | cons a l ih =>
    obtain ⟨ha, hl⟩ := List.pairwise_cons.mp h
    by_cases hp : p a = true
    · rw [List.takeWhile_cons_of_pos hp, List.filter_cons_of_pos hp, ih hl]
    · rw [List.takeWhile_cons_of_neg hp, List.filter_cons_of_neg hp, eq_comm,
        List.filter_eq_nil_iff]
      exact fun b hb hpb => hp (ha b hb hpb)

/-- A search that stops at slot `k` looks at the slots below it. -/
theorem find?_takeWhile_lt (k : Nat) (q : Fin n → Bool) :
    ((List.finRange n).takeWhile fun i => decide (i.val < k)).find? q =
      Fin.find? fun i => decide (i.val < k) && q i := by
  have hsorted : (List.finRange n).Pairwise fun i j =>
      decide (j.val < k) = true → decide (i.val < k) = true := by
    refine (List.sortedLT_finRange n).pairwise.imp fun {i j} hij hj => ?_
    simp only [decide_eq_true_eq] at hj ⊢
    exact Nat.lt_trans hij hj
  rw [takeWhile_eq_filter hsorted, List.find?_filter, Fin.find?_eq_find?_finRange]
  simp only [Bool.decide_and, Bool.decide_eq_true]

end Base.Slots
