import Mathlib.Data.Finset.Card

/-!
# Groups of members under keys

A finite map from keys to non-empty sets of members, with a bound on the number of groups and
one on the size of a group. A group exists as long as it has a member.
-/

namespace Base

set_option autoImplicit false

universe u v

@[ext] structure Groups (K : Type u) (M : Type v) where
  keys : Finset K
  members : K → Finset M
  mem_keys : ∀ k, k ∈ keys ↔ (members k).Nonempty

/-- What a caller is told: the key of a new group, or a return code. -/
inductive GroupReply (K : Type u) where
  | created (key : Option K)
  | code (result : Int)
  deriving DecidableEq

inductive GroupOp (K : Type u) (M : Type v) where
  | create (k : K) (m : M)
  | join (k : K) (m : M)
  | leave (k : K) (m : M)

namespace Groups

variable {K : Type u} {M : Type v}

def empty : Groups K M where
  keys := ∅
  members := fun _ => ∅
  mem_keys := by simp

@[simp] theorem keys_empty : (empty : Groups K M).keys = ∅ := rfl

@[simp] theorem members_empty (k : K) : (empty : Groups K M).members k = ∅ := rfl

theorem mem_keys_of_mem {g : Groups K M} {k : K} {m : M} (h : m ∈ g.members k) : k ∈ g.keys :=
  (g.mem_keys k).mpr ⟨m, h⟩

variable [DecidableEq K] [DecidableEq M]

/-- The map with `ms` under `k`; an empty set drops the key. -/
def set (g : Groups K M) (k : K) (ms : Finset M) : Groups K M where
  keys := if ms = ∅ then g.keys.erase k else insert k g.keys
  members := Function.update g.members k ms
  mem_keys := by
    intro l
    by_cases hl : l = k
    · subst hl
      by_cases hms : ms = ∅
      · simp [hms]
      · simp [hms, Finset.nonempty_iff_ne_empty]
    · rw [Function.update_of_ne hl, ← g.mem_keys l]
      split <;> simp [hl]

/-- One operation on groups of at most `size` members, at most `limit` groups in all. -/
def step (limit size : Nat) (g : Groups K M) : GroupOp K M → Groups K M × GroupReply K
  | .create k m =>
    if limit ≤ g.keys.card then (g, .created none) else (g.set k {m}, .created (some k))
  | .join k m =>
    if k ∈ g.keys ∧ m ∉ g.members k ∧ (g.members k).card < size then
      (g.set k (insert m (g.members k)), .code 0)
    else (g, .code (-1))
  | .leave k m =>
    if m ∈ g.members k then (g.set k ((g.members k).erase m), .code 0) else (g, .code (-1))

theorem members_set (g : Groups K M) (k l : K) (ms : Finset M) :
    (g.set k ms).members l = if l = k then ms else g.members l := by
  simp only [set, Function.update_apply]

theorem mem_keys_set_iff (g : Groups K M) (k l : K) (ms : Finset M) :
    l ∈ (g.set k ms).keys ↔ (l = k ∧ ms.Nonempty) ∨ (l ≠ k ∧ l ∈ g.keys) := by
  rw [mem_keys, members_set]
  by_cases hl : l = k
  · simp [hl]
  · simp [hl, g.mem_keys l]

section Step
variable {limit size : Nat} {g : Groups K M} {k : K} {m : M}

theorem step_create (h : g.keys.card < limit) :
    g.step limit size (.create k m) = (g.set k {m}, .created (some k)) :=
  if_neg (Nat.not_le.mpr h)

theorem step_create_of_full (h : limit ≤ g.keys.card) :
    g.step limit size (.create k m) = (g, .created none) :=
  if_pos h

theorem step_join (h : k ∈ g.keys ∧ m ∉ g.members k ∧ (g.members k).card < size) :
    g.step limit size (.join k m) = (g.set k (insert m (g.members k)), .code 0) :=
  if_pos h

theorem step_join_of_refused
    (h : ¬ (k ∈ g.keys ∧ m ∉ g.members k ∧ (g.members k).card < size)) :
    g.step limit size (.join k m) = (g, .code (-1)) :=
  if_neg h

theorem step_leave (h : m ∈ g.members k) :
    g.step limit size (.leave k m) = (g.set k ((g.members k).erase m), .code 0) :=
  if_pos h

theorem step_leave_of_absent (h : m ∉ g.members k) :
    g.step limit size (.leave k m) = (g, .code (-1)) :=
  if_neg h

end Step

end Groups

end Base
