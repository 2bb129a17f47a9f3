import Mathlib

/-!
# Address spaces

Addresses are mapped and unmapped by regions, some of the mapped ones are guarded, and bytes are
written to the others. `Holds` says which regions make up what is mapped beside the addresses of
others.
-/

namespace Base.AddressSpace

set_option autoImplicit false

universe u

/-- The addresses of `length` bytes from `start` on. -/
structure Region where
  start : Nat
  length : Nat
  deriving DecidableEq

def Region.addresses (r : Region) : Set Nat := Set.Ico r.start (r.start + r.length)

instance (r : Region) (x : Nat) : Decidable (x ∈ r.addresses) :=
  inferInstanceAs (Decidable (_ ∧ _))

structure Space (β : Type u) where
  mapped : Set Nat
  guarded : Set Nat
  byte : Nat → β

namespace Space

variable {β : Type u} (s : Space β) (r : Region)

def map (blank : β) : Space β where
  mapped := s.mapped ∪ r.addresses
  guarded := s.guarded \ r.addresses
  byte := fun x => if x ∈ r.addresses then blank else s.byte x

def guard : Space β where
  mapped := s.mapped
  guarded := s.guarded ∪ r.addresses
  byte := s.byte

/-- Byte `i` of the region becomes `value i`. -/
def write (value : Nat → β) : Space β where
  mapped := s.mapped
  guarded := s.guarded
  byte := fun x => if x ∈ r.addresses then value (x - r.start) else s.byte x

def unmap : Space β where
  mapped := s.mapped \ r.addresses
  guarded := s.guarded \ r.addresses
  byte := s.byte

theorem byte_map (blank : β) (x : Nat) :
    (s.map r blank).byte x = if x ∈ r.addresses then blank else s.byte x := rfl

end Space

section Regions
variable {r r' : Region} {x : Nat}

theorem Region.mem_addresses : x ∈ r.addresses ↔ r.start ≤ x ∧ x < r.start + r.length := Iff.rfl

theorem Region.subset_of_le (hstart : r'.start ≤ r.start)
    (hend : r.start + r.length ≤ r'.start + r'.length) : r.addresses ⊆ r'.addresses :=
  Set.Ico_subset_Ico hstart hend

/-- Regions one of which ends before the other begins. -/
theorem Region.disjoint_of_le (h : r.start + r.length ≤ r'.start) :
    Disjoint r.addresses r'.addresses := by
  rw [Set.disjoint_left]
  intro x hx hx'
  rw [Region.mem_addresses] at hx hx'
  omega

end Regions

/-- All that `regions` cover. -/
def covered (regions : List Region) : Set Nat := {x | ∃ r ∈ regions, x ∈ r.addresses}

/-- What is mapped is the addresses of others and the regions, which do not overlap. -/
structure Holds {β : Type u} (s : Space β) (others : Set Nat) (regions : List Region) : Prop where
  mapped_eq : s.mapped = others ∪ covered regions
  apart : regions.Pairwise fun r r' => Disjoint r.addresses r'.addresses
  outside : ∀ r ∈ regions, Disjoint r.addresses others

section Covered
variable {r : Region} {regions regions' : List Region}

@[simp] theorem covered_nil : covered [] = ∅ := by
  ext x
  simp [covered]

@[simp] theorem covered_cons : covered (r :: regions) = r.addresses ∪ covered regions := by
  ext x
  simp [covered]

theorem covered_perm (h : regions.Perm regions') : covered regions = covered regions' := by
  ext x
  simp only [covered, Set.mem_ofPred_eq, h.mem_iff]

theorem subset_covered (h : r ∈ regions) : r.addresses ⊆ covered regions :=
  fun _ hx => ⟨r, h, hx⟩

theorem disjoint_covered {t : Set Nat} (h : ∀ r ∈ regions, Disjoint t r.addresses) :
    Disjoint t (covered regions) := by
  rw [Set.disjoint_left]
  intro x hx hcovered
  obtain ⟨r, hr, hxr⟩ := hcovered
  exact Set.disjoint_left.mp (h r hr) hx hxr

end Covered

namespace Holds

variable {β : Type u} {s : Space β} {others : Set Nat} {r : Region} {regions regions' : List Region}
  (h : Holds s others regions)
include h

/-- Nothing but what is mapped matters. -/
theorem congr {s' : Space β} (hmapped : s'.mapped = s.mapped) : Holds s' others regions :=
  ⟨hmapped.trans h.mapped_eq, h.apart, h.outside⟩

theorem perm (hperm : regions.Perm regions') : Holds s others regions' := by
  refine ⟨?_, ?_, fun r hr => h.outside r (hperm.mem_iff.mpr hr)⟩
  · rw [h.mapped_eq, covered_perm hperm]
  · exact (hperm.pairwise_iff fun hdisjoint => hdisjoint.symm).mp h.apart

theorem subset_mapped (hr : r ∈ regions) : r.addresses ⊆ s.mapped := by
  rw [h.mapped_eq]
  exact (subset_covered hr).trans Set.subset_union_right

omit h in
/-- An address belongs to one region. -/
theorem eq_of_mem {ι : Type} {region : ι → Region} {is : List ι}
    (h : Holds s others (is.map region)) {i j : ι} (hi : i ∈ is) (hj : j ∈ is) {x : Nat}
    (hx : x ∈ (region i).addresses) (hx' : x ∈ (region j).addresses) : i = j := by
  by_contra hne
  have hapart := List.pairwise_map.mp h.apart
  have hsymm : Std.Symm fun i j => Disjoint (region i).addresses (region j).addresses :=
    ⟨fun _ _ hd => hd.symm⟩
  exact Set.disjoint_left.mp (hapart.forall hi hj hne) hx hx'

theorem map (blank : β) (hfree : Disjoint r.addresses s.mapped) :
    Holds (s.map r blank) others (r :: regions) := by
  rw [h.mapped_eq, Set.disjoint_union_right] at hfree
  refine ⟨?_, List.pairwise_cons.mpr ⟨fun r' hr' => ?_, h.apart⟩, ?_⟩
  · change s.mapped ∪ r.addresses = _
    rw [h.mapped_eq, covered_cons, Set.union_assoc, Set.union_comm (covered regions)]
  · exact hfree.2.mono_right (subset_covered hr')
  · intro r' hr'
    rcases List.mem_cons.mp hr' with rfl | hr'
    · exact hfree.1
    · exact h.outside r' hr'

end Holds

/-- Giving a region back leaves the others mapped. -/
theorem Holds.unmap {β : Type u} {s : Space β} {others : Set Nat} {r : Region}
    {regions : List Region} (h : Holds s others (r :: regions)) :
    Holds (s.unmap r) others regions := by
  obtain ⟨hfirst, hrest⟩ := List.pairwise_cons.mp h.apart
  have hothers := h.outside r List.mem_cons_self
  refine ⟨?_, hrest, fun r' hr' => h.outside r' (List.mem_cons_of_mem r hr')⟩
  change s.mapped \ r.addresses = _
  rw [h.mapped_eq, covered_cons, Set.union_sdiff_distrib, Set.union_sdiff_left,
    hothers.symm.sdiff_eq_left, (disjoint_covered hfirst).symm.sdiff_eq_left]

end Base.AddressSpace
