import TcpChat.Base.CString

/-!
# Tables of prefixes

A text is looked up by the first entry of a table whose key it begins with. Where no key begins
with another, at most one entry fits, and the order of the entries does not matter.
-/

namespace Base

set_option autoImplicit false

universe u v
variable {ω : Type u} {β : Type v}

namespace CString

/-- No text begins with both. -/
def Incomparable (s t : CString) : Prop := s.startsWith t = false ∧ t.startsWith s = false

instance (s t : CString) : Decidable (Incomparable s t) := inferInstanceAs (Decidable (_ ∧ _))

theorem Incomparable.not_both {s t u : CString} (h : Incomparable s t)
    (hs : u.startsWith s = true) (ht : u.startsWith t = true) : False := by
  rw [startsWith_iff] at hs ht
  rcases Nat.le_total s.bytes.length t.bytes.length with hle | hle
  · have hprefix := (startsWith_iff t s).mpr (List.prefix_of_prefix_length_le hs ht hle)
    rw [h.2] at hprefix
    cases hprefix
  · have hprefix := (startsWith_iff s t).mpr (List.prefix_of_prefix_length_le ht hs hle)
    rw [h.1] at hprefix
    cases hprefix

theorem eq_of_startsWith {key : ω → CString} {table : List ω} {a b : ω} {s : CString}
    (h : table.Pairwise fun a b => Incomparable (key a) (key b)) (ha : a ∈ table)
    (hb : b ∈ table) (hsa : s.startsWith (key a) = true) (hsb : s.startsWith (key b) = true) :
    a = b := by
  induction table with
  | nil => cases ha
  | cons first rest ih =>
    obtain ⟨hfirst, hrest⟩ := List.pairwise_cons.mp h
    rcases List.mem_cons.mp ha with hafirst | harest
    · rcases List.mem_cons.mp hb with hbfirst | hbrest
      · rw [hafirst, hbfirst]
      · exact ((hfirst b hbrest).not_both (hafirst ▸ hsa) hsb).elim
    · rcases List.mem_cons.mp hb with hbfirst | hbrest
      · exact ((hfirst a harest).not_both (hbfirst ▸ hsb) hsa).elim
      · exact ih hrest harest hbrest

/-- The first entry whose key the text begins with. -/
def lookup (key : ω → CString) (table : List ω) (s : CString) : Option ω :=
  table.find? fun a => s.startsWith (key a)

section Lookup
variable {key : ω → CString} {table : List ω} {a : ω} {s : CString}

theorem elim_lookup_nil (default : β) (f : ω → β) :
    (lookup key [] s).elim default f = default := rfl

/-- A lookup followed by what the entry asks for is a chain of tests. -/
theorem elim_lookup_cons (default : β) (f : ω → β) :
    (lookup key (a :: table) s).elim default f =
      if s.startsWith (key a) then f a else (lookup key table s).elim default f := by
  unfold lookup
  rw [List.find?_cons]
  cases s.startsWith (key a) with
  | true => rfl
  | false => rfl

theorem lookup_eq_none_iff :
    lookup key table s = none ↔ ∀ a ∈ table, s.startsWith (key a) = false := by
  simp [lookup]

theorem lookup_eq_some (hmem : a ∈ table) (hs : s.startsWith (key a) = true)
    (hunique : ∀ b ∈ table, s.startsWith (key b) = true → b = a) :
    lookup key table s = some a := by
  cases hfind : lookup key table s with
  | none =>
    have hnone := lookup_eq_none_iff.mp hfind a hmem
    rw [hs] at hnone
    cases hnone
  | some b =>
    have hb : s.startsWith (key b) = true :=
      List.find?_some (p := fun a => s.startsWith (key a)) hfind
    rw [hunique b (List.mem_of_find?_eq_some hfind) hb]

end Lookup

/-- The text up to `stop` is the word when the text is the word, or goes on with `stop`. -/
theorem upTo_eq_iff {stop : UInt8} {s word : CString} (hword : stop ∉ word.bytes) :
    s.upTo (· == stop) = word ↔
      s = word ∨ (word.bytes ++ [stop]).IsPrefix s.bytes := by
  have hkeep : ∀ b ∈ word.bytes, (!(b == stop)) = true := by
    intro b hb
    have hne : b ≠ stop := fun heq => hword (heq ▸ hb)
    simpa using hne
  rw [CString.ext_iff, CString.ext_iff]
  change s.bytes.takeWhile (fun b => !(b == stop)) = word.bytes ↔ _
  constructor
  · intro h
    have hsplit := List.takeWhile_append_dropWhile (p := fun b => !(b == stop)) (l := s.bytes)
    rw [h] at hsplit
    cases hrest : s.bytes.dropWhile (fun b => !(b == stop)) with
    | nil =>
      rw [hrest, List.append_nil] at hsplit
      exact Or.inl hsplit.symm
    | cons b rest =>
      have hb := List.head?_dropWhile_not (fun b => !(b == stop)) s.bytes
      rw [hrest] at hb hsplit
      have hstop : b = stop := by simpa using hb
      refine Or.inr ⟨rest, ?_⟩
      rw [← hsplit, hstop, List.append_assoc]
      rfl
  · rintro (h | ⟨rest, hrest⟩)
    · rw [h]
      exact List.takeWhile_eq_self_iff.mpr hkeep
    · rw [← hrest, List.append_assoc, List.takeWhile_append_of_pos hkeep]
      simp

end CString

end Base
