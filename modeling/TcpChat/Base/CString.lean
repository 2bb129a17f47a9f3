import Mathlib.Data.List.Basic
import Mathlib.Data.List.TakeWhile

/-!
# C strings

A C string is the bytes in front of its terminator, so none of them is NUL. The bounded
copies of `<string.h>` and `<stdio.h>` that also write the terminator are prefixes:
`strncpy(d, s, n); d[n] = 0` is `s.take n`, `snprintf(d, n, "%s", s)` is `s.take (n - 1)` and
`strncat(d, s, n)` is `d ++ s.take n`.
-/

namespace Base

set_option autoImplicit false

@[ext] structure CString where
  bytes : List UInt8
  noNul : 0 ∉ bytes
  deriving DecidableEq

namespace CString

/-- The string stored at the start of a buffer: everything before the first NUL. -/
def ofBuffer (buffer : List UInt8) : CString where
  bytes := buffer.takeWhile (· != 0)
  noNul := by
    intro h
    simpa using List.mem_takeWhile_imp h

/-- An ASCII literal. -/
def ofString (s : String) : CString := ofBuffer (s.toList.map fun ch => UInt8.ofNat ch.toNat)

instance : Coe String CString := ⟨ofString⟩

def empty : CString := ⟨[], List.not_mem_nil⟩

instance : Inhabited CString := ⟨empty⟩

/-- `strlen`. -/
def length (s : CString) : Nat := s.bytes.length

instance : Append CString where
  append s t := ⟨s.bytes ++ t.bytes, by simp [s.noNul, t.noNul]⟩

def take (n : Nat) (s : CString) : CString where
  bytes := s.bytes.take n
  noNul := fun h => s.noNul (List.mem_of_mem_take h)

def drop (n : Nat) (s : CString) : CString where
  bytes := s.bytes.drop n
  noNul := fun h => s.noNul (List.mem_of_mem_drop h)

/-- The text in front of the first byte that `stop` accepts: `s[strcspn(s, stop)] = 0`. -/
def upTo (stop : UInt8 → Bool) (s : CString) : CString where
  bytes := s.bytes.takeWhile fun b => !stop b
  noNul := fun h => s.noNul ((List.takeWhile_subset _) h)

/-- `strncmp(s, t, strlen(t)) == 0`. -/
def startsWith (s t : CString) : Bool := t.bytes.isPrefixOf s.bytes

/-- The strings one after the other. -/
def concat (l : List CString) : CString := l.foldr (· ++ ·) .empty

/-- `%d`. -/
def ofInt (n : Int) : CString := ofString (toString n)

@[simp] theorem bytes_empty : empty.bytes = [] := rfl

@[simp] theorem bytes_append (s t : CString) : (s ++ t).bytes = s.bytes ++ t.bytes := rfl

@[simp] theorem bytes_take (n : Nat) (s : CString) : (s.take n).bytes = s.bytes.take n := rfl

@[simp] theorem bytes_drop (n : Nat) (s : CString) : (s.drop n).bytes = s.bytes.drop n := rfl

@[simp] theorem length_empty : empty.length = 0 := rfl

@[simp] theorem length_append (s t : CString) : (s ++ t).length = s.length + t.length := by
  simp [length]

@[simp] theorem length_take (n : Nat) (s : CString) : (s.take n).length = min n s.length := by
  simp [length]

theorem append_assoc (s t u : CString) : s ++ t ++ u = s ++ (t ++ u) := by
  ext1
  exact List.append_assoc ..

@[simp] theorem append_empty (s : CString) : s ++ empty = s := by
  ext1
  exact List.append_nil _

@[simp] theorem concat_nil : concat [] = empty := rfl

@[simp] theorem concat_cons (s : CString) (l : List CString) :
    concat (s :: l) = s ++ concat l := rfl

/-- Each of the strings stands in the text. -/
theorem infix_concat {s : CString} {l : List CString} (h : s ∈ l) :
    s.bytes <:+: (concat l).bytes := by
  induction l with
  | nil => cases h
  | cons t l ih =>
    rw [concat_cons, bytes_append]
    rcases List.mem_cons.mp h with rfl | h
    · exact List.infix_append' [] s.bytes (concat l).bytes
    · exact (ih h).trans (List.suffix_append _ _).isInfix

theorem take_of_length_le {n : Nat} {s : CString} (h : s.length ≤ n) : s.take n = s := by
  ext1
  exact List.take_of_length_le h

theorem ofBuffer_of_noNul {buffer : List UInt8} (h : 0 ∉ buffer) :
    (ofBuffer buffer).bytes = buffer := by
  apply List.takeWhile_eq_self_iff.mpr
  intro b hb
  have hne : b ≠ 0 := by
    intro heq
    subst heq
    exact h hb
  simpa using hne

@[simp] theorem ofBuffer_bytes (s : CString) : ofBuffer s.bytes = s := by
  ext1
  exact ofBuffer_of_noNul s.noNul

/-- Behind a text without a terminator the reader goes on in what follows. -/
theorem ofBuffer_append (s : CString) (rest : List UInt8) :
    ofBuffer (s.bytes ++ rest) = s ++ ofBuffer rest := by
  ext1
  have hkeep : ∀ b ∈ s.bytes, (b != 0) = true := by
    intro b hb
    have hne : b ≠ 0 := by
      intro h
      exact s.noNul (h ▸ hb)
    simpa using hne
  exact List.takeWhile_append_of_pos hkeep

theorem ofBuffer_append_zero (s : CString) (rest : List UInt8) :
    ofBuffer (s.bytes ++ 0 :: rest) = s := by
  rw [ofBuffer_append]
  exact append_empty s

/-- A copy into a zeroed array is the text followed by zeros. -/
theorem ofFn_getD {n : Nat} {l : List UInt8} (h : l.length ≤ n) :
    List.ofFn (fun i : Fin n => l.getD i 0) = l ++ List.replicate (n - l.length) 0 := by
  apply List.ext_getElem
  · simp only [List.length_ofFn, List.length_append, List.length_replicate]
    omega
  · intro i h₁ h₂
    rw [List.getElem_ofFn, List.getElem_append]
    split
    · rename_i hi
      simp [List.getD_eq_getElem?_getD, List.getElem?_eq_getElem hi]
    · rename_i hi
      simp [List.getD_eq_getElem?_getD, List.getElem?_eq_none (Nat.not_lt.mp hi)]

/-- A number that is not negative is written in digits. -/
theorem digit_of_mem_ofInt {n : Int} (h : 0 ≤ n) {b : UInt8} (hb : b ∈ (ofInt n).bytes) :
    48 ≤ b.toNat ∧ b.toNat ≤ 57 := by
  obtain ⟨m, rfl⟩ := Int.eq_ofNat_of_zero_le h
  obtain ⟨ch, hch, rfl⟩ := List.mem_map.mp (List.takeWhile_subset _ hb)
  have hdigits : (toString (m : Int)).toList = Nat.toDigits 10 m := by
    rw [Int.toString_eq_repr]
    simp [Int.repr]
  rw [hdigits] at hch
  have hdigit := Char.isDigit_iff_toNat.mp
    (Nat.isDigit_of_mem_toDigits (by decide) (by decide) hch)
  have hlow : '0'.toNat = 48 := rfl
  have hhigh : '9'.toNat = 57 := rfl
  rw [UInt8.toNat_ofNat', Nat.mod_eq_of_lt (by omega)]
  omega

theorem startsWith_iff (s t : CString) : s.startsWith t = true ↔ t.bytes.IsPrefix s.bytes := by
  simp [startsWith]

/-- What follows behind the length of `t` does not matter to the test for `t`. -/
theorem startsWith_append {s t : CString} (u : CString) (h : t.length ≤ s.length) :
    (s ++ u).startsWith t = s.startsWith t := by
  rw [Bool.eq_iff_iff, startsWith_iff, startsWith_iff, bytes_append]
  constructor
  · intro hprefix
    exact List.prefix_of_prefix_length_le hprefix (List.prefix_append _ _) h
  · intro hprefix
    exact List.prefix_append_of_prefix hprefix

theorem drop_append_length (s t : CString) : (s ++ t).drop s.length = t := by
  ext1
  exact List.drop_left' rfl

end CString

end Base
