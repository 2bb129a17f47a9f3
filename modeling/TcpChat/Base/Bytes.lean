import Mathlib.Data.Fin.Basic
import Mathlib.Data.List.FinRange
import Mathlib.Data.List.OfFn
import Mathlib.Data.Nat.Digits.Defs

/-!
# Byte images and their hexadecimal text

A structure of byte arrays is sent as the bytes of its fields, one after the other, written
with `%02x` and read back with `sscanf`. `hexDecode_hexEncode` is the round trip.
-/

namespace Base.Bytes

set_option autoImplicit false

/-- The `n` bytes of an image from `offset` on. -/
def field (n : Nat) (image : List UInt8) (offset : Nat) : Fin n → UInt8 :=
  fun i => image.getD (offset + i) 0

/-- Eight bytes, the lowest first, as a number. -/
def littleEndian (bytes : Fin 8 → UInt8) : UInt64 :=
  (List.finRange 8).foldr (fun i n => n <<< 8 ||| (bytes i).toUInt64) 0

def bytesOf (n : UInt64) : Fin 8 → UInt8 :=
  fun i => (n >>> UInt64.ofNat (8 * i)).toUInt8

def hexDigit (n : UInt8) : UInt8 := if n < 10 then n + 48 else n + 87

/-- `%02x` of one byte. -/
def hexByte (b : UInt8) : List UInt8 := [hexDigit (b >>> 4), hexDigit (b &&& 15)]

def hexEncode (bytes : List UInt8) : List UInt8 := bytes.flatMap hexByte

def hexValue (c : UInt8) : Option UInt8 :=
  if 48 ≤ c ∧ c ≤ 57 then some (c - 48)
  else if 97 ≤ c ∧ c ≤ 102 then some (c - 87)
  else if 65 ≤ c ∧ c ≤ 70 then some (c - 55)
  else none

def isSpace (c : UInt8) : Bool := c == 32 || (decide (9 ≤ c) && decide (c ≤ 13))

/-- `sscanf(s, "%02x", &v)` followed by the cast of `v` to a byte: white space is skipped, then
at most two characters of an optionally signed number are matched. `0x` begins a number that
two characters do not complete. -/
def scanHexByte (s : List UInt8) : Option UInt8 :=
  match s.dropWhile isSpace with
  | [] => none
  | c :: rest =>
    if c = 43 then rest.head?.bind hexValue
    else if c = 45 then (rest.head?.bind hexValue).map fun v => 0 - v
    else
      match hexValue c, rest with
      | none, _ => none
      | some high, [] => some high
      | some high, d :: _ =>
        if c = 48 ∧ (d = 120 ∨ d = 88) then none
        else
          match hexValue d with
          | some low => some (high * 16 + low)
          | none => some high

/-- `n` bytes, the one at index `i` read at offset `2 * i` of the text. -/
def hexDecode (n : Nat) (text : List UInt8) : Option (List UInt8) :=
  (List.range n).mapM fun i => scanHexByte (text.drop (2 * i))

/-- The bytes of an array are found again where it was put. -/
theorem field_segment {n offset : Nat} {front rest : List UInt8} (f : Fin n → UInt8)
    (h : front.length = offset) : field n (front ++ (List.ofFn f ++ rest)) offset = f := by
  funext i
  have hge : front.length ≤ offset + i.val := by omega
  have hi : offset + i.val - front.length = i.val := by omega
  have hlt : i.val < (List.ofFn f).length := by simp
  simp only [field, List.getD_eq_getElem?_getD, List.getElem?_append_right hge, hi,
    List.getElem?_append_left hlt]
  simp

/-- The bytes of a field are those of the image from its offset on. -/
theorem ofFn_field {n offset : Nat} {image : List UInt8} (h : offset + n ≤ image.length) :
    List.ofFn (field n image offset) = (image.drop offset).take n := by
  apply List.ext_getElem
  · simp only [List.length_ofFn, List.length_take, List.length_drop]
    omega
  · intro i h₁ h₂
    have hi : i < n := by simpa using h₁
    have hlt : offset + i < image.length := by omega
    rw [List.getElem_ofFn, List.getElem_take, List.getElem_drop, field,
      List.getD_eq_getElem?_getD, List.getElem?_eq_getElem hlt, Option.getD_some]

/-- A field, and what follows it. -/
theorem take_append_drop_add (bytes : List UInt8) (offset n : Nat) :
    (bytes.drop offset).take n ++ bytes.drop (offset + n) = bytes.drop offset := by
  rw [← List.drop_drop, List.take_append_drop]

theorem ofFn_update {n : Nat} (f : Fin n → UInt8) (i : Fin n) (b : UInt8) :
    List.ofFn (Function.update f i b) = (List.ofFn f).set i b := by
  apply List.ext_getElem (by simp)
  intro k h₁ h₂
  have hk : k < n := by simpa using h₁
  rw [List.getElem_ofFn, List.getElem_set, List.getElem_ofFn, Function.update_apply]
  simp only [Fin.ext_iff, eq_comm]

/-- A byte of an array is changed where the array was put. -/
theorem set_segment {n offset : Nat} {front : List UInt8} (rest : List UInt8)
    (f : Fin n → UInt8) (i : Fin n) (b : UInt8) (h : front.length = offset) :
    (front ++ (List.ofFn f ++ rest)).set (offset + i) b =
      front ++ (List.ofFn (Function.update f i b) ++ rest) := by
  have hi : offset + i.val - front.length = i.val := by omega
  have hlt : i.val < (List.ofFn f).length := by simp
  rw [List.set_append_right _ _ (by omega), hi, List.set_append_left _ _ hlt, ofFn_update]

theorem hexByte_facts : ∀ b : Fin 256,
    isSpace (hexDigit (UInt8.ofNat b >>> 4)) = false ∧
    hexDigit (UInt8.ofNat b >>> 4) ≠ 43 ∧ hexDigit (UInt8.ofNat b >>> 4) ≠ 45 ∧
    hexValue (hexDigit (UInt8.ofNat b >>> 4)) = some (UInt8.ofNat b >>> 4) ∧
    hexDigit (UInt8.ofNat b &&& 15) ≠ 120 ∧ hexDigit (UInt8.ofNat b &&& 15) ≠ 88 ∧
    hexValue (hexDigit (UInt8.ofNat b &&& 15)) = some (UInt8.ofNat b &&& 15) ∧
    (UInt8.ofNat b >>> 4) * 16 + (UInt8.ofNat b &&& 15) = UInt8.ofNat b := by
  decide +kernel

/-- What `%02x` writes is read back, whatever follows. -/
theorem scanHexByte_hexByte (b : UInt8) (rest : List UInt8) :
    scanHexByte (hexByte b ++ rest) = some b := by
  obtain ⟨hspace, hplus, hminus, hhigh, hx, hX, hlow, hvalue⟩ := hexByte_facts ⟨b.toNat, b.toNat_lt⟩
  simp only [UInt8.ofNat_toNat] at hspace hplus hminus hhigh hx hX hlow hvalue
  simp only [scanHexByte, hexByte, List.cons_append, List.nil_append,
    List.dropWhile_cons_of_neg (by simp [hspace] : ¬ isSpace (hexDigit (b >>> 4)) = true)]
  rw [if_neg hplus, if_neg hminus, hhigh]
  simp only [hx, hX, or_self, and_false, if_false, hlow, hvalue]

@[simp] theorem hexEncode_cons (b : UInt8) (bytes : List UInt8) :
    hexEncode (b :: bytes) = hexByte b ++ hexEncode bytes := rfl

@[simp] theorem length_hexEncode (bytes : List UInt8) :
    (hexEncode bytes).length = 2 * bytes.length := by
  induction bytes with
  | nil => rfl
  | cons b bytes ih =>
    simp only [hexEncode_cons, List.length_append, ih, hexByte, List.length_cons, List.length_nil]
    omega

theorem drop_hexEncode (bytes : List UInt8) (i : Nat) :
    (hexEncode bytes).drop (2 * i) = hexEncode (bytes.drop i) := by
  induction i generalizing bytes with
  | zero => rfl
  | succ i ih =>
    cases bytes with
    | nil => simp [hexEncode]
    | cons b bytes =>
      have htwo : 2 * (i + 1) = 2 + 2 * i := by omega
      rw [List.drop_succ_cons, ← ih, htwo, ← List.drop_drop]
      rfl

theorem mapM_eq_some_iff {α β : Type} {f : α → Option β} {l : List α} {r : List β} :
    l.mapM f = some r ↔ l.map f = r.map some := by
  induction l generalizing r with
  | nil =>
    simp only [List.mapM_nil, List.map_nil, Option.pure_def, Option.some.injEq]
    constructor
    · intro h
      rw [← h]
      rfl
    · intro h
      exact (List.map_eq_nil_iff.mp h.symm).symm
  | cons a l ih =>
    rw [List.mapM_cons, List.map_cons]
    cases hf : f a with
    | none => cases r <;> simp
    | some b =>
      cases r with
      | nil => cases hl : l.mapM f <;> simp
      | cons c r =>
        rw [List.map_cons, List.cons.injEq, ← ih]
        cases hl : l.mapM f <;> simp

theorem hexDecode_hexEncode (bytes : List UInt8) :
    hexDecode bytes.length (hexEncode bytes) = some bytes := by
  rw [hexDecode, mapM_eq_some_iff]
  apply List.ext_getElem (by simp)
  intro i h₁ h₂
  have hi : i < bytes.length := by simpa using h₂
  rw [List.getElem_map, List.getElem_map, List.getElem_range, drop_hexEncode,
    List.drop_eq_getElem_cons hi, hexEncode_cons, scanHexByte_hexByte]

theorem length_of_hexDecode {n : Nat} {text bytes : List UInt8}
    (h : hexDecode n text = some bytes) : bytes.length = n := by
  have hlength := congrArg List.length (mapM_eq_some_iff.mp h)
  simpa using hlength.symm

theorem hexValue_of_mem_hexEncode {bytes : List UInt8} {c : UInt8} (h : c ∈ hexEncode bytes) :
    (hexValue c).isSome = true := by
  obtain ⟨b, _, hc⟩ := List.mem_flatMap.mp h
  obtain ⟨_, _, _, hhigh, _, _, hlow, _⟩ := hexByte_facts ⟨b.toNat, b.toNat_lt⟩
  simp only [UInt8.ofNat_toNat] at hhigh hlow
  rcases List.mem_cons.mp hc with rfl | hc
  · rw [hhigh]
    rfl
  · rw [List.mem_singleton.mp hc, hlow]
    rfl

/-- A character that begins no number. -/
def NoNumber (c : UInt8) : Prop :=
  isSpace c = false ∧ c ≠ 43 ∧ c ≠ 45 ∧ hexValue c = none

theorem scanHexByte_of_noNumber {c : UInt8} (h : NoNumber c) (rest : List UInt8) :
    scanHexByte (c :: rest) = none := by
  obtain ⟨hspace, hplus, hminus, hvalue⟩ := h
  simp only [scanHexByte, List.dropWhile_cons_of_neg (by simp [hspace] : ¬ isSpace c = true)]
  rw [if_neg hplus, if_neg hminus, hvalue]

theorem scanHexByte_of_space {c : UInt8} (h : isSpace c = true) (rest : List UInt8) :
    scanHexByte (c :: rest) = scanHexByte rest := by
  simp only [scanHexByte, List.dropWhile_cons_of_pos h]

theorem drop_of_getElem? {text : List UInt8} {i : Nat} {c : UInt8} (h : text[i]? = some c) :
    text.drop i = c :: text.drop (i + 1) := by
  obtain ⟨hi, hc⟩ := List.getElem?_eq_some_iff.mp h
  rw [List.drop_eq_getElem_cons hi, hc]

/-- White space in front of a character that begins no number: one of the two stands where a
number is due. -/
theorem hexDecode_eq_none {n i : Nat} {text : List UInt8} {a b : UInt8} (ha : text[i]? = some a)
    (hb : text[i + 1]? = some b) (hspace : isSpace a = true) (hnumber : NoNumber b)
    (hi : i + 1 < 2 * n) : hexDecode n text = none := by
  have hdropA : text.drop i = a :: text.drop (i + 1) := drop_of_getElem? ha
  have hdropB : text.drop (i + 1) = b :: text.drop (i + 1 + 1) := drop_of_getElem? hb
  by_contra hsome
  obtain ⟨bytes, hbytes⟩ := Option.ne_none_iff_exists'.mp hsome
  have hmap := mapM_eq_some_iff.mp hbytes
  have hscan : ∀ k < n, scanHexByte (text.drop (2 * k)) ≠ none := by
    intro k hk hnone
    have hget := congrArg (fun l => l[k]?) hmap
    simp only [List.getElem?_map, List.getElem?_range hk, Option.map_some, hnone] at hget
    cases hbyte : bytes[k]? with
    | none => simp [hbyte] at hget
    | some byte => simp [hbyte] at hget
  rcases Nat.mod_two_eq_zero_or_one i with heven | hodd
  · apply hscan (i / 2) (by omega)
    rw [show 2 * (i / 2) = i by omega, hdropA, scanHexByte_of_space hspace, hdropB]
    exact scanHexByte_of_noNumber hnumber _
  · apply hscan ((i + 1) / 2) (by omega)
    rw [show 2 * ((i + 1) / 2) = i + 1 by omega, hdropB]
    exact scanHexByte_of_noNumber hnumber _

section LittleEndian
variable (n : UInt64)

theorem shiftRight_or_low : n >>> 8 <<< 8 ||| n.toUInt8.toUInt64 = n := by
  rw [← UInt64.toNat_inj]
  have hlt := n.toNat_lt
  have hlow : n.toNat % 256 < 2 ^ 8 := Nat.mod_lt _ (by decide)
  have hor := Nat.two_pow_add_eq_or_of_lt hlow (n.toNat / 256)
  have height : (8 : UInt64).toNat % 64 = 8 := rfl
  have hpow : 2 ^ 8 = 256 := rfl
  simp only [UInt64.toNat_or, UInt64.toNat_shiftLeft, UInt64.toNat_shiftRight,
    UInt8.toNat_toUInt64, UInt64.toNat_toUInt8, Nat.shiftLeft_eq, Nat.shiftRight_eq_div_pow,
    height]
  simp only [hpow] at *
  have hhigh : n.toNat / 256 * 256 % 2 ^ 64 = 256 * (n.toNat / 256) := by omega
  rw [hhigh, ← hor]
  omega

theorem shiftRight_byte {i : Nat} (hi : i < 7) :
    n >>> UInt64.ofNat (8 * (i + 1)) = n >>> UInt64.ofNat (8 * i) >>> 8 := by
  rw [← UInt64.toNat_inj]
  have hnext : 8 * (i + 1) % 2 ^ 64 % 64 = 8 * i + 8 := by omega
  have hthis : 8 * i % 2 ^ 64 % 64 = 8 * i := by omega
  have height : (8 : UInt64).toNat % 64 = 8 := rfl
  simp only [UInt64.toNat_shiftRight, UInt64.toNat_ofNat', hnext, hthis, height,
    Nat.shiftRight_add]

theorem littleEndian_bytesOf : littleEndian (bytesOf n) = n := by
  have hstep : ∀ i < 7, n >>> UInt64.ofNat (8 * (i + 1)) <<< 8 |||
      (n >>> UInt64.ofNat (8 * i)).toUInt8.toUInt64 = n >>> UInt64.ofNat (8 * i) := by
    intro i hi
    rw [shiftRight_byte n hi]
    exact shiftRight_or_low _
  have htop : (0 : UInt64) <<< 8 ||| (n >>> UInt64.ofNat (8 * 7)).toUInt8.toUInt64 =
      n >>> UInt64.ofNat (8 * 7) := by
    rw [← UInt64.toNat_inj]
    have hlt := n.toNat_lt
    simp [Nat.shiftRight_eq_div_pow]
    omega
  have hlist : List.finRange 8 = [0, 1, 2, 3, 4, 5, 6, 7] := by decide
  rw [littleEndian, hlist]
  simp only [bytesOf, List.foldr_cons, List.foldr_nil]
  -- from the highest byte down, each round adds the byte below
  calc
    _ = n >>> UInt64.ofNat (8 * (0 + 1)) <<< 8 |||
        (n >>> UInt64.ofNat (8 * 0)).toUInt8.toUInt64 := by
      rw [← hstep 1 (by decide), ← hstep 2 (by decide), ← hstep 3 (by decide),
        ← hstep 4 (by decide), ← hstep 5 (by decide), ← hstep 6 (by decide), ← htop]
      rfl
    _ = n >>> UInt64.ofNat (8 * 0) := hstep 0 (by decide)
    _ = n := by simp

end LittleEndian

section Digits

/-- Adding the byte below. -/
theorem toNat_shift_or {n : UInt64} (b : UInt8) (h : n.toNat < 2 ^ 56) :
    (n <<< 8 ||| b.toUInt64).toNat = b.toNat + 256 * n.toNat := by
  have hlow : b.toNat < 2 ^ 8 := b.toNat_lt
  have height : (8 : UInt64).toNat % 64 = 8 := rfl
  rw [UInt64.toNat_or, UInt64.toNat_shiftLeft, UInt8.toNat_toUInt64, height, Nat.shiftLeft_eq,
    Nat.mod_eq_of_lt (by omega), Nat.mul_comm n.toNat, show 256 = 2 ^ 8 from rfl,
    ← Nat.two_pow_add_eq_or_of_lt hlow, Nat.add_comm]

theorem toNat_lt_of_mem_map {bytes : List UInt8} : ∀ x ∈ bytes.map UInt8.toNat, x < 256 := by
  intro x hx
  obtain ⟨c, _, rfl⟩ := List.mem_map.mp hx
  exact c.toNat_lt

theorem toNat_foldr_shift {bytes : List UInt8} (h : bytes.length ≤ 8) :
    (bytes.foldr (fun b (n : UInt64) => n <<< 8 ||| b.toUInt64) 0).toNat =
      Nat.ofDigits 256 (bytes.map UInt8.toNat) := by
  induction bytes with
  | nil => rfl
  | cons b bytes ih =>
    have hlen : bytes.length ≤ 7 := Nat.le_of_succ_le_succ h
    have hvalue := ih (Nat.le_succ_of_le hlen)
    have hsmall := Nat.ofDigits_lt_base_pow_length (by decide : 1 < 256)
      (@toNat_lt_of_mem_map bytes)
    have hpow : 256 ^ (bytes.map UInt8.toNat).length ≤ 256 ^ 7 := by
      rw [List.length_map]
      exact Nat.pow_le_pow_right (by decide) hlen
    have hbound : (bytes.foldr (fun b (n : UInt64) => n <<< 8 ||| b.toUInt64) 0).toNat < 2 ^ 56 := by
      rw [hvalue]
      exact Nat.lt_of_lt_of_le hsmall hpow
    rw [List.foldr_cons, List.map_cons, Nat.ofDigits_cons, toNat_shift_or b hbound, hvalue]

theorem bytesOf_littleEndian (bytes : Fin 8 → UInt8) : bytesOf (littleEndian bytes) = bytes := by
  have hfold : littleEndian bytes =
      (List.ofFn bytes).foldr (fun b (n : UInt64) => n <<< 8 ||| b.toUInt64) 0 := by
    rw [littleEndian, List.ofFn_eq_map, List.foldr_map]
  have hlength : (List.ofFn bytes).length = 8 := List.length_ofFn
  funext i
  have hi : i.val < 8 := i.isLt
  have hmod : 8 * i.val % 2 ^ 64 % 64 = 8 * i.val := by omega
  have hdrop : ((List.ofFn bytes).map UInt8.toNat).drop i =
      (bytes i).toNat :: ((List.ofFn bytes).map UInt8.toNat).drop (i + 1) := by
    rw [List.drop_eq_getElem_cons (by rw [List.length_map, hlength]; exact hi), List.getElem_map,
      List.getElem_ofFn]
  rw [bytesOf, ← UInt8.toNat_inj, hfold, UInt64.toNat_toUInt8, UInt64.toNat_shiftRight,
    UInt64.toNat_ofNat', hmod, Nat.shiftRight_eq_div_pow, toNat_foldr_shift (by rw [hlength]),
    Nat.pow_mul, show 2 ^ 8 = 256 from rfl,
    Nat.ofDigits_div_pow_eq_ofDigits_drop _ (by decide) _ toNat_lt_of_mem_map, hdrop,
    Nat.ofDigits_cons, Nat.add_mul_mod_self_left, Nat.mod_eq_of_lt (bytes i).toNat_lt]

end Digits

end Base.Bytes
