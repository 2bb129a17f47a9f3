import TcpChat.Base.Bytes

/-!
# What is read as hexadecimal text

`sscanf` with `%02x` skips white space and takes signs and single digits, so more is read than is
ever written. `NumberAt` is its grammar, `hexDecode_isSome_iff` what the loop over a text accepts.
-/

namespace Base.Bytes

set_option autoImplicit false

def IsHexDigit (c : UInt8) : Prop := (hexValue c).isSome = true

instance (c : UInt8) : Decidable (IsHexDigit c) := inferInstanceAs (Decidable (_ = true))

/-- `tolower`. -/
def toLower (c : UInt8) : UInt8 := if 65 ≤ c ∧ c ≤ 90 then c + 32 else c

/-- A sign and a digit, or a digit that is not the start of `0x`. -/
def NumberPrefix (c : UInt8) (rest : List UInt8) : Prop :=
  ((c = 43 ∨ c = 45) ∧ ∃ d, rest.head? = some d ∧ IsHexDigit d) ∨
    (IsHexDigit c ∧ ¬ (c = 48 ∧ (rest.head? = some 120 ∨ rest.head? = some 88)))

/-- A number stands at the front of the text, behind white space. -/
def NumberAt (text : List UInt8) : Prop :=
  ∃ blanks c rest, text = blanks ++ c :: rest ∧ (∀ b ∈ blanks, isSpace b = true) ∧
    NumberPrefix c rest

section Scan
variable {c : UInt8} {rest : List UInt8}

theorem not_space_of_number (h : NumberPrefix c rest) : isSpace c = false := by
  have hfacts : ∀ b : Fin 256, isSpace (UInt8.ofNat b) = true →
      UInt8.ofNat b ≠ 43 ∧ UInt8.ofNat b ≠ 45 ∧ hexValue (UInt8.ofNat b) = none := by
    decide +kernel
  have hc := hfacts ⟨c.toNat, c.toNat_lt⟩
  simp only [UInt8.ofNat_toNat] at hc
  rw [← Bool.not_eq_true]
  intro hspace
  obtain ⟨hplus, hminus, hvalue⟩ := hc hspace
  rcases h with ⟨hsign, _⟩ | ⟨hdigit, _⟩
  · exact hsign.elim hplus hminus
  · rw [IsHexDigit, hvalue] at hdigit
    cases hdigit

theorem numberPrefix_sign (h : c = 43 ∨ c = 45) :
    NumberPrefix c rest ↔ (rest.head?.bind hexValue).isSome = true := by
  have hnone : ¬ IsHexDigit c := by
    rcases h with rfl | rfl <;> decide
  unfold NumberPrefix
  cases rest with
  | nil => simp [hnone]
  | cons d rest =>
    rw [List.head?_cons, Option.bind_some]
    constructor
    · intro hnumber
      rcases hnumber with ⟨_, e, heq, hdigit⟩ | ⟨hdigit, _⟩
      · rw [Option.some.inj heq]
        exact hdigit
      · exact absurd hdigit hnone
    · intro hdigit
      exact Or.inl ⟨h, d, rfl, hdigit⟩

theorem numberPrefix_digit (h : ¬ (c = 43 ∨ c = 45)) :
    NumberPrefix c rest ↔
      IsHexDigit c ∧ ¬ (c = 48 ∧ (rest.head? = some 120 ∨ rest.head? = some 88)) := by
  unfold NumberPrefix
  constructor
  · intro hnumber
    exact hnumber.resolve_left fun hsign => h hsign.1
  · exact Or.inr

theorem scanHexByte_cons_isSome_iff (hspace : isSpace c = false) :
    (scanHexByte (c :: rest)).isSome = true ↔ NumberPrefix c rest := by
  unfold scanHexByte
  rw [List.dropWhile_cons_of_neg (by simp [hspace])]
  dsimp only
  by_cases hplus : c = 43
  · rw [if_pos hplus, numberPrefix_sign (Or.inl hplus)]
  rw [if_neg hplus]
  by_cases hminus : c = 45
  · rw [if_pos hminus, Option.isSome_map, numberPrefix_sign (Or.inr hminus)]
  rw [if_neg hminus, numberPrefix_digit (not_or.mpr ⟨hplus, hminus⟩), IsHexDigit]
  cases hvalue : hexValue c with
  | none => simp
  | some high =>
    cases rest with
    | nil => simp
    | cons d rest =>
      dsimp only
      rw [List.head?_cons, Option.some.injEq, Option.some.injEq]
      split
      · rename_i hx
        simp [hx]
      · rename_i hx
        refine iff_of_true ?_ ⟨rfl, hx⟩
        split <;> rfl

theorem scanHexByte_isSome_iff (text : List UInt8) :
    (scanHexByte text).isSome = true ↔ NumberAt text := by
  constructor
  · intro h
    induction text with
    | nil => cases h
    | cons c rest ih =>
      cases hspace : isSpace c with
      | true =>
        rw [scanHexByte_of_space hspace] at h
        obtain ⟨blanks, d, tail, rfl, hblanks, hnumber⟩ := ih h
        refine ⟨c :: blanks, d, tail, rfl, ?_, hnumber⟩
        intro b hb
        rcases List.mem_cons.mp hb with rfl | hb
        · exact hspace
        · exact hblanks b hb
      | false =>
        exact ⟨[], c, rest, rfl, fun b hb => absurd hb List.not_mem_nil,
          (scanHexByte_cons_isSome_iff hspace).mp h⟩
  · intro h
    obtain ⟨blanks, c, rest, rfl, hblanks, hnumber⟩ := h
    induction blanks with
    | nil => exact (scanHexByte_cons_isSome_iff (not_space_of_number hnumber)).mpr hnumber
    | cons b blanks ih =>
      rw [List.cons_append, scanHexByte_of_space (hblanks b List.mem_cons_self)]
      exact ih fun d hd => hblanks d (List.mem_cons_of_mem b hd)

end Scan

section Loop
variable {n : Nat} {text bytes : List UInt8}

theorem hexDecode_succ (n : Nat) (text : List UInt8) :
    hexDecode (n + 1) text =
      (scanHexByte text).bind fun b => (hexDecode n (text.drop 2)).map (b :: ·) := by
  have hrest : (List.range n).mapM (fun i => scanHexByte (text.drop (2 * (i + 1)))) =
      hexDecode n (text.drop 2) := by
    unfold hexDecode
    simp only [List.drop_drop, Nat.mul_add, Nat.mul_one, Nat.add_comm]
  rw [hexDecode, List.range_succ_eq_map, List.mapM_cons, List.mapM_map]
  simp only [Nat.succ_eq_add_one, hrest, Nat.mul_zero, List.drop_zero, Option.bind_eq_bind,
    Option.pure_def, Option.map_eq_bind, Function.comp_def]

/-- The loop comes to its end when a number stands at every second place. -/
theorem hexDecode_isSome_iff :
    (hexDecode n text).isSome = true ↔ ∀ i < n, NumberAt (text.drop (2 * i)) := by
  induction n generalizing text with
  | zero => exact iff_of_true rfl fun i hi => absurd hi (Nat.not_lt_zero i)
  | succ n ih =>
    have hsplit : (hexDecode (n + 1) text).isSome = true ↔
        (scanHexByte text).isSome = true ∧ (hexDecode n (text.drop 2)).isSome = true := by
      rw [hexDecode_succ]
      cases scanHexByte text <;> simp
    rw [hsplit, scanHexByte_isSome_iff, ih]
    constructor
    · intro h i hi
      cases i with
      | zero => exact h.1
      | succ i =>
        have hnext := h.2 i (Nat.lt_of_succ_lt_succ hi)
        rwa [List.drop_drop, Nat.add_comm 2, ← Nat.mul_succ] at hnext
    · intro h
      refine ⟨h 0 (Nat.succ_pos n), fun i hi => ?_⟩
      rw [List.drop_drop, Nat.add_comm 2, ← Nat.mul_succ]
      exact h (i + 1) (Nat.succ_lt_succ hi)

end Loop

section Digits
variable {c d : UInt8}

/-- What is known of a digit: it begins a number, and it is written in lower case. -/
theorem hexDigit_facts (h : IsHexDigit c) :
    isSpace c = false ∧ c ≠ 43 ∧ c ≠ 45 ∧ c ≠ 120 ∧ c ≠ 88 ∧
      ∃ v : Fin 16, hexValue c = some (UInt8.ofNat v) ∧
        hexDigit (UInt8.ofNat v) = toLower c := by
  have hfacts : ∀ b : Fin 256, IsHexDigit (UInt8.ofNat b) →
      isSpace (UInt8.ofNat b) = false ∧ UInt8.ofNat b ≠ 43 ∧ UInt8.ofNat b ≠ 45 ∧
        UInt8.ofNat b ≠ 120 ∧ UInt8.ofNat b ≠ 88 ∧
        ∃ v : Fin 16, hexValue (UInt8.ofNat b) = some (UInt8.ofNat v) ∧
          hexDigit (UInt8.ofNat v) = toLower (UInt8.ofNat b) := by
    decide +kernel
  have hc := hfacts ⟨c.toNat, c.toNat_lt⟩
  simp only [UInt8.ofNat_toNat] at hc
  exact hc h

theorem hexByte_halves : ∀ v w : Fin 16,
    hexByte (UInt8.ofNat v * 16 + UInt8.ofNat w) =
      [hexDigit (UInt8.ofNat v), hexDigit (UInt8.ofNat w)] := by
  decide +kernel

/-- Two digits are read as the byte that is written as the two in lower case. -/
theorem scanHexByte_digits (hc : IsHexDigit c) (hd : IsHexDigit d) (rest : List UInt8) :
    ∃ b, scanHexByte (c :: d :: rest) = some b ∧ hexByte b = [toLower c, toLower d] := by
  obtain ⟨hspace, hplus, hminus, _, _, v, hv, hhigh⟩ := hexDigit_facts hc
  obtain ⟨_, _, _, hx, hX, w, hw, hlow⟩ := hexDigit_facts hd
  refine ⟨UInt8.ofNat v * 16 + UInt8.ofNat w, ?_, ?_⟩
  · unfold scanHexByte
    rw [List.dropWhile_cons_of_neg (by simp [hspace])]
    dsimp only
    rw [if_neg hplus, if_neg hminus, hv]
    dsimp only
    rw [if_neg (fun h => h.2.elim hx hX), hw]
  · rw [hexByte_halves, hhigh, hlow]

/-- Text of digits is decoded, and encoding the bytes gives it back in lower case. -/
theorem hexDecode_digits {n : Nat} {text : List UInt8} (hlength : text.length = 2 * n)
    (hdigits : ∀ c ∈ text, IsHexDigit c) :
    ∃ bytes, hexDecode n text = some bytes ∧ hexEncode bytes = text.map toLower := by
  induction n generalizing text with
  | zero =>
    rw [List.eq_nil_of_length_eq_zero hlength]
    exact ⟨[], rfl, rfl⟩
  | succ n ih =>
    match text, hlength, hdigits with
    | c :: d :: rest, hlength, hdigits =>
      have hrest : rest.length = 2 * n := by
        simp only [List.length_cons] at hlength
        omega
      obtain ⟨bytes, hdecode, hencode⟩ := ih hrest fun e he =>
        hdigits e (List.mem_cons_of_mem c (List.mem_cons_of_mem d he))
      obtain ⟨b, hscan, hbyte⟩ := scanHexByte_digits (hdigits c List.mem_cons_self)
        (hdigits d (List.mem_cons_of_mem c List.mem_cons_self)) rest
      refine ⟨b :: bytes, ?_, ?_⟩
      · rw [hexDecode_succ, hscan, Option.bind_some]
        change (hexDecode n rest).map (b :: ·) = some (b :: bytes)
        rw [hdecode, Option.map_some]
      · rw [hexEncode_cons, hbyte, hencode]
        rfl

end Digits

end Base.Bytes
