import Mathlib.Data.List.Induction
import TcpChat.Base.XorCodec

/-!
# Tags against errors

The tag of the XOR codec is linear: column by column it is the XOR of the bytes there. So an
error pattern on a sealed string passes exactly when, in every column, what it does to the data
is what it does to the tag; the two keys count as part of the pattern.
-/

namespace Base.XorCodec

set_option autoImplicit false

/-- The XOR of `f i` over the positions `i` below `n` in column `j` of `w`. -/
def columnXor (w n : Nat) (f : Nat → UInt8) (j : Nat) : UInt8 :=
  (((List.range n).filter fun i => i % w = j).map f).foldl (· ^^^ ·) 0

section Column
variable {w n j : Nat} {f g : Nat → UInt8}

@[simp] theorem columnXor_zero : columnXor w 0 f j = 0 := rfl

theorem columnXor_succ :
    columnXor w (n + 1) f j = columnXor w n f j ^^^ (if n % w = j then f n else 0) := by
  unfold columnXor
  rw [List.range_succ, List.filter_append, List.map_append, List.foldl_append]
  split
  · rename_i hcol
    rw [List.filter_cons_of_pos (by simpa using hcol)]
    rfl
  · rename_i hcol
    rw [List.filter_cons_of_neg (by simpa using hcol), UInt8.xor_zero]
    rfl

theorem columnXor_congr (h : ∀ i < n, f i = g i) : columnXor w n f j = columnXor w n g j := by
  induction n with
  | zero => rfl
  | succ n ih =>
    rw [columnXor_succ, columnXor_succ, ih fun i hi => h i (Nat.lt_succ_of_lt hi),
      h n (Nat.lt_succ_self n)]

theorem columnXor_xor :
    columnXor w n (fun i => f i ^^^ g i) j = columnXor w n f j ^^^ columnXor w n g j := by
  induction n with
  | zero => simp
  | succ n ih =>
    rw [columnXor_succ, columnXor_succ, columnXor_succ, ih]
    split
    · ac_rfl
    · simp

theorem columnXor_eq_zero (h : ∀ i < n, i % w = j → f i = 0) : columnXor w n f j = 0 := by
  induction n with
  | zero => rfl
  | succ n ih =>
    rw [columnXor_succ, ih fun i hi => h i (Nat.lt_succ_of_lt hi)]
    split
    · rename_i hcol
      rw [h n (Nat.lt_succ_self n) hcol, UInt8.xor_zero]
    · rw [UInt8.xor_zero]

/-- A column with one byte in it. -/
theorem columnXor_of_only {k : Nat} (hk : k < n) (h : ∀ i < n, i % w = k % w → i ≠ k → f i = 0) :
    columnXor w n f (k % w) = f k := by
  induction n with
  | zero => exact absurd hk (Nat.not_lt_zero k)
  | succ n ih =>
    rw [columnXor_succ]
    by_cases hn : k = n
    · subst hn
      rw [if_pos rfl, columnXor_eq_zero fun i hi hcol =>
        h i (Nat.lt_succ_of_lt hi) hcol (Nat.ne_of_lt hi), UInt8.zero_xor]
    · rw [ih (by omega) fun i hi => h i (Nat.lt_succ_of_lt hi)]
      split
      · rename_i hcol
        rw [h n (Nat.lt_succ_self n) hcol (Ne.symm hn), UInt8.xor_zero]
      · rw [UInt8.xor_zero]

theorem columnXor_add (l : Nat) (hn : n % w = 0) :
    columnXor w (n + l) f j = columnXor w n f j ^^^ columnXor w l (fun i => f (n + i)) j := by
  induction l with
  | zero => simp
  | succ l ih =>
    rw [← Nat.add_assoc, columnXor_succ, ih, columnXor_succ, Nat.add_mod, hn, Nat.zero_add,
      Nat.mod_mod, UInt8.xor_assoc]

/-- Over an even number of periods every column cancels out. -/
theorem columnXor_even_periods {p : Nat} (hp : p % w = 0) (hf : ∀ i, f (p + i) = f i) (q : Nat) :
    columnXor w (2 * p * q) f j = 0 := by
  have htwice : columnXor w (2 * p) f j = 0 := by
    rw [Nat.two_mul, columnXor_add p hp]
    simp only [hf, UInt8.xor_self]
  induction q with
  | zero => rfl
  | succ q ih =>
    have hmod : 2 * p * q % w = 0 := by
      rw [Nat.mul_mod, Nat.mul_mod 2, hp, Nat.mul_zero, Nat.zero_mod, Nat.zero_mul, Nat.zero_mod]
    have hshift : ∀ m i, f (m * p + i) = f i := by
      intro m
      induction m with
      | zero => simp
      | succ m ihm =>
        intro i
        rw [Nat.succ_mul, Nat.add_assoc, ihm, hf]
    have hperiods : ∀ i, f (2 * p * q + i) = f i := by
      intro i
      rw [Nat.mul_right_comm]
      exact hshift (2 * q) i
    rw [Nat.mul_succ, columnXor_add (2 * p) hmod, ih]
    simp only [hperiods, htwice, UInt8.xor_zero]

end Column

section Tag
variable {p w : Nat} [NeZero p] [NeZero w]

theorem columnTag_concat (data : List UInt8) (b : UInt8) :
    columnTag w (data ++ [b]) =
      Function.update (columnTag w data) (Fin.ofNat w data.length)
        (columnTag w data (Fin.ofNat w data.length) ^^^ b) := by
  unfold columnTag
  rw [List.zipIdx_append, List.foldl_append]
  simp

theorem columnTag_eq_columnXor (data : List UInt8) (j : Fin w) :
    columnTag w data j = columnXor w data.length (fun i => data.getD i 0) j := by
  induction data using List.reverseRecOn with
  | nil => rfl
  | append_singleton data b ih =>
    have hbefore : ∀ i < data.length, (data ++ [b]).getD i 0 = data.getD i 0 := by
      intro i hi
      rw [List.getD_eq_getElem?_getD, List.getElem?_append_left hi, List.getD_eq_getElem?_getD]
    rw [columnTag_concat, List.length_append, List.length_singleton, columnXor_succ,
      columnXor_congr hbefore, ← ih, Function.update_apply]
    have hcol : j = Fin.ofNat w data.length ↔ data.length % w = j.val := by
      rw [Fin.ext_iff, Fin.val_ofNat]
      exact eq_comm
    by_cases hj : j = Fin.ofNat w data.length
    · rw [if_pos hj, if_pos (hcol.mp hj), ← hj]
      simp
    · rw [if_neg hj, if_neg (mt hcol.mpr hj), UInt8.xor_zero]

/-- The data with `g i` XORed onto byte `i`. -/
def masked (g : Nat → UInt8) (data : List UInt8) : List UInt8 := data.mapIdx fun i b => b ^^^ g i

@[simp] theorem length_masked (g : Nat → UInt8) (data : List UInt8) :
    (masked g data).length = data.length := by
  simp [masked]

theorem getD_masked (g : Nat → UInt8) (data : List UInt8) {i : Nat} (h : i < data.length) :
    (masked g data).getD i 0 = data.getD i 0 ^^^ g i := by
  simp [masked, List.getD_eq_getElem?_getD, h]

theorem columnTag_masked (g : Nat → UInt8) (data : List UInt8) (j : Fin w) :
    columnTag w (masked g data) j = columnTag w data j ^^^ columnXor w data.length g j := by
  rw [columnTag_eq_columnXor, columnTag_eq_columnXor, length_masked, ← columnXor_xor]
  apply columnXor_congr
  intro i hi
  exact getD_masked g data hi

/-- `e` is XORed onto `data`. -/
def corrupted (data e : List UInt8) : List UInt8 := List.zipWith (· ^^^ ·) data e

/-- What an error pattern and two keys do to byte `i` of the data. -/
def offset (k k' : Fin p → UInt8) (e : List UInt8) (i : Nat) : UInt8 :=
  e.getD i 0 ^^^ k (Fin.ofNat p i) ^^^ k' (Fin.ofNat p i)

theorem xorStream_corrupted (k k' : Fin p → UInt8) (plain e : List UInt8)
    (he : plain.length ≤ e.length) :
    xorStream k' (List.zipWith (· ^^^ ·) (xorStream k plain) (e.take plain.length)) =
      masked (offset k k' e) plain := by
  have hlen : (e.take plain.length).length = plain.length := by simp [he]
  apply List.ext_getElem
  · simp [hlen]
  · intro i h₁ h₂
    have hi : i < plain.length := by simpa using h₂
    have hie : i < e.length := by omega
    simp only [xorStream, masked, offset, List.getElem_mapIdx, List.getElem_zipWith,
      List.getElem_take, List.getD_eq_getElem?_getD, List.getElem?_eq_getElem hie,
      Option.getD_some]
    ac_rfl

/-- The exact law: what is opened and when, for any error pattern and any two keys. -/
theorem openBytes_corrupted (k k' : Fin p → UInt8) (plain e : List UInt8)
    (he : e.length = plain.length + w) :
    openBytes w k' (corrupted (sealBytes w k plain) e) =
      if ∀ j < w, columnXor w plain.length (offset k k' e) j = e.getD (plain.length + j) 0 then
        some (masked (offset k k' e) plain)
      else none := by
  have hlen : (corrupted (sealBytes w k plain) e).length = plain.length + w := by
    simp [corrupted, he]
  have hdata : (corrupted (sealBytes w k plain) e).take plain.length =
      List.zipWith (· ^^^ ·) (xorStream k plain) (e.take plain.length) := by
    rw [corrupted, List.take_zipWith, sealBytes, List.take_left' (length_xorStream k plain)]
  have htag : (corrupted (sealBytes w k plain) e).drop plain.length =
      List.ofFn fun j : Fin w => columnTag w plain j ^^^ e.getD (plain.length + j) 0 := by
    rw [corrupted, List.drop_zipWith, sealBytes, List.drop_left' (length_xorStream k plain)]
    apply List.ext_getElem
    · simp [he]
    · intro i h₁ h₂
      have hi : i < w := by simpa using h₂
      have hie : plain.length + i < e.length := by omega
      simp [List.getElem?_eq_getElem hie]
  have hshort : ¬ (corrupted (sealBytes w k plain) e).length < w := by omega
  have hsplit : (corrupted (sealBytes w k plain) e).length - w = plain.length := by omega
  have hpasses : (List.ofFn fun j : Fin w => columnTag w plain j ^^^ e.getD (plain.length + j) 0) =
      List.ofFn (columnTag w (masked (offset k k' e) plain)) ↔
      ∀ j < w, columnXor w plain.length (offset k k' e) j = e.getD (plain.length + j) 0 := by
    rw [List.ofFn_inj, funext_iff]
    simp only [columnTag_masked, UInt8.xor_right_inj]
    constructor
    · intro h j hj
      exact (h ⟨j, hj⟩).symm
    · intro h j
      exact (h j.val j.isLt).symm
  unfold openBytes
  simp only [if_neg hshort, hsplit]
  rw [hdata, htag, xorStream_corrupted k k' plain e (by omega)]
  simp only [hpasses]

/-- An error within `w` consecutive bytes of the data is seen in its own column. -/
theorem openBytes_burst (k : Fin p → UInt8) (plain e : List UInt8)
    (he : e.length = plain.length + w) (a : Nat)
    (hburst : ∀ i, e.getD i 0 ≠ 0 → i < plain.length ∧ a ≤ i ∧ i < a + w)
    (hne : ∃ i, e.getD i 0 ≠ 0) :
    openBytes w k (corrupted (sealBytes w k plain) e) = none := by
  obtain ⟨i, hi⟩ := hne
  obtain ⟨hlt, hlow, hhigh⟩ := hburst i hi
  have hoffset : ∀ l, offset k k e l = e.getD l 0 := by
    intro l
    rw [offset, UInt8.xor_assoc, UInt8.xor_self, UInt8.xor_zero]
  rw [openBytes_corrupted k k plain e he]
  apply if_neg
  intro hpasses
  have hcolumn := hpasses (i % w) (Nat.mod_lt i (Nat.pos_of_neZero w))
  rw [columnXor_of_only hlt, hoffset] at hcolumn
  · rw [hcolumn] at hi
    have hdata := (hburst _ hi).1
    omega
  · intro l hl hcol hli
    rw [hoffset]
    by_contra hbad
    obtain ⟨_, hllow, hlhigh⟩ := hburst l hbad
    -- two positions of one column are at least `w` apart
    have hapart : l = i := by
      have hl' := Nat.div_add_mod l w
      have hi' := Nat.div_add_mod i w
      have hquot : l / w = i / w := by
        by_contra hdiff
        rcases Nat.lt_or_gt_of_ne hdiff with hlt' | hgt'
        · have hmul := Nat.mul_le_mul_left w hlt'
          rw [Nat.mul_succ] at hmul
          omega
        · have hmul := Nat.mul_le_mul_left w hgt'
          rw [Nat.mul_succ] at hmul
          omega
      rw [← hl', ← hi', hquot, hcol]
    exact hli hapart

/-- Over an even number of key periods another key goes unnoticed. -/
theorem openBytes_even_periods (k k' : Fin p → UInt8) (plain : List UInt8) (hp : p % w = 0)
    (hlen : 2 * p ∣ plain.length) : openBytes w k' (sealBytes w k plain) ≠ none := by
  obtain ⟨q, hq⟩ := hlen
  have hzeros : ∀ n i, (List.replicate n (0 : UInt8)).getD i 0 = 0 := by
    intro n i
    rw [List.getD_eq_getElem?_getD, List.getElem?_replicate]
    split
    · rfl
    · rfl
  have hclean : corrupted (sealBytes w k plain) (List.replicate (plain.length + w) 0) =
      sealBytes w k plain := by
    apply List.ext_getElem
    · simp [corrupted]
    · intro i h₁ h₂
      simp [corrupted]
  have hopened := @openBytes_corrupted p w _ _ k k' plain
    (List.replicate (plain.length + w) 0) (by simp)
  rw [hclean] at hopened
  rw [hopened, if_pos]
  · exact Option.some_ne_none _
  · intro j _
    rw [hzeros, hq]
    apply columnXor_even_periods hp
    intro i
    have hpos : Fin.ofNat p (p + i) = Fin.ofNat p i := by
      ext
      simp
    simp only [offset, hzeros, hpos]

end Tag

end Base.XorCodec
