import Mathlib.Algebra.Ring.Nat
import Mathlib.Data.List.OfFn
import Mathlib.Logic.Function.Basic

/-!
# XOR stream with a column parity tag

A byte codec with a key of period `p` and a tag of width `w`. Sealing XORs the data with the
repeated key and appends, for each of the `w` columns, the XOR of the plaintext bytes whose
position falls in that column. Opening undoes the stream and accepts when the tag agrees.
`openBytes_eq_some_iff` says that opening accepts exactly the sealed strings, each with the
one plaintext it was sealed from.
-/

namespace Base.XorCodec

set_option autoImplicit false

variable {p w : Nat} [NeZero p] [NeZero w]

/-- `for (i = 0; i < len; i++) out[i] = data[i] ^ key[i % p];` -/
def xorStream (key : Fin p → UInt8) (data : List UInt8) : List UInt8 :=
  data.mapIdx fun i b => b ^^^ key (Fin.ofNat p i)

/-- `for (i = 0; i < len; i++) tag[i % w] ^= data[i];` on a tag of zeros. -/
def columnTag (w : Nat) [NeZero w] (data : List UInt8) : Fin w → UInt8 :=
  data.zipIdx.foldl
    (fun tag (b, i) => Function.update tag (Fin.ofNat w i) (tag (Fin.ofNat w i) ^^^ b))
    (fun _ => 0)

def sealBytes (w : Nat) [NeZero w] (key : Fin p → UInt8) (plain : List UInt8) : List UInt8 :=
  xorStream key plain ++ List.ofFn (columnTag w plain)

/-- The data and the trailing `w` bytes are split before the stream is undone. -/
def openBytes (w : Nat) [NeZero w] (key : Fin p → UInt8) (cipher : List UInt8) :
    Option (List UInt8) :=
  if cipher.length < w then none
  else
    let plain := xorStream key (cipher.take (cipher.length - w))
    if cipher.drop (cipher.length - w) = List.ofFn (columnTag w plain) then some plain else none

@[simp] theorem length_xorStream (key : Fin p → UInt8) (data : List UInt8) :
    (xorStream key data).length = data.length := by
  simp [xorStream]

theorem getElem_xorStream (key : Fin p → UInt8) (data : List UInt8) {i : Nat}
    (h : i < (xorStream key data).length) :
    (xorStream key data)[i] =
      data.get ⟨i, length_xorStream key data ▸ h⟩ ^^^ key (Fin.ofNat p i) := by
  simp [xorStream]

@[simp] theorem xorStream_xorStream (key : Fin p → UInt8) (data : List UInt8) :
    xorStream key (xorStream key data) = data := by
  apply List.ext_getElem (by simp)
  intro i h₁ h₂
  simp only [xorStream, List.getElem_mapIdx, UInt8.xor_assoc, UInt8.xor_self, UInt8.xor_zero]

/-- Two keys give the same stream over some data exactly when they agree at every position
the data reaches. -/
theorem xorStream_eq_iff (k₁ k₂ : Fin p → UInt8) (data : List UInt8) :
    xorStream k₁ data = xorStream k₂ data ↔
      ∀ i < data.length, k₁ (Fin.ofNat p i) = k₂ (Fin.ofNat p i) := by
  constructor
  · intro h i hi
    have hi₁ : i < (xorStream k₁ data).length := by simpa using hi
    have hi₂ : i < (xorStream k₂ data).length := by simpa using hi
    have hget : (xorStream k₁ data)[i] = (xorStream k₂ data)[i] := by simp only [h]
    rw [getElem_xorStream k₁ data hi₁, getElem_xorStream k₂ data hi₂] at hget
    exact (UInt8.xor_right_inj _).mp hget
  · intro h
    apply List.ext_getElem (by simp)
    intro i h₁ h₂
    rw [getElem_xorStream k₁ data h₁, getElem_xorStream k₂ data h₂,
      h i (by simpa using h₁)]

@[simp] theorem length_sealBytes (key : Fin p → UInt8) (plain : List UInt8) :
    (sealBytes w key plain).length = plain.length + w := by
  simp [sealBytes]

theorem openBytes_sealBytes (key : Fin p → UInt8) (plain : List UInt8) :
    openBytes w key (sealBytes w key plain) = some plain := by
  have hlen : (sealBytes w key plain).length - w = (xorStream key plain).length := by simp
  have hge : ¬ (sealBytes w key plain).length < w := by simp
  simp only [openBytes, if_neg hge, hlen]
  simp [sealBytes]

theorem sealBytes_of_openBytes {key : Fin p → UInt8} {cipher plain : List UInt8}
    (h : openBytes w key cipher = some plain) : sealBytes w key plain = cipher := by
  unfold openBytes at h
  split at h
  · cases h
  · dsimp only at h
    split at h
    · rename_i htag
      cases h
      simp only [sealBytes, xorStream_xorStream, ← htag, List.take_append_drop]
    · cases h

/-- Opening is the partial inverse of sealing, on exactly the sealed strings. -/
theorem openBytes_eq_some_iff (key : Fin p → UInt8) (cipher plain : List UInt8) :
    openBytes w key cipher = some plain ↔ cipher = sealBytes w key plain := by
  constructor
  · exact fun h => (sealBytes_of_openBytes h).symm
  · intro heq
    subst heq
    exact openBytes_sealBytes key plain

theorem length_of_openBytes {key : Fin p → UInt8} {cipher plain : List UInt8}
    (h : openBytes w key cipher = some plain) : cipher.length = plain.length + w := by
  rw [(openBytes_eq_some_iff key cipher plain).mp h, length_sealBytes]

theorem openBytes_within_eq_some_iff (key : Fin p → UInt8) (cipher plain : List UInt8)
    (bound : Nat) :
    (if bound < cipher.length - w then none else openBytes w key cipher) = some plain ↔
      openBytes w key cipher = some plain ∧ plain.length ≤ bound := by
  constructor
  · intro h
    split at h
    · cases h
    · have hlen := length_of_openBytes h
      exact ⟨h, by omega⟩
  · intro hall
    obtain ⟨h, hbound⟩ := hall
    have hlen := length_of_openBytes h
    rwa [if_neg (by omega)]

/-- A string sealed under one key opens to its own plaintext under another key only when the
keys agree at every position of the plaintext. -/
theorem openBytes_sealBytes_eq_some_iff (k₁ k₂ : Fin p → UInt8) (plain : List UInt8) :
    openBytes w k₂ (sealBytes w k₁ plain) = some plain ↔
      ∀ i < plain.length, k₁ (Fin.ofNat p i) = k₂ (Fin.ofNat p i) := by
  rw [openBytes_eq_some_iff, sealBytes, sealBytes, List.append_left_inj, xorStream_eq_iff]

end Base.XorCodec
