import Mathlib.Algebra.Ring.Int.Defs
import Mathlib.Algebra.Ring.Nat
import Mathlib.Data.List.GetD
import TcpChat.Base.CString

/-!
# Texts written piece by piece into a buffer

`snprintf` returns the length the text would have had, so a writer that adds it to its pointer
leaves the buffer behind once a piece does not fit. Addresses are counted from the start of the
buffer. `Wrote` tells what such a writer stands for: a text, of which the buffer holds as much as
it can.
-/

namespace Base

set_option autoImplicit false

/-- What a call was given, and what it returned. -/
structure FormatCall where
  ptr : Int
  remaining : Int
  written : Int
  deriving DecidableEq

structure Writer where
  memory : Int → UInt8
  touched : List Int
  ptr : Int
  remaining : Int
  calls : List FormatCall

namespace Writer

/-- The memory with `bytes` stored from `ptr` on. -/
def store (memory : Int → UInt8) (ptr : Int) (bytes : List UInt8) (i : Int) : UInt8 :=
  if ptr ≤ i then bytes.getD (i - ptr).toNat (memory i) else memory i

/-- What `snprintf(ptr, remaining, "%s", text)` stores: `remaining` is converted to a size, and
the last byte is kept for the terminator. -/
def stored (remaining : Int) (text : CString) : List UInt8 :=
  let size := (remaining % 2 ^ 64).toNat
  if size = 0 then [] else text.bytes.take (size - 1) ++ [0]

/-- A length that is no `int` makes the call fail. -/
def returned (text : CString) : Int := if text.length < 2 ^ 31 then text.length else -1

/-- `written = snprintf(ptr, remaining, ...); ptr += written; remaining -= written`. -/
def format (w : Writer) (text : CString) : Writer where
  memory := store w.memory w.ptr (stored w.remaining text)
  touched := w.touched ++
    (List.range (stored w.remaining text).length).map fun k : Nat => w.ptr + k
  ptr := w.ptr + returned text
  remaining := w.remaining - returned text
  calls := w.calls ++ [⟨w.ptr, w.remaining, returned text⟩]

/-- A piece that is asked for is added while there is room. -/
def appendIf (w : Writer) (enabled : Bool) (text : CString) : Writer :=
  if enabled = true ∧ w.remaining > 0 then w.format text else w

/-- The pieces one after the other, each of them asked for or not. -/
def appendAll (w : Writer) (pieces : List (Bool × CString)) : Writer :=
  pieces.foldl (fun w piece => w.appendIf piece.1 piece.2) w

/-- The pieces that are asked for. -/
def enabled (pieces : List (Bool × CString)) : List CString :=
  (pieces.filter Prod.fst).map Prod.snd

/-- A writer at the start of a buffer of `size` bytes. -/
def start (memory : Int → UInt8) (size : Nat) : Writer := ⟨memory, [], 0, size, []⟩

/-- No call has failed. -/
def Succeeds (w : Writer) : Prop := ∀ call ∈ w.calls, 0 ≤ call.written

instance (w : Writer) : Decidable w.Succeeds :=
  inferInstanceAs (Decidable (∀ call ∈ w.calls, 0 ≤ call.written))

/-- The writer was used for `text` in a buffer of `size` bytes. -/
structure Wrote (memory : Int → UInt8) (size : Nat) (w : Writer) (text : List UInt8) : Prop where
  calls : ∀ call ∈ w.calls, call.ptr = size - call.remaining ∧ 0 < call.remaining
  touched : ∀ i ∈ w.touched, 0 ≤ i ∧ i < size
  kept : ∀ i : Int, i < 0 ∨ size ≤ i → w.memory i = memory i
  ptr_eq : w.ptr = size - w.remaining
  going : 0 < w.remaining → w.remaining = size - text.length
  full : w.remaining ≤ 0 → size ≤ text.length
  text_stored : ∀ i < min (size - 1) text.length, w.memory i = text.getD i 0
  terminated : w.calls ≠ [] → w.memory (min (size - 1) text.length : Nat) = 0

section Store
variable {memory : Int → UInt8} {ptr : Int} {bytes : List UInt8} {i : Int}

theorem store_of_lt (h : i < ptr) : store memory ptr bytes i = memory i :=
  if_neg (Int.not_le.mpr h)

theorem store_of_ge (h : ptr + bytes.length ≤ i) : store memory ptr bytes i = memory i := by
  rw [store, if_pos (by omega), List.getD_eq_getElem?_getD, List.getElem?_eq_none (by omega)]
  rfl

theorem store_add {k : Nat} (h : k < bytes.length) :
    store memory ptr bytes (ptr + k) = bytes.getD k 0 := by
  have hback : (ptr + k - ptr).toNat = k := by omega
  rw [store, if_pos (by omega), hback, List.getD_eq_getElem?_getD, List.getD_eq_getElem?_getD,
    List.getElem?_eq_getElem h]
  rfl

end Store

section Pieces
variable {memory : Int → UInt8} {size : Nat} {w : Writer} {text : List UInt8} {piece : CString}

theorem wrote_start (memory : Int → UInt8) {size : Nat} (hsize : 0 < size) :
    Wrote memory size (start memory size) [] where
  calls := fun _ h => absurd h List.not_mem_nil
  touched := fun _ h => absurd h List.not_mem_nil
  kept := fun _ _ => rfl
  ptr_eq := (Int.sub_self _).symm
  going := fun _ => (Int.sub_zero _).symm
  full := fun h => absurd h (by change ¬ (size : Int) ≤ 0; omega)
  text_stored := fun _ h => absurd h (by simp)
  terminated := fun h => absurd rfl h

theorem stored_eq {room : Nat} (hpos : 0 < room) (hroom : room < 2 ^ 64) :
    stored room piece = piece.bytes.take (room - 1) ++ [0] := by
  have hsize : ((room : Int) % 2 ^ 64).toNat = room := by omega
  rw [stored, hsize]
  exact if_neg (by omega)

theorem length_stored {room : Nat} (hpos : 0 < room) (hroom : room < 2 ^ 64) :
    (stored room piece).length = min (room - 1) piece.length + 1 := by
  rw [stored_eq hpos hroom, List.length_append, List.length_take]
  rfl

theorem getD_stored {room k : Nat} (hpos : 0 < room) (hroom : room < 2 ^ 64)
    (hk : k < min (room - 1) piece.length) :
    (stored room piece).getD k 0 = piece.bytes.getD k 0 := by
  have hkept : k < (piece.bytes.take (room - 1)).length := by
    rw [List.length_take]
    exact hk
  rw [stored_eq hpos hroom, List.getD_append _ _ _ _ hkept, List.getD_eq_getElem?_getD,
    List.getD_eq_getElem?_getD, List.getElem?_take_of_lt (by omega)]

theorem getD_stored_end {room : Nat} (hpos : 0 < room) (hroom : room < 2 ^ 64) :
    (stored room piece).getD (min (room - 1) piece.length) 0 = 0 := by
  have hend : (piece.bytes.take (room - 1)).length = min (room - 1) piece.length :=
    List.length_take
  rw [stored_eq hpos hroom, List.getD_append_right _ _ _ _ hend.le, hend, Nat.sub_self]
  rfl

theorem returned_eq (h : 0 ≤ returned piece) : returned piece = piece.length := by
  unfold returned at h ⊢
  split
  · rfl
  · rename_i hlong
    rw [if_neg hlong] at h
    omega

/-- Once the buffer is full nothing is added. -/
theorem Wrote.skip (h : Wrote memory size w text) (hfull : w.remaining ≤ 0) :
    Wrote memory size w (text ++ piece.bytes) := by
  have hlong := h.full hfull
  have hmin : min (size - 1) (text ++ piece.bytes).length = min (size - 1) text.length := by
    rw [List.length_append]
    omega
  refine ⟨h.calls, h.touched, h.kept, h.ptr_eq, fun hpos => by omega, ?_, ?_, ?_⟩
  · intro _
    rw [List.length_append]
    omega
  · intro i hi
    rw [hmin] at hi
    rw [h.text_stored i hi, List.getD_append _ _ _ _ (by omega)]
  · rw [hmin]
    exact h.terminated

/-- While there is room a piece goes on where the text ends. -/
theorem Wrote.format (h : Wrote memory size w text) (hsize : size < 2 ^ 64)
    (hroom : 0 < w.remaining) (hok : 0 ≤ returned piece) :
    Wrote memory size (w.format piece) (text ++ piece.bytes) := by
  have hremaining := h.going hroom
  have hptr : w.ptr = text.length := by
    rw [h.ptr_eq, hremaining]
    omega
  have hshort : text.length < size := by omega
  obtain ⟨room, hroom_eq⟩ : ∃ room : Nat, w.remaining = room ∧ room = size - text.length :=
    ⟨size - text.length, by omega, rfl⟩
  have hlength := @length_stored piece room (by omega) (by omega)
  rw [← hroom_eq.1] at hlength
  have hwritten := returned_eq hok
  have htotal : (text ++ piece.bytes).length = text.length + piece.length := List.length_append
  have hmin : min (size - 1) (text ++ piece.bytes).length =
      text.length + min (room - 1) piece.length := by
    rw [htotal]
    omega
  constructor
  · intro call hcall
    rcases List.mem_append.mp hcall with hold | hnew
    · exact h.calls call hold
    · rw [List.mem_singleton.mp hnew]
      exact ⟨h.ptr_eq, hroom⟩
  · intro i hi
    rcases List.mem_append.mp hi with hold | hnew
    · exact h.touched i hold
    · obtain ⟨k, hk, rfl⟩ := List.mem_map.mp hnew
      have hk := List.mem_range.mp hk
      omega
  · intro i hi
    rw [← h.kept i hi]
    rcases hi with hbefore | hbehind
    · exact store_of_lt (by omega)
    · exact store_of_ge (by omega)
  · change w.ptr + returned piece = size - (w.remaining - returned piece)
    rw [h.ptr_eq]
    omega
  · intro _
    change w.remaining - returned piece = size - (text ++ piece.bytes).length
    omega
  · intro hover
    change w.remaining - returned piece ≤ 0 at hover
    omega
  · intro i hi
    rw [hmin] at hi
    by_cases hold : i < text.length
    · rw [List.getD_append _ _ _ _ hold, ← h.text_stored i (by omega)]
      exact store_of_lt (by omega)
    · obtain ⟨k, rfl⟩ := Nat.exists_eq_add_of_le (Nat.not_lt.mp hold)
      have hat : ((text.length + k : Nat) : Int) = w.ptr + k := by omega
      rw [hat]
      refine (store_add (by omega)).trans ?_
      rw [hroom_eq.1, getD_stored (by omega) (by omega) (by omega),
        List.getD_append_right _ _ _ _ (Nat.le_add_right _ _), Nat.add_sub_cancel_left]
  · intro _
    rw [hmin]
    have hat : ((text.length + min (room - 1) piece.length : Nat) : Int) =
        w.ptr + (min (room - 1) piece.length : Nat) := by
      omega
    rw [hat]
    refine (store_add (by omega)).trans ?_
    rw [hroom_eq.1]
    exact getD_stored_end (by omega) (by omega)

theorem Succeeds.of_format (h : (w.format piece).Succeeds) :
    w.Succeeds ∧ 0 ≤ returned piece := by
  constructor
  · intro call hcall
    exact h call (List.mem_append_left _ hcall)
  · exact h ⟨w.ptr, w.remaining, returned piece⟩ (List.mem_append_right _ List.mem_cons_self)

theorem Succeeds.of_appendIf {asked : Bool} (h : (w.appendIf asked piece).Succeeds) :
    w.Succeeds := by
  unfold appendIf at h
  split at h
  · exact h.of_format.1
  · exact h

theorem Succeeds.of_appendAll {pieces : List (Bool × CString)}
    (h : (w.appendAll pieces).Succeeds) : w.Succeeds := by
  induction pieces generalizing w with
  | nil => exact h
  | cons piece rest ih => exact (ih h).of_appendIf

theorem Wrote.appendIf {asked : Bool} (h : Wrote memory size w text) (hsize : size < 2 ^ 64)
    (hok : (w.appendIf asked piece).Succeeds) :
    Wrote memory size (w.appendIf asked piece)
      (text ++ if asked then piece.bytes else []) := by
  unfold Writer.appendIf at hok ⊢
  cases asked with
  | false =>
    rw [if_neg (fun hall => Bool.false_ne_true hall.1), if_neg Bool.false_ne_true,
      List.append_nil]
    exact h
  | true =>
    rw [if_pos rfl]
    by_cases hroom : w.remaining > 0
    · rw [if_pos ⟨rfl, hroom⟩] at hok ⊢
      exact h.format hsize hroom hok.of_format.2
    · rw [if_neg (fun hall => hroom hall.2)]
      exact h.skip (Int.not_lt.mp hroom)

theorem Wrote.appendAll {pieces : List (Bool × CString)} (h : Wrote memory size w text)
    (hsize : size < 2 ^ 64) (hok : (w.appendAll pieces).Succeeds) :
    Wrote memory size (w.appendAll pieces)
      (text ++ (CString.concat (enabled pieces)).bytes) := by
  induction pieces generalizing w text with
  | nil =>
    rw [enabled, List.filter_nil, List.map_nil, CString.concat_nil, CString.bytes_empty,
      List.append_nil]
    exact h
  | cons piece rest ih =>
    obtain ⟨asked, piece⟩ := piece
    have hfirst := h.appendIf hsize (Succeeds.of_appendAll hok)
    have hall := ih hfirst hok
    rw [List.append_assoc] at hall
    cases asked with
    | false => exact hall
    | true => exact hall

theorem calls_appendAll_of_ne_nil {pieces : List (Bool × CString)} (h : w.calls ≠ []) :
    (w.appendAll pieces).calls ≠ [] := by
  induction pieces generalizing w with
  | nil => exact h
  | cons piece rest ih =>
    apply ih
    change (w.appendIf piece.1 piece.2).calls ≠ []
    unfold appendIf
    split
    · simp [Writer.format]
    · exact h

/-- While there is room a call is made for the first piece that is asked for. -/
theorem calls_appendAll_ne_nil {pieces : List (Bool × CString)} (hroom : 0 < w.remaining)
    (hasked : ∃ piece ∈ pieces, piece.1 = true) : (w.appendAll pieces).calls ≠ [] := by
  induction pieces with
  | nil =>
    obtain ⟨_, hmem, _⟩ := hasked
    exact absurd hmem List.not_mem_nil
  | cons piece rest ih =>
    change ((w.appendIf piece.1 piece.2).appendAll rest).calls ≠ []
    cases hpiece : piece.1 with
    | true =>
      apply calls_appendAll_of_ne_nil
      rw [appendIf, if_pos ⟨rfl, hroom⟩]
      simp [Writer.format]
    | false =>
      rw [appendIf, if_neg (fun hall => Bool.false_ne_true hall.1)]
      apply ih
      obtain ⟨asked, hmem, htrue⟩ := hasked
      rcases List.mem_cons.mp hmem with rfl | hmem
      · rw [htrue] at hpiece
        cases hpiece
      · exact ⟨asked, hmem, htrue⟩

/-- The text in the buffer, up to its terminator. -/
def record (w : Writer) (size : Nat) : CString :=
  CString.ofBuffer ((List.range size).map fun k : Nat => w.memory k)

/-- The buffer holds the text, cut to what fits in front of the terminator. -/
theorem Wrote.record_eq {text : CString} (h : Wrote memory size w text.bytes) (hsize : 0 < size)
    (hcalls : w.calls ≠ []) : w.record size = text.take (size - 1) := by
  have hlen : text.length = text.bytes.length := rfl
  obtain ⟨n, hn⟩ : ∃ n, n = min (size - 1) text.bytes.length := ⟨_, rfl⟩
  have hrange : List.range size =
      List.range n ++ n :: (List.range (size - n - 1)).map fun k => n + (k + 1) := by
    have hsum : size = n + (size - n - 1 + 1) := by omega
    conv_lhs => rw [hsum, List.range_add, List.range_succ_eq_map]
    simp [Function.comp_def]
  have hbytes : (List.range n).map (fun k : Nat => w.memory k) = (text.take (size - 1)).bytes := by
    rw [CString.bytes_take]
    apply List.ext_getElem
    · rw [List.length_map, List.length_range, List.length_take, hn]
    · intro i hi hi'
      rw [List.length_map, List.length_range] at hi
      rw [List.getElem_map, List.getElem_range, List.getElem_take,
        h.text_stored i (by omega), List.getD_eq_getElem _ _ (by omega)]
  have hend := h.terminated hcalls
  rw [← hn] at hend
  rw [record, hrange, List.map_append, List.map_cons, hbytes, hend]
  exact CString.ofBuffer_append_zero _ _

end Pieces

end Writer

end Base
