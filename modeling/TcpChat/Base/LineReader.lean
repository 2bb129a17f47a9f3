import Mathlib.Data.List.Basic

/-!
# Reading line by line into a buffer

A call of the reader takes what comes up to and with the next stop, but no more than the buffer
has room for. So a line that is too long comes in several pieces.
-/

namespace Base.LineReader

set_option autoImplicit false

universe u
variable {α : Type u} (stop : α → Bool)

/-- What one call reads with room for `n` items, and what is left. -/
def readLine : Nat → List α → List α × List α
  | _, [] => ([], [])
  | 0, input => ([], input)
  | n + 1, a :: input =>
    if stop a then ([a], input)
    else (a :: (readLine n input).1, (readLine n input).2)

variable {stop} {n : Nat} {input line rest : List α} {s : α}

theorem readLine_append (n : Nat) (input : List α) :
    (readLine stop n input).1 ++ (readLine stop n input).2 = input := by
  induction input generalizing n with
  | nil => cases n <;> rfl
  | cons a input ih =>
    cases n with
    | zero => rfl
    | succ n =>
      rw [readLine]
      split
      · rfl
      · exact congrArg (a :: ·) (ih n)

theorem length_readLine_le (n : Nat) (input : List α) : (readLine stop n input).1.length ≤ n := by
  induction input generalizing n with
  | nil => cases n <;> exact Nat.zero_le _
  | cons a input ih =>
    cases n with
    | zero => exact Nat.zero_le _
    | succ n =>
      rw [readLine]
      split
      · exact Nat.succ_le_succ (Nat.zero_le n)
      · exact Nat.succ_le_succ (ih n)

/-- A call with room for something reads something. -/
theorem length_rest_lt (hn : 0 < n) (h : input ≠ []) :
    (readLine stop n input).2.length < input.length := by
  obtain ⟨a, input, rfl⟩ := List.exists_cons_of_ne_nil h
  obtain ⟨n, rfl⟩ := Nat.exists_eq_succ_of_ne_zero (Nat.ne_of_gt hn)
  rw [readLine]
  split
  · exact Nat.lt_succ_self _
  · have hlength := congrArg List.length (@readLine_append _ stop n input)
    rw [List.length_append] at hlength
    dsimp only
    rw [List.length_cons]
    omega

/-- A line with its stop that fits is read as it is. -/
theorem readLine_line (hline : ∀ a ∈ line, stop a = false) (hs : stop s = true)
    (hfits : line.length < n) : readLine stop n (line ++ s :: rest) = (line ++ [s], rest) := by
  induction line generalizing n with
  | nil =>
    obtain ⟨n, rfl⟩ := Nat.exists_eq_succ_of_ne_zero (Nat.ne_of_gt hfits)
    exact if_pos hs
  | cons a line ih =>
    obtain ⟨n, rfl⟩ := Nat.exists_eq_succ_of_ne_zero (Nat.ne_zero_of_lt hfits)
    rw [List.cons_append, readLine, if_neg (by simp [hline a List.mem_cons_self]),
      ih (fun b hb => hline b (List.mem_cons_of_mem a hb)) (Nat.lt_of_succ_lt_succ hfits)]
    rfl

/-- Of a line that does not fit as much is read as there is room for. -/
theorem readLine_long (hline : ∀ a ∈ line, stop a = false) (hlong : n ≤ line.length) :
    readLine stop n (line ++ rest) = (line.take n, line.drop n ++ rest) := by
  induction line generalizing n with
  | nil =>
    obtain rfl := Nat.le_zero.mp hlong
    cases rest <;> rfl
  | cons a line ih =>
    cases n with
    | zero => rfl
    | succ n =>
      rw [List.cons_append, readLine, if_neg (by simp [hline a List.mem_cons_self]),
        ih (fun b hb => hline b (List.mem_cons_of_mem a hb)) (Nat.le_of_succ_le_succ hlong)]
      rfl

variable (stop n) in
/-- What the calls return one after the other, up to the end of the input. -/
def pieces (input : List α) : List (List α) :=
  if _ : n = 0 ∨ input = [] then []
  else (readLine stop n input).1 :: pieces (readLine stop n input).2
termination_by input.length
decreasing_by
  rename_i hend
  exact length_rest_lt (Nat.pos_of_ne_zero fun hn => hend (Or.inl hn)) fun hnil => hend (Or.inr hnil)

@[simp] theorem pieces_nil : pieces stop n [] = [] := by
  rw [pieces, dif_pos (Or.inr rfl)]

theorem pieces_of_ne_nil (hn : 0 < n) (h : input ≠ []) :
    pieces stop n input =
      (readLine stop n input).1 :: pieces stop n (readLine stop n input).2 := by
  rw [pieces, dif_neg]
  rintro (hzero | hnil)
  · exact Nat.ne_of_gt hn hzero
  · exact h hnil

theorem length_of_mem_pieces {piece : List α} (h : piece ∈ pieces stop n input) :
    piece.length ≤ n := by
  induction input using pieces.induct stop n with
  | case1 input hend =>
    rw [pieces, dif_pos hend] at h
    cases h
  | case2 input hend ih =>
    rw [pieces, dif_neg hend] at h
    rcases List.mem_cons.mp h with rfl | hlater
    · exact length_readLine_le n input
    · exact ih hlater

/-- A stop ends a piece, however long the line in front of it is. -/
theorem pieces_line (hn : 0 < n) (hline : ∀ a ∈ line, stop a = false) (hs : stop s = true) :
    pieces stop n (line ++ s :: rest) = pieces stop n (line ++ [s]) ++ pieces stop n rest := by
  induction hlength : line.length using Nat.strongRecOn generalizing line with
  | ind length ih =>
    have hne : ∀ tail : List α, line ++ s :: tail ≠ [] := fun tail => by simp
    by_cases hfits : line.length < n
    · rw [pieces_of_ne_nil hn (hne rest), pieces_of_ne_nil hn (hne []),
        readLine_line hline hs hfits, readLine_line hline hs hfits, pieces_nil]
      rfl
    · have hlong : n ≤ line.length := Nat.le_of_not_lt hfits
      have hdrop : ∀ a ∈ line.drop n, stop a = false := fun a ha => hline a (List.mem_of_mem_drop ha)
      rw [pieces_of_ne_nil hn (hne rest), pieces_of_ne_nil hn (hne []),
        readLine_long hline hlong, readLine_long hline hlong]
      have hless : (line.drop n).length < length := by
        rw [List.length_drop]
        omega
      dsimp only
      rw [ih _ hless hdrop rfl]
      rfl

theorem pieces_of_fits (hline : ∀ a ∈ line, stop a = false) (hs : stop s = true)
    (hfits : line.length < n) : pieces stop n (line ++ [s]) = [line ++ [s]] := by
  have hne : line ++ [s] ≠ [] := by simp
  rw [pieces_of_ne_nil (Nat.zero_lt_of_lt hfits) hne, readLine_line hline hs hfits, pieces_nil]

/-- Lines that fit are read one by one. -/
theorem pieces_lines {lines : List (List α)} (hs : stop s = true)
    (h : ∀ line ∈ lines, line.length < n ∧ ∀ a ∈ line, stop a = false) :
    pieces stop n (lines.flatMap (· ++ [s])) = lines.map (· ++ [s]) := by
  induction lines with
  | nil => exact pieces_nil
  | cons line lines ih =>
    obtain ⟨hfits, hline⟩ := h line List.mem_cons_self
    rw [List.flatMap_cons, List.append_assoc, List.singleton_append,
      pieces_line (Nat.zero_lt_of_lt hfits) hline hs, pieces_of_fits hline hs hfits,
      ih fun l hl => h l (List.mem_cons_of_mem line hl)]
    rfl

end Base.LineReader
