import TcpChat.Base.CString

/-!
# Texts put together in a buffer

A loop that appends line after line and stops once the text has reached a limit. Whether it got
to the end is a matter of the lengths alone.
-/

namespace Base

set_option autoImplicit false

namespace CString

/-- Lines are appended while the text is shorter than `limit`. -/
def appendWhile (limit : Nat) : List CString → CString → CString
  | [], buffer => buffer
  | line :: rest, buffer =>
    if buffer.length < limit then appendWhile limit rest (buffer ++ line) else buffer

section AppendWhile
variable {limit bound : Nat} {lines : List CString} {buffer : CString}

theorem appendWhile_of_le (h : limit ≤ buffer.length) : appendWhile limit lines buffer = buffer := by
  cases lines with
  | nil => rfl
  | cons line rest => exact if_neg (Nat.not_lt.mpr h)

theorem length_appendWhile_le (hline : ∀ line ∈ lines, line.length ≤ bound)
    (hbuffer : buffer.length ≤ limit + bound) :
    (appendWhile limit lines buffer).length ≤ limit + bound := by
  induction lines generalizing buffer with
  | nil => exact hbuffer
  | cons line rest ih =>
    rw [appendWhile]
    split
    · apply ih fun next hnext => hline next (List.mem_cons_of_mem line hnext)
      have hlength := hline line List.mem_cons_self
      rw [length_append]
      omega
    · exact hbuffer

theorem length_appendWhile_le_total (limit : Nat) (lines : List CString) (buffer : CString) :
    (appendWhile limit lines buffer).length ≤ buffer.length + (concat lines).length := by
  induction lines generalizing buffer with
  | nil => exact Nat.le_add_right _ _
  | cons line rest ih =>
    rw [appendWhile, concat_cons, length_append]
    split
    · have hrest := ih (buffer ++ line)
      rw [length_append] at hrest
      omega
    · omega

/-- All lines have been appended when the text is as long as they are. -/
theorem appendWhile_eq_of_length (hpos : ∀ line ∈ lines, 0 < line.length)
    (h : (appendWhile limit lines buffer).length = buffer.length + (concat lines).length) :
    appendWhile limit lines buffer = buffer ++ concat lines := by
  induction lines generalizing buffer with
  | nil => exact (append_empty buffer).symm
  | cons line rest ih =>
    rw [appendWhile, concat_cons, length_append] at h
    have hline := hpos line List.mem_cons_self
    split at h
    · rename_i hroom
      rw [appendWhile, if_pos hroom, concat_cons, ← append_assoc]
      apply ih fun next hnext => hpos next (List.mem_cons_of_mem line hnext)
      rw [h, length_append]
      omega
    · omega

/-- The loop gets to the end when the text is short of the limit before the last line. -/
theorem appendWhile_eq_iff (hpos : ∀ line ∈ lines, 0 < line.length) :
    appendWhile limit lines buffer = buffer ++ concat lines ↔
      lines = [] ∨ buffer.length + (concat lines.dropLast).length < limit := by
  induction lines generalizing buffer with
  | nil => exact iff_of_true (append_empty buffer).symm (Or.inl rfl)
  | cons line rest ih =>
    have hrest : ∀ next ∈ rest, 0 < next.length :=
      fun next hnext => hpos next (List.mem_cons_of_mem line hnext)
    rw [appendWhile]
    by_cases hroom : buffer.length < limit
    · rw [if_pos hroom, concat_cons, ← append_assoc, ih hrest]
      cases rest with
      | nil => exact iff_of_true (Or.inl rfl) (Or.inr hroom)
      | cons next rest =>
        simp only [reduceCtorEq, false_or, List.dropLast_cons_cons, concat_cons, length_append]
        rw [Nat.add_assoc]
    · rw [if_neg hroom]
      refine iff_of_false (fun heq => ?_) (fun h => ?_)
      · have hlength := congrArg length heq
        have hline := hpos line List.mem_cons_self
        rw [concat_cons, length_append, length_append] at hlength
        omega
      · rcases h with h | h
        · cases h
        · omega

end AppendWhile

end CString

end Base
