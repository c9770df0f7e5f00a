/-
Lib.Splice — editing a list that is kept in segments.

`insertAt`, `cut` and `window` are the three edits a text store needs: insert at a position, remove a
range, read a range. Each lemma says what the edit does to a concatenation, by where its positions fall
in the first part, so that an edit of a list of segments can be followed segment by segment.
-/
import Mathlib.Data.List.Basic

namespace RinRuntime.Lib.Splice
open List
variable {α : Type*} {first rest new : List α} {position stop : Nat}

/-- Insert `new` before `position`. -/
def insertAt (xs : List α) (position : Nat) (new : List α) : List α :=
  xs.take position ++ new ++ xs.drop position

/-- Remove the elements from `position` up to `stop`. -/
def cut (xs : List α) (position stop : Nat) : List α := xs.take position ++ xs.drop stop

/-- The elements from `position` up to `stop`. -/
def window (xs : List α) (position stop : Nat) : List α := (xs.take stop).drop position

/-- The `length` elements from `offset` on. -/
def slice (xs : List α) (offset length : Nat) : List α := (xs.drop offset).take length

/-! ## §1. Slices. -/

variable {xs : List α}

theorem length_slice {offset length : Nat} (h : offset + length ≤ xs.length) :
    (slice xs offset length).length = length := by
  rw [slice, length_take, length_drop]
  omega

/-- A slice splits at every point. -/
theorem slice_add (xs : List α) (offset a b : Nat) :
    slice xs offset (a + b) = slice xs offset a ++ slice xs (offset + a) b := by
  rw [slice, slice, slice, take_add, drop_drop]

theorem take_slice (xs : List α) (offset : Nat) {length n : Nat} (h : n ≤ length) :
    (slice xs offset length).take n = slice xs offset n := by
  rw [slice, slice, take_take, Nat.min_eq_left h]

theorem drop_slice (xs : List α) (offset length n : Nat) :
    (slice xs offset length).drop n = slice xs (offset + n) (length - n) := by
  rw [slice, slice, drop_take, drop_drop]

/-- A window of a slice is a slice. -/
theorem window_slice (xs : List α) (offset : Nat) {length : Nat} (position : Nat) (h : stop ≤ length) :
    window (slice xs offset length) position stop = slice xs (offset + position) (stop - position) := by
  rw [window, take_slice xs offset h, drop_slice]

/-- A slice of a buffer does not see what is appended to the buffer. -/
theorem slice_append {offset length : Nat} (h : offset + length ≤ xs.length)
    (more : List α) : slice (xs ++ more) offset length = slice xs offset length := by
  rw [slice, slice, drop_append_of_le_length (by omega),
    take_append_of_le_length (by rw [length_drop]; omega)]

/-- Behind a list lies what was appended to it. -/
theorem slice_appended (xs new : List α) : slice (xs ++ new) xs.length new.length = new := by
  rw [slice, drop_left, take_length]

/-! ## §2. Edits of a concatenation. -/

/-- An insertion goes into one of two pieces. -/
theorem insertAt_append_of_le (h : position ≤ first.length) :
    insertAt (first ++ rest) position new = insertAt first position new ++ rest := by
  rw [insertAt, insertAt, take_append_of_le_length h, drop_append_of_le_length h]
  simp

theorem insertAt_append_of_ge (h : first.length ≤ position) : insertAt (first ++ rest) position new
      = first ++ insertAt rest (position - first.length) new := by
  rw [insertAt, insertAt, take_append, drop_append, take_of_length_le h, drop_of_length_le h]
  simp

theorem cut_append_of_ge (h : first.length ≤ position) (hle : position ≤ stop) :
    cut (first ++ rest) position stop
      = first ++ cut rest (position - first.length) (stop - first.length) := by
  rw [cut, cut, take_append, drop_append, take_of_length_le h, drop_of_length_le (Nat.le_trans h hle)]
  simp

/-- A cut that begins in the first piece may run into the rest. -/
theorem cut_append_of_le (h : position ≤ first.length) : cut (first ++ rest) position stop
      = first.take position ++ first.drop stop ++ rest.drop (stop - first.length) := by
  rw [cut, take_append_of_le_length h, drop_append, append_assoc]

/-- A window of two pieces takes its share of each. -/
theorem window_append (position stop : Nat) : window (first ++ rest) position stop
      = window first position stop ++ window rest (position - first.length) (stop - first.length) := by
  unfold window
  rw [take_append, drop_append, length_take]
  rcases Nat.le_total stop first.length with h | h
  · rw [Nat.sub_eq_zero_of_le h]
    simp
  · rw [Nat.min_eq_right h]

theorem window_of_length_le (h : first.length ≤ position) : window first position stop = [] := by
  rw [window, drop_of_length_le]
  rw [length_take]
  omega

theorem window_zero (position : Nat) : window rest position 0 = [] := by
  rw [window, take_zero, drop_nil]

theorem length_window (h : stop ≤ xs.length) : (window xs position stop).length = stop - position := by
  rw [window, length_drop, length_take, Nat.min_eq_left h]

end RinRuntime.Lib.Splice
