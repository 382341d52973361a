import Mathlib.Data.List.Induction

/-!
# A buffered output stream

A stream on a file that was truncated when it was opened. What is inserted waits
in a buffer, and now and then the buffer is handed to the system, which may take
less than all of it. The stream has failed from then on: nothing that is
inserted later goes anywhere. Closing the stream hands over what is left, and
nobody asks whether that worked.

A program that writes is therefore a list of insertions with handovers anywhere
between them. What is on the disk at any time is the beginning of what was
inserted (`written_isPrefix`), and all of it once a stream that has not failed
is closed with success (`close_of_le`).
-/

namespace OutputStream

variable {α : Type*}

/-- What reached the file, what waits in the buffer, and whether a handover
failed. -/
structure Stream (α : Type*) where
  written : List α := []
  pending : List α := []
  failed : Bool := false

/-- What happens to a stream. -/
inductive Op (α : Type*) where
  | insert (chunk : List α)
  /-- The buffer is handed over and `n` elements of it are taken. -/
  | flush (n : ℕ)

namespace Stream

/-- One operation. -/
def apply (s : Stream α) : Op α → Stream α
  | .insert chunk =>
    if s.failed then s else { s with pending := s.pending ++ chunk }
  | .flush n =>
    if s.failed then s
    else if s.pending.length ≤ n then
      { s with written := s.written ++ s.pending, pending := [] }
    else
      { written := s.written ++ s.pending.take n, pending := [], failed := true }

/-- The stream after a list of operations. -/
def after (ops : List (Op α)) : Stream α := ops.foldl apply {}

/-- What is on the disk once the stream is closed, where the last handover takes
`n` elements. -/
def close (s : Stream α) (n : ℕ) : List α := (s.apply (.flush n)).written

end Stream

/-- What an operation inserts. -/
def Op.chunk : Op α → List α
  | .insert chunk => chunk
  | .flush _ => []

/-- What a list of operations inserts. -/
def inserted (ops : List (Op α)) : List α := ops.flatMap Op.chunk

namespace Stream

variable {s : Stream α} {ops : List (Op α)}

theorem after_append_singleton (ops : List (Op α)) (op : Op α) :
    after (ops ++ [op]) = (after ops).apply op := by
  rw [after, List.foldl_append, List.foldl_cons, List.foldl_nil]
  rfl

theorem inserted_append_singleton (ops : List (Op α)) (op : Op α) :
    inserted (ops ++ [op]) = inserted ops ++ op.chunk := by
  simp [inserted]

/-- **What a stream holds**: the file has the beginning of what was inserted,
and where no handover failed, file and buffer have all of it. -/
theorem after_spec (ops : List (Op α)) :
    (after ops).written <+: inserted ops ∧
      ((after ops).failed = false →
        (after ops).written ++ (after ops).pending = inserted ops) := by
  induction ops using List.reverseRecOn with
  | nil => exact ⟨List.nil_prefix, fun _ => rfl⟩
  | append_singleton ops op ih =>
    obtain ⟨hbegin, hall⟩ := ih
    have hmore : (after ops).written <+: inserted ops ++ op.chunk :=
      hbegin.trans (List.prefix_append _ _)
    rw [after_append_singleton, inserted_append_singleton]
    cases hfailed : (after ops).failed with
    | true =>
      have hstays : (after ops).apply op = after ops := by
        cases op <;> rw [apply, if_pos hfailed]
      rw [hstays]
      exact ⟨hmore, fun h => Bool.noConfusion (h.symm.trans hfailed)⟩
    | false =>
      have hhold := hall hfailed
      have hgo : ¬ (after ops).failed = true := by rw [hfailed]; decide
      cases op with
      | insert chunk =>
        rw [apply, if_neg hgo]
        refine ⟨hmore, fun _ => ?_⟩
        rw [← List.append_assoc, hhold]
        rfl
      | flush n =>
        rw [apply, if_neg hgo, Op.chunk, List.append_nil, ← hhold]
        split
        · exact ⟨List.prefix_refl _, fun _ => List.append_nil _⟩
        · exact ⟨List.prefix_append_right_inj _ |>.mpr (List.take_prefix _ _),
            fun h => Bool.noConfusion h⟩

/-- At any time the file has the beginning of what is inserted in the end. -/
theorem written_isPrefix {ops ops' : List (Op α)} (h : ops' <+: ops) :
    (after ops').written <+: inserted ops := by
  obtain ⟨rest, rfl⟩ := h
  refine (after_spec ops').1.trans ?_
  rw [inserted, inserted, List.flatMap_append]
  exact List.prefix_append _ _

/-- After it was closed too. -/
theorem close_isPrefix (ops : List (Op α)) (n : ℕ) :
    (after ops).close n <+: inserted ops := by
  have h := written_isPrefix (List.prefix_refl (ops ++ [Op.flush n]))
  rw [after_append_singleton, inserted_append_singleton, Op.chunk,
    List.append_nil] at h
  exact h

/-- A stream that has not failed and whose last handover takes all it holds
leaves everything. -/
theorem close_of_le {n : ℕ} (hfailed : (after ops).failed = false)
    (hn : (after ops).pending.length ≤ n) :
    (after ops).close n = inserted ops := by
  rw [close, apply, if_neg (by rw [hfailed]; decide), if_pos hn]
  exact (after_spec ops).2 hfailed

end Stream

end OutputStream
