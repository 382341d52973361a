import Mathlib.Data.List.TakeWhile

/-!
# Lines of a stream that is read in chunks

A stream is a list of elements, one of which ends a line. `lines` are the lines
that are ended, and `tail` is what follows the last of them. A reader sees the
stream in chunks and keeps the tail of what it has seen; `lines_append` and
`tail_append` say that this is all it needs to keep.

A fact about all streams is proved line by line, `induction_on`.

Lines and tail determine the stream, and the stream is what the chunks are
joined to, so that nothing in a result has to mention where the chunks were
cut. The induction takes a stream apart at its ended lines, with a stream that
has none as the base, and it fits readers that look at one line at a time as
well as those that look at one element.
-/

namespace ChunkedLines

/-- What one read delivers: at least one element, and at most as many as the
buffer has room for. -/
structure Chunk (α : Type*) (room : ℕ) where
  elements : List α
  nonempty : elements ≠ []
  short : elements.length ≤ room

/-- The stream that is read in some chunks. -/
def stream {α : Type*} {room : ℕ} (chunks : List (Chunk α room)) : List α :=
  chunks.flatMap Chunk.elements

theorem stream_cons {α : Type*} {room : ℕ} (chunk : Chunk α room)
    (chunks : List (Chunk α room)) :
    stream (chunk :: chunks) = chunk.elements ++ stream chunks :=
  List.flatMap_cons

variable {α : Type*} [DecidableEq α] {stop : α}

/-- The lines that are ended. -/
def lines (stop : α) (s : List α) : List (List α) := (s.splitOn stop).dropLast

/-- What follows the last line that is ended. -/
def tail (stop : α) (s : List α) : List α :=
  (s.splitOn stop).getLast (List.splitOn_ne_nil stop s)

theorem lines_of_notMem {s : List α} (h : stop ∉ s) : lines stop s = [] := by
  rw [lines, List.splitOn_eq_singleton h]
  rfl

theorem tail_of_notMem {s : List α} (h : stop ∉ s) : tail stop s = s := by
  simp [tail, List.splitOn_eq_singleton h]

theorem lines_append_cons {l : List α} (h : stop ∉ l) (s : List α) :
    lines stop (l ++ stop :: s) = l :: lines stop s := by
  rw [lines, List.splitOn_append_cons_self_of_not_mem h,
    List.dropLast_cons_of_ne_nil (List.splitOn_ne_nil stop s), lines]

theorem tail_append_cons {l : List α} (h : stop ∉ l) (s : List α) :
    tail stop (l ++ stop :: s) = tail stop s := by
  simp only [tail, List.splitOn_append_cons_self_of_not_mem h]
  exact List.getLast_cons (List.splitOn_ne_nil stop s)

/-- **Line by line**: a stream without an ended line, or a line in front of
another stream. The recursion of the reader is on chunks, which cut a line
anywhere; the statements are about lines, and this is the induction they are
proved by. -/
@[elab_as_elim]
theorem induction_on {motive : List α → Prop} (s : List α)
    (unended : ∀ s, stop ∉ s → motive s)
    (line : ∀ l s, stop ∉ l → motive s → motive (l ++ stop :: s)) :
    motive s := by
  induction hn : s.length using Nat.strongRecOn generalizing s with
  | _ n ih =>
    by_cases h : stop ∈ s
    · obtain ⟨l, t, rfl, hl⟩ := List.eq_append_cons_of_mem h
      refine line l t hl (ih t.length ?_ t rfl)
      rw [← hn, List.length_append, List.length_cons]
      omega
    · exact unended s h

theorem stop_notMem_tail (s : List α) : stop ∉ tail stop s := by
  induction s using @induction_on _ _ stop with
  | unended s h => rwa [tail_of_notMem h]
  | line l s hl ih => rwa [tail_append_cons hl]

/-- **The lines of a stream that goes on**: those that are ended already, and
those that are ended once the tail goes on. -/
theorem lines_append (s t : List α) :
    lines stop (s ++ t) = lines stop s ++ lines stop (tail stop s ++ t) := by
  induction s using @induction_on _ _ stop with
  | unended s h => rw [lines_of_notMem h, tail_of_notMem h, List.nil_append]
  | line l s hl ih =>
    rw [List.append_assoc, List.cons_append, lines_append_cons hl,
      lines_append_cons hl,
      tail_append_cons hl, ih, List.cons_append]

/-- A stream is its lines, each with what ends it, and its tail. -/
theorem flatMap_lines_append_tail (s : List α) :
    (lines stop s).flatMap (fun l => l ++ [stop]) ++ tail stop s = s := by
  induction s using @induction_on _ _ stop with
  | unended s h =>
    rw [lines_of_notMem h, tail_of_notMem h, List.flatMap_nil, List.nil_append]
  | line l s hl ih =>
    rw [lines_append_cons hl, tail_append_cons hl, List.flatMap_cons,
      List.append_assoc, ih,
      List.append_assoc]
    rfl

omit [DecidableEq α] in
/-- What stands in front of a line end, and has none, stands in the line. -/
theorem prefix_of_prefix_append_cons {p l t : List α} (hp : stop ∉ p)
    (h : p <+: l ++ stop :: t) : p <+: l := by
  rcases List.prefix_or_prefix_of_prefix h
    (List.prefix_append l (stop :: t)) with hpl | ⟨q, rfl⟩
  · exact hpl
  · rw [List.prefix_append_right_inj] at h
    cases q with
    | nil => exact (List.append_nil l).symm ▸ List.prefix_rfl
    | cons c q =>
      obtain ⟨rfl, -⟩ := List.cons_prefix_cons.mp h
      exact absurd (List.mem_append_right l List.mem_cons_self) hp

theorem tail_append (s t : List α) :
    tail stop (s ++ t) = tail stop (tail stop s ++ t) := by
  induction s using @induction_on _ _ stop with
  | unended s h => rw [tail_of_notMem h]
  | line l s hl ih =>
    rw [List.append_assoc, List.cons_append, tail_append_cons hl,
      tail_append_cons hl, ih]

end ChunkedLines
