import WebcamStreamer.RuntimeConfig

/-!
# The loop that fills in the placeholders

`writeRuntimeYml` replaces its placeholders in place: the loop searches the
contents from a position on, replaces what it finds, and moves the position
behind the value. The contents change under the search, and a value may have the
placeholder in it; but what is behind the position is always what is left of the
original text.

The loop is given its number of searches as fuel. It ends because each search
begins behind what was inserted, so that the part of the contents that is
still to be searched gets shorter; a placeholder in the value is never found,
and the value may be longer than what it replaces.
-/

namespace WebcamStreamer

variable {α : Type*} [DecidableEq α]

/-- `std::basic_string::find`: the first occurrence from a position on. -/
def findFromPos (needle contents : List α) (pos : ℕ) : Option ℕ :=
  if pos ≤ contents.length then
    (Replace.occurrence? needle (contents.drop pos)).map (pos + ·)
  else none

/-- The loop of `replaceAll`, as far as it gets with `fuel` searches: the
contents it ends with, and how many replacements it has made. -/
def replaceLoop (placeholder value : List α) :
    ℕ → List α → ℕ → ℕ → Option (List α × ℕ)
  | 0, _, _, _ => none
  | fuel + 1, contents, pos, replaced =>
    match findFromPos placeholder contents pos with
    | none => some (contents, replaced)
    | some pos =>
      replaceLoop placeholder value fuel
        (contents.take pos ++ value ++ contents.drop (pos + placeholder.length))
        (pos + value.length) (replaced + 1)

variable {placeholder : List α}

theorem findFromPos_append (needle done rest : List α) :
    findFromPos needle (done ++ rest) done.length
      = (Replace.occurrence? needle rest).map (done.length + ·) := by
  rw [findFromPos, if_pos (by simp), List.drop_left]

/-- **The loop in the middle of its work**: in front of the position stands what
it has done, and behind it what is left of the original content. -/
theorem replaceLoop_append {rest : List α} {pieces : List (List α)}
    (h : Replace.LeftmostCut placeholder rest pieces) (value done : List α)
    (fuel replaced : ℕ) :
    replaceLoop placeholder value fuel (done ++ rest) done.length replaced
      = if pieces.length ≤ fuel then
          some (done ++ value.intercalate pieces,
            replaced + (pieces.length - 1))
        else none := by
  induction h generalizing done fuel replaced with
  -- the search finds nothing, and the rest is the last piece
  | @last rest absent =>
    cases fuel with
    | zero => rfl
    | succ fuel =>
      have hone : [rest].length ≤ fuel + 1 :=
        Nat.succ_le_succ (Nat.zero_le fuel)
      rw [replaceLoop, findFromPos_append, Replace.occurrence?_eq_none absent,
        if_pos hone,
        List.intercalate_singleton]
      rfl
  | @cut piece rest pieces first behind ih =>
    cases fuel with
    | zero => exact (if_neg (by simp)).symm
    | succ fuel =>
      have hfind : findFromPos placeholder
          (done ++ (piece ++ placeholder ++ rest)) done.length
          = some (done.length + piece.length) := by
        rw [findFromPos_append, Replace.occurrence?_eq_some first]
        rfl
      have hpos : (done ++ piece).length = done.length + piece.length :=
        List.length_append
      have htake : (done ++ (piece ++ placeholder ++ rest)).take
          (done.length + piece.length)
          = done ++ piece := by
        rw [List.append_assoc piece, ← List.append_assoc done,
          List.take_left' hpos]
      have hdrop : (done ++ (piece ++ placeholder ++ rest)).drop
          (done.length + piece.length + placeholder.length) = rest := by
        rw [← List.append_assoc done, ← List.append_assoc done]
        exact List.drop_left' (by rw [List.length_append, hpos])
      -- the position moves behind the value, so that what is done grows by the
      -- piece and the value
      have hmoved : done.length + piece.length + value.length
          = (done ++ piece ++ value).length := by
        rw [List.length_append, hpos]
      rw [replaceLoop, hfind]
      simp only [htake, hdrop, hmoved]
      rw [ih (done ++ piece ++ value) fuel (replaced + 1),
        List.intercalate_cons_of_ne_nil behind.ne_nil]
      have hlen : 0 < pieces.length := List.length_pos_of_ne_nil behind.ne_nil
      have hcount : replaced + 1 + (pieces.length - 1)
          = replaced + ((piece :: pieces).length - 1) := by
        rw [List.length_cons]
        omega
      rw [hcount]
      simp [List.append_assoc]

/-- **The loop ends, and does not look again at what it inserted.** The
placeholder cuts the content at its leftmost occurrences that do not overlap, in
one way; after one search for each of the pieces the loop has ended, and has put
the value in the place of each of these occurrences, whatever the value is. -/
theorem replaceLoop_spec (hp : placeholder ≠ []) (value content : List α) :
    ∃ pieces, Replace.LeftmostCut placeholder content pieces
      ∧ (∀ pieces', Replace.LeftmostCut placeholder content pieces' →
        pieces' = pieces)
      ∧ placeholder.intercalate pieces = content
      ∧ ∀ fuel, replaceLoop placeholder value fuel content 0 0
        = if pieces.length ≤ fuel then
          some (value.intercalate pieces, pieces.length - 1)
          else none := by
  obtain ⟨pieces, h⟩ := Replace.exists_leftmostCut hp content
  refine ⟨pieces, h, fun pieces' h' => h'.unique h, h.intercalate_eq,
    fun fuel => ?_⟩
  have hloop := replaceLoop_append h value [] fuel 0
  rw [Nat.zero_add] at hloop
  exact hloop

/-- A value that has the placeholder in it. -/
theorem replaceLoop_spec_nested :
    ∃ pieces, Replace.LeftmostCut ['a', 'b'] ['c', 'a', 'b', 'a', 'b'] pieces
      ∧ (∀ pieces', Replace.LeftmostCut ['a', 'b'] ['c', 'a', 'b', 'a',
        'b'] pieces' →
          pieces' = pieces)
      ∧ ['a', 'b'].intercalate pieces = ['c', 'a', 'b', 'a', 'b']
      ∧ ∀ fuel, replaceLoop ['a', 'b'] ['a', 'a', 'b'] fuel ['c', 'a', 'b',
        'a', 'b'] 0 0
        = if pieces.length ≤ fuel then
          some (['a', 'a', 'b'].intercalate pieces, pieces.length - 1)
          else none :=
  replaceLoop_spec (by decide) ['a', 'a', 'b'] ['c', 'a', 'b', 'a', 'b']

/-! ## What is written

The loop of the source works in place and searches on behind what it has
inserted. It gives the same as the function of the general module, which all
other modules use, as soon as it is given enough time. -/

/-- **The loop ends with what the rest of the development calls
`replaceAll`**, once it is given time for its searches. The loop works on one
buffer and a position, which each round moves behind what it has put in. -/
theorem exists_replaceLoop_eq (hp : placeholder ≠ []) (value content : List α) :
    ∃ searches, ∀ fuel, searches ≤ fuel → ∃ replaced,
      replaceLoop placeholder value fuel content 0 0
        = some (Replace.replaceAll placeholder value content, replaced) := by
  obtain ⟨pieces, h⟩ := Replace.exists_leftmostCut hp content
  refine ⟨pieces.length, fun fuel hfuel => ⟨pieces.length - 1, ?_⟩⟩
  have hloop := replaceLoop_append h value [] fuel 0
  rw [if_pos hfuel, Nat.zero_add] at hloop
  rw [h.replaceAll_eq hp]
  exact hloop

end WebcamStreamer
