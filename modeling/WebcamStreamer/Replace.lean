import Mathlib.Data.List.Chain
import Mathlib.Data.List.Infix
import WebcamStreamer.ChunkedLines

/-!
# Replacing a placeholder

The leftmost non-overlapping occurrences of a placeholder in a list are replaced
by a value, from left to right, and what was inserted is not looked at again.
These occurrences cut the list into pieces, and replacing them is joining the
pieces with the value in between.

The placeholder is not empty in any of the results, since there would be no
end of occurrences otherwise. What is proved about a replacement never
mentions positions: the recursion consumes the list from the front, an
occurrence or one element at a time (`replaceAll_induction`), and a list is
taken apart at elements that no placeholder can reach across
(`replaceAll_append_cons`).
-/

namespace Replace

variable {α : Type*} [DecidableEq α]

/-- The list with every occurrence of `placeholder` replaced by `value`;
`skip` elements of an occurrence that was just replaced are still to be
passed over. -/
def replaceFrom (placeholder value : List α) : ℕ → List α → List α
  | _, [] => []
  | skip + 1, _ :: rest => replaceFrom placeholder value skip rest
  | 0, a :: rest =>
    if placeholder <+: a :: rest then
      value ++ replaceFrom placeholder value (placeholder.length - 1) rest
    else a :: replaceFrom placeholder value 0 rest

/-- The list with every occurrence of `placeholder` replaced by `value`. -/
def replaceAll (placeholder value content : List α) : List α :=
  replaceFrom placeholder value 0 content

/-- A content without the placeholder is left as it is. -/
theorem replaceAll_of_not_infix {placeholder value content : List α}
    (h : ¬ placeholder <:+: content) :
    replaceAll placeholder value content = content := by
  unfold replaceAll
  induction content with
  | nil => rfl
  | cons a rest ih =>
    rw [replaceFrom, if_neg (fun hp => h hp.isInfix),
      ih (fun hr => h (hr.trans (List.suffix_cons a rest).isInfix))]

section Lengths

variable {placeholder value : List α}

/-- A value that is no longer than the placeholder does not make the content
longer. -/
theorem length_replaceFrom_le (hp : placeholder ≠ [])
    (h : value.length ≤ placeholder.length)
    (skip : ℕ) (content : List α) :
    (replaceFrom placeholder value skip content).length + min skip
      content.length
      ≤ content.length := by
  induction content generalizing skip with
  | nil => simp [replaceFrom]
  | cons a rest ih =>
    have hpos : 0 < placeholder.length := List.length_pos_of_ne_nil hp
    cases skip with
    | succ skip =>
      have hrest := ih skip
      simp only [replaceFrom, List.length_cons]
      omega
    | zero =>
      rw [replaceFrom]
      split
      next hinit =>
        have hlen := hinit.length_le
        have hrest := ih (placeholder.length - 1)
        simp only [List.length_append, List.length_cons] at hlen ⊢
        omega
      next =>
        have hrest := ih 0
        simp only [List.length_cons]
        omega

/-- A value that is no shorter than the placeholder does not make the content
shorter. -/
theorem le_length_replaceFrom (hp : placeholder ≠ [])
    (h : placeholder.length ≤ value.length)
    (skip : ℕ) (content : List α) :
    content.length
      ≤ (replaceFrom placeholder value skip content).length
      + min skip content.length := by
  induction content generalizing skip with
  | nil => simp
  | cons a rest ih =>
    have hpos : 0 < placeholder.length := List.length_pos_of_ne_nil hp
    cases skip with
    | succ skip =>
      have hrest := ih skip
      simp only [replaceFrom, List.length_cons]
      omega
    | zero =>
      rw [replaceFrom]
      split
      next hinit =>
        have hlen := hinit.length_le
        have hrest := ih (placeholder.length - 1)
        simp only [List.length_append, List.length_cons] at hlen ⊢
        omega
      next =>
        have hrest := ih 0
        simp only [List.length_cons]
        omega

end Lengths

/-- A placeholder replaced by itself is left as it is. -/
theorem replaceFrom_self {placeholder : List α}
    (hp : placeholder ≠ []) (skip : ℕ)
    (content : List α) :
    replaceFrom placeholder placeholder skip content = content.drop skip := by
  induction content generalizing skip with
  | nil => simp [replaceFrom]
  | cons a rest ih =>
    cases skip with
    | succ skip => rw [replaceFrom, ih, List.drop_succ_cons]
    | zero =>
      rw [replaceFrom, ih, ih, List.drop_zero, List.drop_zero]
      split
      next hinit =>
        obtain ⟨after, hafter⟩ := hinit
        have hdrop : (a :: rest).drop placeholder.length = after := by
          rw [← hafter, List.drop_left]
        obtain ⟨n, hn⟩ :=
          Nat.exists_eq_succ_of_ne_zero (List.length_pos_of_ne_nil hp).ne'
        rw [hn] at hdrop ⊢
        rw [← hafter, ← hdrop]
        rfl
      next => rfl

/-- **When a replacement changes nothing**: there is nothing to replace, or it
is replaced by itself. The empty placeholder is excluded, since it occurs
everywhere and the loop would not end. -/
theorem replaceAll_eq_self_iff {placeholder value content : List α}
    (hp : placeholder ≠ []) :
    replaceAll placeholder value content = content
      ↔ placeholder <:+: content → value = placeholder := by
  constructor
  · unfold replaceAll
    intro h hinfix
    induction content with
    | nil => exact absurd (List.infix_nil.mp hinfix) hp
    | cons a rest ih =>
      rw [replaceFrom] at h
      split at h
      next hinit =>
        -- the first occurrence stands at the front, and lengths decide the rest
        obtain ⟨after, hafter⟩ := hinit
        have hpos : 0 < placeholder.length := List.length_pos_of_ne_nil hp
        have hlen := congrArg List.length h
        have hcontent := congrArg List.length hafter
        simp only [List.length_append, List.length_cons] at hlen hcontent
        have hsame : value.length = placeholder.length := by
          rcases Nat.lt_trichotomy value.length
            placeholder.length with hlt | heq | hgt
          · have hle :=
              length_replaceFrom_le hp hlt.le (placeholder.length - 1) rest
            omega
          · exact heq
          · have hle :=
              le_length_replaceFrom hp hgt.le (placeholder.length - 1) rest
            omega
        exact (List.append_inj (h.trans hafter.symm) hsame).1
      next hinit =>
        refine ih (List.cons.inj h).2 ?_
        exact (List.infix_cons_iff.mp hinfix).resolve_left hinit
  · intro h
    by_cases hinfix : placeholder <:+: content
    · rw [h hinfix]
      exact replaceFrom_self hp 0 content
    · exact replaceAll_of_not_infix hinfix

/-! ## The cases of a replacement

The function is defined with a counter of elements to skip, which no statement
should mention. The rules of this section are the ones to use: an occurrence
in front, an element that begins none, and an induction over both. -/

section Cases

variable {placeholder value : List α}

theorem replaceFrom_eq_replaceAll_drop (skip : ℕ) (content : List α) :
    replaceFrom placeholder value skip content
      = replaceAll placeholder value (content.drop skip) := by
  induction content generalizing skip with
  | nil => simp [replaceFrom, replaceAll]
  | cons a rest ih =>
    cases skip with
    | zero => rfl
    | succ skip => rw [replaceFrom, ih, List.drop_succ_cons]

@[simp] theorem replaceAll_nil : replaceAll placeholder value [] = [] := rfl

/-- An occurrence at the front is replaced. -/
theorem replaceAll_append_of_front (hp : placeholder ≠ []) (rest : List α) :
    replaceAll placeholder value (placeholder ++ rest)
      = value ++ replaceAll placeholder value rest := by
  obtain ⟨a, tail, rfl⟩ := List.exists_cons_of_ne_nil hp
  have hfront : a :: tail <+: a :: (tail ++ rest) := ⟨rest, rfl⟩
  rw [replaceAll, List.cons_append, replaceFrom, if_pos hfront,
    replaceFrom_eq_replaceAll_drop]
  simp

/-- An element that begins no occurrence is passed over. -/
theorem replaceAll_cons {a : α} {rest : List α}
    (h : ¬ placeholder <+: a :: rest) :
    replaceAll placeholder value (a :: rest)
      = a :: replaceAll placeholder value rest := by
  rw [replaceAll, replaceFrom, if_neg h]
  rfl

/-- **The induction rule**: to show something of every content and its
replacement, one looks at the empty content, at an occurrence in front, and at
an element in front that begins none. -/
theorem replaceAll_induction (hp : placeholder ≠ [])
    {motive : List α → List α → Prop}
    (nil : motive [] [])
    (front : ∀ rest, motive rest (replaceAll placeholder value rest) →
      motive (placeholder ++ rest) (value ++ replaceAll placeholder value rest))
    (cons : ∀ a rest, ¬ placeholder <+: a :: rest →
      motive rest (replaceAll placeholder value rest) →
      motive (a :: rest) (a :: replaceAll placeholder value rest))
    (content : List α) :
    motive content (replaceAll placeholder value content) := by
  match content with
  | [] => exact nil
  | a :: rest =>
    by_cases h : placeholder <+: a :: rest
    · obtain ⟨after, hafter⟩ := h
      rw [← hafter, replaceAll_append_of_front hp]
      exact front after (replaceAll_induction hp nil front cons after)
    · rw [replaceAll_cons h]
      exact cons a rest h (replaceAll_induction hp nil front cons rest)
  termination_by content.length
  decreasing_by
    · have hlen := congrArg List.length hafter
      have hpos := List.length_pos_of_ne_nil hp
      simp only [List.length_append] at hlen
      simp only [← hlen]
      omega
    · simp

/-- **A replacement does not look across an element the placeholder does not
have.** A long text with such elements in it can be replaced part by part,
which is how the template is dealt with. -/
theorem replaceAll_append_cons (hp : placeholder ≠ []) {c : α}
    (hc : c ∉ placeholder)
    (before after : List α) :
    replaceAll placeholder value (before ++ c :: after)
      = replaceAll placeholder value before ++ c
      :: replaceAll placeholder value after := by
  refine replaceAll_induction hp (motive := fun l r =>
    replaceAll placeholder value
    (l ++ c :: after) = r ++ c
      :: replaceAll placeholder value after) ?_ ?_ ?_ before
  · have hno : ¬ placeholder <+: [] ++ c :: after := fun h =>
      hp (List.prefix_nil.mp (ChunkedLines.prefix_of_prefix_append_cons hc h))
    exact replaceAll_cons hno
  · intro rest ih
    rw [List.append_assoc, replaceAll_append_of_front hp, ih, List.append_assoc]
  · intro a rest hno ih
    have hno' : ¬ placeholder <+: a :: (rest ++ c :: after) := fun h =>
      hno (ChunkedLines.prefix_of_prefix_append_cons (l := a :: rest) hc h)
    rw [List.cons_append, replaceAll_cons hno', ih]
    rfl

/-- Where every element of a class stays in front, and neither the placeholder
nor the value begins with one, the elements of that class in front stay the
same. -/
theorem takeWhile_replaceAll {f : α → Bool} (hp : placeholder ≠ [])
    (hph : ∀ a ∈ placeholder.head?, f a = false) (hvne : value ≠ [])
    (hvh : ∀ a ∈ value.head?, f a = false) (content : List α) :
    (replaceAll placeholder value content).takeWhile f
      = content.takeWhile f := by
  have hnone : ∀ {l rest : List α}, l ≠ [] → (∀ a ∈ l.head?, f a = false) →
      (l ++ rest).takeWhile f = [] := by
    intro l rest hl hhead
    obtain ⟨a, l, rfl⟩ := List.exists_cons_of_ne_nil hl
    exact List.takeWhile_cons_of_neg (by simp [hhead a rfl])
  refine replaceAll_induction hp (motive := fun l r => r.takeWhile f
    = l.takeWhile f) rfl ?_ ?_
    content
  · intro rest _
    rw [hnone hvne hvh, hnone hp hph]
  · intro a rest _ ih
    rw [List.takeWhile_cons, List.takeWhile_cons, ih]

/-- Every element afterwards was in the content, or is in the value. -/
theorem subset_replaceAll (hp : placeholder ≠ []) (content : List α) :
    replaceAll placeholder value content ⊆ content ++ value := by
  refine replaceAll_induction hp (motive := fun l r => r ⊆ l ++ value)
    (by simp) ?_ ?_ content
  · intro rest ih a ha
    rcases List.mem_append.mp ha with ha | ha
    · exact List.mem_append_right _ ha
    · rw [List.append_assoc]
      exact List.mem_append_right _ (ih ha)
  · intro a rest _ ih
    exact List.cons_subset_cons a ih

/-- What a content begins with afterwards is what it began with, or what the
value begins with. -/
theorem head?_replaceAll (hp : placeholder ≠ []) (hv : value ≠ [])
    (content : List α) :
    (replaceAll placeholder value content).head? = content.head?
      ∨ (replaceAll placeholder value content).head? = value.head? := by
  refine replaceAll_induction hp
    (motive := fun l r => r.head? = l.head? ∨
      r.head? = value.head?) (.inl rfl) ?_ ?_ content
  · intro rest _
    exact .inr (List.head?_append_of_ne_nil _ hv)
  · intro a rest _ _
    exact .inl rfl

/-- What a content ends with afterwards is what it ended with, or what the value
ends with. -/
theorem getLast?_replaceAll (hp : placeholder ≠ []) (hv : value ≠ [])
    (content : List α) :
    (replaceAll placeholder value content).getLast? = content.getLast?
      ∨ (replaceAll placeholder value content).getLast? = value.getLast? := by
  refine replaceAll_induction hp
    (motive := fun l r => r.getLast? = l.getLast? ∨
      r.getLast? = value.getLast?) (.inl rfl) ?_ ?_
    content
  · intro rest ih
    rw [List.getLast?_append, List.getLast?_append]
    rcases ih with ih | ih
    · cases h : rest.getLast? with
      | none => exact .inr (by rw [ih, h]; rfl)
      | some c => exact .inl (by rw [ih, h]; rfl)
    · exact .inr (by rw [ih, Option.or_self])
  · intro a rest _ ih
    rw [List.getLast?_cons, List.getLast?_cons]
    rcases ih with ih | ih
    · exact .inl (by rw [ih])
    · exact .inr (by rw [ih, List.getLast?_eq_some_getLast hv]; rfl)

/-- Neighbours stay in a relation that every element has to the first element of
the value, and the last element of the value to every element. -/
theorem isChain_replaceAll {rel : α → α → Prop} (hp : placeholder ≠ [])
    (hv : value ≠ [])
    (hvalue : value.IsChain rel) (hfirst : ∀ a, ∀ b ∈ value.head?, rel a b)
    (hlast : ∀ a ∈ value.getLast?, ∀ b, rel a b) {content : List α}
    (h : content.IsChain rel) :
    (replaceAll placeholder value content).IsChain rel := by
  revert h
  refine replaceAll_induction hp (motive := fun l r => l.IsChain rel →
    r.IsChain rel) id ?_ ?_
    content
  · intro rest ih h
    rw [List.isChain_append] at h ⊢
    exact ⟨hvalue, ih h.2.1, fun a ha b _ => hlast a ha b⟩
  · intro a rest _ ih h
    rw [List.isChain_cons] at h ⊢
    refine ⟨fun b hb => ?_, ih h.2⟩
    rcases head?_replaceAll hp hv rest with hhead | hhead
    · exact h.1 b (hhead ▸ hb)
    · exact hfirst a b (hhead ▸ hb)

end Cases

/-! ## The pieces around the occurrences

A replacement can also be seen as cutting the content at the leftmost
occurrences and joining the pieces again. The cut is unique, and joined with
the placeholder the pieces are the content. -/

section Pieces

variable {placeholder value : List α}

/-- Where the placeholder occurs first. -/
def occurrence? (placeholder : List α) : List α → Option ℕ
  | [] => if placeholder <+: [] then some 0 else none
  | a :: rest =>
    if placeholder <+: a :: rest then some 0
    else (occurrence? placeholder rest).map (· + 1)

/-- The pieces of a content around the leftmost occurrences of the placeholder
that do not overlap: each piece ends where the placeholder occurs first, the
search goes on behind that occurrence, and in the last piece there is none. -/
inductive LeftmostCut (placeholder : List α) : List α → List (List α) → Prop
  | last {rest : List α} (absent : ¬ placeholder <:+: rest) :
      LeftmostCut placeholder rest [rest]
  | cut {piece rest : List α} {pieces : List (List α)}
      (first : ∀ j < piece.length,
        ¬ placeholder <+: (piece ++ placeholder ++ rest).drop j)
      (behind : LeftmostCut placeholder rest pieces) :
      LeftmostCut placeholder (piece ++ placeholder ++ rest) (piece :: pieces)

theorem occurrence?_eq_none {content : List α}
    (h : ¬ placeholder <:+: content) :
    occurrence? placeholder content = none := by
  induction content with
  | nil => exact if_neg (fun hp => h hp.isInfix)
  | cons a rest ih =>
    rw [occurrence?, if_neg (fun hp => h hp.isInfix),
      ih (fun hr => h (hr.trans (List.suffix_cons a rest).isInfix))]
    rfl

theorem occurrence?_eq_some {piece rest : List α}
    (first : ∀ j < piece.length,
      ¬ placeholder <+: (piece ++ placeholder ++ rest).drop j) :
    occurrence? placeholder (piece ++ placeholder ++ rest)
      = some piece.length := by
  induction piece with
  | nil =>
    have hfront : placeholder <+: placeholder ++ rest := List.prefix_append _ _
    rw [List.nil_append]
    cases hcontent : placeholder ++ rest with
    | nil => exact if_pos (hcontent ▸ hfront)
    | cons a tail => exact if_pos (hcontent ▸ hfront)
  | cons a piece ih =>
    have hhead := first 0 (Nat.succ_pos _)
    rw [List.drop_zero] at hhead
    rw [List.cons_append, List.cons_append] at hhead ⊢
    rw [occurrence?, if_neg hhead,
      ih (fun j hj => first (j + 1) (Nat.succ_lt_succ hj))]
    rfl

/-- The first occurrence cuts the content in two. -/
theorem exists_cut {content : List α} (h : placeholder <:+: content) :
    ∃ piece rest, content = piece ++ placeholder ++ rest ∧
      ∀ j < piece.length, ¬ placeholder <+: content.drop j := by
  induction content with
  | nil =>
    exact ⟨[], [],
      by simp [List.infix_nil.mp h], fun j hj => absurd hj (Nat.not_lt_zero j)⟩
  | cons a content ih =>
    by_cases hfront : placeholder <+: a :: content
    · obtain ⟨rest, hrest⟩ := hfront
      exact ⟨[], rest, by rw [List.nil_append, hrest],
        fun j hj => absurd hj (Nat.not_lt_zero j)⟩
    · obtain ⟨piece, rest, rfl, first⟩ :=
        ih ((List.infix_cons_iff.mp h).resolve_left hfront)
      refine ⟨a :: piece, rest, rfl, fun j hj => ?_⟩
      cases j with
      | zero => exact hfront
      | succ j => exact first j (Nat.lt_of_succ_lt_succ hj)

theorem exists_leftmostCut (hp : placeholder ≠ []) (content : List α) :
    ∃ pieces, LeftmostCut placeholder content pieces := by
  by_cases h : placeholder <:+: content
  · obtain ⟨piece, rest, hcontent, first⟩ := exists_cut h
    obtain ⟨pieces, hpieces⟩ := exists_leftmostCut hp rest
    refine ⟨piece :: pieces, ?_⟩
    rw [hcontent] at first ⊢
    exact .cut first hpieces
  · exact ⟨[content], .last h⟩
  termination_by content.length
  decreasing_by
    have hlen := congrArg List.length hcontent
    have hpos := List.length_pos_of_ne_nil hp
    simp only [List.length_append] at hlen
    omega

omit [DecidableEq α] in
theorem LeftmostCut.ne_nil {content : List α} {pieces : List (List α)}
    (h : LeftmostCut placeholder content pieces) : pieces ≠ [] := by
  cases h <;> exact List.cons_ne_nil _ _

omit [DecidableEq α] in
/-- The pieces with the placeholder in between are the content. -/
theorem LeftmostCut.intercalate_eq {content : List α} {pieces : List (List α)}
    (h : LeftmostCut placeholder content pieces) :
    placeholder.intercalate pieces = content := by
  induction h with
  | last _ => exact List.intercalate_singleton
  | cut _ behind ih => rw [List.intercalate_cons_of_ne_nil behind.ne_nil, ih]

/-- **There is one way to cut a content** at the leftmost occurrences. Both
cuts have their first piece up to the leftmost occurrence, and what is behind
it is shorter. -/
theorem LeftmostCut.unique {content : List α} {pieces pieces' : List (List α)}
    (h : LeftmostCut placeholder content pieces)
    (h' : LeftmostCut placeholder content pieces') : pieces = pieces' := by
  induction h generalizing pieces' with
  | last absent =>
    cases h' with
    | last _ => rfl
    | cut _ _ => exact absurd ⟨_, _, rfl⟩ absent
  | @cut piece rest pieces first behind ih =>
    generalize hcontent : piece ++ placeholder ++ rest = content at h'
    cases h' with
    | last absent => exact absurd ⟨_, _, hcontent⟩ absent
    | @cut piece' rest' pieces' first' behind' =>
      have hsame := occurrence?_eq_some first
      rw [hcontent, occurrence?_eq_some first'] at hsame
      have hlen : piece.length = piece'.length := (Option.some.inj hsame).symm
      rw [List.append_assoc, List.append_assoc] at hcontent
      obtain ⟨rfl, hrest⟩ := List.append_inj hcontent hlen
      obtain rfl := List.append_cancel_left hrest
      rw [ih behind']

/-- **Replacing is joining the pieces** with the value in between. The value
is not searched again, so that it may have the placeholder in it. -/
theorem LeftmostCut.replaceAll_eq (hp : placeholder ≠ []) {content : List α}
    {pieces : List (List α)} (h : LeftmostCut placeholder content pieces) :
    replaceAll placeholder value content = value.intercalate pieces := by
  induction h with
  | last absent =>
    rw [List.intercalate_singleton]
    exact replaceAll_of_not_infix absent
  | @cut piece rest pieces first behind ih =>
    rw [List.intercalate_cons_of_ne_nil behind.ne_nil, ← ih]
    clear behind ih
    induction piece with
    | nil => exact replaceAll_append_of_front hp rest
    | cons a piece ih =>
      have hhead := first 0 (Nat.succ_pos _)
      rw [List.drop_zero] at hhead
      rw [List.cons_append, List.cons_append] at hhead ⊢
      rw [replaceAll_cons hhead,
        ih (fun j hj => first (j + 1) (Nat.succ_lt_succ hj))]
      rfl

end Pieces

end Replace
