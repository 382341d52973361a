import Mathlib.Data.List.Basic

/-!
# Slugs

A slug keeps some elements of a list and puts one dash in the place of every run
of others; dashes at the end are cut off. So it is the runs of kept elements
with a dash between them, and one in front if the list does not start with a
kept element: the list is known from its slug up to what the runs of others are
made of, and up to how it ends.
-/

namespace Slugs

/-! ## Runs

These depend on which elements are kept alone, and not on what is written in
the place of the others. -/

section Runs

variable {α : Type*} (keep : α → Bool)

/-- What stands between the elements that are not kept. -/
def pieces (t : List α) : List (List α) := t.splitOnP (fun c => !keep c)

/-- The maximal runs of kept elements. -/
def runs (t : List α) : List (List α) :=
  (pieces keep t).filter (fun r => !r.isEmpty)

/-- The list starts with an element that is not kept. -/
def startsOff (t : List α) : Bool := t.head?.any (fun c => !keep c)

end Runs

/-- The elements that are kept, and the dash, which is none of them. -/
structure Charset (α : Type*) where
  keep : α → Bool
  dash : α
  keep_dash : keep dash = false

namespace Charset

variable {α : Type*} (s : Charset α)

/-- The elements that are kept, and a dash for every run of others; `prevDash`
says that a dash was written last. -/
def squeeze : Bool → List α → List α
  | _, [] => []
  | prevDash, c :: cs =>
    if s.keep c then c :: squeeze false cs
    else if prevDash then squeeze true cs
    else s.dash :: squeeze true cs

/-- The list without the dashes at its end. -/
def trim [DecidableEq α] (t : List α) : List α :=
  (t.reverse.dropWhile (· == s.dash)).reverse

/-- The slug of a list. -/
def slug [DecidableEq α] (t : List α) : List α := s.trim (s.squeeze false t)

/-- The first piece, and the others that are not empty. -/
def parts (t : List α) : List (List α) :=
  match pieces s.keep t with
  | [] => []
  | p :: ps => p :: ps.filter (fun r => !r.isEmpty)

/-- Every list with a dash in front. -/
def dashed (rs : List (List α)) : List α := rs.flatMap (fun r => s.dash :: r)

variable {s} {t u : List α} {c : α}

/-! ## The loop

The loop remembers whether it has just written a dash, and writes one only
where it has not. What it writes can be seen from the pieces of the list
alone. -/

theorem pieces_cons_of_keep (h : s.keep c = true) :
    pieces s.keep (c :: t) = (pieces s.keep t).modifyHead (c :: ·) := by
  rw [pieces, List.splitOnP_cons_eq_if_modifyHead, if_neg (by simp [h])]
  rfl

theorem pieces_cons_of_not_keep (h : s.keep c = false) :
    pieces s.keep (c :: t) = [] :: pieces s.keep t := by
  rw [pieces, List.splitOnP_cons_eq_if_modifyHead, if_pos (by simp [h])]
  rfl

theorem exists_pieces (s : Charset α) (t : List α) :
    ∃ p ps, pieces s.keep t = p :: ps :=
  List.exists_cons_of_ne_nil (List.splitOnP_ne_nil _ t)

/-- A list is its pieces with a dash between them, if it has dashes there. -/
theorem intercalate_eq (p : List α) (ps : List (List α)) :
    [s.dash].intercalate (p :: ps) = p ++ s.dashed ps := by
  induction ps generalizing p with
  | nil => simp [dashed]
  | cons q qs ih =>
    rw [List.intercalate_cons_cons, ih, List.append_assoc]
    rfl

/-- A run of elements that are not kept is one dash. -/
theorem squeeze_append_of_not_keep {a : List α} (hne : a ≠ [])
    (h : ∀ c ∈ a, s.keep c = false)
    (prevDash : Bool) (t : List α) :
    s.squeeze prevDash (a ++ t)
      = if prevDash then s.squeeze true t else s.dash :: s.squeeze true t := by
  have hrest : ∀ b : List α, (∀ c ∈ b, s.keep c = false) →
      s.squeeze true (b ++ t) = s.squeeze true t := by
    intro b hb
    induction b with
    | nil => rfl
    | cons c b ih =>
      obtain ⟨hc, hb⟩ := List.forall_mem_cons.mp hb
      rw [List.cons_append, squeeze, if_neg (by simp [hc]), if_pos rfl, ih hb]
  obtain ⟨c, a, rfl⟩ := List.exists_cons_of_ne_nil hne
  obtain ⟨hc, ha⟩ := List.forall_mem_cons.mp h
  rw [List.cons_append, squeeze, if_neg (by simp [hc]), hrest a ha]

section Loop

variable [DecidableEq α]

theorem trim_cons (t : List α) (c : α) :
    s.trim (c :: t) = if s.trim t = [] ∧ c = s.dash then
      [] else c :: s.trim t := by
  unfold trim
  rw [List.reverse_cons, List.dropWhile_append]
  by_cases hnil : t.reverse.dropWhile (· == s.dash) = []
  · by_cases hc : c = s.dash
    · simp [hnil, hc]
    · simp [hnil, hc]
  · simp [hnil]

/-- The list is not trimmed at an element that is no dash. -/
theorem trim_append_of_notMem {a : List α} (h : s.dash ∉ a) (t : List α) :
    s.trim (a ++ t) = a ++ s.trim t := by
  induction a with
  | nil => rfl
  | cons c a ih =>
    obtain ⟨hc, ha⟩ := not_or.mp (mt List.mem_cons.mpr h)
    rw [List.cons_append, trim_cons, if_neg (fun h => hc h.2.symm), ih ha]
    rfl

/-- **What the loop writes**, once the dashes at the end are cut off: the first
piece, and behind it the other pieces that are not empty, each behind a dash.
Behind a dash, the first of these dashes has been written. -/
theorem trim_squeeze (t : List α) {p : List α} {ps : List (List α)}
    (h : pieces s.keep t = p :: ps) :
    s.trim (s.squeeze false t) = p ++ s.dashed (ps.filter (fun r => !r.isEmpty))
      ∧ s.trim (s.squeeze true t)
        = (s.dashed ((p :: ps).filter (fun r => !r.isEmpty))).tail := by
  induction t generalizing p ps with
  | nil =>
    obtain ⟨rfl, rfl⟩ : [] = p ∧ [] = ps := List.cons.inj h
    exact ⟨rfl, rfl⟩
  | cons c cs ih =>
    obtain ⟨q, qs, hq⟩ := s.exists_pieces cs
    obtain ⟨hfalse, htrue⟩ := ih hq
    by_cases hc : s.keep c = true
    · have hne : c ≠ s.dash := fun heq => by simp [heq, s.keep_dash] at hc
      rw [pieces_cons_of_keep hc, hq, List.modifyHead_cons] at h
      obtain ⟨rfl, rfl⟩ := List.cons.inj h
      have hboth : ∀ b, s.trim (s.squeeze b (c :: cs))
          = c :: (q ++ s.dashed (qs.filter (fun r => !r.isEmpty))) := by
        intro b
        rw [squeeze, if_pos hc, trim_cons, if_neg (fun h => hne h.2), hfalse]
      exact ⟨hboth false, hboth true⟩
    · have hc' : s.keep c = false := Bool.eq_false_iff.mpr hc
      rw [pieces_cons_of_not_keep hc', hq] at h
      obtain ⟨rfl, rfl⟩ := List.cons.inj h
      have hskip : ([] :: q :: qs).filter (fun r => !r.isEmpty)
          = (q :: qs).filter (fun r => !r.isEmpty) := rfl
      refine ⟨?_, ?_⟩
      · rw [squeeze, if_neg hc, if_neg Bool.false_ne_true, trim_cons, htrue,
          List.nil_append]
        cases hfilter : (q :: qs).filter (fun r => !r.isEmpty) with
        | nil => exact if_pos ⟨rfl, rfl⟩
        | cons r rs =>
          have hr : r ≠ [] := by
            have hmem : r ∈ (q :: qs).filter (fun r => !r.isEmpty) :=
              hfilter ▸ List.mem_cons_self
            simpa using (List.mem_filter.mp hmem).2
          exact if_neg (fun hnil => hr (List.append_eq_nil_iff.mp hnil.1).1)
      · rw [squeeze, if_neg hc, if_pos rfl, hskip]
        exact htrue

end Loop

/-! ## Pieces

The pieces of a list can be found again in what was written, because no dash
is a kept element. Empty pieces come from neighbouring elements that are not
kept, and at the end. -/

theorem parts_of_pieces {p : List α} {ps : List (List α)}
    (h : pieces s.keep t = p :: ps) :
    s.parts t = p :: ps.filter (fun r => !r.isEmpty) := by
  rw [parts, h]

theorem keep_of_mem_pieces {r : List α} (hr : r ∈ pieces s.keep t) :
    ∀ c ∈ r, s.keep c = true := by
  induction t generalizing r with
  | nil =>
    obtain rfl := List.mem_singleton.mp hr
    exact fun c hc => absurd hc List.not_mem_nil
  | cons d t ih =>
    by_cases hd : s.keep d = true
    · obtain ⟨q, qs, hq⟩ := s.exists_pieces t
      rw [pieces_cons_of_keep hd, hq, List.modifyHead_cons, List.mem_cons] at hr
      rcases hr with rfl | hr
      · exact List.forall_mem_cons.mpr ⟨hd, ih (hq ▸ List.mem_cons_self)⟩
      · exact ih (hq ▸ List.mem_cons_of_mem q hr)
    · rw [pieces_cons_of_not_keep (Bool.eq_false_iff.mpr hd),
        List.mem_cons] at hr
      rcases hr with rfl | hr
      · exact fun c hc => absurd hc List.not_mem_nil
      · exact ih hr

theorem keep_of_mem_parts {r : List α} (hr : r ∈ s.parts t) :
    ∀ c ∈ r, s.keep c = true := by
  obtain ⟨p, ps, hp⟩ := s.exists_pieces t
  rw [parts_of_pieces hp, List.mem_cons] at hr
  have hmem : r ∈ pieces s.keep t := by
    rw [hp]
    rcases hr with rfl | hr
    · exact List.mem_cons_self
    · exact List.mem_cons_of_mem p (List.mem_of_mem_filter hr)
  exact keep_of_mem_pieces hmem

/-- Lists of kept elements are read back from the list that has a dash between
them. -/
theorem pieces_intercalate (p : List α) (ps : List (List α))
    (h : ∀ r ∈ p :: ps, ∀ c ∈ r, s.keep c = true) :
    pieces s.keep ([s.dash].intercalate (p :: ps)) = p :: ps := by
  have hp : ∀ c ∈ p, (!s.keep c) = false :=
    fun c hc => by simp [h p List.mem_cons_self c hc]
  induction ps generalizing p with
  | nil =>
    rw [List.intercalate_singleton, pieces]
    exact List.splitOnP_eq_singleton hp
  | cons q qs ih =>
    have hrest := fun r hr => h r (List.mem_cons_of_mem p hr)
    rw [List.intercalate_cons_cons, List.append_assoc, pieces,
      List.singleton_append,
      List.splitOnP_append_cons_of_forall_mem hp s.dash (by simp [s.keep_dash])]
    exact congrArg (p :: ·) (ih q hrest
      (fun c hc => by simp [hrest q List.mem_cons_self c hc]))

/-- The parts are all that there is to the runs. -/
theorem runs_eq_filter (t : List α) :
    runs s.keep t = (s.parts t).filter (fun r => !r.isEmpty) := by
  obtain ⟨p, ps, hp⟩ := s.exists_pieces t
  rw [runs, parts_of_pieces hp, hp, List.filter_cons, List.filter_cons,
    List.filter_filter]
  simp

/-- Whether a list starts with a kept element can be seen from its parts. -/
theorem startsOff_eq (ht : t ≠ []) :
    startsOff s.keep t = (s.parts t).head?.any List.isEmpty := by
  obtain ⟨c, t, rfl⟩ := List.exists_cons_of_ne_nil ht
  obtain ⟨q, qs, hq⟩ := s.exists_pieces t
  cases hc : s.keep c with
  | true =>
    have hp : pieces s.keep (c :: t) = (c :: q) :: qs := by
      rw [pieces_cons_of_keep hc, hq, List.modifyHead_cons]
    rw [parts_of_pieces hp]
    simp [startsOff, hc]
  | false =>
    rw [parts_of_pieces (pieces_cons_of_not_keep hc)]
    simp [startsOff, hc]

theorem runs_eq_nil_iff (t : List α) :
    runs s.keep t = [] ↔ ∀ c ∈ t, s.keep c = false := by
  induction t with
  | nil => exact iff_of_true rfl (fun c hc => absurd hc List.not_mem_nil)
  | cons c t ih =>
    rw [List.forall_mem_cons, ← ih]
    cases hc : s.keep c with
    | true =>
      obtain ⟨q, qs, hq⟩ := s.exists_pieces t
      rw [runs, pieces_cons_of_keep hc, hq, List.modifyHead_cons,
        List.filter_cons]
      simp
    | false =>
      rw [runs, pieces_cons_of_not_keep hc, List.filter_cons]
      simp [runs]

/-- A list that has runs is known by them, up to whether it starts with one. -/
theorem parts_eq (h : runs s.keep t ≠ []) :
    s.parts t = if startsOff s.keep t then
      [] :: runs s.keep t else runs s.keep t := by
  obtain ⟨p, ps, hp⟩ := s.exists_pieces t
  have ht : t ≠ [] := by
    rintro rfl
    exact h rfl
  rw [startsOff_eq ht, parts_of_pieces hp, runs, hp, List.filter_cons]
  cases p <;> simp

theorem parts_inj (ht : runs s.keep t ≠ []) (hu : runs s.keep u ≠ []) :
    s.parts t = s.parts u ↔ runs s.keep t = runs s.keep u ∧
      startsOff s.keep t = startsOff s.keep u := by
  constructor
  · intro h
    have hne : ∀ {t : List α}, runs s.keep t ≠ [] → t ≠ [] := by
      rintro t hruns rfl
      exact hruns rfl
    rw [runs_eq_filter, runs_eq_filter, startsOff_eq (hne ht),
      startsOff_eq (hne hu), h]
    exact ⟨rfl, rfl⟩
  · rintro ⟨hruns, hoff⟩
    rw [parts_eq ht, parts_eq hu, hruns, hoff]

/-! ## Slugs

Two lists have one slug exactly if they have the same parts. A slug has its
own parts, so that making a slug of it again changes nothing. -/

section Slug

variable [DecidableEq α]

theorem slug_eq_intercalate (t : List α) :
    s.slug t = [s.dash].intercalate (s.parts t) := by
  obtain ⟨p, ps, hp⟩ := s.exists_pieces t
  rw [parts_of_pieces hp, intercalate_eq]
  exact (trim_squeeze t hp).1

theorem pieces_slug (t : List α) : pieces s.keep (s.slug t) = s.parts t := by
  obtain ⟨p, ps, hp⟩ := s.exists_pieces t
  have hparts := parts_of_pieces hp
  rw [slug_eq_intercalate, hparts]
  exact pieces_intercalate p _ (fun r hr => keep_of_mem_parts (hparts ▸ hr))

theorem parts_slug (t : List α) : s.parts (s.slug t) = s.parts t := by
  obtain ⟨p, ps, hp⟩ := s.exists_pieces t
  rw [parts_of_pieces ((pieces_slug t).trans (parts_of_pieces hp)),
    parts_of_pieces hp,
    List.filter_filter]
  simp

/-- **A slug is its own slug.** A slug has no two dashes in a row and none at
an end, and what it keeps is mapped to itself. -/
theorem slug_slug (t : List α) : s.slug (s.slug t) = s.slug t := by
  rw [slug_eq_intercalate, parts_slug, ← slug_eq_intercalate]

/-- **Which lists have one slug**: those with the same parts. The parts are
the runs of kept elements, mapped, in their order; all that is lost by the
slug is what stood between them. -/
theorem slug_inj : s.slug t = s.slug u ↔ s.parts t = s.parts u := by
  constructor
  · intro h
    rw [← parts_slug t, h, parts_slug]
  · intro h
    rw [slug_eq_intercalate, slug_eq_intercalate, h]

theorem slug_of_forall (h : ∀ c ∈ t, s.keep c = false) : s.slug t = [] := by
  obtain ⟨p, ps, hp⟩ := s.exists_pieces t
  have hruns := (runs_eq_nil_iff t).mpr h
  rw [runs, hp, List.filter_eq_nil_iff] at hruns
  have hnil : p = [] := by simpa using hruns p List.mem_cons_self
  have hrest : ps.filter (fun r => !r.isEmpty) = [] :=
    List.filter_eq_nil_iff.mpr (fun r hr => hruns r (List.mem_cons_of_mem p hr))
  rw [slug_eq_intercalate, parts_of_pieces hp, hnil, hrest]
  rfl

theorem mem_slug (hc : c ∈ s.slug t) : s.keep c = true ∨ c = s.dash := by
  obtain ⟨p, ps, hp⟩ := s.exists_pieces t
  have hkeep := fun r (hr : r ∈ s.parts t) => keep_of_mem_parts hr c
  rw [parts_of_pieces hp] at hkeep
  rw [slug_eq_intercalate, parts_of_pieces hp, intercalate_eq,
    List.mem_append] at hc
  rcases hc with hc | hc
  · exact .inl (hkeep p List.mem_cons_self hc)
  · obtain ⟨r, hr, hcr⟩ := List.mem_flatMap.mp hc
    exact (List.mem_cons.mp hcr).symm.imp
      (hkeep r (List.mem_cons_of_mem p hr)) id

/-- **Behind every dash of a slug stands a kept element.** In particular it
does not end with a dash, nor does it have two of them in a row. -/
theorem keep_of_slug_eq {a b : List α} (h : s.slug t = a ++ s.dash :: b) :
    ∃ c b', b = c :: b' ∧ s.keep c = true := by
  obtain ⟨p, ps, hp⟩ := s.exists_pieces t
  obtain ⟨x, xs, hx⟩ := s.exists_pieces a
  obtain ⟨q, qs, hq⟩ := s.exists_pieces b
  have hsplit : pieces s.keep (a ++ s.dash :: b)
      = pieces s.keep a ++ pieces s.keep b :=
    List.splitOnP_append_cons a b (by simp [s.keep_dash])
  have hparts : p :: ps.filter (fun r => !r.isEmpty)
      = x :: (xs ++ q :: qs) := by
    rw [← parts_of_pieces hp, ← pieces_slug t, h, hsplit, hx, hq,
      List.cons_append]
  -- what stands behind the dash is a part that is not the first one
  have hmem : q ∈ ps.filter (fun r => !r.isEmpty) := by
    rw [(List.cons.inj hparts).2]
    exact List.mem_append_right xs List.mem_cons_self
  have hne : q ≠ [] := by simpa using (List.mem_filter.mp hmem).2
  cases b with
  | nil => exact absurd (List.cons.inj hq).1.symm hne
  | cons c b =>
    refine ⟨c, b, rfl, ?_⟩
    by_contra hc
    rw [pieces_cons_of_not_keep (Bool.eq_false_iff.mpr hc)] at hq
    exact hne (List.cons.inj hq).1.symm

end Slug

end Charset

end Slugs
