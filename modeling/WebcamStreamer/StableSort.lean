import Mathlib.Data.List.Destutter
import Mathlib.Data.List.Nodup
import Mathlib.Order.Lattice

/-!
# Sorting by a key

`orderBy key l` sorts a list by a key and keeps the elements of one key in the
order in which they stand. Where no element stands twice, two elements come out
in an order that can be read off the keys and the list (`pair_orderBy_iff`).

The key may be meant to bring the elements into an order of their own. Whether
it does is a question about pairs: `pairwise_orderBy_iff` says that the result
is increasing in a strict linear order exactly if every two elements in that
order have increasing keys, or equal keys and stand in that order already.

A sort that need not keep the order of equal keys is a `SortBy`. After it,
keeping one element for each key leaves the keys strictly increasing
(`SortBy.pairwise_uniqueBy`).
-/

namespace StableSort

variable {α β κ : Type*} [LinearOrder κ]

/-! ## Two elements of a list

Where a list has no element twice, the order of two of its elements is a
sublist of length two. This is how the order before and after sorting is
compared. -/

/-- Of two elements of a list, one stands before the other. -/
theorem pair_sublist_or {l : List α} {a b : α} (ha : a ∈ l) (hb : b ∈ l)
    (hne : a ≠ b) :
    [a, b].Sublist l ∨ [b, a].Sublist l := by
  induction l with
  | nil => cases ha
  | cons x l ih =>
    rcases List.mem_cons.mp ha with rfl | hal
    · have hbl := (List.mem_cons.mp hb).resolve_left hne.symm
      exact .inl ((List.singleton_sublist.mpr hbl).cons_cons a)
    · rcases List.mem_cons.mp hb with rfl | hbl
      · exact .inr ((List.singleton_sublist.mpr hal).cons_cons b)
      · exact (ih hal hbl).imp (fun h => h.cons x) (fun h => h.cons x)

/-- Where no element stands twice, it is one of the two only. -/
theorem not_pair_sublist_both {l : List α} (hl : l.Nodup) {a b : α}
    (hab : [a, b].Sublist l) : ¬ [b, a].Sublist l := by
  intro hba
  induction l with
  | nil => cases hab
  | cons x l ih =>
    obtain ⟨hx, hl⟩ := List.nodup_cons.mp hl
    cases hab with
    | cons _ hab =>
      cases hba with
      | cons _ hba => exact ih hl hab hba
      | cons_cons _ hba => exact hx (hab.subset (by simp))
    | cons_cons _ hab =>
      cases hba with
      | cons _ hba => exact hx (hba.subset (by simp))
      | cons_cons _ hba => exact hx (List.singleton_sublist.mp hab)

/-! ## The first of equal elements

Removing repetitions keeps the first of equal elements. Mapping the list first
or afterwards makes no difference as long as the map tells the elements
apart. -/

section Distinct

variable [BEq α] [LawfulBEq α] [BEq β] [LawfulBEq β]

/-- No element is left twice. -/
theorem nodup_eraseDups (l : List α) : l.eraseDups.Nodup := by
  induction hn : l.length using Nat.strongRecOn generalizing l with
  | _ n ih =>
    cases l with
    | nil => exact List.nodup_nil
    | cons a l =>
      rw [List.eraseDups_cons, List.nodup_cons]
      refine ⟨fun hmem => ?_, ih _ ?_ _ rfl⟩
      · have hfilter := (List.mem_filter.mp (List.mem_eraseDups.mp hmem)).2
        simp at hfilter
      · rw [← hn, List.length_cons]
        exact Nat.lt_succ_of_le (List.length_filter_le _ _)

/-- Elements with different images are told apart by them. -/
theorem eraseDups_map {f : α → β} (hf : Function.Injective f) (l : List α) :
    (l.map f).eraseDups = l.eraseDups.map f := by
  induction hn : l.length using Nat.strongRecOn generalizing l with
  | _ n ih =>
    cases l with
    | nil => rfl
    | cons a l =>
      have hfilter : (l.map f).filter (fun b => !b == f a)
          = (l.filter (fun b => !b == a)).map f := by
        rw [List.filter_map]
        refine congrArg (List.map f) (List.filter_congr (fun b _ => ?_))
        simp [hf.eq_iff]
      rw [List.map_cons, List.eraseDups_cons, List.eraseDups_cons,
        List.map_cons, hfilter,
        ih _ ?_ _ rfl]
      rw [← hn, List.length_cons]
      exact Nat.lt_succ_of_le (List.length_filter_le _ _)

end Distinct

/-! ## Sorting

The order of two elements after sorting is decided by their keys, and by their
order before where the keys are equal. Everything else about the sorted list
follows from this and from its being a permutation. -/

/-- The list in the order of the keys. -/
def orderBy (key : α → κ) (l : List α) : List α :=
  l.mergeSort (fun a b => decide (key a ≤ key b))

variable {key : α → κ} {l : List α} {a b : α}

@[simp] theorem mem_orderBy : a ∈ orderBy key l ↔ a ∈ l := List.mem_mergeSort

theorem orderBy_eq_nil_iff : orderBy key l = [] ↔ l = [] := by
  rw [← List.length_eq_zero_iff, ← List.length_eq_zero_iff, orderBy,
    List.length_mergeSort]

theorem nodup_orderBy : (orderBy key l).Nodup ↔ l.Nodup :=
  (List.mergeSort_perm l _).nodup_iff

/-- Sorting what a function makes of the elements. -/
theorem orderBy_map (f : β → α) (l : List β) :
    orderBy key (l.map f) = (orderBy (key ∘ f) l).map f := by
  refine Eq.symm (List.map_mergeSort ?_)
  exact fun _ _ _ _ => rfl

theorem decide_key_trans (a b c : α) (hab : decide (key a ≤ key b) = true)
    (hbc : decide (key b ≤ key c) = true) : decide (key a ≤ key c) = true :=
  decide_eq_true (le_trans (of_decide_eq_true hab) (of_decide_eq_true hbc))

theorem decide_key_total (a b : α) :
    (decide (key a ≤ key b) || decide (key b ≤ key a)) = true := by
  simpa using le_total (key a) (key b)

theorem key_le_of_pair_sublist (h : [a, b].Sublist (orderBy key l)) :
    key a ≤ key b := by
  have hsorted :
      (orderBy key l).Pairwise (fun a b => decide (key a ≤ key b) = true) :=
    List.pairwise_mergeSort decide_key_trans decide_key_total l
  exact of_decide_eq_true (List.pairwise_iff_forall_sublist.mp hsorted h)

/-- Equal keys change nothing. -/
theorem pair_sublist_orderBy (hkey : key a ≤ key b) (h : [a, b].Sublist l) :
    [a, b].Sublist (orderBy key l) :=
  List.pair_sublist_mergeSort decide_key_trans decide_key_total
    (decide_eq_true hkey) h

/-- **The order of two elements**: by the key, and as they stood where the
keys are equal. Positions are told by sublists of two elements, which needs
the elements to be different. -/
theorem pair_orderBy_iff (hl : l.Nodup) (ha : a ∈ l) (hb : b ∈ l)
    (hne : a ≠ b) :
    [a, b].Sublist (orderBy key l) ↔
      key a < key b ∨ key a = key b ∧ [a, b].Sublist l := by
  have hsorted : (orderBy key l).Nodup := nodup_orderBy.mpr hl
  constructor
  · intro h
    rcases (key_le_of_pair_sublist h).lt_or_eq with hlt | heq
    · exact .inl hlt
    · refine .inr ⟨heq,
        (pair_sublist_or ha hb hne).resolve_right (fun hba => ?_)⟩
      exact not_pair_sublist_both hsorted h (pair_sublist_orderBy heq.ge hba)
  · rintro (hlt | ⟨heq, h⟩)
    · refine (pair_sublist_or (mem_orderBy.mpr ha)
        (mem_orderBy.mpr hb) hne).resolve_right ?_
      exact fun hba => absurd (key_le_of_pair_sublist hba) (not_le.mpr hlt)
    · exact pair_sublist_orderBy heq.le h

/-- **When sorting by the key brings the elements into an order** of their
own. The condition is the one on pairs: where the order and the key disagree,
no stable sort can help. -/
theorem pairwise_orderBy_iff {r : α → α → Prop} (hirrefl : ∀ a, ¬ r a a)
    (hasymm : ∀ a b, r a b → ¬ r b a) (htotal : ∀ a b, a ≠ b → r a b ∨ r b a)
    (hl : l.Nodup) :
    (orderBy key l).Pairwise r ↔
      ∀ a ∈ l, ∀ b ∈ l, r a b → key a < key b ∨
        key a = key b ∧ [a, b].Sublist l := by
  have hne : ∀ {a b}, r a b → a ≠ b := fun {a b} h heq => hirrefl b (heq ▸ h)
  have hsorted : (orderBy key l).Nodup := nodup_orderBy.mpr hl
  rw [List.pairwise_iff_forall_sublist]
  constructor
  · intro h a ha b hb hr
    refine (pair_orderBy_iff hl ha hb (hne hr)).mp ?_
    refine (pair_sublist_or (mem_orderBy.mpr ha) (mem_orderBy.mpr hb)
      (hne hr)).resolve_right ?_
    exact fun hba => hasymm a b hr (h hba)
  · intro h a b hab
    have hmem : ∀ {x}, x ∈ [a, b] → x ∈ l :=
      fun hx => mem_orderBy.mp (hab.subset hx)
    have hpair : a ≠ b := by simpa using hsorted.sublist hab
    refine (htotal a b hpair).resolve_right (fun hba => ?_)
    have hrev := h b (hmem (by simp)) a (hmem (by simp)) hba
    exact not_pair_sublist_both hsorted hab
      ((pair_orderBy_iff hl (hmem (by simp))
        (hmem (by simp)) hpair.symm).mpr hrev)

/-! ## A sort that need not be stable

A sort of the standard library promises a permutation in which the keys do not
fall, and nothing about equal keys. The structure has just these two promises,
so that a result about all of its values is one about any sort. -/

/-- A sort by a key: a permutation in which the keys do not fall. Which of two
elements with the same key comes first is left open. -/
structure SortBy (key : α → κ) where
  sort : List α → List α
  perm : ∀ l, (sort l).Perm l
  sorted : ∀ l, (sort l).Pairwise (fun a b => key a ≤ key b)

namespace SortBy

/-- The stable sort is one. -/
def stable (key : α → κ) : SortBy key where
  sort := orderBy key
  perm l := List.mergeSort_perm l _
  sorted _ := List.pairwise_iff_forall_sublist.mpr key_le_of_pair_sublist

end SortBy

/-- Of elements with the same key that follow each other, the first. -/
def uniqueBy (key : α → κ) (l : List α) : List α :=
  l.destutter (fun a b => key a ≠ key b)

/-- Every key that is there is kept. -/
theorem exists_mem_uniqueBy (h : a ∈ l) :
    ∃ b ∈ uniqueBy key l, key b = key a := by
  have htail : ∀ (l : List α) (x : α), a ∈ x :: l →
      ∃ b ∈ l.destutter' (fun a b => key a ≠ key b) x, key b = key a := by
    intro l
    induction l with
    | nil =>
      intro x ha
      exact ⟨x, List.mem_singleton_self x,
        (congrArg key (List.mem_singleton.mp ha)).symm⟩
    | cons y l ih =>
      intro x ha
      by_cases hxy : key x = key y
      · -- `y` goes, and `x` stands for it
        rw [List.destutter'_cons_neg _ (not_not.mpr hxy)]
        rcases List.mem_cons.mp ha with rfl | hal
        · exact ih a List.mem_cons_self
        · rcases List.mem_cons.mp hal with rfl | hal
          · exact ⟨x, List.mem_destutter' _ _ x, hxy⟩
          · exact ih x (List.mem_cons_of_mem x hal)
      · rw [List.destutter'_cons_pos _ hxy]
        rcases List.mem_cons.mp ha with rfl | hal
        · exact ⟨a, List.mem_cons_self, rfl⟩
        · obtain ⟨b, hb, hkey⟩ := ih y hal
          exact ⟨b, List.mem_cons_of_mem x hb, hkey⟩
  cases l with
  | nil => cases h
  | cons x l => exact htail l x h

/-- The first element with its key is the one that is kept. -/
theorem mem_uniqueBy_append_cons {before after : List α}
    (h : ∀ b ∈ before, key b ≠ key a) :
    a ∈ uniqueBy key (before ++ a :: after) := by
  have htail : ∀ (before : List α) (x : α), key x ≠ key a →
      (∀ b ∈ before, key b ≠ key a) →
      a ∈ (before ++ a :: after).destutter' (fun a b => key a ≠ key b) x := by
    intro before
    induction before with
    | nil =>
      intro x hx _
      rw [List.nil_append, List.destutter'_cons_pos _ (by exact hx)]
      exact List.mem_cons_of_mem x (List.mem_destutter' _ _ a)
    | cons b before ih =>
      intro x hx hbefore
      obtain ⟨hb, hbefore⟩ := List.forall_mem_cons.mp hbefore
      rw [List.cons_append]
      by_cases hxb : key x = key b
      · rw [List.destutter'_cons_neg _ (not_not.mpr hxb)]
        exact ih x hx hbefore
      · rw [List.destutter'_cons_pos _ hxb]
        exact List.mem_cons_of_mem x (ih b hb hbefore)
  cases before with
  | nil => exact List.mem_destutter' _ _ a
  | cons b before =>
    obtain ⟨hb, hbefore⟩ := List.forall_mem_cons.mp h
    exact htail before b hb hbefore

/-- The first element of a list is kept by the stable sort: those that come
before it then have smaller keys. -/
theorem mem_uniqueBy_orderBy_cons (a : α) (l : List α) :
    a ∈ uniqueBy key (orderBy key (a :: l)) := by
  obtain ⟨before, after, hsort, -, hbefore⟩ :=
    List.mergeSort_cons (@decide_key_trans _ _ _ key) decide_key_total a l
  rw [orderBy, hsort]
  exact mem_uniqueBy_append_cons (fun b hb heq =>
    absurd heq.ge (by simpa using hbefore b hb))

/-- **After a sort** every key is kept once. Equal keys stand next to each
other after a sort, and of each such run only the first is left. -/
theorem SortBy.pairwise_uniqueBy (std : SortBy key) (l : List α) :
    (uniqueBy key (std.sort l)).Pairwise (fun a b => key a < key b) := by
  have hle : (uniqueBy key (std.sort l)).Pairwise (fun a b => key a ≤ key b) :=
    (std.sorted l).sublist (List.destutter_sublist _ _)
  have hne : (uniqueBy key (std.sort l)).IsChain (fun a b => key a ≠ key b) :=
    List.isChain_destutter _ _
  have hlt :
      (uniqueBy key (std.sort l)).IsChain (fun a b => key a < key b) := by
    rw [List.isChain_iff_getElem] at hne ⊢
    intro i hi
    exact lt_of_le_of_ne
      (List.pairwise_iff_getElem.mp hle i (i + 1) _ hi (Nat.lt_succ_self i))
      (hne i hi)
  have : IsTrans α (fun a b => key a < key b) := ⟨fun _ _ _ => lt_trans⟩
  exact List.isChain_iff_pairwise.mp hlt

/-- There, an element is told by its key. -/
theorem eq_of_key_eq (hl : l.Pairwise (fun a b => key a < key b)) (ha : a ∈ l)
    (hb : b ∈ l)
    (hkey : key a = key b) : a = b := by
  by_contra hne
  rcases pair_sublist_or ha hb hne with hab | hba
  · exact absurd hkey (List.pairwise_iff_forall_sublist.mp hl hab).ne
  · exact absurd hkey.symm (List.pairwise_iff_forall_sublist.mp hl hba).ne

end StableSort
