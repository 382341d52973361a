import Mathlib.Logic.Function.Basic

/-!
# Objects that are observed

An object has fields, and views are computed from them. Whoever shows a view
does not look at the object again until the object raises it: what is shown is
what was read then. A field is set by storing the value and raising views, and
nothing at all happens where the value is the one that is stored.

What is shown is up to date as long as a field raises every view that depends on
it (`Observed.Covers`), whatever is set and in whatever order.
-/

/-- The fields of an object and what is stored in them, the views on it and what
they show, how a view is read, and what a field raises, in order. -/
structure Observed (Field : Type) (Stored : Field → Type) (View : Type)
    (Shown : View → Type) where
  read : (v : View) → ((f : Field) → Stored f) → Shown v
  raises : Field → List View

namespace Observed

variable {Field View : Type} {Stored : Field → Type} {Shown : View → Type}

/-- An object, what is shown of it, and the views it has raised so far. -/
structure State (o : Observed Field Stored View Shown) where
  stored : (f : Field) → Stored f
  seen : (v : View) → Shown v
  raised : List View

variable [DecidableEq Field] [DecidableEq View]
  {o : Observed Field Stored View Shown}

/-- An object that nothing has been raised of: every view was read when it was
first shown. -/
def fresh (o : Observed Field Stored View Shown)
    (stored : (f : Field) → Stored f) : o.State where
  stored := stored
  seen v := o.read v stored
  raised := []

namespace State

/-- A view is raised, and read again. -/
def raise (s : o.State) (v : View) : o.State :=
  { s with
    seen := Function.update s.seen v (o.read v s.stored)
    raised := s.raised ++ [v] }

/-- A field is stored, and what it raises is raised. -/
def store (f : Field) (value : Stored f) (s : o.State) : o.State :=
  (o.raises f).foldl raise { s with stored := Function.update s.stored f value }

/-- A field is set: nothing happens if it has the value. -/
def set [∀ f, DecidableEq (Stored f)] (f : Field) (value : Stored f)
    (s : o.State) : o.State :=
  if s.stored f = value then s else s.store f value

/-- **What is shown is up to date.** A view is seen as it was when it was last
raised, and not as it would be computed now, and the two are the same here. -/
def Fresh (s : o.State) : Prop := ∀ v, s.seen v = o.read v s.stored

omit [DecidableEq Field] in
@[simp] theorem stored_foldl_raise (vs : List View) (s : o.State) :
    (vs.foldl raise s).stored = s.stored := by
  induction vs generalizing s with
  | nil => rfl
  | cons v vs ih => exact ih (s.raise v)

omit [DecidableEq Field] in
/-- A view that is raised, however often, is up to date, and the others show
what they did. -/
theorem seen_foldl_raise (vs : List View) (s : o.State) (v : View) :
    (vs.foldl raise s).seen v = if v ∈ vs then
      o.read v s.stored else s.seen v := by
  induction vs generalizing s with
  | nil => rfl
  | cons w vs ih =>
    rw [List.foldl_cons, ih (s.raise w)]
    by_cases hv : v ∈ vs
    · rw [if_pos hv, if_pos (List.mem_cons_of_mem w hv)]
      rfl
    · rw [if_neg hv]
      show Function.update s.seen w (o.read w s.stored) v = _
      by_cases hw : v = w
      · rw [hw, Function.update_self, if_pos List.mem_cons_self]
      · rw [Function.update_of_ne hw,
          if_neg (List.not_mem_cons_of_ne_of_not_mem hw hv)]

omit [DecidableEq Field] in
@[simp] theorem raised_foldl_raise (vs : List View) (s : o.State) :
    (vs.foldl raise s).raised = s.raised ++ vs := by
  induction vs generalizing s with
  | nil => exact (List.append_nil _).symm
  | cons v vs ih =>
    rw [List.foldl_cons, ih (s.raise v)]
    exact List.append_assoc s.raised [v] vs

@[simp] theorem stored_store (f : Field) (value : Stored f) (s : o.State) :
    (s.store f value).stored = Function.update s.stored f value :=
  stored_foldl_raise _ _

variable [∀ f, DecidableEq (Stored f)]

/-- Nothing happens where a field has the value. -/
theorem set_of_stored {f : Field} {value : Stored f} {s : o.State}
    (h : s.stored f = value) :
    s.set f value = s :=
  if_pos h

@[simp] theorem stored_set (f : Field) (value : Stored f) (s : o.State) :
    (s.set f value).stored = Function.update s.stored f value := by
  rw [set]
  split
  next h => rw [← h, Function.update_eq_self]
  next => exact stored_store f value s

end State

/-- **A field raises what depends on it**: a view that it does not raise reads
the same, whatever is stored in the field. -/
def Covers (o : Observed Field Stored View Shown) : Prop :=
  ∀ f v, v ∉ o.raises f → ∀ stored value,
    o.read v (Function.update stored f value) = o.read v stored

omit [DecidableEq View] in
/-- It is enough to name the fields that a view reads, each of which raises
it. -/
theorem covers_of_reads (reads : View → List Field)
    (hread : ∀ v stored stored', (∀ f ∈ reads v, stored f = stored' f) →
      o.read v stored = o.read v stored')
    (hraises : ∀ v, ∀ f ∈ reads v, v ∈ o.raises f) : o.Covers := by
  intro f v hv stored value
  refine hread v _ _ (fun g hg => Function.update_of_ne ?_ _ _)
  rintro rfl
  exact hv (hraises v g hg)

omit [DecidableEq Field] [DecidableEq View] in
theorem fresh_fresh (stored : (f : Field) → Stored f) :
    (o.fresh stored).Fresh := fun _ => rfl

/-- A field that is stored leaves what is shown up to date. -/
theorem Covers.fresh_store (hcovers : o.Covers) {s : o.State}
    (h : s.Fresh) (f : Field)
    (value : Stored f) : (s.store f value).Fresh := by
  intro v
  rw [State.stored_store, State.store, State.seen_foldl_raise]
  split
  next => rfl
  next hv => rw [hcovers f v hv]; exact h v

/-- **What is shown stays up to date.** The views that are not raised do not
depend on the field, so that what was seen of them is what would be computed
now. -/
theorem Covers.fresh_set [∀ f, DecidableEq (Stored f)] (hcovers : o.Covers)
    {s : o.State}
    (h : s.Fresh) (f : Field) (value : Stored f) : (s.set f value).Fresh := by
  rw [State.set]
  split
  next => exact h
  next => exact hcovers.fresh_store h f value

end Observed
