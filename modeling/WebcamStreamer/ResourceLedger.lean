import Mathlib.Data.List.Perm.Basic

/-!
# Resources that are taken and given back

A program takes resources one after the other, keeps some of them in variables,
and gives them back. A ledger numbers the resources as they are taken and notes
which ones were given back, so that two resources are never confused, even where
the second one gets the name of the first. The ledger is balanced with what is
held when every resource taken is held in one place or was given back once.

The numbers are never used by a program; they are what makes a double release
visible. A name may be given out again by whoever has the resources, and then
a second release under the same name would hit something else – in the ledger
this is a number that was released twice, or one that is released and still
held (`balanced_iff`).
-/

/-- How many resources were taken, and which ones were given back, the last one
first. -/
structure ResourceLedger where
  taken : ℕ := 0
  released : List ℕ := []
  deriving DecidableEq

namespace ResourceLedger

/-- One more resource: it gets the number of those before it. -/
def take (l : ResourceLedger) : ResourceLedger :=
  { l with taken := l.taken + 1 }

/-- A resource is given back. -/
def release (l : ResourceLedger) (r : ℕ) : ResourceLedger :=
  { l with released := r :: l.released }

/-- What a variable holds is given back, if it holds anything. -/
def releaseHeld (l : ResourceLedger) : Option ℕ → ResourceLedger
  | none => l
  | some r => l.release r

/-- What is held and what was given back make up what was taken. -/
def Balanced (l : ResourceLedger) (held : List ℕ) : Prop :=
  (held ++ l.released).Perm (List.range l.taken)

variable {l : ResourceLedger} {held before behind : List ℕ}

theorem balanced_empty : ({} : ResourceLedger).Balanced [] := List.Perm.refl _

theorem Balanced.take (h : l.Balanced held) :
    l.take.Balanced (l.taken :: held) := by
  have hrange : List.range (l.taken + 1) = List.range l.taken ++ [l.taken] :=
    List.range_succ
  rw [Balanced, ResourceLedger.take, hrange]
  exact (h.cons l.taken).trans (List.perm_append_singleton _ _).symm

/-- What a variable holds is given back, wherever it stands among the others. -/
theorem Balanced.releaseHeld {o : Option ℕ}
    (h : l.Balanced (before ++ (o.toList ++ behind))) :
    (l.releaseHeld o).Balanced (before ++ behind) := by
  cases o with
  | none => exact h
  | some r =>
    have hmove : (before ++ behind ++ r :: l.released).Perm
        (before ++ (r :: behind) ++ l.released) := by
      rw [List.append_assoc, List.append_assoc]
      exact List.perm_middle.append_left before
    exact hmove.trans h

/-- **What a balance says of each resource**: it was taken, and then it is in
one place or was given back once; or it was not taken, and there is no trace of
it. -/
theorem balanced_iff :
    l.Balanced held ↔ ∀ r,
      held.count r + l.released.count r = if r < l.taken then 1 else 0 := by
  have hrange : ∀ r, (List.range l.taken).count r = if r < l.taken then
    1 else 0 := by
    intro r
    rw [List.nodup_range.count]
    simp only [List.mem_range]
  rw [Balanced, List.perm_iff_count]
  refine forall_congr' (fun r => ?_)
  rw [List.count_append, hrange]

/-- Only what was taken is held. -/
theorem Balanced.lt_taken (h : l.Balanced held) {r : ℕ} (hr : r ∈ held) :
    r < l.taken :=
  List.mem_range.mp (h.subset (List.mem_append_left _ hr))

theorem taken_releaseHeld (o : Option ℕ) :
    (l.releaseHeld o).taken = l.taken := by
  cases o <;> rfl

end ResourceLedger
