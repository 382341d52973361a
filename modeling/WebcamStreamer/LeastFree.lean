import Mathlib.Data.List.Nodup
import Mathlib.Data.List.Perm.Subperm
import Mathlib.Data.Nat.Find

/-!
# The least free index

A search that tries the numbers one after the other until it finds one that is
not taken. The search itself has no bound. `search?` gives it one, and returns
nothing where the bound ends it; `searchFree` returns the bound there, so that
what it returns is the answer of the unbounded search exactly when the returned
index is free. Where the numbers name different things, only finitely many of
which are taken, the search ends by itself.

The two ways to give the search a bound are the two that are needed: `search?`
for the loop as it is written, which either finds an index or is still
searching, and `searchFree` for an answer that is always a number. They agree
wherever the bound is not what ends the search, and the bound can be chosen in
advance from the number of things that are taken.
-/

namespace LeastFree

/-- The first index from `i` on that is not taken, if it is found in `fuel`
tests. -/
def search? (taken : ℕ → Bool) : ℕ → ℕ → Option ℕ
  | 0, _ => none
  | fuel + 1, i => if taken i then search? taken fuel (i + 1) else some i

/-- The first index from `i` on that is not taken, or the one behind the last
of `fuel` tests. -/
def searchFree (taken : ℕ → Bool) (fuel i : ℕ) : ℕ :=
  (search? taken fuel i).getD (i + fuel)

variable {taken : ℕ → Bool} {n fuel i : ℕ}

/-- The search makes a test for every index up to the one it returns. -/
theorem search?_eq (hin : i ≤ n)
    (hbefore : ∀ j, i ≤ j → j < n → taken j = true) (hfree : taken n = false) :
    search? taken fuel i = if n < i + fuel then some n else none := by
  induction fuel generalizing i with
  | zero => exact (if_neg (by omega)).symm
  | succ fuel ih =>
    rw [search?]
    by_cases hi : i = n
    · subst hi
      rw [if_neg (by simp [hfree]), if_pos (by omega)]
    · have hsucc : i + 1 + fuel = i + (fuel + 1) := by omega
      rw [if_pos (hbefore i (Nat.le_refl i) (by omega)),
        ih (by omega) (fun j hj hjn => hbefore j (by omega) hjn), hsucc]

/-- The search returns `n` when everything before `n` is taken and `n` is
free, provided it is allowed to get there. -/
theorem searchFree_eq (hin : i ≤ n) (hfuel : n ≤ i + fuel)
    (hbefore : ∀ j, i ≤ j → j < n → taken j = true) (hfree : taken n = false) :
    searchFree taken fuel i = n := by
  rw [searchFree, search?_eq hin hbefore hfree]
  split
  next => rfl
  next hend => exact Nat.le_antisymm (Nat.le_of_not_lt hend) hfuel

/-- **There is a least free index**, and it is no greater than the number of
entries: the indices up to there name more things than there are entries. -/
theorem exists_least_free {β : Type*} {name : ℕ → β}
    (hname : Function.Injective name)
    (entries : List β) :
    ∃ n ≤ entries.length, name n ∉ entries ∧ ∀ j < n, name j ∈ entries := by
  classical
  have hfree : ∃ n ≤ entries.length, name n ∉ entries := by
    by_contra hall
    have hsubset : (List.range (entries.length + 1)).map name ⊆ entries := by
      intro b hb
      obtain ⟨n, hn, rfl⟩ := List.mem_map.mp hb
      have hle := Nat.le_of_lt_succ (List.mem_range.mp hn)
      by_contra hno
      exact hall ⟨n, hle, hno⟩
    have hnodup : ((List.range (entries.length + 1)).map name).Nodup :=
      List.nodup_range.map hname
    have hlen := (hnodup.subperm hsubset).length_le
    rw [List.length_map, List.length_range] at hlen
    exact Nat.not_succ_le_self _ hlen
  obtain ⟨m, hm, hno⟩ := hfree
  have hex : ∃ n, name n ∉ entries := ⟨m, hno⟩
  exact ⟨Nat.find hex, Nat.le_trans (Nat.find_min' hex hno) hm,
    Nat.find_spec hex, fun j hj => not_not.mp (Nat.find_min hex hj)⟩

end LeastFree
