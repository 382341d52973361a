import Mathlib.Data.List.Count
import Mathlib.Data.List.Infix

/-!
# A counter that does not go below zero

A counter goes up and down with the letters of a word, except that going down
from zero leaves it at zero. What it shows at the end is what it should show
exactly when that never happened.

A word with as many letters up as down brings the counter back to where it
was, as long as it is never asked to go below zero on the way, and the order
of its letters matters for nothing else. So a count that is kept from messages
can be right although they arrive in another order than they were sent in, and
the condition says which orders are too bad for that (`final_eq_iff`).
-/

namespace ClampedCounter

variable {α : Type*} (up : α → Bool)

/-- The counter after one letter: `up` says which ones make it go up. -/
def bump (n : ℕ) (a : α) : ℕ := if up a then n + 1 else n - 1

/-- The counter after a word. -/
def final (n : ℕ) (word : List α) : ℕ := word.foldl (bump up) n

@[simp] theorem final_nil (n : ℕ) : final up n [] = n := rfl

@[simp] theorem final_cons (n : ℕ) (a : α) (word : List α) :
    final up n (a :: word) = final up (bump up n a) word := rfl

theorem bump_of_up {n : ℕ} {a : α} (h : up a = true) : bump up n a = n + 1 :=
  if_pos h

theorem bump_of_down {n : ℕ} {a : α} (h : up a = false) :
    bump up n a = n - 1 := by
  rw [bump, h]
  rfl

/-- How often a word makes the counter go up. -/
def ups (word : List α) : ℕ := word.countP up

/-- How often a word makes the counter go down. -/
def downs (word : List α) : ℕ := word.countP (fun a => !up a)

theorem ups_cons (a : α) (word : List α) :
    ups up (a :: word) = ups up word + if up a then 1 else 0 := List.countP_cons

theorem downs_cons (a : α) (word : List α) :
    downs up (a :: word) = downs up word + if up a then 0 else 1 := by
  rw [downs, List.countP_cons]
  cases up a <;> rfl

/-- The counter never shows less than it should. -/
theorem le_final (n : ℕ) (word : List α) :
    n + ups up word ≤ final up n word + downs up word := by
  induction word generalizing n with
  | nil => simp [ups]
  | cons a word ih =>
    rw [final_cons, ups_cons, downs_cons]
    cases ha : up a with
    | true =>
      have hrest := ih (n + 1)
      rw [bump_of_up up ha]
      simp only [if_true]
      omega
    | false =>
      have hrest := ih (n - 1)
      rw [bump_of_down up ha]
      simp only [Bool.false_eq_true, if_false]
      omega

/-- Every beginning of the word goes down at most as often as it can. -/
def NeverClamped (n : ℕ) (word : List α) : Prop :=
  ∀ p, p <+: word → downs up p ≤ n + ups up p

theorem neverClamped_cons {n : ℕ} {a : α} {word : List α} :
    NeverClamped up n (a :: word) ↔
      ∀ q, q <+: word → downs up (a :: q) ≤ n + ups up (a :: q) := by
  constructor
  · exact fun h q hq => h _ (List.cons_prefix_cons.mpr ⟨rfl, hq⟩)
  · intro h p hp
    cases p with
    | nil => exact Nat.zero_le _
    | cons b q =>
      obtain ⟨rfl, hq⟩ := List.cons_prefix_cons.mp hp
      exact h q hq

/-- **When the clamp does not matter**: the counter shows what it should
exactly when no beginning of the word goes down more often than it can. -/
theorem final_eq_iff (n : ℕ) (word : List α) :
    final up n word + downs up word = n + ups up word ↔
      NeverClamped up n word := by
  induction word generalizing n with
  | nil =>
    refine iff_of_true rfl (fun p hp => ?_)
    obtain rfl := List.prefix_nil.mp hp
    exact Nat.zero_le _
  | cons a word ih =>
    rw [neverClamped_cons, final_cons, ups_cons, downs_cons]
    simp only [ups_cons, downs_cons]
    cases ha : up a with
    | true =>
      rw [bump_of_up up ha]
      simp only [if_true]
      calc final up (n + 1) word + (downs up word + 0) = n + (ups up word + 1)
          ↔ final up (n + 1) word + downs up word
          = (n + 1) + ups up word := by omega
        _ ↔ NeverClamped up (n + 1) word := ih (n + 1)
        _ ↔ _ := forall₂_congr (fun q _ => by omega)
    | false =>
      rw [bump_of_down up ha]
      simp only [Bool.false_eq_true, if_false]
      cases n with
      | zero =>
        -- the clamp comes into play here, and what is lost never comes back
        have hle := le_final up 0 word
        rw [Nat.zero_sub]
        refine iff_of_false (by omega) (fun h => ?_)
        have hnil := h [] List.nil_prefix
        simp [downs, ups] at hnil
      | succ n =>
        calc final up n word + (downs up word + 1) = n + 1 + (ups up word + 0)
            ↔ final up n word + downs up word = n + ups up word := by omega
          _ ↔ NeverClamped up n word := ih n
          _ ↔ _ := forall₂_congr (fun q _ => by omega)

end ClampedCounter
