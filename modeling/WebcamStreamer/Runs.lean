import Mathlib.Order.Basic

/-!
# Runs of a step function

A system is a partial step function `step : State → Action → Option State`:
`none` says that the action is not possible in that state. A run is a list of
actions that are all possible one after the other, and a statement about every
reachable state is a statement about the last state of every run, since every
prefix of a run is a run.

A statement about a system often holds only of the runs whose steps meet a side
condition. `Guarded ok s as` says that every step of the run `as` from `s` is
taken in a state where the condition `ok` holds of it, and two rules turn a
fact about one step into a fact about runs: `run_invariant` for an invariant
that guarded steps preserve, and `everywhere_iff_guarded` for a property that
a step preserves *exactly* when it is guarded, where the condition is then
neither too weak nor too strong.
-/

namespace Runs

variable {State Action : Type*}

/-- The state after a list of actions, `none` as soon as one of them is not
possible. -/
def run (step : State → Action → Option State) :
    State → List Action → Option State
  | s, [] => some s
  | s, a :: as => (step s a).bind (fun t => run step t as)

/-- Every step of the run, as far as it is possible, is taken in a state where
`ok` holds of it. -/
def Guarded (step : State → Action → Option State)
    (ok : State → Action → Prop) :
    State → List Action → Prop
  | _, [] => True
  | s, a :: as => ∀ t, step s a = some t → ok s a ∧ Guarded step ok t as

/-- Every state the run passes through, the first and the last included,
satisfies `P`. -/
def Everywhere (step : State → Action → Option State) (P : State → Prop) :
    State → List Action → Prop
  | s, [] => P s
  | s, a :: as => P s ∧ ∀ t, step s a = some t → Everywhere step P t as

variable {step : State → Action → Option State} {ok : State → Action → Prop}
variable {P : State → Prop} {s t u : State} {a : Action} {as bs : List Action}

@[simp] theorem run_nil : run step s [] = some s := rfl

theorem run_cons_iff :
    run step s (a :: as) = some u ↔
      ∃ t, step s a = some t ∧ run step t as = some u := by
  rw [run, Option.bind_eq_some_iff]

/-- A run of two lists of actions is a run of the first followed by a run of
the second. -/
theorem run_append :
    run step s (as ++ bs) = some u ↔
      ∃ t, run step s as = some t ∧ run step t bs = some u := by
  induction as generalizing s with
  | nil => simp
  | cons a as ih =>
    rw [List.cons_append, run_cons_iff]
    constructor
    · rintro ⟨v, hv, hu⟩
      obtain ⟨t, ht, htu⟩ := ih.mp hu
      exact ⟨t, run_cons_iff.mpr ⟨v, hv, ht⟩, htu⟩
    · rintro ⟨t, ht, htu⟩
      obtain ⟨v, hv, hvt⟩ := run_cons_iff.mp ht
      exact ⟨v, hv, ih.mpr ⟨t, hvt, htu⟩⟩

/-- **The invariant rule.** What every guarded step preserves holds at the end
of every guarded run. The step lemma may use that the step is guarded, which
is how conditions on the environment come in. -/
theorem run_invariant (Inv : State → Prop)
    (hstep : ∀ s a t, Inv s → ok s a → step s a = some t → Inv t)
    (hs : Inv s) (hok : Guarded step ok s as) (hrun : run step s as = some u) :
    Inv u := by
  induction as generalizing s with
  | nil =>
    obtain rfl := Option.some.inj hrun
    exact hs
  | cons a as ih =>
    obtain ⟨t, ht, htu⟩ := run_cons_iff.mp hrun
    obtain ⟨hoka, hokas⟩ := hok t ht
    exact ih (hstep s a t hs hoka ht) hokas htu

/-- A condition that always holds guards every run. -/
theorem guarded_of_forall (h : ∀ s a, ok s a) : Guarded step ok s as := by
  induction as generalizing s with
  | nil => trivial
  | cons a as ih => exact fun t _ => ⟨h s a, ih⟩

/-- The rule for an invariant that every step preserves. -/
theorem run_invariant_of_forall (Inv : State → Prop)
    (hstep : ∀ s a t, Inv s → step s a = some t → Inv t)
    (hs : Inv s) (hrun : run step s as = some u) : Inv u := by
  have hguarded : Guarded step (fun _ _ => True) s as :=
    guarded_of_forall (fun _ _ => trivial)
  exact run_invariant Inv (fun s a t hs _ ht => hstep s a t hs ht) hs
    hguarded hrun

/-- Where every action is possible and keeps an invariant, so does every step
there is. -/
theorem inv_of_exists_step {Inv : State → Prop}
    (hstep : ∀ s a, Inv s → ∃ t, step s a = some t ∧ Inv t) (hs : Inv s)
    (ht : step s a = some t) : Inv t := by
  obtain ⟨t', ht', hinv⟩ := hstep s a hs
  obtain rfl : t' = t := Option.some.inj (ht'.symm.trans ht)
  exact hinv

/-- Where every action is possible and keeps an invariant, every list of actions
is a run, and it ends in the invariant. -/
theorem exists_run {Inv : State → Prop}
    (hstep : ∀ s a, Inv s → ∃ t, step s a = some t ∧ Inv t) (hs : Inv s)
    (as : List Action) :
    ∃ u, run step s as = some u ∧ Inv u := by
  induction as generalizing s with
  | nil => exact ⟨s, rfl, hs⟩
  | cons a as ih =>
    obtain ⟨t, ht, hinv⟩ := hstep s a hs
    obtain ⟨u, hu, hinv'⟩ := ih hinv
    exact ⟨u, run_cons_iff.mpr ⟨t, ht, hu⟩, hinv'⟩

theorem everywhere_head (h : Everywhere step P s as) : P s := by
  cases as with
  | nil => exact h
  | cons a as => exact h.1

theorem Everywhere.mono {Q : State → Prop} (h : Everywhere step P s as)
    (hPQ : ∀ s, P s → Q s) : Everywhere step Q s as := by
  induction as generalizing s with
  | nil => exact hPQ s h
  | cons a as ih => exact ⟨hPQ s h.1, fun t ht => ih (h.2 t ht)⟩

/-- A condition on the actions alone guards every run of such actions. -/
theorem guarded_of_forall_mem (h : ∀ a ∈ as, ∀ s, ok s a) :
    Guarded step ok s as := by
  induction as generalizing s with
  | nil => trivial
  | cons a as ih =>
    obtain ⟨ha, has⟩ := List.forall_mem_cons.mp h
    exact fun t _ => ⟨ha s, ih has⟩

/-- A condition that an invariant implies guards every run that keeps the
invariant. -/
theorem guarded_of_invariant {ok' : State → Action → Prop} {Inv : State → Prop}
    (hstep : ∀ s a t, Inv s → ok s a → step s a = some t → Inv t)
    (himp : ∀ s a, Inv s → ok' s a) (hs : Inv s) (hok : Guarded step ok s as) :
    Guarded step ok' s as := by
  induction as generalizing s with
  | nil => trivial
  | cons a as ih =>
    intro t ht
    obtain ⟨hoka, hokas⟩ := hok t ht
    exact ⟨himp s a hs, ih (hstep s a t hs hoka ht) hokas⟩

theorem Everywhere.and {Q : State → Prop} (hP : Everywhere step P s as)
    (hQ : Everywhere step Q s as) :
    Everywhere step (fun s => P s ∧ Q s) s as := by
  induction as generalizing s with
  | nil => exact ⟨hP, hQ⟩
  | cons a as ih => exact ⟨⟨hP.1, hQ.1⟩, fun t ht => ih (hP.2 t ht) (hQ.2 t ht)⟩

/-- What holds everywhere in a run holds where it ends. -/
theorem everywhere_run (h : Everywhere step P s as)
    (ht : run step s as = some t) : P t := by
  induction as generalizing s with
  | nil => exact Option.some.inj ht ▸ h
  | cons a as ih =>
    obtain ⟨u, hu, hrest⟩ := run_cons_iff.mp ht
    exact ih (h.2 u hu) hrest

/-- What every guarded step preserves holds throughout every guarded run. -/
theorem everywhere_of_guarded
    (hstep : ∀ s a t, P s → ok s a → step s a = some t → P t)
    (hs : P s) (hok : Guarded step ok s as) : Everywhere step P s as := by
  induction as generalizing s with
  | nil => exact hs
  | cons a as ih =>
    refine ⟨hs, fun t ht => ?_⟩
    obtain ⟨hoka, hokas⟩ := hok t ht
    exact ih (hstep s a t hs hoka ht) hokas

/-- What every step preserves holds throughout every run. -/
theorem everywhere_of_forall (hstep : ∀ s a t, P s → step s a = some t → P t)
    (hs : P s)
    (as : List Action) : Everywhere step P s as := by
  have hguarded : Guarded step (fun _ _ => True) s as :=
    guarded_of_forall (fun _ _ => trivial)
  exact everywhere_of_guarded (fun s a t hs _ ht =>
    hstep s a t hs ht) hs hguarded

/-- The exact rule next to an invariant that every step preserves. -/
theorem everywhere_iff_guarded_of_invariant {Inv : State → Prop}
    (hinv : ∀ s a t, Inv s → step s a = some t → Inv t)
    (hstep : ∀ s a t, Inv s → P s → step s a = some t → (P t ↔ ok s a))
    (hi : Inv s)
    (hs : P s) : Everywhere step P s as ↔ Guarded step ok s as := by
  induction as generalizing s with
  | nil => exact ⟨fun _ => trivial, fun _ => hs⟩
  | cons a as ih =>
    constructor
    · rintro ⟨_, h⟩ t ht
      have hPt : P t := everywhere_head (h t ht)
      exact ⟨(hstep s a t hi hs ht).mp hPt,
        (ih (hinv s a t hi ht) hPt).mp (h t ht)⟩
    · refine fun h => ⟨hs, fun t ht => ?_⟩
      obtain ⟨hok, hrest⟩ := h t ht
      exact (ih (hinv s a t hi ht) ((hstep s a t hi hs ht).mpr hok)).mpr hrest

/-- The exact rule for what an invariant implies: a guarded step keeps the
invariant, and a step that is not guarded leads to a state without `P`. -/
theorem everywhere_iff_guarded_of_breaking {Inv : State → Prop}
    (hP : ∀ s, Inv s → P s)
    (hkeep : ∀ s a t, Inv s → ok s a → step s a = some t → Inv t)
    (hbreak : ∀ s a t, Inv s → ¬ ok s a → step s a = some t → ¬ P t)
    (hs : Inv s) :
    Everywhere step P s as ↔ Guarded step ok s as := by
  constructor
  · intro h
    induction as generalizing s with
    | nil => trivial
    | cons a as ih =>
      intro t ht
      have hok : ok s a := not_not.mp
        (fun hnot => hbreak s a t hs hnot ht (everywhere_head (h.2 t ht)))
      exact ⟨hok, ih (hkeep s a t hs hok ht) (h.2 t ht)⟩
  · intro h
    exact (everywhere_of_guarded hkeep hs h).mono hP

/-- **The simulation rule.** Where every step of certain actions is matched by a
run of another system, so is every run of them. -/
theorem exists_run_of_simulation {State' Action' : Type*}
    {step' : State' → Action' → Option State'} {R : State → State' → Prop}
    {Q : Action → Prop}
    {Q' : Action' → Prop}
    (hstep : ∀ s s' a t, R s s' → Q a → step s a = some t →
      ∃ bs t', (∀ b ∈ bs, Q' b) ∧ run step' s' bs = some t' ∧ R t t')
    {s' : State'} (hR : R s s') (hactions : ∀ a ∈ as, Q a)
    (hrun : run step s as = some u) :
    ∃ bs u', (∀ b ∈ bs, Q' b) ∧ run step' s' bs = some u' ∧ R u u' := by
  induction as generalizing s s' with
  | nil =>
    obtain rfl := Option.some.inj hrun
    exact ⟨[], s', fun b hb => absurd hb List.not_mem_nil, rfl, hR⟩
  | cons a as ih =>
    obtain ⟨ha, has⟩ := List.forall_mem_cons.mp hactions
    obtain ⟨t, ht, htu⟩ := run_cons_iff.mp hrun
    obtain ⟨first, t', hfirst, hrun₁, hRt⟩ := hstep s s' a t hR ha ht
    obtain ⟨rest, u', hrest, hrun₂, hRu⟩ := ih hRt has htu
    refine ⟨first ++ rest, u', fun b hb => ?_,
      run_append.mpr ⟨t', hrun₁, hrun₂⟩, hRu⟩
    exact (List.mem_append.mp hb).elim (hfirst b) (hrest b)

/-- A run is no longer than a number that every step makes smaller. -/
theorem length_le_of_decreasing {Inv : State → Prop} {size : State → ℕ}
    (hstep : ∀ s a t, Inv s → step s a = some t → Inv t ∧ size t < size s)
    (hs : Inv s)
    (hrun : run step s as = some u) : Inv u ∧ as.length ≤ size s := by
  induction as generalizing s with
  | nil =>
    obtain rfl := Option.some.inj hrun
    exact ⟨hs, Nat.zero_le _⟩
  | cons a as ih =>
    obtain ⟨t, ht, htu⟩ := run_cons_iff.mp hrun
    obtain ⟨hinv, hless⟩ := hstep s a t hs ht
    obtain ⟨hend, hlen⟩ := ih hinv htu
    refine ⟨hend, ?_⟩
    rw [List.length_cons]
    omega

/-- As long as something lasts, a run has no more of certain actions than a
number that each of them makes smaller and no other action makes larger. -/
theorem countP_le_of_decreasing {Inv Over : State → Prop} {own : Action → Bool}
    {left : State → ℕ}
    (hstep : ∀ s a t, Inv s → step s a = some t →
      Over t ∨ Inv t ∧ left t + (own a).toNat ≤ left s)
    (hover : ∀ s a t, Over s → step s a = some t → Over t) (hs : Inv s)
    (hrun : run step s as = some u) :
    Over u ∨ Inv u ∧ as.countP own + left u ≤ left s := by
  induction as generalizing s with
  | nil =>
    obtain rfl := Option.some.inj hrun
    exact .inr ⟨hs, Nat.le_of_eq (Nat.zero_add _)⟩
  | cons a as ih =>
    obtain ⟨t, ht, htu⟩ := run_cons_iff.mp hrun
    rcases hstep s a t hs ht with hgone | ⟨hinv, hless⟩
    · exact .inl (run_invariant_of_forall Over hover hgone htu)
    · refine (ih hinv htu).imp_right (And.imp_right (fun hrest => ?_))
      have hone : (if own a = true then 1 else 0) = (own a).toNat := by
        cases own a <;> rfl
      rw [List.countP_cons, hone]
      omega

/-- **The exact rule.** When a possible step from a state with `P` leads to a
state with `P` exactly where `ok` holds, a run keeps `P` throughout exactly
where all its steps are guarded. -/
theorem everywhere_iff_guarded
    (hstep : ∀ s a t, P s → step s a = some t → (P t ↔ ok s a)) (hs : P s) :
    Everywhere step P s as ↔ Guarded step ok s as :=
  everywhere_iff_guarded_of_invariant (fun _ _ _ _ _ => trivial)
    (fun s a t _ => hstep s a t) trivial hs

end Runs
