import Mathlib.Logic.Function.Basic
import Mathlib.Order.WellFounded
import WebcamStreamer.Runs

/-!
# Locks that are taken in order

Threads take locks, give them back, and wait for each other to end. Give every
lock and every thread a rank, and let a thread wait only for what ranks above it
and above all it holds. Then whoever keeps a thread waiting waits itself for
something that ranks higher still, so the threads never wait for each other in a
circle: as long as there is a thread, one of them can go on.

A thread goes through its program in sections. At the end of one it holds
nothing, and either chooses the next one or ends.
-/

/-- An operation of a thread. -/
inductive LockOp (L T : Type*) where
  | lock (l : L)
  | unlock (l : L)
  /-- To wait for a thread to end. -/
  | join (t : T)
  /-- Anything that waits for no lock and no thread. -/
  | other
  deriving DecidableEq

/-- Who holds each lock, and what each thread that there is has still to do. -/
structure LockState (L T : Type*) where
  holder : L → Option T
  rest : T → Option (List (LockOp L T))

/-- What a thread does next. -/
inductive LockAction (L T : Type*) where
  | begin (t : T)
  /-- A thread at the end of a section goes on to another one. -/
  | choose (t : T) (ops : List (LockOp L T))
  | exec (t : T)
  | finish (t : T)

/-- The rank of each lock, and the rank of the wait for each thread. -/
structure LockRank (L T R : Type*) where
  lock : L → R
  thread : T → R

namespace LockState

variable {L T R : Type*}

section Rest

variable [DecidableEq T] {s : LockState L T} {t u : T}
  {ops : Option (List (LockOp L T))}

/-- Another rest for one thread. -/
def setRest (s : LockState L T) (t : T) (ops : Option (List (LockOp L T))) :
    LockState L T :=
  { s with rest := Function.update s.rest t ops }

@[simp] theorem rest_setRest_self : (s.setRest t ops).rest t = ops := by
  show Function.update s.rest t ops t = ops
  rw [Function.update_self]

@[simp] theorem rest_setRest_of_ne (h : u ≠ t) :
    (s.setRest t ops).rest u = s.rest u := by
  show Function.update s.rest t ops u = s.rest u
  rw [Function.update_of_ne h]

end Rest

variable [DecidableEq L]

section Steps

variable [DecidableEq T]

/-- An operation is carried out, or has to wait. -/
def perform (s : LockState L T) (t : T) : LockOp L T → Option (LockState L T)
  | .lock l =>
    if s.holder l = none then
      some { s with holder := Function.update s.holder l (some t) }
    else none
  | .unlock l =>
    if s.holder l = some t then
      some { s with holder := Function.update s.holder l none }
    else none
  | .join u => if (s.rest u).isNone then some s else none
  | .other => some s

/-- One step of the threads. -/
def step (s : LockState L T) : LockAction L T → Option (LockState L T)
  | .begin t => if (s.rest t).isNone then some (s.setRest t (some [])) else none
  | .choose t ops =>
    if s.rest t = some [] then some (s.setRest t (some ops)) else none
  | .exec t =>
    match s.rest t with
    | some (op :: ops) =>
      (s.perform t op).map (fun s' => s'.setRest t (some ops))
    | _ => none
  | .finish t => if s.rest t = some [] then some (s.setRest t none) else none

/-- The thread can go on: it is between two sections, or its next operation need
not wait. -/
def Moves (s : LockState L T) (t : T) : Prop :=
  s.rest t = some [] ∨ ∃ s', s.step (.exec t) = some s'

/-- Nobody holds anything, and there is one thread. -/
def start (t : T) : LockState L T :=
  setRest ⟨fun _ => none, fun _ => none⟩ t (some [])

theorem moves_of_perform {s s' : LockState L T} {t : T} {op : LockOp L T}
    {ops : List (LockOp L T)} (ht : s.rest t = some (op :: ops))
    (hs : s.perform t op = some s') : s.Moves t :=
  .inr ⟨s'.setRest t (some ops), by simp only [step, ht, hs, Option.map_some]⟩

end Steps

/-! ## The order

A section of a thread is checked operation by operation, with what the thread
holds at each point: what it waits for has to rank above that, and in the end
nothing may be held. The check is a function, so that it can be run on the
sections of a program. -/

section Order

variable [Preorder R] [DecidableLT R] (r : LockRank L T R)

/-- What an operation waits for. -/
def rankOf : LockOp L T → Option R
  | .lock l => some (r.lock l)
  | .join u => some (r.thread u)
  | _ => none

/-- What a thread holds after some operations if it held `held` before, as long
as it waits only for what ranks above it and above what it holds. -/
def heldAfter (t : T) : List L → List (LockOp L T) → Option (List L)
  | held, [] => some held
  | held, .lock l :: ops =>
    if r.thread t < r.lock l ∧ ∀ h ∈ held, r.lock h < r.lock l then
      heldAfter t (l :: held) ops
    else none
  | held, .unlock l :: ops =>
    if l ∈ held then
      heldAfter t (held.filter (fun h => !decide (h = l))) ops
    else none
  | held, .join u :: ops =>
    if r.thread t < r.thread u ∧ ∀ h ∈ held, r.lock h < r.thread u then
      heldAfter t held ops
    else none
  | held, .other :: ops => heldAfter t held ops

/-- A section of a thread is in order: it also gives back all that it takes. -/
def InOrder (t : T) (ops : List (LockOp L T)) : Prop :=
  heldAfter r t [] ops = some []

instance (t : T) (ops : List (LockOp L T)) : Decidable (InOrder r t ops) :=
  inferInstanceAs (Decidable (_ = _))

variable {r} {t : T} {held held' : List L} {ops ops' : List (LockOp L T)}

theorem heldAfter_append (held : List L) (ops ops' : List (LockOp L T)) :
    heldAfter r t held (ops ++ ops')
      = (heldAfter r t held ops).bind (fun h => heldAfter r t h ops') := by
  induction ops generalizing held with
  | nil => rfl
  | cons op ops ih =>
    cases op <;> simp only [List.cons_append, heldAfter, ih] <;> split <;> rfl

/-- Parts of a section that leave things as they are can be put together. -/
theorem heldAfter_flatten {parts : List (List (LockOp L T))}
    (h : ∀ ops ∈ parts, heldAfter r t held ops = some held) :
    heldAfter r t held parts.flatten = some held := by
  induction parts with
  | nil => rfl
  | cons ops parts ih =>
    obtain ⟨hops, hparts⟩ := List.forall_mem_cons.mp h
    rw [List.flatten_cons, heldAfter_append, hops]
    exact ih hparts

end Order

/-! ## What the order is good for

The invariant is that the rest of each section passes the check for what its
thread holds. If a thread cannot go on, what it waits for is held or is
another thread, and that one ranks higher; the ranks are bounded, so that one
at the top can go on. -/

section Sound

variable [Preorder R] [DecidableLT R] {r : LockRank L T R}
  {s s' : LockState L T}
variable {t u : T} {op : LockOp L T} {ops : List (LockOp L T)}

/-- What is left of each thread's section is in order for what the thread holds,
and who holds something is there. -/
structure Sound (r : LockRank L T R) (s : LockState L T) : Prop where
  inOrder : ∀ t ops, s.rest t = some ops →
    ∃ held, (∀ l, s.holder l = some t ↔ l ∈ held) ∧
      heldAfter r t held ops = some []
  running : ∀ l t, s.holder l = some t → s.rest t ≠ none

/-- A thread at the end of a section holds nothing. -/
theorem Sound.holder_ne (h : s.Sound r) (ht : s.rest t = some []) (l : L) :
    s.holder l ≠ some t := by
  obtain ⟨held, hheld, hafter⟩ := h.inOrder t [] ht
  obtain rfl : held = [] := Option.some.inj hafter
  exact fun hl => List.not_mem_nil ((hheld l).mp hl)

variable [DecidableEq T]

/-- A thread that holds nothing begins, ends, or goes on to another section. -/
theorem Sound.setRest (h : s.Sound r) (hno : ∀ l, s.holder l ≠ some t)
    {rest : Option (List (LockOp L T))}
    (hrest : ∀ ops, rest = some ops → InOrder r t ops) :
    (s.setRest t rest).Sound r where
  inOrder u ops hu := by
    by_cases hut : u = t
    · subst hut
      rw [rest_setRest_self] at hu
      exact ⟨[], fun l => iff_of_false (hno l) List.not_mem_nil, hrest ops hu⟩
    · rw [rest_setRest_of_ne hut] at hu
      exact h.inOrder u ops hu
  running l u hl := by
    have hut : u ≠ t := fun hut => hno l (hut ▸ hl)
    rw [rest_setRest_of_ne hut]
    exact h.running l u hl

theorem sound_start (t : T) : (start t : LockState L T).Sound r := by
  have hempty : (⟨fun _ => none, fun _ => none⟩ : LockState L T).Sound r :=
    ⟨nofun, nofun⟩
  exact hempty.setRest nofun (fun ops hops => Option.some.inj hops ▸ rfl)

/-- The operation of one thread changes what that thread holds. -/
theorem Sound.exec (h : s.Sound r) (ht : s.rest t = some (op :: ops))
    (hs : s.perform t op = some s') : (s'.setRest t (some ops)).Sound r := by
  obtain ⟨held, hheld, hafter⟩ := h.inOrder t _ ht
  -- enough: what the thread holds afterwards, and that the others keep what
  -- they hold
  have hkeep : ∀ held', (∀ l, s'.holder l = some t ↔ l ∈ held') →
      heldAfter r t held' ops = some [] →
      (∀ l u, u ≠ t → (s'.holder l = some u ↔ s.holder l = some u)) →
      s'.rest = s.rest → (s'.setRest t (some ops)).Sound r := by
    intro held' hheld' hafter' hothers hrest
    refine ⟨fun u ops' hu => ?_, fun l u hl => ?_⟩
    · by_cases hut : u = t
      · subst hut
        obtain rfl : ops = ops' :=
          Option.some.inj (rest_setRest_self.symm.trans hu)
        exact ⟨held', hheld', hafter'⟩
      · rw [rest_setRest_of_ne hut, hrest] at hu
        obtain ⟨held'', hheld'', hafter''⟩ := h.inOrder u ops' hu
        exact ⟨held'', fun l => (hothers l u hut).trans (hheld'' l), hafter''⟩
    · by_cases hut : u = t
      · rw [hut, rest_setRest_self]
        exact Option.some_ne_none _
      · rw [rest_setRest_of_ne hut, hrest]
        exact h.running l u ((hothers l u hut).mp hl)
  cases op with
  | lock l =>
    simp only [perform] at hs
    split at hs
    next hfree =>
      obtain rfl := Option.some.inj hs
      rw [heldAfter] at hafter
      split at hafter
      next =>
        refine hkeep (l :: held) (fun k => ?_) hafter (fun k u hut => ?_) rfl
        · by_cases hk : k = l
          · simp [hk]
          · simp [hk, hheld k]
        · by_cases hk : k = l
          · subst hk
            simp [hfree, Ne.symm hut]
          · simp [hk]
      next => cases hafter
    next => cases hs
  | unlock l =>
    simp only [perform] at hs
    split at hs
    next hholds =>
      obtain rfl := Option.some.inj hs
      rw [heldAfter] at hafter
      split at hafter
      next =>
        refine hkeep _ (fun k => ?_) hafter (fun k u hut => ?_) rfl
        · by_cases hk : k = l
          · simp [hk]
          · simp [hk, hheld k]
        · by_cases hk : k = l
          · subst hk
            simp [hholds, Ne.symm hut]
          · simp [hk]
      next => cases hafter
    next => cases hs
  | join v =>
    simp only [perform] at hs
    split at hs
    next =>
      obtain rfl := Option.some.inj hs
      rw [heldAfter] at hafter
      split at hafter
      next => exact hkeep held hheld hafter (fun _ _ _ => Iff.rfl) rfl
      next => cases hafter
    next => cases hs
  | other =>
    obtain rfl := Option.some.inj hs
    exact hkeep held hheld hafter (fun _ _ _ => Iff.rfl) rfl

/-- **Sections that are in order** keep it so. The hypothesis is about the
step in which a thread chooses its next section; the other steps go on with
what was chosen. -/
theorem Sound.step (h : s.Sound r) {a : LockAction L T}
    (ha : ∀ t ops, a = .choose t ops → InOrder r t ops)
    (hs : s.step a = some s') :
    s'.Sound r := by
  cases a with
  | begin t =>
    simp only [LockState.step] at hs
    split at hs
    next hnone =>
      obtain rfl := Option.some.inj hs
      have hno : ∀ l, s.holder l ≠ some t := fun l hl =>
        h.running l t hl (Option.isNone_iff_eq_none.mp hnone)
      exact h.setRest hno (fun ops hops => Option.some.inj hops ▸ rfl)
    next => cases hs
  | choose t ops =>
    simp only [LockState.step] at hs
    split at hs
    next hnil =>
      obtain rfl := Option.some.inj hs
      exact h.setRest (h.holder_ne hnil)
        (fun ops' hops => Option.some.inj hops ▸ ha t ops rfl)
    next => cases hs
  | exec t =>
    simp only [LockState.step] at hs
    split at hs
    next op ops hrest =>
      obtain ⟨s₁, hs₁, rfl⟩ := Option.map_eq_some_iff.mp hs
      exact h.exec hrest hs₁
    next => cases hs
  | finish t =>
    simp only [LockState.step] at hs
    split at hs
    next hnil =>
      obtain rfl := Option.some.inj hs
      exact h.setRest (h.holder_ne hnil) nofun
    next => cases hs

/-- **What a thread waits for** ranks above the thread, and above all it
holds. A thread that waits for another one, which waits in its turn, goes up
in the ranks, and this cannot go on for ever. -/
theorem Sound.rank_lt (h : s.Sound r) (ht : s.rest t = some (op :: ops))
    (hs : s.perform t op = none) :
    ∃ k, rankOf r op = some k ∧ r.thread t < k ∧ ∀ l, s.holder l = some t →
      r.lock l < k := by
  obtain ⟨held, hheld, hafter⟩ := h.inOrder t _ ht
  cases op with
  | lock l =>
    rw [heldAfter] at hafter
    split at hafter
    next hlt => exact ⟨_, rfl, hlt.1, fun k hk => hlt.2 k ((hheld k).mp hk)⟩
    next => cases hafter
  | unlock l =>
    rw [heldAfter] at hafter
    split at hafter
    next hmem =>
      rw [perform, if_pos ((hheld l).mpr hmem)] at hs
      cases hs
    next => cases hafter
  | join u =>
    rw [heldAfter] at hafter
    split at hafter
    next hlt => exact ⟨_, rfl, hlt.1, fun k hk => hlt.2 k ((hheld k).mp hk)⟩
    next => cases hafter
  | other => cases hs

/-- Somebody keeps a thread waiting. -/
theorem Sound.exists_waited (h : s.Sound r) (hs : s.perform t op = none) {k : R}
    (hk : rankOf r op = some k) :
    ∃ u, s.rest u ≠ none ∧ (r.thread u = k ∨ ∃ l,
      s.holder l = some u ∧ r.lock l = k) := by
  cases op with
  | lock l =>
    simp only [perform] at hs
    split at hs
    next => cases hs
    next hheld =>
      obtain ⟨u, hu⟩ := Option.ne_none_iff_exists'.mp hheld
      exact ⟨u, h.running l u hu, .inr ⟨l, hu, Option.some.inj hk⟩⟩
  | unlock l => cases hk
  | join u =>
    simp only [perform] at hs
    split at hs
    next => cases hs
    next hu =>
      exact ⟨u, fun hnone => hu (Option.isNone_iff_eq_none.mpr hnone),
        .inl (Option.some.inj hk)⟩
  | other => cases hs

/-- **No deadlock.** As long as there is a thread, one of them can go on:
whoever keeps a thread waiting waits for something of a higher rank, if at
all. -/
theorem Sound.exists_moves [WellFoundedGT R] (h : s.Sound r)
    (ht : s.rest t ≠ none) :
    ∃ u, s.rest u ≠ none ∧ s.Moves u := by
  have hwaits : ∀ (k : R) (t : T) (op : LockOp L T) (ops : List (LockOp L T)),
      s.rest t = some (op :: ops) → s.perform t op = none →
      rankOf r op = some k →
      ∃ u, s.rest u ≠ none ∧ s.Moves u := by
    intro k
    induction k using WellFoundedGT.induction with
    | ind k ih =>
      intro t op ops hrest hs hk
      obtain ⟨u, hu, hkeeps⟩ := h.exists_waited hs hk
      obtain ⟨uops, huops⟩ := Option.ne_none_iff_exists'.mp hu
      cases uops with
      | nil => exact ⟨u, hu, .inl huops⟩
      | cons uop uops =>
        cases hperform : s.perform u uop with
        | some s₁ => exact ⟨u, hu, moves_of_perform huops hperform⟩
        | none =>
          obtain ⟨m, hm, hthread, hlocks⟩ := h.rank_lt huops hperform
          have hlt : k < m := by
            rcases hkeeps with rfl | ⟨l, hl, rfl⟩
            · exact hthread
            · exact hlocks l hl
          exact ih m hlt u uop uops huops hperform hm
  obtain ⟨ops, hops⟩ := Option.ne_none_iff_exists'.mp ht
  cases ops with
  | nil => exact ⟨t, ht, .inl hops⟩
  | cons op ops =>
    cases hperform : s.perform t op with
    | some s₁ => exact ⟨t, ht, moves_of_perform hops hperform⟩
    | none =>
      obtain ⟨k, hk, -⟩ := h.rank_lt hops hperform
      exact hwaits k t op ops hops hperform hk

end Sound

end LockState
