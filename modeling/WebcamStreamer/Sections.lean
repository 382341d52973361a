import Mathlib.Logic.Function.Basic
import WebcamStreamer.Process
import WebcamStreamer.Shutdown

/-!
# What a section does to the processes

Of the process objects this can be seen (`Seen`): whether an object has a child,
and whether that child is alive. As long as no two objects hold one process, an
operation on one of them changes what is seen of that one alone. So the effect
of a section is the effect of its operations, one after the other (`Leads`).

The reason for this view is that handles and identifiers are different in
every run, while the results speak of cameras that stream and of cameras that
do not. A section may create a process or fail to, and it takes the answers as
parameters, so that the same section can be carried out with whatever the
environment has in store.
-/

namespace WebcamStreamer

/-! ## What is seen of the processes

What matters about a process object is whether it has a child and whether that
child is alive. The view forgets the identifiers and the handles, and the
operations on processes are described by what they do to it. -/

/-- The child of an object, if it has one: whether it is alive. -/
def Procs.shows (p : Procs) (r : ProcRef) : Option Bool :=
  (p.handle r).map (fun pid => pid ∈ p.alive)

/-- `g_stop`, the number of slots, and the children. -/
@[ext]
structure Seen where
  stop : Bool
  length : ℕ
  shows : ProcRef → Option Bool

def Procs.seen (p : Procs) : Seen := ⟨p.gStop, p.slots.length, p.shows⟩

namespace Seen

/-- The object is there. -/
def Has (v : Seen) : ProcRef → Prop
  | .mtx => True
  | .slot i => i < v.length

/-- Another child for one object. -/
def put (v : Seen) (r : ProcRef) (child : Option Bool) : Seen :=
  { v with shows := Function.update v.shows r child }

/-- One more slot. -/
def grow (v : Seen) (child : Option Bool) : Seen :=
  { v with length := v.length + 1 }.put (.slot v.length) child

/-- Other children for the first slots. -/
def sweep (v : Seen) (after : ℕ → Option Bool) (k : ℕ) : Seen where
  stop := v.stop
  length := v.length
  shows
    | .mtx => v.shows .mtx
    | .slot i => if i < k then after i else v.shows (.slot i)

variable (v : Seen) (r : ProcRef) (child child' : Option Bool)

@[simp] theorem stop_put : (v.put r child).stop = v.stop := rfl

@[simp] theorem length_put : (v.put r child).length = v.length := rfl

@[simp] theorem has_put (r' : ProcRef) : (v.put r child).Has r' ↔ v.Has r' := by
  cases r' <;> rfl

@[simp] theorem put_put : (v.put r child).put r child' = v.put r child' := by
  simp [put]

@[simp] theorem put_shows : v.put r (v.shows r) = v := by
  simp [put]

/-- A slot that is new and has no child adds to the number only. -/
theorem grow_none {v : Seen} (h : v.shows (.slot v.length) = none) :
    v.grow none = { v with length := v.length + 1 } := by
  have hsame : Function.update v.shows (.slot v.length) none = v.shows := by
    rw [← h, Function.update_eq_self]
  exact Seen.ext rfl rfl hsame

theorem sweep_zero (after : ℕ → Option Bool) : v.sweep after 0 = v := by
  refine Seen.ext rfl rfl (funext fun r => ?_)
  cases r <;> simp [sweep]

/-- The sweep puts one child after the other. -/
theorem sweep_succ (after : ℕ → Option Bool) (k : ℕ) :
    v.sweep after (k + 1) = (v.sweep after k).put (.slot k) (after k) := by
  refine Seen.ext rfl rfl (funext fun r => ?_)
  cases r with
  | mtx => simp [sweep, put]
  | slot i =>
    by_cases hi : i = k
    · subst hi
      simp [sweep, put]
    · have hput : ((v.sweep after k).put (.slot k) (after k)).shows (.slot i)
          = (v.sweep after k).shows (.slot i) := by
        simp [put, hi]
      have hlt : i < k + 1 ↔ i < k := by omega
      rw [hput]
      exact if_congr hlt rfl rfl

end Seen

/-! ## Operations

For each operation one lemma says what is seen afterwards. They need that no
two objects hold the same process, since then a process that is ended for one
object is not ended for another. -/

namespace Procs

/-- No two objects hold one process, and a process that is held was created. -/
structure Apart (p : Procs) : Prop where
  lt_next : ∀ r pid, p.handle r = some pid → pid < p.next
  unique : ∀ r r' pid, p.handle r = some pid → p.handle r' = some pid → r = r'

variable {p : Procs}

@[simp] theorem next_setHandle (p : Procs) (h : Option ℕ) (r : ProcRef) :
    (p.setHandle h r).next = p.next := by
  cases r <;> rfl

@[simp] theorem length_setHandle (p : Procs) (h : Option ℕ) (r : ProcRef) :
    (p.setHandle h r).slots.length = p.slots.length := by
  cases r <;> simp [setHandle]

/-- An object that is not there holds nothing. -/
theorem handle_of_not_has {r : ProcRef} (h : ¬ p.Has r) :
    p.handle r = none := by
  cases r with
  | mtx => exact absurd trivial h
  | slot i =>
    have hlen : p.slots.length ≤ i := Nat.le_of_not_lt h
    simp [handle, hlen]

theorem handle_stop_self (p : Procs) (r : ProcRef) :
    (p.stop r).handle r = none := by
  rw [handle_stop]
  split
  next => rfl
  next h => exact handle_of_not_has (fun hr => h ⟨rfl, hr⟩)

theorem handle_stop_of_ne {r r' : ProcRef} (h : r ≠ r') :
    (p.stop r).handle r' = p.handle r' := by
  rw [handle_stop, if_neg (fun heq => h heq.1)]

/-- A stopped object has no child, and nothing else is seen of it. -/
theorem seen_stop (h : p.Apart) (r : ProcRef) :
    (p.stop r).seen = p.seen.put r none := by
  refine Seen.ext (by simp [stop, seen, kill]) (by simp [stop, seen, kill])
    (funext fun r' => ?_)
  by_cases hr : r = r'
  · subst hr
    simp [seen, Seen.put, shows, handle_stop_self]
  · have hput : (p.seen.put r none).shows r' = p.shows r' := by
      simp [Seen.put, seen, Ne.symm hr]
    rw [hput]
    show ((p.stop r).handle r').map _ = (p.handle r').map _
    rw [handle_stop_of_ne hr]
    cases hr' : p.handle r' with
    | none => rfl
    | some pid =>
      have hne : some pid ≠ p.handle r :=
        fun heq => hr (h.unique r r' pid heq.symm hr')
      simp [stop, mem_kill, hne]

theorem Apart.stop (h : p.Apart) (r : ProcRef) : (p.stop r).Apart where
  lt_next r' pid hr' := by
    rw [handle_stop] at hr'
    split at hr'
    next => cases hr'
    next =>
      have hlt : pid < p.next := h.lt_next r' pid hr'
      simpa [Procs.stop, kill] using hlt
  unique r₁ r₂ pid h₁ h₂ := by
    rw [handle_stop] at h₁ h₂
    split at h₁
    next => cases h₁
    next =>
      split at h₂
      next => cases h₂
      next => exact h.unique r₁ r₂ pid h₁ h₂

section Start

variable {r : ProcRef} (late : Bool)

theorem alive_start :
    (p.start r late true).alive = p.next :: (p.stop r).alive := rfl

theorem next_stop (p : Procs) (r : ProcRef) : (p.stop r).next = p.next := by
  simp [stop, kill]

/-- The process that is created is behind the handle. -/
theorem handle_start (hr : p.Has r) (r' : ProcRef) :
    (p.start r late true).handle r' = if r = r' then
      some p.next else (p.stop r).handle r' := by
  by_cases hrr : r = r'
  · subst hrr
    have hhas : (p.stop r).Has r := by
      cases r with
      | mtx => trivial
      | slot i => simpa [Has, stop, kill] using hr
    rw [if_pos rfl]
    exact handle_setHandle_self hhas
  · rw [if_neg hrr]
    exact handle_setHandle_of_ne hrr

/-- An object that was started has a live child if one was created, and nothing
else is seen of it. -/
theorem seen_start (h : p.Apart) (hr : p.Has r) (created : Bool) :
    (p.start r late created).seen = p.seen.put r
      (if created then some true else none) := by
  cases created with
  | false => exact seen_stop h r
  | true =>
    have hstop : (p.stop r).seen = p.seen.put r none := seen_stop h r
    rw [← Seen.put_put p.seen r none, ← hstop]
    refine Seen.ext (by simp [start, seen]) (by simp [start, seen])
      (funext fun r' => ?_)
    show ((p.start r late true).handle r').map _ = _
    rw [handle_start late hr]
    by_cases hrr : r = r'
    · subst hrr
      simp [Seen.put, alive_start]
    · have hput : ((p.stop r).seen.put r (some true)).shows r'
          = (p.stop r).shows r' := by
        simp [Seen.put, seen, Ne.symm hrr]
      rw [if_neg hrr, if_pos rfl, hput, shows]
      cases hr' : (p.stop r).handle r' with
      | none => rfl
      | some pid =>
        have hlt : pid < (p.stop r).next := (h.stop r).lt_next r' pid hr'
        have hne : pid ≠ p.next := by
          rw [next_stop] at hlt
          omega
        simp [alive_start, hne]

theorem Apart.start (h : p.Apart) (hr : p.Has r) (created : Bool) :
    (p.start r late created).Apart := by
  cases created with
  | false => exact h.stop r
  | true =>
    have hold : ∀ r' pid, (p.stop r).handle r' = some pid → pid < p.next :=
      fun r' pid hr' => by
      have hlt := (h.stop r).lt_next r' pid hr'
      rwa [next_stop] at hlt
    constructor
    · intro r' pid hr'
      show pid < p.next + 1
      rw [handle_start late hr] at hr'
      split at hr'
      next =>
        obtain rfl := Option.some.inj hr'
        exact Nat.lt_succ_self _
      next => exact Nat.lt_succ_of_lt (hold r' pid hr')
    · intro r₁ r₂ pid h₁ h₂
      rw [handle_start late hr] at h₁ h₂
      split at h₁
      next hr₁ =>
        split at h₂
        next hr₂ => exact hr₁.symm.trans hr₂
        next =>
          obtain rfl := Option.some.inj h₁
          exact absurd (hold r₂ _ h₂) (Nat.lt_irrefl _)
      next =>
        split at h₂
        next =>
          obtain rfl := Option.some.inj h₂
          exact absurd (hold r₁ _ h₁) (Nat.lt_irrefl _)
        next => exact (h.stop r).unique r₁ r₂ pid h₁ h₂

end Start

/-- A child that exits is dead, and nothing else is seen of it. -/
theorem seen_kill (h : p.Apart) {r : ProcRef} {pid : ℕ}
    (hr : p.handle r = some pid) :
    (p.kill (some pid)).seen = p.seen.put r (some false) := by
  refine Seen.ext rfl rfl (funext fun r' => ?_)
  show ((p.kill (some pid)).handle r').map _ = _
  have hhandle : (p.kill (some pid)).handle r' = p.handle r' := rfl
  rw [hhandle]
  by_cases hrr : r' = r
  · subst hrr
    simp [Seen.put, hr, mem_kill]
  · have hput : (p.seen.put r (some false)).shows r' = p.shows r' := by
      simp [Seen.put, seen, hrr]
    rw [hput, shows]
    cases hr' : p.handle r' with
    | none => rfl
    | some pid' =>
      have hne : pid' ≠ pid := by
        rintro rfl
        exact hrr (h.unique r' r pid' hr' hr)
      simp [mem_kill, hne]

/-- A slot that is new holds nothing, as it did when it was not there. -/
theorem handle_addSlot (p : Procs) (r : ProcRef) :
    ({ p with slots := p.slots ++ [none] } : Procs).handle r = p.handle r := by
  cases r with
  | mtx => rfl
  | slot i =>
    show (p.slots ++ [none])[i]?.join = p.slots[i]?.join
    rcases Nat.lt_trichotomy i p.slots.length with hi | rfl | hi
    · rw [List.getElem?_append_left hi]
    · simp
    · have hlen : (p.slots ++ [none]).length ≤ i := by
        rw [List.length_append]
        exact hi
      rw [List.getElem?_eq_none hlen, List.getElem?_eq_none (Nat.le_of_lt hi)]

theorem seen_addSlot (p : Procs) :
    ({ p with slots := p.slots ++ [none] } : Procs).seen
      = p.seen.grow none := by
  have hnone : p.seen.shows (.slot p.seen.length) = none := by
    simp [seen, shows, handle]
  rw [Seen.grow_none hnone]
  refine Seen.ext rfl (by simp [seen]) (funext fun r => ?_)
  show (({ p with slots := p.slots ++ [none] } : Procs).handle r).map _ = _
  rw [handle_addSlot]
  rfl

/-- Objects that hold the same stay apart. -/
theorem Apart.congr {q : Procs} (h : p.Apart)
    (hhandle : ∀ r, q.handle r = p.handle r)
    (hnext : q.next = p.next) : q.Apart where
  lt_next r pid hr := by
    rw [hnext]
    exact h.lt_next r pid (hhandle r ▸ hr)
  unique r r' pid hr hr' :=
    h.unique r r' pid (hhandle r ▸ hr) (hhandle r' ▸ hr')

end Procs

/-! ## Sections

A section is a list of operations, and while it is carried out further
operations come up: a start stops first, and a replaced object is destroyed.
`Completes` says that all of this is done, and `Leads` says what is seen when
it is. -/

/-- A thread that is not disturbed executes these operations and what follows
from them. -/
inductive Completes : Procs → List ProcOp → Procs → Prop
  | nil (p : Procs) : Completes p [] p
  | cons {p q : Procs} {op : ProcOp} {ops : List ProcOp} (created : Bool)
      (h : Completes (exec p created op).1 ((exec p created op).2 ++ ops) q) :
      Completes p (op :: ops) q

/-- Two lists of operations, one after the other. -/
theorem Completes.append {p q t : Procs} {ops ops' : List ProcOp}
    (h : Completes p ops q)
    (h' : Completes q ops' t) : Completes p (ops ++ ops') t := by
  induction h with
  | nil p => exact h'
  | cons created h ih =>
    have hrest := ih h'
    rw [List.append_assoc] at hrest
    exact .cons created hrest

/-- Wherever `v` is seen, the operations can end where `w` is seen. -/
def Leads (ops : List ProcOp) (v w : Seen) : Prop :=
  ∀ p : Procs, p.Apart → p.seen = v → ∃ q,
    Completes p ops q ∧ q.Apart ∧ q.seen = w

/-- What is seen of a child that a start finds. -/
def StartOutcome.shown (o : StartOutcome) : Option Bool :=
  o.created.map (fun _ => true)

namespace Leads

variable {u v w : Seen} {ops ops' : List ProcOp}

theorem nil (v : Seen) : Leads [] v v := fun p hp hv => ⟨p, .nil p, hp, hv⟩

theorem append (h : Leads ops u v) (h' : Leads ops' v w) :
    Leads (ops ++ ops') u w := by
  intro p hp hu
  obtain ⟨q, hq, hqa, hqv⟩ := h p hp hu
  obtain ⟨t, ht, hta, htw⟩ := h' q hqa hqv
  exact ⟨t, hq.append ht, hta, htw⟩

theorem cons {op : ProcOp} (h : Leads [op] u v) (h' : Leads ops v w) :
    Leads (op :: ops) u w :=
  h.append h'

theorem stop (v : Seen) (r : ProcRef) : Leads [.stop r] v (v.put r none) := by
  rintro p hp rfl
  exact ⟨p.stop r, .cons false (.nil _), hp.stop r, Procs.seen_stop hp r⟩

/-- The old process is destroyed with its object. -/
theorem rebuild (v : Seen) (i : ℕ) :
    Leads [.rebuild i] v (v.put (.slot i) none) := by
  rintro p hp rfl
  exact ⟨p.stop (.slot i), .cons false (.cons false (.nil _)), hp.stop _,
    Procs.seen_stop hp _⟩

/-- `StartNoSleep` does nothing once shutdown has begun. -/
theorem startNoSleep {r : ProcRef} (hr : v.Has r) (o : StartOutcome) :
    Leads [.startNoSleep r] v (if v.stop then v else v.put r o.shown) := by
  rintro p hp rfl
  have hhas : p.Has r := by
    cases r with
    | mtx => trivial
    | slot i => exact hr
  cases hstop : p.gStop with
  | true =>
    refine ⟨p, .cons false (.cons false ?_), hp, by simp [Procs.seen, hstop]⟩
    simpa [exec, hstop] using Completes.nil p
  | false =>
    refine ⟨p.start r p.gStop o.created.isSome, .cons false (.cons false ?_),
      hp.start _ hhas _, ?_⟩
    · have hstart : Completes p [.start r p.gStop]
          (p.start r p.gStop o.created.isSome) := by
        refine .cons o.created.isSome ?_
        simpa [exec, hhas] using Completes.nil _
      simpa [exec, hstop] using hstart
    · rw [Procs.seen_start p.gStop hp hhas]
      cases ho : o.created <;> simp [Procs.seen, hstop, StartOutcome.shown, ho]

theorem addSlot (v : Seen) : Leads [.addSlot] v (v.grow none) := by
  rintro p hp rfl
  exact ⟨_, .cons false (.nil _), hp.congr (Procs.handle_addSlot p) rfl,
    Procs.seen_addSlot p⟩

theorem setStop (v : Seen) : Leads [.setStop] v { v with stop := true } := by
  rintro p hp rfl
  exact ⟨_, .cons false (.nil _), hp.congr (fun _ => rfl) rfl, rfl⟩

/-- One section for each slot, in the order of the slots. -/
theorem sweep {ops : ℕ → List ProcOp} {after : ℕ → Option Bool}
    (h : ∀ i < v.length, ∀ w : Seen, w.stop = v.stop → w.length = v.length →
      w.shows (.slot i) = v.shows (.slot i) →
      Leads (ops i) w (w.put (.slot i) (after i))) :
    Leads ((List.range v.length).flatMap ops) v (v.sweep after v.length) := by
  have hk : ∀ k ≤ v.length,
      Leads ((List.range k).flatMap ops) v (v.sweep after k) := by
    intro k
    induction k with
    | zero =>
      intro _
      rw [Seen.sweep_zero]
      exact nil v
    | succ k ih =>
      intro hle
      rw [List.range_succ, List.flatMap_append, List.flatMap_singleton,
        Seen.sweep_succ]
      have hsame : (v.sweep after k).shows (.slot k) = v.shows (.slot k) :=
        if_neg (by omega)
      exact (ih (by omega)).append (h k hle _ rfl rfl hsame)
  exact hk _ (Nat.le_refl _)

/-- What is started after it was stopped, or after its object was replaced. -/
theorem thenStart {r : ProcRef} (h : Leads ops v (v.put r none)) (hr : v.Has r)
    (o : StartOutcome) :
    Leads (ops ++ [.startNoSleep r]) v
      (v.put r (if v.stop then none else o.shown)) := by
  have hstart := startNoSleep ((v.has_put r none r).mpr hr) o
  cases hstop : v.stop with
  | true => simpa [hstop] using h.append hstart
  | false => simpa [hstop] using h.append hstart

theorem restart {r : ProcRef} (hr : v.Has r) (o : StartOutcome) :
    Leads (restartOps r) v (v.put r (if v.stop then none else o.shown)) :=
  (stop v r).thenStart hr o

theorem rebuildStart {i : ℕ} (hi : i < v.length) (o : StartOutcome) :
    Leads [.rebuild i, .startNoSleep (.slot i)] v
      (v.put (.slot i) (if v.stop then none else o.shown)) :=
  (rebuild v i).thenStart (r := .slot i) hi o

theorem stopRebuildStart {i : ℕ} (hi : i < v.length) (o : StartOutcome) :
    Leads [.stop (.slot i), .rebuild i, .startNoSleep (.slot i)] v
      (v.put (.slot i) (if v.stop then none else o.shown)) := by
  have hrebuilt : Leads [.stop (.slot i),
      .rebuild i] v (v.put (.slot i) none) := by
    simpa using (stop v (.slot i)).cons (rebuild _ i)
  exact hrebuilt.thenStart (r := .slot i) hi o

/-- The publisher of a slot without a child is started if the camera is
enabled. -/
theorem startIfEnabled {r : ProcRef} (hr : v.Has r) (hnone : v.shows r = none)
    (enabled : Bool)
    (o : StartOutcome) :
    Leads (if enabled then [.startNoSleep r] else []) v
      (v.put r (if enabled = true ∧
        v.stop = false then o.shown else none)) := by
  have hsame : v.put r none = v := by
    rw [← hnone, Seen.put_shows]
  cases enabled with
  | false => simpa [hsame] using nil v
  | true =>
    have hstart := startNoSleep hr o
    cases hs : v.stop with
    | true => simpa [hs, hsame] using hstart
    | false => simpa [hs] using hstart

/-- A slot is added, and its publisher is started if the camera is enabled. -/
theorem addStarted (v : Seen) (enabled : Bool) (o : StartOutcome) :
    Leads (.addSlot :: if enabled then [.startNoSleep (.slot v.length)] else [])
      v
      (v.grow (if enabled = true ∧ v.stop = false then o.shown else none)) := by
  have hhas : (v.grow none).Has (.slot v.length) := Nat.lt_succ_self _
  have hnone : (v.grow none).shows (.slot v.length) = none := by
    simp [Seen.grow, Seen.put]
  have hput : ∀ child,
      (v.grow none).put (.slot v.length) child = v.grow child := fun child => by
    simp [Seen.grow]
  have hstart := (addSlot v).cons (startIfEnabled hhas hnone enabled o)
  rwa [hput] at hstart

/-- New slots, none of which has a child. -/
theorem addSlots (l : List Bool) {v : Seen}
    (hv : ∀ i, v.shows (.slot i) = none) :
    Leads (l.map (fun _ => .addSlot)) v { v with
      length := v.length + l.length } := by
  induction l generalizing v with
  | nil => exact .nil v
  | cons e l ih =>
    have hgrow : v.grow none = { v with length := v.length + 1 } :=
      Seen.grow_none (hv v.length)
    have hrest := @ih { v with length := v.length + 1 } hv
    have hlen : v.length + (e :: l).length = v.length + 1 + l.length := by
      simp
      omega
    rw [hlen]
    exact (hgrow ▸ addSlot v).cons hrest

end Leads

/-- The section that adds the new slots, one camera more. -/
theorem partOps_append_concat (n : ℕ) (added : List Bool) (enabled : Bool) :
    partOps n { added := added ++ [enabled] } .append
      = partOps n { added := added } .append
        ++ (.addSlot :: if enabled then [.startNoSleep
          (.slot (n + added.length))] else []) := by
  simp [partOps, List.mapIdx_append]

/-- The publishers of the enabled cameras, in the order of the slots. -/
theorem flatten_mapIdx_eq_flatMap (cameras : List Bool) :
    (cameras.mapIdx (fun i enabled =>
        if enabled then [ProcOp.startNoSleep (.slot i)] else [])).flatten
      = (List.range cameras.length).flatMap (fun i =>
        if cameras[i]?.getD false then
          [ProcOp.startNoSleep (.slot i)]
        else []) := by
  rw [List.flatMap_def]
  congr 1
  refine List.ext_getElem? (fun i => ?_)
  by_cases hi : i < cameras.length
  · simp [hi]
  · simp [hi]

/-! ## Runs of a section

A thread that is not disturbed carries out its section operation by operation.
This connects the sections to the program in which the threads interleave. -/

open Runs

/-- A thread that executes one operation after the other carries out a whole
section; `prog` is the program while it does. -/
theorem run_section (prog : Procs → List ProcOp → Program) {p q : Procs}
    {ops : List ProcOp}
    (hstep : ∀ p created op ops, ∃ e, programStep (prog p (op :: ops)) e
      = some (prog (exec p created op).1 ((exec p created op).2 ++ ops)))
    (h : Completes p ops q) :
    ∃ es, run programStep (prog p ops) es = some (prog q []) := by
  induction h with
  | nil p => exact ⟨[], run_nil⟩
  | cons created h ih =>
    obtain ⟨e, he⟩ := hstep _ created _ _
    obtain ⟨es, hes⟩ := ih
    exact ⟨e :: es, run_cons_iff.mpr ⟨_, he, hes⟩⟩

end WebcamStreamer
