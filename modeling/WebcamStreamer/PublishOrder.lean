import WebcamStreamer.Credentials
import WebcamStreamer.ViewerCount
import Mathlib.Logic.Function.Basic

/-!
# The order in which snapshots reach the client

Three threads publish on the control pipe: the one that serves requests, the one
that serves the hooks, and the main thread in its loop. Each takes
`state_mutex`, changes the state and describes cameras as they are then; sending
takes a lock of the pipe only. The request handler and the loop send while they
still hold `state_mutex`. The hook handler releases it first and sends
afterwards, and in between the other threads may take it, describe the same
camera again, and send.

`threadStep` is the system at this grain. A locked section is one step, which
stamps the events it is to send in the order in which their snapshots are taken;
sending an event, and releasing the mutex, are steps of their own. That a tick
sends its first event before it takes its second snapshot makes no difference to
the stamps, since no other thread takes a snapshot meanwhile.
-/

namespace WebcamStreamer

/-! ## The threads

A description of a camera is made in a locked section and sent at the end of
it, except by the hook handler, which sends after it has given the mutex back.
To speak about the order, each description carries the number of its
section. -/

/-- The threads that publish what the state is. -/
inductive Thread where
  | ipc
  | events
  | loop
  deriving DecidableEq

/-- The thread that takes an action; nobody, where it befalls the supervisor. -/
def Action.thread : Action → Option Thread
  | .request _ => some .ipc
  | .hook _ => some .events
  | .beginLoop | .tick | .diffPresence _ | .finishReconcile _ => some .loop
  | .publisherExit _ _ | .mtxExit _ | .consoleSignal | .editSettings _ => none

/-- An event, and the number of its snapshot. -/
structure Payload where
  stamp : ℕ
  event : Event

/-- Two payloads describe the same camera, which its path identifies. -/
def SameCamera (a b : Payload) : Prop :=
  ∃ c ∈ a.event.cams, ∃ d ∈ b.event.cams, c.path = d.path

instance : DecidableRel SameCamera := fun a b =>
  inferInstanceAs (Decidable (∃ c ∈ a.event.cams, ∃ d ∈ b.event.cams,
    c.path = d.path))

/-- The supervisor with its threads: who holds `state_mutex`, what each thread
has still to send, and what was sent. -/
structure Threads where
  sup : Supervisor
  owner : Option Thread := none
  unsent : Thread → List Payload := fun _ => []
  sent : List Payload := []
  /-- The number of snapshots taken so far. -/
  clock : ℕ := 0

/-- What the threads do, and what happens to the supervisor meanwhile. -/
inductive ThreadAction where
  /-- A thread takes the mutex and runs its locked section. -/
  | locked (st : Step)
  | release (th : Thread)
  /-- A thread calls `PublishEvent`. -/
  | publish (th : Thread)
  | outside (st : Step)

/-- The events of a locked section, stamped in their order. -/
def stampFrom (clock : ℕ) (events : List Event) : List Payload :=
  events.mapIdx (fun i e => ⟨clock + i, e⟩)

/-- Whether a thread is where it sends: the hook handler after its locked
section, the others within theirs. -/
def Threads.sends (t : Threads) : Thread → Bool
  | .events => decide (t.owner ≠ some .events)
  | th => decide (t.owner = some th)

/-- One step of one thread. -/
def threadStep (t : Threads) : ThreadAction → Option Threads
  | .locked st =>
    match st.action.thread with
    | none => none
    | some th =>
      if t.owner = none ∧ t.unsent th = [] then
        (step t.sup st).map (fun out =>
          { t with
            sup := out.1
            owner := some th
            unsent := Function.update t.unsent th (stampFrom t.clock out.2)
            clock := t.clock + out.2.length })
      else none
  | .release th =>
    if t.owner = some th ∧ (th = .events ∨ t.unsent th = []) then
      some { t with owner := none }
    else none
  | .publish th =>
    match t.unsent th with
    | [] => none
    | x :: rest =>
      if t.sends th = true then
        some { t with
          unsent := Function.update t.unsent th rest, sent := t.sent ++ [x] }
      else none
  | .outside st =>
    match st.action.thread with
    | none => (step t.sup st).map (fun out => { t with sup := out.1 })
    | some _ => none

/-! ## The threads and the atomic system

The threads do not do anything to the supervisor that the atomic system of the
other modules does not do. Every run of the threads is a run of that system,
where a locked section is one step. -/

/-- The step of the atomic system that an action takes, if any. -/
def ThreadAction.step? : ThreadAction → Option Step
  | .locked st | .outside st => some st
  | .release _ | .publish _ => none

/-- **What one step of one thread can do.** A locked section changes the
supervisor at once and leaves its events to be sent, one by one; the lock is
given back when they are sent, or before by the thread of the hooks. -/
inductive ThreadStepsTo (t : Threads) : ThreadAction → Threads → Prop where
  | locked {st : Step} {th : Thread} {out : Outcome}
      (hth : st.action.thread = some th)
      (howner : t.owner = none) (hnone : t.unsent th = [])
      (hstep : step t.sup st = some out) :
      ThreadStepsTo t (.locked st)
        { t with
          sup := out.1
          owner := some th
          unsent := Function.update t.unsent th (stampFrom t.clock out.2)
          clock := t.clock + out.2.length }
  | release {th : Thread} (howner : t.owner = some th)
      (hnone : th = .events ∨ t.unsent th = []) :
      ThreadStepsTo t (.release th) { t with owner := none }
  | publish {th : Thread} {x : Payload} {rest : List Payload}
      (hx : t.unsent th = x :: rest)
      (hsends : t.sends th = true) :
      ThreadStepsTo t (.publish th)
        { t with
          unsent := Function.update t.unsent th rest, sent := t.sent ++ [x] }
  | outside {st : Step} {out : Outcome} (hth : st.action.thread = none)
      (hstep : step t.sup st = some out) :
      ThreadStepsTo t (.outside st) { t with sup := out.1 }

theorem threadStepsTo_of_threadStep {t t' : Threads} {a : ThreadAction}
    (h : threadStep t a = some t') : ThreadStepsTo t a t' := by
  cases a with
  | locked st =>
    simp only [threadStep] at h
    split at h
    next => cases h
    next th hth =>
      split at h
      next hfree =>
        obtain ⟨out, hout, rfl⟩ := Option.map_eq_some_iff.mp h
        exact .locked hth hfree.1 hfree.2 hout
      next => cases h
  | release th =>
    simp only [threadStep] at h
    split at h
    next howner =>
      obtain rfl := Option.some.inj h
      exact .release howner.1 howner.2
    next => cases h
  | publish th =>
    simp only [threadStep] at h
    split at h
    next => cases h
    next x rest hx =>
      split at h
      next hsends =>
        obtain rfl := Option.some.inj h
        exact .publish hx hsends
      next => cases h
  | outside st =>
    simp only [threadStep] at h
    split at h
    next hth =>
      obtain ⟨out, hout, rfl⟩ := Option.map_eq_some_iff.mp h
      exact .outside hth hout
    next => cases h

/-- **The threads take the supervisor through a run of the atomic system**, in
which each locked section is one step. Sending an event changes nothing of the
state, so that the invariants of the atomic system hold between the threads as
well. -/
theorem run_next_of_run_threadStep {t t' : Threads} {as : List ThreadAction}
    (h : Runs.run threadStep t as = some t') :
    Runs.run next t.sup (as.filterMap ThreadAction.step?) = some t'.sup := by
  induction as generalizing t with
  | nil =>
    obtain rfl := Option.some.inj h
    rfl
  | cons a as ih =>
    obtain ⟨t₁, hstep, hrest⟩ := Runs.run_cons_iff.mp h
    cases threadStepsTo_of_threadStep hstep with
    | @locked st th out hth howner hnone hout | @outside st out hth hout =>
      have hnext : next t.sup st = some out.1 := by
        rw [next, hout, Option.map_some]
      exact Runs.run_cons_iff.mpr ⟨out.1, hnext, ih hrest⟩
    | release | publish =>
      have hsup := ih hrest
      exact hsup

/-! ## What is to hold

Two descriptions of one camera have to arrive in the order in which they were
made. The condition speaks of the moment at which another thread sends while
the hook handler still has one of the same camera. -/

/-- Payloads for the same camera come in the order of their snapshots. -/
def InOrder (payloads : List Payload) : Prop :=
  payloads.Pairwise (fun a b => SameCamera a b → a.stamp < b.stamp)

instance : DecidablePred InOrder := fun payloads =>
  inferInstanceAs (Decidable
    (payloads.Pairwise (fun a b => SameCamera a b → a.stamp < b.stamp)))

/-- **What the client has received is in order**, and it stays so when the hook
handler sends what it has described already. -/
structure DeliversInOrder (t : Threads) : Prop where
  sent : InOrder t.sent
  owed : InOrder (t.sent ++ t.unsent .events)

/-- **The condition.** While the hook handler has a description of a camera
still to send, no other thread sends one. That handler gives the lock back
before it sends, and so the others can come in between. -/
def NotOvertaking (t : Threads) (a : ThreadAction) : Prop :=
  match a with
  | .publish th => th ≠ .events →
    ∀ x ∈ (t.unsent th).head?, ∀ b ∈ t.unsent .events, ¬ SameCamera x b
  | _ => True

/-! ## The stamps

The stamps are an invariant of their own: they increase within each thread,
and what a thread that holds the mutex has to send is newer than all that was
sent. Only the hook handler can have something older. -/

theorem stampFrom_ge {clock : ℕ} {events : List Event} :
    ∀ a ∈ stampFrom clock events, clock ≤ a.stamp ∧
      a.stamp < clock + events.length := by
  intro a ha
  obtain ⟨i, hi, rfl⟩ := List.mem_mapIdx.mp ha
  exact ⟨Nat.le_add_right _ _, Nat.add_lt_add_left hi _⟩

theorem stampFrom_pairwise (clock : ℕ) (events : List Event) :
    (stampFrom clock events).Pairwise (fun a b => a.stamp < b.stamp) := by
  rw [List.pairwise_iff_getElem]
  intro i j hi hj hij
  simp only [stampFrom, List.getElem_mapIdx]
  omega

/-- **The invariant of the stamps.** Every stamp is below the clock, each thread
sends its payloads in order, and only the owner of the mutex has payloads to
send, the hook handler apart. The owner's are newer than everything sent or
held back by the hook handler. -/
structure Stamped (t : Threads) : Prop where
  sent_lt : ∀ a ∈ t.sent, a.stamp < t.clock
  unsent_lt : ∀ th, ∀ a ∈ t.unsent th, a.stamp < t.clock
  unsent_ordered : ∀ th, (t.unsent th).Pairwise (fun a b => a.stamp < b.stamp)
  owner : ∀ th, th ≠ .events → t.owner ≠ some th → t.unsent th = []
  sent_lt_owner :
    ∀ th, th ≠ .events → ∀ a ∈ t.sent, ∀ b ∈ t.unsent th, a.stamp < b.stamp
  late_lt_owner :
    ∀ th, th ≠ .events → ∀ a ∈ t.unsent .events, ∀ b ∈ t.unsent th,
    a.stamp < b.stamp

/-- A thread other than the hook handler sends while it owns the mutex. -/
theorem Threads.owner_of_sends {t : Threads} {th : Thread} (hth : th ≠ .events)
    (h : t.sends th = true) : t.owner = some th := by
  cases th with
  | events => exact absurd rfl hth
  | ipc => exact of_decide_eq_true h
  | loop => exact of_decide_eq_true h

namespace Stamped

variable {t : Threads}

theorem start (sup : Supervisor) : Stamped { sup } := by
  constructor
  all_goals intros; first | contradiction | simp

/-- A thread takes the mutex: nobody but the hook handler has anything to send,
and the new stamps are above all others. -/
theorem locked (h : Stamped t) {th : Thread} {out : Outcome}
    (howner : t.owner = none) :
    Stamped { t with
      sup := out.1
      owner := some th
      unsent := Function.update t.unsent th (stampFrom t.clock out.2)
      clock := t.clock + out.2.length } := by
  have hfree : ∀ th', th' ≠ .events → t.unsent th' = [] := fun th' hth' =>
    h.owner th' hth' (by rw [howner]; simp)
  refine ⟨fun a ha => Nat.lt_add_right _ (h.sent_lt a ha), ?_, ?_, ?_, ?_, ?_⟩
  -- for each part: the thread that takes the mutex, and every other one
  · refine (Function.forall_update_iff t.unsent
      (fun _ xs => ∀ a ∈ xs, a.stamp < t.clock + out.2.length)).mpr ⟨?_,
        fun th' _ a ha => ?_⟩
    · exact fun a ha => (stampFrom_ge a ha).2
    · exact Nat.lt_add_right _ (h.unsent_lt th' a ha)
  · refine (Function.forall_update_iff t.unsent
      (fun _ xs => xs.Pairwise (fun a b => a.stamp < b.stamp))).mpr ⟨?_,
        fun th' _ => ?_⟩
    · exact stampFrom_pairwise _ _
    · exact h.unsent_ordered th'
  · refine (Function.forall_update_iff t.unsent
      (fun th' xs => th' ≠ .events → some th ≠ some th' → xs = [])).mpr ⟨?_,
        fun th' _ hth' _ => ?_⟩
    · exact fun _ hne => absurd rfl hne
    · exact hfree th' hth'
  · refine (Function.forall_update_iff t.unsent
      (fun th' xs => th' ≠ .events → ∀ a ∈ t.sent, ∀ b ∈ xs,
        a.stamp < b.stamp)).mpr
      ⟨fun _ a ha b hb => ?_, fun th' _ hth' a _ b hb => ?_⟩
    · exact Nat.lt_of_lt_of_le (h.sent_lt a ha) (stampFrom_ge b hb).1
    · rw [hfree th' hth'] at hb
      exact absurd hb List.not_mem_nil
  · refine (Function.forall_update_iff t.unsent (fun th' xs => th' ≠ .events →
      ∀ a ∈ Function.update t.unsent th (stampFrom t.clock out.2) .events,
        ∀ b ∈ xs,
        a.stamp < b.stamp)).mpr ⟨fun hth a ha b hb => ?_,
          fun th' _ hth' a _ b hb => ?_⟩
    · rw [Function.update_of_ne (Ne.symm hth)] at ha
      exact Nat.lt_of_lt_of_le (h.unsent_lt _ a ha) (stampFrom_ge b hb).1
    · rw [hfree th' hth'] at hb
      exact absurd hb List.not_mem_nil

/-- The owner releases the mutex, with nothing left to send unless it is the
hook handler. -/
theorem release (h : Stamped t) {th : Thread} (howner : t.owner = some th)
    (hnone : th = .events ∨ t.unsent th = []) :
    Stamped { t with owner := none } := by
  refine ⟨h.sent_lt, h.unsent_lt, h.unsent_ordered, fun th' hth' _ => ?_,
    h.sent_lt_owner,
    h.late_lt_owner⟩
  by_cases heq : th' = th
  · subst heq
    exact hnone.resolve_left hth'
  · exact h.owner th' hth'
      (by rw [howner]; exact fun hsome => heq (Option.some.inj hsome).symm)

/-- A thread sends its first payload. -/
theorem publish (h : Stamped t) {th : Thread} {x : Payload}
    {rest : List Payload}
    (hx : t.unsent th = x :: rest) (hsends : t.sends th = true) :
    Stamped { t with
      unsent := Function.update t.unsent th rest, sent := t.sent ++ [x] } := by
  obtain ⟨hfirst, hrest⟩ := List.pairwise_cons.mp (hx ▸ h.unsent_ordered th)
  have hmem : x ∈ t.unsent th := hx ▸ List.mem_cons_self
  -- nothing is to be sent that was not to be sent before
  have hsub : ∀ th', ∀ a ∈ Function.update t.unsent th rest th',
      a ∈ t.unsent th' :=
    (Function.forall_update_iff t.unsent (fun th' xs => ∀ a ∈ xs,
      a ∈ t.unsent th')).mpr
      ⟨fun a ha => hx ▸ List.mem_cons_of_mem _ ha, fun _ _ a ha => ha⟩
  refine ⟨fun a ha => ?_, fun th' a ha => h.unsent_lt th' a (hsub th' a ha), ?_,
    fun th' hth' hne => ?_, ?_, fun th' hth' a ha b hb => ?_⟩
  · rcases List.mem_append.mp ha with ha | ha
    · exact h.sent_lt a ha
    · obtain rfl := List.mem_singleton.mp ha
      exact h.unsent_lt th a hmem
  · exact (Function.forall_update_iff t.unsent
      (fun _ xs => xs.Pairwise (fun a b => a.stamp < b.stamp))).mpr
      ⟨hrest, fun th' _ => h.unsent_ordered th'⟩
  · refine List.eq_nil_iff_forall_not_mem.mpr (fun a ha => ?_)
    have hin := hsub th' a ha
    rw [h.owner th' hth' hne] at hin
    exact List.not_mem_nil hin
  · refine (Function.forall_update_iff t.unsent
      (fun th' xs => th' ≠ .events → ∀ a ∈ t.sent ++ [x], ∀ b ∈ xs,
        a.stamp < b.stamp)).mpr
      ⟨fun hth a ha b hb => ?_, fun th' hne hth' a ha b hb => ?_⟩
    · rcases List.mem_append.mp ha with ha | ha
      · exact h.sent_lt_owner th hth a ha b (hx ▸ List.mem_cons_of_mem _ hb)
      · obtain rfl := List.mem_singleton.mp ha
        exact hfirst b hb
    · rcases List.mem_append.mp ha with ha | ha
      · exact h.sent_lt_owner th' hth' a ha b hb
      · obtain rfl := List.mem_singleton.mp ha
        by_cases hev : th = .events
        · subst hev
          exact h.late_lt_owner th' hth' a hmem b hb
        · -- the mutex has one owner, and that is not this thread
          have howner := Threads.owner_of_sends hev hsends
          have hnil := h.owner th' hth' (by
            rw [howner]
            exact fun hsome => hne (Option.some.inj hsome).symm)
          rw [hnil] at hb
          exact absurd hb List.not_mem_nil
  · exact h.late_lt_owner th' hth' a (hsub _ a ha) b (hsub th' b hb)

theorem step (h : Stamped t) {a : ThreadAction} {t' : Threads}
    (hstep : threadStep t a = some t') :
    Stamped t' := by
  cases threadStepsTo_of_threadStep hstep with
  | locked hth howner hnone hstep => exact h.locked howner
  | release howner hnone => exact h.release howner hnone
  | publish hx hsends => exact h.publish hx hsends
  | outside hth hstep =>
    exact ⟨h.sent_lt, h.unsent_lt, h.unsent_ordered, h.owner, h.sent_lt_owner,
      h.late_lt_owner⟩

end Stamped

/-! ## When snapshots arrive in order

One step keeps the order exactly where it overtakes nothing, so that a run
does so exactly if all its steps do. The run at the end has a hook message and
a restart at the same time, and the client keeps the older description. -/

section Order

variable {t : Threads}

theorem inOrder_append {xs ys : List Payload} :
    InOrder (xs ++ ys) ↔ InOrder xs ∧ InOrder ys ∧
      ∀ a ∈ xs, ∀ b ∈ ys, SameCamera a b → a.stamp < b.stamp :=
  List.pairwise_append

/-- A list whose stamps increase is in order. -/
theorem inOrder_of_pairwise {xs : List Payload}
    (h : xs.Pairwise (fun a b => a.stamp < b.stamp)) : InOrder xs := by
  refine List.Pairwise.imp (fun hlt => ?_) h
  exact fun _ => hlt

/-- What the hook handler sends was owed already. -/
theorem DeliversInOrder.publish_events (h : DeliversInOrder t) {x : Payload}
    {rest : List Payload} (hx : t.unsent .events = x :: rest) :
    DeliversInOrder { t with
      unsent := Function.update t.unsent .events rest
      sent := t.sent ++ [x] } := by
  have howed : InOrder ((t.sent ++ [x]) ++ rest) := by
    rw [List.append_assoc, List.singleton_append, ← hx]
    exact h.owed
  refine ⟨(inOrder_append.mp howed).1, ?_⟩
  show InOrder
    ((t.sent ++ [x]) ++ Function.update t.unsent .events rest .events)
  rw [Function.update_self]
  exact howed

/-- What another thread sends is newer than all that was sent. It comes in order
exactly when the hook handler has nothing left to send about its cameras. -/
theorem DeliversInOrder.publish_iff (hst : Stamped t) (h : DeliversInOrder t)
    {th : Thread}
    (hth : th ≠ .events) {x : Payload} {rest : List Payload}
    (hx : t.unsent th = x :: rest) :
    DeliversInOrder { t with
        unsent := Function.update t.unsent th rest, sent := t.sent ++ [x] } ↔
      ∀ b ∈ t.unsent .events, ¬ SameCamera x b := by
  have hmem : x ∈ t.unsent th := hx ▸ List.mem_cons_self
  have hlate : Function.update t.unsent th rest .events = t.unsent .events :=
    Function.update_of_ne (Ne.symm hth) _ _
  have hsent : InOrder (t.sent ++ [x]) := by
    refine inOrder_append.mpr ⟨h.sent, List.pairwise_singleton _ x,
      fun a ha b hb _ => ?_⟩
    obtain rfl := List.mem_singleton.mp hb
    exact hst.sent_lt_owner th hth a ha b hmem
  constructor
  · intro hnew b hb hsame
    have howed : InOrder ((t.sent ++ [x]) ++ t.unsent .events) :=
      hlate ▸ hnew.owed
    have hlt := (inOrder_append.mp howed).2.2 x (by simp) b hb hsame
    exact absurd (hst.late_lt_owner th hth b hb x hmem) (Nat.lt_asymm hlt)
  · intro hno
    refine ⟨hsent, ?_⟩
    show InOrder ((t.sent ++ [x]) ++ Function.update t.unsent th rest .events)
    rw [hlate]
    obtain ⟨-, hlateorder, hcross⟩ := inOrder_append.mp h.owed
    refine inOrder_append.mpr ⟨hsent, hlateorder, fun a ha b hb hsame => ?_⟩
    rcases List.mem_append.mp ha with ha | ha
    · exact hcross a ha b hb hsame
    · obtain rfl := List.mem_singleton.mp ha
      exact absurd hsame (hno b hb)

/-- A new locked section owes nothing that is out of order. -/
theorem DeliversInOrder.locked (hst : Stamped t) (h : DeliversInOrder t)
    {th : Thread}
    {out : Outcome} :
    DeliversInOrder { t with
      sup := out.1
      owner := some th
      unsent := Function.update t.unsent th (stampFrom t.clock out.2)
      clock := t.clock + out.2.length } := by
  refine ⟨h.sent, ?_⟩
  show InOrder (t.sent ++ Function.update t.unsent th
    (stampFrom t.clock out.2) .events)
  by_cases hth : Thread.events = th
  · subst hth
    rw [Function.update_self]
    refine inOrder_append.mpr
      ⟨h.sent, inOrder_of_pairwise (stampFrom_pairwise _ _),
        fun a ha b hb _ => ?_⟩
    exact Nat.lt_of_lt_of_le (hst.sent_lt a ha) (stampFrom_ge b hb).1
  · rw [Function.update_of_ne hth]
    exact h.owed

/-- **One step.** It keeps the order exactly where it overtakes nothing. The
stamps say in which order the descriptions were made, and the events that are
sent have to come in that order for each camera. -/
theorem deliversInOrder_step_iff (hst : Stamped t) (h : DeliversInOrder t)
    {a : ThreadAction}
    {t' : Threads} (hstep : threadStep t a = some t') :
    DeliversInOrder t' ↔ NotOvertaking t a := by
  cases threadStepsTo_of_threadStep hstep with
  | locked => exact iff_of_true (h.locked hst) trivial
  | release | outside => exact iff_of_true ⟨h.sent, h.owed⟩ trivial
  | @publish th x rest hx hsends =>
    by_cases hth : th = .events
    · subst hth
      exact iff_of_true (h.publish_events hx) (fun hne => absurd rfl hne)
    · rw [DeliversInOrder.publish_iff hst h hth hx]
      simp [NotOvertaking, hth, hx]

end Order

/-- **Snapshots reach the client in their order exactly when no thread
overtakes the hook handler**: whatever the interleaving of the three threads,
from any state of the supervisor. Each direction is over runs: where one step
overtakes, a later snapshot is already with the client when an earlier one of
the same camera arrives. -/
theorem snapshots_in_order_iff (sup : Supervisor) (as : List ThreadAction) :
    Runs.Everywhere threadStep DeliversInOrder { sup } as ↔
      Runs.Guarded threadStep NotOvertaking { sup } as :=
  Runs.everywhere_iff_guarded_of_invariant
    (fun _ _ _ hst hstep => Stamped.step hst hstep)
    (fun _ _ _ hst h hstep => deliversInOrder_step_iff hst h hstep)
    (Stamped.start sup) ⟨.nil, .nil⟩

/-- The hook handler counts a viewer and releases the mutex. Before it sends
what it saw, a restart of the camera takes the mutex, resets the count and
sends. -/
def overtaken : List ThreadAction :=
  [.locked (hookLine "read"), .release .events, .publish .events,
    .locked
      (requestWith { starts := fun _ => { created := some 3 } } "restart-camera"
      [("name", .string "Cam")]),
    .publish .ipc, .release .ipc, .publish .events]

/-- The last the client hears is one viewer; there is none. -/
theorem stale_snapshot_last :
    ∃ sup t, bootRun oneCamera [{ action := .beginLoop }] = some sup ∧
      Runs.run threadStep { sup } overtaken = some t ∧
      t.sent.map Payload.stamp = [0, 2, 1] ∧
      t.sent.map (fun a => a.event.cams.map CamJson.viewerCount) = [[], [0],
        [1]] ∧
      t.sup.slots.map CamSlot.viewerCount = [0] ∧ ¬ InOrder t.sent := by
  exact ⟨_, _, rfl, rfl, rfl, rfl, rfl, by decide⟩

end WebcamStreamer
