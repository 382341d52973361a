import Mathlib.Data.List.Basic
import WebcamStreamer.Runs

/-!
# One host at a time

The user interface hosts the supervisor, and two hosts would fight for its pipe.
Every host that is launched opens a named mutex. The one that creates it goes
on; the others ring a named event and leave, and the first host shows its window
for them. The names are there as long as a process holds a handle of the object
behind them.

Both names begin with `Local\`, so every Windows session has a mutex and an
event of its own: two users that are logged in on one machine have a first host
each, and nothing here keeps these from colliding on the supervisor's pipe. What
follows is one session. Launches, exits and crashes of any number of its hosts
interleave, with the thread of the first host that waits for the event, and with
its dispatcher.
-/

namespace WebcamStreamer

/-! ## Hosts

Every launch makes a host, which is the first one if it creates the mutex, and
otherwise rings and goes. The event and the mutex live as long as somebody has
a handle of them, and all of this happens within one session of Windows. -/

/-- Where a host is between its launch and its end. -/
inductive HostPhase where
  /-- The mutex was there already; `OpenExisting` is next. -/
  | knocking
  /-- It has the event, and will `Set` it. -/
  | ringing
  /-- The event was set; its handle is disposed next. -/
  | rung
  /-- The handle of the mutex is disposed next. -/
  | leaving
  /-- The mutex is new; the event is created next. -/
  | created
  /-- The event is there, and a thread that listens to it. -/
  | listening
  /-- The supervisor was launched. -/
  | hosting
  /-- In `ExitApp` or `OnExit`, before `Launcher.Dispose()`. -/
  | exiting
  /-- Before `DisposeSingleInstanceGuard`. -/
  | supervisorGone
  /-- In it: `_shuttingDown` is set, and the event once more. -/
  | shuttingDown
  /-- In it: the event is disposed. -/
  | eventDisposed
  | gone
  deriving DecidableEq

/-- `ShowWindowListenerLoop`. -/
inductive Listener where
  /-- In `WaitOne`. -/
  | waiting
  /-- `WaitOne` has returned. -/
  | woken
  | stopped
  deriving DecidableEq

namespace HostPhase

/-- The process has a handle of the mutex. -/
def hasMutex (p : HostPhase) : Bool := p != .gone

/-- The process has a handle of the event. -/
def hasEvent : HostPhase → Bool
  | .ringing | .rung | .listening | .hosting | .exiting | .supervisorGone
  | .shuttingDown => true
  | _ => false

/-- The host that created the mutex, for as long as it has it. -/
def isFirst : HostPhase → Bool
  | .created | .listening | .hosting | .exiting | .supervisorGone
  | .shuttingDown
  | .eventDisposed => true
  | _ => false

/-- The host has launched a supervisor, and not disposed of it. -/
def supervises : HostPhase → Bool
  | .hosting | .exiting => true
  | _ => false

/-- The dispatcher takes what is posted to it. That it does so before the
supervisor was launched is possible, while a message box is shown. -/
def dispatches : HostPhase → Bool
  | .listening | .hosting => true
  | _ => false

end HostPhase

/-- A host: with its listener, and with how many calls of `ShowMainWindow` were
posted to its dispatcher. -/
structure HostApp where
  phase : HostPhase
  listener : Listener := .stopped
  posted : ℕ := 0
  deriving DecidableEq

/-- One Windows session: all hosts that were ever launched in it, and the
event. -/
structure Session where
  hosts : List HostApp := []
  signalled : Bool := false
  /-- Somebody has rung since the event was created, and no window was shown
  since. -/
  unanswered : Bool := false
  deriving DecidableEq

/-- What happens in a Windows session. -/
inductive SessionStep where
  | launch
  /-- A host that is not the first one goes on. -/
  | knock (i : ℕ)
  /-- The first host goes on with its start. -/
  | goOn (i : ℕ)
  /-- The first host begins to exit, or goes on with that. -/
  | exit (i : ℕ)
  /-- `WaitOne` returns, which resets the event. -/
  | wake (i : ℕ)
  /-- The listener goes on: it posts, or it stops. -/
  | post (i : ℕ)
  /-- The dispatcher calls `ShowMainWindow`. -/
  | show (i : ℕ)
  | crash (i : ℕ)

/-- As long as the dispatcher of a host runs, so does its listener. -/
def HostApp.Listens (h : HostApp) : Prop :=
  h.phase.dispatches = true → h.listener ≠ .stopped

namespace Session

/-- Another host in the place of one. -/
def setHost (s : Session) (i : ℕ) (h : HostApp) : Session :=
  { s with hosts := s.hosts.set i h }

/-- `new Mutex(true, SingleInstanceMutexName, out createdNew)`. -/
def launch (s : Session) : Session :=
  let createdNew := !s.hosts.any (fun h => h.phase.hasMutex)
  { s with
    hosts :=
      s.hosts ++ [{ phase := if createdNew then .created else .knocking }] }

/-- The named event is there. -/
def eventExists (s : Session) : Bool := s.hosts.any (fun h => h.phase.hasEvent)

/-- What a host does that is not the first one. -/
def knock (s : Session) (i : ℕ) (h : HostApp) : Option Session :=
  match h.phase with
  | .knocking =>
    some (s.setHost i { h with
      phase := if s.eventExists then .ringing else .leaving })
  | .ringing =>
    some { s.setHost i { h with phase := .rung } with
      signalled := true, unanswered := true }
  | .rung => some (s.setHost i { h with phase := .leaving })
  | .leaving => some (s.setHost i { h with phase := .gone })
  | _ => none

/-- What the first host does:
`new EventWaitHandle(false, AutoReset, ShowWindowEventName)` and the thread that
listens to it, then the supervisor. -/
def goOn (s : Session) (i : ℕ) (h : HostApp) : Option Session :=
  match h.phase with
  | .created =>
    some { s.setHost i { h with phase := .listening, listener := .waiting } with
      signalled := s.eventExists && s.signalled
      unanswered := false }
  | .listening => some (s.setHost i { h with phase := .hosting })
  | _ => none

/-- `ExitApp`, or `OnExit` where the start fails. -/
def exit (s : Session) (i : ℕ) (h : HostApp) : Option Session :=
  match h.phase with
  | .listening | .hosting => some (s.setHost i { h with phase := .exiting })
  | .exiting => some (s.setHost i { h with phase := .supervisorGone })
  | .supervisorGone =>
    some { s.setHost i { h with phase := .shuttingDown } with
      signalled := true }
  | .shuttingDown => some (s.setHost i { h with phase := .eventDisposed })
  | .eventDisposed => some (s.setHost i { h with phase := .gone })
  | _ => none

/-- What the listener does when it was woken. -/
def post (s : Session) (i : ℕ) (h : HostApp) : Option Session :=
  if h.listener = .woken then
    if h.phase = .shuttingDown ∨ h.phase = .eventDisposed then
      some (s.setHost i { h with listener := .stopped })
    else some (s.setHost i { h with
      listener := .waiting, posted := h.posted + 1 })
  else none

/-- One step. -/
def step (s : Session) : SessionStep → Option Session
  | .launch => some s.launch
  | .knock i => s.hosts[i]?.bind (s.knock i)
  | .goOn i => s.hosts[i]?.bind (s.goOn i)
  | .exit i => s.hosts[i]?.bind (s.exit i)
  | .wake i => s.hosts[i]?.bind (fun h =>
    if h.phase.isFirst ∧ h.phase.hasEvent ∧ h.listener = .waiting ∧
      s.signalled then
      some { s.setHost i { h with listener := .woken } with signalled := false }
    else none)
  | .post i =>
    s.hosts[i]?.bind (fun h => if h.phase = .gone then none else s.post i h)
  | .show i => s.hosts[i]?.bind (fun h =>
    if h.phase.dispatches ∧ 0 < h.posted then
      some { s.setHost i { h with posted := h.posted - 1 } with
        unanswered := false }
    else none)
  | .crash i => s.hosts[i]?.map (fun h => s.setHost i { h with phase := .gone })

/-! ## What a step does

A step is a launch or it takes one host further. What it can do to the others
is nothing, except that a host that ends may take the event with it. -/

/-- A ring that was not answered yet still is to be: the event is set, or the
listener has taken it, or the call is posted. -/
def Hears (s : Session) (h : HostApp) : Prop :=
  h.phase.dispatches = true → s.unanswered = true →
    s.signalled = true ∨ h.listener = .woken ∨ 0 < h.posted

/-- One host goes on. Nobody becomes the first one by that; what was rung stays
to be answered, and unless it is the first host, the others hear as much of it
as before. -/
structure Moved (s : Session) (i : ℕ) (h h' : HostApp) (t : Session) :
    Prop where
  host : s.hosts[i]? = some h
  hosts : t.hosts = s.hosts.set i h'
  first : h'.phase.isFirst = true → h.phase.isFirst = true
  listens : h.Listens → h'.Listens
  hears : s.Hears h → t.Hears h'
  others : h.phase.isFirst = true ∨ (t.unanswered = true →
    t.signalled = true ∨ s.unanswered = true ∧ s.signalled = t.signalled)

variable {s t : Session} {i : ℕ} {h h' : HostApp}

theorem moved_knock (hi : s.hosts[i]? = some h) (hs : s.knock i h = some t) :
    ∃ h', Moved s i h h' t := by
  have hquiet : ∀ phase : HostPhase, phase.isFirst = false →
      phase.dispatches = false →
      Moved s i h { h with phase } (s.setHost i { h with phase }) := by
    intro phase hfirst hdispatches
    have hnot : ¬ phase.dispatches = true := by
      rw [hdispatches]
      exact Bool.false_ne_true
    refine ⟨hi, rfl, fun h => ?_, fun _ h => absurd h hnot,
      fun _ h => absurd h hnot,
      .inr (fun h => .inr ⟨h, rfl⟩)⟩
    exact absurd (hfirst.symm.trans h) Bool.false_ne_true
  simp only [knock] at hs
  split at hs
  next =>
    obtain rfl := Option.some.inj hs
    refine ⟨_, hquiet _ ?_ ?_⟩ <;> split <;> rfl
  next =>
    obtain rfl := Option.some.inj hs
    exact ⟨_, hi, rfl, nofun, nofun, nofun, .inr (fun _ => .inl rfl)⟩
  next => exact Option.some.inj hs ▸ ⟨_, hquiet _ rfl rfl⟩
  next => exact Option.some.inj hs ▸ ⟨_, hquiet _ rfl rfl⟩
  next => cases hs

theorem moved_goOn (hi : s.hosts[i]? = some h) (hs : s.goOn i h = some t) :
    ∃ h', Moved s i h h' t := by
  simp only [goOn] at hs
  split at hs
  next hphase =>
    obtain rfl := Option.some.inj hs
    exact ⟨_, hi, rfl, fun _ => by rw [hphase]; rfl, nofun,
      fun _ _ h => absurd h Bool.false_ne_true, .inl (by rw [hphase]; rfl)⟩
  next hphase =>
    obtain rfl := Option.some.inj hs
    exact ⟨_, hi, rfl,
      fun _ => by rw [hphase]; rfl, fun h _ => h (by rw [hphase]; rfl),
        fun h _ => h (by rw [hphase]; rfl), .inl (by rw [hphase]; rfl)⟩
  next => cases hs

theorem moved_exit (hi : s.hosts[i]? = some h) (hs : s.exit i h = some t) :
    ∃ h', Moved s i h h' t := by
  simp only [exit] at hs
  split at hs
  case h_7 => cases hs
  all_goals
    next hphase =>
      obtain rfl := Option.some.inj hs
      exact ⟨_, hi, rfl, fun _ => by rw [hphase]; rfl, nofun, nofun,
        .inl (by rw [hphase]; rfl)⟩

theorem moved_post (hi : s.hosts[i]? = some h) (hs : s.post i h = some t) :
    ∃ h', Moved s i h h' t := by
  simp only [post] at hs
  split at hs
  next =>
    split at hs
    next hphase =>
      obtain rfl := Option.some.inj hs
      have hnot : ¬ h.phase.dispatches = true := by
        rcases hphase with hphase | hphase <;> rw [hphase] <;>
          exact Bool.false_ne_true
      exact ⟨_, hi, rfl, id, fun _ h => absurd h hnot, fun _ h => absurd h hnot,
        .inr (fun h => .inr ⟨h, rfl⟩)⟩
    next =>
      obtain rfl := Option.some.inj hs
      exact ⟨_, hi, rfl, id, fun _ _ => nofun,
        fun _ _ _ => .inr (.inr (Nat.succ_pos _)),
        .inr (fun h => .inr ⟨h, rfl⟩)⟩
  next => cases hs

/-- **Every step** is a launch, or one host goes on. The other hosts stay as
they are, so that what two of them have in common can be proved by looking at
one at a time. -/
theorem moved_of_step {a : SessionStep} (hs : s.step a = some t) :
    t = s.launch ∨ ∃ i h h', Moved s i h h' t := by
  cases a with
  | launch => exact .inl (Option.some.inj hs).symm
  | knock i =>
    obtain ⟨h, hi, hs⟩ := Option.bind_eq_some_iff.mp hs
    exact .inr ⟨i, h, moved_knock hi hs⟩
  | goOn i =>
    obtain ⟨h, hi, hs⟩ := Option.bind_eq_some_iff.mp hs
    exact .inr ⟨i, h, moved_goOn hi hs⟩
  | exit i =>
    obtain ⟨h, hi, hs⟩ := Option.bind_eq_some_iff.mp hs
    exact .inr ⟨i, h, moved_exit hi hs⟩
  -- the listener of the first host takes the ring, which resets the event
  | wake i =>
    obtain ⟨h, hi, hs⟩ := Option.bind_eq_some_iff.mp hs
    split at hs
    next hwake =>
      obtain rfl := Option.some.inj hs
      exact .inr ⟨i, h, _, hi, rfl, id, fun _ _ => nofun,
        fun _ _ _ => .inr (.inl rfl),
        .inl hwake.1⟩
    next => cases hs
  | post i =>
    obtain ⟨h, hi, hs⟩ := Option.bind_eq_some_iff.mp hs
    split at hs
    next => cases hs
    next => exact .inr ⟨i, h, moved_post hi hs⟩
  | «show» i =>
    obtain ⟨h, hi, hs⟩ := Option.bind_eq_some_iff.mp hs
    split at hs
    next =>
      obtain rfl := Option.some.inj hs
      exact .inr ⟨i, h, _, hi, rfl, id, id,
        fun _ _ h => absurd h Bool.false_ne_true,
        .inr (fun h => absurd h Bool.false_ne_true)⟩
    next => cases hs
  | crash i =>
    obtain ⟨h, hi, rfl⟩ := Option.map_eq_some_iff.mp hs
    exact .inr ⟨i, h, _, hi, rfl, nofun, nofun, nofun,
      .inr (fun h => .inr ⟨h, rfl⟩)⟩

/-! ## One host, and every ring

Two invariants are kept side by side. Among the hosts that have created the
mutex and still have it there is at most one, and what was rung and not
answered is still to be: in the event, in the listener or in the
dispatcher. -/

/-- Of the hosts that have created the mutex and still have it, there is one at
most. -/
def OneFirst (s : Session) : Prop :=
  ∀ (i j : ℕ) (h h' : HostApp), s.hosts[i]? = some h → s.hosts[j]? = some h' →
    h.phase.isFirst = true → h'.phase.isFirst = true → i = j

/-- Every host listens, and hears what was rung. -/
def AllHear (s : Session) : Prop := ∀ h ∈ s.hosts, h.Listens ∧ s.Hears h

theorem hasMutex_of_isFirst {p : HostPhase} (h : p.isFirst = true) :
    p.hasMutex = true := by
  cases p <;> first | rfl | cases h

theorem isFirst_of_dispatches {p : HostPhase} (h : p.dispatches = true) :
    p.isFirst = true := by
  cases p <;> first | rfl | cases h

theorem oneFirst_launch (h : s.OneFirst) : s.launch.OneFirst := by
  -- who has created the mutex now is alone, since nobody had a handle of it
  have hnew : ∀ {j : ℕ} {a b : HostApp}, s.hosts[j]? = some a →
      a.phase.isFirst = true →
      s.launch.hosts[s.hosts.length]? = some b → b.phase.isFirst = false := by
    intro j a b ha hfirst hb
    have hany : s.hosts.any (fun h => h.phase.hasMutex) = true :=
      List.any_eq_true.mpr ⟨a, List.mem_of_getElem? ha,
        hasMutex_of_isFirst hfirst⟩
    simp only [launch, hany, List.getElem?_concat_length] at hb
    obtain rfl := Option.some.inj hb
    rfl
  have hold : ∀ {j : ℕ} {a : HostApp}, s.launch.hosts[j]? = some a →
      j ≠ s.hosts.length →
      s.hosts[j]? = some a := by
    intro j a ha hj
    have hlt : j < (s.launch.hosts).length :=
      (List.getElem?_eq_some_iff.mp ha).1
    have hlen : s.launch.hosts.length = s.hosts.length + 1 := List.length_append
    rwa [launch, List.getElem?_append_left (by omega)] at ha
  intro i j a b ha hb hfa hfb
  by_cases hi : i = s.hosts.length
  · by_cases hj : j = s.hosts.length
    · rw [hi, hj]
    · exact absurd ((hnew (hold hb hj) hfb (hi ▸ ha)).symm.trans hfa)
        Bool.false_ne_true
  · by_cases hj : j = s.hosts.length
    · exact absurd ((hnew (hold ha hi) hfa (hj ▸ hb)).symm.trans hfb)
        Bool.false_ne_true
    · exact h i j a b (hold ha hi) (hold hb hj) hfa hfb

namespace Moved

variable (hm : Moved s i h h' t)
include hm

/-- A host after the step was there before, or is the one that went on. -/
theorem host_of {j : ℕ} {b : HostApp} (hb : t.hosts[j]? = some b) :
    j = i ∧ b = h' ∨ j ≠ i ∧ s.hosts[j]? = some b := by
  rw [hm.hosts, List.getElem?_set] at hb
  split at hb
  next hij =>
    split at hb
    next => exact .inl ⟨hij.symm, (Option.some.inj hb).symm⟩
    next => cases hb
  next hij => exact .inr ⟨Ne.symm hij, hb⟩

theorem oneFirst (hone : s.OneFirst) : t.OneFirst := by
  have hbefore : ∀ {j : ℕ} {b : HostApp}, t.hosts[j]? = some b →
      b.phase.isFirst = true →
      ∃ b', s.hosts[j]? = some b' ∧ b'.phase.isFirst = true := by
    intro j b hb hfirst
    rcases hm.host_of hb with ⟨rfl, rfl⟩ | ⟨-, hb⟩
    · exact ⟨h, hm.host, hm.first hfirst⟩
    · exact ⟨b, hb, hfirst⟩
  intro j k a b ha hb hfa hfb
  obtain ⟨a', ha', hfa'⟩ := hbefore ha hfa
  obtain ⟨b', hb', hfb'⟩ := hbefore hb hfb
  exact hone j k a' b' ha' hb' hfa' hfb'

theorem allHear (hone : s.OneFirst) (hall : s.AllHear) : t.AllHear := by
  intro b hb
  obtain ⟨j, hj⟩ := List.mem_iff_getElem?.mp hb
  rcases hm.host_of hj with ⟨-, rfl⟩ | ⟨hne, hj⟩
  · obtain ⟨hlistens, hhears⟩ := hall h (List.mem_of_getElem? hm.host)
    exact ⟨hm.listens hlistens, hm.hears hhears⟩
  · obtain ⟨hlistens, hhears⟩ := hall b (List.mem_of_getElem? hj)
    refine ⟨hlistens, fun hdispatches hrung => ?_⟩
    rcases hm.others with hfirst | hkept
    · exact absurd (hone j i b h hj hm.host
        (isFirst_of_dispatches hdispatches) hfirst) hne
    · rcases hkept hrung with hset | ⟨hbefore, hsame⟩
      · exact .inl hset
      · exact hsame ▸ hhears hdispatches hbefore

end Moved

theorem allHear_launch (h : s.AllHear) : s.launch.AllHear := by
  intro b hb
  rcases List.mem_append.mp hb with hb | hb
  · exact h b hb
  · obtain rfl := List.mem_singleton.mp hb
    constructor <;> intro hdispatches <;> split at hdispatches <;>
      cases hdispatches

/-- What every step keeps. -/
theorem invariant_step {a : SessionStep} (h : s.OneFirst ∧ s.AllHear)
    (hs : s.step a = some t) :
    t.OneFirst ∧ t.AllHear := by
  rcases moved_of_step hs with rfl | ⟨i, b, b', hm⟩
  · exact ⟨oneFirst_launch h.1, allHear_launch h.2⟩
  · exact ⟨hm.oneFirst h.1, hm.allHear h.1 h.2⟩

theorem everywhere_invariant (steps : List SessionStep) :
    Runs.Everywhere step (fun s => s.OneFirst ∧ s.AllHear) {} steps :=
  Runs.everywhere_of_forall (fun _ _ _ h hs => invariant_step h hs)
    ⟨fun i j h h' hi => absurd hi (by simp),
      fun h hh => absurd hh List.not_mem_nil⟩ steps

/-- **There is never a second host with a supervisor in one Windows session**,
however the launches, exits and crashes in it interleave. The mutex is local
to a session, so that nothing is said about the hosts of another user of the
same machine. -/
theorem one_host_supervises (steps : List SessionStep) :
    Runs.Everywhere step (fun s => ∀ (i j : ℕ) (h h' : HostApp),
      s.hosts[i]? = some h →
      s.hosts[j]? = some h' → h.phase.supervises = true →
      h'.phase.supervises = true → i = j)
      {} steps := by
  have hfirst : ∀ {p : HostPhase}, p.supervises = true → p.isFirst = true := by
    intro p hp
    cases p <;> first | rfl | cases hp
  exact (everywhere_invariant steps).mono (fun s hs i j h h' hi hj hh hh' =>
    hs.1 i j h h' hi hj (hfirst hh) (hfirst hh'))

/-! ## The answer to a ring

A ring is answered in three steps of the listener and the dispatcher. That
they take these steps is left to the scheduler; that they can take them, as
long as the host is there, is what is shown. -/

theorem getElem?_setHost {j : ℕ} (hi : s.hosts[i]? = some h) :
    (s.setHost i h').hosts[j]? = if i = j then some h' else s.hosts[j]? := by
  have hlt : i < s.hosts.length := (List.getElem?_eq_some_iff.mp hi).1
  simp only [setHost, List.getElem?_set, if_pos hlt]

/-- Host `i` has an answer to give in `n` steps of its listener and its
dispatcher. -/
def Answers (s : Session) (i n : ℕ) : Prop :=
  ∃ steps : List SessionStep, steps.length ≤ n ∧
    (∀ a ∈ steps, a = .wake i ∨ a = .post i ∨ a = .show i) ∧
    ∃ t, Runs.run step s steps = some t ∧ t.unanswered = false

/-- One step of them before an answer. -/
theorem Answers.cons {n : ℕ} {a : SessionStep}
    (ha : a = .wake i ∨ a = .post i ∨ a = .show i)
    (hs : s.step a = some t) (h : t.Answers i n) : s.Answers i (n + 1) := by
  obtain ⟨steps, hlen, hsteps, u, hrun, hu⟩ := h
  exact ⟨a :: steps, Nat.succ_le_succ hlen,
    List.forall_mem_cons.mpr ⟨ha, hsteps⟩, u,
    Runs.run_cons_iff.mpr ⟨t, hs, hrun⟩, hu⟩

/-- The dispatcher shows the window when the call is posted. -/
theorem answers_of_posted (hi : s.hosts[i]? = some h)
    (hphase : h.phase = .hosting)
    (hposted : 0 < h.posted) : s.Answers i 1 := by
  have hstep : s.step (.show i) =
      some { s.setHost i { h with posted := h.posted - 1 } with
        unanswered := false } := by
    simp [step, hi, hphase, hposted, HostPhase.dispatches]
  exact ⟨[.show i], Nat.le_refl 1,
    by simp, _, Runs.run_cons_iff.mpr ⟨_, hstep, rfl⟩, rfl⟩

/-- The listener posts the call when it was woken. -/
theorem answers_of_woken (hi : s.hosts[i]? = some h)
    (hphase : h.phase = .hosting)
    (hwoken : h.listener = .woken) : s.Answers i 2 := by
  have hstep : s.step (.post i) =
      some (s.setHost i { h with
        listener := .waiting, posted := h.posted + 1 }) := by
    simp [step, post, hi, hphase, hwoken]
  have hposted :
      (s.setHost i { h with
        listener := .waiting, posted := h.posted + 1 }).Answers i 1 :=
    answers_of_posted ((getElem?_setHost hi).trans (if_pos rfl)) hphase
      (Nat.succ_pos _)
  exact hposted.cons (.inr (.inl rfl)) hstep

/-- The listener is woken when the event is set. -/
theorem answers_of_signalled (hi : s.hosts[i]? = some h)
    (hphase : h.phase = .hosting)
    (hwaits : h.listener = .waiting) (hset : s.signalled = true) :
    s.Answers i 3 := by
  have hstep : s.step (.wake i) =
      some { s.setHost i { h with listener := .woken } with
        signalled := false } := by
    simp [step, hi, hphase, hwaits, hset, HostPhase.isFirst, HostPhase.hasEvent]
  have hwoken : ({ s.setHost i { h with listener := .woken } with
      signalled := false } :
      Session).Answers i 2 :=
    answers_of_woken ((getElem?_setHost hi).trans (if_pos rfl)) hphase rfl
  exact hwoken.cons (.inl rfl) hstep

theorem Answers.mono {m n : ℕ} (h : s.Answers i m) (hmn : m ≤ n) :
    s.Answers i n := by
  obtain ⟨steps, hlen, hrest⟩ := h
  exact ⟨steps, Nat.le_trans hlen hmn, hrest⟩

/-- **No ring is lost** while the host goes on: at any time, its listener and
its dispatcher are at most three steps from the answer, whatever else launches,
rings, exits or crashes. -/
theorem doorbell_answered (steps : List SessionStep) :
    Runs.Everywhere step (fun s => ∀ (i : ℕ) (h : HostApp),
      s.hosts[i]? = some h →
      h.phase = .hosting → s.unanswered = true → s.Answers i 3) {} steps := by
  refine (everywhere_invariant steps).mono (fun s hs i h hi hphase hrung => ?_)
  obtain ⟨hlistens, hhears⟩ := hs.2 h (List.mem_of_getElem? hi)
  have hdispatches : h.phase.dispatches = true := by rw [hphase]; rfl
  rcases hhears hdispatches hrung with hset | hwoken | hposted
  · cases hlistener : h.listener with
    | waiting => exact answers_of_signalled hi hphase hlistener hset
    | woken => exact (answers_of_woken hi hphase hlistener).mono (Nat.le_succ 2)
    | stopped => exact absurd hlistener (hlistens hdispatches)
  · exact (answers_of_woken hi hphase hwoken).mono (Nat.le_succ 2)
  · exact (answers_of_posted hi hphase hposted).mono (by omega)

end Session

end WebcamStreamer
