import WebcamStreamer.SlotPaths

/-!
# Whether a dead child is noticed

The supervision tick looks at MediaMTX and at every camera that is plugged in
and enabled, and starts again what is not running, unless it was started too
short a time ago. Nothing else restarts a child that died, so a child that the
tick does not notice stays dead.

It notices a child by its exit code. Windows reports 259 for a process that is
still there, and a child can exit with 259 as well: such a child is dead and
looks alive (`SupervisedProcess.Silent`). The tick leaves a dead child
unattended exactly when it is one of these and its backoff has elapsed. The
backoff itself is never longer than thirty seconds.
-/

namespace WebcamStreamer

/-! ## Silent children

Windows keeps one exit code, 259, for a process that is still there. A child
that exits with just that code cannot be told from one that runs, so the tick
takes it for alive. Such a child is called silent here; nothing else about it
matters. -/

/-- The child has exited with the code that stands for a child that is still
there. -/
def SupervisedProcess.Silent (p : SupervisedProcess) : Prop :=
  ∃ pid, p.child = some ⟨pid, .exited 259⟩

namespace SupervisedProcess

/-- A child looks alive exactly if it is, or is silent. -/
theorem isRunning_iff {p : SupervisedProcess} :
    p.isRunning = true ↔ p.alive = true ∨ p.Silent := by
  obtain ⟨cfg, _ | ⟨pid, _ | code⟩⟩ := p
  · simp [isRunning, alive, Silent]
  · simp [isRunning, alive]
  · simp [isRunning, alive, Silent]

theorem Silent.alive {p : SupervisedProcess} (h : p.Silent) :
    p.alive = false := by
  obtain ⟨cfg, child⟩ := p
  obtain ⟨pid, rfl⟩ := h
  rfl

end SupervisedProcess

/-! ## The backoff

A start is only made when the time of the backoff has come, so what is said of
children that are never left dead is also said of how far that time can lie
ahead. The bound of thirty seconds is part of the record from its first value
on, and every operation of the backoff keeps it. -/

/-- The next start is at most thirty seconds after the last one, and so will the
ones after it be. -/
structure Backoff.Bounded (b : Backoff) : Prop where
  delay : b.delay ≤ 30000
  earliestNext : b.earliestNext ≤ b.lastStart + ms 30000

namespace Backoff

theorem bounded_new : Bounded {} := by
  constructor
  · decide
  · exact Nat.zero_le _

theorem delay_relax {b : Backoff} (h : b.delay ≤ 30000) (now : Time) :
    (b.relax now).delay ≤ 30000 := by
  unfold relax
  split
  next => exact (by decide : 1000 ≤ 30000)
  next => exact h

theorem Bounded.started {b : Backoff} (h : b.Bounded) (now : Time) :
    (b.started now).Bounded where
  delay := min_le_right _ _
  earliestNext :=
    Nat.add_le_add_left (Nat.mul_le_mul_right _ (delay_relax h.delay now)) now

theorem Bounded.startNoSleep {b : Backoff} (h : b.Bounded) (stop : Bool)
    (o : StartOutcome)
    (p : SupervisedProcess) :
    (WebcamStreamer.startNoSleep stop o p b).2.Bounded := by
  cases stop
  · exact h.started o.now
  · exact h

/-- A start is always recorded. -/
theorem started_ne (b : Backoff) (now : Time) : b.started now ≠ b := by
  intro h
  have hstart : (b.started now).lastStart = b.lastStart := by rw [h]
  have hrestarts : (b.started now).restarts = b.restarts := by rw [h]
  have hnow : now = b.lastStart := hstart
  unfold started relax at hrestarts
  dsimp only at hrestarts
  split at hrestarts
  next hquiet =>
    have hlast := hquiet.2
    rw [← hnow] at hlast
    exact absurd (Nat.le_add_right now _) (Nat.not_le.mpr hlast)
  next => exact absurd hrestarts (Nat.succ_ne_self _)

end Backoff

/-! ## One child

A tick may do three things with a child that it has to look after, and all of
them count as attending to it: it finds it alive, it starts it, or it waits
because the last start was too recent. The second case names the process and
the backoff that the start leaves, so that a tick that only kept the books
would not do. -/

/-- After a tick at time `now` the child is alive, or the process `p` with the
backoff `b` was started with the outcome `o`, or it is too early for that. -/
def Attended (now : Time) (o : StartOutcome) (p : SupervisedProcess)
    (b : Backoff) (p' : SupervisedProcess) (b' : Backoff) : Prop :=
  p'.alive = true ∨ (p' = p.start o.created ∧ b' = b.started o.now) ∨
    now < b'.earliestNext

/-- The tick overlooks the child: it is silent and it is time to start it. -/
def Overlooked (now : Time) (p : SupervisedProcess) (b : Backoff) : Prop :=
  p.Silent ∧ b.earliestNext ≤ now

/-- A child that the tick leaves as it found it. -/
theorem attended_of_running {now : Time} {o : StartOutcome}
    {p : SupervisedProcess} {b : Backoff}
    (hr : p.isRunning = true) :
    Attended now o p b p b ↔ ¬ Overlooked now p b := by
  unfold Attended Overlooked
  rcases SupervisedProcess.isRunning_iff.mp hr with halive | hsilent
  · have hns : ¬ p.Silent := fun hs => by rw [hs.alive] at halive; cases halive
    simp [halive, hns]
  · have hne := (b.started_ne o.now).symm
    simp [hsilent.alive, hsilent, hne]

/-- A child that does not run is started when it is time to. -/
theorem attended_of_down {now : Time} {o : StartOutcome}
    {p p' : SupervisedProcess}
    {b b' : Backoff} (hr : p.isRunning = false)
    (hstart : b.earliestNext ≤ now →
      p' = p.start o.created ∧ b' = b.started o.now)
    (hwait : ¬ b.earliestNext ≤ now → b' = b) :
    Attended now o p b p' b' ↔ ¬ Overlooked now p b := by
  have hns : ¬ p.Silent := fun hs => by
    rw [SupervisedProcess.isRunning_iff.mpr (.inr hs)] at hr
    cases hr
  refine iff_of_true ?_ (fun h => hns h.1)
  by_cases hnext : b.earliestNext ≤ now
  · exact .inr (.inl (hstart hnext))
  · rw [hwait hnext]
    exact .inr (.inr (Nat.lt_of_not_le hnext))

/-! ## The tick

MediaMTX and the cameras are looked after by the same code on different
records. The two lemmas about one process are put together here into a
statement about all of them after one tick, with an equivalence, since a
silent child that is due is exactly what a tick gets wrong. -/

/-- The tick of a camera that is plugged in and enabled. -/
theorem CamSlot.attended_tick {s : CamSlot} (hw : s.wanted = true) (now : Time)
    (o : StartOutcome) :
    Attended now o s.proc s.backoff (s.tick false now o).1.proc
        (s.tick false now o).1.backoff
      ↔ ¬ Overlooked now s.proc s.backoff := by
  cases hr : s.proc.isRunning with
  | true =>
    rw [CamSlot.tick_of_running _ _ _ hw hr]
    split
    next => exact attended_of_running hr
    next => exact attended_of_running hr
  | false =>
    rw [CamSlot.tick_of_down _ _ _ hw hr]
    dsimp only
    refine attended_of_down hr (fun hnext => ?_) (fun hnext => ?_)
    · rw [if_pos hnext]
      split <;> exact ⟨rfl, rfl⟩
    · rw [if_neg hnext]
      split <;> rfl

/-- The tick of MediaMTX. -/
theorem Supervisor.attended_tickMtx {sup : Supervisor}
    (hstop : sup.stop = false) (env : Env) :
    Attended env.now env.mtxStart sup.mtx sup.bMtx (sup.tickMtx env).1.mtx
        (sup.tickMtx env).1.bMtx
      ↔ ¬ Overlooked env.now sup.mtx sup.bMtx := by
  unfold Supervisor.tickMtx
  cases hr : sup.mtx.isRunning with
  | true => exact attended_of_running hr
  | false =>
    refine attended_of_down hr (fun hnext => ?_) (fun hnext => ?_)
    · rw [if_pos ⟨rfl, hnext⟩]
      show (startNoSleep sup.stop env.mtxStart sup.mtx.stop sup.bMtx).1 = _ ∧
        (startNoSleep sup.stop env.mtxStart sup.mtx.stop sup.bMtx).2 = _
      rw [hstop]
      exact ⟨rfl, rfl⟩
    · rw [if_neg (fun h => hnext h.2)]

/-- After the tick MediaMTX and every camera that is plugged in and enabled is
attended to. -/
structure TickAttends (env : Env) (sup : Supervisor) : Prop where
  mtx : Attended env.now env.mtxStart sup.mtx sup.bMtx (sup.tick env).1.mtx
    (sup.tick env).1.bMtx
  slots : ∀ i s s', sup.slots[i]? = some s →
    (sup.tick env).1.slots[i]? = some s' → s'.wanted = true →
    Attended env.now (env.starts i) s.proc s.backoff s'.proc s'.backoff

/-- The tick overlooks nothing. -/
structure NothingOverlooked (env : Env) (sup : Supervisor) : Prop where
  mtx : ¬ Overlooked env.now sup.mtx sup.bMtx
  slots :
    ∀ s ∈ sup.slots, s.wanted = true → ¬ Overlooked env.now s.proc s.backoff

/-- **One tick**, in any state in which shutdown was not requested. A tick
attends to every child exactly if it overlooks none: the one thing that goes
wrong is a child that is gone and still counts as running, which is what an
exit with the code 259 leaves behind. -/
theorem tickAttends_iff {env : Env} {sup : Supervisor}
    (hstop : sup.stop = false) :
    TickAttends env sup ↔ NothingOverlooked env sup := by
  have hmtx := Supervisor.attended_tickMtx hstop env
  have hwanted : ∀ (i : ℕ) (s : CamSlot),
      (sup.tickSlot env i s).1.wanted = s.wanted := by
    intro i s
    unfold CamSlot.wanted Supervisor.tickSlot
    rw [CamSlot.present_tick, CamSlot.cfg_tick]
  have hslot : ∀ (i : ℕ) (s : CamSlot), s.wanted = true →
      (Attended env.now (env.starts i) s.proc s.backoff
          (sup.tickSlot env i s).1.proc (sup.tickSlot env i s).1.backoff
        ↔ ¬ Overlooked env.now s.proc s.backoff) := by
    intro i s hw
    unfold Supervisor.tickSlot
    rw [hstop]
    exact CamSlot.attended_tick hw env.now (env.starts i)
  have hget : ∀ (i : ℕ) (s : CamSlot), sup.slots[i]? = some s →
      (sup.tick env).1.slots[i]? = some (sup.tickSlot env i s).1 := by
    intro i s hs
    rw [Supervisor.slots_tick, List.getElem?_mapIdx, hs]
    rfl
  constructor
  · rintro ⟨hm, hs⟩
    refine ⟨hmtx.mp hm, fun s hmem hw => ?_⟩
    obtain ⟨i, hi⟩ := List.mem_iff_getElem?.mp hmem
    exact (hslot i s hw).mp (hs i s _ hi (hget i s hi) ((hwanted i s).trans hw))
  · rintro ⟨hm, hs⟩
    refine ⟨hmtx.mpr hm, fun i s s' hi hi' hw => ?_⟩
    obtain rfl := Option.some.inj ((hget i s hi).symm.trans hi')
    rw [hwanted] at hw
    exact (hslot i s hw).mpr (hs s (List.mem_of_getElem? hi) hw)

/-! ## The backoffs in a run

The bound on a backoff is an invariant of every step, also of the steps that
start or replace a process outside of the tick. It is shown for the moves of a
slot one by one and for what a step does to MediaMTX. -/

/-- Every backoff is bounded: that of MediaMTX and those of the publishers. -/
structure BackoffsBounded (sup : Supervisor) : Prop where
  mtx : sup.bMtx.Bounded
  slots : ∀ s ∈ sup.slots, s.backoff.Bounded

namespace CamSlot

variable {s : CamSlot} {ffExe : String} {stop : Bool} {o : StartOutcome}

theorem bounded_start (h : s.backoff.Bounded) :
    (s.start stop o).backoff.Bounded :=
  h.startNoSleep stop o s.proc

theorem bounded_restart : (s.restart ffExe stop o).backoff.Bounded :=
  Backoff.bounded_new.startNoSleep stop o _

theorem bounded_startIfEnabled {device : CameraDevice}
    {formats : List AdvertisedFormat}
    {cfg : CameraConfig} :
    ((newSlot ffExe device formats cfg).startIfEnabled stop
      o).backoff.Bounded := by
  unfold startIfEnabled
  split
  next => exact bounded_start Backoff.bounded_new
  next => exact Backoff.bounded_new

theorem bounded_enable (h : s.backoff.Bounded) {want : Bool} :
    (s.enable ffExe stop o want).backoff.Bounded := by
  rcases s.enable_cases ffExe stop o want with ⟨-, -, he⟩ | ⟨-, -, he⟩ | ⟨-, he⟩
  · rw [he]
    exact bounded_restart
  · rw [he]
    exact h
  · rw [he]
    exact h

theorem bounded_tick (h : s.backoff.Bounded) {now : Time} :
    (s.tick stop now o).1.backoff.Bounded := by
  rcases s.child_tick_eq_or stop now o with ⟨-, heq⟩ | ⟨-, -, heq⟩
  · rw [heq]
    exact h
  · rw [heq]
    exact h.startNoSleep stop o _

theorem bounded_diffPresence (h : s.backoff.Bounded) {isPresent : Bool} :
    (s.diffPresence ffExe stop o isPresent).1.backoff.Bounded := by
  rcases s.diffPresence_cases ffExe stop o isPresent with
    ⟨-, hd⟩ | ⟨-, -, hd⟩ | ⟨-, -, hd⟩
  · rw [hd]
    exact h
  · rw [hd]
    exact h
  · rw [hd]
    dsimp only
    split
    next => exact bounded_start Backoff.bounded_new
    next => exact h

end CamSlot

theorem SlotMove.bounded {sup : Supervisor} {st : Step} {i : ℕ} {s s' : CamSlot}
    (hm : SlotMove sup st i s s') (h : s.backoff.Bounded) :
    s'.backoff.Bounded := by
  cases hm with
  | restarted => exact CamSlot.bounded_restart
  | modeSet => exact CamSlot.bounded_restart
  | enabledSet => exact CamSlot.bounded_enable h
  | ticked => exact CamSlot.bounded_tick h
  | diffed => exact CamSlot.bounded_diffPresence h
  | _ => exact h

/-- What a step does to MediaMTX: nothing, or the tick or new credentials start
it, or it exits. -/
theorem mtx_step {sup : Supervisor} {st : Step} {out : Outcome}
    (h : step sup st = some out) :
    (out.1.mtx = sup.mtx ∧ out.1.bMtx = sup.bMtx) ∨
      (out.1.mtx = (startNoSleep sup.stop st.env.mtxStart sup.mtx.stop
          sup.bMtx).1 ∧
        out.1.bMtx
            = (startNoSleep sup.stop st.env.mtxStart sup.mtx.stop sup.bMtx).2) ∨
      ∃ code, st.action = .mtxExit code ∧ out.1.mtx = sup.mtx.exit code ∧
        out.1.bMtx = sup.bMtx := by
  cases stepsTo_of_step h with
  | served ha heq hserved =>
    cases hserved with
    | credentialsSet hm hu hu0 hp hp0 hsave hyml ht =>
      subst ht
      exact .inr (.inl ⟨rfl, rfl⟩)
    | _ => exact .inl ⟨rfl, rfl⟩
  | tick =>
    show ((sup.tickMtx st.env).1.mtx = _ ∧ (sup.tickMtx st.env).1.bMtx = _) ∨
      ((sup.tickMtx st.env).1.mtx = _ ∧ (sup.tickMtx st.env).1.bMtx = _) ∨ _
    rcases sup.tickMtx_eq_or st.env with hmtx | hmtx
    · rw [hmtx]
      exact .inr (.inl ⟨rfl, rfl⟩)
    · rw [hmtx]
      exact .inl ⟨rfl, rfl⟩
  | mtxExit ha => exact .inr (.inr ⟨_, ha, rfl, rfl⟩)
  | _ => exact .inl ⟨rfl, rfl⟩

theorem backoffsBounded_step {sup sup' : Supervisor} {st : Step}
    (h : BackoffsBounded sup)
    (hnext : next sup st = some sup') : BackoffsBounded sup' := by
  obtain ⟨out, hout, rfl⟩ := Option.map_eq_some_iff.mp hnext
  constructor
  · rcases mtx_step hout with ⟨-, heq⟩ | ⟨-, heq⟩ | ⟨code, -, -, heq⟩
    · rw [heq]
      exact h.mtx
    · rw [heq]
      exact h.mtx.startNoSleep _ _ _
    · rw [heq]
      exact h.mtx
  · exact step_forall_slots hout h.slots (fun _ _ _ _ hx hm => hm.bounded hx)
      (fun _ _ _ _ => CamSlot.bounded_startIfEnabled)

theorem backoffsBounded_startUp {b : Boot} {sup : Supervisor}
    (h : startUp b = .ok sup) :
    BackoffsBounded sup := by
  refine ⟨?_,
    startUp_forall_slots h (fun _ _ _ _ => CamSlot.bounded_startIfEnabled)⟩
  obtain ⟨settings, file, yml, slots, -, -, -, rfl⟩ := startUp_spec h
  exact Backoff.bounded_new.startNoSleep _ _ _

/-! ## The ticks of a run

The result about one tick is made one about steps, since a run consists of
other steps too and a tick after a shutdown was requested starts nothing. Both
sides are then conditions that can be asked of every step of a run. -/

/-- A tick taken while shutdown is not requested attends to every child. -/
def TicksAttend (sup : Supervisor) (st : Step) : Prop :=
  st.action = .tick → sup.stop = false → TickAttends st.env sup

/-- No such tick finds a child that has exited with 259 and whose backoff has
elapsed. -/
def TicksSeeAll (sup : Supervisor) (st : Step) : Prop :=
  st.action = .tick → sup.stop = false → NothingOverlooked st.env sup

/-! ## Runs without the code

The condition above looks at states of the run. What can be said beforehand,
from the exit codes alone, is weaker and easier to check: a child becomes
silent only by an exit with the code, so that a run without such an exit has
no silent child in it. -/

namespace SupervisedProcess

theorem silent_of_exit {p : SupervisedProcess} {code : UInt32}
    (h : (p.exit code).Silent) :
    p.Silent ∨ code = 259 := by
  obtain ⟨cfg, _ | ⟨pid, _ | code'⟩⟩ := p
  · exact .inl h
  · obtain ⟨pid', hchild⟩ := h
    simp only [exit, Option.some.injEq, Child.mk.injEq,
      ChildState.exited.injEq] at hchild
    exact .inr hchild.2
  · exact .inl h

theorem not_silent_stop (p : SupervisedProcess) : ¬ p.stop.Silent := by
  simp [stop, Silent]

theorem not_silent_start {p : SupervisedProcess} (h : ¬ p.Silent) (stop : Bool)
    (o : StartOutcome) (b : Backoff) :
    ¬ (startNoSleep stop o p b).1.Silent := by
  cases stop
  · cases hc : o.created <;> simp [startNoSleep, start, Silent, hc]
  · exact h

end SupervisedProcess

/-- A move makes a publisher silent only if it exits with the code. -/
theorem SlotMove.not_silent {sup : Supervisor} {st : Step} {i : ℕ}
    {s s' : CamSlot}
    (hm : SlotMove sup st i s s') (h : ¬ s.proc.Silent)
    (hcode : st.action ≠ .publisherExit i 259) : ¬ s'.proc.Silent := by
  -- an object without a child is not silent, and a start does not make it so
  have hfresh : ∀ (t : CamSlot), t.proc.child = none → ¬ t.proc.Silent := by
    rintro t hnone ⟨pid, hchild⟩
    rw [hnone] at hchild
    cases hchild
  cases hm with
  | restarted => exact SupervisedProcess.not_silent_start (hfresh _ rfl) _ _ _
  | modeSet => exact SupervisedProcess.not_silent_start (hfresh _ rfl) _ _ _
  | @enabledSet rq nm want =>
    rcases s.enable_cases sup.ffExe sup.stop (st.env.starts i) want with
      ⟨-, -, he⟩ | ⟨-, -, he⟩ | ⟨-, he⟩
    · rw [he]
      exact SupervisedProcess.not_silent_start (hfresh _ rfl) _ _ _
    · rw [he]
      exact h
    · rw [he]
      exact SupervisedProcess.not_silent_stop _
  | exited ha =>
    refine fun hs => ?_
    rcases SupervisedProcess.silent_of_exit hs with hs | rfl
    · exact h hs
    · exact hcode ha
  | ticked =>
    unfold Supervisor.tickSlot CamSlot.tick
    dsimp only
    repeat' split
    all_goals first
      | exact h
      | exact SupervisedProcess.not_silent_start
          (SupervisedProcess.not_silent_stop _) _ _ _
  | diffed =>
    unfold Supervisor.diffSlot
    rcases s.diffPresence_cases sup.ffExe sup.stop (st.env.starts i) _ with
      ⟨-, hd⟩ | ⟨-, -, hd⟩ | ⟨-, -, hd⟩
    · rw [hd]
      exact h
    · rw [hd]
      exact SupervisedProcess.not_silent_stop _
    · rw [hd]
      dsimp only
      split
      next => exact SupervisedProcess.not_silent_start (hfresh _ rfl) _ _ _
      next => exact h
  | _ => exact h

/-- The step is no exit with the code that stands for a running child. -/
def Step.NoSilentExit (st : Step) : Prop :=
  (∀ i, st.action ≠ .publisherExit i 259) ∧ st.action ≠ .mtxExit 259

/-- No child is silent. -/
structure NoneSilent (sup : Supervisor) : Prop where
  mtx : ¬ sup.mtx.Silent
  slots : ∀ s ∈ sup.slots, ¬ s.proc.Silent

theorem not_silent_startIfEnabled {ffExe : String} {device : CameraDevice}
    {formats : List AdvertisedFormat} {cfg : CameraConfig} {stop : Bool}
    {o : StartOutcome} :
    ¬ ((newSlot ffExe device formats cfg).startIfEnabled stop
      o).proc.Silent := by
  have hnew : ¬ (newSlot ffExe device formats cfg).proc.Silent := by
    simp [newSlot,
    SupervisedProcess.Silent]
  unfold CamSlot.startIfEnabled
  split
  next => exact SupervisedProcess.not_silent_start hnew _ _ _
  next => exact hnew

theorem noneSilent_step {sup sup' : Supervisor} {st : Step} (h : NoneSilent sup)
    (hst : st.NoSilentExit) (hnext : next sup st = some sup') :
    NoneSilent sup' := by
  obtain ⟨out, hout, rfl⟩ := Option.map_eq_some_iff.mp hnext
  constructor
  · rcases mtx_step hout with ⟨heq, -⟩ | ⟨heq, -⟩ | ⟨code, ha, heq, -⟩
    · rw [heq]
      exact h.mtx
    · rw [heq]
      exact SupervisedProcess.not_silent_start
        (SupervisedProcess.not_silent_stop _) _ _ _
    · rw [heq]
      refine fun hs => ?_
      rcases SupervisedProcess.silent_of_exit hs with hs | rfl
      · exact h.mtx hs
      · exact hst.2 ha
  · exact step_forall_slots hout h.slots
      (fun k _ _ _ hx hm => hm.not_silent hx (hst.1 k))
      (fun _ _ _ _ => not_silent_startIfEnabled)

theorem noneSilent_startUp {b : Boot} {sup : Supervisor}
    (h : startUp b = .ok sup) :
    NoneSilent sup := by
  refine ⟨?_, startUp_forall_slots h (fun _ _ _ _ => not_silent_startIfEnabled)⟩
  obtain ⟨settings, file, yml, slots, -, -, -, rfl⟩ := startUp_spec h
  exact SupervisedProcess.not_silent_start
    (by simp [SupervisedProcess.Silent]) _ _ _

/-- **Where no child ever exits with 259**, no tick overlooks one. The
condition here is on the environment alone, with nothing about the supervisor,
so that it can be checked against a list of steps. -/
theorem ticksSeeAll_of_codes {b : Boot} {sup : Supervisor}
    (hb : startUp b = .ok sup)
    {steps : List Step} (hsteps : ∀ st ∈ steps, st.NoSilentExit) :
    Runs.Guarded next TicksSeeAll sup steps := by
  have hcodes : Runs.Guarded next (fun _ st => st.NoSilentExit) sup steps :=
    Runs.guarded_of_forall_mem (fun st hst _ => hsteps st hst)
  have hsees : ∀ t st, NoneSilent t → TicksSeeAll t st := fun t st ht _ _ =>
    ⟨fun ho => ht.mtx ho.1, fun s hs _ ho => ht.slots s hs ho.1⟩
  exact Runs.guarded_of_invariant (fun _ _ _ ht hst hnext =>
    noneSilent_step ht hst hnext) hsees
    (noneSilent_startUp hb) hcodes

/-! ## Whole runs

A run goes wrong at the first tick that overlooks a child. The bound on the
backoffs needs no condition and is shown beside it, so that the result is one
equivalence. -/

/-- **No dead child is left unattended**, and no backoff is longer than thirty
seconds, exactly in the runs in which no tick finds a child that exited with 259
and is due for a start. -/
theorem children_attended_iff {b : Boot} {sup : Supervisor}
    (hb : startUp b = .ok sup)
    (steps : List Step) :
    (Runs.Guarded next TicksAttend sup steps ∧
        Runs.Everywhere next
            (fun t => t.bMtx.earliestNext ≤ t.bMtx.lastStart + ms 30000 ∧
          ∀ s ∈ t.slots,
            s.backoff.earliestNext ≤ s.backoff.lastStart + ms 30000) sup steps)
      ↔ Runs.Guarded next TicksSeeAll sup steps := by
  have hbounded : Runs.Everywhere next BackoffsBounded sup steps :=
    Runs.everywhere_of_forall (fun _ _ _ hs hnext =>
      backoffsBounded_step hs hnext)
      (backoffsBounded_startUp hb) steps
  have hticks : ∀ t st, TicksAttend t st ↔ TicksSeeAll t st := fun t st =>
    forall_congr' (fun _ => forall_congr' (fun hstop => tickAttends_iff hstop))
  have hguarded : Runs.Guarded next TicksAttend sup steps
      ↔ Runs.Guarded next TicksSeeAll sup steps := by
    rw [show TicksAttend = TicksSeeAll from
      funext (fun t => funext (fun st => propext (hticks t st)))]
  rw [hguarded]
  exact and_iff_left (hbounded.mono (fun t ht =>
    ⟨ht.mtx.earliestNext, fun s hs => (ht.slots s hs).earliestNext⟩))

/-- The publisher of the only camera exits with 1, and the tick ten seconds
later starts it again. -/
def deathAndTick : List Step :=
  [{ action := .beginLoop }, { action := .publisherExit 0 1 },
    { env := { now := ms 10000, starts := fun _ => ⟨ms 10000, some 3⟩ }
      action := .tick }]

theorem children_attended_iff_oneCamera :
    ∃ sup sup', startUp oneCamera = .ok sup ∧
      Runs.run next sup deathAndTick = some sup' ∧
      sup'.slots.map (·.proc.pid) = [3] ∧
      Runs.Guarded next TicksAttend sup deathAndTick := by
  have hpid : (bootRun oneCamera deathAndTick).map
      (fun t => t.slots.map (·.proc.pid)) = some [3] := by
    decide
  obtain ⟨sup', hrun, hpids⟩ := Option.map_eq_some_iff.mp hpid
  obtain ⟨sup, hstart, hrun⟩ := bootRun_eq_some.mp hrun
  have hcodes : ∀ st ∈ deathAndTick, st.NoSilentExit := by
    intro st hst
    simp only [deathAndTick, List.mem_cons, List.not_mem_nil, or_false] at hst
    rcases hst with rfl | rfl | rfl <;> simp [Step.NoSilentExit]
  exact ⟨sup, sup', hstart, hrun, hpids, ((children_attended_iff hstart
    deathAndTick).mpr (ticksSeeAll_of_codes hstart hcodes)).1⟩

/-- The publisher exits with 259, and ten seconds later the tick comes by. -/
theorem exit_259_is_overlooked :
    ¬ ∀ (b : Boot) (steps : List Step) (sup : Supervisor) (env : Env),
      bootRun b steps = some sup → sup.phase = .looping → sup.stop = false →
        TickAttends env sup := by
  intro h
  have htick := h oneCamera
    [{ action := .beginLoop },
      { action := .publisherExit 0 259 }] _ { now := ms 10000 }
    rfl rfl rfl
  exact absurd (htick.slots 0 _ _ rfl rfl rfl) (by unfold Attended; decide)

end WebcamStreamer
