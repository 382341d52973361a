import Mathlib.Data.List.Chain
import WebcamStreamer.Attendance
import WebcamStreamer.ViewerCount

/-!
# Restart storms

A child that dies again and again is started less and less often: every call of
`StartNoSleep` doubles the time to the next one, up to thirty seconds, and only
a quiet minute, or a new process object, brings it back to one second. The calls
come from the tick, which waits for that time, and from handlers, which do not.

A `Backoff` is what the calls on it have made of a fresh one, so that all of
this can be said about the times of the calls (`Backoff.after`). `CallLog` is
the part of a run that concerns one child: the times at which it was started
since its backoff was fresh, with every step keeping the log, adding a call or
beginning it anew.
-/

namespace WebcamStreamer

/-! ## A sequence of calls

The record of the backoff after some calls depends on the times of the calls
alone. Calls that come close after each other double the delay up to its
limit, and a quiet minute brings it back to one second. -/

namespace Backoff

/-- What the calls at these times make of a fresh backoff. -/
def after (times : List Time) : Backoff := times.foldl started {}

/-- Each call comes at most a minute after the one before it. -/
def Close (times : List Time) : Prop :=
  times.IsChain (fun s t => t ≤ s + ms 60000)

instance (times : List Time) : Decidable (Close times) :=
  inferInstanceAs (Decidable (List.IsChain _ _))

variable {times : List Time} {t : Time}

@[simp] theorem after_append_singleton (times : List Time) (t : Time) :
    after (times ++ [t]) = (after times).started t := by
  rw [after, List.foldl_append, List.foldl_cons, List.foldl_nil]
  rfl

/-- The last call is the last start. -/
theorem lastStart_after (times : List Time) :
    (after times).lastStart = times.getLast?.getD 0 := by
  induction times using List.reverseRecOn with
  | nil => rfl
  | append_singleton times t ih =>
    rw [after_append_singleton, List.getLast?_append, List.getLast?_singleton]
    rfl

/-- Whoever was started has been counted. -/
theorem restarts_after_pos {init : List Time} {s : Time} :
    0 < (after (init ++ [s])).restarts := by
  rw [after_append_singleton]
  exact Nat.succ_pos _

/-- A call within a minute of the last one finds the backoff as that left it. -/
theorem relax_of_le {b : Backoff} (h : t ≤ b.lastStart + ms 60000) :
    b.relax t = b :=
  if_neg (fun hquiet => absurd hquiet.2 (Nat.not_lt.mpr h))

/-- So does every call of a close sequence. -/
theorem relax_after_of_close (h : Close (times ++ [t])) :
    (after times).relax t = after times := by
  rcases List.eq_nil_or_concat' times with rfl | ⟨init, s, rfl⟩
  · rfl
  · obtain ⟨-, -, hgap⟩ := List.isChain_append.mp h
    refine relax_of_le ?_
    rw [lastStart_after, List.getLast?_append, List.getLast?_singleton]
    exact hgap s (by simp) t (by simp)

/-- The delay doubles with every call, up to thirty seconds. -/
theorem delay_after_of_close (h : Close times) :
    (after times).delay = min (1000 * 2 ^ times.length) 30000 := by
  induction times using List.reverseRecOn with
  | nil => rfl
  | append_singleton times t ih =>
    have hdelay := ih (List.isChain_append.mp h).1
    rw [after_append_singleton]
    show min (((after times).relax t).delay * 2) 30000 = _
    rw [relax_after_of_close h, hdelay, List.length_append,
      List.length_singleton, Nat.pow_succ]
    omega

/-- **The `k`-th call of a close sequence** defers the next one by one second
doubled `k - 1` times, up to thirty seconds. -/
theorem earliestNext_after_of_close (h : Close (times ++ [t])) :
    (after (times ++ [t])).earliestNext
      = t + ms (min (1000 * 2 ^ times.length) 30000) := by
  rw [after_append_singleton]
  show t + ms ((after times).relax t).delay = _
  rw [relax_after_of_close h, delay_after_of_close (List.isChain_append.mp h).1]

/-- A relaxed delay is one second, or the delay that was there. -/
theorem delay_relax_eq_or (b : Backoff) (t : Time) :
    (b.relax t).delay = 1000 ∨ (b.relax t).delay = b.delay := by
  unfold relax
  split
  · exact .inl rfl
  · exact .inr rfl

/-- **The delay stays between one and thirty seconds**, whatever the times.
Nothing is asked of the clock, which may stand still or go back between two
calls. -/
theorem delay_after_bounds (times : List Time) :
    1000 ≤ (after times).delay ∧ (after times).delay ≤ 30000 := by
  induction times using List.reverseRecOn with
  | nil => decide
  | append_singleton times t ih =>
    have hdelay : (after (times ++ [t])).delay
        = min (((after times).relax t).delay * 2) 30000 := by
      rw [after_append_singleton]
      rfl
    rcases delay_relax_eq_or (after times) t with h | h <;> omega

/-- The delay is one second only before the first call. -/
theorem delay_after_eq_iff : (after times).delay = 1000 ↔ times = [] := by
  rcases List.eq_nil_or_concat' times with rfl | ⟨init, s, rfl⟩
  · exact iff_of_true rfl rfl
  · refine iff_of_false ?_ (by simp)
    have hbounds := delay_after_bounds init
    have hdelay : (after (init ++ [s])).delay
        = min (((after init).relax s).delay * 2) 30000 := by
      rw [after_append_singleton]
      rfl
    rcases delay_relax_eq_or (after init) s with h | h <;> omega

/-- **The delay returns to one second** after more than a quiet minute, and
only then. The bound is strict: after a minute to the millisecond the delay is
still doubled. -/
theorem earliestNext_after_eq_iff {init : List Time} {s : Time} :
    (after (init ++ [s] ++ [t])).earliestNext = t + ms 1000 ↔
      s + ms 60000 < t := by
  have hlast : (after (init ++ [s])).lastStart = s := by
    rw [after_append_singleton]
    rfl
  have hnext : (after (init ++ [s] ++ [t])).earliestNext
      = t + ms ((after (init ++ [s])).relax t).delay := by
    rw [after_append_singleton (init ++ [s])]
    rfl
  rw [hnext]
  by_cases hquiet : s + ms 60000 < t
  · refine iff_of_true ?_ hquiet
    rw [relax, if_pos ⟨restarts_after_pos, hlast.symm ▸ hquiet⟩]
  · refine iff_of_false (fun heq => ?_) hquiet
    rw [relax_of_le (hlast.symm ▸ Nat.not_lt.mp hquiet)] at heq
    have hdelay : (after (init ++ [s])).delay = 1000 :=
      Nat.eq_of_mul_eq_mul_right (by decide) (Nat.add_left_cancel heq)
    simpa using delay_after_eq_iff.mp hdelay

end Backoff

/-! ## The calls on one child

A child is MediaMTX or the publisher of a camera at a position. Its log is the
list of the times at which it was started since its backoff was fresh, and the
log also says of a change of the process that it was one of these calls. -/

/-- A child: MediaMTX, or the publisher of the camera at a position. -/
inductive ChildRef where
  | mediamtx
  | camera (i : ℕ)
  deriving DecidableEq

/-- The backoff of a child, if there is such a child. -/
def Supervisor.backoff? (sup : Supervisor) : ChildRef → Option Backoff
  | .mediamtx => some sup.bMtx
  | .camera i => sup.slots[i]?.map CamSlot.backoff

/-- The process of a child, if there is such a child. -/
def Supervisor.process? (sup : Supervisor) : ChildRef → Option SupervisedProcess
  | .mediamtx => some sup.mtx
  | .camera i => sup.slots[i]?.map CamSlot.proc

/-- What a call of `StartNoSleep` for a child finds. -/
def Env.startOf (env : Env) : ChildRef → StartOutcome
  | .mediamtx => env.mtxStart
  | .camera i => env.starts i

/-- What a step does to the log of a child: nothing, a call is added, or the
backoff is fresh again because the camera is rebuilt, and then a call may
follow. A call of the tick is made only where its reading of the clock is past
the time to wait for. -/
inductive LogMove (sup : Supervisor) (st : Step) :
    ChildRef → List Time → List Time → Prop where
  | kept {c : ChildRef} {times : List Time} : LogMove sup st c times times
  | called {c : ChildRef} {times : List Time}
      (hdue : st.action = .tick →
        (Backoff.after times).earliestNext ≤ st.env.now) :
      LogMove sup st c times (times ++ [(st.env.startOf c).now])
  | rebuilt {i : ℕ} {s : CamSlot} {times : List Time}
      (hs : sup.slots[i]? = some s)
      (h : Rebuilds sup st i s) : LogMove sup st (.camera i) times []
  | rebuiltAndCalled {i : ℕ} {s : CamSlot} {times : List Time}
      (hs : sup.slots[i]? = some s)
      (h : Rebuilds sup st i s) :
      LogMove sup st (.camera i) times [(st.env.starts i).now]

/-- **The log of a child**: the times of the calls of `StartNoSleep` since its
backoff was fresh, after start-up and the given steps. -/
inductive CallLog (b : Boot) (c : ChildRef) :
    List Step → Supervisor → List Time → Prop where
  | boot {sup : Supervisor} {times : List Time} (hstart : startUp b = .ok sup)
      (htimes : times = [] ∨ times = [(b.env.startOf c).now])
      (hbackoff : sup.backoff? c = some (.after times)) :
      CallLog b c [] sup times
  | added {steps : List Step} {sup : Supervisor} {st : Step} {out : Outcome}
      {times : List Time}
      (hrun : bootRun b steps = some sup) (hnone : sup.backoff? c = none)
      (hstep : step sup st = some out)
      (htimes : times = [] ∨ times = [(st.env.startOf c).now])
      (hbackoff : out.1.backoff? c = some (.after times)) :
      CallLog b c (steps ++ [st]) out.1 times
  | moved {steps : List Step} {sup : Supervisor} {st : Step} {out : Outcome}
      {times times' : List Time} (hlog : CallLog b c steps sup times)
      (hstep : step sup st = some out) (hmove : LogMove sup st c times times')
      (hbackoff : out.1.backoff? c = some (.after times')) :
      CallLog b c (steps ++ [st]) out.1 times'

/-- The backoff is what the calls of the log made of a fresh one. -/
theorem CallLog.backoff_eq {b : Boot} {c : ChildRef} {steps : List Step}
    {sup : Supervisor}
    {times : List Time} (h : CallLog b c steps sup times) :
    sup.backoff? c = some (.after times) := by
  cases h <;> assumption

/-! ## What a step does to the log

Every step either leaves the log of a child as it is, or adds a call to it, or
begins a new one because the camera was rebuilt. A call in a tick has waited
for the time of the backoff; a call in a request has not. -/

/-- The log after `StartNoSleep`. -/
def loggedCall (stop : Bool) (o : StartOutcome) (times : List Time) :
    List Time :=
  if stop then times else times ++ [o.now]

theorem snd_startNoSleep_after (stop : Bool) (o : StartOutcome)
    (p : SupervisedProcess)
    (times : List Time) :
    (startNoSleep stop o p (.after times)).2 = .after
      (loggedCall stop o times) := by
  cases stop
  · exact (Backoff.after_append_singleton times o.now).symm
  · rfl

/-- A call on a fresh backoff, unless shutdown has begun. -/
theorem loggedCall_nil (stop : Bool) (o : StartOutcome) :
    loggedCall stop o [] = [] ∨ loggedCall stop o [] = [o.now] := by
  cases stop
  · exact .inr rfl
  · exact .inl rfl

namespace CamSlot

variable {s : CamSlot} {ffExe : String} {stop : Bool} {o : StartOutcome}
  {times : List Time}

theorem backoff_restart :
    (s.restart ffExe stop o).backoff = .after (loggedCall stop o []) :=
  snd_startNoSleep_after stop o _ []

theorem backoff_startIfEnabled {device : CameraDevice}
    {formats : List AdvertisedFormat}
    {cfg : CameraConfig} :
    ∃ times, (times = [] ∨ times = [o.now]) ∧
      ((newSlot ffExe device formats cfg).startIfEnabled stop o).backoff
      = .after times := by
  unfold startIfEnabled
  split
  · exact ⟨_, loggedCall_nil stop o, snd_startNoSleep_after stop o _ []⟩
  · exact ⟨[], .inl rfl, rfl⟩

/-- The tick calls `StartNoSleep` only once the time to wait for has come. -/
theorem backoff_tick (stop : Bool) (o : StartOutcome) (now : Time)
    (h : s.backoff = .after times) :
    (s.tick stop now o).1.backoff = .after times ∨
      (s.tick stop now o).1.backoff = .after (times ++ [o.now]) ∧
      s.backoff.earliestNext ≤ now := by
  rcases s.child_tick_eq_or stop now o with ⟨-, heq⟩ | ⟨hdue, -, heq⟩
  · exact .inl (heq.trans h)
  · rw [h, snd_startNoSleep_after] at heq
    cases stop
    · exact .inr ⟨heq, hdue⟩
    · exact .inl heq

end CamSlot

section Moves

variable {sup : Supervisor} {st : Step} {times : List Time}

/-- A camera that is rebuilt has a fresh backoff, and maybe a call on it. -/
theorem LogMove.of_rebuilt {i : ℕ} {s : CamSlot} (hs : sup.slots[i]? = some s)
    (h : Rebuilds sup st i s) (stop : Bool) :
    LogMove sup st (.camera i) times
      (loggedCall stop (st.env.starts i) []) := by
  rcases loggedCall_nil stop (st.env.starts i) with heq | heq
  · rw [heq]
    exact .rebuilt hs h
  · rw [heq]
    exact .rebuiltAndCalled hs h

/-- Every move of a slot is a move of its log. -/
theorem SlotMove.logMove {i : ℕ} {s s' : CamSlot} (hs : sup.slots[i]? = some s)
    (hm : SlotMove sup st i s s') (h : s.backoff = .after times) :
    ∃ times', LogMove sup st (.camera i) times times' ∧
      s'.backoff = .after times' := by
  cases hm with
  | restarted ha hm hp hne hfound =>
    have hrebuilds : Rebuilds sup st i s :=
      .restarted (.restartCamera ha hm hp hne hfound)
    exact ⟨_, .of_rebuilt hs hrebuilds sup.stop, CamSlot.backoff_restart⟩
  | modeSet ha hm hp hne hmode hfound hops =>
    have hrebuilds : Rebuilds sup st i s :=
      .restarted (.setMode ha hm hp hne hmode hfound hops)
    exact ⟨_, .of_rebuilt hs hrebuilds sup.stop, CamSlot.backoff_restart⟩
  | @enabledSet rq nm want ha hm hp hne hwant hfound hops =>
    rcases s.enable_cases sup.ffExe sup.stop (st.env.starts i) want with
      ⟨rfl, hpresent, he⟩ | ⟨-, -, he⟩ | ⟨-, he⟩
    · have hrebuilds : Rebuilds sup st i s :=
        .enabled ha hm hp hne hwant hfound hpresent hops
      refine ⟨_, .of_rebuilt hs hrebuilds sup.stop, ?_⟩
      rw [he]
      exact CamSlot.backoff_restart
    · rw [he]
      exact ⟨times, .kept, h⟩
    · rw [he]
      exact ⟨times, .kept, h⟩
  -- a tick calls only when the delay is over, and the log keeps the time of the
  -- call
  | ticked ha =>
    rcases CamSlot.backoff_tick sup.stop (st.env.starts i) st.env.now h with
      hkept | ⟨hcalled, hdue⟩
    · exact ⟨times, .kept, hkept⟩
    · exact ⟨_, .called (fun _ => h ▸ hdue), hcalled⟩
  -- only a camera that has come back is rebuilt, and its log begins anew
  | @diffed current ha =>
    unfold Supervisor.diffSlot
    rcases s.diffPresence_cases sup.ffExe sup.stop (st.env.starts i)
      (current.any (fun d => d.friendlyName == s.cfg.friendlyName)) with
      ⟨-, hd⟩ | ⟨-, -, hd⟩ | ⟨hpresent, hin, hd⟩
    · rw [hd]
      exact ⟨times, .kept, h⟩
    · rw [hd]
      exact ⟨times, .kept, h⟩
    · rw [hd]
      dsimp only
      split
      next henabled =>
        have hrebuilds : Rebuilds sup st i s :=
          .replugged ha hpresent henabled hin
        exact ⟨_, .of_rebuilt hs hrebuilds sup.stop,
          snd_startNoSleep_after _ _ _ []⟩
      next => exact ⟨times, .kept, h⟩
  | _ => exact ⟨times, .kept, h⟩

/-- What a tick does to a child: nothing that starts it, or a start that is
due. -/
def TickedChild (st : Step) (c : ChildRef) (p : SupervisedProcess)
    (bk : Backoff) (p' : SupervisedProcess) (bk' : Backoff) : Prop :=
  bk' = bk ∧ (p' = p ∨ p' = p.stop) ∨
    bk.earliestNext ≤ st.env.now ∧ p' = p.start (st.env.startOf c).created ∧
      bk' = bk.started (st.env.startOf c).now

/-- A call of `StartNoSleep` in the tick, after the call of `Stop`. -/
theorem tickedChild_of_startNoSleep {c : ChildRef} {p : SupervisedProcess}
    {bk : Backoff} (stop : Bool) (hdue : bk.earliestNext ≤ st.env.now) :
    TickedChild st c p bk (startNoSleep stop (st.env.startOf c) p.stop bk).1
      (startNoSleep stop (st.env.startOf c) p.stop bk).2 := by
  cases stop with
  | false => exact .inr ⟨hdue, rfl, rfl⟩
  | true => exact .inl ⟨rfl, .inr rfl⟩

theorem tickedChild_of_step {c : ChildRef} {out : Outcome}
    {p p' : SupervisedProcess} {bk bk' : Backoff}
    (hstep : step sup st = some out) (ha : st.action = .tick)
    (hp : sup.process? c = some p) (hbk : sup.backoff? c = some bk)
    (hp' : out.1.process? c = some p') (hbk' : out.1.backoff? c = some bk') :
    TickedChild st c p bk p' bk' := by
  obtain rfl := eq_tick_of_step hstep ha
  cases c with
  | mediamtx =>
    obtain rfl := Option.some.inj hp
    obtain rfl := Option.some.inj hbk
    obtain rfl := Option.some.inj hp'
    obtain rfl := Option.some.inj hbk'
    show TickedChild st .mediamtx sup.mtx sup.bMtx (sup.tickMtx st.env).1.mtx
      (sup.tickMtx st.env).1.bMtx
    unfold Supervisor.tickMtx
    split
    next hdown =>
      exact @tickedChild_of_startNoSleep st .mediamtx sup.mtx sup.bMtx sup.stop
        hdown.2
    next => exact .inl ⟨rfl, .inl rfl⟩
  | camera i =>
    obtain ⟨s, hs, rfl⟩ := Option.map_eq_some_iff.mp hp
    obtain rfl : s.backoff = bk := by
      simpa [Supervisor.backoff?, hs] using hbk
    have hs' : (sup.tick st.env).1.slots[i]?
        = some (s.tick sup.stop st.env.now (st.env.starts i)).1 := by
      rw [Supervisor.slots_tick, List.getElem?_mapIdx, hs]
      rfl
    rw [Supervisor.process?, hs', Option.map_some] at hp'
    rw [Supervisor.backoff?, hs', Option.map_some] at hbk'
    obtain rfl := Option.some.inj hp'
    obtain rfl := Option.some.inj hbk'
    -- the tick leaves process and record alone unless a start is due
    rcases s.child_tick_eq_or sup.stop st.env.now (st.env.starts i) with
      ⟨hproc, hbackoff⟩ | ⟨hdue, hproc, hbackoff⟩
    · rw [hproc, hbackoff]
      exact .inl ⟨rfl, .inl rfl⟩
    · rw [hproc, hbackoff]
      exact @tickedChild_of_startNoSleep st (.camera i) s.proc s.backoff
        sup.stop hdue

/-- Every step moves the log of MediaMTX, whose backoff is never fresh again. -/
theorem mtx_logMove {out : Outcome} (hstep : step sup st = some out)
    (h : sup.bMtx = .after times) :
    ∃ times', LogMove sup st .mediamtx times times' ∧
      out.1.bMtx = .after times' := by
  by_cases ha : st.action = .tick
  · -- the tick looks at its clock before it starts MediaMTX
    rcases (@tickedChild_of_step sup st .mediamtx out _ _ _ _ hstep ha rfl rfl
      rfl rfl) with ⟨hkept, -⟩ | ⟨hdue, -, hstarted⟩
    · exact ⟨times, .kept, hkept.trans h⟩
    · refine ⟨_, .called (fun _ => h ▸ hdue), ?_⟩
      rw [hstarted, h, Backoff.after_append_singleton]
  · rcases mtx_step hstep with ⟨-, heq⟩ | ⟨-, heq⟩ | ⟨code, -, -, heq⟩
    · exact ⟨times, .kept, heq.trans h⟩
    · rw [h, snd_startNoSleep_after] at heq
      refine ⟨_, ?_, heq⟩
      cases sup.stop
      · exact .called (fun h' => absurd h' ha)
      · exact .kept
    · exact ⟨times, .kept, heq.trans h⟩

/-- **Every step moves the log of every child** it finds. A step calls for a
child at most once, and the log of a child for which it does not call stays or
begins anew with a rebuilt publisher. -/
theorem step_logMove {c : ChildRef} {out : Outcome}
    (hstep : step sup st = some out)
    (h : sup.backoff? c = some (.after times)) :
    ∃ times', LogMove sup st c times times' ∧
      out.1.backoff? c = some (.after times') := by
  cases c with
  | mediamtx =>
    obtain ⟨times', hmove, heq⟩ := mtx_logMove hstep (Option.some.inj h)
    exact ⟨times', hmove, congrArg some heq⟩
  | camera i =>
    obtain ⟨s, hs, hbackoff⟩ := Option.map_eq_some_iff.mp h
    obtain ⟨s', hs', hm⟩ := step_slot hstep hs
    obtain ⟨times', hmove, heq⟩ := hm.logMove hs hbackoff
    refine ⟨times', hmove, ?_⟩
    show out.1.slots[i]?.map _ = _
    rw [hs', Option.map_some, heq]

end Moves

/-! ## Whole runs

Every child has a log in every reachable state, so that what was said about
sequences of calls can be said about the children of the program. Calls from
outside of the tick are part of the log, as they are made whether the time has
come or not. -/

section Run

variable {b : Boot} {c : ChildRef} {steps : List Step} {sup : Supervisor}
  {bk : Backoff}

/-- Start-up leaves every child with a log of at most one call. -/
theorem exists_callLog_startUp (h : startUp b = .ok sup)
    (hc : sup.backoff? c = some bk) :
    ∃ times, CallLog b c [] sup times := by
  obtain ⟨settings, file, yml, slots, -, -, hslots, rfl⟩ := startUp_spec h
  cases c with
  | mediamtx =>
    exact ⟨_, .boot h (loggedCall_nil b.stop b.env.mtxStart)
      (congrArg some (snd_startNoSleep_after b.stop b.env.mtxStart _ []))⟩
  | camera i =>
    obtain ⟨s, hs, -⟩ := Option.map_eq_some_iff.mp hc
    obtain ⟨device, formats, cfg, -, -, hnew⟩ := bootSlots_get hslots hs
    rw [Nat.zero_add] at hnew
    obtain ⟨times, htimes, hbackoff⟩ :=
      @CamSlot.backoff_startIfEnabled b.ffExe b.stop
      (b.env.starts i) device formats cfg
    refine ⟨times, .boot h htimes ?_⟩
    show slots[i]?.map _ = _
    rw [show slots[i]? = some s from hs, Option.map_some, hnew, hbackoff]

/-- A step leaves a child that it adds with a log of at most one call. -/
theorem added_of_step {st : Step} {out : Outcome}
    (hstep : step sup st = some out)
    (hnone : sup.backoff? c = none) (hc : out.1.backoff? c = some bk) :
    ∃ times, (times = [] ∨ times = [(st.env.startOf c).now]) ∧
      out.1.backoff? c = some (.after times) := by
  cases c with
  | mediamtx => cases hnone
  | camera i =>
    obtain ⟨s, hs, rfl⟩ := Option.map_eq_some_iff.mp hc
    have hge : sup.slots.length ≤ i :=
      List.getElem?_eq_none_iff.mp (Option.map_eq_none_iff.mp hnone)
    have hlt := (List.getElem?_eq_some_iff.mp hs).1
    rcases step_added hstep with hlen | ⟨newFormats, newDevices, listChanged,
      -, -, hgrown⟩
    · omega
    · obtain ⟨device, formats, path, cfg, -, -, -, hnew⟩ :=
        hgrown.eq_newSlot hge hs
      obtain ⟨times, htimes, hbackoff⟩ :=
        @CamSlot.backoff_startIfEnabled sup.ffExe sup.stop
        (st.env.starts i) device formats cfg
      refine ⟨times, htimes, hc.trans ?_⟩
      rw [hnew, hbackoff]

/-- **In every reachable state every child has a log.** This is the invariant
of the run; the bounds are read off the log in whatever state it is found. -/
theorem exists_callLog (hrun : bootRun b steps = some sup)
    (hc : sup.backoff? c = some bk) :
    ∃ times, CallLog b c steps sup times := by
  induction steps using List.reverseRecOn generalizing sup bk with
  | nil =>
    obtain ⟨sup₀, hstart, hrun⟩ := bootRun_eq_some.mp hrun
    obtain rfl := Option.some.inj hrun
    exact exists_callLog_startUp hstart hc
  | append_singleton steps st ih =>
    obtain ⟨sup₀, hstart, hrun⟩ := bootRun_eq_some.mp hrun
    obtain ⟨sup₁, hrun₁, hlast⟩ := Runs.run_append.mp hrun
    obtain ⟨sup₂, hnext, hnil⟩ := Runs.run_cons_iff.mp hlast
    obtain rfl := Option.some.inj hnil
    obtain ⟨out, hout, rfl⟩ := Option.map_eq_some_iff.mp hnext
    have hboot : bootRun b steps = some sup₁ :=
      bootRun_eq_some.mpr ⟨sup₀, hstart, hrun₁⟩
    cases hbefore : sup₁.backoff? c with
    | none =>
      obtain ⟨times, htimes, hbackoff⟩ := added_of_step hout hbefore hc
      exact ⟨times, .added hboot hbefore hout htimes hbackoff⟩
    | some bk₁ =>
      obtain ⟨times, hlog⟩ := ih hboot hbefore
      obtain ⟨times', hmove, hbackoff⟩ := step_logMove hout hlog.backoff_eq
      exact ⟨times', .moved hlog hout hmove hbackoff⟩

/-- **Restarts come in bounded storms**: the backoff `bk` of a child after the
calls at the given times. The times are those of the calls since the record
was fresh, and a publisher that is rebuilt has a fresh one. -/
structure StormBounded (sup : Supervisor) (c : ChildRef) (bk : Backoff)
    (times : List Time) :
    Prop where
  /-- The `k`-th of close calls defers the next start by its share. -/
  deferred : ∀ init t, times = init ++ [t] → Backoff.Close times →
    bk.earliestNext = t + ms (min (1000 * 2 ^ (times.length - 1)) 30000)
  delay : 1000 ≤ bk.delay ∧ bk.delay ≤ 30000
  /-- The delay is one second on a fresh backoff only. -/
  fresh : bk.delay = 1000 → times = []
  /-- A later call is deferred by one second only after a quiet minute. -/
  quiet :
    ∀ init s t, times = init ++ [s] ++ [t] → bk.earliestNext = t + ms 1000 →
    s + ms 60000 < t
  /-- The tick, whose reading of the clock is not later than that of the start
  it makes, starts the process no earlier than the last start allows, and counts
  every start. -/
  gated : ∀ st out p p' bk', st.action = .tick →
    st.env.now ≤ (st.env.startOf c).now → step sup st = some out →
    sup.process? c = some p → out.1.process? c = some p' →
    out.1.backoff? c = some bk' →
      bk' = bk ∧ (p' = p ∨ p' = p.stop) ∨
        p' = p.start (st.env.startOf c).created ∧
          bk' = bk.started (st.env.startOf c).now ∧
          bk.earliestNext ≤ (st.env.startOf c).now

theorem stormBounded_of_after {times : List Time}
    (hc : sup.backoff? c = some (.after times)) :
    StormBounded sup c (.after times) times where
  deferred init t htimes hclose := by
    subst htimes
    rw [Backoff.earliestNext_after_of_close hclose, List.length_append,
      List.length_singleton,
      Nat.add_sub_cancel]
  delay := Backoff.delay_after_bounds times
  fresh := Backoff.delay_after_eq_iff.mp
  quiet init s t htimes hnext := by
    subst htimes
    exact Backoff.earliestNext_after_eq_iff.mp hnext
  gated st out p p' bk' ha hclock hstep hp hp' hc' := by
    refine (tickedChild_of_step hstep ha hp hc hp' hc').imp_right ?_
    rintro ⟨hdue, hstarted, hcounted⟩
    exact ⟨hstarted, hcounted, hdue.trans hclock⟩

/-- **Restart storms are bounded**: in every reachable state every child has a
log of its calls, and whatever its log is, its backoff is that of a bounded
storm. The log is what the calls have left in the record, and it is found for
whatever child is asked about, MediaMTX or a camera. -/
theorem restartStorms_bounded (hrun : bootRun b steps = some sup)
    (hc : sup.backoff? c = some bk) :
    (∃ times, CallLog b c steps sup times) ∧
      ∀ times, CallLog b c steps sup times → StormBounded sup c bk times := by
  refine ⟨exists_callLog hrun hc, fun times hlog => ?_⟩
  obtain rfl := Option.some.inj (hlog.backoff_eq.symm.trans hc)
  exact stormBounded_of_after hlog.backoff_eq

/-- The publisher of the only camera dies twice, and the tick starts it again
each time. -/
def twoDeaths : List Step :=
  [{ action := .beginLoop },
    { action := .publisherExit 0 1 },
    { env := { now := ms 1000, starts := fun _ => ⟨ms 1000, some 3⟩ }
      action := .tick },
    { action := .publisherExit 0 1 },
    { env := { now := ms 3000, starts := fun _ => ⟨ms 3000, some 4⟩ }
      action := .tick }]

theorem restartStorms_bounded_oneCamera :
    ∃ sup bk, bootRun oneCamera twoDeaths = some sup ∧
      sup.backoff? (.camera 0) = some bk ∧
      bk.earliestNext = ms 7000 ∧ ∃ times,
        StormBounded sup (.camera 0) bk times := by
  have hnext : ((bootRun oneCamera twoDeaths).bind
      (Supervisor.backoff? · (.camera 0))).map
      Backoff.earliestNext = some (ms 7000) := by
    decide
  obtain ⟨bk, hbk, hms⟩ := Option.map_eq_some_iff.mp hnext
  obtain ⟨sup, hrun, hc⟩ := Option.bind_eq_some_iff.mp hbk
  obtain ⟨⟨times, hlog⟩, hall⟩ := restartStorms_bounded hrun hc
  exact ⟨sup, bk, hrun, hc, hms, times, hall times hlog⟩

end Run

end WebcamStreamer
