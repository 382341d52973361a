import WebcamStreamer.Sections
import WebcamStreamer.Steps

/-!
# The steps of the supervisor as sections

The supervisor takes a whole section under `state_mutex` as one step, and the
program takes one operation on a process after the other. What is seen of the
processes before a step and after it is what one of the program's sections leads
from and to: the section of a handler, of a part of the main thread's pass, or
of start-up.

Each kind of step is treated once, with the operations that the source
executes in it as a list, and with the choices the handler has made as
parameters: whether the camera is wanted, whether the tick finds a child down,
which cameras have come and gone. So the statement about a step is an equation
between what is seen, and no proof about interleavings has to know what a
handler computes.
-/

namespace WebcamStreamer

/-! ## What is seen of the supervisor

A step of the supervisor is compared with a section of the program by what is
seen of the processes. There is a lemma for each kind of step that touches
them: a request, the tick, the presence diff and the slots that are added. -/

/-- The child of an object, if it has one: whether it is alive. -/
def SupervisedProcess.shows (p : SupervisedProcess) : Option Bool :=
  p.child.map (fun c => c.state = .alive)

/-- The child of an object of the supervisor. -/
def Supervisor.shows (sup : Supervisor) : ProcRef → Option Bool
  | .mtx => sup.mtx.shows
  | .slot i => sup.slots[i]?.bind (fun s => s.proc.shows)

def Supervisor.seen (sup : Supervisor) : Seen :=
  ⟨sup.stop, sup.slots.length, sup.shows⟩

theorem SupervisedProcess.shows_startNoSleep (stop : Bool) (o : StartOutcome)
    (p : SupervisedProcess) (b : Backoff) :
    (startNoSleep stop o p b).1.shows = if stop then p.shows else o.shown := by
  cases stop
  · cases h : o.created <;>
      simp [startNoSleep, start, shows, StartOutcome.shown, h]
  · rfl

namespace CamSlot

variable (ffExe : String) (stop : Bool) (o : StartOutcome) (s : CamSlot)

theorem shows_start :
    (s.start stop o).proc.shows = if stop then s.proc.shows else o.shown :=
  SupervisedProcess.shows_startNoSleep stop o s.proc s.backoff

theorem shows_restart :
    (s.restart ffExe stop o).proc.shows = if stop then none else o.shown :=
  shows_start stop o (s.stopProc.rebuild ffExe)

theorem shows_startIfEnabled (hs : s.proc.shows = none) :
    (s.startIfEnabled stop o).proc.shows
      = if s.cfg.enabled = true ∧ stop = false then o.shown else none := by
  unfold startIfEnabled
  split
  next he =>
    rw [shows_start]
    cases stop <;> simp [he, hs]
  next he => simp [he, hs]

end CamSlot

namespace Supervisor

variable {sup : Supervisor} {i : ℕ} {s s' : CamSlot}

theorem seen_setSlot (hs : sup.slots[i]? = some s) (s' : CamSlot) :
    (sup.setSlot i s').seen = sup.seen.put (.slot i) s'.proc.shows := by
  have hi : i < sup.slots.length := (List.getElem?_eq_some_iff.mp hs).1
  refine Seen.ext rfl (by simp [seen]) (funext fun r => ?_)
  cases r with
  | mtx => simp [seen, Seen.put, shows, setSlot]
  | slot j =>
    by_cases hij : j = i
    · subst hij
      simp [seen, Seen.put, shows, hi]
    · simp [seen, Seen.put, shows, hij, List.getElem?_set_ne (Ne.symm hij)]

/-- What is seen of a slot that is there. -/
theorem shows_slot (hs : sup.slots[i]? = some s) :
    sup.shows (.slot i) = s.proc.shows := by
  simp [shows, hs]

theorem seen_setSlot_of_same (hs : sup.slots[i]? = some s)
    (h : s'.proc.shows = s.proc.shows) :
    (sup.setSlot i s').seen = sup.seen := by
  rw [seen_setSlot hs, h, ← shows_slot hs]
  exact Seen.put_shows _ _

theorem seen_restartMtx (env : Env) (sup : Supervisor) :
    (sup.restartMtx env).seen
      = sup.seen.put .mtx (if sup.stop then none else env.mtxStart.shown) := by
  have hmtx : (sup.restartMtx env).mtx.shows
      = if sup.stop then none else env.mtxStart.shown :=
    SupervisedProcess.shows_startNoSleep _ _ _ _
  refine Seen.ext rfl rfl (funext fun r => ?_)
  cases r with
  | mtx => simp [seen, Seen.put, shows, hmtx]
  | slot i => simp [seen, Seen.put, shows]

end Supervisor

/-- A section for the slot that a handler changed. -/
theorem leads_slotChanged {sup : Supervisor} {i : ℕ} {s s' : CamSlot}
    {ops : List ProcOp}
    (hs : sup.slots[i]? = some s) (disk : Disk) (result : IpcResult)
    (h : Leads ops sup.seen (sup.seen.put (.slot i) s'.proc.shows)) :
    Leads ops sup.seen (Served.slotChanged { sup with
      disk := disk } i s' result).sup.seen := by
  have hseen : ({ sup with disk := disk }.setSlot i s'.noteRunning).seen
      = sup.seen.put (.slot i) s'.proc.shows := by
    have hget : ({ sup with disk := disk } : Supervisor).slots[i]? = some s :=
      hs
    exact Supervisor.seen_setSlot hget s'.noteRunning
  exact hseen ▸ h

/-- **What a request does to the processes** is the section of a handler.
Which of the operations are executed is the choice that the handler has made
from the state, and it is handed to the section. -/
theorem Serves.leads {env : Env} {sup : Supervisor} {rq : IpcRequest}
    {served : Served}
    (h : Serves env sup rq served) :
    ∃ handled, Leads (handlerOps handled) sup.seen served.sup.seen := by
  cases h with
  | @restarted nm i s hm hp hne hs =>
    obtain ⟨hget, -⟩ := Supervisor.findByName_some hs
    have hi : i < sup.slots.length := (List.getElem?_eq_some_iff.mp hget).1
    refine ⟨.restart i, leads_slotChanged hget sup.disk _ ?_⟩
    rw [CamSlot.shows_restart]
    exact .stopRebuildStart hi _
  -- only the configuration is changed, which is not seen
  | @modeThrown nm what parsed upd i s hm hp hne hmode hs hops =>
    obtain ⟨hget, -⟩ := Supervisor.findByName_some hs
    have hsame : (sup.setSlot i { s with cfg := s.cfg.update upd }).seen
        = sup.seen :=
      Supervisor.seen_setSlot_of_same hget rfl
    exact ⟨.other, hsame ▸ .nil _⟩
  | @modeSet nm parsed upd i s flag file result hm hp hne hmode hs hsave =>
    obtain ⟨hget, -⟩ := Supervisor.findByName_some hs
    have hi : i < sup.slots.length := (List.getElem?_eq_some_iff.mp hget).1
    refine ⟨.restart i, leads_slotChanged hget _ _ ?_⟩
    rw [CamSlot.shows_restart]
    exact .stopRebuildStart hi _
  | @enabledSet nm want i s flag file result hm hp hne hwant hs hsave =>
    obtain ⟨hget, -⟩ := Supervisor.findByName_some hs
    have hi : i < sup.slots.length := (List.getElem?_eq_some_iff.mp hget).1
    rcases s.enable_cases sup.ffExe sup.stop (env.starts i) want with
      ⟨-, -, he⟩ | ⟨-, -, he⟩ | ⟨-, he⟩
    · refine ⟨.enable i true, leads_slotChanged hget _ _ ?_⟩
      rw [he, CamSlot.shows_restart]
      exact .stopRebuildStart hi _
    · refine ⟨.enable i false, leads_slotChanged hget _ _ ?_⟩
      rw [he, ← Supervisor.shows_slot hget]
      exact (Seen.put_shows sup.seen (.slot i)).symm ▸ .nil _
    · refine ⟨.disable i, leads_slotChanged hget _ _ ?_⟩
      rw [he]
      exact .stop _ _
  | @credentialsSet user pass file yml t hm hu hu0 hp hp0 hsave hyml ht =>
    subst ht
    refine ⟨.restartMtx, ?_⟩
    have hseen := Supervisor.seen_restartMtx env { sup with
      settings := sup.settings.withViewer user pass
      disk := { sup.disk with settings := file, runtimeYml := yml } }
    have hhas : sup.seen.Has .mtx := trivial
    exact hseen ▸ Leads.restart hhas env.mtxStart
  | shutdown => exact ⟨.shutdown, .setStop _⟩
  | _ => exact ⟨.other, .nil _⟩

namespace CamSlot

/-- The tick starts the publisher. -/
def due (now : Time) (s : CamSlot) : Bool :=
  s.wanted && !s.proc.isRunning && s.backoff.earliestNext ≤ now

/-- What the presence diff finds. -/
def found (isPresent : Bool) (s : CamSlot) : Presence :=
  match s.present, isPresent with
  | true, false => .gone
  | false, true => .back s.cfg.enabled
  | _, _ => .unchanged

variable {s : CamSlot} (ffExe : String) (stop : Bool) (o : StartOutcome)

theorem shows_tick (now : Time) :
    (s.tick stop now o).1.proc.shows
      = if s.due now then
        (if stop then none else o.shown) else s.proc.shows := by
  cases hw : s.wanted with
  | false =>
    rw [tick_of_unwanted _ _ _ hw]
    split <;> simp [due, hw]
  | true =>
    cases hr : s.proc.isRunning with
    | true =>
      rw [tick_of_running _ _ _ hw hr]
      split <;> simp [due, hw, hr]
    | false =>
      have hdue : s.due now = decide (s.backoff.earliestNext ≤ now) := by
        simp [due, hw, hr]
      rw [tick_of_down _ _ _ hw hr, hdue]
      by_cases hnow : s.backoff.earliestNext ≤ now
      · have hshows := shows_start stop o { s with viewerCount := 0 }.stopProc
        simp only [hnow, if_true, decide_true]
        split
        next => exact hshows
        next => exact hshows
      · simp only [hnow, if_false, decide_false, Bool.false_eq_true]
        split <;> rfl

theorem shows_diffPresence (isPresent : Bool) :
    (s.diffPresence ffExe stop o isPresent).1.proc.shows
      = match s.found isPresent with
        | .unchanged => s.proc.shows
        | .gone => none
        | .back enabled =>
          if enabled then
            (if stop then none else o.shown)
          else s.proc.shows := by
  cases hp : s.present <;> cases isPresent
  case true.false =>
    rw [diffPresence_of_unplugged _ _ _ hp]
    simp only [found, hp]
    rfl
  case false.true =>
    rw [diffPresence_of_replugged _ _ _ hp]
    simp only [found, hp]
    split
    next => exact shows_start stop o ({ s with present := true }.rebuild ffExe)
    next => rfl
  all_goals
    rw [diffPresence_of_same _ _ _ hp]
    simp only [found, hp]

end CamSlot

namespace Supervisor

variable {sup sup' : Supervisor}

/-- A state whose slots have other children. -/
theorem seen_eq_sweep (hstop : sup'.stop = sup.stop) (hmtx : sup'.mtx = sup.mtx)
    (hlen : sup'.slots.length = sup.slots.length) :
    sup'.seen = sup.seen.sweep (fun i => sup'.shows (.slot i))
      sup.slots.length := by
  refine Seen.ext hstop hlen (funext fun r => ?_)
  cases r with
  | mtx => simp [seen, Seen.sweep, shows, hmtx]
  | slot i =>
    by_cases hi : i < sup.slots.length
    · simp [seen, Seen.sweep, hi]
    · simp [seen, Seen.sweep, hi, shows, hlen]

/-- A section that goes through the slots. -/
theorem leads_mapIdx {ops : ℕ → List ProcOp} {f : ℕ → CamSlot → CamSlot}
    (hslots : sup'.slots = sup.slots.mapIdx f) (hstop : sup'.stop = sup.stop)
    (hmtx : sup'.mtx = sup.mtx)
    (h : ∀ i s, sup.slots[i]? = some s → ∀ w : Seen,
      w.stop = sup.stop → i < w.length →
      w.shows (.slot i) = s.proc.shows →
      Leads (ops i) w (w.put (.slot i) (f i s).proc.shows)) :
    Leads ((List.range sup.slots.length).flatMap ops) sup.seen sup'.seen := by
  rw [seen_eq_sweep hstop hmtx (by simp [hslots])]
  refine Leads.sweep (v := sup.seen) (fun i hi w hwstop hwlen hwshows => ?_)
  obtain ⟨s, hs⟩ : ∃ s, sup.slots[i]? = some s :=
    ⟨_, List.getElem?_eq_getElem hi⟩
  have hs' : sup'.slots[i]? = some (f i s) := by
    simp [hslots, hs]
  rw [shows_slot hs']
  exact h i s hs w hwstop (hwlen ▸ hi) (hwshows.trans (shows_slot hs))

/-- What a tick finds. -/
def tickChoice (env : Env) (sup : Supervisor) : LoopChoice where
  mtxDue := sup.mtx.isRunning = false ∧ sup.bMtx.earliestNext ≤ env.now
  due i := (sup.slots[i]?.map (CamSlot.due env.now)).getD false

/-- **A tick** is a section. The thread of the loop executes the operations of
MediaMTX first, and then those of one slot after the other. -/
theorem leads_tick (env : Env) (sup : Supervisor) :
    Leads (partOps sup.slots.length (sup.tickChoice env) .tick) sup.seen
      (sup.tick env).1.seen := by
  have hslots : (sup.tickMtx env).1.slots = sup.slots := sup.slots_tickMtx env
  refine Leads.append (v := (sup.tickMtx env).1.seen) ?_ ?_
  · by_cases hdue : sup.mtx.isRunning = false ∧ sup.bMtx.earliestNext ≤ env.now
    · have hhas : sup.seen.Has .mtx := trivial
      have htick : (sup.tickMtx env).1 = sup.restartMtx env := by
        simp only [tickMtx, if_pos hdue]
      have hchoice : (sup.tickChoice env).mtxDue = true := decide_eq_true hdue
      rw [htick, seen_restartMtx, hchoice, if_pos rfl]
      exact .restart hhas env.mtxStart
    · have htick : (sup.tickMtx env).1 = sup := by
        simp only [tickMtx, if_neg hdue]
      have hchoice : (sup.tickChoice env).mtxDue = false := decide_eq_false hdue
      rw [htick, hchoice, if_neg Bool.false_ne_true]
      exact .nil _
  · have hticked : (sup.tick env).1.slots
        = (sup.tickMtx env).1.slots.mapIdx
          (fun i s => (sup.tickSlot env i s).1) := by
      rw [slots_tick, hslots]
    rw [← hslots]
    refine leads_mapIdx hticked rfl rfl (fun i s hs w hwstop hi hwshows => ?_)
    have hget : sup.slots[i]? = some s := hslots ▸ hs
    have hchoice : (sup.tickChoice env).due i = s.due env.now := by
      simp [tickChoice, hget]
    rw [tickSlot, CamSlot.shows_tick, hchoice]
    split
    next =>
      have hhas : w.Has (.slot i) := hi
      rw [← sup.stop_tickMtx env, ← hwstop]
      exact .restart hhas _
    next =>
      rw [← hwshows, Seen.put_shows]
      exact .nil _

/-- What a presence diff finds. -/
def diffChoice (current : List CameraDevice) (sup : Supervisor) :
    LoopChoice where
  presence i := (sup.slots[i]?.map (fun s =>
    s.found (current.any (fun d => d.friendlyName == s.cfg.friendlyName)))).getD
      .unchanged

/-- **The presence diff** is a section. Slot by slot, a publisher whose camera
is gone is stopped, and one whose camera is back is made anew and started if
it is enabled. -/
theorem leads_diffPresence (env : Env) (current : List CameraDevice)
    (sup : Supervisor) :
    Leads (partOps sup.slots.length (sup.diffChoice current) .diff) sup.seen
      (sup.diffPresence env current).seen := by
  refine leads_mapIdx (sup.slots_diffPresence env current) rfl rfl
    (fun i s hs w hwstop hi hwshows => ?_)
  have hchoice : (sup.diffChoice current).presence i
      = s.found
        (current.any (fun d => d.friendlyName == s.cfg.friendlyName)) := by
    simp [diffChoice, hs]
  rw [hchoice, diffSlot, CamSlot.shows_diffPresence]
  cases s.found
    (current.any (fun d => d.friendlyName == s.cfg.friendlyName)) with
  | unchanged =>
    dsimp only
    rw [← hwshows, Seen.put_shows]
    exact .nil _
  | gone => exact .stop _ _
  | back enabled =>
    cases enabled with
    | true =>
      rw [← hwstop]
      exact .rebuildStart hi _
    | false =>
      simp only [Bool.false_eq_true, if_false]
      rw [← hwshows, Seen.put_shows]
      exact .nil _

end Supervisor

theorem Supervisor.seen_append (sup : Supervisor) (slots : List CamSlot)
    (s : CamSlot) :
    { sup with slots := slots ++ [s] }.seen
      = { sup with slots := slots }.seen.grow s.proc.shows := by
  refine Seen.ext rfl (by simp [seen, Seen.grow]) (funext fun r => ?_)
  cases r with
  | mtx => simp [seen, Seen.grow, Seen.put, shows]
  | slot j =>
    rcases Nat.lt_trichotomy j slots.length with hj | rfl | hj
    · simp [seen, Seen.grow, Seen.put, shows, hj.ne,
        List.getElem?_append_left hj]
    · simp [seen, Seen.grow, Seen.put, shows]
    · have hlen : (slots ++ [s]).length ≤ j := by
        rw [List.length_append]
        exact hj
      simp [seen, Seen.grow, Seen.put, shows, hj.ne',
        List.getElem?_eq_none hlen,
        List.getElem?_eq_none hj.le]

/-- **Adding the new cameras** is a section. The new slots come behind the old
ones, whose processes are not touched by it. -/
theorem Grown.leads {env : Env} {known : List String} {sup : Supervisor}
    {ds : List (CameraDevice × List AdvertisedFormat)} {slots : List CamSlot}
    (h : Grown env known sup ds sup.slots slots) :
    ∃ added : List Bool, slots.length = sup.slots.length + added.length ∧
      Leads (partOps sup.slots.length { added := added } .append) sup.seen
        { sup with slots := slots }.seen := by
  induction h with
  | base => exact ⟨[], rfl, .nil _⟩
  | @add slots device formats cfg before hd hnew hcfg ih =>
    obtain ⟨added, hlen, hleads⟩ := ih
    refine ⟨added ++ [cfg.enabled], by simp [hlen]; omega, ?_⟩
    rw [partOps_append_concat, ← hlen, Supervisor.seen_append,
      CamSlot.shows_startIfEnabled sup.stop (env.starts slots.length) _ rfl]
    exact hleads.append (.addStarted _ cfg.enabled (env.starts slots.length))

/-! ## Exits and start-up

Two things are left. A child that exits does so in both models at once, and
start-up is a section without a mutex, since there are no other threads
yet. -/

theorem SupervisedProcess.shows_exit (p : SupervisedProcess) (code : UInt32) :
    (p.exit code).shows = p.shows.map (fun _ => false) := by
  obtain ⟨cfg, _ | ⟨pid, _ | code'⟩⟩ := p <;> rfl

namespace Supervisor

variable (sup : Supervisor) (code : UInt32)

theorem seen_publisherExit (i : ℕ) :
    { sup with slots := sup.slots.modify i (fun s => { s with
      proc := s.proc.exit code }) }.seen
      = sup.seen.put (.slot i)
        ((sup.shows (.slot i)).map (fun _ => false)) := by
  cases hs : sup.slots[i]? with
  | none =>
    have hsame : sup.slots.modify i (fun s => { s with
        proc := s.proc.exit code }) = sup.slots :=
      List.modify_eq_self (List.getElem?_eq_none_iff.mp hs)
    have hnone : sup.shows (.slot i) = none := by
      simp [shows, hs]
    rw [hsame, hnone, Option.map_none, ← hnone]
    exact (Seen.put_shows _ _).symm
  | some s =>
    have hset : sup.slots.modify i (fun s => { s with
        proc := s.proc.exit code })
        = sup.slots.set i { s with proc := s.proc.exit code } := by
      rw [List.modify_eq_set_getElem?, hs]
      rfl
    rw [hset, shows_slot hs, ← SupervisedProcess.shows_exit _ code]
    exact seen_setSlot hs { s with proc := s.proc.exit code }

theorem seen_mtxExit :
    { sup with mtx := sup.mtx.exit code }.seen
      = sup.seen.put .mtx ((sup.shows .mtx).map (fun _ => false)) := by
  refine Seen.ext rfl rfl (funext fun r => ?_)
  cases r with
  | mtx => simp [seen, Seen.put, shows, SupervisedProcess.shows_exit]
  | slot i => simp [seen, Seen.put, shows]

theorem seen_beginLoop (phase : Phase) :
    { sup with slots := sup.slots.map CamSlot.noteRunning, phase := phase }.seen
      = sup.seen := by
  refine Seen.ext rfl (by simp [seen]) (funext fun r => ?_)
  cases r with
  | mtx => rfl
  | slot i => cases hs : sup.slots[i]? <;> simp [seen, shows, hs]

end Supervisor

/-- Whether the cameras that start-up found are enabled. -/
def Supervisor.enabledCameras (sup : Supervisor) : List Bool :=
  sup.slots.map (fun s => s.cfg.enabled)

/-- What start-up does to the processes. -/
theorem leads_bootOps {b : Boot} {sup : Supervisor} (h : startUp b = .ok sup) :
    Leads (bootOps sup.enabledCameras) ⟨sup.stop, 0,
      fun _ => none⟩ sup.seen := by
  have hslots : ∀ s ∈ sup.slots, ∃ o : StartOutcome, s.proc.shows
      = if s.cfg.enabled = true ∧ sup.stop = false then o.shown else none :=
    startUp_forall_slots h (fun device formats cfg o =>
      ⟨o, by rw [CamSlot.shows_startIfEnabled _ _ _ rfl,
        CamSlot.cfg_startIfEnabled]⟩)
  have hmtx : sup.mtx.shows = if sup.stop then
    none else b.env.mtxStart.shown := by
    obtain ⟨settings, file, yml, slots, -, -, -, rfl⟩ := startUp_spec h
    exact SupervisedProcess.shows_startNoSleep _ _ _ _
  -- MediaMTX, then the slots, and then the publishers
  let v₁ : Seen :=
    ⟨sup.stop, 0, Function.update (fun _ => none) .mtx sup.mtx.shows⟩
  let v₂ : Seen := { v₁ with length := sup.slots.length }
  have h₁ : Leads [.startNoSleep .mtx] ⟨sup.stop, 0, fun _ => none⟩ v₁ := by
    have hhas : (⟨sup.stop, 0, fun _ => none⟩ : Seen).Has .mtx := trivial
    have hstart := Leads.startNoSleep hhas b.env.mtxStart
    cases hs : sup.stop with
    | true => simpa [v₁, hmtx, hs] using hstart
    | false => simpa [v₁, hmtx, hs, Seen.put] using hstart
  have h₂ : Leads (sup.enabledCameras.map (fun _ => .addSlot)) v₁ v₂ := by
    have hadd :=
      Leads.addSlots sup.enabledCameras (v := v₁) (fun i => by simp [v₁])
    simpa [v₁, v₂, Supervisor.enabledCameras] using hadd
  have hsweep : v₂.sweep (fun i => sup.shows (.slot i)) v₂.length
      = sup.seen := by
    refine Seen.ext rfl rfl (funext fun r => ?_)
    cases r with
    | mtx => simp [Seen.sweep, v₂, v₁, Supervisor.seen, Supervisor.shows]
    | slot i =>
      by_cases hi : i < sup.slots.length
      · simp [Seen.sweep, v₂, v₁, Supervisor.seen, hi]
      · simp [Seen.sweep, v₂, v₁, Supervisor.seen, hi, Supervisor.shows]
  rw [bootOps, flatten_mapIdx_eq_flatMap, ← hsweep]
  have hlen : sup.enabledCameras.length = v₂.length := by
    simp [Supervisor.enabledCameras, v₂]
  rw [hlen]
  refine (h₁.append h₂).append
    (Leads.sweep (fun i hi w hwstop hwlen hwshows => ?_))
  obtain ⟨s, hs⟩ : ∃ s, sup.slots[i]? = some s :=
    ⟨_, List.getElem?_eq_getElem hi⟩
  obtain ⟨o, ho⟩ := hslots s (List.mem_of_getElem? hs)
  have henabled : sup.enabledCameras[i]?.getD false = s.cfg.enabled := by
    simp [Supervisor.enabledCameras, hs]
  have hhas : w.Has (.slot i) := lt_of_lt_of_eq hi hwlen.symm
  have hnone : w.shows (.slot i) = none := hwshows.trans (by simp [v₂, v₁])
  have hwsup : w.stop = sup.stop := hwstop
  rw [henabled, Supervisor.shows_slot hs, ho, ← hwsup]
  exact .startIfEnabled hhas hnone _ _

end WebcamStreamer
