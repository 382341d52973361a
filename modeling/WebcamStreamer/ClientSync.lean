import WebcamStreamer.CameraTable
import WebcamStreamer.SlotNames
import WebcamStreamer.ViewerCount

/-!
# What a connected client sees

A client takes a snapshot when it connects and applies every event from then
on. Whether its table keeps up with the slots depends on the supervisor saying
everything: each branch that changes a slot publishes by hand, and the tick
publishes when the running flag of a slot differs from the one it noted last.

`Tracks` is the invariant that relates the table and the slots. Before the
supervision loop begins nothing has been noted, and the table shows what the
publishers do; from then on it shows the flags of the loop. In the middle of a
reconciliation that found a change the table is behind, until the second locked
section publishes all cameras.

A step keeps the invariant where what it publishes, and what it leaves
unpublished, agrees with the slots it leaves (`Tracks.of_events`,
`Tracks.of_snapshot`). `Reported` is the condition under which a step does so,
and `client_inSync` is the result about runs.
-/

namespace WebcamStreamer

/-! ## What is compared

A client does not show everything that the supervisor keeps, and the process
id and the number of restarts may well be out of date without anybody
noticing. The fields that are compared are those that the program sends when
they change. -/

/-- The fields of a camera that a client follows. -/
structure CameraView where
  enabled : Bool
  present : Bool
  running : Bool
  viewerCount : ℕ
  mode : String
  width : ℤ
  height : ℤ
  fps : ℤ
  deriving DecidableEq

/-- What a row shows. -/
def CameraInfo.view (row : CameraInfo) : CameraView where
  enabled := row.enabled
  present := row.present
  running := row.running
  viewerCount := row.viewerCount
  mode := row.mode
  width := row.width
  height := row.height
  fps := row.fps

/-- What there is to show of a slot, with its running flag taken as given. -/
def CamSlot.view (s : CamSlot) (running : Bool) : CameraView where
  enabled := s.cfg.enabled
  present := s.present
  running := running
  viewerCount := s.viewerCount
  mode := modeName s.cfg.mode
  width := s.cfg.width
  height := s.cfg.height
  fps := s.cfg.fps

/-- The table shows the slots: the same cameras, the same fields, and as running
what the loop has noted as running. -/
def InSync (rows : List CameraInfo) (slots : List CamSlot) : Prop :=
  rows.map (fun row => (row.name, row.view))
    = slots.map (fun s => (s.cfg.friendlyName, s.view s.lastRunning))

instance (rows : List CameraInfo) (slots : List CamSlot) :
    Decidable (InSync rows slots) :=
  inferInstanceAs (Decidable (_ = _))

@[simp] theorem view_ofJson_camJson (sup : Supervisor) (s : CamSlot) :
    (CameraInfo.ofJson (sup.camJson s)).view = s.view s.proc.isRunning := rfl

/-! ## The supervisor with a client

The client is a second machine beside the supervisor, which takes part in
every step: it applies what the step publishes, in the order in which it was
published. That the events arrive in that order is a matter of the pipe, and
another module is about it. -/

/-- The table of a client that connects: the cameras of `get-status`, applied to
an empty table. -/
def connect (sup : Supervisor) : Option (List CameraInfo) :=
  applyCameraList [] sup.allCamsJson

/-- A supervisor and the table of its client; `none` when applying a snapshot
threw. -/
abbrev Watched := Supervisor × Option (List CameraInfo)

/-- A step of the supervisor, and the client applies what it publishes. -/
def watchStep (w : Watched) (st : Step) : Option Watched :=
  (step w.1 st).map (fun out => (out.1,
    w.2.bind (fun rows => applyEvents rows out.2)))

/-! ## The invariant

Whether the loop has noted a publisher as running is a flag of its own, and a
client is told of the flag and not of the publisher. Before the loop begins
there is no such note. The invariant therefore speaks of a reported flag, and
it is suspended between the two locked sections of a reconciliation. -/

/-- What the table is to show as running: the publisher itself until the loop
begins, and what the loop noted from then on. -/
def CamSlot.reported (phase : Phase) (s : CamSlot) : Bool :=
  match phase with
  | .starting => s.proc.isRunning
  | _ => s.lastRunning

/-- A reconciliation has changed a slot and not published it yet. -/
def Phase.untold : Phase → Bool
  | .reconciling _ true => true
  | _ => false

/-- **The invariant.** Table and slots list the same cameras in the same order,
under different names, and a row shows its slot. -/
structure Tracks (sup : Supervisor) (rows : List CameraInfo) : Prop where
  names : rows.map CameraInfo.name = cameraNames sup.slots
  nodup : (cameraNames sup.slots).Nodup
  nonempty : "" ∉ cameraNames sup.slots
  views : sup.phase.untold = false → ∀ (k : ℕ) (row : CameraInfo) (s : CamSlot),
    rows[k]? = some row → sup.slots[k]? = some s →
    row.view = s.view (s.reported sup.phase)

/-- No two cameras share a name, none is nameless, and the flags are up to
date: the state in which a snapshot can be taken. -/
structure CanConnect (sup : Supervisor) : Prop where
  nodup : (cameraNames sup.slots).Nodup
  nonempty : "" ∉ cameraNames sup.slots
  noted : sup.phase.untold = false → ∀ s ∈ sup.slots,
    s.proc.isRunning = s.reported sup.phase

namespace Tracks

variable {sup : Supervisor} {rows : List CameraInfo} {out : Outcome}

/-- The name in a row is the name of its slot. -/
theorem name_eq (h : Tracks sup rows) {k : ℕ} {row : CameraInfo} {s : CamSlot}
    (hrow : rows[k]? = some row) (hs : sup.slots[k]? = some s) :
    row.name = s.cfg.friendlyName := by
  have hname := congrArg (fun l : List String => l[k]?) h.names
  simpa [cameraNames, hrow, hs] using hname

/-- In the loop, the invariant is what a client expects. -/
theorem inSync (h : Tracks sup rows) (hphase : sup.phase = .looping) :
    InSync rows sup.slots := by
  have hlen : rows.length = sup.slots.length := by
    simpa using congrArg List.length h.names
  refine List.ext_getElem? (fun k => ?_)
  rw [List.getElem?_map, List.getElem?_map]
  cases hs : sup.slots[k]? with
  | none =>
    rw [List.getElem?_eq_none (hlen ▸ List.getElem?_eq_none_iff.mp hs)]
    rfl
  | some s =>
    have hlt : k < rows.length := hlen ▸ (List.getElem?_eq_some_iff.mp hs).1
    have hrow : rows[k]? = some rows[k] := List.getElem?_eq_getElem hlt
    have hview := h.views (by rw [hphase]; rfl) k _ s hrow hs
    rw [hphase] at hview
    rw [hrow, Option.map_some, Option.map_some, h.name_eq hrow hs, hview]
    rfl

/-- **The rule for steps that publish single cameras.** A camera that is
published is published as it is left, and one that is not looks as before. -/
theorem of_events (h : Tracks sup rows)
    (hnames : cameraNames out.1.slots = cameraNames sup.slots)
    (hno : ∀ cams, Event.camerasChanged cams ∉ out.2)
    (hphase : out.1.phase.untold = false → sup.phase.untold = false)
    (htold : out.1.phase.untold = false → ∀ cam,
      Event.cameraStateChanged cam ∈ out.2 →
      ∀ (k : ℕ) (s' : CamSlot), out.1.slots[k]? = some s' →
        cam.name = s'.cfg.friendlyName →
        (CameraInfo.ofJson cam).view = s'.view (s'.reported out.1.phase))
    (hsilent : out.1.phase.untold = false → ∀ (k : ℕ) (s s' : CamSlot),
      sup.slots[k]? = some s → out.1.slots[k]? = some s' →
      (∀ cam, Event.cameraStateChanged cam ∈ out.2 →
        cam.name ≠ s'.cfg.friendlyName) →
        s'.view (s'.reported out.1.phase) = s.view (s.reported sup.phase)) :
    ∃ rows', applyEvents rows out.2 = some rows' ∧ Tracks out.1 rows' := by
  obtain ⟨rows', hrows', hnames', hget⟩ :=
    applyEvents_spec (h.names ▸ h.nodup) (h.names ▸ h.nonempty) hno
  have hnames'' : rows'.map CameraInfo.name = cameraNames out.1.slots :=
    (hnames'.trans h.names).trans hnames.symm
  refine ⟨rows', hrows', hnames'', hnames ▸ h.nodup, hnames ▸ h.nonempty, ?_⟩
  intro huntold k row' s' hrow' hs'
  have hlen : rows'.length = rows.length := by
    simpa using congrArg List.length hnames'
  have hlt : k < rows.length := hlen ▸ (List.getElem?_eq_some_iff.mp hrow').1
  have hslots : sup.slots.length = out.1.slots.length := by
    simpa using congrArg List.length hnames.symm
  have hlts : k < sup.slots.length :=
    hslots ▸ (List.getElem?_eq_some_iff.mp hs').1
  have hrow := List.getElem?_eq_getElem hlt
  have hs := List.getElem?_eq_getElem hlts
  have hname : sup.slots[k].cfg.friendlyName = s'.cfg.friendlyName := by
    have := congrArg (fun l : List String => l[k]?) hnames
    simpa [cameraNames, hs, hs'] using this.symm
  have hrowname := (h.name_eq hrow hs).trans hname
  obtain ⟨row'', hrow'', hcase⟩ := hget k _ hrow
  obtain rfl := Option.some.inj (hrow'.symm.trans hrow'')
  rcases hcase with ⟨cam, hcam, hcamname, rfl⟩ | ⟨rfl, hnone⟩
  · exact htold huntold cam hcam k s' hs' (hcamname.trans hrowname)
  · rw [h.views (hphase huntold) k _ _ hrow hs]
    refine (hsilent huntold k _ _ hs hs' (fun cam hcam => ?_)).symm
    rw [← hrowname]
    exact hnone cam hcam

/-- **The rule for steps that publish all cameras.** The table becomes what the
snapshot says, and the snapshot says what the publishers do. -/
theorem of_snapshot (hinit : rows.map CameraInfo.name <+: cameraNames sup.slots)
    (hcan : CanConnect sup) :
    ∃ rows', applyCameraList rows sup.allCamsJson = some rows' ∧
      Tracks sup rows' := by
  have hcams : sup.allCamsJson.map CamJson.name = cameraNames sup.slots := by
    simp [Supervisor.allCamsJson, Supervisor.camJson, camToJson, cameraNames]
  refine ⟨sup.allCamsJson.map CameraInfo.ofJson, ?_, ?_, hcan.nodup,
    hcan.nonempty, ?_⟩
  · exact applyCameraList_eq_map (hcams ▸ hinit) (hcams ▸ hcan.nodup)
      (hcams ▸ hcan.nonempty)
  · rw [List.map_map, ← hcams]
    exact List.map_congr_left (fun _ _ => rfl)
  · intro huntold k row s hrow hs
    have hview : row = CameraInfo.ofJson (sup.camJson s) := by
      simpa [Supervisor.allCamsJson, hs] using hrow.symm
    rw [hview, view_ofJson_camJson,
      hcan.noted huntold s (List.mem_of_getElem? hs)]

end Tracks

/-! ## When a step says everything

The conditions of this section are about a state and a step before it is
taken. They leave out what the program really does not say, such as a tick
that resets the viewers of a publisher which it restarts at once. -/

/-- Whether the tick gets the publisher, which it found down, running again. -/
def CamSlot.comesBack (stop : Bool) (now : Time) (o : StartOutcome)
    (s : CamSlot) : Bool :=
  !stop && decide (s.backoff.earliestNext ≤ now) && o.created.isSome

/-- What the tick has to find in a slot. Where it resets the viewers of a
publisher that is down, the running flag changes as well; and the publisher of
a camera that should not publish is not running when the flag is cleared. -/
def CamSlot.TickTells (stop : Bool) (now : Time) (o : StartOutcome)
    (s : CamSlot) : Prop :=
  if s.wanted then
    s.proc.isRunning = false → s.viewerCount ≠ 0 →
      s.comesBack stop now o ≠ s.lastRunning
  else s.lastRunning = true ∨ s.viewerCount ≠ 0 → s.proc.isRunning = false

/-- The running flag of every slot is what its publisher does. -/
def Supervisor.Noted (sup : Supervisor) : Prop :=
  ∀ s ∈ sup.slots, s.proc.isRunning = s.reported sup.phase

/-- What a reconciliation has to find when it publishes. The names of the new
cameras are different and not empty, every flag is up to date, and no camera
that is added publishes already: the loop has not noted it yet. -/
structure FinishTells (env : Env) (sup : Supervisor)
    (newDevices : List CameraDevice)
    (newFormats : ℕ → List AdvertisedFormat) : Prop where
  names : ((newDevices.map CameraDevice.friendlyName).filter
    (fun nm => decide (nm ∉ cameraNames sup.slots))).Nodup
  nonempty : ∀ d ∈ newDevices, d.friendlyName ≠ ""
  noted : sup.Noted
  added : ∀ (j i : ℕ) (d : CameraDevice) (path : String) (cfg : CameraConfig),
    newDevices[j]? = some d → d.friendlyName ∉ cameraNames sup.slots →
    resolveCameraConfig (env.overrideOps i) sup.disk sup.knownDb
      sup.settings.defaultEnabledForNewCameras d (newFormats j)
      { friendlyName := d.friendlyName, rtspPath := path } = .ok cfg →
    cfg.enabled = true → sup.stop = true ∨ (env.starts i).created = none

/-- The request publishes all cameras. -/
structure Broadcasts (env : Env) (rq : IpcRequest) : Prop where
  method : rq.method = "set-viewer-credentials"
  user : ∃ user, rq.params.valueString "user" = .ok user ∧ user ≠ ""
  pass : ∃ pass, rq.params.valueString "pass" = .ok pass ∧ pass ≠ ""
  done : ¬ CredentialsFail env

/-- The request changes the mode of the slot `s` at position `i`, in memory, to
`upd`. -/
structure ChangesMode (sup : Supervisor) (rq : IpcRequest)
    (upd : CameraOverride) (i : ℕ)
    (s : CamSlot) : Prop where
  method : rq.method = "set-mode"
  params : ∃ nm mode, setModeParams rq.params = .ok (nm, mode, upd) ∧ nm ≠ "" ∧
    mode ≠ .unknown ∧ sup.findByName nm = some (i, s)

/-- **The condition under which a step says everything it changes.** Each part
belongs to a place where the supervisor changes what `list-cameras` would show
without an event, or tells one thing and does another. -/
def Reported (sup : Supervisor) (st : Step) : Prop :=
  match st.action with
  | .request rq =>
    -- an exception leaves the configuration in memory as it was, and nobody is
    -- told of an exit that the loop has not noted
    (∀ upd i s, ChangesMode sup rq upd i s →
      (st.env.overrideOps i).existsThrows = none ∨ s.cfg.update upd = s.cfg) ∧
      (Broadcasts st.env rq → sup.phase.untold = false → sup.Noted)
  | .hook msg =>
    ∀ event path ip user i s, hookFields msg = .ok (event, path, ip, user) →
      (HookEvent.ofString event).isSome = true →
      sup.findByPath path = some (i, s) →
        sup.phase.untold = false → s.proc.isRunning = s.reported sup.phase
  | .publisherExit i code =>
    sup.phase = .starting → ∀ s, sup.slots[i]? = some s →
      s.proc.alive = false ∨ code = 259
  | .tick =>
    ∀ (i : ℕ) (s : CamSlot), sup.slots[i]? = some s →
      s.TickTells sup.stop st.env.now (st.env.starts i)
  | .finishReconcile newFormats =>
    ∀ newDevices listChanged, sup.phase = .reconciling newDevices listChanged →
      (listChanged = true ∨ ∃ d ∈ newDevices,
        d.friendlyName ∉ cameraNames sup.slots) →
        FinishTells st.env sup newDevices newFormats
  | _ => True

/-! ## What a step publishes

One lemma for each way in which a step can touch the slots, and each is an
instance of one of two rules: either single cameras are published as they are
left, or all of them are, and the table starts afresh. -/

section Steps

variable {sup : Supervisor} {rows : List CameraInfo} {st : Step}

/-- Two slots at different positions have different names. -/
theorem Tracks.pos_eq (h : Tracks sup rows) {i k : ℕ} {s x : CamSlot}
    (hs : sup.slots[i]? = some s) (hx : sup.slots[k]? = some x)
    (hname : s.cfg.friendlyName = x.cfg.friendlyName) : i = k := by
  have hlt : i < (cameraNames sup.slots).length := by
    simpa using (List.getElem?_eq_some_iff.mp hs).1
  refine (List.getElem?_inj hlt h.nodup).mp ?_
  rw [List.getElem?_map, List.getElem?_map, hs, hx, Option.map_some,
    Option.map_some, hname]

/-- A step that leaves the slots and the phase alone, and says nothing about a
camera. -/
theorem Tracks.of_same (h : Tracks sup rows) {out : Outcome}
    (hslots : out.1.slots = sup.slots) (hphase : out.1.phase = sup.phase)
    (hlist : ∀ cams, Event.camerasChanged cams ∉ out.2)
    (hone : ∀ cam, Event.cameraStateChanged cam ∉ out.2) :
    ∃ rows', applyEvents rows out.2 = some rows' ∧ Tracks out.1 rows' := by
  refine h.of_events (by rw [hslots]) hlist (by rw [hphase]; exact id) ?_ ?_
  · exact fun _ cam hcam => absurd hcam (hone cam)
  · intro _ k s s' hs hs' _
    rw [hslots, hs] at hs'
    rw [hphase, Option.some.inj hs']

/-- A step that replaces one slot and publishes it. -/
theorem Tracks.of_set (h : Tracks sup rows) {i : ℕ} {s s' : CamSlot}
    (hs : sup.slots[i]? = some s)
    (hname : s'.cfg.friendlyName = s.cfg.friendlyName)
    {sup' : Supervisor} (hslots : sup'.slots = sup.slots.set i s')
    (hphase : sup'.phase = sup.phase) {told : CamSlot} {before : List Event}
    (hbefore : ∀ e ∈ before, ∃ name payload, e = .viewer name payload)
    (htoldname : told.cfg.friendlyName = s.cfg.friendlyName)
    (htold : sup.phase.untold = false → told.view told.proc.isRunning
      = s'.view (s'.reported sup.phase)) :
    ∃ rows', applyEvents rows
        (before ++ [.cameraStateChanged (sup.camJson told)]) = some rows' ∧
      Tracks sup' rows' := by
  have hlt := (List.getElem?_eq_some_iff.mp hs).1
  -- a slot behind the step is the one that was changed, or one of the others
  have hget : ∀ (k : ℕ) (x : CamSlot), sup'.slots[k]? = some x →
      (k = i ∧ x = s') ∨ (k ≠ i ∧ sup.slots[k]? = some x) := by
    intro k x hx
    rw [hslots] at hx
    exact eq_or_of_getElem?_set hs hx
  have hmem : ∀ cam, Event.cameraStateChanged cam
      ∈ before ++ [.cameraStateChanged (sup.camJson told)] ↔
      cam = sup.camJson told := by
    intro cam
    rw [List.mem_append, List.mem_singleton]
    constructor
    · rintro (hcam | hcam)
      · obtain ⟨name, payload, heq⟩ := hbefore _ hcam
        cases heq
      · exact Event.cameraStateChanged.inj hcam
    · exact fun hcam => .inr (congrArg _ hcam)
  refine @of_events _ _ (sup', _) h ?_ ?_ ?_ ?_ ?_
  · show cameraNames sup'.slots = cameraNames sup.slots
    rw [hslots, cameraNames, List.map_set, hname]
    refine List.ext_getElem? (fun k => ?_)
    by_cases hik : i = k
    · subst hik
      rw [List.getElem?_set_self (by simpa using hlt), List.getElem?_map, hs]
      rfl
    · rw [List.getElem?_set_ne hik]
  · intro cams hcams
    rcases List.mem_append.mp hcams with hcams | hcams
    · obtain ⟨name, payload, heq⟩ := hbefore _ hcams
      cases heq
    · simp at hcams
  · show sup'.phase.untold = false → _
    rw [hphase]
    exact id
  -- what was told is the slot at the position, as no other slot has its name
  · intro huntold cam hcam k x hx hcamname
    dsimp only at huntold hx ⊢
    rw [hphase] at huntold ⊢
    obtain rfl := (hmem cam).mp hcam
    rw [view_ofJson_camJson]
    rcases hget k x hx with ⟨rfl, rfl⟩ | ⟨hne, hx'⟩
    · exact htold huntold
    · exact absurd (h.pos_eq hs hx' (htoldname.symm.trans hcamname))
        (Ne.symm hne)
  · intro huntold k x x' hx hx' hnone
    dsimp only at hx' ⊢
    rw [hphase]
    rcases hget k x' hx' with ⟨rfl, rfl⟩ | ⟨hne, hx''⟩
    · exact absurd (htoldname.trans hname.symm) (hnone _ ((hmem _).mpr rfl))
    · rw [Option.some.inj (hx.symm.trans hx'')]

/-- What the tick publishes about cameras: those whose flag it changed, as it
leaves them. -/
theorem mem_events_tick {env : Env} {cam : CamJson} :
    Event.cameraStateChanged cam ∈ (sup.tick env).2 ↔
      ∃ k s, sup.slots[k]? = some s ∧ (sup.tickSlot env k s).2 = true ∧
        cam = sup.camJson (sup.tickSlot env k s).1 := by
  have hmtx : Event.cameraStateChanged cam ∉ (sup.tickMtx env).2 :=
    fun hmem => by
    obtain ⟨running, heq⟩ := Supervisor.eq_of_mem_tickMtx hmem
    cases heq
  rw [Supervisor.tick, List.mem_append, or_iff_right hmtx, List.mem_map]
  constructor
  · rintro ⟨r, hr, heq⟩
    obtain ⟨hmem, htold⟩ := List.mem_filter.mp hr
    obtain ⟨k, hk⟩ := List.mem_iff_getElem?.mp hmem
    rw [List.getElem?_mapIdx] at hk
    obtain ⟨s, hs, rfl⟩ := Option.map_eq_some_iff.mp hk
    exact ⟨k, s, hs, htold, (Event.cameraStateChanged.inj heq).symm⟩
  · rintro ⟨k, s, hs, htold, rfl⟩
    refine ⟨sup.tickSlot env k s, List.mem_filter.mpr ⟨?_, htold⟩, rfl⟩
    refine List.mem_iff_getElem?.mpr ⟨k, ?_⟩
    rw [List.getElem?_mapIdx, hs]
    rfl

theorem camerasChanged_notMem_tick (env : Env) (cams : List CamJson) :
    Event.camerasChanged cams ∉ (sup.tick env).2 := by
  have hmtx : Event.camerasChanged cams ∉ (sup.tickMtx env).2 := fun hmem => by
    obtain ⟨running, heq⟩ := Supervisor.eq_of_mem_tickMtx hmem
    cases heq
  rw [Supervisor.tick, List.mem_append, or_iff_right hmtx]
  simp

/-- What the tick makes of a slot whose publisher it found down, before it looks
at the flag. -/
theorem CamSlot.down_spec {stop : Bool} {now : Time} {o : StartOutcome}
    {s t : CamSlot}
    (hr : s.proc.isRunning = false)
    (ht : (if s.backoff.earliestNext ≤ now
      then { s with viewerCount := 0 }.stopProc.start stop o
      else { s with viewerCount := 0 }) = t) :
    t.proc.isRunning = s.comesBack stop now o ∧
      t.view t.lastRunning = { s with
        viewerCount := 0 }.view s.lastRunning := by
  unfold CamSlot.comesBack
  subst ht
  split
  next h =>
    refine ⟨?_, rfl⟩
    cases stop with
    | true => simp [CamSlot.start_of_stop, CamSlot.stopProc]
    | false =>
      rw [decide_eq_true h]
      exact SupervisedProcess.isRunning_start _ _
  next h => exact ⟨by simp [h, hr], rfl⟩

/-- **What the tick tells of a slot.** A slot that is published has an up to
date flag, and one that is not looks as before. -/
theorem CamSlot.TickTells.tick {stop : Bool} {now : Time} {o : StartOutcome}
    {s : CamSlot}
    (h : s.TickTells stop now o) :
    ((s.tick stop now o).2 = true →
        (s.tick stop now o).1.proc.isRunning
          = (s.tick stop now o).1.lastRunning) ∧
      ((s.tick stop now o).2 = false →
        (s.tick stop now o).1.view (s.tick stop now o).1.lastRunning
          = s.view s.lastRunning) := by
  unfold CamSlot.TickTells at h
  cases hw : s.wanted with
  | false =>
    rw [hw] at h
    rw [CamSlot.tick_of_unwanted _ _ _ hw]
    split
    next hflag => exact ⟨fun _ => h hflag, Bool.noConfusion⟩
    next => exact ⟨Bool.noConfusion, fun _ => rfl⟩
  | true =>
    rw [hw, if_pos rfl] at h
    cases hr : s.proc.isRunning with
    | true =>
      rw [CamSlot.tick_of_running _ _ _ hw hr]
      split
      next => exact ⟨Bool.noConfusion, fun _ => rfl⟩
      next => exact ⟨fun _ => rfl, Bool.noConfusion⟩
    | false =>
      rw [CamSlot.tick_of_down _ _ _ hw hr]
      generalize ht : (if s.backoff.earliestNext ≤ now
        then { s with viewerCount := 0 }.stopProc.start stop o
        else { s with viewerCount := 0 }) = t
      obtain ⟨hback, hview⟩ := CamSlot.down_spec hr ht
      dsimp only
      split
      next hsame =>
        -- nothing is published, so there were no viewers to reset
        have hcount : s.viewerCount = 0 := by
          by_contra hne
          exact h hr hne (hback.symm.trans hsame)
        refine ⟨Bool.noConfusion, fun _ => hview.trans ?_⟩
        rw [← hcount]
      next => exact ⟨fun _ => rfl, Bool.noConfusion⟩

/-- The tick keeps the table up to date. -/
theorem Tracks.tick (h : Tracks sup rows) {env : Env}
    (hphase : sup.phase = .looping)
    (hok : ∀ (i : ℕ) (s : CamSlot), sup.slots[i]? = some s →
      s.TickTells sup.stop env.now (env.starts i)) :
    ∃ rows', applyEvents rows (sup.tick env).2 = some rows' ∧
      Tracks (sup.tick env).1 rows' := by
  have hphase' : (sup.tick env).1.phase = .looping :=
    (sup.phase_tick env).trans hphase
  have hget : ∀ (k : ℕ) (s : CamSlot), sup.slots[k]? = some s →
      (sup.tick env).1.slots[k]? = some (sup.tickSlot env k s).1 := by
    intro k s hs
    rw [Supervisor.slots_tick, List.getElem?_mapIdx, hs]
    rfl
  have hstep : step sup ⟨env, .tick⟩ = some (sup.tick env) := by
    simp only [step, hphase]
  have hname : ∀ (k : ℕ) (s : CamSlot),
      (sup.tickSlot env k s).1.cfg.friendlyName = s.cfg.friendlyName :=
    fun k s =>
    congrArg CameraConfig.friendlyName (CamSlot.cfg_tick _ _ s _)
  refine h.of_events (step_names hstep (by simp))
    (camerasChanged_notMem_tick env) ?_ ?_ ?_
  · rw [hphase, hphase']
    exact id
  -- an event is of a slot that the tick has told of, and names tell the slots
  -- apart
  · intro _ cam hcam k x hx hcamname
    obtain ⟨j, s, hs, htold, rfl⟩ := mem_events_tick.mp hcam
    have hlt : k < sup.slots.length := by
      simpa using (List.getElem?_eq_some_iff.mp hx).1
    have hxs := List.getElem?_eq_getElem hlt
    obtain rfl := Option.some.inj ((hget k _ hxs).symm.trans hx)
    obtain rfl : j = k :=
      h.pos_eq hs hxs (((hname j s).symm.trans hcamname).trans (hname k _))
    obtain rfl := Option.some.inj (hs.symm.trans hxs)
    rw [view_ofJson_camJson, hphase']
    exact congrArg _ ((hok _ _ hs).tick.1 htold)
  -- a slot without an event is one the tick had nothing to tell of
  · intro _ k s x hs hx hnone
    obtain rfl := Option.some.inj ((hget k s hs).symm.trans hx)
    have hnot : (sup.tickSlot env k s).2 = false := by
      by_contra htold
      exact hnone _ (mem_events_tick.mpr ⟨k, s, hs,
        by simpa using htold, rfl⟩) rfl
    rw [hphase, hphase']
    exact (hok _ _ hs).tick.2 hnot

/-- A request that changes one slot and publishes it. -/
theorem Tracks.slotChanged (h : Tracks sup rows) {sup₁ : Supervisor} {i : ℕ}
    {s s' : CamSlot}
    {result : IpcResult} (hs : sup.slots[i]? = some s)
    (hname : s'.cfg.friendlyName = s.cfg.friendlyName)
    (hslots : sup₁.slots = sup.slots)
    (hphase : sup₁.phase = sup.phase)
    (hcam : sup₁.camJson s' = sup.camJson s') :
    ∃ rows', applyEvents rows (Served.slotChanged sup₁ i s' result).events
        = some rows' ∧
      Tracks (Served.slotChanged sup₁ i s' result).sup rows' := by
  have hset : (sup₁.setSlot i s'.noteRunning).slots
      = sup.slots.set i s'.noteRunning :=
    congrArg (fun slots => slots.set i s'.noteRunning) hslots
  have htold : sup.phase.untold = false →
      s'.view s'.proc.isRunning
      = s'.noteRunning.view (s'.noteRunning.reported sup.phase) := by
    intro _
    cases sup.phase <;> rfl
  have hof :=
    @Tracks.of_set _ _ h _ _ s'.noteRunning hs hname _ hset hphase _ []
    (fun e he => absurd he List.not_mem_nil) hname htold
  rwa [List.nil_append, ← hcam] at hof

/-- The first locked section of a reconciliation. Where it changes something,
the table is behind from here on. -/
theorem Tracks.diffPresence (h : Tracks sup rows) {env : Env}
    {current : List CameraDevice}
    (hphase : sup.phase = .looping) :
    Tracks (sup.diffPresence env current) rows := by
  have hstep : step sup ⟨env, .diffPresence current⟩
      = some (sup.diffPresence env current, []) := by
    simp only [step, hphase]
  have hnames := step_names hstep (by simp)
  refine ⟨h.names.trans hnames.symm, hnames ▸ h.nodup, hnames ▸ h.nonempty, ?_⟩
  intro huntold k row x hrow hx
  have hsame : ∀ (j : ℕ) (s : CamSlot), sup.slots[j]? = some s →
      (sup.diffSlot env current j s).2 = false := by
    intro j s hs
    by_contra hne
    have hany : (sup.slots.mapIdx (sup.diffSlot env current)).any Prod.snd
        = true := by
      refine List.any_eq_true.mpr ⟨sup.diffSlot env current j s, ?_,
        by simpa using hne⟩
      refine List.mem_iff_getElem?.mpr ⟨j, ?_⟩
      rw [List.getElem?_mapIdx, hs]
      rfl
    simp [Supervisor.diffPresence, hany, Phase.untold] at huntold
  rw [Supervisor.slots_diffPresence, List.getElem?_mapIdx] at hx
  obtain ⟨s, hs, rfl⟩ := Option.map_eq_some_iff.mp hx
  have hkept : (sup.diffSlot env current k s).1 = s := by
    have hflag := hsame k s hs
    rw [Supervisor.diffSlot] at hflag ⊢
    rcases s.diffPresence_cases sup.ffExe sup.stop (env.starts k) _ with
      ⟨-, hd⟩ | ⟨-, -, hd⟩ | ⟨-, -, hd⟩
    · rw [hd]
    · rw [hd] at hflag
      cases hflag
    · rw [hd] at hflag
      cases hflag
  rw [hkept, h.views (by rw [hphase]; rfl) k row s hrow hs, hphase]
  rfl

/-- A slot that is added is not running where it is disabled or cannot be
started. -/
theorem notRunning_added {ffExe : String} {d : CameraDevice}
    {formats : List AdvertisedFormat}
    {cfg : CameraConfig} {stop : Bool} {o : StartOutcome}
    (h : cfg.enabled = true → stop = true ∨ o.created = none) :
    ((newSlot ffExe d formats cfg).startIfEnabled stop o).proc.isRunning
      = ((newSlot ffExe d formats cfg).startIfEnabled stop o).lastRunning := by
  rw [CamSlot.startIfEnabled]
  split
  next henabled =>
    rcases h henabled with rfl | hnone
    · rfl
    · cases stop with
      | true => rfl
      | false =>
        show ((newSlot ffExe d formats cfg).proc.start o.created).isRunning
          = false
        rw [SupervisedProcess.isRunning_start, hnone]
        rfl
  next => rfl

/-- Where a reconciliation that publishes finds what it has to find, a snapshot
can be taken of what it leaves. -/
theorem FinishTells.canConnect {env : Env}
    {newFormats : ℕ → List AdvertisedFormat}
    {newDevices : List CameraDevice} {listChanged : Bool} {slots : List CamSlot}
    (hok : FinishTells env sup newDevices newFormats) (h : Tracks sup rows)
    (hphase : sup.phase = .reconciling newDevices listChanged)
    (hgrown : Grown env (cameraNames sup.slots) sup
      (newDevices.mapIdx (fun j d => (d, newFormats j))) sup.slots slots)
    (hnames : cameraNames slots = cameraNames sup.slots
      ++ (newDevices.map CameraDevice.friendlyName).filter
        (fun nm => decide (nm ∉ cameraNames sup.slots))) :
    CanConnect { sup with slots := slots, phase := .looping } := by
  refine ⟨?_, ?_, fun _ => ?_⟩
  · show (cameraNames slots).Nodup
    rw [hnames]
    refine List.nodup_append.mpr ⟨h.nodup, hok.names, fun a ha b hb hab => ?_⟩
    exact of_decide_eq_true (List.mem_filter.mp hb).2 (hab ▸ ha)
  · show "" ∉ cameraNames slots
    rw [hnames, List.mem_append, not_or]
    refine ⟨h.nonempty, fun hmem => ?_⟩
    obtain ⟨d, hd, hempty⟩ := List.mem_map.mp (List.mem_filter.mp hmem).1
    exact hok.nonempty d hd hempty
  · show ∀ s ∈ slots, s.proc.isRunning = s.lastRunning
    have hold : ∀ s ∈ sup.slots, s.proc.isRunning = s.lastRunning :=
      fun s hs => by
      have hnoted := hok.noted s hs
      rwa [hphase] at hnoted
    refine hgrown.forall_mem hold (fun i d formats path cfg hd hnew hcfg => ?_)
    obtain ⟨j, hd', rfl⟩ := Grown.device_of_mem hd
    exact notRunning_added (hok.added j i d path cfg hd' hnew hcfg)

/-- The second locked section of a reconciliation. -/
theorem Tracks.reconciled (h : Tracks sup rows) {env : Env}
    {newFormats : ℕ → List AdvertisedFormat} {newDevices : List CameraDevice}
    {listChanged : Bool} {slots : List CamSlot} {events : List Event}
    (hphase : sup.phase = .reconciling newDevices listChanged)
    (hgrown : Grown env (cameraNames sup.slots) sup
      (newDevices.mapIdx (fun j d => (d, newFormats j))) sup.slots slots)
    (hnames : cameraNames slots = cameraNames sup.slots
      ++ (newDevices.map CameraDevice.friendlyName).filter
        (fun nm => decide (nm ∉ cameraNames sup.slots)))
    (hevents : events = if (listChanged || newDevices.any
        (fun d => decide (d.friendlyName ∉ cameraNames sup.slots))) = true
      then [.camerasChanged { sup with slots := slots }.allCamsJson] else [])
    (hok : (listChanged = true ∨ ∃ d ∈ newDevices,
      d.friendlyName ∉ cameraNames sup.slots) →
      FinishTells env sup newDevices newFormats) :
    ∃ rows', applyEvents rows events = some rows' ∧
      Tracks { sup with slots := slots, phase := .looping } rows' := by
  subst hevents
  split
  next htells =>
    have hcan := (hok (by simpa using htells)).canConnect h hphase hgrown hnames
    have hinit : rows.map CameraInfo.name <+: cameraNames slots := by
      rw [h.names, hnames]
      exact List.prefix_append _ _
    obtain ⟨rows', hrows', htracks⟩ := Tracks.of_snapshot hinit hcan
    refine ⟨rows', ?_, htracks⟩
    rw [applyEvents_cons]
    exact (congrArg (fun t => Option.bind t (fun rows' => applyEvents rows' []))
      hrows').trans rfl
  next htells =>
    obtain ⟨hlist, hknown⟩ : listChanged = false ∧
        ∀ d ∈ newDevices, d.friendlyName ∈ cameraNames sup.slots := by
      simpa using htells
    -- every device had a slot already, so that none was added
    have hnonew : (newDevices.map CameraDevice.friendlyName).filter
        (fun nm => decide (nm ∉ cameraNames sup.slots)) = [] := by
      refine List.filter_eq_nil_iff.mpr (fun nm hnm => ?_)
      obtain ⟨d, hd, rfl⟩ := List.mem_map.mp hnm
      simpa using hknown d hd
    obtain ⟨added, rfl⟩ := hgrown.append
    rw [hnonew] at hnames
    have hadded : added = [] := by simpa [cameraNames] using hnames
    subst hadded
    refine ⟨rows, rfl, ?_, ?_, ?_, ?_⟩
    · show rows.map CameraInfo.name = cameraNames (sup.slots ++ [])
      rw [List.append_nil, h.names]
    · show (cameraNames (sup.slots ++ [])).Nodup
      rw [List.append_nil]
      exact h.nodup
    · show "" ∉ cameraNames (sup.slots ++ [])
      rw [List.append_nil]
      exact h.nonempty
    · intro _ k row s hrow hs
      dsimp only at hs
      rw [List.append_nil] at hs
      rw [h.views (by rw [hphase, hlist]; rfl) k row s hrow hs, hphase]
      rfl

/-- A request keeps the table up to date. -/
theorem Tracks.served (h : Tracks sup rows) {rq : IpcRequest} {served : Served}
    (ha : st.action = .request rq) (hserved : Serves st.env sup rq served)
    (hok : Reported sup st) :
    ∃ rows', applyEvents rows served.events = some rows' ∧
      Tracks served.sup rows' := by
  unfold Reported at hok
  rw [ha] at hok
  dsimp only at hok
  cases hserved with
  | unchanged events response hev _ =>
    refine @Tracks.of_same _ _ h (sup,
      events) rfl rfl (fun cams hmem => ?_) (fun cam hmem => ?_)
    all_goals
      obtain ⟨camera, heq⟩ := hev _ hmem
      cases heq
  | restarted hm hp hne hs =>
    exact h.slotChanged (Supervisor.findByName_some hs).1 rfl rfl rfl rfl
  | modeSet hm hp hne hmode hs hsave =>
    exact h.slotChanged (Supervisor.findByName_some hs).1 rfl rfl rfl rfl
  | enabledSet hm hp hne hwant hs hsave =>
    refine h.slotChanged (Supervisor.findByName_some hs).1 ?_ rfl rfl rfl
    rw [CamSlot.cfg_enable]
  -- nothing is told of a change in memory, so that there may be none
  | @modeThrown nm what parsed upd i s hm hp hne hmode hs hops =>
    rcases hok.1 upd i s ⟨hm, nm, parsed, hp, hne, hmode, hs⟩ with hnone | hsame
    · rw [hops] at hnone
      cases hnone
    · have hslots : (sup.setSlot i { s with cfg := s.cfg.update upd }).slots
          = sup.slots := by
        rw [Supervisor.slots_setSlot]
        exact (Supervisor.set_eq_self_iff (Supervisor.findByName_some hs).1).mpr
          (by rw [hsame])
      exact @Tracks.of_same _ _ h (sup.setSlot i { s with
        cfg := s.cfg.update upd }, [])
        hslots rfl (by simp) (by simp)
  -- new credentials are told as a snapshot of all cameras
  | @credentialsSet user pass file yml t hm hu hu0 hp hp0 hsave hyml ht =>
    have hall : Broadcasts st.env rq :=
      ⟨hm, ⟨user, hu, hu0⟩, ⟨pass, hp, hp0⟩, not_credentialsFail hsave hyml⟩
    have hslots : t.slots = sup.slots := ht ▸ rfl
    have hphase : t.phase = sup.phase := ht ▸ rfl
    have hcan : CanConnect t := by
      refine ⟨hslots ▸ h.nodup, hslots ▸ h.nonempty, fun huntold s hs => ?_⟩
      rw [hphase] at huntold ⊢
      exact hok.2 hall huntold s (hslots ▸ hs)
    have hinit : rows.map CameraInfo.name <+: cameraNames t.slots := by
      rw [h.names, hslots]
    obtain ⟨rows', hrows', htracks⟩ := Tracks.of_snapshot hinit hcan
    refine ⟨rows', ?_, htracks⟩
    show (applyCameraList rows t.allCamsJson).bind
      (fun rows'' => applyEvents rows'' []) = _
    rw [hrows']
    rfl
  | settingsReloaded | shutdown | credentialsUnsaved | credentialsUnwritten =>
    exact ⟨rows, rfl, h.names, h.nodup, h.nonempty, h.views⟩

/-- The exit of a publisher concerns the table only before the loop begins. -/
theorem Tracks.publisherExit (h : Tracks sup rows) {i : ℕ} {code : UInt32}
    (hok : sup.phase = .starting → ∀ s, sup.slots[i]? = some s →
      s.proc.alive = false ∨ code = 259) :
    Tracks { sup with
      slots :=
        sup.slots.modify i (fun s => { s with
          proc := s.proc.exit code }) } rows := by
  have hnames : cameraNames (sup.slots.modify i (fun s => { s with
      proc := s.proc.exit code }))
      = cameraNames sup.slots :=
    @step_names sup { action := .publisherExit i code } _ rfl (by simp)
  refine ⟨h.names.trans hnames.symm, hnames ▸ h.nodup, hnames ▸ h.nonempty, ?_⟩
  intro huntold k row x hrow hx
  dsimp only at huntold hx ⊢
  rw [List.getElem?_modify] at hx
  obtain ⟨s, hs, rfl⟩ := Option.map_eq_some_iff.mp hx
  rw [h.views huntold k row s hrow hs]
  by_cases hik : i = k
  · subst hik
    rw [if_pos rfl]
    cases hphase : sup.phase with
    | starting =>
      show s.view s.proc.isRunning = s.view (s.proc.exit code).isRunning
      rw [SupervisedProcess.isRunning_exit (hok hphase s hs)]
    | looping => rfl
    | reconciling newDevices listChanged => rfl
  · rw [if_neg hik]

/-- **One step keeps the table up to date, where it says everything.** The
events of the step are applied to the rows in their order, and the rows are
then again what a fresh listing would show. -/
theorem Tracks.step (h : Tracks sup rows) {out : Outcome}
    (hstep : step sup st = some out)
    (hok : Reported sup st) :
    ∃ rows', applyEvents rows out.2 = some rows' ∧ Tracks out.1 rows' := by
  cases stepsTo_of_step hstep with
  | served ha heq hserved => exact h.served ha hserved hok
  | hookIgnored ha hev =>
    refine h.of_same rfl rfl (fun cams hmem => ?_) (fun cam hmem => ?_)
    all_goals
      obtain ⟨name, payload, heq⟩ := hev _ hmem
      cases heq
  | @hookCounted msg event path ip user name ev i s payload ha hfields
      hevent hs =>
    simp only [Reported, ha] at hok
    refine @Tracks.of_set _ _ h i s (s.countViewer ev)
      (Supervisor.findByPath_some hs).1 rfl
      (sup.setSlot i (s.countViewer ev)) rfl rfl
        (s.countViewer ev) [.viewer name payload] ?_ rfl
      (fun huntold => ?_)
    · intro e he
      exact ⟨name, payload, List.mem_singleton.mp he⟩
    · have hcounts : (HookEvent.ofString event).isSome = true := by
        rw [hevent]
        rfl
      have hnoted := hok event path ip user i s hfields hcounts hs huntold
      show (s.countViewer ev).view s.proc.isRunning = _
      rw [hnoted]
      cases sup.phase <;> rfl
  | publisherExit ha =>
    simp only [Reported, ha] at hok
    exact ⟨rows, rfl, h.publisherExit hok⟩
  | mtxExit | consoleSignal | editSettings =>
    exact ⟨rows, rfl, h.names, h.nodup, h.nonempty, h.views⟩
  -- nothing is told, but from now on the running flags count that the loop has
  -- just noted
  | beginLoop ha hphase =>
    have hnames : cameraNames (sup.slots.map CamSlot.noteRunning)
        = cameraNames sup.slots := by
      rw [cameraNames, List.map_map]
      rfl
    refine ⟨rows, rfl, h.names.trans hnames.symm, hnames ▸ h.nodup,
      hnames ▸ h.nonempty, ?_⟩
    intro _ k row x hrow hx
    replace hx : (sup.slots.map CamSlot.noteRunning)[k]? = some x := hx
    rw [List.getElem?_map] at hx
    obtain ⟨s, hs, rfl⟩ := Option.map_eq_some_iff.mp hx
    rw [h.views (by rw [hphase]; rfl) k row s hrow hs, hphase]
    rfl
  | tick ha hphase =>
    simp only [Reported, ha] at hok
    exact h.tick hphase hok
  | diffPresence ha hphase => exact ⟨rows, rfl, h.diffPresence hphase⟩
  | reconciled ha hphase hgrown hnames hevents =>
    simp only [Reported, ha] at hok
    exact h.reconciled hphase hgrown hnames hevents (hok _ _ hphase)

end Steps

/-! ## Runs

By induction on the run the table is right in every state of it. The last run
of the module shows that the conditions are needed: a publisher with a viewer
crashes and is restarted by the same tick, its flag does not change, and the
client goes on showing the viewer. -/

/-- The invariant of the supervisor and its client: applying the events has not
thrown, and the table tracks the slots. -/
def Watched.Tracks (w : Watched) : Prop :=
  ∃ rows, w.2 = some rows ∧ WebcamStreamer.Tracks w.1 rows

/-- While the main thread is in its loop and not in the middle of a
reconciliation, so at the end of every iteration, the table shows the slots. -/
def Watched.InSync (w : Watched) : Prop :=
  w.1.phase = .looping → ∃ rows, w.2 = some rows ∧
    WebcamStreamer.InSync rows w.1.slots

/-- **The table of a client keeps up with the slots** in every state of a run
whose steps all say everything they change. The client has applied the
snapshot it started from and every event since, in their order, and its rows
then have the fields of the slots, with the running flags that the loop has
noted. -/
theorem client_inSync {sup : Supervisor} {steps : List Step}
    (hcan : CanConnect sup)
    (hok : Runs.Guarded watchStep (fun w st => Reported w.1 st) (sup,
      connect sup) steps) :
    Runs.Everywhere watchStep Watched.InSync (sup, connect sup) steps := by
  have hstart : Watched.Tracks (sup, connect sup) :=
    @Tracks.of_snapshot sup [] List.nil_prefix hcan
  have hstep : ∀ (w : Watched) (st : Step) (w' : Watched), w.Tracks →
      Reported w.1 st →
      watchStep w st = some w' → w'.Tracks := by
    rintro ⟨sup, view⟩ st w' ⟨rows, rfl, htracks⟩ hok hw
    obtain ⟨out, hout, rfl⟩ := Option.map_eq_some_iff.mp hw
    exact htracks.step hout hok
  refine (Runs.everywhere_of_guarded hstep hstart hok).mono
    (fun w hw hphase => ?_)
  obtain ⟨rows, hrows, htracks⟩ := hw
  exact ⟨rows, hrows, htracks.inSync hphase⟩

/-- A hook message is no trouble while every flag is up to date. -/
theorem reported_hook {sup : Supervisor} {st : Step} {msg : Json String}
    (ha : st.action = .hook msg)
    (hnoted : sup.phase.untold = false → ∀ s ∈ sup.slots,
      s.proc.isRunning = s.reported sup.phase) :
    Reported sup st := by
  simp only [Reported, ha]
  intro event path ip user i s _ _ hs huntold
  exact hnoted huntold s
    (List.mem_of_getElem? (Supervisor.findByPath_some hs).1)

/-- A tick late enough for any publisher to be restarted, and the restart goes
through. -/
def lateTick : Step where
  env := { now := ms 10000, starts := fun _ => { created := some 3 } }
  action := .tick

theorem client_inSync_oneReader :
    ∃ sup, bootRun oneCamera [{ action := .beginLoop }] = some sup ∧
      CanConnect sup ∧
      Runs.Everywhere watchStep Watched.InSync (sup,
        connect sup) [hookLine "read", lateTick] := by
  refine ⟨_, rfl, ⟨by decide, by decide, fun _ => by decide⟩, ?_⟩
  refine client_inSync ⟨by decide, by decide, fun _ => by decide⟩
    (fun w hw => ⟨?_, ?_⟩)
  · exact reported_hook rfl (fun _ => by decide)
  · obtain rfl := Option.some.inj hw
    refine fun w hw => ⟨fun i s hs => ?_, trivial⟩
    cases i with
    | zero =>
      obtain rfl := Option.some.inj hs
      exact fun hr => Bool.noConfusion hr
    | succ i => cases hs

/-- A publisher with a viewer exits, and the tick restarts it at once: the
running flag is as before, so that nothing is published, but the count was
reset. -/
def crashWithReader : List Step :=
  [hookLine "read", { action := .publisherExit 0 1 }, lateTick]

/-- At the end of the iteration the client still shows a viewer. -/
theorem restart_hides_reset :
    ∃ sup sup' rows, bootRun oneCamera [{ action := .beginLoop }] = some sup ∧
      CanConnect sup ∧
      Runs.run watchStep (sup, connect sup) crashWithReader = some (sup',
        some rows) ∧
      rows.map CameraInfo.viewerCount = [1] ∧
        sup'.slots.map CamSlot.viewerCount = [0] ∧
      ¬ Watched.InSync (sup', some rows) := by
  refine ⟨_, _, _, rfl, ⟨by decide, by decide, fun _ => by decide⟩, rfl, rfl,
    rfl, fun h => ?_⟩
  obtain ⟨rows, hrows, hsync⟩ := h rfl
  obtain rfl := Option.some.inj hrows
  exact absurd hsync (by decide)

end WebcamStreamer
