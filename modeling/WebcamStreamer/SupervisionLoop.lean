import WebcamStreamer.Requests
import WebcamStreamer.LeastFree
import WebcamStreamer.Runs

/-!
# Start-up, the supervision loop and the hook events

The main thread starts everything and then loops: a supervision tick that
restarts what has died, and every ten seconds a hot-plug reconciliation. The
reconciliation holds `state_mutex` twice, for the presence diff and for adding
the new cameras, and in between the other threads run. The events pipe has a
thread of its own, which counts the viewers of each path.

`step` puts these together with the request handler into one system, in which
one step is one piece of code that holds the mutex, the exit of a child, or an
edit of `settings.json` by another program.
-/

namespace WebcamStreamer

/-! ## Resolving a camera's configuration

What a camera is streamed as is decided field by field: by its override file,
then by the database entry of its model, and last by the pick from its
formats. A mode that is not offered any more is replaced. -/

/-- `resolveCameraConfig`: field by field, the override file, then the
known-cameras database, then the pick from the advertised formats; a legacy
mode is coerced. -/
def resolveCameraConfig (ops : FileOps) (disk : Disk) (db : KnownCameraDb)
    (defaultEnabled : Bool) (device : CameraDevice)
    (formats : List AdvertisedFormat)
    (cc : CameraConfig) : Except String CameraConfig :=
  match loadOverride ops (disk.override device.friendlyName) with
  | .error what => .error what
  | .ok found =>
    let ov := found.getD {}
    let known := if device.vidPid = "" then none else db.lookup? device.vidPid
    let smart := pickDefaultFromFormats formats
    let mode := ov.mode.getD ((known.map KnownCamera.mode).getD smart.mode)
    .ok { cc with
      mode :=
        if mode = .transcodeMjpegToH264 ∨ mode = .transcodeRawToH264 then mode
        else .transcodeMjpegToH264
      width := ov.width.getD ((known.map KnownCamera.width).getD smart.width)
      height :=
        ov.height.getD ((known.map KnownCamera.height).getD smart.height)
      fps := ov.fps.getD ((known.map KnownCamera.fps).getD smart.fps)
      enabled := ov.enabled.getD defaultEnabled }

/-- `L"/webcam" + std::to_wstring(i)`. -/
def webcamPath (i : ℕ) : String := "/webcam" ++ toString i

/-- A slot as it is built at start-up and on a hot-add: nothing started yet. -/
def newSlot (ffExe : String) (device : CameraDevice)
    (formats : List AdvertisedFormat)
    (cfg : CameraConfig) : CamSlot where
  cfg := cfg
  proc := { cfg := makeFFmpegProcessConfig ffExe cfg }
  formats := formats
  altName := device.altName
  vidPid := device.vidPid

/-- The publisher is started if the camera is enabled. -/
def CamSlot.startIfEnabled (stop : Bool) (o : StartOutcome) (s : CamSlot) :
    CamSlot :=
  if s.cfg.enabled then s.start stop o else s

/-! ## Start-up

Start-up reads the settings and generates credentials where there are none,
writes the runtime file, starts MediaMTX and builds the slots. Several of its
file operations can throw, and where nothing catches that, there is no running
supervisor. -/

/-- What start-up finds: the disk, the file operations, the credentials it
would generate, the devices with their advertised formats, and the processes it
gets. -/
structure Boot where
  ffExe : String := "ffmpeg.exe"
  mtx : ProcessConfig
  knownDb : KnownCameraDb := []
  disk : Disk
  env : Env := {}
  genUser : String
  genPass : String
  cameras : List (CameraDevice × List AdvertisedFormat)
  /-- Whether a console signal arrives before anything is started. -/
  stop : Bool := false
  /-- Whether MediaMTX answers on its port in time. -/
  rtspReady : Bool := true

/-- Why start-up gives up. -/
inductive BootFailure where
  | exitCode (code : ℕ)
  | exception (what : String)

/-- The slots of the devices from position `idx` on. -/
def bootSlots (b : Boot) (disk : Disk) (settings : Settings) :
    ℕ → List (CameraDevice × List AdvertisedFormat) →
      Except String (List CamSlot)
  | _, [] => .ok []
  | idx, (device, formats) :: rest =>
    match resolveCameraConfig (b.env.overrideOps idx) disk b.knownDb
        settings.defaultEnabledForNewCameras device formats
        { friendlyName := device.friendlyName, rtspPath := webcamPath idx } with
    | .error what => .error what
    | .ok cfg =>
      match bootSlots b disk settings (idx + 1) rest with
      | .error what => .error what
      | .ok slots =>
        .ok ((newSlot b.ffExe device formats cfg).startIfEnabled b.stop
          (b.env.starts idx)
          :: slots)

/-- `wmain` up to the point where the two pipes are served. -/
def startUp (b : Boot) : Except BootFailure Supervisor :=
  match ensureCredentials b.env.settingsOps b.disk.settings b.genUser
    b.genPass with
  | .error what => .error (.exception what)
  | .ok (settings, file) =>
    match writeRuntimeYml b.env.ymlOps b.disk.runtimeYml settings.viewer with
    | (false, _) => .error (.exitCode 2)
    | (true, yml) =>
      let disk := { b.disk with settings := file, runtimeYml := yml }
      if b.cameras = [] then .error (.exitCode 3)
      else match bootSlots b disk settings 0 b.cameras with
        | .error what => .error (.exception what)
        | .ok slots =>
          let started := startNoSleep b.stop b.env.mtxStart { cfg := b.mtx } {}
          if b.rtspReady then
            .ok { ffExe := b.ffExe, knownDb := b.knownDb, disk, settings
                  mtx := started.1, mtxConfig := yml, bMtx := started.2
                  slots, stop := b.stop, phase := .starting }
          else .error (.exitCode 4)

/-! ## The supervision tick

The tick looks after MediaMTX and then after each slot, in one locked section.
A slot that is found as it should be is left alone, and a change of its
running flag is published. -/

/-- The tick on one slot: the slot it leaves, and whether it published the
state of that slot. `now` is the tick's reading of the clock. -/
def CamSlot.tick (stop : Bool) (now : Time) (o : StartOutcome) (s : CamSlot) :
    CamSlot × Bool :=
  if s.wanted then
    let runningNow := s.proc.isRunning
    -- a publisher that is down has no viewers
    let s₁ := if runningNow then s else { s with viewerCount := 0 }
    let s₂ := if runningNow = false ∧ s.backoff.earliestNext ≤ now
      then s₁.stopProc.start stop o else s₁
    if s₂.proc.isRunning = s.lastRunning then
      (s₂, false)
    else (s₂.noteRunning, true)
  else if s.lastRunning ∨ s.viewerCount ≠ 0 then
    -- unplugged or disabled: the flag and the count follow
    ({ s with lastRunning := false, viewerCount := 0 }, true)
  else (s, false)

namespace CamSlot

variable {s : CamSlot} (stop : Bool) (now : Time) (o : StartOutcome)

/-- The tick on a camera that publishes as it should. -/
theorem tick_of_running (hw : s.wanted = true) (hr : s.proc.isRunning = true) :
    s.tick stop now o
      = if s.lastRunning = true then (s, false) else (s.noteRunning, true) := by
  cases hl : s.lastRunning <;> simp [tick, hw, hr, hl]

/-- The tick on a camera that should publish and does not: the count is reset,
and the publisher is started if it is time to. -/
theorem tick_of_down (hw : s.wanted = true) (hr : s.proc.isRunning = false) :
    s.tick stop now o
      = (let t := if s.backoff.earliestNext ≤ now
          then { s with viewerCount := 0 }.stopProc.start stop o
          else { s with viewerCount := 0 }
        if t.proc.isRunning = s.lastRunning then
          (t, false)
        else (t.noteRunning, true)) := by
  simp only [tick, hw, hr, if_true, true_and, Bool.false_eq_true, if_false]

/-- The tick on a camera that should not publish: the publisher is left
alone. -/
theorem tick_of_unwanted (hw : s.wanted = false) :
    s.tick stop now o
      = if s.lastRunning = true ∨ s.viewerCount ≠ 0
        then ({ s with lastRunning := false, viewerCount := 0 }, true) else (s,
          false) := by
  simp only [tick, hw, Bool.false_eq_true, if_false]

/-- The tick leaves the publisher and its backoff alone, unless it is time to
call `StartNoSleep`. -/
theorem child_tick_eq_or :
    ((s.tick stop now o).1.proc = s.proc ∧
        (s.tick stop now o).1.backoff = s.backoff) ∨
      s.backoff.earliestNext ≤ now ∧
        (s.tick stop now o).1.proc
          = (startNoSleep stop o s.proc.stop s.backoff).1 ∧
        (s.tick stop now o).1.backoff
          = (startNoSleep stop o s.proc.stop s.backoff).2 := by
  cases hw : s.wanted with
  | false =>
    rw [tick_of_unwanted _ _ _ hw]
    exact .inl (by split <;> exact ⟨rfl, rfl⟩)
  | true =>
    cases hr : s.proc.isRunning with
    | true =>
      rw [tick_of_running _ _ _ hw hr]
      exact .inl (by split <;> exact ⟨rfl, rfl⟩)
    | false =>
      have hnoted : ∀ t : CamSlot,
          (if t.proc.isRunning = s.lastRunning then (t, false)
            else (t.noteRunning, true)).1.proc = t.proc ∧
          (if t.proc.isRunning = s.lastRunning then (t, false)
            else (t.noteRunning, true)).1.backoff = t.backoff := by
        intro t
        split <;> exact ⟨rfl, rfl⟩
      rw [tick_of_down _ _ _ hw hr]
      dsimp only
      rw [(hnoted _).1, (hnoted _).2]
      by_cases hdue : s.backoff.earliestNext ≤ now
      · rw [if_pos hdue]
        exact .inr ⟨hdue, rfl, rfl⟩
      · rw [if_neg hdue]
        exact .inl ⟨rfl, rfl⟩

end CamSlot

namespace Supervisor

/-- The tick on MediaMTX. -/
def tickMtx (env : Env) (sup : Supervisor) : Supervisor × List Event :=
  if sup.mtx.isRunning = false ∧ sup.bMtx.earliestNext ≤ env.now then
    let t := sup.restartMtx env
    (t, [.mediamtxStateChanged t.mtx.isRunning])
  else (sup, [])

/-- The slot at position `i` after the tick. -/
def tickSlot (env : Env) (sup : Supervisor) (i : ℕ) (s : CamSlot) :
    CamSlot × Bool :=
  s.tick sup.stop env.now (env.starts i)

/-- The locked section of the supervision tick. -/
def tick (env : Env) (sup : Supervisor) : Supervisor × List Event :=
  let m := sup.tickMtx env
  let ticked := sup.slots.mapIdx (sup.tickSlot env)
  ({ m.1 with slots := ticked.map Prod.fst },
    m.2 ++ (ticked.filter Prod.snd).map
      (fun r => .cameraStateChanged (sup.camJson r.1)))

end Supervisor

/-! ## Hot-plug reconciliation

The reconciliation has two locked sections, with the enumeration of formats
between them, which can take a while. What the first section has found is kept
in the phase of the main thread until the second one. -/

/-- The presence diff on one slot: the slot it leaves, and whether its presence
changed. -/
def CamSlot.diffPresence (ffExe : String) (stop : Bool) (o : StartOutcome)
    (isPresent : Bool) (s : CamSlot) : CamSlot × Bool :=
  match s.present, isPresent with
  | true, false => ({ s with present := false }.stopProc, true)
  | false, true =>
    let s₁ := { s with present := true }
    (if s₁.cfg.enabled then (s₁.rebuild ffExe).start stop o else s₁, true)
  | _, _ => (s, false)

namespace CamSlot

variable {s : CamSlot} (ffExe : String) (stop : Bool) (o : StartOutcome)

theorem diffPresence_of_same {isPresent : Bool} (h : s.present = isPresent) :
    s.diffPresence ffExe stop o isPresent = (s, false) := by
  cases isPresent <;> simp [diffPresence, h]

theorem diffPresence_of_unplugged (h : s.present = true) :
    s.diffPresence ffExe stop o false
      = ({ s with present := false }.stopProc, true) := by
  simp [diffPresence, h]

theorem diffPresence_of_replugged (h : s.present = false) :
    s.diffPresence ffExe stop o true
      = (if s.cfg.enabled = true then ({ s with
        present := true }.rebuild ffExe).start stop o
        else { s with present := true }, true) := by
  simp [diffPresence, h]

/-- What the presence diff does to a slot: nothing, or its camera was unplugged,
or plugged in again. -/
theorem diffPresence_cases (isPresent : Bool) :
    (s.present = isPresent ∧
      s.diffPresence ffExe stop o isPresent = (s, false)) ∨
      (s.present = true ∧ isPresent = false ∧
        s.diffPresence ffExe stop o isPresent
          = ({ s with present := false }.stopProc, true)) ∨
      (s.present = false ∧ isPresent = true ∧
        s.diffPresence ffExe stop o isPresent
          = (if s.cfg.enabled = true then ({ s with
            present := true }.rebuild ffExe).start stop o
            else { s with present := true }, true)) := by
  cases hp : s.present <;> cases isPresent
  case false.true =>
    exact .inr (.inr ⟨rfl, rfl, diffPresence_of_replugged _ _ _ hp⟩)
  case true.false =>
    exact .inr (.inl ⟨rfl, rfl, diffPresence_of_unplugged _ _ _ hp⟩)
  all_goals exact .inl ⟨rfl, diffPresence_of_same _ _ _ hp⟩

end CamSlot

namespace Supervisor

/-- The slot at position `i` after the presence diff. -/
def diffSlot (env : Env) (current : List CameraDevice)
    (sup : Supervisor) (i : ℕ)
    (s : CamSlot) : CamSlot × Bool :=
  s.diffPresence sup.ffExe sup.stop (env.starts i)
    (current.any (fun d => d.friendlyName == s.cfg.friendlyName))

/-- The first locked section of a reconciliation: every slot's presence follows
the enumeration, and the devices that have no slot are put aside. -/
def diffPresence (env : Env) (current : List CameraDevice) (sup : Supervisor) :
    Supervisor :=
  let diffed := sup.slots.mapIdx (sup.diffSlot env current)
  { sup with
    slots := diffed.map Prod.fst
    phase := .reconciling
      (current.filter (fun d =>
        !sup.slots.any (fun s => s.cfg.friendlyName == d.friendlyName)))
      (diffed.any Prod.snd) }

end Supervisor

/-- A slot has the path `/webcam` followed by `i`. -/
def pathTaken (slots : List CamSlot) (i : ℕ) : Bool :=
  slots.any (fun s => s.cfg.rtspPath == webcamPath i)

/-- `allocPath`: the first `/webcamN` that no slot has. -/
def allocPath (slots : List CamSlot) : String :=
  webcamPath (LeastFree.searchFree (pathTaken slots) (slots.length + 1) 0)

namespace Supervisor

/-- One new device of the second locked section; `known` are the names the
section found when it began. The flag says whether a slot was added. -/
def addDevice (env : Env) (known : List String) (sup : Supervisor)
    (device : CameraDevice) (formats : List AdvertisedFormat) :
    Except String (Supervisor × Bool) :=
  if device.friendlyName ∈ known then .ok (sup, false)
  else
    let i := sup.slots.length
    match resolveCameraConfig (env.overrideOps i) sup.disk sup.knownDb
        sup.settings.defaultEnabledForNewCameras device formats
        { friendlyName := device.friendlyName
          rtspPath := allocPath sup.slots } with
    | .error what => .error what
    | .ok cfg =>
      let s :=
        (newSlot sup.ffExe device formats cfg).startIfEnabled sup.stop
          (env.starts i)
      .ok ({ sup with slots := sup.slots ++ [s] }, true)

/-- The loop over the new devices. -/
def addDevices (env : Env) (known : List String) :
    Supervisor → Bool → List (CameraDevice × List AdvertisedFormat) →
      Except String (Supervisor × Bool)
  | sup, changed, [] => .ok (sup, changed)
  | sup, changed, (device, formats) :: rest =>
    match sup.addDevice env known device formats with
    | .error what => .error what
    | .ok (sup', added) => addDevices env known sup' (changed || added) rest

/-- The second locked section of a reconciliation; `newFormats j` are the
formats that were enumerated for the new device at position `j`. An exception
ends the process, since nothing catches it. -/
def finishReconcile (env : Env) (newDevices : List CameraDevice)
    (listChanged : Bool)
    (newFormats : ℕ → List AdvertisedFormat) (sup : Supervisor) :
    Except String (Supervisor × List Event) :=
  if newDevices = [] ∧ listChanged = false then .ok (sup, [])
  else
    match sup.addDevices env
      (sup.slots.map (fun s => s.cfg.friendlyName)) listChanged
        (newDevices.mapIdx (fun j d => (d, newFormats j))) with
    | .error what => .error what
    | .ok (sup', changed) =>
      .ok (sup', if changed then [.camerasChanged sup'.allCamsJson] else [])

end Supervisor

/-! ## The events pipe

A message of a hook names a path and an event, and the slot with that path
counts it. Messages about other paths and of other kinds are ignored. -/

/-- `codecForMode`. -/
def codecForMode : Mode → String
  | .passthroughH264 | .transcodeMjpegToH264 | .transcodeRawToH264 => "H.264"
  | .passthroughMjpeg | .transcodeRawToMjpeg => "MJPEG"
  | .unknown => "unknown"

/-- A path without the slash it begins with. -/
def dropSlash (path : String) : String :=
  match path.toList with
  | '/' :: rest => String.ofList rest
  | cs => String.ofList cs

/-- The two events MediaMTX's hooks report. -/
inductive HookEvent where
  | read
  | unread
  deriving DecidableEq

/-- `ev_type` as the handler tells it apart. -/
def HookEvent.ofString (s : String) : Option HookEvent :=
  if s = "read" then some .read else if s = "unread" then some .unread else none

/-- The name the event is published under. -/
def HookEvent.published : HookEvent → String
  | .read => "viewer-connected"
  | .unread => "viewer-disconnected"

/-- The count after an event: a disconnection never takes it below zero. -/
def HookEvent.count : HookEvent → ℕ → ℕ
  | .read, n => n + 1
  | .unread, n => if n > 0 then n - 1 else n

/-- The slot after an event on its path. -/
def CamSlot.countViewer (ev : HookEvent) (s : CamSlot) : CamSlot :=
  { s with viewerCount := ev.count s.viewerCount }

/-- The string fields of a hook message: event, path, reader address and
user. -/
def hookFields (msg : Json String) :
    Except JsonException (String × String × String × String) := do
  let event ← msg.valueString "event"
  let path ← msg.valueString "path"
  let ip ← msg.valueString "reader_ip"
  let user ← msg.valueString "reader_user"
  return (event, path, ip, user)

namespace Supervisor

/-- The slot that a hook message names by its path. -/
def findByPath (sup : Supervisor) (path : String) : Option (ℕ × CamSlot) :=
  findSlot (fun s => dropSlash s.cfg.rtspPath == path) sup.slots

/-- The handler of the events pipe. An exception is caught and logged by the
pipe server, and comes before any change. -/
def hookEvent (msg : Json String) (sup : Supervisor) :
    Supervisor × List Event :=
  match hookFields msg with
  | .error _ => (sup, [])
  | .ok (event, path, ip, user) =>
    match HookEvent.ofString event with
    | none => (sup, [])
    | some ev =>
      match sup.findByPath path with
      | none =>
        (sup, [.viewer ev.published ⟨"/" ++ path, ip, user, path, "unknown",
          "unknown", none⟩])
      | some (i, s) =>
        let s' := s.countViewer ev
        (sup.setSlot i s',
          [.viewer ev.published ⟨"/" ++ path, ip, user, s.cfg.friendlyName,
              modeName s.cfg.mode, codecForMode s.cfg.mode,
              some (s.cfg.width, s.cfg.height)⟩,
            .cameraStateChanged (sup.camJson s')])

end Supervisor

/-! ## The system

All of this together is one step function. An action is possible or not,
depending on where the main thread is, and the environment of a step says what
the operating system answers. -/

/-- What can happen to the running supervisor. -/
inductive Action where
  /-- A request on the control pipe. -/
  | request (rq : IpcRequest)
  /-- A message on the events pipe. -/
  | hook (msg : Json String)
  /-- The publisher of the slot at a position exits. -/
  | publisherExit (i : ℕ) (code : UInt32)
  /-- MediaMTX exits. -/
  | mtxExit (code : UInt32)
  /-- A console signal. -/
  | consoleSignal
  /-- Another program writes `settings.json`. -/
  | editSettings (file : JsonFile)
  /-- The main thread notes who is running and enters its loop. -/
  | beginLoop
  /-- The supervision tick. -/
  | tick
  /-- The first locked section of a reconciliation, after an enumeration. -/
  | diffPresence (current : List CameraDevice)
  /-- The second one, with the formats of the new devices. -/
  | finishReconcile (newFormats : ℕ → List AdvertisedFormat)

/-- An action and what the operating system does during it. -/
structure Step where
  env : Env := {}
  action : Action

/-- The state after a step and the events published during it. -/
abbrev Outcome := Supervisor × List Event

/-- One step of the supervisor; `none` where the main thread is elsewhere, or
the process ends. -/
def step (sup : Supervisor) (st : Step) : Option Outcome :=
  match st.action with
  | .request rq =>
    let served := handle st.env rq sup
    some (served.sup, served.events)
  | .hook msg => some (sup.hookEvent msg)
  | .publisherExit i code =>
    some ({ sup with slots := sup.slots.modify i (fun s => { s with
      proc := s.proc.exit code }) },
      [])
  | .mtxExit code => some ({ sup with mtx := sup.mtx.exit code }, [])
  | .consoleSignal => some ({ sup with stop := true }, [])
  | .editSettings file =>
    some ({ sup with disk := { sup.disk with settings := file } }, [])
  | .beginLoop =>
    match sup.phase with
    | .starting =>
      some ({ sup with
        slots := sup.slots.map CamSlot.noteRunning, phase := .looping }, [])
    | _ => none
  | .tick =>
    match sup.phase with
    | .looping => some (sup.tick st.env)
    | _ => none
  | .diffPresence current =>
    match sup.phase with
    | .looping => some (sup.diffPresence st.env current, [])
    | _ => none
  | .finishReconcile newFormats =>
    match sup.phase with
    | .reconciling newDevices listChanged =>
      match sup.finishReconcile st.env newDevices listChanged newFormats with
      | .error _ => none
      | .ok (sup', events) => some ({ sup' with phase := .looping }, events)
    | _ => none

/-- The state after a step. -/
def next (sup : Supervisor) (st : Step) : Option Supervisor :=
  (step sup st).map Prod.fst

/-- The state in which the supervisor is after it started up and took the given
steps; `none` if start-up gives up or a step is not possible. -/
def bootRun (b : Boot) (steps : List Step) : Option Supervisor :=
  match startUp b with
  | .error _ => none
  | .ok sup => Runs.run next sup steps

theorem bootRun_eq_some {b : Boot} {steps : List Step} {sup : Supervisor} :
    bootRun b steps = some sup
      ↔ ∃ sup₀, startUp b = .ok sup₀ ∧ Runs.run next sup₀ steps = some sup := by
  unfold bootRun
  split
  next h => simp [h]
  next sup₀ h => simp [h]

/-- A machine with one camera, `Cam`, whose publisher starts. -/
def oneCamera : Boot where
  mtx := { exePath := "mediamtx.exe", args := ["mediamtx.runtime.yml"]
           friendlyName := "mediamtx" }
  disk := { settings := .missing, runtimeYml := .missing
            overrides := fun _ => none, probeJson := fun _ => .missing }
  env :=
    { mtxStart := { created := some 1 }
      starts := fun _ => { created := some 2 } }
  genUser := "u"
  genPass := "p"
  cameras := [({ friendlyName := "Cam" }, [])]

/-- A request with parameters. -/
def requestWith (env : Env) (method : String)
    (params : List (String × Json String)) : Step :=
  { env, action := .request { method, params := .object params } }

end WebcamStreamer
