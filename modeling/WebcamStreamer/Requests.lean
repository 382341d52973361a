import WebcamStreamer.Supervisor

/-!
# The request handler

The handler that the control pipe calls for one request, with `state_mutex`
held: one definition for each method.

A handler may fail in the middle: an accessor throws on a parameter of the
wrong type, or `std::filesystem::exists` throws. The pipe server then answers
for it, but what the handler did before stays done. So a handler returns the
state it leaves, the events it published and the response, and an exception is
one more way to return these.
-/

namespace WebcamStreamer

/-! ## Requests and responses

A request is a method with a document of parameters. What serving it leaves is
a state, the events that were published while it was served, and the response,
which is either a result or a refusal with its text. -/

/-- The `result` member of a response. -/
inductive IpcResult where
  | null
  | cameras (cams : List CamJson)
  | status (running : Bool) (pid restarts : ℕ) (cams : List CamJson)
  | text (s : String)
  | effectiveMode (mode : String) (width height fps : ℤ)
  | advertisedFormats (j : Json String)
  | started
  | streamEnabled (name : String) (enabled : Bool)
  | credentials (user pass : String)
  | defaultEnabledForNewCameras (enabled : Bool)

/-- `struct IpcRequest`. -/
structure IpcRequest where
  id : ℤ := 0
  method : String
  params : Json String := .object []

/-- `struct IpcResponse`. -/
structure IpcResponse where
  ok : Bool := false
  result : IpcResult := .null
  error : String := ""

/-- What serving one request leaves: the state, the events published on the
way, and the response. -/
structure Served where
  sup : Supervisor
  events : List Event := []
  response : IpcResponse

namespace Served

/-- A refusal by the handler itself. -/
def refuse (sup : Supervisor) (error : String) : Served :=
  { sup, response := { error } }

/-- An exception out of the handler, answered by the pipe server. -/
def thrown (sup : Supervisor) (what : String) : Served :=
  refuse sup ("handler-exception: " ++ what)

/-- A success. -/
def answer (sup : Supervisor) (events : List Event) (result : IpcResult) :
    Served :=
  { sup, events, response := { ok := true, result } }

/-- The rest of a handler after an accessor that may throw. -/
def afterParam {α : Type} (sup : Supervisor) (x : Except JsonException α)
    (k : α → Served) : Served :=
  match x with
  | .ok a => k a
  | .error e => thrown sup e.what

/-- A slot that was changed is stored, its state is published, and its running
flag is noted. -/
def slotChanged (sup : Supervisor) (i : ℕ) (s : CamSlot) (result : IpcResult) :
    Served :=
  answer (sup.setSlot i s.noteRunning)
    [.cameraStateChanged (sup.camJson s)] result

end Served

/-! ## The methods

Each method is a definition under its own name, with its checks in the order
of the source and the texts of its errors. An accessor that throws ends the
handler where it stands, and what was changed by then stays changed. -/

open Served in
/-- `restart-camera`. -/
def restartCamera (env : Env) (params : Json String) (sup : Supervisor) :
    Served :=
  afterParam sup (params.valueString "name") fun nm =>
    if nm = "" then refuse sup "missing param 'name'"
    else match sup.findByName nm with
      | none => refuse sup ("unknown camera: " ++ nm)
      | some (i, s) =>
        slotChanged sup i (s.restart sup.ffExe sup.stop (env.starts i))
          (.text "restarted")

/-- A number the client left out, or sent as zero or less, is no number. -/
def positive (n : ℤ) : Option ℤ := if n > 0 then some n else none

/-- The parameters of `set-mode`: the name, and the update they ask for. -/
def setModeParams (params : Json String) :
    Except JsonException (String × Mode × CameraOverride) := do
  let nm ← params.valueString "name"
  let mode ← params.valueString "mode"
  let width ← params.valueInt "width"
  let height ← params.valueInt "height"
  let fps ← params.valueInt "fps"
  let parsed := modeFromString mode
  return (nm, parsed,
    { mode := some parsed, width := positive width, height := positive height,
      fps := positive fps })

/-- The error text for parameters of `set-mode` that name no camera or no
mode. -/
def setModeUsage : String :=
  "params {name, mode} required (mode in passthrough_mjpeg|passthrough_h264|" ++
  "transcode_mjpeg_to_h264|transcode_raw_to_h264|transcode_raw_to_mjpeg); " ++
  "optional: width, height, fps"

/-- The configuration in memory after `set-mode`. -/
def CameraConfig.update (cfg : CameraConfig) (upd : CameraOverride) :
    CameraConfig :=
  { cfg with
    mode := upd.mode.getD cfg.mode
    width := upd.width.getD cfg.width
    height := upd.height.getD cfg.height
    fps := upd.fps.getD cfg.fps }

open Served in
/-- `set-mode`. The configuration in memory changes first; the flag that
`SaveOverride` returns is ignored. -/
def setMode (env : Env) (params : Json String) (sup : Supervisor) : Served :=
  afterParam sup (setModeParams params) fun (nm, parsed, upd) =>
    if nm = "" ∨ parsed = .unknown then refuse sup setModeUsage
    else match sup.findByName nm with
      | none => refuse sup ("unknown camera: " ++ nm)
      | some (i, s) =>
        let s₁ := { s with cfg := s.cfg.update upd }
        match saveOverride (env.overrideOps i)
          (sup.disk.override nm) nm upd with
        | .error what => thrown (sup.setSlot i s₁) what
        | .ok (_, file) =>
          slotChanged { sup with disk := sup.disk.withOverride nm file } i
            (s₁.restart sup.ffExe sup.stop (env.starts i))
            (.effectiveMode (modeName s₁.cfg.mode) s₁.cfg.width
              s₁.cfg.height s₁.cfg.fps)

open Served in
/-- `list-advertised-formats`: `LoadProbeJson` treats a missing, unreadable or
malformed report alike. -/
def listAdvertisedFormats (env : Env) (params : Json String)
    (sup : Supervisor) : Served :=
  afterParam sup (params.valueString "name") fun nm =>
    if nm = "" then refuse sup "missing param 'name'"
    else match env.probeOps.existsThrows, env.probeOps.readable,
        sup.disk.probeJson (sup.disk.fileKey (slugifyName nm)) with
      | some what, _, _ => thrown sup what
      | none, true, .doc j =>
        afterParam sup (j.value .ok "advertised_formats" (.array []))
          fun formats =>
          answer sup [] (.advertisedFormats formats)
      | none, _, _ =>
        refuse sup ("no probe JSON found for '" ++ nm
          ++ "'; run probe-camera first")

open Served in
/-- `probe-camera`: the probe itself runs on a thread of its own. -/
def probeCamera (params : Json String) (sup : Supervisor) : Served :=
  afterParam sup (params.valueString "name") fun nm =>
    if nm = "" then refuse sup "missing param 'name'"
    else answer sup [.probeStarted nm] .started

/-- The slot after `set-stream-enabled`: an enabled camera that is plugged in
gets a fresh publisher, a disabled one loses the publisher it has. -/
def CamSlot.enable (ffExe : String) (stop : Bool) (o : StartOutcome)
    (want : Bool)
    (s : CamSlot) : CamSlot :=
  let s₁ := { s with cfg := { s.cfg with enabled := want } }
  if want then
    (if s₁.present then s₁.restart ffExe stop o else s₁)
  else s₁.stopProc

/-- The publisher is restarted, left alone, or stopped. -/
theorem CamSlot.enable_cases (ffExe : String) (stop : Bool) (o : StartOutcome)
    (want : Bool)
    (s : CamSlot) :
    (want = true ∧ s.present = true ∧ s.enable ffExe stop o want
        = { s with cfg := { s.cfg with
          enabled := want } }.restart ffExe stop o) ∨
      (want = true ∧ s.present = false ∧ s.enable ffExe stop o want
        = { s with cfg := { s.cfg with enabled := want } }) ∨
      (want = false ∧ s.enable ffExe stop o want
        = { s with cfg := { s.cfg with enabled := want } }.stopProc) := by
  cases want with
  | false => exact .inr (.inr ⟨rfl, rfl⟩)
  | true =>
    cases hp : s.present with
    | false => exact .inr (.inl ⟨rfl, rfl, by simp [enable, hp]⟩)
    | true => exact .inl ⟨rfl, rfl, by simp [enable, hp]⟩

open Served in
/-- `set-stream-enabled`. The override is saved before anything else changes;
the flag that `SaveOverride` returns is ignored. -/
def setStreamEnabled (env : Env) (params : Json String) (sup : Supervisor) :
    Served :=
  afterParam sup (params.valueString "name") fun nm =>
    match if nm = "" then
      none else (params.find? "enabled").bind Json.boolean? with
    | none => refuse sup "params {name: string, enabled: bool} required"
    | some want =>
      match sup.findByName nm with
      | none => refuse sup ("unknown camera: " ++ nm)
      | some (i, s) =>
        match saveOverride (env.overrideOps i) (sup.disk.override nm) nm
            { enabled := some want } with
        | .error what => thrown sup what
        | .ok (_, file) =>
          slotChanged { sup with disk := sup.disk.withOverride nm file } i
            (s.enable sup.ffExe sup.stop (env.starts i) want)
              (.streamEnabled nm want)

open Served in
/-- `set-viewer-credentials`. The copy in memory changes first, then the
settings file, then the runtime file, and then MediaMTX is restarted. -/
def setViewerCredentials (env : Env) (params : Json String) (sup : Supervisor) :
    Served :=
  afterParam sup (params.valueString "user") fun user =>
  afterParam sup (params.valueString "pass") fun pass =>
    if user = "" ∨ pass = "" then
      refuse sup "params {user, pass} required and non-empty"
    else
      let sup₁ := { sup with settings := sup.settings.withViewer user pass }
      match saveSettings env.settingsOps sup.disk.settings sup₁.settings with
      | .error what => thrown sup₁ what
      | .ok (false, _) => refuse sup₁ "could not persist settings.json"
      | .ok (true, file) =>
        let sup₂ := { sup₁ with disk := { sup.disk with settings := file } }
        match writeRuntimeYml env.ymlOps sup.disk.runtimeYml (user, pass) with
        | (false, _) => refuse sup₂ "could not write mediamtx.runtime.yml"
        | (true, yml) =>
          let sup₃ :=
            { sup₂ with disk := { sup₂.disk with
              runtimeYml := yml } }.restartMtx env
          answer sup₃
            [.mediamtxStateChanged sup₃.mtx.isRunning,
              .camerasChanged sup₃.allCamsJson]
            (.credentials user pass)

open Served in
/-- `reload-settings`. -/
def reloadSettings (env : Env) (sup : Supervisor) : Served :=
  match loadSettings env.settingsOps sup.disk.settings with
  | .error what => thrown sup what
  | .ok fresh =>
    answer { sup with settings := fresh } []
      (.defaultEnabledForNewCameras fresh.defaultEnabledForNewCameras)

open Served in
/-- The handler of the control pipe. -/
def handle (env : Env) (rq : IpcRequest) (sup : Supervisor) : Served :=
  if rq.method = "list-cameras" then answer sup [] (.cameras sup.allCamsJson)
  else if rq.method = "get-status" then
    answer sup []
      (.status sup.mtx.isRunning sup.mtx.pid sup.bMtx.restarts sup.allCamsJson)
  else if rq.method = "restart-camera" then restartCamera env rq.params sup
  else if rq.method = "set-mode" then setMode env rq.params sup
  else if rq.method = "list-advertised-formats" then
    listAdvertisedFormats env rq.params sup
  else if rq.method = "probe-camera" then probeCamera rq.params sup
  else if rq.method = "set-stream-enabled" then
    setStreamEnabled env rq.params sup
  else if rq.method = "set-viewer-credentials" then
    setViewerCredentials env rq.params sup
  else if rq.method = "reload-settings" then reloadSettings env sup
  else if rq.method = "shutdown" then
    answer { sup with stop := true } [] (.text "shutting down")
  else refuse sup ("unknown method: " ++ rq.method)

/-! ## The methods that go through

For the methods that write files it is said once more what they leave, with
the cases of failure in front: which of the operations can fail, and what of
the state has been changed when one does. -/

section GoingThrough

variable {env : Env} {sup : Supervisor} {rq : IpcRequest} {nm : String} {i : ℕ}
  {s : CamSlot}

theorem handle_listCameras (hm : rq.method = "list-cameras") :
    handle env rq sup = .answer sup [] (.cameras sup.allCamsJson) := by
  simp [handle, hm]

theorem handle_getStatus (hm : rq.method = "get-status") :
    handle env rq sup = .answer sup []
      (.status sup.mtx.isRunning sup.mtx.pid sup.bMtx.restarts
        sup.allCamsJson) := by
  simp [handle, hm]

theorem handle_setViewerCredentials
    (hm : rq.method = "set-viewer-credentials") :
    handle env rq sup = setViewerCredentials env rq.params sup := by
  simp [handle, hm]

theorem handle_restartCamera (hm : rq.method = "restart-camera")
    (hp : rq.params.valueString "name" = .ok nm) (hne : nm ≠ "")
    (hs : sup.findByName nm = some (i, s)) :
    handle env rq sup
      = .slotChanged sup i (s.restart sup.ffExe sup.stop (env.starts i))
        (.text "restarted") := by
  simp [handle, hm, restartCamera, Served.afterParam, hp, hne, hs]

theorem handle_setMode {parsed : Mode} {upd : CameraOverride}
    (hm : rq.method = "set-mode")
    (hp : setModeParams rq.params = .ok (nm, parsed, upd)) (hne : nm ≠ "")
    (hmode : parsed ≠ .unknown) (hs : sup.findByName nm = some (i, s)) :
    handle env rq sup
      = match saveOverride (env.overrideOps i)
        (sup.disk.override nm) nm upd with
        | .error what =>
          .thrown (sup.setSlot i { s with cfg := s.cfg.update upd }) what
        | .ok (_, file) =>
          .slotChanged { sup with disk := sup.disk.withOverride nm file } i
            ({ s with cfg := s.cfg.update upd }.restart sup.ffExe sup.stop
              (env.starts i))
            (.effectiveMode (modeName (s.cfg.update upd).mode)
              (s.cfg.update upd).width
              (s.cfg.update upd).height (s.cfg.update upd).fps) := by
  simp only [handle, hm, setMode, Served.afterParam, hp, hne, hmode, hs,
    or_self, if_false]
  rfl

theorem handle_setStreamEnabled {want : Bool}
    (hm : rq.method = "set-stream-enabled")
    (hp : rq.params.valueString "name" = .ok nm) (hne : nm ≠ "")
    (hwant : rq.params.find? "enabled" = some (.boolean want))
    (hs : sup.findByName nm = some (i, s)) :
    handle env rq sup
      = match saveOverride (env.overrideOps i) (sup.disk.override nm) nm
          { enabled := some want } with
        | .error what => .thrown sup what
        | .ok (_, file) =>
          .slotChanged { sup with disk := sup.disk.withOverride nm file } i
            (s.enable sup.ffExe sup.stop (env.starts i) want)
              (.streamEnabled nm want) := by
  simp only [handle, hm, setStreamEnabled, Served.afterParam, hp, hne, hwant,
    hs, if_false]
  rfl

/-- Something that `set-viewer-credentials` does before it restarts MediaMTX
fails, as far as it notices. -/
def CredentialsFail (env : Env) : Prop :=
  env.settingsOps.existsThrows ≠ none ∨ env.settingsOps.write = .openFailed ∨
    env.ymlOps.readable = false ∨ env.ymlOps.write = .openFailed

/-- Where both files were written, nothing failed. -/
theorem not_credentialsFail {s : Settings} {old file : JsonFile}
    {before yml : RuntimeYml}
    {c : Credentials}
    (hsave : saveSettings env.settingsOps old s = .ok (true, file))
    (hyml : writeRuntimeYml env.ymlOps before c = (true, yml)) :
    ¬ CredentialsFail env := by
  obtain ⟨hthrow, hopen, -⟩ := saveSettings_eq_ok.mp hsave
  obtain ⟨hreadable, hyopen, -⟩ := writeRuntimeYml_eq_true.mp hyml
  simpa [CredentialsFail, hthrow, hreadable, hyopen] using hopen

/-- What a `set-viewer-credentials` that fails leaves. -/
theorem handle_credentialsFail {user pass : String}
    (hm : rq.method = "set-viewer-credentials")
    (hu : rq.params.valueString "user" = .ok user) (hu0 : user ≠ "")
    (hp : rq.params.valueString "pass" = .ok pass) (hp0 : pass ≠ "")
    (hfail : CredentialsFail env) :
    (handle env rq sup).response.ok = false ∧
      (handle env rq sup).sup.settings = sup.settings.withViewer user pass ∧
      (handle env rq sup).sup.disk.runtimeYml = sup.disk.runtimeYml ∧
      (env.settingsOps.existsThrows = none →
        (handle env rq sup).sup.disk.settings
          = env.settingsOps.write.json sup.disk.settings
            (mergeSettings (membersToMerge env.settingsOps sup.disk.settings)
              (sup.settings.withViewer user pass))) := by
  rw [handle_setViewerCredentials hm]
  simp only [setViewerCredentials, Served.afterParam, hu, hu0, hp, hp0,
    or_self, if_false]
  cases hthrow : env.settingsOps.existsThrows with
  | some what => simp [saveSettings, hthrow, Served.thrown, Served.refuse]
  | none =>
    by_cases hopen : env.settingsOps.write = .openFailed
    · simp [saveSettings, hthrow, hopen, Served.refuse, WriteOutcome.json]
    · have hyml : writeRuntimeYml env.ymlOps sup.disk.runtimeYml (user, pass)
          = (false, sup.disk.runtimeYml) := by
        rcases hfail with h | h | h | h
        · exact absurd hthrow h
        · exact absurd h hopen
        · simp [writeRuntimeYml, h]
        · simp [writeRuntimeYml, h]
      simp [saveSettings, hthrow, hopen, hyml, Served.refuse]

/-- What a `set-viewer-credentials` that goes through leaves. -/
theorem handle_credentialsSet {user pass : String}
    (hm : rq.method = "set-viewer-credentials")
    (hu : rq.params.valueString "user" = .ok user) (hu0 : user ≠ "")
    (hp : rq.params.valueString "pass" = .ok pass) (hp0 : pass ≠ "")
    (hgood : ¬ CredentialsFail env) :
    (handle env rq sup).response
        = { ok := true, result := .credentials user pass } ∧
      (handle env rq sup).sup
        = { sup with
            settings := sup.settings.withViewer user pass
            disk := { sup.disk with
              settings := env.settingsOps.write.json sup.disk.settings
                (mergeSettings
                  (membersToMerge env.settingsOps sup.disk.settings)
                  (sup.settings.withViewer user pass))
              runtimeYml := if env.ymlOps.write = WriteOutcome.complete
                then .viewer (substitutedEntry (user, pass)) else .truncated }
            }.restartMtx env := by
  simp only [CredentialsFail, not_or, not_not] at hgood
  obtain ⟨hthrow, hopen, hreadable, hyopen⟩ := hgood
  rw [handle_setViewerCredentials hm]
  simp only [setViewerCredentials, Served.afterParam, hu, hu0, hp, hp0,
    or_self, if_false]
  cases hw : env.ymlOps.write with
  | openFailed => exact absurd hw hyopen
  | stopped n noticed =>
    simp [saveSettings, writeRuntimeYml, hthrow, hopen, hreadable, hw,
      Served.answer]
  | complete =>
    simp [saveSettings, writeRuntimeYml, hthrow, hopen, hreadable, hw,
      Served.answer]

/-- What a `reload-settings` that does not throw does. -/
theorem handle_reloadSettings (hm : rq.method = "reload-settings")
    (hthrow : env.settingsOps.existsThrows = none) :
    handle env rq sup
      = .answer { sup with
          settings := if env.settingsOps.readable then
            Settings.ofFile sup.disk.settings else {} }
        [] (.defaultEnabledForNewCameras
          (if env.settingsOps.readable then Settings.ofFile sup.disk.settings
            else {}).defaultEnabledForNewCameras) := by
  simp [handle, hm, reloadSettings, loadSettings, hthrow]

end GoingThrough

/-! ## What serving a request can do

Ten methods with their refusals and exceptions come down to eleven outcomes,
and every invariant is proved against these. -/

open Served in
/-- **The outcomes of a request.** Each one says under which circumstances it
arises and what it leaves. The handlers share these outcomes, so that a proof
about all requests has one case for each of them and not one for each
method. -/
inductive Serves (env : Env) (sup : Supervisor) (rq : IpcRequest) :
    Served → Prop where
  /-- The queries, the probe, and everything refused before it changed
  anything. -/
  | unchanged (events : List Event) (response : IpcResponse)
      (hev : ∀ e ∈ events, ∃ camera, e = .probeStarted camera)
      (hok : response.ok = true → rq.method ≠ "set-viewer-credentials") :
      Serves env sup rq ⟨sup, events, response⟩
  | restarted {nm : String} {i : ℕ} {s : CamSlot}
      (hm : rq.method = "restart-camera")
      (hp : rq.params.valueString "name" = .ok nm) (hne : nm ≠ "")
      (hs : sup.findByName nm = some (i, s)) :
      Serves env sup rq
        (slotChanged sup i (s.restart sup.ffExe sup.stop (env.starts i))
          (.text "restarted"))
  /-- `set-mode` changed the configuration in memory, and then the override
  could not be saved because of an exception. -/
  | modeThrown {nm what : String} {parsed : Mode} {upd : CameraOverride} {i : ℕ}
      {s : CamSlot}
      (hm : rq.method = "set-mode")
      (hp : setModeParams rq.params = .ok (nm, parsed, upd))
      (hne : nm ≠ "") (hmode : parsed ≠ .unknown)
      (hs : sup.findByName nm = some (i, s))
      (hops : (env.overrideOps i).existsThrows = some what) :
      Serves env sup rq (thrown (sup.setSlot i { s with
        cfg := s.cfg.update upd }) what)
  | modeSet {nm : String} {parsed : Mode} {upd : CameraOverride} {i : ℕ}
      {s : CamSlot}
      {flag : Bool} {file : Option Text} {result : IpcResult}
      (hm : rq.method = "set-mode")
      (hp : setModeParams rq.params = .ok (nm, parsed, upd))
      (hne : nm ≠ "") (hmode : parsed ≠ .unknown)
      (hs : sup.findByName nm = some (i, s))
      (hsave : saveOverride (env.overrideOps i) (sup.disk.override nm) nm upd
        = .ok (flag, file)) :
      Serves env sup rq
        (slotChanged { sup with disk := sup.disk.withOverride nm file } i
          ({ s with cfg := s.cfg.update upd }.restart sup.ffExe sup.stop
            (env.starts i)) result)
  | enabledSet {nm : String} {want : Bool} {i : ℕ} {s : CamSlot} {flag : Bool}
      {file : Option Text} {result : IpcResult}
      (hm : rq.method = "set-stream-enabled")
      (hp : rq.params.valueString "name" = .ok nm) (hne : nm ≠ "")
      (hwant : rq.params.find? "enabled" = some (.boolean want))
      (hs : sup.findByName nm = some (i, s))
      (hsave : saveOverride (env.overrideOps i) (sup.disk.override nm) nm
        { enabled := some want } = .ok (flag, file)) :
      Serves env sup rq
        (slotChanged { sup with disk := sup.disk.withOverride nm file } i
          (s.enable sup.ffExe sup.stop (env.starts i) want) result)
  /-- The credentials are in memory, and the settings file is as it was. -/
  | credentialsUnsaved {user pass : String} (response : IpcResponse)
      (hm : rq.method = "set-viewer-credentials")
      (hu : rq.params.valueString "user" = .ok user) (hu0 : user ≠ "")
      (hp : rq.params.valueString "pass" = .ok pass) (hp0 : pass ≠ "")
      (hops : env.settingsOps.existsThrows ≠ none ∨
        env.settingsOps.write = .openFailed)
      (hok : response.ok = false) :
      Serves env sup rq ⟨{ sup with
        settings := sup.settings.withViewer user pass }, [], response⟩
  /-- The credentials are in memory and in the settings file, and the runtime
  file is as it was. -/
  | credentialsUnwritten {user pass : String} {file : JsonFile}
      (response : IpcResponse)
      (hm : rq.method = "set-viewer-credentials")
      (hu : rq.params.valueString "user" = .ok user) (hu0 : user ≠ "")
      (hp : rq.params.valueString "pass" = .ok pass) (hp0 : pass ≠ "")
      (hsave : saveSettings env.settingsOps sup.disk.settings
        (sup.settings.withViewer user pass) = .ok (true, file))
      (hops : env.ymlOps.readable = false ∨ env.ymlOps.write = .openFailed)
      (hok : response.ok = false) :
      Serves env sup rq
        ⟨{ sup with settings := sup.settings.withViewer user pass
                    disk := { sup.disk with settings := file } }, [], response⟩
  | credentialsSet {user pass : String} {file : JsonFile} {yml : RuntimeYml}
      {t : Supervisor}
      (hm : rq.method = "set-viewer-credentials")
      (hu : rq.params.valueString "user" = .ok user) (hu0 : user ≠ "")
      (hp : rq.params.valueString "pass" = .ok pass) (hp0 : pass ≠ "")
      (hsave : saveSettings env.settingsOps sup.disk.settings
        (sup.settings.withViewer user pass) = .ok (true, file))
      (hyml : writeRuntimeYml env.ymlOps sup.disk.runtimeYml (user,
        pass) = (true, yml))
      (ht : t = { sup with
        settings := sup.settings.withViewer user pass
        disk :=
          { sup.disk with
            settings := file, runtimeYml := yml } }.restartMtx env) :
      Serves env sup rq
        (answer t [.mediamtxStateChanged t.mtx.isRunning,
          .camerasChanged t.allCamsJson]
          (.credentials user pass))
  | settingsReloaded {fresh : Settings} {result : IpcResult}
      (hm : rq.method = "reload-settings")
      (hload : loadSettings env.settingsOps sup.disk.settings = .ok fresh) :
      Serves env sup rq (answer { sup with settings := fresh } [] result)
  | shutdown {result : IpcResult} (hm : rq.method = "shutdown") :
      Serves env sup rq (answer { sup with stop := true } [] result)

namespace Serves

variable {env : Env} {sup : Supervisor} {rq : IpcRequest}

theorem answered (hm : rq.method ≠ "set-viewer-credentials")
    (result : IpcResult) :
    Serves env sup rq (.answer sup [] result) :=
  .unchanged [] _ (fun _ h => absurd h List.not_mem_nil) (fun _ => hm)

theorem refused (error : String) : Serves env sup rq (.refuse sup error) :=
  .unchanged [] _ (fun _ h => absurd h List.not_mem_nil)
    (fun h => Bool.noConfusion h)

/-- An accessor either throws, and nothing has changed, or the handler goes
on. -/
theorem afterParam {α : Type} {x : Except JsonException α} {k : α → Served}
    (hk : ∀ a, x = .ok a → Serves env sup rq (k a)) :
    Serves env sup rq (.afterParam sup x k) := by
  cases x with
  | ok a => exact hk a rfl
  | error e => exact refused _

theorem restartCamera (hm : rq.method = "restart-camera") :
    Serves env sup rq (restartCamera env rq.params sup) := by
  refine afterParam (fun nm hp => ?_)
  split
  next => exact refused _
  next hne =>
    split
    next => exact refused _
    next i s hs => exact restarted hm hp hne hs

theorem setMode (hm : rq.method = "set-mode") :
    Serves env sup rq (setMode env rq.params sup) := by
  refine afterParam (fun ⟨nm, parsed, upd⟩ hp => ?_)
  dsimp only
  split
  next => exact refused _
  next hne =>
    obtain ⟨hne, hmode⟩ := not_or.mp hne
    split
    next => exact refused _
    next i s hs =>
      split
      next what hsave =>
        exact modeThrown hm hp hne hmode hs (saveOverride_error_iff.mp hsave)
      next flag file hsave => exact modeSet hm hp hne hmode hs hsave

theorem listAdvertisedFormats (hm : rq.method = "list-advertised-formats") :
    Serves env sup rq (listAdvertisedFormats env rq.params sup) := by
  refine afterParam (fun nm hp => ?_)
  split
  next => exact refused _
  next =>
    split
    next => exact refused _
    next => exact afterParam (fun formats _ => answered (by simp [hm]) _)
    next => exact refused _

theorem probeCamera (hm : rq.method = "probe-camera") :
    Serves env sup rq (probeCamera rq.params sup) := by
  refine afterParam (fun nm hp => ?_)
  split
  next => exact refused _
  next =>
    exact unchanged _ _ (fun e he => ⟨nm,
      List.mem_singleton.mp he⟩) (fun _ => by simp [hm])

theorem setStreamEnabled (hm : rq.method = "set-stream-enabled") :
    Serves env sup rq (setStreamEnabled env rq.params sup) := by
  refine afterParam (fun nm hp => ?_)
  by_cases hne : nm = ""
  · rw [if_pos hne]
    exact refused _
  · rw [if_neg hne]
    split
    next => exact refused _
    next want henabled =>
      have hwant : rq.params.find? "enabled" = some (.boolean want) := by
        obtain ⟨v, hv, hbool⟩ := Option.bind_eq_some_iff.mp henabled
        rw [hv, Json.boolean?_eq_some.mp hbool]
      split
      next => exact refused _
      next i s hs =>
        split
        next => exact refused _
        next flag file hsave => exact enabledSet hm hp hne hwant hs hsave

theorem setViewerCredentials (hm : rq.method = "set-viewer-credentials") :
    Serves env sup rq (setViewerCredentials env rq.params sup) := by
  refine afterParam (fun user hu => afterParam (fun pass hp => ?_))
  split
  next => exact refused _
  next hne =>
    obtain ⟨hu0, hp0⟩ := not_or.mp hne
    dsimp only
    split
    next what hsave =>
      have hex : env.settingsOps.existsThrows ≠ none := fun h => by
        simp [saveSettings, h] at hsave
      exact credentialsUnsaved _ hm hu hu0 hp hp0 (.inl hex) rfl
    next file hsave =>
      have hw : env.settingsOps.write = .openFailed := by
        simpa using (saveSettings_eq_ok.mp hsave).2.1
      exact credentialsUnsaved _ hm hu hu0 hp hp0 (.inr hw) rfl
    next file hsave =>
      split
      next yml hyml =>
        exact credentialsUnwritten _ hm hu hu0 hp hp0 hsave
          (of_writeRuntimeYml_eq_false hyml) rfl
      next yml hyml => exact credentialsSet hm hu hu0 hp hp0 hsave hyml rfl

theorem reloadSettings (hm : rq.method = "reload-settings") :
    Serves env sup rq (reloadSettings env sup) := by
  unfold WebcamStreamer.reloadSettings
  split
  next => exact refused _
  next fresh hload => exact settingsReloaded hm hload

end Serves

/-- **Every request has one of the outcomes.** The cases of the outcome are
proved from the handlers once, here, and what comes later is by cases on the
outcome. -/
theorem serves_handle (env : Env) (rq : IpcRequest) (sup : Supervisor) :
    Serves env sup rq (handle env rq sup) := by
  unfold handle
  repeat' split
  next hm => exact .answered (by simp [hm]) _
  next hm => exact .answered (by simp [hm]) _
  next hm => exact .restartCamera hm
  next hm => exact .setMode hm
  next hm => exact .listAdvertisedFormats hm
  next hm => exact .probeCamera hm
  next hm => exact .setStreamEnabled hm
  next hm => exact .setViewerCredentials hm
  next hm => exact .reloadSettings hm
  next hm => exact .shutdown hm
  next => exact .refused _

end WebcamStreamer
