import WebcamStreamer.RequestLoop
import WebcamStreamer.Restore
import WebcamStreamer.RowNotifications

/-!
# What the user does to a camera

In the row of a camera the user picks a resolution or a mode, or presses one of
its two buttons. The window itself changes nothing then. It sends a request, the
supervisor changes the camera and publishes it, and the event sets the row – so
that what was picked makes the whole way round, while other events may arrive
and other requests be served.

An event that sets a row also moves the selection of the two dropdowns, and it
is a moved selection that sends a request. The handlers compare it with the row
before they send anything, and the event has set the row by then.
-/

namespace WebcamStreamer

/-! ## The window

A row offers four actions, and each of them sends one request or none. A pick
that repeats what the row shows sends nothing, since the program itself sets
the selection when a row is updated. -/

/-- `record ModeOption`. -/
structure ModeOption where
  display : String
  value : String

/-- `Modes.All`. -/
def Modes.all : List ModeOption :=
  [⟨"transcode MJPEG->H.264", "transcode_mjpeg_to_h264"⟩,
    ⟨"transcode RAW->H.264", "transcode_raw_to_h264"⟩]

/-- The method and the parameters of a call. -/
abbrev UiRequest := String × Json String

/-- `ResolutionCombo_SelectionChanged`. -/
def resolutionPicked (row : Row) (picked : String) : Option UiRequest :=
  if picked = "" ∨ picked = row.resolution then none
  else
    match picked.toList.splitOn 'x' with
    | [w, h] => do
      let width ← parseInt w
      let height ← parseInt h
      return ("set-mode", .object [("name", .string (row.get .name)),
        ("mode", .string (row.get .mode)), ("width", .integer width),
        ("height", .integer height)])
    | _ => none

/-- `ModeCombo_SelectionChanged`. -/
def modePicked (row : Row) (picked : ModeOption) : Option UiRequest :=
  if picked.value = "" ∨ picked.value = row.get .mode then none
  else some ("set-mode",
    .object [("name", .string (row.get .name)), ("mode", .string picked.value)])

/-- `EnableToggle_Click`. -/
def enableToggled (row : Row) : UiRequest :=
  ("set-stream-enabled",
    .object [("name", .string (row.get .name)),
      ("enabled", .boolean (!row.get .enabled))])

/-- `Restart_Click`. -/
def restartClicked (row : Row) : UiRequest :=
  ("restart-camera", .object [("name", .string (row.get .name))])

/-- The publisher is a fresh one with the command for the configuration as it
is now. The operating system was asked for its process – unless shutdown had
begun – and the process is the one that was created, if one was. -/
structure CamSlot.Republished (ffExe : String) (stop : Bool) (o : StartOutcome)
    (s : CamSlot) : Prop where
  command : s.proc.cfg = makeFFmpegProcessConfig ffExe s.cfg
  child : s.proc.child
    = if stop = true then none else o.created.map (fun pid => ⟨pid, .alive⟩)
  viewers : s.viewerCount = 0

/-- A slot that is stopped, rebuilt and started has a fresh publisher. -/
theorem CamSlot.republished_restart (ffExe : String) (stop : Bool)
    (o : StartOutcome) (s : CamSlot) :
    ((s.restart ffExe stop o).noteRunning).Republished ffExe stop o where
  command := by cases stop <;> rfl
  child := s.child_restart ffExe stop o
  viewers := rfl

/-- What the user can do in a row. -/
inductive RowAction where
  | pickResolution (picked : String)
  | pickMode (picked : ModeOption)
  | toggle
  | restart

namespace RowAction

/-- What the window sends, if anything. -/
def request (row : Row) : RowAction → Option UiRequest
  | pickResolution picked => resolutionPicked row picked
  | pickMode picked => modePicked row picked
  | toggle => some (enableToggled row)
  | restart => some (restartClicked row)

/-- What the row offers. -/
def Offered (row : Row) : RowAction → Prop
  | pickResolution picked =>
    ∃ shown, (rowInfo row.stored).shownResolutions = some shown ∧ picked ∈ shown
  | pickMode picked => picked ∈ Modes.all
  | toggle | restart => True

/-- A configuration that was `before` and is `cfg` is what the user asked for;
a restart asks for the one there is. -/
def Met (row : Row) (before cfg : CameraConfig) : RowAction → Prop
  | pickResolution picked => sizeText (cfg.width, cfg.height) = picked
  | pickMode picked => modeName cfg.mode = picked.value
  | toggle => cfg.enabled = !row.get .enabled
  | restart => cfg = before

/-- What becomes of the publisher of the slot `s`, which is `s'` now. A picked
size or mode needs a fresh publisher, and so does a restart; a camera that is
switched on gets one if it is plugged in, and one that is switched off has no
publisher any more. -/
def Publishes (row : Row) (ffExe : String) (stop : Bool) (o : StartOutcome)
    (s s' : CamSlot) : RowAction → Prop
  | toggle =>
    if row.get .enabled = true then s'.proc.child = none
    else if s.present = true then s'.Republished ffExe stop o
    else s'.proc = s.proc
  | pickResolution _ | pickMode _ | restart => s'.Republished ffExe stop o

/-- A row shows what the user asked for, and the selection that goes with it
sends nothing. -/
def Shown (row row' : Row) : RowAction → Prop
  | pickResolution picked =>
    row'.seen (.field .resolution) = picked ∧
      resolutionPicked row' picked = none
  | pickMode picked =>
    row'.seen (.field (.property .mode)) = picked.value ∧
      modePicked row' picked = none
  | toggle => row'.seen (.field (.property .enabled)) = !row.get .enabled
  | restart => row'.seen (.field (.property .viewerCount)) = (0 : ℤ)

end RowAction

/-- The document that `CallAsync` sends. -/
def callDocument (id : ℤ) (rq : UiRequest) : Json String :=
  .object [("type", .string "req"), ("id", .integer id),
    ("method", .string rq.1),
    ("params", rq.2)]

/-- The request that comes out of it. -/
def callRequest (id : ℤ) (rq : UiRequest) : IpcRequest where
  id := int32OfInteger id
  method := rq.1
  params := rq.2

/-- The request loop reads what was sent. -/
theorem readRequest_callDocument (id : ℤ) (rq : UiRequest) :
    readRequest (callDocument id rq) = .ok (callRequest id rq) := rfl

/-! ## What is picked is what is sent

The resolution is sent as two numbers that are parsed from the text in the
dropdown. Every text that the dropdown can show is made from two numbers, so
that these are the ones that were picked. -/

theorem splitOn_sizeText (size : ℤ × ℤ) :
    (sizeText size).toList.splitOn 'x' = [(toString size.1).toList,
      (toString size.2).toList] := by
  have hx : ∀ n : ℤ, 'x' ∉ (toString n).toList := fun n hmem =>
    absurd (isDigit_of_mem_toString hmem) (by decide)
  have htext : (sizeText size).toList
      = (toString size.1).toList ++ 'x' :: (toString size.2).toList := by
    simp [sizeText]
  rw [htext, List.splitOn_append_cons_self_of_not_mem (hx _),
    List.splitOn_eq_singleton (hx _)]

/-- A size of positive numbers, each of them an `int`. -/
structure ProperSize (size : ℤ × ℤ) : Prop where
  width : 0 < size.1 ∧ IsInt32 size.1
  height : 0 < size.2 ∧ IsInt32 size.2

/-- What the dropdown shows is a size, whether it comes from the formats or from
the fixed list. -/
theorem properSize_of_mem {row : CameraInfo} {shown : List String}
    {picked : String}
    (h : row.shownResolutions = some shown) (hmem : picked ∈ shown)
    (hformats : ∀ f ∈ row.advertisedFormats, ProperSize f.size) :
    ∃ size, picked = sizeText size ∧ ProperSize size := by
  -- without a listing the dropdown has the sizes of the source in it
  have hall : picked ∈ Resolutions.all → ∃ size,
      picked = sizeText size ∧ ProperSize size := by
    have hsize : ∀ w h : ℤ, 0 < w → 0 < h → w < 2 ^ 31 → h < 2 ^ 31 →
        ProperSize (w, h) :=
      fun w h hw hh hw' hh' => ⟨⟨hw, by rw [IsInt32]; omega⟩,
        ⟨hh, by rw [IsInt32]; omega⟩⟩
    intro hin
    simp only [Resolutions.all, List.mem_cons, List.not_mem_nil,
      or_false] at hin
    rcases hin with rfl | rfl | rfl | rfl | rfl | rfl
    · exact ⟨(320, 240),
        by decide, hsize _ _ (by decide) (by decide) (by decide) (by decide)⟩
    · exact ⟨(640, 360),
        by decide, hsize _ _ (by decide) (by decide) (by decide) (by decide)⟩
    · exact ⟨(640, 480),
        by decide, hsize _ _ (by decide) (by decide) (by decide) (by decide)⟩
    · exact ⟨(960, 540),
        by decide, hsize _ _ (by decide) (by decide) (by decide) (by decide)⟩
    · exact ⟨(1280, 720),
        by decide, hsize _ _ (by decide) (by decide) (by decide) (by decide)⟩
    · exact ⟨(1920, 1080),
        by decide, hsize _ _ (by decide) (by decide) (by decide) (by decide)⟩
  by_cases hnone : row.advertisedFormats = []
  · rw [CameraInfo.shownResolutions, CameraInfo.availableResolutions,
      if_pos hnone] at h
    obtain rfl := Option.some.inj h
    exact hall hmem
  · have hfit : row.SizesFit :=
      fun f hf => ⟨(hformats f hf).width.2, (hformats f hf).height.2⟩
    rw [CameraInfo.shownResolutions_eq hfit hnone] at h
    obtain rfl := Option.some.inj h
    split at hmem
    next => exact hall hmem
    next =>
      obtain ⟨size, hsize, rfl⟩ := List.mem_map.mp hmem
      obtain ⟨f, hf, -, rfl⟩ :=
        CameraInfo.mem_selectedSizes.mp (StableSort.mem_orderBy.mp hsize)
      exact ⟨f.size, rfl, hformats f hf⟩

/-- A size that the row does not show yet is sent as two numbers. -/
theorem resolutionPicked_sizeText {row : Row} {size : ℤ × ℤ}
    (hsize : ProperSize size) :
    resolutionPicked row (sizeText size)
      = if sizeText size = row.resolution then none
        else some ("set-mode", .object [("name", .string (row.get .name)),
          ("mode", .string (row.get .mode)), ("width", .integer size.1),
          ("height", .integer size.2)]) := by
  have hne : sizeText size ≠ "" := by
    intro h
    have hparts : ("".toList.splitOn 'x').length = 2 := by
      rw [← h, splitOn_sizeText]
      rfl
    exact absurd hparts (by decide)
  rw [resolutionPicked, splitOn_sizeText]
  refine if_congr (or_iff_right hne) rfl ?_
  show ((parseInt _).bind fun w => (parseInt _).bind fun h => some _) = _
  rw [parseInt_toString hsize.width.2, parseInt_toString hsize.height.2]
  rfl

/-! ## What the request does

The request is followed through its handler: it finds the slot, stores an
override, changes the configuration and restarts the publisher. The outcomes
in which it is refused, or in which a write fails, are kept apart. -/

/-- A request for the slot `s` at position `i` was served: the slot is `s'` now,
its configuration and its override file have the fields of `upd`, and its state
was published. -/
structure Applied (sup : Supervisor) (i : ℕ) (s : CamSlot)
    (upd : CameraOverride)
    (s' : CamSlot) (served : Served) : Prop where
  ok : served.response.ok = true
  published : served.events = [.cameraStateChanged (sup.camJson s')]
  slot : served.sup.slots[i]? = some s'.noteRunning
  cfg : s'.cfg = s.cfg.overlay upd
  stored : storedOverride (served.sup.disk.override s.cfg.friendlyName)
    = (storedOverride (sup.disk.override s.cfg.friendlyName)).overlay upd

section Requests

variable {env : Env} {sup : Supervisor} {rq : IpcRequest} {name : String}
  {i : ℕ} {s : CamSlot}

/-- A slot that was changed is where it was found. -/
theorem slots_slotChanged (disk : Disk) {s' : CamSlot} (result : IpcResult)
    (hs : sup.findByName name = some (i, s)) :
    (Served.slotChanged { sup with disk } i s' result).sup.slots[i]?
      = some s'.noteRunning := by
  show (sup.slots.set i s'.noteRunning)[i]? = _
  have hlt := (List.getElem?_eq_some_iff.mp (Supervisor.findByName_some hs).1).1
  rw [List.getElem?_set_self hlt]

theorem applied_setMode {parsed : Mode} {upd : CameraOverride}
    (hm : rq.method = "set-mode")
    (hp : setModeParams rq.params = .ok (name, parsed, upd)) (hne : name ≠ "")
    (hline : Storable name) (hmode : parsed ≠ .unknown)
    (hs : sup.findByName name = some (i, s))
    (hops : (env.overrideOps i).Succeeds) :
    Applied sup i s upd
      ({ s with
        cfg := s.cfg.update upd }.restart sup.ffExe sup.stop (env.starts i))
      (handle env rq sup) := by
  obtain ⟨hvalid, henabled⟩ := valid_setModeParams hp hmode
  obtain ⟨t, hsave, hstored⟩ :=
    saveOverride_of_succeeds hops (sup.disk.override name) hvalid hline
  rw [handle_setMode hm hp hne hmode hs, hsave]
  refine ⟨rfl, rfl, slots_slotChanged _ _ hs, ?_, ?_⟩
  · show s.cfg.update upd
      = { s.cfg.update upd with enabled := upd.enabled.getD s.cfg.enabled }
    rw [henabled]
    rfl
  · rw [(Supervisor.findByName_some hs).2]
    show storedOverride ((sup.disk.withOverride name (some t)).override name)
      = _
    rw [Disk.override_withOverride_of_eq _ rfl, hstored]

theorem applied_setStreamEnabled {want : Bool}
    (hm : rq.method = "set-stream-enabled")
    (hp : rq.params.valueString "name" = .ok name) (hne : name ≠ "")
    (hline : Storable name)
    (hwant : rq.params.find? "enabled" = some (.boolean want))
    (hs : sup.findByName name = some (i, s))
    (hops : (env.overrideOps i).Succeeds) :
    Applied sup i s { enabled := some want }
      (s.enable sup.ffExe sup.stop (env.starts i) want)
        (handle env rq sup) := by
  have hvalid : CameraOverride.Valid { enabled := some want } :=
    { CameraOverride.valid_empty with }
  obtain ⟨t, hsave, hstored⟩ :=
    saveOverride_of_succeeds hops (sup.disk.override name) hvalid hline
  rw [handle_setStreamEnabled hm hp hne hwant hs, hsave]
  refine ⟨rfl, rfl, slots_slotChanged _ _ hs, ?_, ?_⟩
  · rcases s.enable_cases sup.ffExe sup.stop (env.starts i) want with
      ⟨-, -, he⟩ | ⟨-, -, he⟩ | ⟨-, he⟩
    · rw [he]
      rfl
    · rw [he]
      rfl
    · rw [he]
      rfl
  · rw [(Supervisor.findByName_some hs).2]
    show storedOverride ((sup.disk.withOverride name (some t)).override name)
      = _
    rw [Disk.override_withOverride_of_eq _ rfl, hstored]

/-- A restart changes neither the configuration nor any file. -/
theorem applied_restartCamera (hm : rq.method = "restart-camera")
    (hp : rq.params.valueString "name" = .ok name) (hne : name ≠ "")
    (hs : sup.findByName name = some (i, s)) :
    Applied sup i s {} (s.restart sup.ffExe sup.stop (env.starts i))
        (handle env rq sup) ∧
      (handle env rq sup).sup.disk = sup.disk := by
  rw [handle_restartCamera hm hp hne hs]
  refine ⟨⟨rfl, rfl, slots_slotChanged sup.disk _ hs, rfl, ?_⟩, rfl⟩
  show storedOverride (sup.disk.override s.cfg.friendlyName) = _
  simp [CameraOverride.overlay]

end Requests

/-! ## The modes there are

A camera never has a mode without a name, whatever its files said, so that
what a row shows of it can be sent back. -/

/-- A camera is resolved to one of the two modes that are offered. -/
theorem mode_resolveCameraConfig {ops : FileOps} {disk : Disk}
    {db : KnownCameraDb}
    {defaultEnabled : Bool} {device : CameraDevice}
    {formats : List AdvertisedFormat}
    {cc cfg : CameraConfig}
    (h : resolveCameraConfig ops disk db defaultEnabled device formats cc
      = .ok cfg) :
    cfg.mode = .transcodeMjpegToH264 ∨ cfg.mode = .transcodeRawToH264 := by
  have hcoerced : ∀ m, coerceMode m = .transcodeMjpegToH264 ∨
      coerceMode m = .transcodeRawToH264 := fun m => by cases m <;> decide
  unfold resolveCameraConfig at h
  split at h
  next => cases h
  next =>
    obtain rfl := Except.ok.inj h
    exact hcoerced _

/-- Every camera has a mode that has a name. -/
def ModesKnown (sup : Supervisor) : Prop :=
  ∀ s ∈ sup.slots, s.cfg.mode ≠ .unknown

theorem mode_startIfEnabled_ne {ffExe : String} {device : CameraDevice}
    {formats : List AdvertisedFormat} {cfg : CameraConfig} {stop : Bool}
    {o : StartOutcome}
    (h : cfg.mode = .transcodeMjpegToH264 ∨ cfg.mode = .transcodeRawToH264) :
    ((newSlot ffExe device formats cfg).startIfEnabled stop o).cfg.mode
      ≠ .unknown := by
  rw [CamSlot.cfg_startIfEnabled]
  show cfg.mode ≠ .unknown
  rcases h with h | h
  · rw [h]
    exact Mode.noConfusion
  · rw [h]
    exact Mode.noConfusion

theorem SlotMove.mode_ne {sup : Supervisor} {st : Step} {i : ℕ} {s s' : CamSlot}
    (hm : SlotMove sup st i s s') (h : s.cfg.mode ≠ .unknown) :
    s'.cfg.mode ≠ .unknown := by
  cases hm with
  | modeThrown ha hm hp hne hmode =>
    obtain ⟨width, height, fps, -, -, -, rfl⟩ := setModeParams_eq_ok hp
    exact hmode
  | modeSet ha hm hp hne hmode =>
    obtain ⟨width, height, fps, -, -, -, rfl⟩ := setModeParams_eq_ok hp
    exact hmode
  | @enabledSet rq nm want =>
    rcases s.enable_cases sup.ffExe sup.stop (st.env.starts i) want with
      ⟨-, -, he⟩ | ⟨-, -, he⟩ | ⟨-, he⟩
    · rw [he]
      exact h
    · rw [he]
      exact h
    · rw [he]
      exact h
  | ticked =>
    show (s.tick _ _ _).1.cfg.mode ≠ _
    rwa [CamSlot.cfg_tick]
  | diffed =>
    show (s.diffPresence _ _ _ _).1.cfg.mode ≠ _
    rwa [CamSlot.cfg_diffPresence]
  | _ => exact h

theorem modesKnown_startUp {b : Boot} {sup : Supervisor}
    (h : startUp b = .ok sup) :
    ModesKnown sup := by
  obtain ⟨settings, file, yml, slots, -, -, hslots, rfl⟩ := startUp_spec h
  intro s hs
  obtain ⟨k, hk⟩ := List.mem_iff_getElem?.mp hs
  obtain ⟨device, formats, cfg, -, hcfg, rfl⟩ := bootSlots_get hslots hk
  exact mode_startIfEnabled_ne (mode_resolveCameraConfig hcfg)

theorem ModesKnown.step {sup sup' : Supervisor} {st : Step} (h : ModesKnown sup)
    (hnext : next sup st = some sup') : ModesKnown sup' := by
  obtain ⟨out, hout, rfl⟩ := Option.map_eq_some_iff.mp hnext
  rcases step_added hout with hlen | ⟨newFormats, newDevices, listChanged,
    -, -, hgrown⟩
  · intro y hy
    obtain ⟨k, hk⟩ := List.mem_iff_getElem?.mp hy
    obtain ⟨x, hx, hmove⟩ := slot_of_step hout hlen hk
    exact hmove.mode_ne (h x (List.mem_of_getElem? hx))
  · exact hgrown.forall_mem h (fun _ _ _ _ _ _ _ hcfg =>
      mode_startIfEnabled_ne (mode_resolveCameraConfig hcfg))

theorem modesKnown_bootRun {b : Boot} {steps : List Step} {sup : Supervisor}
    (h : bootRun b steps = some sup) : ModesKnown sup := by
  obtain ⟨sup₀, hstart, hrun⟩ := bootRun_eq_some.mp h
  exact Runs.run_invariant_of_forall ModesKnown
    (fun _ _ _ ht hnext => ht.step hnext)
    (modesKnown_startUp hstart) hrun

/-! ## The whole way round

What it means for an action to be carried out is said in terms of the slot,
its publisher, its override file and what the row shows afterwards, and not in
terms of the handler. -/

/-- **The action is carried out.** The request is granted. The camera it is
about has the configuration the user asked for and the publisher that goes with
it, and the next start of the supervisor reads that configuration too. The
event that was published makes the row show it, whatever the row has been
through. -/
structure CarriedOut (action : RowAction) (row : Row) (env : Env)
    (sup : Supervisor)
    (served : Served) : Prop where
  granted : served.response.ok = true
  running : ∃ i s s', sup.findByName (row.get .name) = some (i, s) ∧
    served.sup.slots[i]? = some s' ∧ s'.cfg.friendlyName = row.get .name ∧
    action.Met row s.cfg s'.cfg ∧
    action.Publishes row sup.ffExe sup.stop (env.starts i) s s'
  stored : ∀ {ops : FileOps} {db : KnownCameraDb} {defaultEnabled : Bool}
    {device : CameraDevice} {formats : List AdvertisedFormat}
      {cc before cfg : CameraConfig},
    ops.Succeeds → device.friendlyName = row.get .name →
    resolveCameraConfig ops sup.disk db defaultEnabled device formats cc
        = .ok before →
    resolveCameraConfig ops served.sup.disk db defaultEnabled device formats cc
        = .ok cfg →
      action.Met row before cfg
  shown : ∃ cam, served.events = [.cameraStateChanged cam] ∧
    cam.name = row.get .name ∧
    (cam.Fits → ∀ els, action.Shown row (rowAfter (els ++ [cam.toJson])))

/-- The fields of an update are what the user asked for. -/
def RowAction.Asks (row : Row) (upd : CameraOverride) : RowAction → Prop
  | pickResolution picked => ∃ size, picked = sizeText size ∧ ProperSize size ∧
    upd.width = some size.1 ∧ upd.height = some size.2
  | pickMode picked => ∃ mode, upd.mode = some mode ∧ coerceMode mode = mode ∧
    modeName mode = picked.value
  | toggle => upd.enabled = some (!row.get .enabled)
  | restart => upd = {}

namespace RowAction

variable {action : RowAction} {row : Row} {upd : CameraOverride}

/-- A configuration with the fields of the update is what was asked for. -/
theorem Asks.met (h : action.Asks row upd) (cfg : CameraConfig) :
    action.Met row cfg (cfg.overlay upd) := by
  cases action with
  | pickResolution picked =>
    obtain ⟨size, rfl, -, hwidth, hheight⟩ := h
    show sizeText (upd.width.getD cfg.width, upd.height.getD cfg.height) = _
    rw [hwidth, hheight]
    rfl
  | pickMode picked =>
    obtain ⟨mode, hmode, -, hname⟩ := h
    show modeName (upd.mode.getD cfg.mode) = _
    rw [hmode]
    exact hname
  | toggle =>
    show upd.enabled.getD cfg.enabled = _
    rw [show upd.enabled = _ from h]
    rfl
  | restart =>
    rw [show upd = {} from h]
    rfl

/-- An override file with the fields of the update resolves to what was asked
for. -/
theorem Asks.met_of_restores (h : action.Asks row upd) {ov : CameraOverride}
    {pick : DefaultPick} {defaultEnabled : Bool} {before cfg : CameraConfig}
    (hcfg : coerceMode cfg.mode = cfg.mode)
    (hrestores : Restores (ov.overlay upd) pick defaultEnabled cfg)
    (hrestart : action = .restart → cfg = before) :
    action.Met row before cfg := by
  cases action with
  | pickResolution picked =>
    obtain ⟨size, rfl, -, hwidth, hheight⟩ := h
    have hw : cfg.width = size.1 := by
      rw [← hrestores.width]
      simp [CameraOverride.overlay, hwidth]
    have hh : cfg.height = size.2 := by
      rw [← hrestores.height]
      simp [CameraOverride.overlay, hheight]
    show sizeText (cfg.width, cfg.height) = _
    rw [hw, hh]
  | pickMode picked =>
    obtain ⟨mode, hmode, hcoerced, hname⟩ := h
    have hm : cfg.mode = mode := by
      rw [← hcfg, ← hrestores.mode]
      simp [CameraOverride.overlay, hmode, hcoerced]
    show modeName cfg.mode = _
    rw [hm, hname]
  | toggle =>
    show cfg.enabled = _
    rw [← hrestores.enabled]
    simp [CameraOverride.overlay, show upd.enabled = _ from h]
  | restart => exact hrestart rfl

end RowAction

/-- The row of a camera, after an object of the camera. -/
theorem shown_of_asks {action : RowAction} {row : Row} {upd : CameraOverride}
    {sup : Supervisor}
    {s s' : CamSlot} (h : action.Asks row upd)
    (hcfg : s'.cfg = s.cfg.overlay upd)
    (hrestart : action = .restart → s'.viewerCount = 0)
    (hfits : (sup.camJson s').Fits)
    (els : List (Json String)) :
    action.Shown row (rowAfter (els ++ [(sup.camJson s').toJson])) := by
  -- the last object has every member, so that what came before it is not seen
  -- any more
  have hget : ∀ p, Row.get (rowAfter (els ++ [(sup.camJson s').toJson])) p
      = p.ofCam (sup.camJson s') := by
    rw [rowAfter, List.foldl_append]
    exact (get_updateRow_toJson hfits (rowAfter els)).2
  have hseen := fresh_rowAfter (els ++ [(sup.camJson s').toJson])
  cases action with
  | pickResolution picked =>
    obtain ⟨size, rfl, hsize, hwidth, hheight⟩ := h
    have hres : (rowAfter (els ++ [(sup.camJson s').toJson])).resolution
        = sizeText size := by
      have hstored : Row.size (rowAfter (els ++ [(sup.camJson s').toJson]))
          = size := by
        rw [Row.size, hget, hget]
        show (s'.cfg.width, s'.cfg.height) = size
        rw [hcfg]
        show (upd.width.getD s.cfg.width, upd.height.getD s.cfg.height) = size
        rw [hwidth, hheight]
        rfl
      -- the column would be empty for a size that was never set, and this one
      -- is positive
      rcases sizeShown_rowAfter (els ++ [(sup.camJson s').toJson]) with hshown
        | ⟨-, hzero⟩
      · rw [hshown, hstored]
      · rw [hstored] at hzero
        have hpos := hsize.width.1
        rw [hzero] at hpos
        exact absurd hpos (lt_irrefl 0)
    refine ⟨(hseen _).trans hres, ?_⟩
    rw [resolutionPicked_sizeText hsize, if_pos hres.symm]
  | pickMode picked =>
    obtain ⟨mode, hmode, -, hname⟩ := h
    have hshown : Row.get (rowAfter (els ++ [(sup.camJson s').toJson])) .mode
        = picked.value := by
      rw [hget]
      show modeName s'.cfg.mode = _
      rw [hcfg]
      show modeName (upd.mode.getD s.cfg.mode) = _
      rw [hmode]
      exact hname
    exact ⟨(hseen _).trans hshown, if_pos (.inr hshown.symm)⟩
  | toggle =>
    refine (hseen _).trans ((hget .enabled).trans ?_)
    show s'.cfg.enabled = _
    rw [hcfg]
    show upd.enabled.getD s.cfg.enabled = _
    rw [show upd.enabled = _ from h]
    rfl
  | restart =>
    refine (hseen _).trans ((hget .viewerCount).trans ?_)
    show ((s'.viewerCount : ℕ) : ℤ) = 0
    rw [hrestart rfl]
    rfl

/-- A request that was served is carried out, if its update is what was asked
for and the publisher is the one that goes with it. -/
theorem Applied.carriedOut {action : RowAction} {row : Row}
    {upd : CameraOverride}
    {env : Env} {sup : Supervisor} {i : ℕ} {s s' : CamSlot} {served : Served}
    (h : Applied sup i s upd s' served)
    (hs : sup.findByName (row.get .name) = some (i, s))
    (hasks : action.Asks row upd)
    (hpublishes :
      action.Publishes row sup.ffExe sup.stop (env.starts i) s s'.noteRunning)
    (hrestart : action = .restart →
      s'.viewerCount = 0 ∧ served.sup.disk = sup.disk) :
    CarriedOut action row env sup served := by
  have hfound : s.cfg.friendlyName = row.get .name :=
    (Supervisor.findByName_some hs).2
  have hname : s'.cfg.friendlyName = row.get .name := by
    rw [h.cfg]
    exact hfound
  refine ⟨h.ok, ⟨i, s, _, hs, h.slot, hname, ?_, hpublishes⟩, ?_, _,
    h.published, hname, ?_⟩
  · show action.Met row s.cfg s'.cfg
    rw [h.cfg]
    exact hasks.met s.cfg
  · intro ops db defaultEnabled device formats cc before cfg hops hdevice
      hbefore hresolve
    obtain ⟨hcoerced, hrestores⟩ := restores_resolveCameraConfig hops hresolve
    rw [hdevice, ← hfound, h.stored] at hrestores
    refine hasks.met_of_restores hcoerced hrestores (fun ha => ?_)
    rw [(hrestart ha).2, hbefore] at hresolve
    exact (Except.ok.inj hresolve).symm
  · exact fun hfits els =>
      shown_of_asks hasks h.cfg (fun ha => (hrestart ha).1) hfits els

/-! ## From the row to the row

The pieces are put together for a row that was reported some time ago. In the
meantime the supervisor has gone on, and the action is carried out on the
camera as it is now. -/

/-- Every mode that is offered has a name, and stays when a camera is
resolved. -/
theorem mode_of_mem_all {picked : ModeOption} (h : picked ∈ Modes.all) :
    ∃ mode, modeFromString picked.value = mode ∧ mode ≠ .unknown ∧
      coerceMode mode = mode ∧
      modeName mode = picked.value := by
  simp only [Modes.all, List.mem_cons, List.not_mem_nil, or_false] at h
  rcases h with rfl | rfl
  · exact ⟨.transcodeMjpegToH264, by decide⟩
  · exact ⟨.transcodeRawToH264, by decide⟩

/-- What `set-stream-enabled` does to the publisher. -/
theorem publishes_enable (row : Row) (ffExe : String) (stop : Bool)
    (o : StartOutcome)
    (s : CamSlot) :
    RowAction.toggle.Publishes row ffExe stop o s
      (s.enable ffExe stop o (!row.get .enabled)).noteRunning := by
  cases hold : (row.get .enabled : Bool) with
  | true => exact (if_pos hold).mpr rfl
  | false =>
    refine (if_neg (by rw [hold]; decide)).mpr ?_
    rcases s.enable_cases ffExe stop o (!false) with
      ⟨-, hp, he⟩ | ⟨-, hp, he⟩ | ⟨hfalse, -⟩
    · rw [if_pos hp, he]
      exact CamSlot.republished_restart _ _ _ _
    · rw [if_neg (by rw [hp]; decide), he]
      rfl
    · cases hfalse

section Actions

variable {env : Env} {sup : Supervisor} {row : Row} {i : ℕ} {s : CamSlot}

/-- What the row offers, and what the window sends for it, is carried out by a
supervisor that has a camera of that name. -/
theorem carriedOut_of_request {action : RowAction} {rq : UiRequest} (id : ℤ)
    (hoffered : action.Offered row) (hrq : action.request row = some rq)
    (hformats : ∀ f ∈ row.get .advertisedFormats, ProperSize f.size)
    (hne : row.get .name ≠ "") (hline : Storable (row.get .name))
    (hmode : modeFromString (row.get .mode) ≠ .unknown)
    (hs : sup.findByName (row.get .name) = some (i, s))
    (hops : (env.overrideOps i).Succeeds) :
    CarriedOut action row env sup (handle env (callRequest id rq) sup) := by
  cases action with
  -- the text that was picked is read back as a size, which the handler takes
  -- since it is positive and an `int`
  | pickResolution picked =>
    obtain ⟨shown, hshown, hmem⟩ := hoffered
    obtain ⟨size, rfl, hsize⟩ := properSize_of_mem hshown hmem hformats
    rw [RowAction.request, resolutionPicked_sizeText hsize] at hrq
    split at hrq
    next => cases hrq
    next =>
      obtain rfl := Option.some.inj hrq
      -- both numbers come through the conversion to `int` unchanged
      have hwidth : positive (int32OfInteger size.1) = some size.1 := by
        rw [int32OfInteger_eq_self_iff.mpr hsize.width.2]
        exact if_pos hsize.width.1
      have hheight : positive (int32OfInteger size.2) = some size.2 := by
        rw [int32OfInteger_eq_self_iff.mpr hsize.height.2]
        exact if_pos hsize.height.1
      have happlied := @applied_setMode env sup (callRequest id ("set-mode",
        .object [("name", .string (row.get .name)),
          ("mode", .string (row.get .mode)),
          ("width", .integer size.1),
          ("height", .integer size.2)])) _ i s _ _ rfl rfl
        hne hline hmode hs hops
      exact happlied.carriedOut hs ⟨size, rfl, hsize, hwidth, hheight⟩
        (CamSlot.republished_restart _ _ _ _) RowAction.noConfusion
  | pickMode picked =>
    obtain ⟨mode, hmode, hknown, hcoerced, hname⟩ := mode_of_mem_all hoffered
    rw [RowAction.request, modePicked] at hrq
    split at hrq
    next => cases hrq
    next =>
      obtain rfl := Option.some.inj hrq
      have happlied := @applied_setMode env sup (callRequest id ("set-mode",
        .object [("name", .string (row.get .name)),
          ("mode", .string picked.value)])) _ i s
        _ _ rfl rfl hne hline (hmode ▸ hknown) hs hops
      exact happlied.carriedOut hs ⟨mode, congrArg some hmode, hcoerced, hname⟩
        (CamSlot.republished_restart _ _ _ _) RowAction.noConfusion
  | toggle =>
    obtain rfl := Option.some.inj hrq
    have happlied := @applied_setStreamEnabled env sup
      (callRequest id (enableToggled row)) _ i s _ rfl rfl hne hline rfl hs hops
    exact happlied.carriedOut hs rfl
      (publishes_enable _ _ _ _ _) RowAction.noConfusion
  | restart =>
    obtain rfl := Option.some.inj hrq
    obtain ⟨happlied, hdisk⟩ := @applied_restartCamera env sup
      (callRequest id (restartClicked row)) _ i s rfl rfl hne hs
    exact happlied.carriedOut hs rfl (CamSlot.republished_restart _ _ _ _)
      (fun _ => ⟨rfl, hdisk⟩)

end Actions

theorem findSlot_eq_none {p : CamSlot → Bool} {slots : List CamSlot}
    (h : findSlot p slots = none) : ∀ s ∈ slots, p s = false := by
  induction slots with
  | nil => exact fun s hs => absurd hs List.not_mem_nil
  | cons a rest ih =>
    rw [findSlot] at h
    split at h
    next => cases h
    next hp =>
      rw [Option.map_eq_none_iff] at h
      exact List.forall_mem_cons.mpr ⟨Bool.eq_false_iff.mpr hp, ih h⟩

/-- A camera that was found once is found again, or another one of its name:
slots are never removed, and keep their names. -/
theorem exists_findByName {sup sup' : Supervisor} {steps : List Step}
    (h : Runs.run next sup steps = some sup') {s : CamSlot}
    (hs : s ∈ sup.slots) :
    ∃ i s', sup'.findByName s.cfg.friendlyName = some (i, s') := by
  obtain ⟨k, hk⟩ := List.mem_iff_getElem?.mp hs
  obtain ⟨s', hs', hkept⟩ := run_slot h hk
  cases hfound : sup'.findByName s.cfg.friendlyName with
  | some found => exact ⟨found.1, found.2, rfl⟩
  | none =>
    have hno := findSlot_eq_none hfound s' (List.mem_of_getElem? hs')
    rw [hkept.name, beq_self_eq_true] at hno
    cases hno

/-- **What the user does to a camera is carried out.** Take the row of a camera
that the supervisor reported at any time, whatever the row had been through
before, and anything the user does there that sends a request. The request is
read as it was sent, and the supervisor – in the meantime it may have taken any
steps – carries it out: the camera has the configuration that was asked for and
the publisher that goes with it, its next start resolves the same from the
override file, and the event makes the row show it, whatever the row has been
through again; and the selection that the event moves sends nothing.

The cameras are those of what ffmpeg logs, what the row was given fits the
integers of the row (`hfits`), the sizes the camera advertises are positive
(`hsizes`), and the override file can be read and written (`hops`). -/
theorem user_action_is_carried_out {b : Boot} {steps later : List Step}
    {sup sup' : Supervisor}
    (hrun : bootRun b steps = some sup)
    (hlater : Runs.run next sup later = some sup')
    (hcams : Logged (b.cameras.map Prod.fst))
    (hlistings : ∀ st ∈ steps, st.ReadsLog)
    {s : CamSlot} (hs : s ∈ sup.slots) (hfits : (sup.camJson s).Fits)
    (hsizes : ∀ f ∈ s.formats, 0 < f.width ∧ 0 < f.height)
    {els : List (Json String)}
    {row : Row} (hrow : row = rowAfter (els ++ [(sup.camJson s).toJson]))
    {action : RowAction} (hoffered : action.Offered row) {rq : UiRequest}
    (hrq : action.request row = some rq) (id : ℤ) {env : Env}
    (hops : ∀ i, (env.overrideOps i).Succeeds) :
    ∃ received, readRequest (callDocument id rq) = .ok received ∧
      CarriedOut action row env sup' (handle env received sup') := by
  have hget : ∀ p, row.get p = p.ofCam (sup.camJson s) := by
    rw [hrow, rowAfter, List.foldl_append]
    exact (get_updateRow_toJson hfits (rowAfter els)).2
  have hname : row.get .name = s.cfg.friendlyName := hget .name
  -- names come from listings only, and of those it is known that they are on
  -- one line and not empty
  have hnames : NamesSatisfy (fun nm => nm ≠ "" ∧ Storable nm) sup := by
    obtain ⟨sup₀, hboot, hrun⟩ := bootRun_eq_some.mp hrun
    refine Runs.run_invariant _ (fun t st t' ht hst hnext => ht.step hnext ?_)
      (NamesSatisfy.startUp hboot (fun c hc => ?_))
      (Runs.guarded_of_forall_mem
        (fun st hst (_ : Supervisor) => hlistings st hst)) hrun
    · exact fun current ha d hd =>
        ⟨(hst current ha).enumerated.name_ne_empty d hd,
          (hst current ha).storable d hd⟩
    · have hdevice : c.1 ∈ b.cameras.map Prod.fst := List.mem_map_of_mem hc
      exact ⟨hcams.enumerated.name_ne_empty _ hdevice, hcams.storable _ hdevice⟩
  obtain ⟨hne, hline⟩ := hnames.slots s hs
  -- the slot is still there when the request arrives, since slots are never
  -- removed
  obtain ⟨i, s', hfound⟩ := exists_findByName hlater hs
  refine ⟨_, readRequest_callDocument id rq,
    carriedOut_of_request id hoffered hrq ?_ ?_ ?_ ?_
    (by rw [hname]; exact hfound) (hops i)⟩
  · intro f hf
    rw [hget] at hf
    exact ⟨⟨(hsizes f hf).1, (hfits.formats f hf).1⟩,
      ⟨(hsizes f hf).2, (hfits.formats f hf).2⟩⟩
  · rwa [hname]
  · rwa [hname]
  · rw [hget]
    show modeFromString (modeName s.cfg.mode) ≠ _
    rw [modeFromString_modeName]
    exact modesKnown_bootRun hrun s hs

/-- Between the report and the request the loop begins and the publisher
exits. -/
def publisherDies : List Step :=
  [{ action := .beginLoop }, { action := .publisherExit 0 1 }]

/-- What start-up reports of the only camera. -/
def bootedCamera : CamJson where
  name := "Cam"
  path := "/webcam0"
  mode := "transcode_mjpeg_to_h264"
  width := 640
  height := 480
  fps := 30
  running := true
  present := true
  enabled := true
  pid := 2
  restarts := 1
  viewerCount := 0
  advertisedFormats := []
  altName := ""
  vidPid := ""
  viewerUser := "u"
  viewerPass := "p"

theorem user_action_is_carried_out_resolution :
    ∃ sup sup' rq received, bootRun oneCamera [] = some sup ∧
      Runs.run next sup publisherDies = some sup' ∧
      RowAction.request (rowAfter [bootedCamera.toJson])
          (.pickResolution "1280x720") = some rq ∧
      readRequest (callDocument 7 rq) = .ok received ∧
      CarriedOut (.pickResolution "1280x720")
        (rowAfter [bootedCamera.toJson]) {} sup'
        (handle {} received sup') := by
  have hboot : (bootRun oneCamera []).bind (fun sup =>
      (Runs.run next sup publisherDies).map
        (fun _ => sup.allCamsJson)) = some [bootedCamera] := rfl
  obtain ⟨sup, hrun, hlater⟩ := Option.bind_eq_some_iff.mp hboot
  obtain ⟨sup', hlater, hcams⟩ := Option.map_eq_some_iff.mp hlater
  obtain ⟨s, hslots, hcam⟩ := List.map_eq_singleton_iff.mp hcams
  have hfits : bootedCamera.Fits :=
    ⟨by decide, by decide, by decide, by decide, by decide,
      by decide, by decide⟩
  have hformats : s.formats = [] := congrArg CamJson.advertisedFormats hcam
  have hrq : ∃ rq, RowAction.request (rowAfter [bootedCamera.toJson])
      (.pickResolution "1280x720") = some rq := ⟨_, rfl⟩
  obtain ⟨rq, hrq⟩ := hrq
  obtain ⟨received, hread, hdone⟩ :=
    @user_action_is_carried_out oneCamera [] publisherDies _ _
    hrun hlater logged_one (fun st hst => absurd hst List.not_mem_nil) s
    (hslots ▸ List.mem_cons_self) (hcam ▸ hfits) (by simp [hformats]) [] _
      (by rw [hcam]; rfl)
    (.pickResolution "1280x720") ⟨_, rfl,
      by decide⟩ rq hrq 7 {} (fun _ => ⟨rfl, rfl, rfl⟩)
  exact ⟨sup, sup', rq, received, hrun, hlater, hrq, hread, hdone⟩

end WebcamStreamer
