import WebcamStreamer.DefaultPicks
import WebcamStreamer.SlotPaths

/-!
# What a publisher runs

A `SupervisedProcess` keeps the command it was built with and starts that one
again whenever it is restarted. The configuration of its slot changes under it:
`set-mode` replaces the process object after such a change, and
`set-stream-enabled` does not always, since whether a camera is enabled is no
part of the command. The tick, an unplugging and a replugging of a disabled
camera keep the object they find.

As long as no file-system call throws between the change and the replacement,
the two agree, and a client that sees a mode, a size and a rate sees those of
the process.
-/

namespace WebcamStreamer

/-- The publisher's command is the one for the slot's configuration. -/
def CamSlot.CommandCurrent (ffExe : String) (s : CamSlot) : Prop :=
  s.proc.cfg = makeFFmpegProcessConfig ffExe s.cfg

namespace CamSlot

variable {s : CamSlot} {ffExe : String} {stop : Bool} {o : StartOutcome}

@[simp] theorem procCfg_start : (s.start stop o).proc.cfg = s.proc.cfg := by
  cases stop <;> rfl

namespace CommandCurrent

/-- A restart replaces the process object. -/
theorem restart : (s.restart ffExe stop o).CommandCurrent ffExe := procCfg_start

theorem startIfEnabled {device : CameraDevice} {formats : List AdvertisedFormat}
    {cfg : CameraConfig} :
    ((newSlot ffExe device formats cfg).startIfEnabled stop o).CommandCurrent
      ffExe := by
  unfold CamSlot.startIfEnabled
  split
  next => exact procCfg_start
  next => exact rfl

/-- Whether the camera is enabled is no part of its command. -/
theorem enable (h : s.CommandCurrent ffExe) {want : Bool} :
    (s.enable ffExe stop o want).CommandCurrent ffExe := by
  rcases s.enable_cases ffExe stop o want with ⟨-, -, he⟩ | ⟨-, -, he⟩ | ⟨-, he⟩
  · rw [he]
    exact restart
  · rw [he]
    exact h
  · rw [he]
    exact h

/-- The tick starts the object it finds. -/
theorem tick (h : s.CommandCurrent ffExe) {now : Time} :
    (s.tick stop now o).1.CommandCurrent ffExe := by
  have hproc : (s.tick stop now o).1.proc.cfg = s.proc.cfg := by
    unfold CamSlot.tick
    dsimp only
    repeat' split
    all_goals
      simp only [proc_noteRunning, procCfg_start, stopProc,
        SupervisedProcess.cfg_stop]
  unfold CommandCurrent
  rw [hproc, cfg_tick]
  exact h

theorem diffPresence (h : s.CommandCurrent ffExe) {isPresent : Bool} :
    (s.diffPresence ffExe stop o isPresent).1.CommandCurrent ffExe := by
  rcases s.diffPresence_cases ffExe stop o isPresent with
    ⟨-, hd⟩ | ⟨-, -, hd⟩ | ⟨-, -, hd⟩
  · rw [hd]
    exact h
  · rw [hd]
    exact h
  · rw [hd]
    dsimp only
    split
    next => exact procCfg_start
    next => exact h

end CommandCurrent

end CamSlot

/-- No existence test of an override file throws in this step. -/
def Step.OverridesAnswer (st : Step) : Prop :=
  ∀ i, (st.env.overrideOps i).existsThrows = none

/-- **One move** keeps the command current. The held command is compared with
what `BuildFFmpegArgs` makes of the configuration behind the move, and the
hypothesis on the overrides excludes an exception between the change of the
one and that of the other. -/
theorem SlotMove.commandCurrent {sup : Supervisor} {st : Step} {i : ℕ}
    {s s' : CamSlot}
    (hm : SlotMove sup st i s s') (hs : s.CommandCurrent sup.ffExe)
    (hst : st.OverridesAnswer) : s'.CommandCurrent sup.ffExe := by
  cases hm with
  | same => exact hs
  | restarted => exact CamSlot.CommandCurrent.restart
  | modeThrown _ _ _ _ _ _ hops =>
    rw [hst i] at hops
    cases hops
  | modeSet => exact CamSlot.CommandCurrent.restart
  | enabledSet => exact hs.enable
  | counted => exact hs
  | exited => exact (SupervisedProcess.cfg_exit _ _).trans hs
  | noted => exact hs
  | ticked => exact hs.tick
  | diffed => exact hs.diffPresence

/-- Every publisher's command is the one for its slot's configuration. -/
def CommandsCurrent (sup : Supervisor) : Prop :=
  ∀ s ∈ sup.slots, s.CommandCurrent sup.ffExe

theorem commandsCurrent_step {sup sup' : Supervisor} {st : Step}
    (hs : CommandsCurrent sup)
    (hst : st.OverridesAnswer) (h : next sup st = some sup') :
    CommandsCurrent sup' := by
  obtain ⟨out, hout, rfl⟩ := Option.map_eq_some_iff.mp h
  unfold CommandsCurrent
  rw [(fixed_step hout).1]
  exact step_forall_slots hout hs (fun k x y _ hx hm =>
    hm.commandCurrent hx hst)
    (fun _ _ _ _ => .startIfEnabled)

/-- The configuration that a client reads off the description of a camera. -/
def CamJson.config (cam : CamJson) : CameraConfig where
  friendlyName := cam.name
  rtspPath := cam.path
  mode := modeFromString cam.mode
  width := cam.width
  height := cam.height
  fps := cam.fps
  enabled := cam.enabled

/-- The description of a camera is complete as far as its configuration
goes. -/
theorem config_camJson (sup : Supervisor) (s : CamSlot) :
    (sup.camJson s).config = s.cfg := by
  simp [CamJson.config, Supervisor.camJson, camToJson, modeFromString_modeName]

/-- **The arguments carry a configuration** to an address: the options for the
camera, its size and its rate have its values, the options of its mode stand on
both sides of the input, and the last argument is where it publishes. -/
structure CameraConfig.CarriedBy (cam : CameraConfig) (url : String)
    (args : List String) : Prop where
  camera : optionValue "-i" args = some ("video=" ++ cam.friendlyName)
  size : optionValue "-video_size" args
    = some (toString cam.width ++ "x" ++ toString cam.height)
  rate : optionValue "-framerate" args = some (toString cam.fps)
  input : inputFormatArgs cam.mode <:+: inputOptions args
  output : outputCodecArgs cam.mode <:+: args.drop (inputOptions args).length
  target : args.getLast? = some (url ++ cam.rtspPath)

theorem carriedBy_buildFFmpegArgs (cam : CameraConfig) (url : String) :
    cam.CarriedBy url (buildFFmpegArgs cam url) := by
  have hoptions := inputOptions_buildFFmpegArgs cam url
  have hs : ∀ name, IsNumeric name = false →
      toString cam.width ++ "x" ++ toString cam.height ≠ name :=
    fun _ => ne_of_isNumeric (isNumeric_size _ _)
  have hr : ∀ name, IsNumeric name = false → toString cam.fps ≠ name :=
    fun _ => ne_of_isNumeric (isNumeric_toString _)
  have hsize := hs "-framerate" (by decide)
  have hsize' := hs "-i" (by decide)
  have hrate := hr "-i" (by decide)
  refine ⟨?_, ?_, ?_, ?_, ?_, ?_⟩
  · unfold buildFFmpegArgs
    generalize toString cam.width ++ "x" ++ toString cam.height = size at hsize'
    generalize toString cam.fps = rate at hrate
    cases cam.mode <;> simp [inputFormatArgs, optionValue, hsize', hrate]
  · unfold buildFFmpegArgs
    cases cam.mode <;> simp [inputFormatArgs, optionValue]
  · unfold buildFFmpegArgs
    generalize toString cam.width ++ "x" ++ toString cam.height = size at hsize
    cases cam.mode <;> simp [inputFormatArgs, optionValue, hsize]
  · rw [hoptions]
    exact ⟨_, _, rfl⟩
  · rw [hoptions]
    refine ⟨["-i", "video=" ++ cam.friendlyName],
      ["-an", "-max_packet_size", "1200",
      "-f", "rtsp", "-rtsp_transport", "tcp", url ++ cam.rtspPath], ?_⟩
    unfold buildFFmpegArgs optionsFor
    cases cam.mode <;> rfl
  · rw [buildFFmpegArgs, List.getLast?_append]
    rfl
/-- **What is reported is what runs.** In every reachable state, as long as no
existence test of an override file throws, the command each publisher was built
with is the one for its slot's configuration. Its arguments are those for the
configuration that `list-cameras` shows, and carry its mode, its size and its
rate. -/
theorem commands_current {b : Boot} {steps : List Step} {sup : Supervisor}
    (h : bootRun b steps = some sup)
    (hsteps : ∀ st ∈ steps, st.OverridesAnswer) :
    ∀ s ∈ sup.slots, s.proc.cfg = makeFFmpegProcessConfig sup.ffExe s.cfg ∧
      s.proc.cfg.args = buildFFmpegArgs (sup.camJson s).config publisherUrl ∧
      (sup.camJson s).config.CarriedBy publisherUrl s.proc.cfg.args := by
  obtain ⟨sup₀, hboot, hrun⟩ := bootRun_eq_some.mp h
  have hcurrent : CommandsCurrent sup := by
    refine Runs.run_invariant CommandsCurrent (fun _ _ _ hs hok hnext => ?_)
      (startUp_forall_slots hboot (fun _ _ _ _ => .startIfEnabled))
      (Runs.guarded_of_forall_mem
        (fun st hst (_ : Supervisor) => hsteps st hst)) hrun
    exact commandsCurrent_step hs hok hnext
  intro s hs
  have hargs : s.proc.cfg.args
      = buildFFmpegArgs (sup.camJson s).config publisherUrl := by
    rw [config_camJson, hcurrent s hs]
    rfl
  refine ⟨hcurrent s hs, hargs, ?_⟩
  rw [hargs]
  exact carriedBy_buildFFmpegArgs _ _

/-- A client changes the size of a camera, disables it, and it is unplugged and
plugged in again. -/
def reconfigure : List Step :=
  [requestWith {} "set-mode" [("name", .string "Cam"),
      ("mode", .string "transcode_raw_to_h264"), ("width", .integer 1280)],
    requestWith {} "set-stream-enabled" [("name", .string "Cam"),
      ("enabled", .boolean false)],
    { action := .beginLoop }, { action := .diffPresence [] },
    { action := .finishReconcile (fun _ => []) },
    { action := .diffPresence [{ friendlyName := "Cam" }] }]

theorem commands_current_reconfigure :
    ∃ sup, bootRun oneCamera reconfigure = some sup ∧
      ∀ s ∈ sup.slots, s.proc.cfg = makeFFmpegProcessConfig sup.ffExe s.cfg ∧
        s.proc.cfg.args = buildFFmpegArgs (sup.camJson s).config publisherUrl ∧
        (sup.camJson s).config.CarriedBy publisherUrl s.proc.cfg.args := by
  have hsome : (bootRun oneCamera reconfigure).isSome = true := by decide
  obtain ⟨sup, hsup⟩ := Option.isSome_iff_exists.mp hsome
  refine ⟨sup, hsup, commands_current hsup (fun st hst i => ?_)⟩
  simp only [reconfigure, List.mem_cons, List.not_mem_nil, or_false] at hst
  rcases hst with rfl | rfl | rfl | rfl | rfl | rfl <;> rfl

end WebcamStreamer
