import WebcamStreamer.Overrides
import WebcamStreamer.SlotNames

/-!
# What a restart restores

A camera's configuration lives twice: in its slot, and in its override file
together with the defaults that the database and the advertised formats give.
The two handlers that change a configuration change it in memory and overlay
the same fields on the file. Nothing else touches either, so that at any moment
resolving the camera again gives the configuration in memory, up to the
coercion of legacy modes (`Restores`). `set-mode` stores and uses the mode it is
given; only resolving coerces it.

Two cameras whose slugs are the same file share an override, and the later
change of one becomes the other's. The cameras have to have different files.
-/

namespace WebcamStreamer

/-! ## The numbers of a request

The parameters of `set-mode` are taken apart: which of them were given, which
count as given, and what update they make. What comes out can always be
written to a file and read back. -/

theorem isInt32_getInt {σ : Type} {j : Json σ} {n : ℤ} (h : j.getInt = .ok n) :
    IsInt32 n := by
  cases j with
  | integer m =>
    obtain rfl := Except.ok.inj h
    unfold int32OfInteger IsInt32
    have hlo := @Int.le_bmod m (2 ^ 32) (by decide)
    have hhi := @Int.bmod_lt m (2 ^ 32) (by decide)
    constructor <;> omega
  | float q =>
    obtain rfl := Except.ok.inj h
    unfold int32OfFloat IsInt32
    dsimp only
    generalize (if 0 ≤ q then q.floor else q.ceil) = t
    by_cases hfits : -2 ^ 31 ≤ t ∧ t < 2 ^ 31
    · rw [if_pos hfits]
      exact hfits
    · rw [if_neg hfits]
      decide
  | boolean b =>
    obtain rfl := Except.ok.inj h
    cases b <;> (unfold IsInt32; decide)
  | null | string | array | object => cases h

theorem isInt32_valueInt {σ : Type} {j : Json σ} {key : String} {n : ℤ}
    (h : j.valueInt key = .ok n) : IsInt32 n := by
  unfold Json.valueInt Json.value at h
  split at h
  next =>
    split at h
    next v _ => exact isInt32_getInt h
    next =>
      obtain rfl := Except.ok.inj h
      unfold IsInt32
      decide
  next => cases h

theorem positive_eq_some {n m : ℤ} (h : positive n = some m) :
    0 < n ∧ n = m := by
  unfold positive at h
  split at h
  next hpos => exact ⟨hpos, Option.some.inj h⟩
  next => cases h

/-- The update of `set-mode` has the mode, and the numbers that are positive. -/
theorem setModeParams_eq_ok {params : Json String} {nm : String} {parsed : Mode}
    {upd : CameraOverride} (h : setModeParams params = .ok (nm, parsed, upd)) :
    ∃ width height fps, params.valueInt "width" = .ok width ∧
      params.valueInt "height" = .ok height ∧ params.valueInt "fps" = .ok fps ∧
      upd = { mode := some parsed, width := positive width
              height := positive height, fps := positive fps } := by
  simp only [setModeParams, bind_eq_ok] at h
  obtain ⟨name, -, mode, -, width, hwidth, height, hheight, fps, hfps, hupd⟩ :=
    h
  obtain ⟨-, rfl, rfl⟩ : name = nm ∧ modeFromString mode = parsed ∧
      _ = upd := by
    simpa [pure, Except.pure] using hupd
  exact ⟨width, height, fps, hwidth, hheight, hfps, rfl⟩

/-- What `set-mode` asks for can be stored, and says nothing about whether the
camera is enabled. -/
theorem valid_setModeParams {params : Json String} {nm : String} {parsed : Mode}
    {upd : CameraOverride} (h : setModeParams params = .ok (nm, parsed, upd))
    (hmode : parsed ≠ .unknown) : upd.Valid ∧ upd.enabled = none := by
  obtain ⟨width, height, fps, hwidth, hheight, hfps, rfl⟩ :=
    setModeParams_eq_ok h
  have hint : ∀ {key n m}, params.valueInt key = .ok n → positive n = some m →
      IsInt32 m :=
    fun hn hm => (positive_eq_some hm).2 ▸ isInt32_valueInt hn
  refine ⟨⟨fun heq => hmode (Option.some.inj heq), ?_, ?_, ?_⟩, rfl⟩
  · exact fun n hn => hint hwidth hn
  · exact fun n hn => hint hheight hn
  · exact fun n hn => hint hfps hn

/-! ## Resolving

Resolving a camera lays its override over what the database and its formats
suggest, field by field, and replaces a mode that is not offered any more.
This is stated without the code, as a relation between an override and a
configuration. -/

/-- The two modes that the user interface offers stay, the legacy ones become
the first of them. -/
def coerceMode (m : Mode) : Mode :=
  if m = .transcodeMjpegToH264 ∨ m = .transcodeRawToH264 then
    m
  else .transcodeMjpegToH264

theorem coerceMode_coerceMode (m : Mode) :
    coerceMode (coerceMode m) = coerceMode m := by
  cases m <;> rfl

/-- What a camera is streamed as when its override says nothing: field by field
the entry of the database, or the pick from the formats. -/
def defaultPick (db : KnownCameraDb) (vidPid : String)
    (formats : List AdvertisedFormat) : DefaultPick :=
  let known := if vidPid = "" then none else db.lookup? vidPid
  let smart := pickDefaultFromFormats formats
  { mode := (known.map KnownCamera.mode).getD smart.mode
    width := (known.map KnownCamera.width).getD smart.width
    height := (known.map KnownCamera.height).getD smart.height
    fps := (known.map KnownCamera.fps).getD smart.fps }

/-- The configuration `cfg` is what the override `ov` and the defaults resolve
to, up to the coercion of the mode. -/
structure Restores (ov : CameraOverride) (pick : DefaultPick)
    (defaultEnabled : Bool)
    (cfg : CameraConfig) : Prop where
  mode : coerceMode (ov.mode.getD pick.mode) = coerceMode cfg.mode
  width : ov.width.getD pick.width = cfg.width
  height : ov.height.getD pick.height = cfg.height
  fps : ov.fps.getD pick.fps = cfg.fps
  enabled : ov.enabled.getD defaultEnabled = cfg.enabled

/-- The configuration with the fields of an override. -/
def CameraConfig.overlay (cfg : CameraConfig) (upd : CameraOverride) :
    CameraConfig :=
  { cfg.update upd with enabled := upd.enabled.getD cfg.enabled }

/-- The fields of an update go over the stored ones and over the configuration
alike. -/
theorem Restores.overlay {ov : CameraOverride} {pick : DefaultPick}
    {defaultEnabled : Bool}
    {cfg : CameraConfig} (h : Restores ov pick defaultEnabled cfg)
    (upd : CameraOverride) :
    Restores (ov.overlay upd) pick defaultEnabled (cfg.overlay upd) := by
  obtain ⟨mode, width, height, fps, enabled⟩ := upd
  constructor
  · cases mode with
    | none => exact h.mode
    | some m => rfl
  · cases width with
    | none => exact h.width
    | some n => rfl
  · cases height with
    | none => exact h.height
    | some n => rfl
  · cases fps with
    | none => exact h.fps
    | some n => rfl
  · cases enabled with
    | none => exact h.enabled
    | some b => rfl

/-- **Resolving a camera** whose override file can be read: the mode is a
coerced one, and the rest is what file and defaults say. -/
theorem restores_resolveCameraConfig {ops : FileOps} (hops : ops.Succeeds)
    {disk : Disk}
    {db : KnownCameraDb} {defaultEnabled : Bool} {device : CameraDevice}
    {formats : List AdvertisedFormat} {cc cfg : CameraConfig}
    (h : resolveCameraConfig ops disk db defaultEnabled device formats cc
      = .ok cfg) :
    coerceMode cfg.mode = cfg.mode ∧
      Restores (storedOverride (disk.override device.friendlyName))
        (defaultPick db device.vidPid formats) defaultEnabled cfg := by
  unfold resolveCameraConfig at h
  rw [loadOverride_of_succeeds hops] at h
  obtain rfl := Except.ok.inj h
  exact ⟨coerceMode_coerceMode _, (coerceMode_coerceMode _).symm, rfl,
    rfl, rfl, rfl⟩

/-! ## Slots

A configuration is changed by two requests only, and both of them store what
they change under the name of the camera. The lemma about one step puts the
two side by side: the same change in the slot and in the file. -/

/-- Resolving the camera of the slot again gives the configuration in
memory. -/
def Supervisor.Restores (sup : Supervisor) (s : CamSlot) : Prop :=
  WebcamStreamer.Restores
    (storedOverride (sup.disk.override s.cfg.friendlyName))
    (defaultPick sup.knownDb s.vidPid s.formats)
      sup.settings.defaultEnabledForNewCameras s.cfg

/-- A move leaves the device of a slot alone. -/
theorem SlotMove.device {sup : Supervisor} {st : Step} {i : ℕ} {s s' : CamSlot}
    (hm : SlotMove sup st i s s') :
    s'.vidPid = s.vidPid ∧ s'.formats = s.formats := by
  cases hm with
  | enabledSet =>
    obtain ⟨proc, backoff, viewerCount, h⟩ :=
      s.enable_frame sup.ffExe sup.stop _ _
    rw [h]
    exact ⟨rfl, rfl⟩
  | ticked =>
    obtain ⟨proc, backoff, lastRunning, viewerCount, h⟩ :=
      s.tick_frame sup.stop _ _
    rw [Supervisor.tickSlot, h]
    exact ⟨rfl, rfl⟩
  | diffed =>
    obtain ⟨proc, backoff, viewerCount, h⟩ :=
      s.diffPresence_frame sup.ffExe sup.stop _ _
    rw [Supervisor.diffSlot, h]
    exact ⟨rfl, rfl⟩
  | _ => exact ⟨rfl, rfl⟩

/-- Only the two methods change a configuration. -/
theorem SlotMove.cfg_eq {sup : Supervisor} {st : Step} {i : ℕ} {s s' : CamSlot}
    (hm : SlotMove sup st i s s')
    (hno : ∀ rq, st.action = .request rq →
      rq.method ≠ "set-mode" ∧
      rq.method ≠ "set-stream-enabled") : s'.cfg = s.cfg := by
  cases hm with
  | modeThrown ha hm => exact absurd hm (hno _ ha).1
  | modeSet ha hm => exact absurd hm (hno _ ha).1
  | enabledSet ha hm => exact absurd hm (hno _ ha).2
  | ticked => exact CamSlot.cfg_tick _ _ _ _
  | diffed => exact CamSlot.cfg_diffPresence _ _ _ _ _
  | _ => rfl

/-- Every operation on an override file succeeds in this step. -/
def Step.Saves (st : Step) : Prop := ∀ i, (st.env.overrideOps i).Succeeds

/-- The step does not reload the settings. -/
def Step.KeepsSettings (st : Step) : Prop :=
  ∀ rq, st.action = .request rq → rq.method ≠ "reload-settings"

/-- The slots that were there before have the configurations they had. -/
def SameConfigs (slots slots' : List CamSlot) : Prop :=
  ∀ (k : ℕ) (x y : CamSlot), slots[k]? = some x → slots'[k]? = some y →
    y.cfg = x.cfg

/-- A change of one camera's configuration, stored under its name. -/
structure ConfigChange (sup : Supervisor) (st : Step) (out : Outcome) (i : ℕ)
    (s s' : CamSlot)
    (upd : CameraOverride) : Prop where
  slot : sup.slots[i]? = some s
  valid : upd.Valid
  slots : out.1.slots = sup.slots.set i s'
  cfg : s'.cfg = s.cfg.overlay upd
  stored :
    ∃ flag file,
      saveOverride (st.env.overrideOps i) (sup.disk.override s.cfg.friendlyName)
    s.cfg.friendlyName upd = .ok (flag, file) ∧
      out.1.disk = sup.disk.withOverride s.cfg.friendlyName file

/-- **What a step does to configurations and override files**: nothing, or the
same change to one of each. The hypothesis is that the writes of the step go
through; where one fails, memory and disk part, which is what other results
are about. -/
theorem config_step {sup : Supervisor} {st : Step} {out : Outcome}
    (h : step sup st = some out)
    (hsaves : st.Saves) :
    (out.1.disk.overrides = sup.disk.overrides ∧
      SameConfigs sup.slots out.1.slots) ∨
      ∃ i s s' upd, ConfigChange sup st out i s s' upd := by
  -- two requests change configurations, and every other step keeps them
  have hkept : (∀ rq, st.action = .request rq →
        rq.method ≠ "set-mode" ∧ rq.method ≠ "set-stream-enabled") →
      SameConfigs sup.slots out.1.slots := by
    intro hno k x y hx hy
    obtain ⟨y', hy', hmove⟩ := step_slot h hx
    obtain rfl := Option.some.inj (hy.symm.trans hy')
    exact hmove.cfg_eq hno
  have hsame : out.1.slots = sup.slots → SameConfigs sup.slots out.1.slots := by
    intro hslots k x y hx hy
    rw [hslots, hx] at hy
    rw [Option.some.inj hy]
  cases stepsTo_of_step h with
  | @served rq served ha heq hserved =>
    cases hserved with
    | unchanged => exact .inl ⟨rfl, hsame rfl⟩
    | restarted hm =>
      refine .inl ⟨rfl, hkept (fun rq' ha' => ?_)⟩
      obtain rfl := Action.request.inj (ha.symm.trans ha')
      rw [hm]
      decide
    -- the configuration would be changed without a file, but no write of the
    -- step throws
    | @modeThrown nm what parsed upd i s hm hp hne hmode hs hops =>
      rw [(hsaves i).1] at hops
      cases hops
    | @modeSet nm parsed upd i s flag file result hm hp hne hmode hs hsave =>
      obtain ⟨hvalid, henabled⟩ := valid_setModeParams hp hmode
      obtain ⟨hslot, rfl⟩ := Supervisor.findByName_some hs
      refine .inr ⟨i, s, _, upd, hslot, hvalid, rfl, ?_, flag, file, hsave, rfl⟩
      show s.cfg.update upd = _
      simp [CameraConfig.overlay, henabled, CameraConfig.update]
    | @enabledSet nm want i s flag file result hm hp hne hwant hs hsave =>
      obtain ⟨hslot, rfl⟩ := Supervisor.findByName_some hs
      refine .inr ⟨i, s, _, { enabled := some want }, hslot, ?_, rfl, ?_, flag,
        file, hsave, rfl⟩
      · constructor <;> simp
      · show (s.enable sup.ffExe sup.stop _ want).cfg = _
        rw [CamSlot.cfg_enable]
        rfl
    | credentialsUnsaved => exact .inl ⟨rfl, hsame rfl⟩
    | credentialsUnwritten => exact .inl ⟨rfl, hsame rfl⟩
    | credentialsSet hm hu hu0 hp hp0 hsave hyml ht =>
      subst ht
      exact .inl ⟨rfl, hsame rfl⟩
    | settingsReloaded => exact .inl ⟨rfl, hsame rfl⟩
    | shutdown => exact .inl ⟨rfl, hsame rfl⟩
  | hookIgnored => exact .inl ⟨rfl, hsame rfl⟩
  | mtxExit => exact .inl ⟨rfl, hsame rfl⟩
  | consoleSignal => exact .inl ⟨rfl, hsame rfl⟩
  | editSettings => exact .inl ⟨rfl, hsame rfl⟩
  | tick ha =>
    refine .inl ⟨?_,
      hkept (fun rq ha' => Action.noConfusion (ha.symm.trans ha'))⟩
    rw [Supervisor.disk_tick]
  | hookCounted ha | publisherExit ha | beginLoop ha | diffPresence ha
  | reconciled ha =>
    exact .inl ⟨rfl,
      hkept (fun rq ha' => Action.noConfusion (ha.symm.trans ha'))⟩

/-! ## The invariant

Every slot has the configuration that resolving its camera again would give.
This needs that no other camera has the same file, and that what was stored
can be loaded again under the name. -/

/-- No two cameras have the same override file. -/
def OwnFiles (sup : Supervisor) : Prop :=
  ((cameraNames sup.slots).map sup.disk.overrideKey).Nodup

/-- Different slots have different files. -/
theorem OwnFiles.ne {sup : Supervisor} (h : OwnFiles sup) {i k : ℕ}
    {s x : CamSlot}
    (hs : sup.slots[i]? = some s) (hx : sup.slots[k]? = some x) (hik : k ≠ i) :
    sup.disk.overrideKey x.cfg.friendlyName
      ≠ sup.disk.overrideKey s.cfg.friendlyName := by
  intro heq
  have hlt : k < ((cameraNames sup.slots).map sup.disk.overrideKey).length := by
    simpa using (List.getElem?_eq_some_iff.mp hx).1
  refine hik ((List.getElem?_inj hlt h).mp ?_)
  simp only [List.getElem?_map, hs, hx, Option.map_some, heq]

/-- The default for new cameras is the one of the settings that were loaded
last. -/
theorem defaultEnabled_step {sup : Supervisor} {st : Step} {out : Outcome}
    (h : step sup st = some out) (hkeeps : st.KeepsSettings) :
    out.1.settings.defaultEnabledForNewCameras
      = sup.settings.defaultEnabledForNewCameras := by
  cases stepsTo_of_step h with
  | served ha heq hserved =>
    cases hserved with
    | credentialsSet hm hu hu0 hp hp0 hsave hyml ht =>
      subst ht
      rfl
    | settingsReloaded hm => exact absurd hm (hkeeps _ ha)
    | _ => rfl
  | tick => rw [Supervisor.settings_tick]
  | _ => rfl

/-- A slot begins with what file and defaults say. -/
theorem restores_newSlot {sup : Supervisor} {ops : FileOps}
    (hops : ops.Succeeds)
    {device : CameraDevice} {formats : List AdvertisedFormat} {path : String}
    {cfg : CameraConfig} {stop : Bool} {o : StartOutcome}
    (h : resolveCameraConfig ops sup.disk sup.knownDb
      sup.settings.defaultEnabledForNewCameras
      device formats { friendlyName := device.friendlyName, rtspPath := path }
      = .ok cfg) :
    sup.Restores
      ((newSlot sup.ffExe device formats cfg).startIfEnabled stop o) := by
  have hdevice :
      ((newSlot sup.ffExe device formats cfg).startIfEnabled stop o).vidPid
        = device.vidPid ∧
      ((newSlot sup.ffExe device formats cfg).startIfEnabled stop o).formats
        = formats := by
    unfold CamSlot.startIfEnabled
    split <;> exact ⟨rfl, rfl⟩
  have hname : cfg.friendlyName = device.friendlyName :=
    (resolveCameraConfig_ok h).1
  unfold Supervisor.Restores
  rw [CamSlot.cfg_startIfEnabled, hdevice.1, hdevice.2]
  show Restores (storedOverride (sup.disk.override cfg.friendlyName)) _ _ cfg
  rw [hname]
  exact (restores_resolveCameraConfig hops h).2

/-- A camera that ffmpeg logged has a name that can stand in its override
file. -/
theorem Logged.storable {devices : List CameraDevice} (h : Logged devices) :
    ∀ d ∈ devices, Storable d.friendlyName := fun d hd =>
  ⟨h.enumerated.newline_notMem d hd,
    fun hmem => h.not_replaced d hd _ hmem (by decide)⟩

/-- The step's enumeration, if it has one, is that of a listing as ffmpeg logs
it. -/
def Step.ReadsLog (st : Step) : Prop :=
  ∀ current, st.action = .diffPresence current → Logged current

/-- **The invariant**: every slot has the configuration that a restart would
give it, and a name that can stand in its override file. -/
structure Restorable (sup : Supervisor) : Prop where
  restores : ∀ s ∈ sup.slots, sup.Restores s
  names : NamesSatisfy Storable sup

/-- A change of one configuration keeps what the others restore to. -/
theorem ConfigChange.restores {sup : Supervisor} {st : Step}
    {out : Outcome} {i : ℕ}
    {s s' : CamSlot} {upd : CameraOverride}
    (hc : ConfigChange sup st out i s s' upd)
    (h : Restorable sup) (hstep : step sup st = some out) (hsaves : st.Saves)
    (hkeeps : st.KeepsSettings) (hfiles : OwnFiles sup) :
    ∀ y ∈ out.1.slots, out.1.Restores y := by
  obtain ⟨flag, file, hsave, hdisk⟩ := hc.stored
  have hmem : s ∈ sup.slots := List.mem_of_getElem? hc.slot
  obtain ⟨t, hsave', hstored⟩ := saveOverride_of_succeeds (hsaves i)
    (sup.disk.override s.cfg.friendlyName) hc.valid (h.names.slots s hmem)
  obtain ⟨-, rfl⟩ := Prod.mk.inj (Except.ok.inj (hsave.symm.trans hsave'))
  have hname : s'.cfg.friendlyName = s.cfg.friendlyName := by rw [hc.cfg]; rfl
  intro y hy
  obtain ⟨k, hk⟩ := List.mem_iff_getElem?.mp hy
  have hlen : out.1.slots.length = sup.slots.length := by
    rw [hc.slots, List.length_set]
  obtain ⟨x, hx, hmove⟩ := slot_of_step hstep hlen hk
  unfold Supervisor.Restores
  rw [hdisk, (fixed_step hstep).2.1, defaultEnabled_step hstep hkeeps,
    hmove.device.1,
    hmove.device.2]
  rcases eq_or_of_getElem?_set hc.slot (hc.slots ▸ hk) with ⟨rfl,
    rfl⟩ | ⟨hki, hold⟩
  · obtain rfl := Option.some.inj (hc.slot.symm.trans hx)
    rw [hname, Disk.override_withOverride_of_eq _ rfl, hstored, hc.cfg]
    exact (h.restores s hmem).overlay upd
  · obtain rfl := Option.some.inj (hold.symm.trans hx)
    rw [Disk.override_withOverride_of_ne _ (hfiles.ne hc.slot hold hki)]
    exact h.restores y (List.mem_of_getElem? hold)

/-- **One step** keeps the invariant. What has to be shown is that the files,
read back over the same devices, give the configurations that are in memory
behind the step. -/
theorem Restorable.step {sup sup' : Supervisor} {st : Step} (h : Restorable sup)
    (hnext : next sup st = some sup') (hlisting : st.ReadsLog)
    (hsaves : st.Saves)
    (hkeeps : st.KeepsSettings) (hfiles : OwnFiles sup) : Restorable sup' := by
  refine ⟨?_,
    h.names.step hnext (fun current ha => (hlisting current ha).storable)⟩
  obtain ⟨out, hout, rfl⟩ := Option.map_eq_some_iff.mp hnext
  obtain ⟨-, hdb, hkey⟩ := fixed_step hout
  rcases config_step hout hsaves with ⟨hover, hsame⟩ | ⟨i, s, s', upd, hc⟩
  · have hfrom : ∀ y ∈ out.1.slots, sup.Restores y := by
      rcases step_added hout with hlen | ⟨newFormats, newDevices, listChanged,
        -, -, hgrown⟩
      · intro y hy
        obtain ⟨k, hk⟩ := List.mem_iff_getElem?.mp hy
        obtain ⟨x, hx, hmove⟩ := slot_of_step hout hlen hk
        unfold Supervisor.Restores
        rw [hsame k x y hx hk, hmove.device.1, hmove.device.2]
        exact h.restores x (List.mem_of_getElem? hx)
      · exact hgrown.forall_mem h.restores
          (fun i device formats path cfg _ _ hcfg =>
            restores_newSlot (hsaves i) hcfg)
    intro y hy
    have hy' := hfrom y hy
    unfold Supervisor.Restores Disk.override Disk.overrideKey at hy' ⊢
    rw [hover, hkey, hdb, defaultEnabled_step hout hkeeps]
    exact hy'
  · exact hc.restores h hout hsaves hkeeps hfiles

theorem restorable_startUp {b : Boot} {sup : Supervisor}
    (h : startUp b = .ok sup)
    (hcams : Logged (b.cameras.map Prod.fst))
    (hops : ∀ i, (b.env.overrideOps i).Succeeds) :
    Restorable sup := by
  refine ⟨fun s hs => ?_, NamesSatisfy.startUp h
    (fun c hc => hcams.storable _ (List.mem_map_of_mem hc))⟩
  obtain ⟨settings, file, yml, slots, -, -, hslots, rfl⟩ := startUp_spec h
  obtain ⟨k, hk⟩ := List.mem_iff_getElem?.mp hs
  obtain ⟨device, formats, cfg, -, hcfg, rfl⟩ := bootSlots_get hslots hk
  exact restores_newSlot (hops _) hcfg

/-- Slots are only added and keep their names, so that files that are different
at the end of a run were different all along. -/
theorem OwnFiles.of_run {sup sup' : Supervisor} {steps : List Step}
    (hrun : Runs.run next sup steps = some sup') (h : OwnFiles sup') :
    OwnFiles sup := by
  have hkey : sup'.disk.fileKey = sup.disk.fileKey := by
    refine Runs.run_invariant_of_forall (fun t => t.disk.fileKey
      = sup.disk.fileKey)
      (fun s st t hs hnext => ?_) rfl hrun
    obtain ⟨out, hout, rfl⟩ := Option.map_eq_some_iff.mp hnext
    exact (fixed_step hout).2.2.trans hs
  have hnames := (cameraNames_prefix_run hrun).sublist.map sup'.disk.overrideKey
  have hsame : sup'.disk.overrideKey = sup.disk.overrideKey := by
    funext nm
    unfold Disk.overrideKey
    rw [hkey]
  unfold OwnFiles
  rw [← hsame]
  exact hnames.nodup h

/-- **Every run** keeps the invariant as long as the cameras there are at its
end have different files. Cameras are never removed, so that it is enough to
look at the files at the end. -/
theorem Restorable.run {sup sup' : Supervisor} {steps : List Step}
    (h : Restorable sup)
    (hrun : Runs.run next sup steps = some sup')
    (hsteps : ∀ st ∈ steps, st.ReadsLog ∧ st.Saves ∧ st.KeepsSettings)
    (hfiles : OwnFiles sup') : Restorable sup' := by
  induction steps generalizing sup with
  | nil =>
    obtain rfl := Option.some.inj hrun
    exact h
  | cons st steps ih =>
    obtain ⟨sup₁, hnext, hrest⟩ := Runs.run_cons_iff.mp hrun
    obtain ⟨⟨hlisting, hsaves, hkeeps⟩, htail⟩ := List.forall_mem_cons.mp hsteps
    exact ih (h.step hnext hlisting hsaves hkeeps
      (hfiles.of_run hrun)) hrest htail

/-! ## Starting again

The second start finds the files that the first run has left, the same
database and the same cameras. A restart restores the configuration of a
camera if these say the same as the slot did, up to the mode. -/

/-- The configuration after a restart: the mode is coerced, the rest is as it
was. -/
structure RestoredTo (before after : CameraConfig) : Prop where
  mode : after.mode = coerceMode before.mode
  width : after.width = before.width
  height : after.height = before.height
  fps : after.fps = before.fps
  enabled : after.enabled = before.enabled

/-- The second start finds what the first supervisor left: the override files,
the database and the default for new cameras. -/
structure StartsAgain (sup : Supervisor) (b : Boot) (sup' : Supervisor) :
    Prop where
  started : startUp b = .ok sup'
  overrides : b.disk.overrides = sup.disk.overrides
  fileKey : b.disk.fileKey = sup.disk.fileKey
  knownDb : b.knownDb = sup.knownDb
  defaultEnabled : sup'.settings.defaultEnabledForNewCameras
    = sup.settings.defaultEnabledForNewCameras
  reads : ∀ i, (b.env.overrideOps i).Succeeds

/-- **A restart restores the configuration.** Over any run whose file operations
succeed, in which nobody reloads the settings and whose cameras have different
override files, whatever these held at first: a supervisor that starts again
with the device of a slot and its formats resolves the configuration that was in
memory, up to the coercion of the mode. -/
theorem restart_restores {b : Boot} {steps : List Step} {sup : Supervisor}
    (h : bootRun b steps = some sup) (hcams : Logged (b.cameras.map Prod.fst))
    (hops : ∀ i, (b.env.overrideOps i).Succeeds)
    (hsteps : ∀ st ∈ steps, st.ReadsLog ∧ st.Saves ∧ st.KeepsSettings)
    (hfiles : OwnFiles sup)
    {b' : Boot} {sup' : Supervisor} (hagain : StartsAgain sup b' sup') :
    ∀ s ∈ sup.slots, ∀ (k : ℕ) (device : CameraDevice),
      b'.cameras[k]? = some (device, s.formats) →
      device.friendlyName = s.cfg.friendlyName →
      device.vidPid = s.vidPid → ∃ s',
        sup'.slots[k]? = some s' ∧ RestoredTo s.cfg s'.cfg := by
  obtain ⟨sup₀, hboot, hrun⟩ := bootRun_eq_some.mp h
  have hinv := (restorable_startUp hboot hcams hops).run hrun hsteps hfiles
  obtain ⟨hstart, hover, hkey, hdb, hdefault, hreads⟩ := hagain
  obtain ⟨settings, file, yml, slots, -, -, hslots, rfl⟩ := startUp_spec hstart
  intro s hs k device hdevice hname hvidPid
  have hlt : k < slots.length := by
    rw [length_bootSlots hslots]
    exact (List.getElem?_eq_some_iff.mp hdevice).1
  have hget : slots[k]? = some slots[k] := List.getElem?_eq_getElem hlt
  refine ⟨_, hget, ?_⟩
  obtain ⟨device', formats', cfg, hdevice', hcfg, heq⟩ :=
    bootSlots_get hslots hget
  obtain ⟨rfl, rfl⟩ :=
    Prod.mk.inj (Option.some.inj (hdevice.symm.trans hdevice'))
  obtain ⟨hmode, hrest⟩ := restores_resolveCameraConfig (hreads _) hcfg
  have hmem := hinv.restores s hs
  -- the two resolutions read the same file and the same defaults
  unfold Supervisor.Restores at hmem
  unfold Disk.override Disk.overrideKey at hrest hmem
  dsimp only at hrest hdefault
  rw [hover, hkey, hdb, hdefault, hname, hvidPid] at hrest
  rw [heq, CamSlot.cfg_startIfEnabled]
  exact ⟨hmode.symm.trans (hrest.mode.symm.trans hmem.mode),
    hrest.width.symm.trans hmem.width,
    hrest.height.symm.trans hmem.height, hrest.fps.symm.trans hmem.fps,
    hrest.enabled.symm.trans hmem.enabled⟩

/-- The only camera gets a legacy mode and is disabled. -/
def legacyAndDisabled : List Step :=
  [requestWith {} "set-mode" [("name", .string "Cam"),
    ("mode", .string "passthrough_mjpeg"),
      ("fps", .integer 15)],
    requestWith {} "set-stream-enabled" [("name", .string "Cam"),
      ("enabled", .boolean false)]]

/-- A listing of one camera. -/
theorem logged_one : Logged [{ friendlyName := "Cam" }] :=
  ⟨"\"Cam\" (video)".toList, by simp [ReplacedByLog], by decide⟩

theorem restart_restores_legacyAndDisabled :
    ∃ sup sup', bootRun oneCamera legacyAndDisabled = some sup ∧
      startUp { oneCamera with disk := sup.disk } = .ok sup' ∧
      ∀ s ∈ sup.slots, ∃ s', sup'.slots[0]? = some s' ∧
        RestoredTo s.cfg s'.cfg := by
  have hops : ∀ i : ℕ, ((fun _ => {} : ℕ → FileOps) i).Succeeds :=
    fun _ => ⟨rfl, rfl, rfl⟩
  have hsteps : ∀ st ∈ legacyAndDisabled,
      st.ReadsLog ∧ st.Saves ∧ st.KeepsSettings := by
    intro st hst
    simp only [legacyAndDisabled, List.mem_cons, List.not_mem_nil,
      or_false] at hst
    rcases hst with rfl | rfl
    · refine ⟨fun current ha => Action.noConfusion ha, hops, fun rq ha => ?_⟩
      obtain rfl := Action.request.inj ha
      decide
    · refine ⟨fun current ha => Action.noConfusion ha, hops, fun rq ha => ?_⟩
      obtain rfl := Action.request.inj ha
      decide
  have hsome : (bootRun oneCamera legacyAndDisabled).isSome = true := rfl
  refine ⟨(bootRun oneCamera legacyAndDisabled).get hsome, _, rfl, rfl,
    fun s hs => ?_⟩
  refine @restart_restores oneCamera legacyAndDisabled _ rfl
    logged_one hops hsteps
    (List.pairwise_singleton _ _)
    { oneCamera with
      disk := ((bootRun oneCamera legacyAndDisabled).get hsome).disk } _
    ⟨rfl, rfl, rfl, rfl, rfl, hops⟩ s hs 0 { friendlyName := "Cam" } ?_ ?_ ?_
  all_goals
    obtain rfl := List.mem_singleton.mp hs
    rfl

end WebcamStreamer
