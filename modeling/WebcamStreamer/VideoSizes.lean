import WebcamStreamer.DefaultPicks
import WebcamStreamer.Restore

/-!
# Sizes and rates that ffmpeg is asked for

The width, the height and the rate of a camera come from four places: its
override file, the known-cameras database, the formats it advertises, and
`set-mode`. Only `set-mode` looks at the numbers, and ignores those below one. A
file or a profile can say zero, and a rate below one that a format advertises is
truncated to zero.

So all cameras are asked for at least one of everything exactly as long as what
start-up and every reconciliation find for a new camera says so
(`sized_everywhere_iff`).
-/

namespace WebcamStreamer

/-- The configuration asks for at least one of everything. -/
structure CameraConfig.Sized (cfg : CameraConfig) : Prop where
  width : 1 ≤ cfg.width
  height : 1 ≤ cfg.height
  fps : 1 ≤ cfg.fps

/-- **Every camera is asked for at least one of everything.**
`BuildFFmpegArgs` writes the sizes and the rate into its arguments without a
look at them. -/
def Supervisor.Sized (sup : Supervisor) : Prop := ∀ s ∈ sup.slots, s.cfg.Sized

/-! ## The sources

A size or a rate comes from the override file, the database or the pick,
whichever is the first that has one. Each of them may say zero: nobody checks
a file, and a rate below one is truncated. -/

/-- What the override file of a camera says where it can be opened. -/
def readOverride (ops : FileOps) (file : Option Text) : CameraOverride :=
  if ops.readable then storedOverride file else {}

/-- The profile of a device in the database. -/
def knownProfile (db : KnownCameraDb) (device : CameraDevice) :
    Option KnownCamera :=
  if device.vidPid = "" then none else db.lookup? device.vidPid

/-- The format that the default is picked from. -/
def pickedFormat (formats : List AdvertisedFormat) : Option AdvertisedFormat :=
  (preferred (formats.filter AdvertisedFormat.isCompressedMjpeg)).or
    (preferred (formats.filter AdvertisedFormat.isRaw))

/-- The first of a file and a profile that has a number has one of at least one;
where neither has, the format does. -/
def AtLeastOne (file profile : Option ℤ) (format : Prop) : Prop :=
  match file.or profile with
  | some n => 1 ≤ n
  | none => format

/-- **The sources of a new camera** say at least one of everything. A rate that
is advertised may also be zero, which is taken for none. -/
structure SizedSources (ops : FileOps) (disk : Disk) (db : KnownCameraDb)
    (device : CameraDevice)
    (formats : List AdvertisedFormat) : Prop where
  width :
    AtLeastOne (readOverride ops (disk.override device.friendlyName)).width
    ((knownProfile db device).map KnownCamera.width)
    (∀ f, pickedFormat formats = some f → 1 ≤ f.width)
  height :
    AtLeastOne (readOverride ops (disk.override device.friendlyName)).height
    ((knownProfile db device).map KnownCamera.height)
    (∀ f, pickedFormat formats = some f → 1 ≤ f.height)
  fps : AtLeastOne (readOverride ops (disk.override device.friendlyName)).fps
    ((knownProfile db device).map KnownCamera.fps)
    (∀ f, pickedFormat formats = some f → f.maxFps ≤ 0 ∨ 1 ≤ f.maxFps)

theorem one_le_getD_iff {file profile : Option ℤ} {default : ℤ} {format : Prop}
    (h : 1 ≤ default ↔ format) :
    1 ≤ file.getD (profile.getD default) ↔ AtLeastOne file profile format := by
  cases file with
  | some n => rfl
  | none =>
    cases profile with
    | some n => rfl
    | none => exact h

/-- The rate is truncated to zero exactly if it is a fraction of one. -/
theorem one_le_pickedFps_iff {f : AdvertisedFormat} :
    1 ≤ pickedFps f ↔ f.maxFps ≤ 0 ∨ 1 ≤ f.maxFps := by
  unfold pickedFps
  by_cases hpos : f.maxFps > 0
  · rw [if_pos hpos, or_iff_right (not_le.mpr hpos),
      Rat.le_floor_iff, le_min_iff]
    exact and_iff_right (by decide)
  · rw [if_neg hpos]
    exact iff_of_true (by decide) (.inl (not_lt.mp hpos))

/-- The pick takes its size and its rate from the format picked. -/
theorem pickDefaultFromFormats_sized (formats : List AdvertisedFormat) :
    (1 ≤ (pickDefaultFromFormats formats).width
        ↔ ∀ f, pickedFormat formats = some f → 1 ≤ f.width) ∧
      (1 ≤ (pickDefaultFromFormats formats).height
        ↔ ∀ f, pickedFormat formats = some f → 1 ≤ f.height) ∧
      (1 ≤ (pickDefaultFromFormats formats).fps
        ↔ ∀ f, pickedFormat formats = some f →
          f.maxFps ≤ 0 ∨ 1 ≤ f.maxFps) := by
  unfold pickDefaultFromFormats pickedFormat
  rw [pickBest_eq_preferred, pickBest_eq_preferred]
  cases preferred (formats.filter AdvertisedFormat.isCompressedMjpeg) with
  | some m => simp [one_le_pickedFps_iff]
  | none =>
    cases preferred (formats.filter AdvertisedFormat.isRaw) with
    | some m => simp [one_le_pickedFps_iff]
    | none => simp

/-- **A camera is resolved** to at least one of everything exactly if its
sources say so. The sources are the file, the profile of the known camera and
the format that was picked, in this order. -/
theorem sized_resolveCameraConfig_iff {ops : FileOps} {disk : Disk}
    {db : KnownCameraDb}
    {defaultEnabled : Bool} {device : CameraDevice}
    {formats : List AdvertisedFormat}
    {cc cfg : CameraConfig}
    (h : resolveCameraConfig ops disk db defaultEnabled device formats cc
      = .ok cfg) :
    cfg.Sized ↔ SizedSources ops disk db device formats := by
  obtain ⟨hwidth, hheight, hfps⟩ := pickDefaultFromFormats_sized formats
  unfold resolveCameraConfig at h
  split at h
  next => cases h
  next found hfound =>
    have hread : found.getD {}
        = readOverride ops (disk.override device.friendlyName) := by
      unfold loadOverride at hfound
      split at hfound
      next => cases hfound
      next =>
        obtain rfl := Except.ok.inj hfound
        unfold readOverride storedOverride
        split <;> rfl
    rw [hread] at h
    obtain rfl := Except.ok.inj h
    constructor
    · exact fun hs => ⟨(one_le_getD_iff hwidth).mp hs.width,
        (one_le_getD_iff hheight).mp hs.height,
        (one_le_getD_iff hfps).mp hs.fps⟩
    · exact fun hs => ⟨(one_le_getD_iff hwidth).mpr hs.width,
        (one_le_getD_iff hheight).mpr hs.height,
        (one_le_getD_iff hfps).mpr hs.fps⟩

/-! ## The newcomers of a reconciliation

The cameras that are added later are resolved in the same way, with what the
reconciliation has found. Which devices these are can be said from the state
and the listing. -/

/-- The devices a reconciliation makes slots for: those whose names no slot
had. -/
def Supervisor.newcomers (sup : Supervisor) (newDevices : List CameraDevice)
    (newFormats : ℕ → List AdvertisedFormat) :
    List (CameraDevice × List AdvertisedFormat) :=
  (newDevices.mapIdx (fun j d => (d, newFormats j))).filter
    (fun d => decide (d.1.friendlyName
      ∉ sup.slots.map (fun s => s.cfg.friendlyName)))

/-- The loop over the new devices adds one slot for each newcomer, in their
order, with the configuration that it is resolved to at its position. -/
theorem Supervisor.addDevices_added {env : Env} {known : List String}
    {sup sup' : Supervisor}
    {ds : List (CameraDevice × List AdvertisedFormat)} {changed changed' : Bool}
    (h : sup.addDevices env known changed ds = .ok (sup', changed')) :
    ∃ added, sup'.slots = sup.slots ++ added ∧
      added.length
        = (ds.filter (fun d => decide (d.1.friendlyName ∉ known))).length ∧
      ∀ j device formats s, added[j]? = some s →
        (ds.filter (fun d => decide (d.1.friendlyName ∉ known)))[j]?
          = some (device, formats) →
        ∃ path, resolveCameraConfig
          (env.overrideOps (sup.slots.length + j)) sup.disk sup.knownDb
          sup.settings.defaultEnabledForNewCameras device formats
          { friendlyName := device.friendlyName, rtspPath := path }
          = .ok s.cfg := by
  induction ds generalizing sup changed with
  | nil =>
    simp only [addDevices, Except.ok.injEq, Prod.mk.injEq] at h
    obtain ⟨rfl, -⟩ := h
    exact ⟨[], (List.append_nil _).symm, rfl, fun _ _ _ _ hs => by simp at hs⟩
  | cons d ds ih =>
    obtain ⟨device, formats⟩ := d
    rcases addDevices_cons h with ⟨hknown, hrest⟩ | ⟨hknown, cfg, hcfg, hrest⟩
    · rw [List.filter_cons_of_neg (by simpa using hknown)]
      exact ih hrest
    · rw [List.filter_cons_of_pos (by simpa using hknown)]
      obtain ⟨added, happend, hlen, hadded⟩ := ih hrest
      refine ⟨_ :: added, by rw [happend, List.append_assoc]; rfl, ?_, ?_⟩
      · rw [List.length_cons, List.length_cons, hlen]
      · intro j device' formats' s hs hd
        cases j with
        | zero =>
          obtain ⟨rfl, rfl⟩ := Prod.mk.inj (Option.some.inj hd)
          obtain rfl := Option.some.inj hs
          exact ⟨_, by rw [CamSlot.cfg_startIfEnabled]; exact hcfg⟩
        | succ j =>
          obtain ⟨path, hpath⟩ := hadded j device' formats' s hs hd
          refine ⟨path, ?_⟩
          -- the override of a newcomer is read at the position it is going to
          -- have
          rw [List.length_append, List.length_singleton, Nat.add_assoc,
            Nat.add_comm 1 j]
            at hpath
          exact hpath

/-- **A new camera of a reconciliation** has sources that say at least one of
everything. Only the second locked section adds cameras, and so nothing is
asked of any other step. -/
def AddsSized (sup : Supervisor) (st : Step) : Prop :=
  ∀ newFormats newDevices listChanged, st.action = .finishReconcile newFormats →
    sup.phase = .reconciling newDevices listChanged →
    ∀ j device formats,
      (sup.newcomers newDevices newFormats)[j]? = some (device, formats) →
      SizedSources (st.env.overrideOps (sup.slots.length + j)) sup.disk
        sup.knownDb device formats

/-- The newcomers of a reconciliation are asked for at least one of everything
exactly if their sources say so. -/
theorem Supervisor.sized_finishReconcile_iff {env : Env}
    {newDevices : List CameraDevice}
    {listChanged : Bool} {newFormats : ℕ → List AdvertisedFormat}
    {sup sup' : Supervisor}
    {events : List Event} (hs : sup.Sized)
    (h : sup.finishReconcile env newDevices listChanged newFormats
      = .ok (sup', events)) :
    sup'.Sized ↔ ∀ j device formats,
      (sup.newcomers newDevices newFormats)[j]? = some (device, formats) →
        SizedSources (env.overrideOps (sup.slots.length + j)) sup.disk
          sup.knownDb device
          formats := by
  unfold finishReconcile at h
  split at h
  -- nothing is added
  next hnone =>
    obtain ⟨rfl, rfl⟩ := hnone
    obtain ⟨rfl, -⟩ := Prod.mk.inj (Except.ok.inj h)
    refine iff_of_true hs (fun j device formats hj => ?_)
    simp [newcomers] at hj
  next =>
    split at h
    next => cases h
    next sup₁ changed hadd =>
      obtain ⟨rfl, -⟩ := Prod.mk.inj (Except.ok.inj h)
      obtain ⟨added, happend, hlen, hadded⟩ := addDevices_added hadd
      unfold Sized
      rw [happend]
      constructor
      -- every newcomer is one of the slots that were added, at its position
      · intro hall j device formats hj
        have hlt : j < added.length :=
          hlen ▸ (List.getElem?_eq_some_iff.mp hj).1
        obtain ⟨path, hpath⟩ :=
          hadded j device formats _ (List.getElem?_eq_getElem hlt) hj
        exact (sized_resolveCameraConfig_iff hpath).mp
          (hall _ (List.mem_append_right _ (List.getElem_mem hlt)))
      · intro hall s hmem
        rcases List.mem_append.mp hmem with hold | hnew
        · exact hs s hold
        · obtain ⟨j, hj⟩ := List.mem_iff_getElem?.mp hnew
          have hlt := hlen ▸ (List.getElem?_eq_some_iff.mp hj).1
          obtain ⟨path, hpath⟩ :=
            hadded j _ _ s hj (List.getElem?_eq_getElem hlt)
          exact (sized_resolveCameraConfig_iff hpath).mpr
            (hall j _ _ (List.getElem?_eq_getElem hlt))

/-! ## Every step

A request for a mode replaces a number only by a positive one, so that no
request makes a number zero. All that is left are the cameras that a step
adds. -/

/-- `set-mode` asks for at least one of everything it asks for. -/
theorem CameraConfig.Sized.update {cfg : CameraConfig} (h : cfg.Sized)
    {params : Json String}
    {nm : String} {parsed : Mode} {upd : CameraOverride}
    (hparams : setModeParams params = .ok (nm, parsed, upd)) :
    (cfg.update upd).Sized := by
  obtain ⟨width, height, fps, -, -, -, rfl⟩ := setModeParams_eq_ok hparams
  have hfield : ∀ (n old : ℤ), 1 ≤ old → 1 ≤ (positive n).getD old := by
    intro n old hold
    cases hn : positive n with
    | none => exact hold
    | some m =>
      obtain ⟨hpos, rfl⟩ := positive_eq_some hn
      exact hpos
  exact ⟨hfield _ _ h.width, hfield _ _ h.height, hfield _ _ h.fps⟩

/-- No move of a slot asks for less than one. -/
theorem SlotMove.sized {sup : Supervisor} {st : Step} {i : ℕ} {s s' : CamSlot}
    (hm : SlotMove sup st i s s') (h : s.cfg.Sized) : s'.cfg.Sized := by
  cases hm with
  | modeThrown ha hm hp => exact h.update hp
  | modeSet ha hm hp => exact h.update hp
  | enabledSet =>
    rw [CamSlot.cfg_noteRunning, CamSlot.cfg_enable]
    exact ⟨h.width, h.height, h.fps⟩
  | ticked =>
    rw [Supervisor.tickSlot, CamSlot.cfg_tick]
    exact h
  | diffed =>
    rw [Supervisor.diffSlot, CamSlot.cfg_diffPresence]
    exact h
  | _ => exact h

/-- **A step keeps every camera sized** exactly if the cameras it adds are.
Requests change a size only to one that is positive, so that the cameras that
are there stay as they are. -/
theorem sized_next_iff {sup sup' : Supervisor} {st : Step} (h : sup.Sized)
    (hstep : next sup st = some sup') : sup'.Sized ↔ AddsSized sup st := by
  obtain ⟨out, hout, rfl⟩ := Option.map_eq_some_iff.mp hstep
  by_cases hreconcile : ∃ newFormats, st.action = .finishReconcile newFormats
  · obtain ⟨newFormats, ha⟩ := hreconcile
    unfold step at hout
    simp only [ha] at hout
    split at hout
    next newDevices listChanged hphase =>
      split at hout
      next => cases hout
      next sup' events hfinish =>
        obtain rfl := Option.some.inj hout
        refine (Supervisor.sized_finishReconcile_iff h hfinish).trans
          ⟨fun hall => ?_, fun hall => ?_⟩
        · rintro newFormats' newDevices' listChanged' ha' hphase'
          obtain rfl := Action.finishReconcile.inj (ha.symm.trans ha')
          obtain ⟨rfl, rfl⟩ := Phase.reconciling.inj (hphase.symm.trans hphase')
          exact hall
        · exact hall newFormats newDevices listChanged ha hphase
    next => cases hout
  · have hno : ∀ newFormats, st.action ≠ .finishReconcile newFormats :=
      fun newFormats ha => hreconcile ⟨newFormats, ha⟩
    refine iff_of_true (fun y hy => ?_)
      (fun newFormats _ _ ha => absurd ha (hno newFormats))
    obtain ⟨k, hk⟩ := List.mem_iff_getElem?.mp hy
    obtain ⟨x, hx, hm⟩ := slot_of_step hout (length_slots_step hout hno) hk
    exact hm.sized (h x (List.mem_of_getElem? hx))

/-! ## Runs

The condition of the equivalence is about start-up and about each step that
adds cameras, and it only looks at what they say about the new ones. -/

/-- **The cameras of start-up** have sources that say at least one of
everything. The overrides are read for one camera after the other, each with
its own outcome of the operations on files. -/
def Boot.Sized (b : Boot) : Prop :=
  ∀ k device formats, b.cameras[k]? = some (device, formats) →
    SizedSources (b.env.overrideOps k) b.disk b.knownDb device formats

theorem sized_startUp_iff {b : Boot} {sup : Supervisor}
    (h : startUp b = .ok sup) :
    sup.Sized ↔ b.Sized := by
  obtain ⟨settings, file, yml, slots, -, -, hslots, rfl⟩ := startUp_spec h
  have hresolved : ∀ {k s}, slots[k]? = some s → ∃ device formats,
      b.cameras[k]? = some (device, formats) ∧
        (s.cfg.Sized ↔ SizedSources
          (b.env.overrideOps k) b.disk b.knownDb device formats) := by
    intro k s hs
    obtain ⟨device, formats, cfg, hcamera, hcfg, rfl⟩ := bootSlots_get hslots hs
    rw [Nat.zero_add] at hcfg
    refine ⟨device, formats, hcamera, ?_⟩
    rw [CamSlot.cfg_startIfEnabled]
    exact sized_resolveCameraConfig_iff hcfg
  constructor
  · intro hall k device formats hk
    have hlt : k < slots.length :=
      length_bootSlots hslots ▸ (List.getElem?_eq_some_iff.mp hk).1
    obtain ⟨device', formats', hcamera, hiff⟩ :=
      hresolved (List.getElem?_eq_getElem hlt)
    obtain ⟨rfl, rfl⟩ := Prod.mk.inj (Option.some.inj (hk.symm.trans hcamera))
    exact hiff.mp (hall _ (List.getElem_mem hlt))
  · intro hall s hs
    obtain ⟨k, hk⟩ := List.mem_iff_getElem?.mp hs
    obtain ⟨device, formats, hcamera, hiff⟩ := hresolved hk
    exact hiff.mpr (hall k device formats hcamera)

/-- **Every state of a run asks for at least one of everything** exactly if
the sources of every camera do, at start-up and wherever one is added. A
camera has its size from the moment it is added, and no request makes a size
less than one, so that the sources are all that has to be looked at. -/
theorem sized_everywhere_iff {b : Boot} {sup : Supervisor}
    (h : startUp b = .ok sup)
    (steps : List Step) :
    Runs.Everywhere next Supervisor.Sized sup steps ↔
      b.Sized ∧ Runs.Guarded next AddsSized sup steps := by
  rw [← sized_startUp_iff h]
  constructor
  · intro hall
    have hs := Runs.everywhere_head hall
    exact ⟨hs,
      (Runs.everywhere_iff_guarded (fun _ _ _ => sized_next_iff) hs).mp hall⟩
  · exact fun ⟨hs, hguarded⟩ =>
      (Runs.everywhere_iff_guarded (fun _ _ _ => sized_next_iff) hs).mpr
        hguarded

/-- A machine whose only camera advertises one format. -/
def oneFormat : Boot :=
  { oneCamera with
    cameras := [({ friendlyName := "Cam" },
      [{ kind := "raw", width := 320, height := 240, maxFps := 15 }])] }

/-- The format is asked for, and a request for no width leaves it at that. -/
theorem sized_everywhere_oneFormat :
    ∃ sup, startUp oneFormat = .ok sup ∧
      Runs.Everywhere next Supervisor.Sized sup
        [requestWith {} "set-mode" [("name", .string "Cam"),
          ("width", .integer 0),
          ("mode", .string "transcode_raw_to_h264")]] := by
  refine ⟨_, rfl, (@sized_everywhere_iff oneFormat _ rfl _).mpr
    ⟨fun k device formats hk => ?_, ?_⟩⟩
  · obtain ⟨hlt, hget⟩ := List.getElem?_eq_some_iff.mp hk
    obtain rfl : k = 0 := Nat.lt_one_iff.mp hlt
    obtain ⟨rfl, rfl⟩ := Prod.mk.inj hget
    have hpicked : pickedFormat
        [{ kind := "raw", width := 320, height := 240, maxFps := 15 }]
        = some
          { kind := "raw", width := 320, height := 240, maxFps := 15 } := by
      decide
    constructor
    · intro f hf
      obtain rfl := Option.some.inj (hpicked.symm.trans hf)
      decide
    · intro f hf
      obtain rfl := Option.some.inj (hpicked.symm.trans hf)
      decide
    · intro f hf
      obtain rfl := Option.some.inj (hpicked.symm.trans hf)
      decide
  · exact Runs.guarded_of_forall_mem (fun st hst sup newFormats _ _ ha =>
      Action.noConfusion ((List.mem_singleton.mp hst ▸ ha : _)))

/-- A machine whose only camera has an override file that asks for no width. -/
def zeroWidth : Boot :=
  { oneCamera with
    disk :=
      { oneCamera.disk with overrides := fun _ => some "width=0\n".toList } }

/-- ffmpeg is asked for it. -/
theorem sized_everywhere_zeroWidth_false :
    ¬ ∀ b sup, startUp b = .ok sup → ∀ steps,
      Runs.Everywhere next Supervisor.Sized sup steps := by
  intro hall
  have hsized := Runs.everywhere_head (hall zeroWidth _ rfl [])
  exact absurd (hsized _ List.mem_cons_self).width (by decide)

end WebcamStreamer
