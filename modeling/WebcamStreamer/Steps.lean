import WebcamStreamer.SupervisionLoop

/-!
# What a step can do

The step function is a table of everything that can happen. This module reads
it once: what start-up leaves (`startUp_spec`), which slots a reconciliation can
add (`Grown`), and the outcomes of a step (`StepsTo`). Everything proved about
steps later on is a case analysis on the latter.

The relations are there so that the function is opened in one place. A
constructor of `StepsTo` carries the tests that lead to it and the whole state
behind it, events included, so that a proof by cases has both the guard of the
source and the outcome at hand. What is left alone is left out by writing the
new state as an update of the old one.
-/

namespace WebcamStreamer

/-! ## Finding a slot

Most steps find a slot, change it and put it back. The lemmas say which slot
is found and what the list of slots looks like when one of them was
replaced. -/

/-- The slot that is found is the first one the predicate holds of. -/
theorem findSlot_eq_some {p : CamSlot → Bool} {slots : List CamSlot} {i : ℕ}
    {s : CamSlot} :
    findSlot p slots = some (i, s) ↔
      slots[i]? = some s ∧ p s = true ∧ ∀ j x, j < i → slots[j]? = some x →
        p x = false := by
  induction slots generalizing i with
  | nil => simp [findSlot]
  | cons a rest ih =>
    rw [findSlot]
    by_cases hp : p a = true
    · rw [if_pos hp]
      constructor
      · intro h
        obtain ⟨rfl, rfl⟩ := Prod.mk.inj (Option.some.inj h)
        exact ⟨rfl, hp, fun j _ hj => absurd hj (Nat.not_lt_zero j)⟩
      · rintro ⟨hget, -, hbefore⟩
        cases i with
        | zero =>
          obtain rfl := Option.some.inj hget
          rfl
        | succ i =>
          have hno := hbefore 0 a (Nat.succ_pos i) rfl
          simp [hp] at hno
    -- the first slot does not answer, and all positions are one further on
    · rw [if_neg hp, Option.map_eq_some_iff]
      constructor
      · rintro ⟨⟨j, x⟩, hx, heq⟩
        obtain ⟨rfl, rfl⟩ := Prod.mk.inj heq
        obtain ⟨hget, hpx, hbefore⟩ := ih.mp hx
        refine ⟨by simpa using hget, hpx, fun k y hk hy => ?_⟩
        cases k with
        | zero =>
          obtain rfl := Option.some.inj hy
          simpa using hp
        | succ k => exact hbefore k y (by omega) (by simpa using hy)
      · rintro ⟨hget, hps, hbefore⟩
        cases i with
        | zero =>
          obtain rfl := Option.some.inj hget
          exact absurd hps hp
        | succ i =>
          refine ⟨(i, s),
            ih.mpr ⟨by simpa using hget, hps, fun j x hj hx => ?_⟩, rfl⟩
          exact hbefore (j + 1) x (by omega) (by simpa using hx)

/-- The slot at a position after one slot was replaced. -/
theorem eq_or_of_getElem?_set {slots : List CamSlot} {i k : ℕ}
    {s s' x : CamSlot}
    (hs : slots[i]? = some s) (hx : (slots.set i s')[k]? = some x) :
    (k = i ∧ x = s') ∨ (k ≠ i ∧ slots[k]? = some x) := by
  by_cases hik : i = k
  · subst hik
    rw [List.getElem?_set_self (List.getElem?_eq_some_iff.mp hs).1] at hx
    exact .inl ⟨rfl, (Option.some.inj hx).symm⟩
  · rw [List.getElem?_set_ne hik] at hx
    exact .inr ⟨Ne.symm hik, hx⟩

namespace Supervisor

theorem findByName_some {sup : Supervisor} {name : String} {i : ℕ} {s : CamSlot}
    (h : sup.findByName name = some (i, s)) :
    sup.slots[i]? = some s ∧ s.cfg.friendlyName = name :=
  ⟨(findSlot_eq_some.mp h).1, by simpa using (findSlot_eq_some.mp h).2.1⟩

theorem findByPath_some {sup : Supervisor} {path : String} {i : ℕ} {s : CamSlot}
    (h : sup.findByPath path = some (i, s)) :
    sup.slots[i]? = some s ∧ dropSlash s.cfg.rtspPath = path :=
  ⟨(findSlot_eq_some.mp h).1, by simpa using (findSlot_eq_some.mp h).2.1⟩

@[simp] theorem slots_setSlot (sup : Supervisor) (i : ℕ) (s : CamSlot) :
    (sup.setSlot i s).slots = sup.slots.set i s := rfl

@[simp] theorem slots_restartMtx (env : Env) (sup : Supervisor) :
    (sup.restartMtx env).slots = sup.slots := rfl

@[simp] theorem slots_tick (env : Env) (sup : Supervisor) :
    (sup.tick env).1.slots
      = sup.slots.mapIdx (fun i s => (sup.tickSlot env i s).1) := by
  refine (List.mapIdx_eq_iff.mpr (fun i => ?_)).symm
  simp [tick, Function.comp_def]

/-- The tick starts MediaMTX again, or leaves it alone. -/
theorem tickMtx_eq_or (env : Env) (sup : Supervisor) :
    (sup.tickMtx env).1 = sup.restartMtx env ∨ (sup.tickMtx env).1 = sup := by
  unfold tickMtx
  split
  next => exact .inl rfl
  next => exact .inr rfl

/-- The tick on MediaMTX changes the process and what it read, and nothing
else. -/
theorem tickMtx_frame (env : Env) (sup : Supervisor) :
    (sup.tickMtx env).1
      = { sup with
          mtx := (sup.tickMtx env).1.mtx
          bMtx := (sup.tickMtx env).1.bMtx
          mtxConfig := (sup.tickMtx env).1.mtxConfig } := by
  rcases sup.tickMtx_eq_or env with h | h
  · rw [h]
    rfl
  · rw [h]

@[simp] theorem slots_tickMtx (env : Env) (sup : Supervisor) :
    (sup.tickMtx env).1.slots = sup.slots := by
  rw [tickMtx_frame]

@[simp] theorem stop_tickMtx (env : Env) (sup : Supervisor) :
    (sup.tickMtx env).1.stop = sup.stop := by
  rw [tickMtx_frame]

/-- What the tick says about MediaMTX says nothing about a camera. -/
theorem eq_of_mem_tickMtx {env : Env} {sup : Supervisor} {e : Event}
    (h : e ∈ (sup.tickMtx env).2) :
    ∃ running, e = .mediamtxStateChanged running := by
  unfold tickMtx at h
  split at h
  next => exact ⟨_, List.mem_singleton.mp h⟩
  next => cases h

@[simp] theorem settings_tick (env : Env) (sup : Supervisor) :
    (sup.tick env).1.settings = sup.settings := by
  show (sup.tickMtx env).1.settings = sup.settings
  rw [tickMtx_frame]

@[simp] theorem disk_tick (env : Env) (sup : Supervisor) :
    (sup.tick env).1.disk = sup.disk := by
  show (sup.tickMtx env).1.disk = sup.disk
  rw [tickMtx_frame]

@[simp] theorem phase_tick (env : Env) (sup : Supervisor) :
    (sup.tick env).1.phase = sup.phase := by
  show (sup.tickMtx env).1.phase = sup.phase
  rw [tickMtx_frame]

@[simp] theorem slots_diffPresence (env : Env) (current : List CameraDevice)
    (sup : Supervisor) :
    (sup.diffPresence env current).slots
      = sup.slots.mapIdx (fun i s => (sup.diffSlot env current i s).1) := by
  refine (List.mapIdx_eq_iff.mpr (fun i => ?_)).symm
  simp [diffPresence, Function.comp_def]

end Supervisor

/-! ## The slots of start-up

Start-up builds the slots one after the other, and each of them depends on its
device, its position and its override file. What it leaves is described
position by position. -/

/-- The override file, the database and the formats decide about the mode and
the size of a camera, never about its name or its path. -/
theorem resolveCameraConfig_ok {ops : FileOps} {disk : Disk}
    {db : KnownCameraDb}
    {defaultEnabled : Bool} {device : CameraDevice}
    {formats : List AdvertisedFormat}
    {cc cfg : CameraConfig}
    (h : resolveCameraConfig ops disk db defaultEnabled device formats cc
      = .ok cfg) :
    cfg.friendlyName = cc.friendlyName ∧ cfg.rtspPath = cc.rtspPath := by
  unfold resolveCameraConfig at h
  split at h
  next => cases h
  next =>
    obtain rfl := Except.ok.inj h
    exact ⟨rfl, rfl⟩

/-- One turn of the loop over the devices of start-up. -/
theorem bootSlots_cons {b : Boot} {disk : Disk} {settings : Settings} {idx : ℕ}
    {device : CameraDevice} {formats : List AdvertisedFormat}
    {rest : List (CameraDevice × List AdvertisedFormat)} {slots : List CamSlot}
    (h : bootSlots b disk settings idx ((device, formats) :: rest)
      = .ok slots) :
    ∃ cfg slots', resolveCameraConfig (b.env.overrideOps idx) disk b.knownDb
        settings.defaultEnabledForNewCameras device formats
        { friendlyName := device.friendlyName, rtspPath := webcamPath idx }
          = .ok cfg ∧
      bootSlots b disk settings (idx + 1) rest = .ok slots' ∧
      slots = (newSlot b.ffExe device formats cfg).startIfEnabled b.stop
        (b.env.starts idx)
        :: slots' := by
  rw [bootSlots] at h
  split at h
  next => cases h
  next cfg hcfg =>
    split at h
    next => cases h
    next slots' hrest =>
      exact ⟨cfg, slots', hcfg, hrest, (Except.ok.inj h).symm⟩

/-- Start-up builds one slot for each device, in the order of the
enumeration. -/
theorem bootSlots_get {b : Boot} {disk : Disk} {settings : Settings} {idx : ℕ}
    {cameras : List (CameraDevice × List AdvertisedFormat)}
    {slots : List CamSlot}
    (h : bootSlots b disk settings idx cameras = .ok slots) {k : ℕ}
    {s : CamSlot}
    (hs : slots[k]? = some s) :
    ∃ device formats cfg, cameras[k]? = some (device, formats) ∧
      resolveCameraConfig (b.env.overrideOps (idx + k)) disk b.knownDb
        settings.defaultEnabledForNewCameras device formats
        { friendlyName := device.friendlyName
          rtspPath := webcamPath (idx + k) } = .ok cfg ∧
      s = (newSlot b.ffExe device formats cfg).startIfEnabled b.stop
        (b.env.starts (idx + k)) := by
  induction cameras generalizing idx slots k with
  | nil =>
    obtain rfl := Except.ok.inj h
    simp at hs
  | cons c rest ih =>
    obtain ⟨device, formats⟩ := c
    obtain ⟨cfg, slots', hcfg, hrest, rfl⟩ := bootSlots_cons h
    cases k with
    | zero =>
      obtain rfl := Option.some.inj hs
      exact ⟨device, formats, cfg, rfl, hcfg, rfl⟩
    | succ k =>
      have hk : idx + 1 + k = idx + (k + 1) := by omega
      have hget := ih hrest hs
      rwa [hk] at hget

theorem length_bootSlots {b : Boot} {disk : Disk}
    {settings : Settings} {idx : ℕ}
    {cameras : List (CameraDevice × List AdvertisedFormat)}
    {slots : List CamSlot}
    (h : bootSlots b disk settings idx cameras = .ok slots) :
    slots.length = cameras.length := by
  induction cameras generalizing idx slots with
  | nil =>
    obtain rfl := Except.ok.inj h
    rfl
  | cons c rest ih =>
    obtain ⟨device, formats⟩ := c
    obtain ⟨cfg, slots', -, hrest, rfl⟩ := bootSlots_cons h
    exact congrArg (· + 1) (ih hrest)

/-- **What start-up leaves.** The parts come in the order in which `main`
makes them, and what fails among them ends the program before there is a
state. -/
theorem startUp_spec {b : Boot} {sup : Supervisor} (h : startUp b = .ok sup) :
    ∃ settings file yml slots,
      ensureCredentials b.env.settingsOps b.disk.settings b.genUser b.genPass
        = .ok (settings, file) ∧
      writeRuntimeYml b.env.ymlOps b.disk.runtimeYml settings.viewer = (true,
        yml) ∧
      bootSlots b { b.disk with
        settings := file, runtimeYml := yml } settings 0 b.cameras
        = .ok slots ∧
      sup = { ffExe := b.ffExe, knownDb := b.knownDb, settings
              disk := { b.disk with settings := file, runtimeYml := yml }
              mtx := (startNoSleep b.stop b.env.mtxStart { cfg := b.mtx } {}).1
              mtxConfig := yml
              bMtx := (startNoSleep b.stop b.env.mtxStart { cfg := b.mtx } {}).2
              slots, stop := b.stop, phase := .starting } := by
  unfold startUp at h
  split at h
  next => cases h
  next settings file hsettings =>
    split at h
    next => cases h
    next yml hyml =>
      dsimp only at h
      split at h
      next => cases h
      next =>
        split at h
        next => cases h
        next slots hslots =>
          split at h
          next =>
            exact ⟨settings, file, yml, slots, hsettings, hyml, hslots,
              (Except.ok.inj h).symm⟩
          next => cases h

/-- A property that every slot built at start-up has. -/
theorem startUp_forall_slots {P : CamSlot → Prop} {b : Boot} {sup : Supervisor}
    (h : startUp b = .ok sup)
    (hadd : ∀ (device : CameraDevice) (formats : List AdvertisedFormat)
      (cfg : CameraConfig)
      (o : StartOutcome),
      P ((newSlot sup.ffExe device formats cfg).startIfEnabled sup.stop o)) :
    ∀ s ∈ sup.slots, P s := by
  obtain ⟨settings, file, yml, slots, -, -, hslots, rfl⟩ := startUp_spec h
  intro s hs
  obtain ⟨k, hk⟩ := List.mem_iff_getElem?.mp hs
  obtain ⟨device, formats, cfg, -, -, rfl⟩ := bootSlots_get hslots hk
  exact hadd _ _ _ _

/-! ## The slots a reconciliation adds

A reconciliation that has found new devices adds a slot for each of them,
unless a slot has the name by then. The relation `Grown` follows the loop, and
properties of the added slots are proved along it. -/

/-- The slots the loop over the new devices `ds` can reach from the slots
`base`: each device that is not `known` may get a slot after the others. -/
inductive Grown (env : Env) (known : List String) (sup : Supervisor)
    (ds : List (CameraDevice × List AdvertisedFormat)) (base : List CamSlot) :
    List CamSlot → Prop where
  | base : Grown env known sup ds base base
  | add {slots : List CamSlot} {device : CameraDevice}
      {formats : List AdvertisedFormat}
      {cfg : CameraConfig} (before : Grown env known sup ds base slots)
      (hd : (device, formats) ∈ ds) (hnew : device.friendlyName ∉ known)
      (hcfg : resolveCameraConfig (env.overrideOps slots.length)
        sup.disk sup.knownDb
        sup.settings.defaultEnabledForNewCameras device formats
        { friendlyName := device.friendlyName, rtspPath := allocPath slots }
        = .ok cfg) :
      Grown env known sup ds base
        (slots ++ [(newSlot sup.ffExe device formats cfg).startIfEnabled
          sup.stop
          (env.starts slots.length)])

namespace Grown

variable {env : Env} {known : List String} {sup : Supervisor}
variable {ds : List (CameraDevice × List AdvertisedFormat)}
  {base slots : List CamSlot}

/-- The slots that were there stay where they are. -/
theorem append (h : Grown env known sup ds base slots) :
    ∃ added, slots = base ++ added := by
  induction h with
  | base => exact ⟨[], (List.append_nil base).symm⟩
  | add before hd hnew hcfg ih =>
    obtain ⟨added, rfl⟩ := ih
    exact ⟨_, List.append_assoc _ _ _⟩

/-- A new device and the formats that were enumerated for it. -/
theorem device_of_mem {newDevices : List CameraDevice}
    {newFormats : ℕ → List AdvertisedFormat} {d : CameraDevice}
    {formats : List AdvertisedFormat}
    (h : (d, formats) ∈ newDevices.mapIdx (fun j d => (d, newFormats j))) :
    ∃ j, newDevices[j]? = some d ∧ newFormats j = formats := by
  obtain ⟨j, hj⟩ := List.mem_iff_getElem?.mp h
  rw [List.getElem?_mapIdx] at hj
  obtain ⟨d', hd', heq⟩ := Option.map_eq_some_iff.mp hj
  obtain ⟨rfl, rfl⟩ := Prod.mk.inj heq
  exact ⟨j, hd', rfl⟩

/-- **An added slot** is a new one for one of the devices, resolved and started
with what the environment has for its position. -/
theorem eq_newSlot (h : Grown env known sup ds base slots) {k : ℕ} {s : CamSlot}
    (hk : base.length ≤ k) (hs : slots[k]? = some s) :
    ∃ device formats path cfg, (device, formats) ∈ ds ∧
      device.friendlyName ∉ known ∧
      resolveCameraConfig (env.overrideOps k) sup.disk sup.knownDb
        sup.settings.defaultEnabledForNewCameras device formats
        { friendlyName := device.friendlyName, rtspPath := path } = .ok cfg ∧
      s = (newSlot sup.ffExe device formats cfg).startIfEnabled sup.stop
        (env.starts k) := by
  induction h with
  | base => exact absurd (List.getElem?_eq_some_iff.mp hs).1 (Nat.not_lt.mpr hk)
  | @add slots device formats cfg before hd hnew hcfg ih =>
    rcases Nat.lt_or_ge k slots.length with hlt | hge
    · rw [List.getElem?_append_left hlt] at hs
      exact ih hs
    · rw [List.getElem?_append_right hge] at hs
      have hlast : k = slots.length := by
        have hpos := (List.getElem?_eq_some_iff.mp hs).1
        rw [List.length_singleton] at hpos
        omega
      obtain rfl := List.mem_singleton.mp (List.mem_of_getElem? hs)
      exact ⟨device, formats, _, cfg, hd, hnew, hlast ▸ hcfg, by rw [hlast]⟩

/-- What every added slot is like. -/
theorem get_added {P : CamSlot → Prop} (h : Grown env known sup ds base slots)
    (hadd : ∀ (device : CameraDevice) (formats : List AdvertisedFormat)
      (cfg : CameraConfig)
      (o : StartOutcome),
      P ((newSlot sup.ffExe device formats cfg).startIfEnabled sup.stop o))
    {k : ℕ} {s : CamSlot} (hk : base.length ≤ k) (hs : slots[k]? = some s) :
    P s := by
  obtain ⟨device, formats, path, cfg, -, -, -, rfl⟩ := h.eq_newSlot hk hs
  exact hadd _ _ _ _

/-- A property that every added slot has spreads from the old slots to all. -/
theorem forall_mem {P : CamSlot → Prop} (h : Grown env known sup ds base slots)
    (hbase : ∀ s ∈ base, P s)
    (hadd : ∀ (i : ℕ) (device : CameraDevice) (formats : List AdvertisedFormat)
      (path : String)
      (cfg : CameraConfig), (device, formats) ∈ ds →
      device.friendlyName ∉ known →
        resolveCameraConfig (env.overrideOps i) sup.disk sup.knownDb
          sup.settings.defaultEnabledForNewCameras device formats
          { friendlyName := device.friendlyName, rtspPath := path } = .ok cfg →
        P ((newSlot sup.ffExe device formats cfg).startIfEnabled sup.stop
          (env.starts i))) :
    ∀ s ∈ slots, P s := by
  intro s hs
  obtain ⟨k, hk⟩ := List.mem_iff_getElem?.mp hs
  rcases Nat.lt_or_ge k base.length with hlt | hge
  · obtain ⟨added, rfl⟩ := h.append
    exact hbase s
      (List.mem_of_getElem? ((List.getElem?_append_left hlt).symm.trans hk))
  · obtain ⟨device, formats, path, cfg, hd, hnew, hcfg, rfl⟩ :=
      h.eq_newSlot hge hk
    exact hadd _ _ _ _ _ hd hnew hcfg

end Grown

@[simp] theorem CamSlot.cfg_startIfEnabled (stop : Bool) (o : StartOutcome)
    (s : CamSlot) :
    (s.startIfEnabled stop o).cfg = s.cfg := by
  unfold CamSlot.startIfEnabled
  split <;> rfl

@[simp] theorem CamSlot.present_startIfEnabled (stop : Bool) (o : StartOutcome)
    (s : CamSlot) :
    (s.startIfEnabled stop o).present = s.present := by
  unfold CamSlot.startIfEnabled
  split <;> rfl

/-- One turn of the loop over the new devices: a known device is passed over,
and the slot of another one is appended. -/
theorem Supervisor.addDevices_cons {env : Env} {known : List String}
    {sup sup' : Supervisor}
    {device : CameraDevice} {formats : List AdvertisedFormat}
    {ds : List (CameraDevice × List AdvertisedFormat)} {changed changed' : Bool}
    (h : sup.addDevices env known changed ((device, formats) :: ds) = .ok (sup',
      changed')) :
    device.friendlyName ∈ known ∧
      sup.addDevices env known changed ds = .ok (sup', changed') ∨
      device.friendlyName ∉ known ∧ ∃ cfg,
        resolveCameraConfig (env.overrideOps sup.slots.length)
          sup.disk sup.knownDb
          sup.settings.defaultEnabledForNewCameras device formats
          { friendlyName := device.friendlyName
            rtspPath := allocPath sup.slots } = .ok cfg ∧
        { sup with
          slots := sup.slots
            ++ [(newSlot sup.ffExe device formats cfg).startIfEnabled
              sup.stop (env.starts sup.slots.length)]
          }.addDevices env known true ds
            = .ok (sup', changed') := by
  rw [addDevices, addDevice] at h
  by_cases hknown : device.friendlyName ∈ known
  · rw [if_pos hknown] at h
    exact .inl ⟨hknown, by simpa using h⟩
  · rw [if_neg hknown] at h
    dsimp only at h
    cases hcfg : resolveCameraConfig
      (env.overrideOps sup.slots.length) sup.disk sup.knownDb
      sup.settings.defaultEnabledForNewCameras device formats
      { friendlyName := device.friendlyName
        rtspPath := allocPath sup.slots } with
    | error what =>
      rw [hcfg] at h
      cases h
    | ok cfg =>
      rw [hcfg] at h
      exact .inr ⟨hknown, cfg, rfl, by simpa using h⟩

/-- The loop over the new devices adds one slot for each of them that is not
known, in their order, and changes nothing but the slots. -/
theorem Supervisor.addDevices_spec_of_grown {env : Env} {known : List String}
    {sup sup' : Supervisor}
    {all ds : List (CameraDevice × List AdvertisedFormat)}
    {base slots : List CamSlot} {changed changed' : Bool} (hsub : ds ⊆ all)
    (hg : Grown env known sup all base slots)
    (h : { sup with slots := slots }.addDevices env known changed ds
      = .ok (sup', changed')) :
    ∃ slots', sup' = { sup with slots := slots' } ∧
      Grown env known sup all base slots' ∧
      slots'.map (fun s => s.cfg.friendlyName)
        = slots.map (fun s => s.cfg.friendlyName)
          ++ ((ds.map Prod.fst).map CameraDevice.friendlyName).filter
            (fun nm => decide (nm ∉ known)) ∧
      changed' = (changed ||
        (ds.map Prod.fst).any (fun d => decide (d.friendlyName ∉ known))) := by
  induction ds generalizing slots changed with
  | nil =>
    simp only [addDevices, Except.ok.injEq, Prod.mk.injEq] at h
    exact ⟨slots, h.1.symm, hg, by simp, by simp [h.2]⟩
  | cons d ds ih =>
    obtain ⟨device, formats⟩ := d
    obtain ⟨hmem, hsub⟩ := List.cons_subset.mp hsub
    rcases addDevices_cons h with ⟨hknown, hrest⟩ | ⟨hknown, cfg, hcfg, hrest⟩
    · obtain ⟨slots', hsup, hgrown, hnames, hchanged⟩ := ih hsub hg hrest
      exact ⟨slots', hsup, hgrown,
        by simp [hnames, hknown], by simp [hchanged, hknown]⟩
    · obtain ⟨slots', hsup, hgrown, hnames, hchanged⟩ :=
        ih hsub (hg.add hmem hknown hcfg) hrest
      refine ⟨slots', hsup, hgrown, ?_, by simp [hchanged, hknown]⟩
      have hname : cfg.friendlyName = device.friendlyName :=
        (resolveCameraConfig_ok hcfg).1
      simp [hnames, hknown, newSlot, hname]

/-- **What the second locked section of a reconciliation does to the slots.**
The slots that were there are the beginning of the new list, and nothing but
the list is changed. -/
theorem Supervisor.finishReconcile_spec {env : Env}
    {newDevices : List CameraDevice}
    {listChanged : Bool} {newFormats : ℕ → List AdvertisedFormat}
    {sup sup' : Supervisor}
    {events : List Event}
    (h : sup.finishReconcile env newDevices listChanged newFormats
      = .ok (sup', events)) :
    ∃ slots, sup' = { sup with slots := slots } ∧
      Grown env (sup.slots.map (fun s => s.cfg.friendlyName)) sup
        (newDevices.mapIdx (fun j d => (d, newFormats j))) sup.slots slots ∧
      slots.map (fun s => s.cfg.friendlyName)
        = sup.slots.map (fun s => s.cfg.friendlyName)
          ++ (newDevices.map CameraDevice.friendlyName).filter
            (fun nm =>
              decide (nm ∉ sup.slots.map (fun s => s.cfg.friendlyName))) ∧
      events = if (listChanged || newDevices.any
            (fun d => decide (d.friendlyName
              ∉ sup.slots.map (fun s => s.cfg.friendlyName)))) = true
        then
          [.camerasChanged { sup with slots := slots }.allCamsJson]
            else [] := by
  unfold finishReconcile at h
  split at h
  next hnone =>
    obtain ⟨rfl, rfl⟩ := hnone
    simp only [Except.ok.injEq, Prod.mk.injEq] at h
    obtain ⟨rfl, rfl⟩ := h
    exact ⟨sup.slots, rfl, .base, by simp, by simp⟩
  next =>
    split at h
    next => cases h
    next sup₁ changed hadd =>
      simp only [Except.ok.injEq, Prod.mk.injEq] at h
      obtain ⟨rfl, rfl⟩ := h
      obtain ⟨slots, rfl, hgrown, hnames, hchanged⟩ :=
        addDevices_spec_of_grown (List.Subset.refl _) .base hadd
      -- the formats are paired with the devices, and the names are those of the
      -- devices
      have hdevices :
          (newDevices.mapIdx (fun j d => (d, newFormats j))).map Prod.fst
          = newDevices := by
        refine List.ext_getElem? (fun i => ?_)
        cases h : newDevices[i]? <;> simp [h]
      rw [hdevices] at hnames hchanged
      exact ⟨slots, rfl, hgrown, hnames, by rw [hchanged]⟩

/-! ## The outcomes of a step

This is the relation that nearly all invariants are proved along. Each
constructor says what a step requires and all that it leaves, so that no proof
has to go back to the function. -/

/-- **What a step can do.** The cases carry what was tested on the way, so
that a proof by cases has the guards of the source at hand. -/
inductive StepsTo (sup : Supervisor) (st : Step) : Outcome → Prop where
  | served {rq : IpcRequest} {served : Served} (ha : st.action = .request rq)
      (heq : handle st.env rq sup = served)
      (hserved : Serves st.env sup rq served) :
      StepsTo sup st (served.sup, served.events)
  /-- A hook message that is malformed, reports another event or names no
  slot. -/
  | hookIgnored {msg : Json String} {events : List Event}
      (ha : st.action = .hook msg)
      (hev : ∀ e ∈ events, ∃ name payload, e = .viewer name payload) :
      StepsTo sup st (sup, events)
  | hookCounted {msg : Json String} {event path ip user name : String}
      {ev : HookEvent} {i : ℕ}
      {s : CamSlot} {payload : ViewerJson} (ha : st.action = .hook msg)
      (hfields : hookFields msg = .ok (event, path, ip, user))
      (hevent : HookEvent.ofString event = some ev)
      (hs : sup.findByPath path = some (i, s)) :
      StepsTo sup st (sup.setSlot i (s.countViewer ev),
        [.viewer name payload,
          .cameraStateChanged (sup.camJson (s.countViewer ev))])
  | publisherExit {i : ℕ} {code : UInt32}
      (ha : st.action = .publisherExit i code) :
      StepsTo sup st
        ({ sup with
          slots :=
            sup.slots.modify i (fun s => { s with proc := s.proc.exit code }) },
              [])
  | mtxExit {code : UInt32} (ha : st.action = .mtxExit code) :
      StepsTo sup st ({ sup with mtx := sup.mtx.exit code }, [])
  | consoleSignal (ha : st.action = .consoleSignal) :
      StepsTo sup st ({ sup with stop := true }, [])
  | editSettings {file : JsonFile} (ha : st.action = .editSettings file) :
      StepsTo sup st ({ sup with disk := { sup.disk with settings := file } },
        [])
  | beginLoop (ha : st.action = .beginLoop) (hphase : sup.phase = .starting) :
      StepsTo sup st
        ({ sup with
          slots := sup.slots.map CamSlot.noteRunning, phase := .looping }, [])
  | tick (ha : st.action = .tick) (hphase : sup.phase = .looping) :
      StepsTo sup st (sup.tick st.env)
  | diffPresence {current : List CameraDevice}
      (ha : st.action = .diffPresence current)
      (hphase : sup.phase = .looping) :
      StepsTo sup st (sup.diffPresence st.env current, [])
  | reconciled {newFormats : ℕ → List AdvertisedFormat}
      {newDevices : List CameraDevice}
      {listChanged : Bool} {slots : List CamSlot} {events : List Event}
      (ha : st.action = .finishReconcile newFormats)
      (hphase : sup.phase = .reconciling newDevices listChanged)
      (hgrown : Grown st.env (sup.slots.map (fun s => s.cfg.friendlyName)) sup
        (newDevices.mapIdx (fun j d => (d, newFormats j))) sup.slots slots)
      (hnames : slots.map (fun s => s.cfg.friendlyName)
        = sup.slots.map (fun s => s.cfg.friendlyName)
          ++ (newDevices.map CameraDevice.friendlyName).filter
            (fun nm =>
              decide (nm ∉ sup.slots.map (fun s => s.cfg.friendlyName))))
      (hevents : events = if (listChanged || newDevices.any
            (fun d => decide (d.friendlyName
              ∉ sup.slots.map (fun s => s.cfg.friendlyName)))) = true
        then
          [.camerasChanged { sup with slots := slots }.allCamsJson] else []) :
      StepsTo sup st ({ sup with slots := slots, phase := .looping }, events)

/-- The outcomes of the events pipe's handler. -/
theorem StepsTo.hook {sup : Supervisor} {st : Step} {msg : Json String}
    (ha : st.action = .hook msg) : StepsTo sup st (sup.hookEvent msg) := by
  unfold Supervisor.hookEvent
  split
  next => exact .hookIgnored ha (by simp)
  next event path ip user hfields =>
    split
    next => exact .hookIgnored ha (by simp)
    next ev hevent =>
      split
      next => exact .hookIgnored ha (by simp)
      next i s hs => exact .hookCounted ha hfields hevent hs

/-- **Every step has one of the outcomes.** It is the only place where the
definition of a step is opened; all invariants are proved from the cases. -/
theorem stepsTo_of_step {sup : Supervisor} {st : Step} {out : Outcome}
    (h : step sup st = some out) : StepsTo sup st out := by
  cases ha : st.action with
  | request rq =>
    simp only [step, ha, Option.some.injEq] at h
    exact h ▸ .served ha rfl (serves_handle st.env rq sup)
  | hook msg =>
    simp only [step, ha, Option.some.injEq] at h
    exact h ▸ .hook ha
  | publisherExit i code =>
    simp only [step, ha, Option.some.injEq] at h
    exact h ▸ .publisherExit ha
  | mtxExit code =>
    simp only [step, ha, Option.some.injEq] at h
    exact h ▸ .mtxExit ha
  | consoleSignal =>
    simp only [step, ha, Option.some.injEq] at h
    exact h ▸ .consoleSignal ha
  | editSettings file =>
    simp only [step, ha, Option.some.injEq] at h
    exact h ▸ .editSettings ha
  | beginLoop =>
    simp only [step, ha] at h
    split at h
    next hphase => exact Option.some.inj h ▸ .beginLoop ha hphase
    next => cases h
  | tick =>
    simp only [step, ha] at h
    split at h
    next hphase => exact Option.some.inj h ▸ .tick ha hphase
    next => cases h
  | diffPresence current =>
    simp only [step, ha] at h
    split at h
    next hphase => exact Option.some.inj h ▸ .diffPresence ha hphase
    next => cases h
  | finishReconcile newFormats =>
    simp only [step, ha] at h
    split at h
    next newDevices listChanged hphase =>
      split at h
      next => cases h
      next sup' events hfin =>
        obtain rfl := Option.some.inj h
        obtain ⟨slots, rfl, hgrown, hnames, hevents⟩ :=
          Supervisor.finishReconcile_spec hfin
        exact .reconciled ha hphase hgrown hnames hevents
    next => cases h

/-- A tick is the tick of the source, and nothing else. -/
theorem eq_tick_of_step {sup : Supervisor} {st : Step} {out : Outcome}
    (h : step sup st = some out) (ha : st.action = .tick) :
    out = sup.tick st.env := by
  simp only [step, ha] at h
  split at h
  next => exact (Option.some.inj h).symm
  next => cases h

/-- What is fixed at start-up: the publisher's executable, the database of known
cameras, and what the file system takes for one file. -/
theorem fixed_step {sup : Supervisor} {st : Step} {out : Outcome}
    (h : step sup st = some out) :
    out.1.ffExe = sup.ffExe ∧ out.1.knownDb = sup.knownDb ∧
      out.1.disk.fileKey = sup.disk.fileKey := by
  cases stepsTo_of_step h with
  | served ha heq hserved =>
    cases hserved with
    | credentialsSet hm hu hu0 hp hp0 hsave hyml ht =>
      subst ht
      exact ⟨rfl, rfl, rfl⟩
    | _ => exact ⟨rfl, rfl, rfl⟩
  | tick =>
    show (sup.tickMtx st.env).1.ffExe = _ ∧ (sup.tickMtx st.env).1.knownDb = _ ∧
      (sup.tickMtx st.env).1.disk.fileKey = _
    rw [Supervisor.tickMtx_frame]
    exact ⟨rfl, rfl, rfl⟩
  | _ => exact ⟨rfl, rfl, rfl⟩

end WebcamStreamer
