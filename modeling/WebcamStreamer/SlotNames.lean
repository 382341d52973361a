import WebcamStreamer.CameraEnum
import WebcamStreamer.SlotPaths

/-!
# The names of the slots

Requests, override files and the rows of the user interface find a camera by
its friendly name. A reconciliation adds no slot for a device whose name some
slot has, and compares the new devices with the slots it began with. It does
not compare them with each other, and start-up compares nothing, so that two
cameras of one model that arrive together get two slots with one name. Then a
request reaches the first of them only.

Whether names are distinct therefore depends on what the cameras of a machine
call themselves. The condition speaks of the devices that arrive together, at
start-up or in one reconciliation, and it is necessary as well: names are
never changed and slots never removed, so that two slots of one name stay two
for the rest of the run.
-/

namespace WebcamStreamer

/-- The names of the cameras, in the order of the slots. -/
abbrev cameraNames (slots : List CamSlot) : List String :=
  slots.map (fun s => s.cfg.friendlyName)

/-- Only the end of a reconciliation adds names. -/
theorem step_names {sup : Supervisor} {st : Step} {out : Outcome}
    (h : step sup st = some out)
    (hno : ∀ newFormats, st.action ≠ .finishReconcile newFormats) :
    cameraNames out.1.slots = cameraNames sup.slots := by
  have hlen := length_slots_step h hno
  refine List.ext_getElem? (fun k => ?_)
  rw [List.getElem?_map, List.getElem?_map]
  cases hs : sup.slots[k]? with
  | none => rw [List.getElem?_eq_none (hlen ▸ List.getElem?_eq_none_iff.mp hs)]
  | some s =>
    obtain ⟨s', hs', hmove⟩ := step_slot h hs
    rw [hs', Option.map_some, Option.map_some, hmove.kept.name]

/-- Over a run names are only added, at the end. -/
theorem cameraNames_prefix_run {sup sup' : Supervisor} {steps : List Step}
    (h : Runs.run next sup steps = some sup') :
    cameraNames sup.slots <+: cameraNames sup'.slots := by
  refine List.prefix_iff_getElem?.mpr (fun k hk => ?_)
  have hlt : k < sup.slots.length := by simpa using hk
  obtain ⟨s', hs', hkept⟩ := run_slot h (List.getElem?_eq_getElem hlt)
  rw [List.getElem?_map, hs', List.getElem_map, ← hkept.name]
  rfl

/-! ## What every name satisfies

A name comes into the system by an enumeration and never changes. So whatever
holds of all enumerated names holds of the names of the slots, and of the
names of the devices that are about to get one. -/

/-- The step's enumeration, if it has one, is that of some listing. -/
def Step.Enumerates (st : Step) : Prop :=
  ∀ current, st.action = .diffPresence current → Enumerated current

/-- The names of the slots, and of the devices that are about to get one,
satisfy `P`. -/
structure NamesSatisfy (P : String → Prop) (sup : Supervisor) : Prop where
  slots : ∀ s ∈ sup.slots, P s.cfg.friendlyName
  arriving :
    ∀ newDevices listChanged, sup.phase = .reconciling newDevices listChanged →
    ∀ d ∈ newDevices, P d.friendlyName

/-- A step leaves the main thread between the two locked sections of a
reconciliation only if it was there already or has just finished the first. -/
theorem reconciling_of_step {sup : Supervisor} {st : Step} {out : Outcome}
    (h : step sup st = some out) {newDevices : List CameraDevice}
    {listChanged : Bool}
    (hphase : out.1.phase = .reconciling newDevices listChanged) :
    sup.phase = .reconciling newDevices listChanged ∨
      ∃ current, st.action = .diffPresence current ∧ newDevices ⊆ current := by
  cases stepsTo_of_step h with
  | served ha heq hserved =>
    cases hserved with
    | credentialsSet hm hu hu0 hp hp0 hsave hyml ht =>
      subst ht
      exact .inl hphase
    | _ => exact .inl hphase
  | hookIgnored | hookCounted | publisherExit | mtxExit | consoleSignal
  | editSettings =>
    exact .inl hphase
  | beginLoop => cases hphase
  | tick => exact .inl ((sup.phase_tick st.env).symm.trans hphase)
  | @diffPresence current ha =>
    obtain ⟨rfl, -⟩ := Phase.reconciling.inj hphase
    exact .inr ⟨current, ha, List.filter_sublist.subset⟩
  | reconciled => cases hphase

namespace NamesSatisfy

variable {P : String → Prop} {sup : Supervisor}

theorem startUp {b : Boot} (h : startUp b = .ok sup)
    (hcams : ∀ c ∈ b.cameras, P c.1.friendlyName) : NamesSatisfy P sup := by
  obtain ⟨settings, file, yml, slots, -, -, hslots, rfl⟩ := startUp_spec h
  refine ⟨fun s hs => ?_, fun _ _ hphase => Phase.noConfusion hphase⟩
  obtain ⟨k, hk⟩ := List.mem_iff_getElem?.mp hs
  obtain ⟨device, formats, cfg, hdevice, hcfg, rfl⟩ := bootSlots_get hslots hk
  rw [CamSlot.cfg_startIfEnabled]
  show P cfg.friendlyName
  rw [(resolveCameraConfig_ok hcfg).1]
  exact hcams _ (List.mem_of_getElem? hdevice)

theorem step {sup' : Supervisor} {st : Step} (h : NamesSatisfy P sup)
    (hnext : next sup st = some sup')
    (hst : ∀ current, st.action = .diffPresence current → ∀ d ∈ current,
      P d.friendlyName) :
    NamesSatisfy P sup' := by
  obtain ⟨out, hout, rfl⟩ := Option.map_eq_some_iff.mp hnext
  constructor
  · rcases step_added hout with hlen | ⟨newFormats, newDevices, listChanged, -,
      hphase, hgrown⟩
    · intro y hy
      obtain ⟨k, hk⟩ := List.mem_iff_getElem?.mp hy
      obtain ⟨x, hx, hmove⟩ := slot_of_step hout hlen hk
      rw [hmove.kept.name]
      exact h.slots x (List.mem_of_getElem? hx)
    · refine hgrown.forall_mem h.slots
        (fun i device formats path cfg hd _ hcfg => ?_)
      rw [CamSlot.cfg_startIfEnabled]
      show P cfg.friendlyName
      rw [(resolveCameraConfig_ok hcfg).1]
      obtain ⟨j, hdevice, -⟩ := Grown.device_of_mem hd
      exact h.arriving _ _ hphase _ (List.mem_of_getElem? hdevice)
  · intro newDevices listChanged hphase
    rcases reconciling_of_step hout hphase with hwas | ⟨current, ha, hsub⟩
    · exact h.arriving _ _ hwas
    · exact fun d hd => hst current ha d (hsub hd)

/-- What the names of all enumerated devices satisfy, the names of the slots
satisfy in every state. -/
theorem everywhere {b : Boot} (hb : WebcamStreamer.startUp b = .ok sup)
    (hcams : Enumerated (b.cameras.map Prod.fst)) {steps : List Step}
    (hsteps : ∀ st ∈ steps, st.Enumerates)
    (hP : ∀ devices, Enumerated devices → ∀ d ∈ devices, P d.friendlyName) :
    Runs.Everywhere next (NamesSatisfy P) sup steps := by
  have hboot : NamesSatisfy P sup :=
    startUp hb (fun c hc => hP _ hcams _ (List.mem_map_of_mem hc))
  refine Runs.everywhere_of_guarded (fun s st t hs hok hnext => ?_) hboot
    (Runs.guarded_of_forall_mem (fun st hst (_ : Supervisor) => hsteps st hst))
  exact hs.step hnext (fun current ha => hP current (hok current ha))

end NamesSatisfy

/-! ## Distinct names

Devices of one model have one name, and nothing in the program makes names
different. Distinct names stay so exactly where the devices that arrive
together are different from each other, since those that are there already are
passed over. -/

/-- Start-up gives every device a slot with its name. -/
theorem cameraNames_startUp {b : Boot} {sup : Supervisor}
    (h : startUp b = .ok sup) :
    cameraNames sup.slots = b.cameras.map (fun c => c.1.friendlyName) := by
  obtain ⟨settings, file, yml, slots, -, -, hslots, rfl⟩ := startUp_spec h
  refine List.ext_getElem? (fun k => ?_)
  rw [List.getElem?_map, List.getElem?_map]
  cases hs : slots[k]? with
  | none =>
    have hlen := length_bootSlots hslots
    rw [List.getElem?_eq_none (hlen ▸ List.getElem?_eq_none_iff.mp hs)]
    rfl
  | some s =>
    obtain ⟨device, formats, cfg, hdevice, hcfg, rfl⟩ := bootSlots_get hslots hs
    rw [hdevice, Option.map_some, Option.map_some, CamSlot.cfg_startIfEnabled]
    exact congrArg some (resolveCameraConfig_ok hcfg).1

/-- Every slot can be addressed: the names are distinct, and a request with the
name of a slot reaches that slot. -/
structure Addressable (sup : Supervisor) : Prop where
  distinct : (cameraNames sup.slots).Nodup
  named : ∀ i s, sup.slots[i]? = some s →
    s.cfg.friendlyName ≠ "" ∧ sup.findByName s.cfg.friendlyName = some (i, s)

/-- While no slot is nameless, distinct names are all that is needed. -/
theorem addressable_iff {sup : Supervisor}
    (h : NamesSatisfy (fun nm => nm ≠ "") sup) :
    Addressable sup ↔ (cameraNames sup.slots).Nodup := by
  refine ⟨Addressable.distinct, fun hnodup => ⟨hnodup, fun i s hs => ?_⟩⟩
  refine ⟨h.slots s (List.mem_of_getElem? hs),
    findSlot_eq_some.mpr ⟨hs, by simp, ?_⟩⟩
  intro j x hj hx
  have hlt : i < (cameraNames sup.slots).length := by
    simpa using (List.getElem?_eq_some_iff.mp hs).1
  refine beq_eq_false_iff_ne.mpr (fun heq => hj.ne ?_)
  refine (List.getElem?_inj (hj.trans hlt) hnodup).mp ?_
  rw [List.getElem?_map, List.getElem?_map, hs, hx, Option.map_some,
    Option.map_some, heq]

/-- At the end of a reconciliation the devices that have no slot yet have
different names. -/
def DistinctArrivals (sup : Supervisor) (st : Step) : Prop :=
  ∀ newFormats newDevices listChanged, st.action = .finishReconcile newFormats →
    sup.phase = .reconciling newDevices listChanged →
    ((newDevices.map CameraDevice.friendlyName).filter
      (fun nm => decide (nm ∉ cameraNames sup.slots))).Nodup

/-- **One step**: distinct names stay distinct exactly where the new ones are.
Names are compared as they come from the listing, and slots of cameras that
are absent count. -/
theorem nodup_step {sup sup' : Supervisor} {st : Step}
    (hs : (cameraNames sup.slots).Nodup)
    (h : next sup st = some sup') :
    (cameraNames sup'.slots).Nodup ↔ DistinctArrivals sup st := by
  obtain ⟨out, hout, rfl⟩ := Option.map_eq_some_iff.mp h
  by_cases hfin : ∃ newFormats, st.action = .finishReconcile newFormats
  · obtain ⟨newFormats, ha⟩ := hfin
    cases stepsTo_of_step hout with
    | reconciled ha' hphase hgrown hnames =>
      show (cameraNames _).Nodup ↔ _
      rw [cameraNames, hnames, List.nodup_append]
      constructor
      · rintro ⟨-, hnew, -⟩ newFormats' newDevices' listChanged' - hphase'
        obtain ⟨rfl, -⟩ := Phase.reconciling.inj (hphase.symm.trans hphase')
        exact hnew
      · refine fun hok => ⟨hs, hok _ _ _ ha' hphase, fun a ha b hb hab => ?_⟩
        exact of_decide_eq_true (List.mem_filter.mp hb).2 (hab ▸ ha)
    | served ha' | hookIgnored ha' | hookCounted ha' | publisherExit ha'
    | mtxExit ha'
    | consoleSignal ha' | editSettings ha' | beginLoop ha' | tick ha'
    | diffPresence ha' =>
      exact Action.noConfusion (ha.symm.trans ha')
  · have hno : ∀ newFormats, st.action ≠ .finishReconcile newFormats :=
      fun newFormats ha => hfin ⟨newFormats, ha⟩
    rw [step_names hout hno]
    exact iff_of_true hs (fun newFormats _ _ ha => absurd ha (hno newFormats))

/-- **Every slot can be addressed by name in every state of a run exactly when
the devices of the first enumeration have different names, and so have the
devices that get a slot at the end of each reconciliation.** -/
theorem addressable_everywhere_iff {b : Boot} {sup : Supervisor}
    (hb : startUp b = .ok sup)
    (hcams : Enumerated (b.cameras.map Prod.fst)) {steps : List Step}
    (hsteps : ∀ st ∈ steps, st.Enumerates) :
    Runs.Everywhere next Addressable sup steps
      ↔ (b.cameras.map (fun c => c.1.friendlyName)).Nodup ∧
        Runs.Guarded next DistinctArrivals sup steps := by
  have hnamed :
      Runs.Everywhere next (NamesSatisfy (fun nm => nm ≠ "")) sup steps :=
    NamesSatisfy.everywhere hb hcams hsteps (fun _ => Enumerated.name_ne_empty)
  have hdistinct : ∀ hs : (cameraNames sup.slots).Nodup,
      Runs.Everywhere next (fun t => (cameraNames t.slots).Nodup) sup steps
        ↔ Runs.Guarded next DistinctArrivals sup steps :=
    Runs.everywhere_iff_guarded (fun _ _ _ hs h => nodup_step hs h)
  rw [← cameraNames_startUp hb]
  constructor
  · intro h
    have hs := (Runs.everywhere_head h).distinct
    exact ⟨hs, (hdistinct hs).mp (h.mono (fun _ ht => ht.distinct))⟩
  · rintro ⟨hs, hok⟩
    exact (hnamed.and ((hdistinct hs).mpr hok)).mono
      (fun _ ht => (addressable_iff ht.1).mpr ht.2)

/-- A listing of one camera. -/
theorem enumerated_one : Enumerated [{ friendlyName := "Cam" }] :=
  ⟨"\"Cam\" (video)".toList, by decide⟩

/-- Another camera is plugged in. -/
def plugOther : List Step :=
  [{ action := .beginLoop },
    { action := .diffPresence [{ friendlyName := "Cam" },
      { friendlyName := "Other" }] },
    { action := .finishReconcile (fun _ => []) }]

theorem addressable_everywhere_iff_plugOther :
    ∃ sup, startUp oneCamera = .ok sup ∧
      Runs.Everywhere next Addressable sup plugOther := by
  refine ⟨_, rfl,
    (@addressable_everywhere_iff oneCamera _ rfl enumerated_one plugOther
    ?_).mpr ⟨by decide, ?_⟩⟩
  · intro st hst current ha
    simp only [plugOther, List.mem_cons, List.not_mem_nil, or_false] at hst
    rcases hst with rfl | rfl | rfl
    · cases ha
    · obtain rfl := Action.diffPresence.inj ha
      exact ⟨"\"Cam\" (video)\n\"Other\" (video)".toList, by decide⟩
    · cases ha
  · refine fun _ hbegin => ⟨nofun,
      fun _ hdiff => ⟨nofun, fun _ _ => ⟨?_, trivial⟩⟩⟩
    obtain rfl := Option.some.inj hbegin
    obtain rfl := Option.some.inj hdiff
    intro newFormats newDevices listChanged _ hphase
    obtain ⟨rfl, -⟩ := Phase.reconciling.inj hphase
    exact List.nodup_singleton _

/-- Two cameras of one model. -/
def twinCameras : Boot :=
  { oneCamera with cameras := [({ friendlyName := "Cam" }, []),
    ({ friendlyName := "Cam" }, [])] }

/-- Two cameras of one model get one name. -/
theorem twins_share_name :
    ¬ ∀ (b : Boot) (steps : List Step) (sup : Supervisor),
      Enumerated (b.cameras.map Prod.fst) → (∀ st ∈ steps, st.Enumerates) →
      bootRun b steps = some sup → Addressable sup := by
  intro h
  have hcams : Enumerated (twinCameras.cameras.map Prod.fst) :=
    ⟨"\"Cam\" (video)\n\"Cam\" (video)".toList, by decide⟩
  have hsup := h twinCameras [] _ hcams (by simp) rfl
  exact absurd hsup.distinct (by decide)

end WebcamStreamer
