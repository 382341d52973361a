import WebcamStreamer.SlotMoves

/-!
# Slots keep their place and their path

A slot is never removed and never moves, so that its position is its identity.
Its stream path is chosen once, by one of two allocators: start-up counts the
devices, and a hot-add searches for the first `/webcamN` that is not taken.
Because no slot ever goes away, the search finds the number of slots there are,
and the two agree: the slot at position `k` has the path `/webcam` followed by
`k`.

A reconciliation looks at the enumeration twice, with the lock released in
between. What the other threads do meanwhile changes neither the names of the
slots nor their presence, so the second look still finds what the first one
left.
-/

namespace WebcamStreamer

/-! ## Paths

A new slot gets the first path that is free. While all slots have the path of
their position, the first free one is that of the next position, so that the
search never has to pass over a gap. -/

theorem webcamPath_injective {i j : ℕ} (h : webcamPath i = webcamPath j) :
    i = j := by
  have hrepr : i.repr = j.repr := by simpa [webcamPath] using h
  have hdigits : Nat.toDigits 10 i = Nat.toDigits 10 j := by
    simpa [Nat.repr] using congrArg String.toList hrepr
  have hread := congrArg (fun l => Nat.ofDigitChars 10 l 0) hdigits
  rwa [Nat.ofDigitChars_toDigits (by omega) (by omega),
    Nat.ofDigitChars_toDigits (by omega) (by omega)] at hread

/-- The loop of `allocPath` for so many iterations: what it has returned by
then, if it has. The index stays below the number of iterations. -/
def allocPathLoop (slots : List CamSlot) (iterations : ℕ) : Option String :=
  (LeastFree.search? (pathTaken slots) iterations 0).map webcamPath

/-- **The search for a path ends.** After one iteration more than its index,
which is at most the number of slots, it returns the first path that no slot
has. Among one path more than there are slots, one is free, which is why the
loop needs no bound of its own. -/
theorem allocPath_least (slots : List CamSlot) :
    ∃ i ≤ slots.length,
      (∀ iterations, allocPathLoop slots iterations
        = if i < iterations then some (webcamPath i) else none)
      ∧ allocPath slots = webcamPath i
      ∧ (∀ s ∈ slots, s.cfg.rtspPath ≠ webcamPath i)
      ∧ ∀ j < i, ∃ s ∈ slots, s.cfg.rtspPath = webcamPath j := by
  have hinj : Function.Injective webcamPath := fun _ _ => webcamPath_injective
  obtain ⟨i, hi, hfree, hbefore⟩ :=
    LeastFree.exists_least_free hinj (slots.map (fun s => s.cfg.rtspPath))
  rw [List.length_map] at hi
  have hmem : ∀ j, webcamPath j ∈ slots.map (fun s => s.cfg.rtspPath)
      ↔ ∃ s ∈ slots, s.cfg.rtspPath = webcamPath j := fun j => List.mem_map
  have htaken : ∀ j, pathTaken slots j = true ↔
      ∃ s ∈ slots, s.cfg.rtspPath = webcamPath j := by
    intro j
    simp only [pathTaken, List.any_eq_true, beq_iff_eq]
  have hlow : ∀ j < i, pathTaken slots j = true := fun j hj =>
    (htaken j).mpr ((hmem j).mp (hbefore j hj))
  have hno : pathTaken slots i = false :=
    Bool.eq_false_iff.mpr (fun h => hfree ((hmem i).mpr ((htaken i).mp h)))
  refine ⟨i, hi, fun iterations => ?_, ?_,
    fun s hs heq => hfree ((hmem i).mpr ⟨s, hs, heq⟩),
      fun j hj => (hmem j).mp (hbefore j hj)⟩
  · rw [allocPathLoop,
      LeastFree.search?_eq (Nat.zero_le i) (fun j _ hj => hlow j hj) hno,
      Nat.zero_add]
    split <;> rfl
  · exact congrArg webcamPath
      (LeastFree.searchFree_eq (Nat.zero_le i) (by omega)
      (fun j _ hj => hlow j hj) hno)

/-- The slot at position `k` has the path `/webcam` followed by `k`. -/
def PathsInOrder (slots : List CamSlot) : Prop :=
  ∀ k s, slots[k]? = some s → s.cfg.rtspPath = webcamPath k

namespace PathsInOrder

variable {slots : List CamSlot}

theorem nodup (h : PathsInOrder slots) :
    (slots.map (fun s => s.cfg.rtspPath)).Nodup := by
  refine List.pairwise_iff_getElem.mpr (fun i j hi hj hij heq => ?_)
  rw [List.length_map] at hi hj
  rw [List.getElem_map, List.getElem_map, h i _ (List.getElem?_eq_getElem hi),
    h j _ (List.getElem?_eq_getElem hj)] at heq
  exact absurd (webcamPath_injective heq) (by omega)

/-- While the paths are in order, the first free one is that of the position
after the last. -/
theorem allocPath_eq (h : PathsInOrder slots) :
    allocPath slots = webcamPath slots.length := by
  unfold allocPath
  congr 1
  refine LeastFree.searchFree_eq (Nat.zero_le _) (by omega)
    (fun k _ hk => ?_) ?_
  · have hget := List.getElem?_eq_getElem hk
    exact List.any_eq_true.mpr ⟨_, List.getElem_mem hk,
      by simpa using h k _ hget⟩
  · refine List.any_eq_false.mpr (fun s hs => ?_)
    obtain ⟨k, hk⟩ := List.mem_iff_getElem?.mp hs
    have hlt : k < slots.length := (List.getElem?_eq_some_iff.mp hk).1
    rw [h k s hk]
    simpa using fun heq => absurd (webcamPath_injective heq) (by omega)

theorem append_singleton (h : PathsInOrder slots) {s : CamSlot}
    (hs : s.cfg.rtspPath = webcamPath slots.length) :
    PathsInOrder (slots ++ [s]) := by
  intro k x hx
  rcases Nat.lt_or_ge k slots.length with hk | hk
  · rw [List.getElem?_append_left hk] at hx
    exact h k x hx
  · rw [List.getElem?_append_right hk] at hx
    obtain ⟨hzero, rfl⟩ : k - slots.length = 0 ∧ s = x := by
      cases hk' : k - slots.length <;> simp_all
    rw [hs]
    congr 1
    omega

/-- The loop over the new devices keeps the paths in order. -/
theorem grown {env : Env} {known : List String} {sup : Supervisor}
    {ds : List (CameraDevice × List AdvertisedFormat)} {base : List CamSlot}
    (hbase : PathsInOrder base) (h : Grown env known sup ds base slots) :
    PathsInOrder slots := by
  induction h with
  | base => exact hbase
  | add before hd hnew hcfg ih =>
    refine ih.append_singleton ?_
    rw [CamSlot.cfg_startIfEnabled]
    exact (resolveCameraConfig_ok hcfg).2.trans ih.allocPath_eq

end PathsInOrder

theorem pathsInOrder_startUp {b : Boot} {sup : Supervisor}
    (h : startUp b = .ok sup) :
    PathsInOrder sup.slots := by
  obtain ⟨settings, file, yml, slots, -, -, hslots, rfl⟩ := startUp_spec h
  intro k s hk
  obtain ⟨device, formats, cfg, -, hcfg, rfl⟩ := bootSlots_get hslots hk
  rw [Nat.zero_add] at hcfg
  rw [CamSlot.cfg_startIfEnabled]
  exact (resolveCameraConfig_ok hcfg).2

/-! ## What a slot keeps

What a step can do to a slot is known from its move. The name, the path and
the device are in no move at all, and the configuration only changes in two of
the requests. -/

/-- The step is a `set-mode` for the camera with this name. -/
def SetsMode (name : String) (st : Step) : Prop :=
  ∃ rq parsed upd, st.action = .request rq ∧ rq.method = "set-mode" ∧
    setModeParams rq.params = .ok (name, parsed, upd)

/-- The step is a `set-stream-enabled` for the camera with this name. -/
def SetsEnabled (name : String) (st : Step) : Prop :=
  ∃ rq, st.action = .request rq ∧ rq.method = "set-stream-enabled" ∧
    rq.params.valueString "name" = .ok name

/-- What the slot `s` keeps over the given steps, `s'` being what it is
afterwards. -/
structure SlotKept (steps : List Step) (s s' : CamSlot) : Prop where
  name : s'.cfg.friendlyName = s.cfg.friendlyName
  path : s'.cfg.rtspPath = s.cfg.rtspPath
  mode : (∀ st ∈ steps, ¬ SetsMode s.cfg.friendlyName st) →
    s'.cfg.mode = s.cfg.mode ∧ s'.cfg.width = s.cfg.width ∧
    s'.cfg.height = s.cfg.height ∧
      s'.cfg.fps = s.cfg.fps
  enabled : (∀ st ∈ steps, ¬ SetsEnabled s.cfg.friendlyName st) →
    s'.cfg.enabled = s.cfg.enabled

namespace SlotKept

variable {s s' s'' : CamSlot} {st : Step} {steps : List Step}

theorem of_cfg_eq (h : s'.cfg = s.cfg) : SlotKept steps s s' := by
  constructor <;> simp [h]

theorem cons (h : SlotKept [st] s s') (hs : SlotKept steps s' s'') :
    SlotKept (st :: steps) s s'' where
  name := hs.name.trans h.name
  path := hs.path.trans h.path
  mode hno := by
    obtain ⟨hst, hsteps⟩ := List.forall_mem_cons.mp hno
    obtain ⟨hm, hw, hh, hf⟩ := h.mode (by simpa using hst)
    obtain ⟨hm', hw', hh', hf'⟩ := hs.mode (by simpa [h.name] using hsteps)
    exact ⟨hm'.trans hm, hw'.trans hw, hh'.trans hh, hf'.trans hf⟩
  enabled hno := by
    obtain ⟨hst, hsteps⟩ := List.forall_mem_cons.mp hno
    exact (hs.enabled (by simpa [h.name] using hsteps)).trans
      (h.enabled (by simpa using hst))

end SlotKept

namespace CamSlot

variable (ffExe : String) (stop : Bool) (o : StartOutcome) (s : CamSlot)

/-- The tick changes the publisher, its backoff, the flag and the count, and
nothing else. -/
theorem tick_frame (now : Time) :
    ∃ proc backoff lastRunning viewerCount,
      (s.tick stop now o).1 = { s with
        proc, backoff, lastRunning, viewerCount } := by
  unfold tick
  dsimp only
  repeat' split
  all_goals exact ⟨_, _, _, _, rfl⟩

/-- The presence diff changes the presence, the publisher, its backoff and the
count. -/
theorem diffPresence_frame (isPresent : Bool) :
    ∃ proc backoff viewerCount, (s.diffPresence ffExe stop o isPresent).1
      = { s with present := isPresent, proc, backoff, viewerCount } := by
  rcases s.diffPresence_cases ffExe stop o isPresent with
    ⟨rfl, hd⟩ | ⟨-, rfl, hd⟩ | ⟨-, rfl, hd⟩
  · rw [hd]
    exact ⟨_, _, _, rfl⟩
  · rw [hd]
    exact ⟨_, _, _, rfl⟩
  · rw [hd]
    dsimp only
    split
    next => exact ⟨_, _, _, rfl⟩
    next => exact ⟨_, _, _, rfl⟩

/-- `set-stream-enabled` changes the flag, the publisher, its backoff and the
count. -/
theorem enable_frame (want : Bool) :
    ∃ proc backoff viewerCount, s.enable ffExe stop o want
      = { s with cfg := { s.cfg with
        enabled := want }, proc, backoff, viewerCount } := by
  rcases s.enable_cases ffExe stop o want with ⟨-, -, he⟩ | ⟨-, -, he⟩ | ⟨-, he⟩
  · exact ⟨_, _, _, he⟩
  · exact ⟨_, _, _, he⟩
  · exact ⟨_, _, _, he⟩

theorem cfg_tick (now : Time) : (s.tick stop now o).1.cfg = s.cfg := by
  obtain ⟨proc, backoff, lastRunning, viewerCount, htick⟩ :=
    s.tick_frame stop o now
  rw [htick]

theorem present_tick (now : Time) :
    (s.tick stop now o).1.present = s.present := by
  obtain ⟨proc, backoff, lastRunning, viewerCount, htick⟩ :=
    s.tick_frame stop o now
  rw [htick]

theorem cfg_diffPresence (isPresent : Bool) :
    (s.diffPresence ffExe stop o isPresent).1.cfg = s.cfg := by
  obtain ⟨proc, backoff, viewerCount, hdiff⟩ :=
    s.diffPresence_frame ffExe stop o isPresent
  rw [hdiff]

theorem present_diffPresence (isPresent : Bool) :
    (s.diffPresence ffExe stop o isPresent).1.present = isPresent := by
  obtain ⟨proc, backoff, viewerCount, hdiff⟩ :=
    s.diffPresence_frame ffExe stop o isPresent
  rw [hdiff]

theorem cfg_enable (want : Bool) :
    (s.enable ffExe stop o want).cfg = { s.cfg with enabled := want } := by
  obtain ⟨proc, backoff, viewerCount, henable⟩ :=
    s.enable_frame ffExe stop o want
  rw [henable]

theorem present_enable (want : Bool) :
    (s.enable ffExe stop o want).present = s.present := by
  obtain ⟨proc, backoff, viewerCount, henable⟩ :=
    s.enable_frame ffExe stop o want
  rw [henable]

end CamSlot

/-- Every move keeps the slot's name and path, and only the two methods touch
the rest of its configuration. -/
theorem SlotMove.kept {sup : Supervisor} {st : Step} {i : ℕ} {s s' : CamSlot}
    (h : SlotMove sup st i s s') : SlotKept [st] s s' := by
  cases h with
  | same => exact .of_cfg_eq rfl
  | restarted => exact .of_cfg_eq rfl
  | modeThrown ha hm hp _ _ hs _ =>
    obtain rfl := (Supervisor.findByName_some hs).2
    exact ⟨rfl, rfl, fun hno => absurd ⟨_, _, _, ha, hm,
      hp⟩ (hno st List.mem_cons_self), fun _ => rfl⟩
  | modeSet ha hm hp _ _ hs _ =>
    obtain rfl := (Supervisor.findByName_some hs).2
    exact ⟨rfl, rfl, fun hno => absurd ⟨_, _, _, ha, hm,
      hp⟩ (hno st List.mem_cons_self), fun _ => rfl⟩
  | enabledSet ha hm hp _ _ hs _ =>
    obtain rfl := (Supervisor.findByName_some hs).2
    refine ⟨?_, ?_, fun _ => ?_,
      fun hno => absurd ⟨_, ha, hm, hp⟩ (hno st List.mem_cons_self)⟩
    all_goals simp [CamSlot.cfg_enable]
  | counted => exact .of_cfg_eq rfl
  | exited => exact .of_cfg_eq rfl
  | noted => exact .of_cfg_eq rfl
  | ticked => exact .of_cfg_eq (CamSlot.cfg_tick _ _ _ _)
  | diffed => exact .of_cfg_eq (CamSlot.cfg_diffPresence _ _ _ _ _)

/-- **No run removes a slot**, and over any run a slot keeps its name, its path
and what it was configured to. -/
theorem run_slot {sup sup' : Supervisor} {steps : List Step}
    (h : Runs.run next sup steps = some sup') {k : ℕ} {s : CamSlot}
    (hs : sup.slots[k]? = some s) :
    ∃ s', sup'.slots[k]? = some s' ∧ SlotKept steps s s' := by
  induction steps generalizing sup s with
  | nil =>
    obtain rfl := Option.some.inj h
    exact ⟨s, hs, .of_cfg_eq rfl⟩
  | cons st steps ih =>
    obtain ⟨sup₁, hnext, hrun⟩ := Runs.run_cons_iff.mp h
    obtain ⟨out, hout, rfl⟩ := Option.map_eq_some_iff.mp hnext
    obtain ⟨s₁, hs₁, hmove⟩ := step_slot hout hs
    obtain ⟨s', hs', hkept⟩ := ih hrun hs₁
    exact ⟨s', hs', hmove.kept.cons hkept⟩

/-- One step keeps the paths in order. -/
theorem pathsInOrder_step {sup sup' : Supervisor} {st : Step}
    (h : PathsInOrder sup.slots)
    (hstep : next sup st = some sup') : PathsInOrder sup'.slots := by
  obtain ⟨out, hout, rfl⟩ := Option.map_eq_some_iff.mp hstep
  rcases step_added hout with hlen | ⟨newFormats, newDevices, listChanged,
    -, -, hgrown⟩
  · intro k y hy
    obtain ⟨x, hx, hmove⟩ := slot_of_step hout hlen hy
    exact hmove.kept.path.trans (h k x hx)
  · exact h.grown hgrown

/-! ## A whole reconciliation

Between the two locked sections of a reconciliation the other threads may do
anything. The relation in the middle says what has to survive that, so that
the second section finds what the first one has left for it. -/

/-- Between the two locked sections of a reconciliation the phase stands, and
every slot keeps its name and its presence. -/
structure Waiting (current newDevices : List CameraDevice) (listChanged : Bool)
    (sup : Supervisor) : Prop where
  phase : sup.phase = .reconciling newDevices listChanged
  present : ∀ s ∈ sup.slots,
    s.present = true ↔ ∃ d ∈ current, d.friendlyName = s.cfg.friendlyName
  covered : ∀ d ∈ current, d ∈ newDevices ∨
    ∃ s ∈ sup.slots, s.cfg.friendlyName = d.friendlyName
  enumerated : newDevices ⊆ current

/-- After a completed reconciliation every enumerated device has a slot, and a
slot is present exactly when its device was enumerated. -/
structure Reconciled (current : List CameraDevice) (slots : List CamSlot) :
    Prop where
  covered : ∀ d ∈ current, ∃ s ∈ slots, s.cfg.friendlyName = d.friendlyName
  present : ∀ s ∈ slots,
    s.present = true ↔ ∃ d ∈ current, d.friendlyName = s.cfg.friendlyName

/-- What the first locked section leaves. -/
theorem waiting_diffPresence (env : Env) (current : List CameraDevice)
    (sup : Supervisor) :
    ∃ newDevices listChanged, Waiting current newDevices listChanged
      (sup.diffPresence env current) := by
  refine ⟨_, _, rfl, fun s hs => ?_, fun d hd => ?_, List.filter_sublist.subset⟩
  · rw [Supervisor.slots_diffPresence] at hs
    obtain ⟨i, hi, rfl⟩ := List.mem_mapIdx.mp hs
    rw [Supervisor.diffSlot, CamSlot.present_diffPresence,
      CamSlot.cfg_diffPresence]
    simp
  · by_cases hslot : ∃ s ∈ sup.slots, s.cfg.friendlyName = d.friendlyName
    · obtain ⟨s, hs, hname⟩ := hslot
      obtain ⟨k, hk⟩ := List.mem_iff_getElem?.mp hs
      refine .inr ⟨(sup.diffSlot env current k s).1, ?_, ?_⟩
      · rw [Supervisor.slots_diffPresence]
        exact List.mem_of_getElem? (by rw [List.getElem?_mapIdx, hk]; rfl)
      · rw [Supervisor.diffSlot, CamSlot.cfg_diffPresence, hname]
    · exact .inl (List.mem_filter.mpr ⟨hd, by simpa using hslot⟩)

/-- Only the presence diff changes whether a camera is present. -/
theorem SlotMove.present {sup : Supervisor} {st : Step} {i : ℕ} {s s' : CamSlot}
    (h : SlotMove sup st i s s')
    (hno : ∀ current, st.action ≠ .diffPresence current) :
    s'.present = s.present := by
  cases h with
  | enabledSet => exact CamSlot.present_enable _ _ _ _ _
  | ticked => exact CamSlot.present_tick _ _ _ _
  | diffed ha => exact absurd ha (hno _)
  | _ => rfl

/-- The phase is the main thread's own: the other threads leave it alone, and
in the middle of a reconciliation all that the main thread can do is finish
it. -/
theorem step_phase {sup : Supervisor} {st : Step} {out : Outcome}
    {newDevices : List CameraDevice} {listChanged : Bool}
    (h : step sup st = some out)
    (hphase : sup.phase = .reconciling newDevices listChanged)
    (hno : ∀ newFormats, st.action ≠ .finishReconcile newFormats) :
    out.1.phase = sup.phase ∧ ∀ current, st.action ≠ .diffPresence current := by
  cases stepsTo_of_step h with
  | served ha heq hserved =>
    refine ⟨?_, fun current hd => Action.noConfusion (ha.symm.trans hd)⟩
    cases hserved with
    | credentialsSet hm hu hu0 hp hp0 hsave hyml ht =>
      subst ht
      rfl
    | _ => rfl
  | hookIgnored ha | hookCounted ha | publisherExit ha | mtxExit ha
  | consoleSignal ha
  | editSettings ha =>
    exact ⟨rfl, fun current hd => Action.noConfusion (ha.symm.trans hd)⟩
  | beginLoop ha hp | tick ha hp | diffPresence ha hp =>
    rw [hphase] at hp
    cases hp
  | reconciled ha => exact absurd ha (hno _)

namespace Waiting

variable {current newDevices : List CameraDevice} {listChanged : Bool}
  {sup sup' : Supervisor}

/-- What the other threads do between the two locked sections. -/
theorem step {st : Step} (h : Waiting current newDevices listChanged sup)
    (hnext : next sup st = some sup')
    (hno : ∀ newFormats, st.action ≠ .finishReconcile newFormats) :
    Waiting current newDevices listChanged sup' := by
  obtain ⟨out, hout, rfl⟩ := Option.map_eq_some_iff.mp hnext
  obtain ⟨hphase, hdiff⟩ := step_phase hout h.phase hno
  have hlen := length_slots_step hout hno
  refine ⟨hphase.trans h.phase, fun y hy => ?_, fun d hd => ?_, h.enumerated⟩
  · obtain ⟨k, hk⟩ := List.mem_iff_getElem?.mp hy
    obtain ⟨x, hx, hmove⟩ := slot_of_step hout hlen hk
    rw [hmove.present hdiff, hmove.kept.name]
    exact h.present _ (List.mem_of_getElem? hx)
  · refine (h.covered d hd).imp_right (fun ⟨x, hx, hname⟩ => ?_)
    obtain ⟨k, hk⟩ := List.mem_iff_getElem?.mp hx
    obtain ⟨y, hy, hmove⟩ := step_slot hout hk
    exact ⟨y, List.mem_of_getElem? hy, hmove.kept.name.trans hname⟩

theorem run {steps : List Step} (h : Waiting current newDevices listChanged sup)
    (hrun : Runs.run next sup steps = some sup')
    (hno : ∀ st ∈ steps, ∀ newFormats,
      st.action ≠ .finishReconcile newFormats) :
    Waiting current newDevices listChanged sup' := by
  have hguarded : Runs.Guarded next
      (fun _ st => ∀ newFormats,
        st.action ≠ .finishReconcile newFormats) sup steps :=
    Runs.guarded_of_forall_mem (fun st hst _ => hno st hst)
  exact Runs.run_invariant (Waiting current newDevices listChanged)
    (fun _ _ _ h hst hnext => h.step hnext hst) h hguarded hrun

/-- What the second locked section leaves. -/
theorem finish {env : Env} {newFormats : ℕ → List AdvertisedFormat}
    (h : Waiting current newDevices listChanged sup)
    (hnext : next sup ⟨env, .finishReconcile newFormats⟩ = some sup') :
    Reconciled current sup'.slots := by
  obtain ⟨out, hout, rfl⟩ := Option.map_eq_some_iff.mp hnext
  simp only [WebcamStreamer.step, h.phase] at hout
  split at hout
  next => cases hout
  next sup₁ events hfin =>
    obtain rfl := Option.some.inj hout
    obtain ⟨slots, rfl, hgrown, hnames, -⟩ :=
      Supervisor.finishReconcile_spec hfin
    have hname : ∀ nm, (∃ s ∈ slots, s.cfg.friendlyName = nm)
        ↔ nm ∈ slots.map (fun s => s.cfg.friendlyName) := by simp
    constructor
    · intro d hd
      rw [hname, hnames, List.mem_append]
      rcases h.covered d hd with hnew | ⟨s, hs, hsname⟩
      · by_cases hknown : d.friendlyName
          ∈ sup.slots.map (fun s => s.cfg.friendlyName)
        · exact .inl hknown
        · exact .inr (List.mem_filter.mpr ⟨List.mem_map_of_mem hnew,
            by simpa using hknown⟩)
      · exact .inl (hsname ▸ List.mem_map_of_mem hs)
    · refine hgrown.forall_mem h.present
        (fun i device formats path cfg hd _ hcfg => ?_)
      rw [CamSlot.present_startIfEnabled, CamSlot.cfg_startIfEnabled]
      refine iff_of_true rfl ⟨device, h.enumerated ?_,
        (resolveCameraConfig_ok hcfg).1.symm⟩
      obtain ⟨j, hget, -⟩ := Grown.device_of_mem hd
      exact List.mem_of_getElem? hget

end Waiting

/-- Start-up and every step keep the paths in order. -/
theorem pathsInOrder_bootRun {b : Boot} {steps : List Step} {sup : Supervisor}
    (h : bootRun b steps = some sup) : PathsInOrder sup.slots := by
  obtain ⟨sup₀, hboot, hrun⟩ := bootRun_eq_some.mp h
  exact Runs.run_invariant_of_forall (fun sup => PathsInOrder sup.slots)
    (fun _ _ _ hs hstep => pathsInOrder_step hs hstep)
      (pathsInOrder_startUp hboot) hrun

/-- **Slots are append-only and keep their path.** In every reachable state the
slot at position `k` has the path `/webcam` followed by `k`, so that the paths
are distinct. From there on no run removes a slot or changes its name or path,
and only `set-mode` and `set-stream-enabled` change what it is configured to. A
reconciliation, whatever the other threads do between its two locked sections,
leaves every enumerated device with a slot and exactly the slots of enumerated
devices present. -/
theorem slots_append_only {b : Boot} {steps : List Step} {sup : Supervisor}
    (h : bootRun b steps = some sup) :
    PathsInOrder sup.slots ∧
      (sup.slots.map (fun s => s.cfg.rtspPath)).Nodup ∧
      (∀ (more : List Step) (sup' : Supervisor),
        Runs.run next sup more = some sup' →
        ∀ (k : ℕ) (s : CamSlot), sup.slots[k]? = some s →
          ∃ s', sup'.slots[k]? = some s' ∧ SlotKept more s s') ∧
      ∀ (env : Env) (current : List CameraDevice) (between : List Step)
        (env' : Env)
        (newFormats : ℕ → List AdvertisedFormat) (sup' : Supervisor),
        (∀ st ∈ between, ∀ formats, st.action ≠ .finishReconcile formats) →
        Runs.run next sup
          (⟨env, .diffPresence current⟩ :: (between ++ [⟨env',
            .finishReconcile newFormats⟩]))
            = some sup' →
        Reconciled current sup'.slots := by
  have hpaths := pathsInOrder_bootRun h
  refine ⟨hpaths, hpaths.nodup,
    fun more sup' hrun k s hs => run_slot hrun hs, ?_⟩
  intro env current between env' newFormats sup' hno hrun
  obtain ⟨sup₁, hfirst, hrest⟩ := Runs.run_cons_iff.mp hrun
  obtain ⟨sup₂, hbetween, hlast⟩ := Runs.run_append.mp hrest
  obtain ⟨sup₃, hfinish, hnil⟩ := Runs.run_cons_iff.mp hlast
  obtain rfl := Option.some.inj hnil
  obtain ⟨out, hout, rfl⟩ := Option.map_eq_some_iff.mp hfirst
  have hwaiting : ∃ newDevices listChanged,
      Waiting current newDevices listChanged out.1 := by
    simp only [step] at hout
    split at hout
    next =>
      obtain rfl := Option.some.inj hout
      exact waiting_diffPresence env current sup
    next => cases hout
  obtain ⟨newDevices, listChanged, hwaiting⟩ := hwaiting
  exact (hwaiting.run hbetween hno).finish hfinish

/-- The only camera is unplugged, and another one is plugged in. -/
def swapCameras : List Step :=
  [{ action := .beginLoop },
    { action := .diffPresence [{ friendlyName := "Other" }] },
    { action := .finishReconcile (fun _ => []) }]

theorem slots_append_only_swapCameras :
    ∃ sup, bootRun oneCamera swapCameras = some sup ∧
      PathsInOrder sup.slots := by
  have hsome : (bootRun oneCamera swapCameras).isSome = true := rfl
  obtain ⟨sup, hsup⟩ := Option.isSome_iff_exists.mp hsome
  exact ⟨sup, hsup, (slots_append_only hsup).1⟩

end WebcamStreamer
