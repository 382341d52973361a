import WebcamStreamer.SlotMoves

/-!
# Which cameras publish

A publisher is meant to run only for a camera that is plugged in and enabled.
Start-up, the supervision tick, the presence diff, a hot-add and
`set-stream-enabled` all ask for this before they start anything.
`restart-camera` and `set-mode` do not: they start a publisher for whatever slot
they are given. The runs in which these two only reach cameras that are wanted
are exactly the runs in which every publisher is a wanted one.

Wanted is present and enabled, and it is read off the slot itself, so that the
property says of each slot whether its process may be alive. A publisher that
is stopped is no exception, and neither is one that has exited: what is
excluded is a process that is alive for a camera that is gone or switched off.
-/

namespace WebcamStreamer

/-- A slot whose publisher is alive belongs to a camera that is present and
enabled. -/
def CamSlot.PublishesWanted (s : CamSlot) : Prop :=
  s.proc.alive = true → s.present = true ∧ s.cfg.enabled = true

/-- Every publisher that is alive is that of a camera that is present and
enabled. -/
def PublishersWanted (sup : Supervisor) : Prop :=
  ∀ s ∈ sup.slots, s.PublishesWanted

/-- The slot `s` at position `i` is the one a `restart-camera` or a `set-mode`
stops, rebuilds and starts. -/
inductive Restarts (sup : Supervisor) (st : Step) (i : ℕ) (s : CamSlot) :
    Prop where
  | restartCamera {rq : IpcRequest} {nm : String} (ha : st.action = .request rq)
      (hm : rq.method = "restart-camera")
      (hp : rq.params.valueString "name" = .ok nm)
      (hne : nm ≠ "") (hs : sup.findByName nm = some (i, s))
  | setMode {rq : IpcRequest} {nm : String} {parsed : Mode}
      {upd : CameraOverride}
      (ha : st.action = .request rq) (hm : rq.method = "set-mode")
      (hp : setModeParams rq.params = .ok (nm, parsed, upd)) (hne : nm ≠ "")
      (hmode : parsed ≠ .unknown) (hs : sup.findByName nm = some (i, s))
      (hops : (st.env.overrideOps i).existsThrows = none)

/-- A slot that the step restarts belongs to a camera that is present and
enabled, unless no process comes of it. -/
def RestartsWanted (sup : Supervisor) (st : Step) : Prop :=
  ∀ i s, Restarts sup st i s →
    (s.present = true ∧ s.cfg.enabled = true) ∨ sup.stop = true ∨
      (st.env.starts i).created = none

namespace CamSlot.PublishesWanted

variable {s : CamSlot}

theorem of_dead (h : s.proc.alive = false) : s.PublishesWanted := fun ha => by
  rw [h] at ha
  cases ha

theorem of_wanted (hp : s.present = true) (he : s.cfg.enabled = true) :
    s.PublishesWanted :=
  fun _ => ⟨hp, he⟩

/-- After a restart everything depends on whether there is a process. -/
theorem restart_iff {ffExe : String} {stop : Bool} {o : StartOutcome} :
    (s.restart ffExe stop o).PublishesWanted
      ↔ (s.present = true ∧ s.cfg.enabled = true) ∨ stop = true ∨
      o.created = none := by
  unfold PublishesWanted
  rw [alive_restart, cfg_restart, present_restart]
  cases stop <;> cases o.created <;> simp

theorem startIfEnabled {ffExe : String} {device : CameraDevice}
    {formats : List AdvertisedFormat} {cfg : CameraConfig} {stop : Bool}
    {o : StartOutcome} :
    ((newSlot ffExe device formats cfg).startIfEnabled stop
      o).PublishesWanted := by
  unfold CamSlot.startIfEnabled
  split
  next he => exact of_wanted rfl he
  next => exact of_dead rfl

theorem enable (h : s.PublishesWanted) {ffExe : String} {stop : Bool}
    {o : StartOutcome}
    {want : Bool} : (s.enable ffExe stop o want).PublishesWanted := by
  rcases s.enable_cases ffExe stop o want with ⟨rfl, hp, he⟩ | ⟨rfl, hp,
    he⟩ | ⟨rfl, he⟩
  · rw [he]
    exact of_wanted hp rfl
  · rw [he]
    exact fun ha => absurd ((h ha).1.symm.trans hp) Bool.noConfusion
  · rw [he]
    exact of_dead rfl

theorem tick (h : s.PublishesWanted) {stop : Bool} {now : Time}
    {o : StartOutcome} :
    (s.tick stop now o).1.PublishesWanted := by
  unfold CamSlot.tick
  split
  next hw =>
    obtain ⟨hp, he⟩ := Bool.and_eq_true_iff.mp hw
    -- whatever was started or not, the camera is the same
    dsimp only
    repeat' split
    all_goals exact of_wanted hp he
  next =>
    split
    next => exact h
    next => exact h

theorem diffPresence (h : s.PublishesWanted) {ffExe : String} {stop : Bool}
    {o : StartOutcome}
    {isPresent : Bool} :
    (s.diffPresence ffExe stop o isPresent).1.PublishesWanted := by
  rcases s.diffPresence_cases ffExe stop o isPresent with
    ⟨-, hd⟩ | ⟨-, -, hd⟩ | ⟨hp, -, hd⟩
  · rw [hd]
    exact h
  · rw [hd]
    exact of_dead rfl
  · rw [hd]
    dsimp only
    split
    next he => exact of_wanted rfl he
    next => exact fun ha => absurd (h ha).1 (by simp [hp])

end CamSlot.PublishesWanted

/-- A move keeps the publishers wanted if the restarts in it are of wanted
cameras. -/
theorem SlotMove.publishesWanted {sup : Supervisor} {st : Step} {i : ℕ}
    {s s' : CamSlot}
    (hm : SlotMove sup st i s s') (hs : s.PublishesWanted)
    (hok : RestartsWanted sup st) :
    s'.PublishesWanted := by
  cases hm with
  | same => exact hs
  | restarted ha hm hp hne hs' =>
    exact CamSlot.PublishesWanted.restart_iff.mpr
      (hok i s (.restartCamera ha hm hp hne hs'))
  | modeThrown => exact hs
  | modeSet ha hm hp hne hmode hs' hops =>
    exact CamSlot.PublishesWanted.restart_iff.mpr
      (hok i s (.setMode ha hm hp hne hmode hs' hops))
  | enabledSet => exact hs.enable
  | counted => exact hs
  | exited => exact .of_dead (SupervisedProcess.alive_exit _ _)
  | noted => exact hs
  | ticked => exact hs.tick
  | diffed => exact hs.diffPresence

/-- What becomes of a slot that a step restarts: the configuration may change,
but not whether the camera is enabled. -/
theorem Restarts.slot {sup : Supervisor} {st : Step} {i : ℕ} {s : CamSlot}
    {out : Outcome}
    (hr : Restarts sup st i s) (h : step sup st = some out) :
    ∃ s₁ : CamSlot, s₁.present = s.present ∧ s₁.cfg.enabled = s.cfg.enabled ∧
      out.1.slots[i]?
        = some (s₁.restart sup.ffExe sup.stop
          (st.env.starts i)).noteRunning := by
  obtain ⟨env, action⟩ := st
  cases hr with
  | @restartCamera rq nm ha hm hp hne hs =>
    obtain rfl : action = _ := ha
    obtain rfl := Option.some.inj h
    have hlt :=
      (List.getElem?_eq_some_iff.mp (Supervisor.findByName_some hs).1).1
    refine ⟨s, rfl, rfl, ?_⟩
    show (handle env rq sup).sup.slots[i]? = _
    rw [handle_restartCamera hm hp hne hs]
    exact List.getElem?_set_self hlt
  | @setMode rq nm parsed upd ha hm hp hne hmode hs hops =>
    obtain rfl : action = _ := ha
    obtain rfl := Option.some.inj h
    have hlt :=
      (List.getElem?_eq_some_iff.mp (Supervisor.findByName_some hs).1).1
    obtain ⟨flag, file, hsave⟩ :=
      exists_saveOverride (sup.disk.override nm) nm upd hops
    refine ⟨{ s with cfg := s.cfg.update upd }, rfl, rfl, ?_⟩
    show (handle env rq sup).sup.slots[i]? = _
    rw [handle_setMode hm hp hne hmode hs, hsave]
    exact List.getElem?_set_self hlt

/-- **One step**: from a state in which every publisher is wanted, a step leads
to such a state exactly where its restarts are of wanted cameras. -/
theorem publishersWanted_step {sup sup' : Supervisor} {st : Step}
    (hs : PublishersWanted sup)
    (h : next sup st = some sup') :
    PublishersWanted sup' ↔ RestartsWanted sup st := by
  obtain ⟨out, hout, rfl⟩ := Option.map_eq_some_iff.mp h
  constructor
  · intro hafter i s hr
    obtain ⟨s₁, hpresent, henabled, hget⟩ := hr.slot hout
    have hnoted := hafter _ (List.mem_of_getElem? hget)
    -- noting whether it runs changes nothing about the publisher
    have hslot : (s₁.restart sup.ffExe sup.stop
        (st.env.starts i)).PublishesWanted := hnoted
    rwa [CamSlot.PublishesWanted.restart_iff, hpresent, henabled] at hslot
  · intro hok
    exact step_forall_slots hout hs
      (fun k x y _ hx hm => hm.publishesWanted hx hok)
      (fun _ _ _ _ => .startIfEnabled)

/-- Start-up leaves only wanted publishers. -/
theorem publishersWanted_startUp {b : Boot} {sup : Supervisor}
    (h : startUp b = .ok sup) :
    PublishersWanted sup :=
  startUp_forall_slots h (fun _ _ _ _ => .startIfEnabled)

/-- **Every publisher is wanted in every state of a run exactly when every
`restart-camera` and `set-mode` of the run is for a wanted camera.** These two
requests start a publisher without asking whether its camera is present and
enabled, and nothing else does. -/
theorem publishersWanted_everywhere_iff {b : Boot} {sup : Supervisor}
    (hb : startUp b = .ok sup)
    (steps : List Step) :
    Runs.Everywhere next PublishersWanted sup steps
      ↔ Runs.Guarded next RestartsWanted sup steps :=
  Runs.everywhere_iff_guarded (fun _ _ _ hs h => publishersWanted_step hs h)
    (publishersWanted_startUp hb)

/-- A client disables the only camera and then asks for it to be restarted. -/
def disableThenRestart : List Step :=
  [requestWith {} "set-stream-enabled" [("name", .string "Cam"),
    ("enabled", .boolean false)],
    requestWith { starts := fun _ => { created := some 3 } } "restart-camera"
      [("name", .string "Cam")]]

/-- The restart is for a camera that is not wanted. -/
theorem publishersWanted_everywhere_iff_disableThenRestart :
    ∃ sup, startUp oneCamera = .ok sup ∧
      ¬ Runs.Everywhere next PublishersWanted sup disableThenRestart := by
  refine ⟨_, rfl, fun h => ?_⟩
  have hguarded :=
    (@publishersWanted_everywhere_iff oneCamera _ rfl disableThenRestart).mp h
  have hwanted := ((hguarded _ rfl).2 _ rfl).1 0 _
    (.restartCamera rfl rfl rfl (by decide) rfl)
  exact absurd hwanted (by decide)

/-- The disabled camera publishes again. -/
theorem restart_revives_disabled :
    ¬ ∀ sup, bootRun oneCamera disableThenRestart = some sup →
      PublishersWanted sup := by
  intro h
  have hsup := h _ rfl
  exact absurd (hsup _ (List.mem_singleton.mpr rfl) rfl).2 (by decide)

end WebcamStreamer
