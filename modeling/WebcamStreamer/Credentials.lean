import WebcamStreamer.Steps

/-!
# The credentials that are reported and those that are enforced

The credentials of the viewer account exist four times: in memory, from where
every description of a camera takes them, in `settings.json`, in the runtime
file of MediaMTX, and in the MediaMTX process that read the runtime file when it
was started. The supervision tick starts a new process from the file whenever
the old one has gone, so that agreement lasts only as long as the file agrees
as well.

Two handlers change the copy in memory. `set-viewer-credentials` does so before
it writes anything and keeps the change when a write fails, and it inserts the
user into the template before it looks for the placeholder of the password.
`reload-settings` takes over whatever is in `settings.json` and writes no
runtime file.
-/

namespace WebcamStreamer

/-! ## What is reported

Every description of a camera carries the credentials, in answers and in
events, and all of them are made in the same way from what is in memory. So
what is reported is always the pair in memory, and the only question is who
else has the same pair. -/

/-- The credentials that a description of a camera carries. -/
def CamJson.viewer (c : CamJson) : Credentials := (c.viewerUser, c.viewerPass)

/-- The descriptions of cameras that an event carries. -/
def Event.cams : Event → List CamJson
  | .cameraStateChanged cam => [cam]
  | .camerasChanged cams => cams
  | _ => []

/-- The descriptions of cameras that a result carries. -/
def IpcResult.cams : IpcResult → List CamJson
  | .cameras cams => cams
  | .status _ _ _ cams => cams
  | _ => []

@[simp] theorem Supervisor.viewer_camJson (sup : Supervisor) (s : CamSlot) :
    (sup.camJson s).viewer = sup.settings.viewer := rfl

theorem Supervisor.viewer_of_mem_allCamsJson {sup : Supervisor} {cam : CamJson}
    (h : cam ∈ sup.allCamsJson) : cam.viewer = sup.settings.viewer := by
  obtain ⟨s, -, rfl⟩ := List.mem_map.mp h
  rfl

/-- Every answer about cameras reports the credentials in memory. -/
theorem viewer_of_response {env : Env} {rq : IpcRequest} {sup : Supervisor}
    {cam : CamJson}
    (h : cam ∈ (handle env rq sup).response.result.cams)
    (hm : rq.method = "list-cameras" ∨ rq.method = "get-status") :
    cam.viewer = sup.settings.viewer := by
  rcases hm with hm | hm
  · rw [handle_listCameras hm] at h
    exact Supervisor.viewer_of_mem_allCamsJson h
  · rw [handle_getStatus hm] at h
    exact Supervisor.viewer_of_mem_allCamsJson h

/-- Every event about cameras reports the credentials in memory. -/
theorem viewer_of_event {sup : Supervisor} {st : Step} {out : Outcome}
    (h : step sup st = some out) {e : Event} (he : e ∈ out.2) {cam : CamJson}
    (hcam : cam ∈ e.cams) : cam.viewer = out.1.settings.viewer := by
  cases stepsTo_of_step h with
  | served ha heq hserved =>
    cases hserved with
    | unchanged events response hev =>
      obtain ⟨camera, rfl⟩ := hev e he
      cases hcam
    | restarted | modeSet | enabledSet =>
      obtain rfl := List.mem_singleton.mp he
      obtain rfl := List.mem_singleton.mp hcam
      rfl
    -- a request for new credentials tells of them after it has changed them
    | credentialsSet =>
      rcases List.mem_cons.mp he with rfl | he
      · cases hcam
      · obtain rfl := List.mem_singleton.mp he
        exact Supervisor.viewer_of_mem_allCamsJson hcam
    | _ => cases he
  | hookIgnored ha hev =>
    obtain ⟨name, payload, rfl⟩ := hev e he
    cases hcam
  | hookCounted =>
    rcases List.mem_cons.mp he with rfl | he
    · cases hcam
    · obtain rfl := List.mem_singleton.mp he
      obtain rfl := List.mem_singleton.mp hcam
      rfl
  -- the tick leaves the settings as they are, and tells of MediaMTX and of
  -- cameras
  | tick =>
    rw [Supervisor.settings_tick]
    rcases List.mem_append.mp he with he | he
    · obtain ⟨running, rfl⟩ := Supervisor.eq_of_mem_tickMtx he
      cases hcam
    · obtain ⟨r, -, rfl⟩ := List.mem_map.mp he
      obtain rfl := List.mem_singleton.mp hcam
      rfl
  | reconciled ha hphase hgrown hnames hevents =>
    subst hevents
    split at he
    next =>
      obtain rfl := List.mem_singleton.mp he
      exact Supervisor.viewer_of_mem_allCamsJson hcam
    next => cases he
  | _ => cases he

/-! ## When they agree

What is reported has to be what the running MediaMTX was configured with, and
what the runtime file has, from which the next process is configured. The
condition names the steps after which all of them are the same pair, and it is
shown to be exact for every run from the start of the program. -/

/-- A step of the system seen from outside: what it leaves, and the events it
published. -/
def observe (o : Outcome) (st : Step) : Option Outcome := step o.1 st

/-- The credentials that are reported are the ones the MediaMTX process was
started with, if there is one, and the ones the next process will be started
with. -/
structure CredentialsAgree (o : Outcome) : Prop where
  process : o.1.mtx.child ≠ none → o.1.mtxConfig = .viewer o.1.settings.viewer
  file : o.1.disk.runtimeYml = .viewer o.1.settings.viewer
  events : ∀ e ∈ o.2, ∀ cam ∈ e.cams, cam.viewer = o.1.settings.viewer
  responses : ∀ env rq, rq.method = "list-cameras" ∨ rq.method = "get-status" →
    ∀ cam ∈ (handle env rq o.1).response.result.cams,
      cam.viewer = o.1.settings.viewer

/-- The user does not contain the placeholder of the password, or the password
is that text itself. -/
def ViewerEntryKept (c : Credentials) : Prop :=
  "__VIEWER_PASS__".toList <:+: c.1.toList → c.2 = "__VIEWER_PASS__"

/-- Substituting the credentials into the template gives the credentials exactly
when the placeholder does not get in the way. -/
theorem substitutedEntry_eq_self_iff {c : Credentials} :
    substitutedEntry c = c ↔ ViewerEntryKept c := by
  obtain ⟨user, pass⟩ := c
  have hne : "__VIEWER_PASS__".toList ≠ [] := by decide
  have hreplace :=
    @Replace.replaceAll_eq_self_iff Char _ _ pass.toList user.toList hne
  calc substitutedEntry (user, pass) = (user, pass)
      ↔ Replace.replaceAll "__VIEWER_PASS__".toList pass.toList user.toList
      = user.toList := by
        simp [substitutedEntry, ← String.toList_inj]
    _ ↔ ViewerEntryKept (user, pass) := by
        rw [hreplace, ViewerEntryKept, String.toList_inj]

/-- The step leaves the four copies of the credentials in agreement. -/
structure CredentialsSafe (sup : Supervisor) (st : Step) : Prop where
  /-- A change that fails was no change. -/
  failed : ∀ rq user pass, st.action = .request rq →
    rq.method = "set-viewer-credentials" →
    rq.params.valueString "user" = .ok user → user ≠ "" →
    rq.params.valueString "pass" = .ok pass → pass ≠ "" →
    CredentialsFail st.env →
    (user, pass) = sup.settings.viewer
  /-- A change that goes through reaches the runtime file whole. -/
  written : ∀ rq user pass, st.action = .request rq →
    rq.method = "set-viewer-credentials" →
    rq.params.valueString "user" = .ok user → user ≠ "" →
    rq.params.valueString "pass" = .ok pass → pass ≠ "" →
    ¬ CredentialsFail st.env →
    st.env.ymlOps.write = .complete ∧ ViewerEntryKept (user, pass)
  /-- A reload finds the credentials that are in memory. -/
  reloaded : ∀ rq, st.action = .request rq → rq.method = "reload-settings" →
    st.env.settingsOps.existsThrows = none →
    (if st.env.settingsOps.readable then Settings.ofFile sup.disk.settings
      else {}).viewer
      = sup.settings.viewer

variable {o o' : Outcome} {st : Step}

/-- The reports always come from the copy in memory, so that agreement is about
the process and the file. -/
theorem CredentialsAgree.of_step (h : observe o st = some o')
    (hprocess : o'.1.mtx.child ≠ none →
      o'.1.mtxConfig = .viewer o'.1.settings.viewer)
    (hfile : o'.1.disk.runtimeYml = .viewer o'.1.settings.viewer) :
    CredentialsAgree o' where
  process := hprocess
  file := hfile
  events _ he _ hcam := viewer_of_event h he hcam
  responses _ _ hm _ hcam := viewer_of_response hcam hm

/-- A step that leaves MediaMTX, its configuration, the runtime file and the
credentials in memory as they were. -/
theorem CredentialsAgree.of_same (ho : CredentialsAgree o)
    (h : observe o st = some o')
    (hviewer : o'.1.settings.viewer = o.1.settings.viewer)
    (hchild : o'.1.mtx.child = none ↔ o.1.mtx.child = none)
    (hconfig : o'.1.mtxConfig = o.1.mtxConfig)
    (hyml : o'.1.disk.runtimeYml = o.1.disk.runtimeYml) :
    CredentialsAgree o' := by
  refine .of_step h (fun hne => ?_) ?_
  · rw [hconfig, hviewer]
    exact ho.process (fun hnone => hne (hchild.mpr hnone))
  · rw [hyml, hviewer]
    exact ho.file

/-- The steps after which the copies agree are safe. -/
theorem CredentialsAgree.safe (ho : CredentialsAgree o)
    (h : observe o st = some o')
    (h' : CredentialsAgree o') : CredentialsSafe o.1 st := by
  obtain ⟨env, action⟩ := st
  constructor
  · intro rq user pass ha hm hu hu0 hp hp0 hfail
    obtain rfl : action = _ := ha
    obtain rfl := Option.some.inj h
    obtain ⟨-, hsettings, hyml, -⟩ :=
      @handle_credentialsFail env o.1 rq user pass hm hu hu0 hp hp0 hfail
    have hfile : (handle env rq o.1).sup.disk.runtimeYml
        = .viewer (handle env rq o.1).sup.settings.viewer := h'.file
    rw [hsettings, hyml, ho.file] at hfile
    exact (RuntimeYml.viewer.inj hfile).symm
  · intro rq user pass ha hm hu hu0 hp hp0 hgood
    obtain rfl : action = _ := ha
    obtain rfl := Option.some.inj h
    obtain ⟨-, hset⟩ :=
      @handle_credentialsSet env o.1 rq user pass hm hu hu0 hp hp0 hgood
    have hfile : (handle env rq o.1).sup.disk.runtimeYml
        = .viewer (handle env rq o.1).sup.settings.viewer := h'.file
    rw [hset] at hfile
    have hentry : (if env.ymlOps.write = WriteOutcome.complete
      then RuntimeYml.viewer (substitutedEntry (user, pass)) else .truncated)
        = .viewer (user, pass) := hfile
    split at hentry
    next hw =>
      exact ⟨hw, substitutedEntry_eq_self_iff.mp (RuntimeYml.viewer.inj hentry)⟩
    next => cases hentry
  · intro rq ha hm hthrow
    obtain rfl : action = _ := ha
    obtain rfl := Option.some.inj h
    have hfile := h'.file
    simp only [handle_reloadSettings hm hthrow, Served.answer] at hfile
    rw [ho.file] at hfile
    exact (RuntimeYml.viewer.inj hfile).symm

/-- After a safe step the copies agree. -/
theorem CredentialsAgree.step (ho : CredentialsAgree o)
    (h : observe o st = some o')
    (hsafe : CredentialsSafe o.1 st) : CredentialsAgree o' := by
  cases stepsTo_of_step h with
  | served ha heq hserved =>
    cases hserved with
    | credentialsUnsaved response hm hu hu0 hp hp0 hops =>
      have hpair := hsafe.failed _ _ _ ha hm hu hu0 hp hp0 (hops.imp_right .inl)
      exact ho.of_same h hpair .rfl rfl rfl
    | credentialsUnwritten response hm hu hu0 hp hp0 hsave hops =>
      have hpair := hsafe.failed _ _ _ ha hm hu hu0 hp hp0 (.inr (.inr hops))
      exact ho.of_same h hpair .rfl rfl rfl
    | credentialsSet hm hu hu0 hp hp0 hsave hyml ht =>
      obtain ⟨-, -, hentry⟩ := writeRuntimeYml_eq_true.mp hyml
      obtain ⟨hw, hkept⟩ :=
        hsafe.written _ _ _ ha hm hu hu0 hp hp0 (not_credentialsFail hsave hyml)
      rw [if_pos hw, substitutedEntry_eq_self_iff.mpr hkept] at hentry
      subst ht hentry
      -- MediaMTX was restarted and has read the file that was just written
      exact .of_step h (fun _ => rfl) rfl
    | settingsReloaded hm hload =>
      obtain ⟨hthrow, rfl⟩ := loadSettings_eq_ok.mp hload
      exact ho.of_same h (hsafe.reloaded _ ha hm hthrow) .rfl rfl rfl
    | _ => exact ho.of_same h rfl .rfl rfl rfl
  | mtxExit =>
    exact ho.of_same h rfl (SupervisedProcess.child_exit_eq_none _ _) rfl rfl
  | tick =>
    have hfile : (o.1.tick st.env).1.disk.runtimeYml
        = .viewer (o.1.tick st.env).1.settings.viewer := by
      rw [Supervisor.settings_tick, Supervisor.disk_tick]
      exact ho.file
    refine .of_step h (fun hchild => ?_) hfile
    rw [Supervisor.settings_tick]
    show (o.1.tickMtx st.env).1.mtxConfig = .viewer o.1.settings.viewer
    have hchild' : (o.1.tickMtx st.env).1.mtx.child ≠ none := hchild
    rcases o.1.tickMtx_eq_or st.env with hmtx | hmtx
    · -- a process that the tick starts reads the file
      rw [hmtx]
      exact ho.file
    · rw [hmtx] at hchild' ⊢
      exact ho.process hchild'
  | _ => exact ho.of_same h rfl .rfl rfl rfl

/-- What start-up leaves agrees exactly when the runtime file was written whole
and the placeholder did not get in the way. -/
theorem credentialsAgree_startUp_iff {b : Boot} {sup : Supervisor}
    (h : startUp b = .ok sup) :
    CredentialsAgree (sup, []) ↔
      b.env.ymlOps.write = .complete ∧ ViewerEntryKept sup.settings.viewer := by
  obtain ⟨settings, file, yml, slots, -, hyml, -, rfl⟩ := startUp_spec h
  obtain ⟨-, -, rfl⟩ := writeRuntimeYml_eq_true.mp hyml
  constructor
  · intro hagree
    have hfile := hagree.file
    dsimp only at hfile
    split at hfile
    next hw =>
      exact ⟨hw, substitutedEntry_eq_self_iff.mp (RuntimeYml.viewer.inj hfile)⟩
    next => cases hfile
  · rintro ⟨hw, hkept⟩
    dsimp only at hkept
    rw [if_pos hw, substitutedEntry_eq_self_iff.mpr hkept]
    exact
      { process := fun _ => rfl
        file := rfl
        events := fun _ he => absurd he List.not_mem_nil
        responses := fun _ _ hm _ hcam => viewer_of_response hcam hm }

/-- **The credentials that are reported are enforced, in every state of a run,
exactly when start-up and every step are safe.** At start-up the file has to
be written and the entry of the viewer kept in it; the condition on a later
step speaks of the state in front of that step. -/
theorem credentialsAgree_everywhere_iff {b : Boot} {sup : Supervisor}
    (hb : startUp b = .ok sup)
    (steps : List Step) :
    Runs.Everywhere observe CredentialsAgree (sup, []) steps ↔
      (b.env.ymlOps.write = .complete ∧ ViewerEntryKept sup.settings.viewer) ∧
        Runs.Guarded observe (fun o st => CredentialsSafe o.1 st) (sup,
          []) steps := by
  have hstep : ∀ o st o', CredentialsAgree o → observe o st = some o' →
      (CredentialsAgree o' ↔ CredentialsSafe o.1 st) :=
    fun o st o' ho h => ⟨ho.safe h, ho.step h⟩
  rw [← credentialsAgree_startUp_iff hb]
  constructor
  · intro h
    have hstart := Runs.everywhere_head h
    exact ⟨hstart, (Runs.everywhere_iff_guarded hstep hstart).mp h⟩
  · rintro ⟨hstart, h⟩
    exact (Runs.everywhere_iff_guarded hstep hstart).mpr h

/-- A client changes the credentials while `settings.json` cannot be opened for
writing, and the change is refused. -/
def unsavedCredentials : List Step :=
  [requestWith { settingsOps := { write := .openFailed } }
    "set-viewer-credentials"
    [("user", .string "alice"), ("pass", .string "secret")]]

/-- The change fails, and it is one. -/
theorem credentialsAgree_everywhere_iff_unsavedCredentials :
    ∃ sup, startUp oneCamera = .ok sup ∧
      ¬ Runs.Everywhere observe CredentialsAgree (sup,
        []) unsavedCredentials := by
  refine ⟨_, rfl, fun h => ?_⟩
  have hguarded :=
    ((@credentialsAgree_everywhere_iff oneCamera _ rfl unsavedCredentials).mp
      h).2
  have hsame :=
    (hguarded _ rfl).1.failed _ "alice" "secret" rfl rfl rfl (by decide) rfl
    (by decide) (.inr (.inl rfl))
  exact absurd hsame (by decide)

/-- `list-cameras` then reports credentials that MediaMTX does not know. -/
theorem unsaved_credentials_reported :
    ¬ ∀ sup, bootRun oneCamera unsavedCredentials = some sup →
      ∀ cam ∈ (handle {} { method := "list-cameras" } sup).response.result.cams,
        sup.mtxConfig = .viewer cam.viewer := by
  intro h
  have hsame := h _ rfl _ (List.mem_singleton.mpr rfl)
  exact absurd hsame (by decide)

end WebcamStreamer
