import WebcamStreamer.Steps

/-!
# Two writers of one settings file

The host and the supervisor each read `settings.json` once and write it from
memory later on. The supervisor merges its three members into the document
that is there, and so never touches `notifications_enabled`; but it does write
`default_enabled_for_new_cameras`, which is the host's to change. The host
writes all four members, and so writes the credentials as well, which are the
supervisor's.

A write is harmless as long as the writer's copy of the other's members is up
to date. For the host's copy of the credentials nothing ever makes it so: it is
read before the supervisor is started, and never again.
-/

namespace WebcamStreamer

/-! ## The two programs and their file

Either program reads the file once and writes it from memory later. The state
has what each of them wrote last, which none of the two keeps, in order to say
that nothing was lost. -/

/-- The supervisor, before and after its start-up; it keeps the file as part of
its state. -/
inductive Stage where
  | stopped (file : JsonFile)
  | running (sup : Supervisor)

/-- Both programs, with the values that each of them wrote last. -/
structure Machine where
  stage : Stage
  host : Option HostSettings := none
  /-- The credentials that the supervisor generated, loaded or accepted last. -/
  lastPair : Option Credentials := none
  /-- The flags for notifications and for new cameras that the host saved
  last. -/
  lastFlags : Option (Bool × Bool) := none

namespace Machine

/-- `settings.json`. -/
def file (m : Machine) : JsonFile :=
  match m.stage with
  | .stopped file => file
  | .running sup => sup.disk.settings

/-- The machine with another `settings.json`. -/
def withFile (m : Machine) (file : JsonFile) : Machine :=
  match m.stage with
  | .stopped _ => { m with stage := .stopped file }
  | .running sup =>
    { m with stage := .running { sup with
      disk := { sup.disk with settings := file } } }

end Machine

/-- What happens to the two programs. -/
inductive SettingsAction where
  /-- The host loads the settings, before it launches the supervisor. -/
  | hostStart
  /-- The supervisor starts up. -/
  | supervisorStart (b : Boot)
  /-- The user changes a flag and the host saves; the `reload-settings` it sends
  is a step of the supervisor. -/
  | hostSave (notifications defaultEnabled : Bool)
  /-- The supervisor takes a step. -/
  | supervisorStep (st : Step)

/-- The credentials of a `set-viewer-credentials` that is answered with
success. -/
def answeredPair (sup : Supervisor) (st : Step) : Option Credentials :=
  match st.action with
  | .request rq =>
    if rq.method = "set-viewer-credentials" ∧
      (handle st.env rq sup).response.ok = true then
      match (handle st.env rq sup).response.result with
      | .credentials user pass => some (user, pass)
      | _ => none
    else none
  | _ => none

/-- One step of the two programs, every file operation succeeding and nobody
else writing the file. -/
def settingsStep (m : Machine) : SettingsAction → Option Machine
  | .hostStart =>
    match m.stage, m.host with
    | .stopped file, none =>
      some { m with host := some (HostSettings.load true file) }
    | _, _ => none
  | .supervisorStart b =>
    match m.stage with
    | .stopped file =>
      if b.env.settingsOps.Succeeds then
        match startUp { b with disk := { b.disk with settings := file } } with
        | .ok sup =>
          some { m with
            stage := .running sup, lastPair := some sup.settings.viewer }
        | .error _ => none
      else none
    | .running _ => none
  | .hostSave notifications defaultEnabled =>
    match m.host with
    | some h =>
      let h' := { h with
        notificationsEnabled := notifications
        defaultEnabledForNewCameras := defaultEnabled }
      some { m.withFile h'.save with
        host := some h', lastFlags := some (notifications, defaultEnabled) }
    | none => none
  | .supervisorStep st =>
    match m.stage, st.action with
    | .stopped _, _ => none
    | .running _, .editSettings _ => none
    | .running sup, _ =>
      if st.env.settingsOps.Succeeds ∧ st.env.ymlOps.Succeeds then
        (next sup st).map (fun sup' =>
          { m with
            stage := .running sup'
            lastPair := (answeredPair sup st).or m.lastPair })
      else none

/-! ## What the file holds

The supervisor writes three members and keeps the others; the host writes all
that it knows. So an update of one program survives a save of the other
exactly if the other had it in memory. -/

/-- The members of the document that a save of the supervisor merges into. -/
theorem member_membersToMerge {ops : FileOps} (h : ops.readable = true)
    (file : JsonFile)
    (key : String) :
    Json.member key (membersToMerge ops file) = file.member? key := by
  unfold membersToMerge
  rw [h]
  rcases file with _ | _ | (_ | _ | _ | _ | _ | _ | _) <;> rfl

/-- A save of the supervisor writes its members and no other. -/
theorem member?_merged {ops : FileOps} (h : ops.readable = true)
    (file : JsonFile)
    (s : Settings) :
    let merged := JsonFile.doc (mergeSettings (membersToMerge ops file) s)
    merged.member? "viewer_user" = some (.string s.viewerUser) ∧
      merged.member? "viewer_pass" = some (.string s.viewerPass) ∧
      merged.member? "default_enabled_for_new_cameras"
        = some (.boolean s.defaultEnabledForNewCameras) ∧
      merged.member? "notifications_enabled"
        = file.member? "notifications_enabled" := by
  refine ⟨by simp [JsonFile.member?, mergeSettings],
    by simp [JsonFile.member?, mergeSettings],
    by simp [JsonFile.member?, mergeSettings], ?_⟩
  refine (find?_mergeSettings _ _ ?_ ?_ ?_).trans
    (member_membersToMerge h file _)
  all_goals decide

/-- The credentials that a file holds are in its members, where they are not
empty. -/
theorem member?_of_ofFile {file : JsonFile} :
    ((Settings.ofFile file).viewerUser ≠ "" →
      file.member? "viewer_user"
        = some (.string (Settings.ofFile file).viewerUser)) ∧
    ((Settings.ofFile file).viewerPass ≠ "" →
      file.member? "viewer_pass"
      = some (.string (Settings.ofFile file).viewerPass)) := by
  have key : ∀ v : Option (Json String), (v.bind Json.string?).getD "" ≠ "" →
      v = some (.string ((v.bind Json.string?).getD "")) := by
    rintro (_ | (_ | _ | _ | _ | _ | _ | _)) h <;> simp_all [Json.string?]
  cases file with
  | missing => exact ⟨fun h => absurd rfl h, fun h => absurd rfl h⟩
  | malformed => exact ⟨fun h => absurd rfl h, fun h => absurd rfl h⟩
  | doc j => exact ⟨key _, key _⟩

/-- The file holds what each program wrote last. -/
structure FileCurrent (m : Machine) : Prop where
  pair : ∀ p, m.lastPair = some p →
    m.file.member? "viewer_user" = some (.string p.1) ∧
      m.file.member? "viewer_pass" = some (.string p.2)
  flags : ∀ f, m.lastFlags = some f →
    m.file.member? "notifications_enabled" = some (.boolean f.1) ∧
      m.file.member? "default_enabled_for_new_cameras" = some (.boolean f.2)

/-- Whoever writes the file in this step has an up-to-date copy of what the
other one writes. -/
structure CopiesFresh (m : Machine) (a : SettingsAction) : Prop where
  host : ∀ notifications defaultEnabled h p,
    a = .hostSave notifications defaultEnabled →
    m.host = some h → m.lastPair = some p → (h.viewerUser, h.viewerPassword) = p
  supervisor :
    ∀ st sup rq user pass f, a = .supervisorStep st → m.stage = .running sup →
    st.action = .request rq → rq.method = "set-viewer-credentials" →
    rq.params.valueString "user" = .ok user → user ≠ "" →
    rq.params.valueString "pass" = .ok pass → pass ≠ "" → m.lastFlags = some f →
    sup.settings.defaultEnabledForNewCameras = f.2

/-! ## The steps, one after the other

Start-up, a save of the host and accepted credentials are the steps that
write. For each of them it is said which of the values stay current, with an
equivalence where it depends on the copy in memory. -/

@[simp] theorem Machine.file_withFile (m : Machine) (file : JsonFile) :
    (m.withFile file).file = file := by
  obtain ⟨_ | _, _⟩ := m <;> rfl

@[simp] theorem Machine.lastPair_withFile (m : Machine) (file : JsonFile) :
    (m.withFile file).lastPair = m.lastPair := by
  obtain ⟨_ | _, _⟩ := m <;> rfl

/-- Start-up leaves its credentials in the file, and the flags of the host as
they are. -/
theorem startUp_file {b : Boot} {sup : Supervisor} (h : startUp b = .ok sup)
    (hops : b.env.settingsOps.Succeeds) :
    sup.disk.settings.member? "viewer_user"
        = some (.string sup.settings.viewerUser) ∧
      sup.disk.settings.member? "viewer_pass"
          = some (.string sup.settings.viewerPass) ∧
      sup.disk.settings.member? "notifications_enabled"
        = b.disk.settings.member? "notifications_enabled" ∧
      ∀ d, b.disk.settings.member? "default_enabled_for_new_cameras"
          = some (.boolean d) →
        sup.disk.settings.member? "default_enabled_for_new_cameras"
          = some (.boolean d) := by
  obtain ⟨settings, file, yml, slots, hsettings, -, -, rfl⟩ := startUp_spec h
  obtain ⟨hthrow, hreadable, hwrite⟩ := hops
  have hload : loadSettings b.env.settingsOps b.disk.settings
      = .ok (Settings.ofFile b.disk.settings) :=
    loadSettings_eq_ok.mpr ⟨hthrow, by simp [hreadable]⟩
  unfold ensureCredentials at hsettings
  rw [hload] at hsettings
  dsimp only at hsettings
  split at hsettings
  next =>
    split at hsettings
    next => cases hsettings
    next flag file' hsave =>
      obtain ⟨-, -, hfile⟩ := saveSettings_eq_ok.mp hsave
      rw [hwrite] at hfile
      simp only [Except.ok.injEq, Prod.mk.injEq] at hsettings
      obtain ⟨rfl, rfl⟩ := hsettings
      subst hfile
      obtain ⟨huser, hpass, hdefault, hnotify⟩ :=
        member?_merged hreadable b.disk.settings
        ((Settings.ofFile b.disk.settings).withViewer _ _)
      refine ⟨huser, hpass, hnotify, fun d hd => hdefault.trans ?_⟩
      -- the flag that is merged is the one that was loaded
      cases hfile : b.disk.settings with
      | missing => simp [hfile, JsonFile.member?] at hd
      | malformed => simp [hfile, JsonFile.member?] at hd
      | doc j =>
        rw [hfile] at hd
        simp only [JsonFile.member?] at hd
        simp [Settings.ofFile, Settings.ofJson, hd, Json.boolean?]
  next hnonempty =>
    obtain ⟨hu, hp⟩ := not_or.mp hnonempty
    simp only [Except.ok.injEq, Prod.mk.injEq] at hsettings
    obtain ⟨rfl, rfl⟩ := hsettings
    exact ⟨member?_of_ofFile.1 hu, member?_of_ofFile.2 hp, rfl, fun _ hd => hd⟩

/-- A step of the supervisor writes the file when it accepts credentials, and
otherwise leaves it alone. -/
theorem step_file {sup : Supervisor} {st : Step} {out : Outcome}
    (h : step sup st = some out)
    (hsettings : st.env.settingsOps.Succeeds) (hyml : st.env.ymlOps.Succeeds)
    (hedit : ∀ file, st.action ≠ .editSettings file) :
    (answeredPair sup st = none ∧ out.1.disk.settings = sup.disk.settings) ∨
      ∃ rq user pass, st.action = .request rq ∧
        rq.method = "set-viewer-credentials" ∧
        (rq.params.valueString "user" = .ok user ∧ user ≠ "") ∧
        (rq.params.valueString "pass" = .ok pass ∧ pass ≠ "") ∧
        answeredPair sup st = some (user, pass) ∧
        out.1.disk.settings = .doc (mergeSettings
          (membersToMerge st.env.settingsOps sup.disk.settings)
          (sup.settings.withViewer user pass)) := by
  cases stepsTo_of_step h with
  | @served rq served ha heq hserved =>
    have hnone (hno : served.response.ok = true →
      rq.method ≠ "set-viewer-credentials") :
        answeredPair sup st = none := by
      simp only [answeredPair, ha, heq]
      exact if_neg (fun hand => hno hand.2 hand.1)
    cases hserved with
    | unchanged events response hev hok => exact .inl ⟨hnone hok, rfl⟩
    | restarted hm | modeThrown hm | modeSet hm | enabledSet hm
    | settingsReloaded hm
    | shutdown hm => exact .inl ⟨hnone (fun _ => by simp [hm]), rfl⟩
    | credentialsUnsaved response hm hu hu0 hp hp0 hops hok =>
      exact .inl ⟨hnone (fun htrue => by simp [hok] at htrue), rfl⟩
    -- the runtime file is written by the hypothesis
    | credentialsUnwritten response hm hu hu0 hp hp0 hsave hops =>
      simp [hyml.2.1, hyml.2.2] at hops
    -- the one request that writes the file, and it is answered
    | credentialsSet hm hu hu0 hp hp0 hsave _ ht =>
      obtain ⟨-, -, rfl⟩ := saveSettings_eq_ok.mp hsave
      refine .inr ⟨rq, _, _, ha, hm, ⟨hu, hu0⟩, ⟨hp, hp0⟩, ?_, ?_⟩
      · simp only [answeredPair, ha, heq]
        exact if_pos ⟨hm, rfl⟩
      · subst ht
        rw [hsettings.2.2]
        rfl
  | hookIgnored ha | hookCounted ha | publisherExit ha | mtxExit ha
  | consoleSignal ha
  | beginLoop ha | diffPresence ha | reconciled ha =>
    exact .inl ⟨by simp [answeredPair, ha], rfl⟩
  | tick ha =>
    refine .inl ⟨by simp [answeredPair, ha], ?_⟩
    rw [Supervisor.disk_tick]
  | editSettings ha => exact absurd ha (hedit _)

variable {m m' : Machine}

theorem fileCurrent_hostStart (hm : FileCurrent m)
    (h : settingsStep m .hostStart = some m') :
    FileCurrent m' := by
  simp only [settingsStep] at h
  split at h
  next =>
    obtain rfl := Option.some.inj h
    exact ⟨hm.pair, hm.flags⟩
  next => cases h

/-- The supervisor starts up with what is in the file, or makes the file hold
what it starts up with. -/
theorem fileCurrent_supervisorStart {b : Boot} (hm : FileCurrent m)
    (h : settingsStep m (.supervisorStart b) = some m') : FileCurrent m' := by
  simp only [settingsStep] at h
  split at h
  next file hstage =>
    split at h
    next hops =>
      split at h
      next sup hstart =>
        obtain rfl := Option.some.inj h
        obtain ⟨huser, hpass, hnotify, hdefault⟩ := startUp_file hstart hops
        have hfile : m.file = file := by rw [Machine.file, hstage]
        refine ⟨fun p hp => ?_, fun f hf => ?_⟩
        · obtain rfl := Option.some.inj hp
          exact ⟨huser, hpass⟩
        · obtain ⟨hn, hd⟩ := hm.flags f hf
          rw [hfile] at hn hd
          exact ⟨hnotify.trans hn, hdefault f.2 hd⟩
      next => cases h
    next => cases h
  next => cases h

/-- A save of the host leaves its own members current, and those of the
supervisor exactly when the host's copy of them is. -/
theorem fileCurrent_hostSave_iff {n d : Bool}
    (h : settingsStep m (.hostSave n d) = some m') :
    FileCurrent m' ↔
      ∀ hs p, m.host = some hs → m.lastPair = some p →
        (hs.viewerUser, hs.viewerPassword) = p := by
  simp only [settingsStep] at h
  split at h
  next hs hhost =>
    obtain rfl := Option.some.inj h
    have hfile : (Machine.file { m.withFile (HostSettings.save { hs with
        notificationsEnabled := n, defaultEnabledForNewCameras := d }) with
          host :=
            some { hs with
              notificationsEnabled := n, defaultEnabledForNewCameras := d }
          lastFlags := some (n, d) })
        = HostSettings.save
          { hs with
            notificationsEnabled := n, defaultEnabledForNewCameras := d } :=
      Machine.file_withFile m _
    constructor
    · intro hcur hs' p hhs' hp
      obtain rfl := Option.some.inj (hhost.symm.trans hhs')
      have hpair := hcur.pair p ((Machine.lastPair_withFile m _).trans hp)
      rw [hfile] at hpair
      obtain ⟨huser, hpass⟩ := hpair
      exact Prod.ext (Json.string.inj (Option.some.inj huser))
        (Json.string.inj (Option.some.inj hpass))
    · intro hsame
      refine ⟨fun p hp => ?_, fun f hf => ?_⟩
      · obtain rfl :=
          hsame hs p hhost ((Machine.lastPair_withFile m _).symm.trans hp)
        rw [hfile]
        exact ⟨rfl, rfl⟩
      · obtain rfl := Option.some.inj hf
        rw [hfile]
        exact ⟨rfl, rfl⟩
  next => cases h

/-- A step of the supervisor that the machine takes. -/
theorem settingsStep_supervisorStep {st : Step}
    (h : settingsStep m (.supervisorStep st) = some m') :
    ∃ sup out, m.stage = .running sup ∧
      (∀ file, st.action ≠ .editSettings file) ∧
      st.env.settingsOps.Succeeds ∧ st.env.ymlOps.Succeeds ∧
      step sup st = some out ∧
      m' = { m with
        stage := .running out.1
        lastPair := (answeredPair sup st).or m.lastPair } := by
  simp only [settingsStep] at h
  split at h
  next => cases h
  next => cases h
  next sup hstage hedit =>
    split at h
    next hops =>
      obtain ⟨sup', hnext, rfl⟩ := Option.map_eq_some_iff.mp h
      obtain ⟨out, hout, rfl⟩ := Option.map_eq_some_iff.mp hnext
      exact ⟨sup, out, hstage, hedit, hops.1, hops.2, hout, rfl⟩
    next => cases h

/-- A step of the supervisor keeps the credentials current, and the flags
exactly when its copy of them is. -/
theorem fileCurrent_supervisorStep_iff {st : Step} (hm : FileCurrent m)
    (h : settingsStep m (.supervisorStep st) = some m') :
    FileCurrent m' ↔ CopiesFresh m (.supervisorStep st) := by
  obtain ⟨sup, out, hstage, hedit, hsettings, hyml, hout, rfl⟩ :=
    settingsStep_supervisorStep h
  have hfile : m.file = sup.disk.settings := by rw [Machine.file, hstage]
  rcases step_file hout hsettings hyml hedit with
    ⟨hnone, hsame⟩ | ⟨rq, user, pass, ha, hmethod, hu, hp, hpair, hmerged⟩
  · -- nothing is written, and no request is accepted
    have hfile' : Machine.file { m with
        stage := .running out.1
        lastPair := (answeredPair sup st).or m.lastPair } = m.file :=
      hsame.trans hfile.symm
    refine iff_of_true ⟨fun p hp => ?_,
      fun f hf => ?_⟩ ⟨fun _ _ _ _ ha => ?_, ?_⟩
    · rw [hfile']
      exact hm.pair p (by simpa [hnone] using hp)
    · rw [hfile']
      exact hm.flags f hf
    · cases ha
    · intro st' sup' rq user pass f hst hstage' ha hmethod hu hu0 hp hp0 _
      obtain rfl := SettingsAction.supervisorStep.inj hst
      obtain rfl := Stage.running.inj (hstage.symm.trans hstage')
      have hgood : ¬ CredentialsFail st.env := by
        simp [CredentialsFail, hsettings.1, hsettings.2.2, hyml.2.1, hyml.2.2]
      obtain ⟨hresponse, -⟩ :=
        @handle_credentialsSet st.env sup rq user pass hmethod hu hu0
          hp hp0 hgood
      simp [answeredPair, ha, hmethod, hresponse] at hnone
  · -- the credentials are merged, and with them the supervisor's copy of the
    -- flag
    obtain ⟨huser, hpass, hdefault, hnotify⟩ :=
      member?_merged hsettings.2.1 sup.disk.settings
        (sup.settings.withViewer user pass)
    rw [← hmerged] at huser hpass hdefault hnotify
    constructor
    · intro hcur
      refine ⟨fun _ _ _ _ ha => SettingsAction.noConfusion ha, ?_⟩
      intro st' sup' rq' user' pass' f hst hstage' _ _ _ _ _ _ hf
      obtain rfl := Stage.running.inj (hstage.symm.trans hstage')
      exact Json.boolean.inj
        (Option.some.inj (hdefault.symm.trans (hcur.flags f hf).2))
    · intro hfresh
      refine ⟨fun p hp => ?_, fun f hf => ?_⟩
      · rw [hpair] at hp
        obtain rfl := Option.some.inj hp
        exact ⟨huser, hpass⟩
      · have hflag :=
          hfresh.supervisor st sup rq user pass f rfl hstage ha
            hmethod hu.1 hu.2
          hp.1 hp.2 hf
        refine ⟨hnotify.trans (hfile ▸ (hm.flags f hf).1), hdefault.trans ?_⟩
        rw [Settings.defaultEnabled_withViewer, hflag]

/-- **One step** keeps the file current exactly when whoever writes it has an
up-to-date copy of what the other one writes. The copies are read at different
times, and a writer puts its own copy of the credentials into the file. -/
theorem fileCurrent_step {a : SettingsAction} (hm : FileCurrent m)
    (h : settingsStep m a = some m') : FileCurrent m' ↔ CopiesFresh m a := by
  cases a with
  | hostStart =>
    refine iff_of_true (fileCurrent_hostStart hm h) ⟨?_, ?_⟩
    all_goals intros; contradiction
  | supervisorStart b =>
    refine iff_of_true (fileCurrent_supervisorStart hm h) ⟨?_, ?_⟩
    all_goals intros; contradiction
  | hostSave n d =>
    rw [fileCurrent_hostSave_iff h]
    constructor
    · intro hsame
      refine ⟨fun n' d' hs p _ => hsame hs p, ?_⟩
      intros
      contradiction
    · exact fun hfresh hs p => hfresh.host n d hs p rfl
  | supervisorStep st => exact fileCurrent_supervisorStep_iff hm h

/-- **The file never loses an update, in any interleaving of the two programs,
exactly when every writer has an up-to-date copy of what it writes back.** The
condition is on the state in front of each write, and the run may have any
number of starts, saves and edits of either program in it. -/
theorem fileCurrent_everywhere_iff (file : JsonFile)
    (actions : List SettingsAction) :
    Runs.Everywhere settingsStep FileCurrent
        { stage := .stopped file } actions ↔
      Runs.Guarded settingsStep CopiesFresh { stage := .stopped file }
        actions := by
  have hstart : FileCurrent { stage := .stopped file } := by
    constructor <;> (intro _ h; cases h)
  exact Runs.everywhere_iff_guarded
    (fun _ _ _ hm h => fileCurrent_step hm h) hstart

/-- The host starts without a settings file, the supervisor generates
credentials, and then the user switches the notifications off. -/
def toggleAfterGeneration : List SettingsAction :=
  [.hostStart, .supervisorStart oneCamera, .hostSave false true]

/-- The host's save erases the generated credentials. -/
theorem hostSave_loses_credentials :
    ¬ ∀ m, Runs.run settingsStep
        { stage := .stopped .missing } toggleAfterGeneration = some m →
      FileCurrent m := by
  intro h
  have hcur := h _ rfl
  have huser : some (Json.string "") = some (Json.string "u") :=
    (hcur.pair _ rfl).1
  exact absurd (Json.string.inj (Option.some.inj huser)) (by decide)

end WebcamStreamer
