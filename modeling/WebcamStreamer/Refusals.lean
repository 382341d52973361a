import WebcamStreamer.SlotMoves

/-!
# What a refused request leaves behind

Most of the ten methods check everything before they change anything, and
`set-stream-enabled` saves before it changes anything else. Two do not.
`set-mode` changes the configuration in memory and then saves the override,
which may throw. `set-viewer-credentials` changes the settings in memory, then
the settings file, then the runtime file, and gives up at the first write that
fails. This module says exactly when a refusal of these two leaves something
behind.

A refusal is a response that is not ok, be it an error of the handler or an
exception that the pipe server answers for. What could be left behind is the
configuration or the settings in memory, and one of three files. The condition
for each of the two methods is in terms of the outcomes of its writes and of
what was stored before.
-/

namespace WebcamStreamer

/-- The slots, the settings in memory and the files are as they were. -/
structure Untouched (before after : Supervisor) : Prop where
  slots : after.slots = before.slots
  settings : after.settings = before.settings
  settingsFile : after.disk.settings = before.disk.settings
  runtimeYml : after.disk.runtimeYml = before.disk.runtimeYml
  overrides : after.disk.overrides = before.disk.overrides

theorem Untouched.refl (sup : Supervisor) : Untouched sup sup :=
  ⟨rfl, rfl, rfl, rfl, rfl⟩

/-! ## Saving what is saved already

A save that changes nothing is one of the ways in which a refused request can
be harmless. The file stays as it is exactly if it already holds the three
members with the values that are saved. -/

/-- The three members that the supervisor writes have these values already. -/
def Settings.SavedIn (s : Settings) (file : JsonFile) : Prop :=
  ∃ members, file = .doc (.object members) ∧
    Json.member "default_enabled_for_new_cameras" members
      = some (.boolean s.defaultEnabledForNewCameras) ∧
    Json.member "viewer_user" members = some (.string s.viewerUser) ∧
    Json.member "viewer_pass" members = some (.string s.viewerPass)

/-- A save of the settings, if it does not throw, leaves the file as it is. -/
def SaveKeeps (ops : FileOps) (file : JsonFile) (s : Settings) : Prop :=
  match ops.write with
  | .openFailed => True
  | .stopped _ _ => file = .malformed
  | .complete =>
    if ops.readable = true then s.SavedIn file
    else file = .doc (.object [
      ("default_enabled_for_new_cameras",
        .boolean s.defaultEnabledForNewCameras),
      ("viewer_user", .string s.viewerUser),
        ("viewer_pass", .string s.viewerPass)])

/-- Merging leaves a file as it is exactly when it holds the values already. -/
theorem Settings.savedIn_iff {s : Settings} {file : JsonFile} :
    s.SavedIn file ↔
      JsonFile.doc (mergeSettings (membersToMerge {} file) s) = file := by
  constructor
  · rintro ⟨members, rfl, hd, hu, hp⟩
    exact congrArg JsonFile.doc (mergeSettings_eq_self hd hu hp)
  · intro h
    rw [← h]
    exact ⟨_, rfl, by simp, by simp, by simp⟩

theorem saveKeeps_iff {ops : FileOps} {file : JsonFile} {s : Settings} :
    SaveKeeps ops file s ↔
      ops.write.json file (mergeSettings (membersToMerge ops file) s)
      = file := by
  obtain ⟨throws, readable, write⟩ := ops
  cases write with
  | openFailed => exact iff_of_true trivial rfl
  | stopped n noticed => exact eq_comm
  | complete =>
    cases readable with
    | true => exact Settings.savedIn_iff
    | false => exact eq_comm

/-! ## The two methods

Two of the ten methods change something before they know whether they will
refuse, one of them in memory and in a file. The condition is stated for both,
in terms of the state before the request and of what its write will do. -/

/-- A refusal of the request would leave nothing behind. -/
structure RefusalSafe (env : Env) (rq : IpcRequest) (sup : Supervisor) :
    Prop where
  setMode : ∀ nm parsed upd i s what, rq.method = "set-mode" →
    setModeParams rq.params = .ok (nm, parsed, upd) → nm ≠ "" →
    parsed ≠ .unknown →
    sup.findByName nm = some (i, s) →
    (env.overrideOps i).existsThrows = some what →
    s.cfg.update upd = s.cfg
  credentials : ∀ user pass, rq.method = "set-viewer-credentials" →
    rq.params.valueString "user" = .ok user → user ≠ "" →
    rq.params.valueString "pass" = .ok pass → pass ≠ "" → CredentialsFail env →
    (user, pass) = sup.settings.viewer ∧
      (env.settingsOps.existsThrows = none →
        SaveKeeps env.settingsOps sup.disk.settings sup.settings)

theorem Settings.withViewer_eq_self {s : Settings} {user pass : String} :
    s.withViewer user pass = s ↔ (user, pass) = s.viewer := by
  obtain ⟨d, u, p⟩ := s
  simp [withViewer, viewer]

/-- **A refused request changes nothing, exactly when the refusal is safe.**
The condition is on the request, the state and the outcomes of the operations
on files, and says when a handler can still refuse once it has begun to change
something. -/
theorem refused_untouched_iff (env : Env) (rq : IpcRequest) (sup : Supervisor) :
    ((handle env rq sup).response.ok = false →
      Untouched sup (handle env rq sup).sup)
      ↔ RefusalSafe env rq sup := by
  constructor
  · intro h
    constructor
    -- a `set-mode` whose save throws has already changed the slot
    · intro nm parsed upd i s what hm hp hne hmode hs hthrow
      rw [handle_setMode hm hp hne hmode hs,
        saveOverride_error_iff.mpr hthrow] at h
      have hslots : sup.slots.set i { s with
          cfg := s.cfg.update upd } = sup.slots :=
        (h rfl).slots
      have heq :=
        (Supervisor.set_eq_self_iff (Supervisor.findByName_some hs).1).mp hslots
      exact congrArg CamSlot.cfg heq
    · intro user pass hm hu hu0 hp hp0 hfail
      obtain ⟨hok, hsettings, -, hfile⟩ :=
        @handle_credentialsFail env sup rq user pass hm hu hu0 hp hp0 hfail
      have hsame := h hok
      have hself := hsettings.symm.trans hsame.settings
      refine ⟨Settings.withViewer_eq_self.mp hself,
        fun hthrow => saveKeeps_iff.mpr ?_⟩
      rw [hself] at hfile
      exact (hfile hthrow).symm.trans hsame.settingsFile
  -- conversely only three outcomes are refusals that come late
  · intro hsafe hok
    have hserved := serves_handle env rq sup
    generalize handle env rq sup = served at hserved hok ⊢
    cases hserved with
    | unchanged => exact .refl sup
    | restarted => cases hok
    | modeThrown hm hp hne hmode hs hops =>
      have hcfg := hsafe.setMode _ _ _ _ _ _ hm hp hne hmode hs hops
      refine { Untouched.refl sup with slots := ?_ }
      exact (Supervisor.set_eq_self_iff (Supervisor.findByName_some hs).1).mpr
        (by rw [hcfg])
    | modeSet => cases hok
    | enabledSet => cases hok
    | credentialsUnsaved response hm hu hu0 hp hp0 hops hok =>
      have hfail : CredentialsFail env := hops.imp_right .inl
      obtain ⟨hpair, -⟩ := hsafe.credentials _ _ hm hu hu0 hp hp0 hfail
      exact { Untouched.refl sup with
        settings := Settings.withViewer_eq_self.mpr hpair }
    -- the settings file was written, and the runtime file was not
    | credentialsUnwritten response hm hu hu0 hp hp0 hsave hops hok =>
      have hfail : CredentialsFail env := .inr (.inr hops)
      obtain ⟨hpair, hkeeps⟩ := hsafe.credentials _ _ hm hu hu0 hp hp0 hfail
      have hself := Settings.withViewer_eq_self.mpr hpair
      rw [hself] at hsave ⊢
      refine { Untouched.refl sup with settingsFile := ?_ }
      obtain ⟨hthrow, -, rfl⟩ := saveSettings_eq_ok.mp hsave
      exact saveKeeps_iff.mp (hkeeps hthrow)
    | credentialsSet => cases hok
    | settingsReloaded => cases hok
    | shutdown => cases hok

/-- A change of the credentials while `settings.json` cannot be opened for
writing. -/
def newCredentials : IpcRequest where
  method := "set-viewer-credentials"
  params := .object [("user", .string "alice"), ("pass", .string "secret")]

/-- The request is refused, and the new credentials stay in memory. -/
theorem refused_credentials_stay :
    ¬ ∀ sup, bootRun oneCamera [] = some sup →
      (handle { settingsOps := { write := .openFailed } } newCredentials
          sup).response.ok = false →
      Untouched sup
        (handle { settingsOps := { write := .openFailed } } newCredentials
          sup).sup := by
  intro h
  have hsame := h _ rfl rfl
  exact absurd hsame.settings (by decide)

end WebcamStreamer
