import WebcamStreamer.Files

/-!
# The settings file and its two owners

`settings.json` is read and written by two programs. The supervisor keeps the
three fields it knows in a `Settings`, and its `saveSettings` writes them into
whatever document is there, so that the members it does not know survive. The
host keeps all four fields in a `HostSettings`, and its `save` writes a new
document out of them. Neither looks at the file again between a load and a
save.

The two readers are lenient in different ways: the supervisor falls back to the
default member by member, the host document by document.
-/

namespace WebcamStreamer

/-- The supervisor's copy of the settings. -/
structure Settings where
  defaultEnabledForNewCameras : Bool := true
  viewerUser : String := ""
  viewerPass : String := ""
  deriving DecidableEq

/-- The credentials of the RTSP viewer account. -/
abbrev Credentials := String × String

namespace Settings

/-- The credentials held by the settings. -/
def viewer (s : Settings) : Credentials := (s.viewerUser, s.viewerPass)

/-- The settings with other credentials. -/
def withViewer (s : Settings) (user pass : String) : Settings :=
  { s with viewerUser := user, viewerPass := pass }

@[simp] theorem viewer_withViewer (s : Settings) (user pass : String) :
    (s.withViewer user pass).viewer = (user, pass) := rfl

@[simp] theorem defaultEnabled_withViewer (s : Settings) (user pass : String) :
    (s.withViewer user pass).defaultEnabledForNewCameras
      = s.defaultEnabledForNewCameras := rfl

/-- The fields a document carries, each one falling back to its default when
the member is absent or of another type. -/
def ofJson (j : Json String) : Settings where
  defaultEnabledForNewCameras :=
    ((j.find? "default_enabled_for_new_cameras").bind Json.boolean?).getD true
  viewerUser := ((j.find? "viewer_user").bind Json.string?).getD ""
  viewerPass := ((j.find? "viewer_pass").bind Json.string?).getD ""

/-- What a settings file says to the supervisor. -/
def ofFile : JsonFile → Settings
  | .doc j => ofJson j
  | _ => {}

end Settings

/-- `LoadSettings`. The existence test may throw; every other trouble leaves
the defaults. -/
def loadSettings (ops : FileOps) (file : JsonFile) : Except String Settings :=
  match ops.existsThrows with
  | some what => .error what
  | none => .ok (if ops.readable then Settings.ofFile file else {})

theorem loadSettings_eq_ok {ops : FileOps} {file : JsonFile} {s : Settings} :
    loadSettings ops file = .ok s ↔
      ops.existsThrows = none ∧
      (if ops.readable then Settings.ofFile file else {}) = s := by
  unfold loadSettings
  cases ops.existsThrows <;> simp

/-- The members that `SaveSettings` starts from: those of the document that is
there, none if it cannot be read or is not an object. -/
def membersToMerge (ops : FileOps) (file : JsonFile) :
    List (String × Json String) :=
  match ops.readable, file with
  | true, .doc (.object members) => members
  | _, _ => []

/-- The document `SaveSettings` writes: the members that are there, with the
supervisor's three replaced. -/
def mergeSettings (members : List (String × Json String)) (s : Settings) :
    Json String :=
  .object (Json.setMember "viewer_pass" (.string s.viewerPass)
    (Json.setMember "viewer_user" (.string s.viewerUser)
      (Json.setMember "default_enabled_for_new_cameras"
        (.boolean s.defaultEnabledForNewCameras) members)))

/-- `SaveSettings`: the returned flag and the file left behind. The flag only
says whether the output stream opened. -/
def saveSettings (ops : FileOps) (file : JsonFile) (s : Settings) :
    Except String (Bool × JsonFile) :=
  match ops.existsThrows with
  | some what => .error what
  | none => .ok (decide (ops.write ≠ .openFailed),
      ops.write.json file (mergeSettings (membersToMerge ops file) s))

theorem saveSettings_eq_ok {ops : FileOps} {file file' : JsonFile}
    {s : Settings} {flag : Bool} :
    saveSettings ops file s = .ok (flag, file') ↔
      ops.existsThrows = none ∧ decide (ops.write ≠ .openFailed) = flag ∧
        ops.write.json file (mergeSettings (membersToMerge ops file) s)
        = file' := by
  unfold saveSettings
  cases ops.existsThrows <;> simp

/-- The supervisor's start-up: load the settings, and where a credential is
empty generate it and save. The save's failure is only logged. -/
def ensureCredentials (ops : FileOps) (file : JsonFile)
    (genUser genPass : String) : Except String (Settings × JsonFile) :=
  match loadSettings ops file with
  | .error what => .error what
  | .ok s =>
    if s.viewerUser = "" ∨ s.viewerPass = "" then
      let s' :=
        s.withViewer (if s.viewerUser = "" then genUser else s.viewerUser)
        (if s.viewerPass = "" then genPass else s.viewerPass)
      match saveSettings ops file s' with
      | .error what => .error what
      | .ok (_, file') => .ok (s', file')
    else .ok (s, file)

/-! ## The host's side

The host reads the file with a deserializer for a whole schema: a member of
the wrong type makes it reject the document and take the defaults for
everything. When it saves, it writes all members from memory. -/

/-- The host's copy of the settings. -/
structure HostSettings where
  notificationsEnabled : Bool := true
  defaultEnabledForNewCameras : Bool := true
  viewerUser : String := ""
  viewerPassword : String := ""
  deriving DecidableEq

namespace HostSettings

/-- A nullable property of the schema read from a document: absent and `null`
are no value, another type than the property's own is an exception, `none`. -/
def property {α : Type} (get : Json String → Option α) (j : Json String)
    (key : String) : Option (Option α) :=
  match j.find? key with
  | none => some none
  | some .null => some none
  | some v => (get v).map some

/-- `JsonSerializer.Deserialize<Schema>` followed by the defaults; `none` is
the exception that rejects the whole document. -/
def ofJson? : Json String → Option HostSettings
  | .null => some {}
  | .object members => do
    let j : Json String := .object members
    let notifications ← property Json.boolean? j "notifications_enabled"
    let defaultEnabled ← property Json.boolean? j
      "default_enabled_for_new_cameras"
    let user ← property Json.string? j "viewer_user"
    let pass ← property Json.string? j "viewer_pass"
    return { notificationsEnabled := notifications.getD true
             defaultEnabledForNewCameras := defaultEnabled.getD true
             viewerUser := user.getD ""
             viewerPassword := pass.getD "" }
  | _ => none

/-- `HostSettings.Load`: any exception, of the read or of the parser, leaves
the defaults. -/
def load (readable : Bool) (file : JsonFile) : HostSettings :=
  match readable, file with
  | true, .doc j => (ofJson? j).getD {}
  | _, _ => {}

/-- The document `HostSettings.Save` writes. -/
def toJson (h : HostSettings) : Json String :=
  .object [("notifications_enabled", .boolean h.notificationsEnabled),
    ("default_enabled_for_new_cameras", .boolean h.defaultEnabledForNewCameras),
    ("viewer_user", .string h.viewerUser),
    ("viewer_pass", .string h.viewerPassword)]

/-- `HostSettings.Save`, the write succeeding. -/
def save (h : HostSettings) : JsonFile := .doc h.toJson

end HostSettings

/-! ## What is read back

Each program reads back what it wrote itself. What the other one wrote is read
back too as long as the document fits the schema, and the merge of the
supervisor keeps members that it does not know. -/

/-- The supervisor reads back the settings it merged into any document. -/
@[simp] theorem ofJson_mergeSettings (members : List (String × Json String))
    (s : Settings) :
    Settings.ofJson (mergeSettings members s) = s := by
  simp [Settings.ofJson, mergeSettings, Json.boolean?, Json.string?]

/-- A member that the supervisor does not know survives the merge. -/
theorem find?_mergeSettings (members : List (String × Json String))
    (s : Settings)
    {key : String} (h₁ : key ≠ "default_enabled_for_new_cameras")
    (h₂ : key ≠ "viewer_user") (h₃ : key ≠ "viewer_pass") :
    (mergeSettings members s).find? key = Json.member key members := by
  simp [mergeSettings, h₁, h₂, h₃]

/-- Merging the settings a document already holds rewrites the same
document. -/
theorem mergeSettings_eq_self {members : List (String × Json String)}
    {s : Settings}
    (hd : Json.member "default_enabled_for_new_cameras" members
      = some (.boolean s.defaultEnabledForNewCameras))
    (hu : Json.member "viewer_user" members = some (.string s.viewerUser))
    (hp : Json.member "viewer_pass" members = some (.string s.viewerPass)) :
    mergeSettings members s = .object members := by
  rw [mergeSettings, Json.setMember_of_member hd, Json.setMember_of_member hu,
    Json.setMember_of_member hp]

/-- The supervisor reads back what the host saved. -/
@[simp] theorem ofFile_save (h : HostSettings) :
    Settings.ofFile h.save
      = ⟨h.defaultEnabledForNewCameras, h.viewerUser, h.viewerPassword⟩ := rfl

/-- The host reads back what it saved. -/
@[simp] theorem load_save (h : HostSettings) :
    HostSettings.load true h.save = h := rfl

end WebcamStreamer
