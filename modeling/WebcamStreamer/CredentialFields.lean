import WebcamStreamer.Credentials
import WebcamStreamer.SnapshotRepair

/-!
# The credential fields

The user interface shows the user name and the password of the viewer account in
two fields. The user edits them and applies them, and every snapshot of the
supervisor brings the credentials that are in force. A flag tells the two apart:
an edit sets it, and as long as it is set no snapshot touches the fields.

The flag is cleared when a call that applies credentials is answered. The answer
can be a refusal, and the user can have gone on typing since the click; nobody
looks. The next snapshot then replaces what the user has typed. Where a snapshot
is welcome, it has to get past the rows of the table, and two rows of one name
make it throw (`keepsEdits_iff`).
-/

namespace WebcamStreamer

/-! ## The view model

The two text fields are bound to properties whose setters raise a flag, and a
snapshot writes into the same fields unless the flag is up. The flag is raised
by every edit, and taken down when a call that applies the credentials has
ended, whatever the answer. -/

/-- `class MainViewModel`, as far as the fields go. -/
structure MainViewModel where
  cameras : List CameraInfo := []
  viewerUser : String := ""
  viewerPass : String := ""
  credentialsDirty : Bool := false

namespace MainViewModel

/-- The setter of `ViewerUser`. -/
def setViewerUser (vm : MainViewModel) (value : String) : MainViewModel :=
  if vm.viewerUser = value then vm
  else { vm with viewerUser := value, credentialsDirty := true }

/-- The setter of `ViewerPassword`. -/
def setViewerPassword (vm : MainViewModel) (value : String) : MainViewModel :=
  if vm.viewerPass = value then vm
  else { vm with viewerPass := value, credentialsDirty := true }

/-- `SeedViewerCredentialsFromSupervisor`. -/
def seedViewerCredentials (vm : MainViewModel) (user pass : String) :
    MainViewModel :=
  if vm.credentialsDirty then vm
  else
    { vm with
      viewerUser :=
        if user ≠ "" ∧ user ≠ vm.viewerUser then user else vm.viewerUser
      viewerPass :=
        if pass ≠ "" ∧ pass ≠ vm.viewerPass then pass else vm.viewerPass }

/-- `MarkCredentialsApplied`. -/
def markCredentialsApplied (vm : MainViewModel) : MainViewModel :=
  { vm with credentialsDirty := false }

/-- `ApplyCameraList`: the rows, and the credentials of the first of them. Where
the dictionary of the rows throws, nothing has changed yet. -/
def applySnapshot (vm : MainViewModel) (cams : List CamJson) : MainViewModel :=
  match applyCameraList vm.cameras cams with
  | none => vm
  | some [] => { vm with cameras := [] }
  | some (first :: rows) =>
    { vm with cameras := first :: rows }.seedViewerCredentials
      first.viewerUser first.viewerPassword

/-- `char.IsWhiteSpace`. -/
def isWhiteSpace (c : Char) : Bool :=
  ('\t' ≤ c && c ≤ '\r') || ('\u2000' ≤ c && c ≤ '\u200A') ||
    c ∈ [' ', '\u0085', '\u00A0', '\u1680', '\u2028', '\u2029', '\u202F',
      '\u205F', '\u3000']

/-- `String.Trim`. -/
def trim (s : String) : String :=
  String.ofList
    (((s.toList.dropWhile isWhiteSpace).reverse.dropWhile isWhiteSpace).reverse)

/-- `ApplyCredentials_Click`: the credentials that are sent, if they can be. -/
def credentialsToApply (vm : MainViewModel) : Option Credentials :=
  let user := trim vm.viewerUser
  let pass := vm.viewerPass
  if user = "" ∨ pass = "" then none else some (user, pass)

/-- What the fields show. -/
def fields (vm : MainViewModel) : Credentials := (vm.viewerUser, vm.viewerPass)

end MainViewModel

/-! ## A session

A session is a list of what can happen to the window: edits, snapshots,
clicks, and the ends of calls, which may come in any order. Beside what the
program keeps, the state has what only the statement needs: which fields show
what the user typed, and which credentials were delivered. -/

/-- A call of `set-viewer-credentials` that is under way. -/
structure ApplyCall where
  sent : Credentials
  /-- A field has been edited since the click. -/
  outdated : Bool := false

/-- How such a call ends. -/
inductive ApplyAnswer where
  | ok
  | notOk
  | exception
  deriving DecidableEq

/-- The view model and the calls under way, and what the program does not keep:
which fields show what the user typed, what was delivered by calls that were
answered with ok, and whether there was such a call, with no edit since its
click and no snapshot since its answer. -/
structure EditSession where
  vm : MainViewModel := {}
  calls : List ApplyCall := []
  userTyped : Bool := false
  passTyped : Bool := false
  delivered : List Credentials := []
  applied : Bool := false

/-- What happens in the window. -/
inductive UiAction where
  | editUser (value : String)
  | editPass (value : String)
  /-- A reply to `get-status`, or an event `cameras-changed`. -/
  | snapshot (cams : List CamJson)
  /-- An event `camera-state-changed`. -/
  | cameraEvent (data : CamJson)
  /-- A click on Apply; `connected` says that there is a client to call with. -/
  | click (connected : Bool)
  /-- A call ends, the one at this position. -/
  | complete (i : ℕ) (answer : ApplyAnswer)

namespace EditSession

/-- A field was edited: the calls under way do not carry what it shows now. -/
def edited (s : EditSession) (vm : MainViewModel) : EditSession :=
  { s with
    vm, applied := false
    calls := s.calls.map (fun call => { call with outdated := true }) }

/-- The rest of `ApplyCredentials_Click` once the call has ended. The response
is not looked at. -/
def completed (s : EditSession) (call : ApplyCall) : ApplyAnswer → EditSession
  | .ok =>
    { s with
      vm := s.vm.markCredentialsApplied
      delivered := call.sent :: s.delivered
      applied := s.applied || !call.outdated }
  | .notOk => { s with vm := s.vm.markCredentialsApplied }
  | .exception => s

/-- One step of a session. -/
def step (s : EditSession) : UiAction → Option EditSession
  | .editUser value =>
    some (if s.vm.viewerUser = value then s
      else { s.edited (s.vm.setViewerUser value) with userTyped := true })
  | .editPass value =>
    some (if s.vm.viewerPass = value then s
      else { s.edited (s.vm.setViewerPassword value) with passTyped := true })
  | .snapshot cams =>
    let vm := s.vm.applySnapshot cams
    some { s with
      vm
      userTyped := s.userTyped && vm.viewerUser == s.vm.viewerUser
      passTyped := s.passTyped && vm.viewerPass == s.vm.viewerPass
      -- a snapshot without a camera says nothing
      applied := s.applied && cams.all (fun cam => cam.name == "") }
  | .cameraEvent data =>
    some { s with
      vm := { s.vm with cameras := applyCameraStateEvent s.vm.cameras data } }
  | .click connected =>
    some (match s.vm.credentialsToApply with
      | some sent =>
        if connected then { s with calls := s.calls ++ [{ sent }] } else s
      | none => s)
  | .complete i answer =>
    s.calls[i]?.map (fun call => { s with
      calls := s.calls.eraseIdx i }.completed call answer)

/-! ## What is promised

The promise is in two parts, one for edits and one for snapshots. A field must
not lose what the user typed and nobody has received yet, and a field that
nobody is editing must follow the supervisor. The two conditions below are the
exact price of each. -/

/-- A field shows what the user typed, and it is in none of these credentials.
The spaces around a user name do not count, as they are not sent. -/
def Undelivered (s : EditSession) (delivered : List Credentials) : Prop :=
  s.userTyped = true ∧
    MainViewModel.trim s.vm.viewerUser ∉ delivered.map Prod.fst ∨
    s.passTyped = true ∧ s.vm.viewerPass ∉ delivered.map Prod.snd

/-- A snapshot of the supervisor, which has cameras and has credentials. -/
structure Reports (cams : List CamJson) (p : Credentials) : Prop where
  named : ∃ cam ∈ cams, cam.name ≠ ""
  viewer : ∀ cam ∈ cams, cam.viewer = p
  user : p.1 ≠ ""
  pass : p.2 ≠ ""

/-- **Edits are kept.** What was not delivered yet is safe from every snapshot.
Once credentials are applied and nothing is edited, the next snapshot brings the
fields to the credentials of the supervisor. -/
structure KeepsEdits (s : EditSession) : Prop where
  kept : s.Undelivered s.delivered →
    s.vm.credentialsDirty = true ∧ ∀ cams,
      (s.vm.applySnapshot cams).fields = s.vm.fields
  resyncs : s.applied = true → ∀ cams p, Reports cams p →
    (s.vm.applySnapshot cams).fields = p

/-- The rows have different names. -/
def RowsDistinct (s : EditSession) : Prop :=
  (s.vm.cameras.map CameraInfo.name).Nodup

/-- **A step in time**: no response arrives while a field shows what was not
delivered, by this call or before. What was typed after a call went out is the
text such a response would throw away. -/
def Timely (s : EditSession) : UiAction → Prop
  | .complete i .ok =>
    ∀ call, s.calls[i]? = some call → ¬ s.Undelivered (call.sent :: s.delivered)
  | .complete _ .notOk => ¬ s.Undelivered s.delivered
  | _ => True

/-- **A step with a usable table**: credentials are not applied while two rows
have one name. The next snapshot would make a dictionary of the rows, which
throws for a name that occurs twice, before the fields are reached. -/
def Readable (s : EditSession) : UiAction → Prop
  | .complete i .ok =>
    ∀ call, s.calls[i]? = some call → call.outdated = false → s.RowsDistinct
  | _ => True

/-! ## Edits and snapshots

How the flag and the fields follow from one action, without a history. A
snapshot is kept out by the flag, and by nothing else, except that rows of one
name make the dictionary throw before the fields are reached. -/

section Snapshot

variable {vm : MainViewModel}

/-- An edit sets the flag. -/
theorem credentialsDirty_setViewerUser {value : String}
    (h : vm.viewerUser ≠ value) :
    (vm.setViewerUser value).credentialsDirty = true := by
  rw [MainViewModel.setViewerUser, if_neg h]

theorem credentialsDirty_setViewerPassword {value : String}
    (h : vm.viewerPass ≠ value) :
    (vm.setViewerPassword value).credentialsDirty = true := by
  rw [MainViewModel.setViewerPassword, if_neg h]

@[simp] theorem credentialsDirty_seedViewerCredentials (user pass : String) :
    (vm.seedViewerCredentials user pass).credentialsDirty
      = vm.credentialsDirty := by
  unfold MainViewModel.seedViewerCredentials
  split <;> rfl

/-- A snapshot does not clear the flag, and does not set it. -/
@[simp] theorem credentialsDirty_applySnapshot (cams : List CamJson) :
    (vm.applySnapshot cams).credentialsDirty = vm.credentialsDirty := by
  unfold MainViewModel.applySnapshot
  split
  next => rfl
  next => rfl
  next => rw [credentialsDirty_seedViewerCredentials]

@[simp] theorem cameras_seedViewerCredentials (user pass : String) :
    (vm.seedViewerCredentials user pass).cameras = vm.cameras := by
  unfold MainViewModel.seedViewerCredentials
  split <;> rfl

/-- The rows are those of the table. -/
theorem cameras_applySnapshot (cams : List CamJson) :
    (vm.applySnapshot cams).cameras
      = (applyCameraList vm.cameras cams).getD vm.cameras := by
  unfold MainViewModel.applySnapshot
  split
  next h => rw [h, Option.getD_none]
  next h => rw [h, Option.getD_some]
  next h => rw [h, Option.getD_some, cameras_seedViewerCredentials]

/-- The flag keeps snapshots out. -/
theorem fields_applySnapshot_of_dirty (h : vm.credentialsDirty = true)
    (cams : List CamJson) :
    (vm.applySnapshot cams).fields = vm.fields := by
  unfold MainViewModel.applySnapshot
  split
  next => rfl
  next => rfl
  next => rw [MainViewModel.seedViewerCredentials, if_pos h]; rfl

/-- Without it, credentials that are not empty are taken. -/
theorem fields_seedViewerCredentials {user pass : String}
    (h : vm.credentialsDirty = false)
    (huser : user ≠ "") (hpass : pass ≠ "") :
    (vm.seedViewerCredentials user pass).fields = (user, pass) := by
  have htake : ∀ {a b : String}, a ≠ "" →
      (if a ≠ "" ∧ a ≠ b then a else b) = a := by
    intro a b ha
    by_cases hab : a = b
    · rw [if_neg (fun hno => hno.2 hab), hab]
    · rw [if_pos ⟨ha, hab⟩]
  rw [MainViewModel.seedViewerCredentials, h, if_neg Bool.false_ne_true,
    MainViewModel.fields,
    htake huser, htake hpass]

/-- Without it, a snapshot brings the fields to the credentials it reports,
where the rows have different names. -/
theorem fields_applySnapshot {cams : List CamJson} {p : Credentials}
    (h : vm.credentialsDirty = false)
    (hdistinct : (vm.cameras.map CameraInfo.name).Nodup)
    (hreports : Reports cams p) : (vm.applySnapshot cams).fields = p := by
  obtain ⟨rows, hrows, hnames, -⟩ :=
    @CameraTable.applyCameraList_names { rows := vm.cameras } cams hdistinct
  have hne : rows ≠ [] := by
    obtain ⟨cam, hcam, hname⟩ := hreports.named
    have hmem : cam.name ∈ rows.map CameraInfo.name := by
      rw [hnames, List.mem_append, CameraTable.newNames, List.mem_filter,
        List.mem_filter,
        decide_eq_true_iff, decide_eq_true_iff]
      have hlisted : cam.name ∈ cams.map CamJson.name :=
        List.mem_map_of_mem hcam
      by_cases hold : cam.name ∈ vm.cameras.map CameraInfo.name
      · exact .inl ⟨hold, hname, hlisted⟩
      · exact .inr ⟨hlisted, hname, hold⟩
    rintro rfl
    cases hmem
  obtain ⟨first, rest, rfl⟩ := List.exists_cons_of_ne_nil hne
  obtain ⟨cam, hcam, rfl⟩ :=
    exists_of_mem_applyCameraList hrows List.mem_cons_self
  obtain rfl := hreports.viewer cam hcam
  rw [MainViewModel.applySnapshot, hrows]
  exact fields_seedViewerCredentials h hreports.user hreports.pass

/-- With rows of one name, a snapshot does nothing. -/
theorem applySnapshot_of_not_nodup
    (h : ¬ (vm.cameras.map CameraInfo.name).Nodup)
    (cams : List CamJson) : vm.applySnapshot cams = vm := by
  rw [MainViewModel.applySnapshot, applyCameraList, if_neg h]

/-- The supervisor can have other credentials than the fields show. -/
theorem exists_reports_ne (c : Credentials) :
    ∃ cams p, Reports cams p ∧ p ≠ c := by
  have hreports : ∀ p : Credentials, p.1 ≠ "" → p.2 ≠ "" → ∃ cams,
      Reports cams p := by
    intro p huser hpass
    obtain ⟨cam, hname⟩ : ∃ cam : CamJson, cam.name ≠ "" :=
      ⟨CameraTable.twins.head (by decide), by decide⟩
    exact ⟨[{ cam with viewerUser := p.1, viewerPass := p.2 }],
      ⟨_, List.mem_cons_self, hname⟩, List.forall_mem_singleton.mpr rfl,
      huser, hpass⟩
  by_cases hc : c = ("a", "b")
  · obtain ⟨cams, hcams⟩ := hreports ("b", "a") (by decide) (by decide)
    exact ⟨cams, _, hcams, by rw [hc]; decide⟩
  · obtain ⟨cams, hcams⟩ := hreports ("a", "b") (by decide) (by decide)
    exact ⟨cams, _, hcams, Ne.symm hc⟩

end Snapshot

/-! ## One step

A step is an edit, a snapshot, a response or none of these, and only the
response can clear the flag. So the whole question is what is still to deliver
when one arrives, and whether the next snapshot can be taken. -/

/-- **What a step does**: an edit, a snapshot, a response, or nothing that the
fields and the flag have to do with. -/
inductive Move (s : EditSession) : UiAction → EditSession → Prop where
  | aside {a : UiAction} {rows : List CameraInfo} {calls : List ApplyCall}
      (htimely : s.Timely a) (hreadable : s.Readable a)
      (hnames : rows.map CameraInfo.name = s.vm.cameras.map CameraInfo.name) :
      Move s a { s with vm := { s.vm with cameras := rows }, calls }
  | edit {a : UiAction} {vm : MainViewModel} {userTyped passTyped : Bool}
      (htimely : s.Timely a) (hreadable : s.Readable a)
      (hdirty : vm.credentialsDirty = true) :
      Move s a { s.edited vm with userTyped, passTyped }
  | snapshot {cams : List CamJson} {t : EditSession}
      (hstep : s.step (.snapshot cams) = some t) : Move s (.snapshot cams) t
  | ok {i : ℕ} {call : ApplyCall} (hcall : s.calls[i]? = some call) :
      Move s (.complete i .ok) ({ s with
        calls := s.calls.eraseIdx i }.completed call .ok)
  | notOk {i : ℕ} {call : ApplyCall} (hcall : s.calls[i]? = some call) :
      Move s (.complete i .notOk) ({ s with
        calls := s.calls.eraseIdx i }.completed call .notOk)

variable {s t : EditSession} {a : UiAction}

theorem move_of_step (hstep : s.step a = some t) : Move s a t := by
  cases a with
  | editUser value =>
    obtain rfl := Option.some.inj hstep
    split
    next => exact .aside trivial trivial rfl
    next hne => exact .edit trivial trivial (credentialsDirty_setViewerUser hne)
  | editPass value =>
    obtain rfl := Option.some.inj hstep
    split
    next => exact .aside trivial trivial rfl
    next hne =>
      exact .edit trivial trivial (credentialsDirty_setViewerPassword hne)
  | snapshot cams => exact .snapshot hstep
  | cameraEvent data =>
    obtain rfl := Option.some.inj hstep
    exact .aside trivial trivial (map_name_applyCameraStateEvent _ _)
  | click connected =>
    obtain rfl := Option.some.inj hstep
    split
    next => cases connected <;> exact .aside trivial trivial rfl
    next => exact .aside trivial trivial rfl
  | complete i answer =>
    obtain ⟨call, hcall, rfl⟩ := Option.map_eq_some_iff.mp hstep
    cases answer with
    | ok => exact .ok hcall
    | notOk => exact .notOk hcall
    | exception => exact .aside trivial trivial rfl

/-- **The invariant**: once credentials are applied, nothing is dirty. As long
as that is so, the next snapshot is taken into the fields. -/
def AppliedClean (s : EditSession) : Prop :=
  s.applied = true → s.vm.credentialsDirty = false

theorem AppliedClean.step (h : s.AppliedClean) (hstep : s.step a = some t) :
    t.AppliedClean := by
  cases move_of_step hstep with
  | aside => exact h
  | edit => exact fun happlied => absurd happlied Bool.false_ne_true
  | snapshot hstep =>
    obtain rfl := Option.some.inj hstep
    intro happlied
    exact (credentialsDirty_applySnapshot _).trans
      (h (Bool.and_eq_true_iff.mp happlied).1)
  | ok => exact fun _ => rfl
  | notOk => exact fun _ => rfl

/-- The flag decides what is kept, and the names of the rows what is taken. -/
theorem keepsEdits_iff_flags (h : s.AppliedClean) :
    s.KeepsEdits ↔ (s.Undelivered s.delivered → s.vm.credentialsDirty = true) ∧
      (s.applied = true → s.RowsDistinct) := by
  constructor
  · refine fun hkeeps => ⟨fun hno => (hkeeps.kept hno).1, fun happlied => ?_⟩
    by_contra hrows
    obtain ⟨cams, p, hreports, hne⟩ := exists_reports_ne s.vm.fields
    refine hne (hkeeps.resyncs happlied cams p hreports ▸ ?_)
    rw [applySnapshot_of_not_nodup hrows]
  · rintro ⟨hdirty, hrows⟩
    refine ⟨fun hno => ⟨hdirty hno, fields_applySnapshot_of_dirty (hdirty hno)⟩,
      ?_⟩
    exact fun happlied cams p =>
      fields_applySnapshot (h happlied) (hrows happlied)

/-- Where the flag is cleared, nothing may be left to deliver. -/
theorem kept_iff_of_clean (h : s.vm.credentialsDirty = false) :
    (s.Undelivered s.delivered → s.vm.credentialsDirty = true) ↔
      ¬ s.Undelivered s.delivered := by
  rw [h]
  exact imp_congr_right (fun _ => iff_of_false Bool.false_ne_true not_false)

/-- What a snapshot has replaced is not what the user typed. -/
theorem undelivered_of_snapshot {cams : List CamJson}
    {delivered : List Credentials}
    (hstep : s.step (.snapshot cams) = some t) (h : t.Undelivered delivered) :
    s.Undelivered delivered := by
  obtain rfl := Option.some.inj hstep
  rcases h with ⟨htyped, hno⟩ | ⟨htyped, hno⟩
  · obtain ⟨htyped, hsame⟩ := (Bool.and_eq_true _ _).mp htyped
    exact .inl ⟨htyped, eq_of_beq hsame ▸ hno⟩
  · obtain ⟨htyped, hsame⟩ := (Bool.and_eq_true _ _).mp htyped
    exact .inr ⟨htyped, eq_of_beq hsame ▸ hno⟩

/-- Exactly a step in time keeps what is not delivered under the flag. -/
theorem kept_step (hs : s.Undelivered s.delivered →
      s.vm.credentialsDirty = true)
    (hstep : s.step a = some t) :
    (t.Undelivered t.delivered → t.vm.credentialsDirty = true) ↔
      s.Timely a := by
  cases move_of_step hstep with
  | aside htimely => exact iff_of_true hs htimely
  | edit htimely _ hdirty => exact iff_of_true (fun _ => hdirty) htimely
  | snapshot hstep =>
    refine iff_of_true (fun hno => ?_) trivial
    have hbefore := undelivered_of_snapshot hstep hno
    obtain rfl := Option.some.inj hstep
    exact (credentialsDirty_applySnapshot _).trans (hs hbefore)
  | ok hcall =>
    rw [kept_iff_of_clean rfl]
    constructor
    · intro hnone call hcall'
      obtain rfl := Option.some.inj (hcall.symm.trans hcall')
      exact hnone
    · exact fun htimely => htimely _ hcall
  | notOk => exact kept_iff_of_clean rfl

/-- A snapshot without a camera leaves no two rows of one name. -/
theorem rowsDistinct_applySnapshot (h : s.RowsDistinct) {cams : List CamJson}
    (hcams : ∀ cam ∈ cams, cam.name = "") :
    ((s.vm.applySnapshot cams).cameras.map CameraInfo.name).Nodup := by
  obtain ⟨rows, hrows, hnames, -⟩ :=
    @CameraTable.applyCameraList_names { rows := s.vm.cameras } cams h
  rw [cameras_applySnapshot, hrows]
  refine (@CameraTable.nodup_names_iff { rows := s.vm.cameras } cams _ h
    hnames).mpr ?_
  have hnone : CameraTable.newNames { rows := s.vm.cameras } cams = [] := by
    refine List.filter_eq_nil_iff.mpr (fun name hname hnew => ?_)
    obtain ⟨cam, hcam, rfl⟩ := List.mem_map.mp hname
    exact (of_decide_eq_true hnew).1 (hcams cam hcam)
  rw [hnone]
  exact List.nodup_nil

/-- Exactly a step with a usable table keeps the next snapshot welcome. -/
theorem rowsDistinct_step (hs : s.applied = true → s.RowsDistinct)
    (hstep : s.step a = some t) :
    (t.applied = true → t.RowsDistinct) ↔ s.Readable a := by
  cases move_of_step hstep with
  | aside _ hreadable hnames =>
    refine iff_of_true (fun happlied => ?_) hreadable
    rw [RowsDistinct, hnames]
    exact hs happlied
  | edit _ hreadable =>
    exact iff_of_true (fun happlied =>
      absurd happlied Bool.false_ne_true) hreadable
  | snapshot hstep =>
    obtain rfl := Option.some.inj hstep
    refine iff_of_true (fun happlied => ?_) trivial
    obtain ⟨happlied, hempty⟩ := Bool.and_eq_true_iff.mp happlied
    exact rowsDistinct_applySnapshot (hs happlied) (fun cam hcam =>
      eq_of_beq (List.all_eq_true.mp hempty cam hcam))
  | @ok i call hcall =>
    constructor
    · intro hrows call' hcall' hcurrent
      obtain rfl := Option.some.inj (hcall.symm.trans hcall')
      exact hrows (Bool.or_eq_true_iff.mpr (.inr (by rw [hcurrent]; rfl)))
    · intro hreadable happlied
      rcases Bool.or_eq_true_iff.mp happlied with happlied | hcurrent
      · exact hs happlied
      · exact hreadable call hcall (Bool.not_eq_true' call.outdated ▸ hcurrent)
  | notOk => exact iff_of_true hs trivial

/-- **What one step keeps**, exactly. Both directions are needed: the
condition is a condition on single steps, and a run goes wrong at the first
step that does not meet it. -/
theorem keepsEdits_step (h : s.AppliedClean) (hs : s.KeepsEdits)
    (hstep : s.step a = some t) :
    t.KeepsEdits ↔ s.Timely a ∧ s.Readable a := by
  obtain ⟨hkept, hrows⟩ := (keepsEdits_iff_flags h).mp hs
  rw [keepsEdits_iff_flags (h.step hstep), kept_step hkept hstep,
    rowsDistinct_step hrows hstep]

/-! ## Whole sessions

Both parts of the promise hold at the start, and each step keeps them exactly
under its condition, so that a whole session keeps them exactly if all its
steps meet it. The last theorem is a session in which the supervisor refuses
what was typed. -/

theorem keepsEdits_initial : KeepsEdits {} := by
  refine (keepsEdits_iff_flags (fun h => absurd h Bool.false_ne_true)).mpr ⟨?_,
    ?_⟩
  · rintro (⟨h, -⟩ | ⟨h, -⟩) <;> cases h
  · exact fun h => absurd h Bool.false_ne_true

/-- **A session keeps the edits throughout exactly if** no response in it
arrives while a field shows what was not delivered, and the rows have
different names whenever credentials are applied. Keeping is both that what
was not delivered is not overwritten by a snapshot, and that what was applied
gives way to the next one. -/
theorem keepsEdits_iff (actions : List UiAction) :
    Runs.Everywhere EditSession.step KeepsEdits {} actions ↔
      Runs.Guarded EditSession.step (fun s a => s.Timely a ∧
        s.Readable a) {} actions :=
  Runs.everywhere_iff_guarded_of_invariant (fun _ _ _ h hstep => h.step hstep)
    (fun _ _ _ h hs hstep => keepsEdits_step h hs hstep)
    (fun h => absurd h Bool.false_ne_true) keepsEdits_initial

/-- New credentials are typed and applied, and the supervisor refuses them. -/
def refusedSession : List UiAction :=
  [.editUser "bob", .editPass "secret", .click true, .complete 0 .notOk]

/-- They are not kept. -/
theorem keepsEdits_refusedSession_false :
    ¬ Runs.Everywhere EditSession.step KeepsEdits {} refusedSession := by
  intro h
  obtain ⟨-, h⟩ := h
  obtain ⟨-, h⟩ := h _ rfl
  obtain ⟨-, h⟩ := h _ rfl
  obtain ⟨-, h⟩ := h _ rfl
  have hlast : KeepsEdits _ := h _ rfl
  exact absurd (hlast.kept (.inl ⟨rfl, List.not_mem_nil⟩)).1 Bool.false_ne_true

end EditSession

end WebcamStreamer
