import WebcamStreamer.Supervisor

/-!
# The camera table of the user interface

The user interface keeps one row for each camera. A snapshot of all cameras
(`get-status`, `cameras-changed`) reconciles the table, an event about one
camera (`camera-state-changed`) updates its row, and nothing else touches the
rows.

Rows are told apart by name. `applyCameraList` builds a dictionary of them,
which throws where two rows have the same name; `none` stands for that.

The second part says what a list of events makes of a table whose names are
those of the supervisor: the events about single cameras leave the names as they
are, and the row of a camera shows the last thing said about it
(`applyEvents_spec`); a snapshot that lists the cameras of the table, and maybe
more after them, replaces every row (`applyCameraList_eq_map`). Whatever the
names are, no row is left that the snapshot says nothing about
(`exists_of_mem_applyCameraList`).
-/

namespace WebcamStreamer

/-! ## The table

The rows are the bindings of the window. Every object of the supervisor has
all keys, so that a row is overwritten as a whole, and the dictionary of the
names that is made for a snapshot throws when two rows have the same name. -/

/-- `class CameraInfo`: a row. -/
structure CameraInfo where
  name : String := ""
  path : String := ""
  mode : String := ""
  width : ℤ := 0
  height : ℤ := 0
  fps : ℤ := 0
  running : Bool := false
  present : Bool := true
  enabled : Bool := true
  pid : ℕ := 0
  restarts : ℕ := 0
  viewerCount : ℕ := 0
  viewerUser : String := ""
  viewerPassword : String := ""
  advertisedFormats : List AdvertisedFormat := []
  deriving DecidableEq

namespace CameraInfo

/-- `UpdateFromJson`: the supervisor's objects have every key, so every property
is set. -/
def updateFromJson (el : CamJson) (row : CameraInfo) : CameraInfo :=
  { row with
    name := el.name
    path := el.path
    mode := el.mode
    width := el.width
    height := el.height
    fps := el.fps
    running := el.running
    present := el.present
    enabled := el.enabled
    pid := el.pid
    restarts := el.restarts
    viewerCount := el.viewerCount
    viewerUser := el.viewerUser
    viewerPassword := el.viewerPass
    advertisedFormats := el.advertisedFormats }

/-- The row that a fresh one becomes. -/
def ofJson (el : CamJson) : CameraInfo := updateFromJson el {}

/-- Nothing of the old row is left. -/
@[simp] theorem updateFromJson_eq (el : CamJson) (row : CameraInfo) :
    row.updateFromJson el = ofJson el := rfl

@[simp] theorem name_ofJson (el : CamJson) : (ofJson el).name = el.name := rfl

end CameraInfo

/-- One object of a snapshot: its row is updated, or it gets a row. `existing`
are the names that had one when the snapshot arrived. -/
def applyCamera (existing : List String) (rows : List CameraInfo)
    (el : CamJson) : List CameraInfo :=
  if el.name = "" then rows
  else if el.name ∈ existing then
    rows.map (fun row => if row.name
      = el.name then row.updateFromJson el else row)
  else rows ++ [CameraInfo.ofJson el]

/-- `ApplyCameraList`. -/
def applyCameraList (rows : List CameraInfo) (cameras : List CamJson) :
    Option (List CameraInfo) :=
  if (rows.map CameraInfo.name).Nodup then
    let seen :=
      (cameras.map CamJson.name).filter (fun name => decide (name ≠ ""))
    some ((cameras.foldl (applyCamera (rows.map CameraInfo.name)) rows).filter
      (fun row => decide (row.name ∈ seen)))
  else none

/-- The first row with the name is updated. -/
def updateFirst (data : CamJson) : List CameraInfo → List CameraInfo
  | [] => []
  | row :: rest =>
    if row.name = data.name then row.updateFromJson data :: rest
    else row :: updateFirst data rest

/-- `ApplyCameraStateEvent`. -/
def applyCameraStateEvent (rows : List CameraInfo) (data : CamJson) :
    List CameraInfo :=
  if data.name = "" then rows else updateFirst data rows

/-- `OnIpcEvent`, as far as it touches the rows. -/
def applyEvent (rows : List CameraInfo) : Event → Option (List CameraInfo)
  | .cameraStateChanged cam => some (applyCameraStateEvent rows cam)
  | .camerasChanged cams => applyCameraList rows cams
  | _ => some rows

/-- The events of one step, in the order in which they were published. -/
def applyEvents (rows : List CameraInfo) (events : List Event) :
    Option (List CameraInfo) :=
  events.foldlM applyEvent rows

@[simp] theorem applyEvents_nil (rows : List CameraInfo) :
    applyEvents rows [] = some rows := rfl

theorem applyEvents_cons (rows : List CameraInfo) (e : Event)
    (events : List Event) :
    applyEvents rows (e :: events)
      = (applyEvent rows e).bind (fun rows' => applyEvents rows' events) := rfl

/-! ## Events about single cameras

An event about a single camera reaches the first row with its name and makes
no row. So the names of the table are the same before and after it, and where
no two rows have the same name the event reaches the row that it is about and
no other. -/

theorem map_name_updateFirst (data : CamJson) (rows : List CameraInfo) :
    (updateFirst data rows).map CameraInfo.name = rows.map CameraInfo.name := by
  induction rows with
  | nil => rfl
  | cons row rest ih =>
    rw [updateFirst]
    split
    next h => simp [h]
    next => rw [List.map_cons, List.map_cons, ih]

/-- An event leaves the names as they are. -/
theorem map_name_applyCameraStateEvent (rows : List CameraInfo)
    (data : CamJson) :
    (applyCameraStateEvent rows data).map CameraInfo.name
      = rows.map CameraInfo.name := by
  rw [applyCameraStateEvent]
  split
  next => rfl
  next => exact map_name_updateFirst data rows

/-- Where the names are distinct, an update reaches exactly the row with that
name. -/
theorem getElem?_updateFirst {data : CamJson} {rows : List CameraInfo} {k : ℕ}
    {row : CameraInfo} (hnodup : (rows.map CameraInfo.name).Nodup)
    (hk : rows[k]? = some row) :
    (updateFirst data rows)[k]?
      = some (if row.name
        = data.name then CameraInfo.ofJson data else row) := by
  induction rows generalizing k with
  | nil => simp at hk
  | cons r rest ih =>
    obtain ⟨hr, hrest⟩ := List.nodup_cons.mp hnodup
    rw [updateFirst]
    cases k with
    | zero =>
      obtain rfl := Option.some.inj hk
      split <;> rfl
    | succ k =>
      have hget : rest[k]? = some row := hk
      split
      next h =>
        -- the first row has the name, so this one has another
        have hne : row.name ≠ data.name := fun heq =>
          hr (h.trans heq.symm ▸ List.mem_map_of_mem
            (List.mem_of_getElem? hget))
        rw [if_neg hne]
        exact hget
      next => exact ih hrest hget

/-- **What events about single cameras make of the table.** The names stay, and
a row either shows what one of the events says about its camera, or is as
before, and then no event was about it. -/
theorem applyEvents_spec {rows : List CameraInfo} {events : List Event}
    (hnodup : (rows.map CameraInfo.name).Nodup)
    (hnames : "" ∉ rows.map CameraInfo.name)
    (hno : ∀ cams, Event.camerasChanged cams ∉ events) :
    ∃ rows', applyEvents rows events = some rows' ∧
      rows'.map CameraInfo.name = rows.map CameraInfo.name ∧
      ∀ (k : ℕ) (row : CameraInfo), rows[k]? = some row →
        ∃ row', rows'[k]? = some row' ∧
          ((∃ cam, Event.cameraStateChanged cam ∈ events ∧ cam.name = row.name ∧
              row' = CameraInfo.ofJson cam) ∨
            (row' = row ∧ ∀ cam, Event.cameraStateChanged cam ∈ events →
              cam.name ≠ row.name)) := by
  induction events generalizing rows with
  | nil =>
    exact ⟨rows, rfl, rfl, fun k row hk => ⟨row, hk, .inr ⟨rfl, by simp⟩⟩⟩
  | cons e events ih =>
    have hrest : ∀ cams, Event.camerasChanged cams ∉ events :=
      fun cams h => hno cams (List.mem_cons_of_mem _ h)
    rw [applyEvents_cons]
    cases e with
    -- a snapshot is excluded by the hypothesis
    | camerasChanged cams => exact absurd List.mem_cons_self (hno cams)
    | cameraStateChanged cam =>
      have hfirst := map_name_applyCameraStateEvent rows cam
      obtain ⟨rows', hrows', hnames', hget'⟩ :=
        ih (hfirst ▸ hnodup) (hfirst ▸ hnames) hrest
      refine ⟨rows', hrows', hnames'.trans hfirst, fun k row hk => ?_⟩
      have hrow : row.name ≠ "" := fun h =>
        hnames (h ▸ List.mem_map_of_mem (List.mem_of_getElem? hk))
      have hk₁ : (applyCameraStateEvent rows cam)[k]?
          = some (if row.name
            = cam.name then CameraInfo.ofJson cam else row) := by
        rw [applyCameraStateEvent]
        split
        next h => rw [if_neg (h ▸ hrow), hk]
        next => exact getElem?_updateFirst hnodup hk
      obtain ⟨row', hrow', hcase⟩ := hget' k _ hk₁
      refine ⟨row', hrow', ?_⟩
      -- the row is set anew by this event, and a later one of its name may set
      -- it once more
      by_cases heq : row.name = cam.name
      · rw [if_pos heq] at hcase
        rcases hcase with ⟨cam', hmem, hname, rfl⟩ | ⟨rfl, -⟩
        · exact .inl ⟨cam', List.mem_cons_of_mem _ hmem,
            hname.trans heq.symm, rfl⟩
        · exact .inl ⟨cam, List.mem_cons_self, heq.symm, rfl⟩
      · rw [if_neg heq] at hcase
        rcases hcase with ⟨cam', hmem, hname, rfl⟩ | ⟨rfl, hnone⟩
        · exact .inl ⟨cam', List.mem_cons_of_mem _ hmem, hname, rfl⟩
        · refine .inr ⟨rfl, fun cam' hmem => ?_⟩
          rcases List.mem_cons.mp hmem with h | h
          · obtain rfl := Event.cameraStateChanged.inj h
            exact Ne.symm heq
          · exact hnone cam' h
    | _ =>
      obtain ⟨rows', hrows', hnames', hget'⟩ := ih hnodup hnames hrest
      refine ⟨rows', hrows', hnames', fun k row hk => ?_⟩
      obtain ⟨row', hrow', hcase⟩ := hget' k row hk
      exact ⟨row', hrow', by simpa using hcase⟩

/-! ## Snapshots

A snapshot replaces the rows of the cameras it has, adds rows for new ones at
the end and removes the rows of the others. Two cases are enough for what
follows: one where the cameras of the table come first and in their order, and
one that only says where the rows come from. -/

/-- The objects of the cameras that have a row, in the order of the rows:
every row is replaced. -/
theorem foldl_applyCamera_existing {existing : List String}
    {done rows : List CameraInfo}
    {cams : List CamJson}
    (hnames : cams.map CamJson.name = rows.map CameraInfo.name)
    (hnodup : ((done ++ rows).map CameraInfo.name).Nodup)
    (hempty : "" ∉ cams.map CamJson.name)
    (hsub : cams.map CamJson.name ⊆ existing) :
    cams.foldl (applyCamera existing) (done ++ rows)
      = done ++ cams.map CameraInfo.ofJson := by
  induction cams generalizing done rows with
  | nil =>
    have hrows : rows = [] := List.map_eq_nil_iff.mp hnames.symm
    rw [hrows]
    rfl
  | cons cam cams ih =>
    cases rows with
    | nil => cases hnames
    | cons row rows =>
      obtain ⟨hname, hnames⟩ := List.cons_eq_cons.mp hnames
      obtain ⟨hin, hsub⟩ := List.cons_subset.mp hsub
      obtain ⟨hne, hempty⟩ := List.ne_and_not_mem_of_not_mem_cons hempty
      have hstep : applyCamera existing (done ++ row :: rows) cam
          = (done ++ [CameraInfo.ofJson cam]) ++ rows := by
        rw [applyCamera, if_neg (Ne.symm hne), if_pos hin]
        rw [List.map_append, List.map_cons, List.nodup_append] at hnodup
        obtain ⟨-, hrest, hdisj⟩ := hnodup
        -- the rows before and behind have other names, so that the object goes
        -- into one row
        have hkeep : ∀ l : List CameraInfo, (∀ r ∈ l, r.name ≠ cam.name) →
            l.map (fun r => if r.name
              = cam.name then r.updateFromJson cam else r) = l := by
          intro l hl
          exact (List.map_congr_left (fun r hr => if_neg (hl r hr))).trans
            (List.map_id l)
        rw [List.map_append, List.map_cons, if_pos hname.symm,
          hkeep done, hkeep rows]
        · simp
        · intro r hr heq
          exact (List.nodup_cons.mp hrest).1
            (hname ▸ heq ▸ List.mem_map_of_mem hr)
        · intro r hr heq
          exact hdisj _ (List.mem_map_of_mem hr) _ List.mem_cons_self
            (heq.trans hname)
      rw [List.foldl_cons, hstep, ih hnames ?_ hempty hsub]
      · simp
      · simpa [hname] using hnodup

/-- The objects of new cameras: each gets a row. -/
theorem foldl_applyCamera_new {existing : List String} {rows : List CameraInfo}
    {cams : List CamJson} (hempty : "" ∉ cams.map CamJson.name)
    (hnew : ∀ cam ∈ cams, cam.name ∉ existing) :
    cams.foldl (applyCamera existing) rows
      = rows ++ cams.map CameraInfo.ofJson := by
  induction cams generalizing rows with
  | nil => simp
  | cons cam cams ih =>
    obtain ⟨hne, hempty⟩ := List.ne_and_not_mem_of_not_mem_cons hempty
    obtain ⟨hcam, hnew⟩ := List.forall_mem_cons.mp hnew
    rw [List.foldl_cons, ih hempty hnew, applyCamera, if_neg (Ne.symm hne),
      if_neg hcam]
    simp

/-- **What a snapshot makes of the table**, when its first cameras are those of
the table in their order and all its names are different: exactly its own
rows. -/
theorem applyCameraList_eq_map {rows : List CameraInfo} {cams : List CamJson}
    (hinit : rows.map CameraInfo.name <+: cams.map CamJson.name)
    (hnodup : (cams.map CamJson.name).Nodup)
    (hempty : "" ∉ cams.map CamJson.name) :
    applyCameraList rows cams = some (cams.map CameraInfo.ofJson) := by
  obtain ⟨names, hnames⟩ := hinit
  obtain ⟨old, new, rfl, hold, rfl⟩ := List.map_eq_append_iff.mp hnames.symm
  rw [List.map_append, hold] at hnodup hempty
  obtain ⟨hrows, -, hdisj⟩ := List.nodup_append.mp hnodup
  rw [List.mem_append, not_or] at hempty
  have holdrows : old.foldl (applyCamera (rows.map CameraInfo.name)) rows
      = old.map CameraInfo.ofJson :=
    @foldl_applyCamera_existing _ [] _ _ hold hrows (hold ▸ hempty.1)
      (hold ▸ List.Subset.refl _)
  have hall : (old ++ new).foldl (applyCamera (rows.map CameraInfo.name)) rows
      = (old ++ new).map CameraInfo.ofJson := by
    rw [List.foldl_append, holdrows, foldl_applyCamera_new hempty.2,
      List.map_append]
    intro cam hcam hin
    exact hdisj _ hin _ (List.mem_map_of_mem hcam) rfl
  rw [applyCameraList, if_pos hrows, hall]
  dsimp only
  rw [List.filter_eq_self.mpr]
  intro row hrow
  obtain ⟨cam, hcam, rfl⟩ := List.mem_map.mp hrow
  rw [decide_eq_true_iff, List.mem_filter]
  refine ⟨List.mem_map_of_mem hcam, decide_eq_true_iff.mpr (fun h => ?_)⟩
  rcases List.mem_append.mp hcam with hc | hc
  · exact hempty.1 (hold ▸ h ▸ List.mem_map_of_mem hc)
  · exact hempty.2 (h ▸ List.mem_map_of_mem hc)

/-- Where the rows that are there come from, as far as a snapshot has been
applied: from an object of it, or from before and from no object with their
name. -/
theorem mem_foldl_applyCamera {existing : List String} {rows : List CameraInfo}
    {cams : List CamJson} {row : CameraInfo}
    (h : row ∈ cams.foldl (applyCamera existing) rows) :
    (∃ cam ∈ cams, row = CameraInfo.ofJson cam) ∨
      row ∈ rows ∧ ∀ cam ∈ cams, cam.name = row.name →
        cam.name = "" ∨ cam.name ∉ existing := by
  induction cams generalizing rows with
  | nil => exact .inr ⟨h, fun cam hcam => absurd hcam List.not_mem_nil⟩
  | cons cam cams ih =>
    rcases ih h with ⟨c, hc, rfl⟩ | ⟨hmem, hrest⟩
    · exact .inl ⟨c, List.mem_cons_of_mem _ hc, rfl⟩
    · by_cases hnew : row = CameraInfo.ofJson cam
      · exact .inl ⟨cam, List.mem_cons_self, hnew⟩
      · have hold : row ∈ rows ∧
            (cam.name = row.name → cam.name = "" ∨ cam.name ∉ existing) := by
          unfold applyCamera at hmem
          split at hmem
          next hempty => exact ⟨hmem, fun _ => .inl hempty⟩
          next =>
            split at hmem
            next =>
              obtain ⟨r, hr, rfl⟩ := List.mem_map.mp hmem
              by_cases hname : r.name = cam.name
              · rw [if_pos hname] at hnew
                exact absurd rfl hnew
              · rw [if_neg hname]
                exact ⟨hr, fun heq => absurd heq.symm hname⟩
            next hin =>
              refine ⟨(List.mem_append.mp hmem).resolve_right ?_,
                fun _ => .inr hin⟩
              exact fun h => hnew (List.mem_singleton.mp h)
        exact .inr ⟨hold.1, List.forall_mem_cons.mpr ⟨hold.2, hrest⟩⟩

/-- **Every row shows an object of the last snapshot.** Rows of cameras that
are gone are removed, the others are overwritten, and new ones are made from
their objects, so that nothing of an earlier snapshot is left in the table. -/
theorem exists_of_mem_applyCameraList {rows rows' : List CameraInfo}
    {cams : List CamJson}
    {row : CameraInfo} (h : applyCameraList rows cams = some rows')
    (hrow : row ∈ rows') :
    ∃ cam ∈ cams, row = CameraInfo.ofJson cam := by
  unfold applyCameraList at h
  split at h
  next =>
    obtain rfl := Option.some.inj h
    obtain ⟨hmem, hseen⟩ := List.mem_filter.mp hrow
    rcases mem_foldl_applyCamera hmem with hcam | ⟨hold, hno⟩
    · exact hcam
    · -- a row from before is kept only if the snapshot has its name, and is
      -- then replaced
      obtain ⟨hname, hne⟩ := List.mem_filter.mp (of_decide_eq_true hseen)
      obtain ⟨cam, hcam, heq⟩ := List.mem_map.mp hname
      rcases hno cam hcam heq with hempty | hnew
      · exact absurd (heq ▸ hempty) (of_decide_eq_true hne)
      · exact absurd (heq ▸ List.mem_map_of_mem hold) hnew
  next => cases h

end WebcamStreamer
