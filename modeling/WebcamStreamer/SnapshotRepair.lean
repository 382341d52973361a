import WebcamStreamer.CameraTable
import WebcamStreamer.Runs

/-!
# What a snapshot makes of any table

A snapshot is to repair the table, whatever it showed before: one row for each
name, with the fields of the snapshot. `CameraTable` says what becomes of a
table that already follows the supervisor; here the rows are those that any
snapshots and events left, and a snapshot is any list of cameras.

The rows that are there are found by name, in a dictionary that is built before
the first camera is applied. A camera that has no row yet is not entered into
it, so a second camera of the same name gets a second row, and building the
dictionary throws from then on.
-/

namespace WebcamStreamer

/-! ## The calls

The table is taken as it is, with any rows, and is followed through snapshots
and events. A call that throws leaves the rows as they were and is remembered
as one that threw. -/

/-- A call that touches the rows. -/
inductive TableCall where
  /-- `ApplyCameraList`. -/
  | list (cameras : List CamJson)
  /-- `ApplyCameraStateEvent`. -/
  | event (data : CamJson)

/-- The rows, the last snapshot, whether nothing came after it and whether
applying it threw. -/
structure CameraTable where
  rows : List CameraInfo := []
  snapshot : List CamJson := []
  fresh : Bool := false
  threw : Bool := false

namespace CameraTable

/-- A call. The exception is thrown before a row is touched. -/
def apply (t : CameraTable) : TableCall → CameraTable
  | .event data =>
    { t with rows := applyCameraStateEvent t.rows data, fresh := false }
  | .list cameras =>
    match applyCameraList t.rows cameras with
    | some rows =>
      { rows := rows, snapshot := cameras, fresh := true, threw := false }
    | none =>
      { rows := t.rows, snapshot := cameras, fresh := true, threw := true }

/-- A table and its next call. -/
def step (t : CameraTable) (call : TableCall) : Option CameraTable :=
  some (t.apply call)

/-- **The last snapshot is what the table shows**: it was applied, its names
that are not empty have one row each, and right after it a row has the fields of
a camera of its name. -/
structure Repaired (t : CameraTable) : Prop where
  applied : t.threw = false
  nodup : (t.rows.map CameraInfo.name).Nodup
  names : ∀ name, name ∈ t.rows.map CameraInfo.name ↔
    name ≠ "" ∧ name ∈ t.snapshot.map CamJson.name
  fields : t.fresh = true → ∀ row ∈ t.rows, ∃ el ∈ t.snapshot,
    el.name = row.name ∧ row = CameraInfo.ofJson el

/-- The names of a snapshot that have no row yet. -/
def newNames (t : CameraTable) (cameras : List CamJson) : List String :=
  (cameras.map CamJson.name).filter
    (fun name => decide (name ≠ "" ∧ name ∉ t.rows.map CameraInfo.name))

/-- The condition on a snapshot: the cameras that are new to the table have
different names. -/
def NewOnce (t : CameraTable) : TableCall → Prop
  | .list cameras => (t.newNames cameras).Nodup
  | .event _ => True

end CameraTable

/-! ## The cameras of a snapshot, one after the other

The objects of a snapshot are applied in their order. An object whose name had
a row when the snapshot arrived updates it, and any other one gets a row of
its own, also if its name was in the snapshot before. -/

section Fold

variable {existing : List String} {rows : List CameraInfo} {cams : List CamJson}

/-- The names of the rows stay, and behind them stand those of the new
cameras, each as often as the snapshot has it. -/
theorem map_name_foldl_applyCamera :
    (cams.foldl (applyCamera existing) rows).map CameraInfo.name
      = rows.map CameraInfo.name
        ++ (cams.map CamJson.name).filter
          (fun name => decide (name ≠ "" ∧ name ∉ existing)) := by
  induction cams generalizing rows with
  | nil => simp
  | cons cam cams ih =>
    rw [List.foldl_cons, ih, List.map_cons]
    by_cases hempty : cam.name = ""
    · rw [applyCamera, if_pos hempty,
        List.filter_cons_of_neg (by simp [hempty])]
    · by_cases hin : cam.name ∈ existing
      · have hkeep : (applyCamera existing rows cam).map CameraInfo.name
            = rows.map CameraInfo.name := by
          rw [applyCamera, if_neg hempty, if_pos hin, List.map_map]
          refine List.map_congr_left (fun row _ => ?_)
          rw [Function.comp_apply]
          split
          next h => exact h.symm
          next => rfl
        rw [hkeep, List.filter_cons_of_neg (by simp [hin])]
      · rw [applyCamera, if_neg hempty, if_neg hin, List.map_append,
          List.filter_cons_of_pos (by simp [hempty, hin])]
        simp

end Fold

/-! ## A snapshot over any rows

So a snapshot gives two rows one name exactly if it has two new cameras of
that name. The next snapshot then throws before it touches anything, which is
why the condition is about every snapshot of a run. -/

namespace CameraTable

variable {t : CameraTable} {cameras : List CamJson}

/-- The names that are not empty. -/
theorem mem_seen {name : String} :
    name ∈ (cameras.map CamJson.name).filter (fun name => decide (name ≠ "")) ↔
      name ≠ "" ∧ name ∈ cameras.map CamJson.name := by
  rw [List.mem_filter, decide_eq_true_iff, and_comm]

/-- Where the rows have different names, a snapshot is applied: the rows that it
names stay, and behind them stand its new names. -/
theorem applyCameraList_names (cameras : List CamJson)
    (hnodup : (t.rows.map CameraInfo.name).Nodup) :
    ∃ rows, applyCameraList t.rows cameras = some rows ∧
      rows.map CameraInfo.name
        = (t.rows.map CameraInfo.name).filter
            (fun name => decide (name ≠ "" ∧ name ∈ cameras.map CamJson.name))
          ++ t.newNames cameras ∧
      ∀ row ∈ rows, ∃ el ∈ cameras,
        el.name = row.name ∧ row = CameraInfo.ofJson el := by
  refine ⟨_, if_pos hnodup, ?_, fun row hrow => ?_⟩
  · have hmap : ∀ (p : String → Bool) (l : List CameraInfo),
        (l.filter (fun row => p row.name)).map CameraInfo.name
          = (l.map CameraInfo.name).filter p := fun p l => by
      rw [List.filter_map]
      rfl
    rw [hmap (fun name => decide (name ∈ _)), map_name_foldl_applyCamera,
      List.filter_append]
    refine congrArg₂ (· ++ ·) (List.filter_congr (fun name _ => ?_)) ?_
    · exact decide_eq_decide.mpr mem_seen
    · refine List.filter_eq_self.mpr (fun name hname => ?_)
      obtain ⟨hmem, hnew⟩ := List.mem_filter.mp hname
      exact decide_eq_true_iff.mpr
        (mem_seen.mpr ⟨(of_decide_eq_true hnew).1, hmem⟩)
  · obtain ⟨el, hel, rfl⟩ := exists_of_mem_applyCameraList (if_pos hnodup) hrow
    exact ⟨el, hel, rfl, rfl⟩

/-- The rows that stay have different names still, so that it depends on the new
ones. -/
theorem nodup_names_iff {rows : List CameraInfo}
    (hnodup : (t.rows.map CameraInfo.name).Nodup)
    (hnames : rows.map CameraInfo.name
      = (t.rows.map CameraInfo.name).filter
          (fun name => decide (name ≠ "" ∧ name ∈ cameras.map CamJson.name))
        ++ t.newNames cameras) :
    (rows.map CameraInfo.name).Nodup ↔ (t.newNames cameras).Nodup := by
  rw [hnames, List.nodup_append]
  refine ⟨fun h => h.2.1,
    fun hnew => ⟨hnodup.filter _, hnew, fun a ha b hb heq => ?_⟩⟩
  exact (of_decide_eq_true (List.mem_filter.mp hb).2).2
    (heq ▸ List.mem_of_mem_filter ha)

/-- **A snapshot repairs a table exactly if** the cameras that are new to it
have different names. Cameras that the table has already may come twice, since
both objects then go into one row. -/
theorem repaired_apply_iff (h : t.Repaired) (call : TableCall) :
    (t.apply call).Repaired ↔ t.NewOnce call := by
  cases call with
  | event data =>
    have hnames := map_name_applyCameraStateEvent t.rows data
    refine iff_of_true ⟨h.applied, ?_, ?_,
      fun hfresh => Bool.noConfusion hfresh⟩ trivial
    · exact hnames ▸ h.nodup
    · exact hnames ▸ h.names
  | list cameras =>
    obtain ⟨rows, hrows, hnames, hfields⟩ :=
      applyCameraList_names cameras h.nodup
    have happly : t.apply (.list cameras) = ⟨rows, cameras, true, false⟩ := by
      rw [apply, hrows]
    rw [happly]
    show _ ↔ (t.newNames cameras).Nodup
    rw [← nodup_names_iff h.nodup hnames]
    refine ⟨Repaired.nodup,
      fun hnodup => ⟨rfl, hnodup, fun name => ?_, fun _ => hfields⟩⟩
    rw [hnames, List.mem_append, newNames, List.mem_filter, List.mem_filter,
      decide_eq_true_iff, decide_eq_true_iff]
    tauto

/-- The empty table shows the empty snapshot. -/
theorem repaired_empty : ({} : CameraTable).Repaired where
  applied := rfl
  nodup := List.nodup_nil
  names := by simp
  fields := by simp

/-- **A run of snapshots and events** keeps the table repaired throughout
exactly if no snapshot names a camera twice that has no row yet. Repaired
means that the last snapshot was applied without an exception and is what the
table shows, whatever was missed before it. -/
theorem repaired_everywhere_iff (calls : List TableCall) :
    Runs.Everywhere step Repaired {} calls ↔
      Runs.Guarded step NewOnce {} calls :=
  Runs.everywhere_iff_guarded
    (fun _ call _ h hstep => Option.some.inj hstep ▸ repaired_apply_iff h call)
      repaired_empty

/-- Two cameras of one model. -/
def twins : List CamJson := List.replicate 2
  { name := "USB Camera", path := "/usb-camera"
    mode := "transcode_mjpeg_to_h264", width := 640, height := 480, fps := 30
    running := false, present := true, enabled := true, pid := 0
    restarts := 0, viewerCount := 0, advertisedFormats := []
    altName := "", vidPid := ""
    viewerUser := "viewer", viewerPass := "secret" }

/-- The first snapshot with the two gives each of them a row, and the next one
throws. -/
theorem repaired_everywhere_twins_false :
    ¬ Runs.Everywhere step Repaired {} [.list twins, .list twins] ∧
      (applyCameraList [] twins).map (List.map CameraInfo.name)
        = some ["USB Camera", "USB Camera"] ∧
      (applyCameraList [] twins).bind (fun rows => applyCameraList rows twins)
        = none := by
  refine ⟨fun h => ?_, by decide, by decide⟩
  have hnodup := (Runs.everywhere_head (h.2 _ rfl)).nodup
  exact absurd hnodup (by decide)

/-! ## A table that cannot be repaired

Two rows of one name are never removed again: the only call that removes rows
throws first. -/

/-- **Once two rows have the same name**, no call takes them apart, and every
snapshot throws. The dictionary of the rows is made before anything else is
done, and it is where the exception comes from. -/
theorem not_nodup_everywhere (h : ¬ (t.rows.map CameraInfo.name).Nodup)
    (calls : List TableCall) :
    Runs.Everywhere step (fun t => ¬ (t.rows.map CameraInfo.name).Nodup ∧
      ∀ cameras, applyCameraList t.rows cameras = none) t calls := by
  have hthrows : ∀ (u : CameraTable), ¬ (u.rows.map CameraInfo.name).Nodup →
      ∀ cameras, applyCameraList u.rows cameras = none :=
    fun u hu cameras => if_neg hu
  refine Runs.everywhere_of_forall (fun u call v hu hstep => ?_) ⟨h,
    hthrows t h⟩ calls
  obtain rfl := Option.some.inj hstep
  have hkeeps : (u.apply call).rows.map CameraInfo.name
      = u.rows.map CameraInfo.name := by
    cases call with
    | event data => exact map_name_applyCameraStateEvent u.rows data
    | list cameras => rw [apply, hu.2 cameras]
  have hstays : ¬ ((u.apply call).rows.map CameraInfo.name).Nodup :=
    hkeeps ▸ hu.1
  exact ⟨hstays, hthrows _ hstays⟩

end CameraTable

end WebcamStreamer
