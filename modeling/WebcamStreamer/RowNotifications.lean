import WebcamStreamer.ClipboardUrls
import WebcamStreamer.FloatRounding
import WebcamStreamer.HookMessages
import WebcamStreamer.Observed
import WebcamStreamer.ResolutionMenu

/-!
# How a row of the camera table is kept up to date

A row is an object that the window is bound to. Each object about a camera that
comes from the supervisor sets its properties one after the other, and a
property that has changed is raised, together with the views that are computed
from it: the URLs, the resolutions to choose from, whether somebody is watching.
The window reads again what is raised and nothing else, so a view that were not
raised would be shown as it was.

An object may be malformed. Then setting the properties stops halfway, with an
exception, and the ones in front of it are set.
-/

namespace WebcamStreamer

open FloatRounding

/-! ## The properties

The properties that are set from JSON are an enumeration, with the key and the
type of each. The views are what the window is bound to, some of them computed
from several fields, and every setter raises the views that its author thought
of. -/

/-- The properties that are set from JSON. -/
inductive RowProperty where
  | name | path | mode | width | height | fps | running | present | enabled
  | pid | restarts
  | viewerCount | viewerUser | viewerPassword | advertisedFormats
  deriving DecidableEq

namespace RowProperty

/-- The type of a property. -/
abbrev Value : RowProperty → Type
  | name | path | mode | viewerUser | viewerPassword => String
  | width | height | fps | restarts | viewerCount => ℤ
  | running | present | enabled => Bool
  | pid => ℕ
  | advertisedFormats => List AdvertisedFormat

instance decidableEqValue : (p : RowProperty) → DecidableEq p.Value
  | name | path | mode | viewerUser | viewerPassword =>
    inferInstanceAs (DecidableEq String)
  | width | height | fps | restarts | viewerCount =>
    inferInstanceAs (DecidableEq ℤ)
  | running | present | enabled => inferInstanceAs (DecidableEq Bool)
  | pid => inferInstanceAs (DecidableEq ℕ)
  | advertisedFormats => inferInstanceAs (DecidableEq (List AdvertisedFormat))

/-- The properties in the order in which they are set. -/
def inOrder : List RowProperty :=
  [name, path, mode, width, height, fps, running, present, enabled, pid,
    restarts, viewerCount,
    viewerUser, viewerPassword, advertisedFormats]

/-- The key of a property. -/
def key : RowProperty → String
  | name => "name"
  | path => "path"
  | mode => "mode"
  | width => "width"
  | height => "height"
  | fps => "fps"
  | running => "running"
  | present => "present"
  | enabled => "enabled"
  | pid => "pid"
  | restarts => "restarts"
  | viewerCount => "viewer_count"
  | viewerUser => "viewer_user"
  | viewerPassword => "viewer_pass"
  | advertisedFormats => "advertised_formats"

end RowProperty

/-- What a row stores: the properties, and the resolution as text, which goes
with the width and the height. -/
inductive RowField where
  | property (p : RowProperty)
  | resolution
  deriving DecidableEq

namespace RowField

/-- The type of a field. -/
abbrev Value : RowField → Type
  | property p => p.Value
  | resolution => String

instance decidableEqValue : (f : RowField) → DecidableEq f.Value
  | property p => p.decidableEqValue
  | resolution => inferInstanceAs (DecidableEq String)

end RowField

/-- What the window is bound to. -/
inductive RowView where
  | field (f : RowField)
  | hasViewers
  | availableResolutions
  | displayUrl
  | clipboardUrl
  deriving DecidableEq

/-- The type of what is shown. -/
abbrev RowView.Shown : RowView → Type
  | field f => f.Value
  | hasViewers => Bool
  | availableResolutions => Option (List String)
  | displayUrl | clipboardUrl => String

/-- The row that fields make up. -/
def rowInfo (fields : (f : RowField) → f.Value) : CameraInfo where
  name := fields (.property .name)
  path := fields (.property .path)
  mode := fields (.property .mode)
  width := fields (.property .width)
  height := fields (.property .height)
  fps := fields (.property .fps)
  running := fields (.property .running)
  present := fields (.property .present)
  enabled := fields (.property .enabled)
  pid := fields (.property .pid)
  restarts := (fields (.property .restarts)).toNat
  viewerCount := (fields (.property .viewerCount)).toNat
  viewerUser := fields (.property .viewerUser)
  viewerPassword := fields (.property .viewerPassword)
  advertisedFormats := fields (.property .advertisedFormats)

namespace RowView

/-- What a view shows. -/
def read : (v : RowView) → ((f : RowField) → f.Value) → v.Shown
  | field f, fields => fields f
  | hasViewers, fields => decide (0 < fields (.property .viewerCount))
  | availableResolutions, fields => (rowInfo fields).availableResolutions
  | displayUrl, fields => (rowInfo fields).displayUrl
  | clipboardUrl, fields => (rowInfo fields).clipboardUrl

/-- The fields that a view is computed from. -/
def reads : RowView → List RowField
  | field f => [f]
  | hasViewers => [.property .viewerCount]
  | availableResolutions => [.property .mode, .property .advertisedFormats]
  | displayUrl => [.property .path]
  | clipboardUrl =>
    [.property .path, .property .viewerUser, .property .viewerPassword]

end RowView

/-- What a property raises behind itself. -/
def RowProperty.alsoRaised : RowProperty → List RowView
  | path => [.displayUrl, .clipboardUrl]
  | viewerUser | viewerPassword => [.clipboardUrl]
  | viewerCount => [.hasViewers]
  | mode => [.availableResolutions]
  | advertisedFormats => [.availableResolutions]
  | _ => []

/-- A row, as it is observed. -/
def cameraRow : Observed RowField RowField.Value RowView RowView.Shown where
  read := RowView.read
  raises
    | .property p => .field (.property p) :: p.alsoRaised
    | .resolution => [.field .resolution]

/-- `class CameraInfo`, with what its bindings show. -/
abbrev Row := cameraRow.State

/-- The initial values. -/
def initialFields : (f : RowField) → f.Value
  | .property .name | .property .path | .property .mode => ""
  | .property .viewerUser | .property .viewerPassword => ""
  | .property .width | .property .height | .property .fps => (0 : ℤ)
  | .property .restarts | .property .viewerCount => (0 : ℤ)
  | .property .running => false
  | .property .present | .property .enabled => true
  | .property .pid => (0 : ℕ)
  | .property .advertisedFormats => []
  | .resolution => ""

/-- A new row. -/
def newRow : Row := cameraRow.fresh initialFields

namespace Row

/-- The value of a property. -/
def get (row : Row) (p : RowProperty) : p.Value := row.stored (.property p)

/-- The text in the column of resolutions. -/
def resolution (row : Row) : String := row.stored .resolution

/-- Width and height. -/
def size (row : Row) : ℤ × ℤ := (row.get .width, row.get .height)

end Row

/-- The properties whose setters set the resolution. -/
def RowProperty.isSize : RowProperty → Bool
  | width | height => true
  | _ => false

/-- A property is set. -/
def setProperty (p : RowProperty) (value : p.Value) (row : Row) : Row :=
  let changed := row.set (.property p) value
  if p.isSize ∧ row.get p ≠ value then
    changed.set .resolution (sizeText (Row.size changed))
  else changed

/-! ## Reading an object

An object is read member by member, in the order of the source, by accessors
that throw on a member of another type. What was set before an exception stays
set. -/

namespace JsonElement

/-- `TryGetProperty`: of several members with the key the last one counts;
`none` is the exception on anything but an object. -/
def tryGetProperty (key : String) : Json String → Option (Option (Json String))
  | .object members => some (Json.member key members.reverse)
  | _ => none

/-- `GetString() ?? ""`. -/
def getString : Json String → Option String
  | .string s => some s
  | .null => some ""
  | _ => none

/-- `GetBoolean`. -/
def getBoolean : Json String → Option Bool
  | .boolean b => some b
  | _ => none

/-- `GetInt32`. -/
def getInt32 : Json String → Option ℤ
  | .integer n => if -2 ^ 31 ≤ n ∧ n < 2 ^ 31 then some n else none
  | _ => none

/-- `GetUInt32`. -/
def getUInt32 : Json String → Option ℕ
  | .integer n => if 0 ≤ n ∧ n < 2 ^ 32 then some n.toNat else none
  | _ => none

/-- `GetDouble`. -/
def getDouble : Json String → Option ℚ
  | .integer n =>
    some (if n < 0 then -binary64.nearest
      (-n : ℚ) else binary64.nearest (n : ℚ))
  | .float q => some q
  | _ => none

/-- `TryGetProperty(key) ? get : default`. -/
def getOr {α : Type} (get : Json String → Option α) (key : String) (default : α)
    (el : Json String) : Option α := do
  match ← tryGetProperty key el with
  | some j => get j
  | none => return default

/-- An item of `advertised_formats`. -/
def getFormat (item : Json String) : Option AdvertisedFormat := do
  return { kind := ← getOr getString "kind" "" item
           codec := ← getOr getString "codec" "" item
           pixFmt := ← getOr getString "pix_fmt" "" item
           width := ← getOr getInt32 "width" 0 item
           height := ← getOr getInt32 "height" 0 item
           minFps := ← getOr getDouble "min_fps" 0 item
           maxFps := ← getOr getDouble "max_fps" 0 item }

end JsonElement

open JsonElement

namespace RowProperty

/-- What is read for a property out of its member: `none` is an exception, and
nothing is read out of formats that are not an array. -/
def convert : (p : RowProperty) → Json String → Option (Option p.Value)
  | name, j | path, j | mode, j | viewerUser, j | viewerPassword, j =>
    (getString j).map some
  | width, j | height, j | fps, j | restarts, j | viewerCount, j =>
    (getInt32 j).map some
  | running, j | present, j | enabled, j => (getBoolean j).map some
  | pid, j => (getUInt32 j).map some
  | advertisedFormats, .array items => (items.mapM getFormat).map some
  | advertisedFormats, _ => some none

/-- What is read for a property: nothing where the object has no member. -/
def ofElement (el : Json String) (p : RowProperty) : Option (Option p.Value) :=
  do
  match ← tryGetProperty p.key el with
  | some j => p.convert j
  | none => return none

end RowProperty

/-- Properties are set from an object, one after the other; `false` where an
exception has ended it. -/
def setProperties (el : Json String) : List RowProperty → Row → Row × Bool
  | [], row => (row, true)
  | p :: rest, row =>
    match p.ofElement el with
    | none => (row, false)
    | some none => setProperties el rest row
    | some (some value) => setProperties el rest (setProperty p value row)

/-- `UpdateFromJson`. -/
def updateRow (el : Json String) (row : Row) : Row × Bool :=
  setProperties el RowProperty.inOrder row

/-- A row after a sequence of objects, whatever they are. -/
def rowAfter (els : List (Json String)) : Row :=
  els.foldl (fun row el => (updateRow el row).1) newRow

/-! ## Setting properties

A field raises enough if every view that reads it is raised, and this is
checked once for all fields. What is shown of a row is then up to date after
any setter. -/

/-- The resolutions to choose from depend on the mode and the formats. -/
theorem availableResolutions_congr {row row' : CameraInfo}
    (hmode : row.mode = row'.mode)
    (hformats : row.advertisedFormats = row'.advertisedFormats) :
    row.availableResolutions = row'.availableResolutions := by
  rw [CameraInfo.availableResolutions, CameraInfo.availableResolutions,
    hmode, hformats]

theorem displayUrl_congr {row row' : CameraInfo}
    (hpath : row.path = row'.path) :
    row.displayUrl = row'.displayUrl :=
  congrArg ("rtsp://<username>:<password>@127.0.0.1:8554" ++ ·) hpath

theorem clipboardUrl_congr {row row' : CameraInfo}
    (hpath : row.path = row'.path)
    (huser : row.viewerUser = row'.viewerUser)
    (hpass : row.viewerPassword = row'.viewerPassword) :
    row.clipboardUrl = row'.clipboardUrl := by
  rw [CameraInfo.clipboardUrl, CameraInfo.clipboardUrl, hpath, huser, hpass]

/-- **Every property raises the views that are computed from it.** A view that
is not raised would show an old value, with the model behind it up to date. -/
theorem covers_cameraRow : cameraRow.Covers := by
  refine Observed.covers_of_reads RowView.reads (fun v fields fields' h => ?_)
    (fun v f hf => ?_)
  · cases v with
    | field f => exact h f List.mem_cons_self
    | hasViewers =>
      show decide (0 < fields (.property .viewerCount)) = _
      rw [h (.property .viewerCount) (by decide)]
      rfl
    | availableResolutions =>
      show (rowInfo fields).availableResolutions
        = (rowInfo fields').availableResolutions
      exact availableResolutions_congr (h (.property .mode) (by decide))
        (h (.property .advertisedFormats) (by decide))
    | displayUrl =>
      show (rowInfo fields).displayUrl = (rowInfo fields').displayUrl
      exact displayUrl_congr (h (.property .path) (by decide))
    | clipboardUrl =>
      show (rowInfo fields).clipboardUrl = (rowInfo fields').clipboardUrl
      exact clipboardUrl_congr (h (.property .path) (by decide))
        (h (.property .viewerUser) (by decide))
          (h (.property .viewerPassword) (by decide))
  · cases v with
    | field g =>
      obtain rfl := List.mem_singleton.mp hf
      cases f <;> exact List.mem_cons_self
    | _ =>
      revert f
      decide

namespace Row

/-- **The column of resolutions goes with the size**, unless no size was ever
set. The column is not computed from the size: it is a text of its own, which
is set along with it. -/
def SizeShown (row : Row) : Prop :=
  row.resolution = sizeText row.size ∨ row.resolution = "" ∧ row.size = (0, 0)

end Row

theorem get_setProperty (p q : RowProperty) (value : p.Value) (row : Row) :
    Row.get (setProperty p value row) q
      = Function.update row.stored (.property p) value (.property q) := by
  unfold setProperty
  dsimp only
  split
  next =>
    show ((row.set (.property p) value).set .resolution _).stored (.property q)
      = _
    rw [Observed.State.stored_set, Function.update_of_ne RowField.noConfusion,
      Observed.State.stored_set]
  next => exact congrFun (Observed.State.stored_set _ _ _) _

@[simp] theorem get_setProperty_self (p : RowProperty) (value : p.Value)
    (row : Row) :
    Row.get (setProperty p value row) p = value :=
  (get_setProperty p p value row).trans (Function.update_self _ _ _)

theorem get_setProperty_of_ne {p q : RowProperty} (h : q ≠ p) (value : p.Value)
    (row : Row) :
    Row.get (setProperty p value row) q = row.get q :=
  (get_setProperty p q value row).trans
    (Function.update_of_ne (fun heq => h (RowField.property.inj heq)) _ _)

/-- Nothing happens where the property has the value. -/
theorem setProperty_of_get {p : RowProperty} {value : p.Value} {row : Row}
    (h : row.get p = value) : setProperty p value row = row := by
  rw [setProperty, if_neg (fun hc => hc.2 h)]
  exact Observed.State.set_of_stored h

theorem fresh_setProperty {row : Row} (h : row.Fresh) (p : RowProperty)
    (value : p.Value) :
    (setProperty p value row).Fresh := by
  unfold setProperty
  dsimp only
  split
  next =>
    exact covers_cameraRow.fresh_set (covers_cameraRow.fresh_set h _ _) _ _
  next => exact covers_cameraRow.fresh_set h _ _

/-- Setting the resolution changes no property. -/
theorem size_set_resolution (text : String) (row : Row) :
    Row.size (row.set .resolution text) = row.size := by
  show Prod.mk ((row.set .resolution text).stored (.property .width))
    ((row.set .resolution text).stored (.property .height)) = _
  rw [Observed.State.stored_set, Function.update_of_ne RowField.noConfusion,
    Function.update_of_ne RowField.noConfusion]
  rfl

theorem sizeShown_setProperty {row : Row} (h : row.SizeShown) (p : RowProperty)
    (value : p.Value) : Row.SizeShown (setProperty p value row) := by
  by_cases hvalue : row.get p = value
  · rwa [setProperty_of_get hvalue]
  by_cases hsize : p.isSize = true
  · -- the resolution is set from the new size
    left
    rw [setProperty, if_pos ⟨hsize, hvalue⟩, size_set_resolution]
    show Observed.State.stored _ RowField.resolution = _
    rw [Observed.State.stored_set, Function.update_self]
  · -- neither the size nor the resolution is touched
    have hresolution : Row.resolution (setProperty p value row)
        = row.resolution := by
      rw [setProperty, if_neg (fun hc => hsize hc.1)]
      show Observed.State.stored _ RowField.resolution = _
      rw [Observed.State.stored_set, Function.update_of_ne RowField.noConfusion]
      rfl
    have hkept : Row.size (setProperty p value row) = row.size := by
      rw [Row.size, get_setProperty_of_ne, get_setProperty_of_ne, Row.size]
      · rintro rfl
        exact hsize rfl
      · rintro rfl
        exact hsize rfl
    rwa [Row.SizeShown, hresolution, hkept]

/-! ## Reading objects

Whatever holds after each setter holds after each object, also after one that
ends with an exception. So the statements about rows are about all sequences
of objects, and not only about those that the supervisor sends. -/

/-- What setting a property keeps, an object keeps, also where it ends with an
exception. -/
theorem setProperties_induction {motive : Row → Prop} (el : Json String)
    (hset : ∀ p value row, motive row → motive (setProperty p value row))
    (ps : List RowProperty)
    {row : Row} (h : motive row) : motive (setProperties el ps row).1 := by
  induction ps generalizing row with
  | nil => exact h
  | cons p ps ih =>
    rw [setProperties]
    split
    next => exact h
    next => exact ih h
    next => exact ih (hset _ _ _ h)

/-- What setting a property keeps holds of every row. -/
theorem rowAfter_induction {motive : Row → Prop} (hnew : motive newRow)
    (hset : ∀ p value row, motive row → motive (setProperty p value row))
    (els : List (Json String)) : motive (rowAfter els) :=
  List.foldlRecOn els _ hnew
    (fun _ hrow el _ =>
      setProperties_induction el hset RowProperty.inOrder hrow)

theorem fresh_rowAfter (els : List (Json String)) : (rowAfter els).Fresh :=
  rowAfter_induction (Observed.fresh_fresh initialFields)
    (fun p value _ h => fresh_setProperty h p value) els

theorem sizeShown_rowAfter (els : List (Json String)) :
    (rowAfter els).SizeShown :=
  @rowAfter_induction Row.SizeShown (.inr ⟨rfl, rfl⟩)
    (fun p value _ h => sizeShown_setProperty h p value) els

/-- **A row never shows anything old**: after any sequence of objects,
well-formed or not, every binding of the row shows what would be read now, and
the column of resolutions goes with the width and the height. -/
theorem rows_show_what_they_hold (els : List (Json String)) :
    (∀ v, (rowAfter els).seen v = v.read (rowAfter els).stored) ∧
      (rowAfter els).SizeShown :=
  ⟨fresh_rowAfter els, sizeShown_rowAfter els⟩

/-- A property that is not among those that are set stays. -/
theorem get_setProperties_of_notMem {q : RowProperty} (el : Json String)
    {ps : List RowProperty}
    (hq : q ∉ ps) (row : Row) :
    Row.get (setProperties el ps row).1 q = row.get q := by
  induction ps generalizing row with
  | nil => rfl
  | cons p ps ih =>
    obtain ⟨hne, hq⟩ := List.ne_and_not_mem_of_not_mem_cons hq
    rw [setProperties]
    split
    next => rfl
    next => exact ih hq row
    next => rw [ih hq, get_setProperty_of_ne hne]

/-- A row that has what an object leaves behind is left alone by it: the
properties are read to the same end, and none of them changes. -/
theorem setProperties_of_get {el : Json String} {ps : List RowProperty}
    (hps : ps.Nodup)
    {row row' : Row}
    (h : ∀ p ∈ ps, row'.get p = Row.get (setProperties el ps row).1 p) :
    setProperties el ps row' = (row', (setProperties el ps row).2) := by
  induction ps generalizing row with
  | nil => rfl
  | cons p ps ih =>
    obtain ⟨hp, hps⟩ := List.nodup_cons.mp hps
    rw [setProperties] at h ⊢
    rw [setProperties]
    cases hread : p.ofElement el with
    | none => rfl
    | some value =>
      rw [hread] at h
      cases value with
      | none => exact ih hps (fun q hq => h q (List.mem_cons_of_mem p hq))
      | some value =>
        have hvalue : row'.get p = value := by
          rw [h p List.mem_cons_self]
          dsimp only
          rw [get_setProperties_of_notMem el hp, get_setProperty_self]
        dsimp only
        rw [setProperty_of_get hvalue]
        exact ih hps (fun q hq => h q (List.mem_cons_of_mem p hq))

/-- **Nothing is raised twice**: whatever an object is, and wherever it ends
with an exception, the same object again changes no property of the row and
raises nothing. The setters compare before they store, and the object with the
exception stops at the same member again. -/
theorem repeated_object_raises_nothing (el : Json String) (row : Row) :
    updateRow el (updateRow el row).1 = updateRow el row :=
  setProperties_of_get (by decide) (fun _ _ => rfl)

/-! ## The objects of the supervisor

An object that the supervisor has made has every member, each of its type, if
the numbers are in the range that the supervisor gives them. Reading it sets
every property, so that nothing of the row before is left. -/

/-- A format in `CamToJson`. -/
def AdvertisedFormat.toJson (f : AdvertisedFormat) : Json String :=
  .object [("kind", .string f.kind), ("codec", .string f.codec),
    ("pix_fmt", .string f.pixFmt),
    ("width", .integer f.width), ("height", .integer f.height),
    ("min_fps", .float f.minFps),
    ("max_fps", .float f.maxFps)]

/-- The object that `CamToJson` builds. -/
def CamJson.toJson (cam : CamJson) : Json String :=
  .object [("name", .string cam.name), ("path", .string cam.path),
    ("mode", .string cam.mode),
    ("width", .integer cam.width), ("height", .integer cam.height),
    ("fps", .integer cam.fps),
    ("running", .boolean cam.running), ("present", .boolean cam.present),
    ("enabled", .boolean cam.enabled), ("pid", .integer cam.pid),
    ("restarts", .integer cam.restarts),
    ("viewer_count", .integer cam.viewerCount),
    ("advertised_formats",
      .array (cam.advertisedFormats.map AdvertisedFormat.toJson)),
    ("alt_name", .string cam.altName), ("vid_pid", .string cam.vidPid),
    ("viewer_user", .string cam.viewerUser),
      ("viewer_pass", .string cam.viewerPass)]

/-- The numbers are an `int` of the supervisor. -/
def FitsInt (n : ℤ) : Prop := -2 ^ 31 ≤ n ∧ n < 2 ^ 31

instance (n : ℤ) : Decidable (FitsInt n) := inferInstanceAs (Decidable (_ ∧ _))

/-- The numbers of a camera have the types that the supervisor gives them. -/
structure CamJson.Fits (cam : CamJson) : Prop where
  width : FitsInt cam.width
  height : FitsInt cam.height
  fps : FitsInt cam.fps
  pid : cam.pid < 2 ^ 32
  restarts : cam.restarts < 2 ^ 31
  viewerCount : cam.viewerCount < 2 ^ 31
  formats : ∀ f ∈ cam.advertisedFormats, FitsInt f.width ∧ FitsInt f.height

/-- What a camera has for a property. -/
def RowProperty.ofCam (cam : CamJson) : (p : RowProperty) → p.Value
  | name => cam.name
  | path => cam.path
  | mode => cam.mode
  | width => cam.width
  | height => cam.height
  | fps => cam.fps
  | running => cam.running
  | present => cam.present
  | enabled => cam.enabled
  | pid => cam.pid
  | restarts => (cam.restarts : ℤ)
  | viewerCount => (cam.viewerCount : ℤ)
  | viewerUser => cam.viewerUser
  | viewerPassword => cam.viewerPass
  | advertisedFormats => cam.advertisedFormats

theorem getInt32_integer {n : ℤ} (h : FitsInt n) :
    getInt32 (.integer n) = some n := if_pos h

theorem fitsInt_natCast {n : ℕ} (h : n < 2 ^ 31) : FitsInt n := by
  rw [FitsInt]
  omega

theorem getUInt32_natCast {n : ℕ} (h : n < 2 ^ 32) :
    getUInt32 (.integer n) = some n := by
  rw [getUInt32, if_pos (by omega), Int.toNat_natCast]

theorem getFormat_toJson {f : AdvertisedFormat} (hwidth : FitsInt f.width)
    (hheight : FitsInt f.height) : getFormat f.toJson = some f := by
  simp [getFormat, getOr, tryGetProperty, AdvertisedFormat.toJson,
    Json.member, getString,
    getDouble, getInt32_integer hwidth, getInt32_integer hheight]

theorem mapM_getFormat {fs : List AdvertisedFormat}
    (h : ∀ f ∈ fs, FitsInt f.width ∧ FitsInt f.height) :
    (fs.map AdvertisedFormat.toJson).mapM getFormat = some fs := by
  induction fs with
  | nil => rfl
  | cons f fs ih =>
    obtain ⟨⟨hwidth, hheight⟩, hfs⟩ := List.forall_mem_cons.mp h
    rw [List.map_cons, List.mapM_cons, getFormat_toJson hwidth hheight, ih hfs]
    rfl

/-- A member of an object without a key twice is found. -/
theorem tryGetProperty_object {members : List (String × Json String)}
    {key : String}
    {v : Json String} (hnodup : (members.map Prod.fst).Nodup)
    (hmem : (key, v) ∈ members) :
    tryGetProperty key (.object members) = some (some v) := by
  rw [tryGetProperty, (member_eq_some_iff ?_).mpr (List.mem_reverse.mpr hmem)]
  rw [List.map_reverse, List.nodup_reverse]
  exact hnodup

/-- What stands in the object of a camera for a property. -/
def RowProperty.ofCamJson (cam : CamJson) : RowProperty → Json String
  | name => .string cam.name
  | path => .string cam.path
  | mode => .string cam.mode
  | width => .integer cam.width
  | height => .integer cam.height
  | fps => .integer cam.fps
  | running => .boolean cam.running
  | present => .boolean cam.present
  | enabled => .boolean cam.enabled
  | pid => .integer cam.pid
  | restarts => .integer cam.restarts
  | viewerCount => .integer cam.viewerCount
  | viewerUser => .string cam.viewerUser
  | viewerPassword => .string cam.viewerPass
  | advertisedFormats =>
    .array (cam.advertisedFormats.map AdvertisedFormat.toJson)

theorem tryGetProperty_toJson (cam : CamJson) (p : RowProperty) :
    tryGetProperty p.key cam.toJson = some (some (p.ofCamJson cam)) := by
  refine tryGetProperty_object ?_ ?_
  · show List.Nodup _
    simp only [List.map_cons, List.map_nil]
    decide
  · cases p <;> simp [RowProperty.key, RowProperty.ofCamJson]

/-- Every property is read from the object of a camera. -/
theorem ofElement_toJson {cam : CamJson} (h : cam.Fits) (p : RowProperty) :
    p.ofElement cam.toJson = some (some (p.ofCam cam)) := by
  have hread : p.ofElement cam.toJson = p.convert (p.ofCamJson cam) := by
    rw [RowProperty.ofElement, tryGetProperty_toJson]
    rfl
  have hint : ∀ n : ℤ, FitsInt n →
      (getInt32 (.integer n)).map some = some (some n) :=
    fun n hn => congrArg (Option.map some) (getInt32_integer hn)
  rw [hread]
  cases p with
  | width => exact hint _ h.width
  | height => exact hint _ h.height
  | fps => exact hint _ h.fps
  | restarts => exact hint cam.restarts (fitsInt_natCast h.restarts)
  | viewerCount => exact hint cam.viewerCount (fitsInt_natCast h.viewerCount)
  | pid =>
    show (getUInt32 (.integer cam.pid)).map some = some (some cam.pid)
    rw [getUInt32_natCast h.pid]
    rfl
  | advertisedFormats =>
    exact congrArg (Option.map some) (mapM_getFormat h.formats)
  | _ => rfl

/-- Where every property is read, every property is set. -/
theorem get_setProperties {el : Json String} {val : (p : RowProperty) → p.Value}
    {ps : List RowProperty} (hps : ps.Nodup)
    (h : ∀ p ∈ ps, p.ofElement el = some (some (val p)))
    (row : Row) : (setProperties el ps row).2 = true ∧
      ∀ p ∈ ps, Row.get (setProperties el ps row).1 p = val p := by
  induction ps generalizing row with
  | nil => exact ⟨rfl, fun p hp => absurd hp List.not_mem_nil⟩
  | cons p ps ih =>
    obtain ⟨hp, hps⟩ := List.nodup_cons.mp hps
    obtain ⟨hread, h⟩ := List.forall_mem_cons.mp h
    rw [setProperties, hread]
    obtain ⟨hdone, hget⟩ := ih hps h (setProperty p (val p) row)
    refine ⟨hdone, List.forall_mem_cons.mpr ⟨?_, hget⟩⟩
    dsimp only
    rw [get_setProperties_of_notMem el hp, get_setProperty_self]

theorem mem_inOrder (p : RowProperty) : p ∈ RowProperty.inOrder := by
  cases p <;> decide

/-- The object of a camera is read to its end, and leaves nothing of the old
row. -/
theorem get_updateRow_toJson {cam : CamJson} (h : cam.Fits) (row : Row) :
    (updateRow cam.toJson row).2 = true ∧
      ∀ p, Row.get (updateRow cam.toJson row).1 p = p.ofCam cam := by
  have hnodup : RowProperty.inOrder.Nodup := by decide
  obtain ⟨hdone, hget⟩ :=
    get_setProperties hnodup (fun p _ => ofElement_toJson h p) row
  exact ⟨hdone, fun p => hget p (mem_inOrder p)⟩

theorem rowInfo_updateRow_toJson {cam : CamJson} (h : cam.Fits) (row : Row) :
    rowInfo (updateRow cam.toJson row).1.stored = CameraInfo.ofJson cam := by
  have hstored : ∀ p,
      (updateRow cam.toJson row).1.stored (.property p) = p.ofCam cam :=
    (get_updateRow_toJson h row).2
  simp only [rowInfo, hstored]
  rfl

/-- **The window shows the camera**: whatever the row has been through, the
object of a camera is read to its end, and then the bindings show the camera and
nothing else – its properties are those of the camera table, and so are the
URLs, the resolutions to choose from, and whether somebody is watching. -/
theorem row_shows_camera {cam : CamJson} (h : cam.Fits)
    (els : List (Json String)) :
    (updateRow cam.toJson (rowAfter els)).2 = true ∧
      let shown := (updateRow cam.toJson (rowAfter els)).1.seen
      rowInfo (fun f => shown (.field f)) = CameraInfo.ofJson cam ∧
        shown .displayUrl = (CameraInfo.ofJson cam).displayUrl ∧
        shown .clipboardUrl = (CameraInfo.ofJson cam).clipboardUrl ∧
        shown .availableResolutions
          = (CameraInfo.ofJson cam).availableResolutions ∧
        shown .hasViewers = decide (0 < cam.viewerCount) := by
  obtain ⟨hdone, hget⟩ := get_updateRow_toJson h (rowAfter els)
  have hinfo := rowInfo_updateRow_toJson h (rowAfter els)
  have hfresh : Observed.State.Fresh (updateRow cam.toJson (rowAfter els)).1 :=
    @setProperties_induction Observed.State.Fresh cam.toJson
      (fun p value _ h => fresh_setProperty h p value) _ _ (fresh_rowAfter els)
  refine ⟨hdone, ?_, ?_, ?_, ?_, ?_⟩
  · rw [← hinfo]
    exact congrArg rowInfo (funext (fun f => hfresh (.field f)))
  · rw [hfresh .displayUrl, ← hinfo]
    rfl
  · rw [hfresh .clipboardUrl, ← hinfo]
    rfl
  · rw [hfresh .availableResolutions, ← hinfo]
    rfl
  · rw [hfresh .hasViewers]
    show decide (0 < Row.get _ .viewerCount) = _
    rw [hget .viewerCount]
    exact decide_eq_decide.mpr Int.natCast_pos

/-- A camera that streams to one viewer. -/
def watchedCamera : CamJson where
  name := "Camera"
  path := "/webcam0"
  mode := "passthrough_mjpeg"
  width := 640
  height := 480
  fps := 30
  running := true
  present := true
  enabled := true
  pid := 4242
  restarts := 1
  viewerCount := 1
  advertisedFormats :=
    [{ kind := "compressed", codec := "mjpeg"
       width := 640, height := 480, maxFps := 30 }]
  altName := ""
  vidPid := ""
  viewerUser := "viewer"
  viewerPass := "secret"

theorem fits_watchedCamera : watchedCamera.Fits :=
  ⟨by decide, by decide, by decide, by decide, by decide, by decide, by decide⟩

/-- An object that ends with an exception at the width, after the name has been
set. -/
def brokenObject : Json String :=
  .object [("name", .string "Camera"), ("width", .string "wide")]

theorem row_shows_camera_watched :
    (updateRow watchedCamera.toJson (rowAfter [brokenObject])).2 = true ∧
      let shown :=
  (updateRow watchedCamera.toJson (rowAfter [brokenObject])).1.seen
      rowInfo (fun f => shown (.field f)) = CameraInfo.ofJson watchedCamera ∧
        shown .displayUrl = (CameraInfo.ofJson watchedCamera).displayUrl ∧
        shown .clipboardUrl = (CameraInfo.ofJson watchedCamera).clipboardUrl ∧
        shown .availableResolutions
          = (CameraInfo.ofJson watchedCamera).availableResolutions ∧
        shown .hasViewers = decide (0 < watchedCamera.viewerCount) :=
  row_shows_camera fits_watchedCamera [brokenObject]

end WebcamStreamer
