import WebcamStreamer.CredentialFields
import WebcamStreamer.RowNotifications

/-!
# The table and the menu in the tray

The table of the window and the menu of the tray icon show the same cameras.
The rows of the table are objects that are set from what the supervisor sends:
an event about one camera, a snapshot of all of them, or the answer to a poll.
The menu is a copy. It is built anew when a row is added or removed, when an
event has been handled, and when a row raises something – but only the rows
that were there when the icon was made are listened to, and a poll builds
nothing by itself.

Whoever listens to the table may throw, and then what is being handled ends
where it is. The tray does: it adds the viewers of all cameras up in an `int`,
behind the menu that it has built by then.

The first part is the handling of a message as it arrives, with the exceptions
that may end it, whoever listens. The second part is the tray. The third part
says that for the messages of the supervisor the table is what the camera table
of the model makes of them, as long as no listener throws.
-/

namespace WebcamStreamer

open JsonElement

/-! ## The messages

The window updates its rows property by property, and whoever listens to a row
is told of each change at once, in the middle of the update. So the table has
to be followed setter by setter, with the exceptions that a setter or a
listener may throw. -/

/-- Who listens to the table: what the rows make of its state, and whether it
came back without an exception. -/
abbrev TableListener (σ : Type) := List Row → σ → σ × Bool

/-- A listener that throws nothing. -/
def TableListener.Quiet {σ : Type} (listen : TableListener σ) : Prop :=
  ∀ rows s, (listen rows s).2 = true

/-- A row of the table, and whether it is listened to. -/
structure TableRow where
  row : Row
  watched : Bool

/-- The table, and the state of the listener. -/
structure Table (σ : Type) where
  rows : List TableRow
  listener : σ

namespace Table

variable {σ : Type} (listen : TableListener σ)

/-- The listener is told of a change. -/
def tell (t : Table σ) : Table σ × Bool :=
  let result := listen (t.rows.map TableRow.row) t.listener
  ({ t with listener := result.1 }, result.2)

/-- What comes next, unless there was an exception. -/
def andThen (result : Table σ × Bool) (next : Table σ → Table σ × Bool) :
    Table σ × Bool :=
  if result.2 then next result.1 else result

theorem andThen_eq_true {result : Table σ × Bool}
    {next : Table σ → Table σ × Bool} :
    (andThen result next).2 = true ↔
      result.2 = true ∧ (next result.1).2 = true := by
  rw [andThen]
  by_cases h : result.2 = true <;> simp [h]

theorem andThen_of_true {result : Table σ × Bool}
    {next : Table σ → Table σ × Bool}
    (h : result.2 = true) : andThen result next = next result.1 := if_pos h

/-- The names of the rows. -/
def names (t : Table σ) : List String := t.rows.map (fun r => r.row.get .name)

/-- A field of a row is set. The listener is told if it listens to the row and
the field has changed; the views that the field raises are raised with the same
values, so that telling it once is telling it of each. -/
def setFieldAt (i : ℕ) (f : RowField) (value : f.Value) (t : Table σ) :
    Table σ × Bool :=
  match t.rows[i]? with
  | none => (t, true)
  | some r =>
    if r.row.stored f = value then (t, true)
    else
      let t' :=
        { t with rows := t.rows.set i { r with row := r.row.set f value } }
      if r.watched then tell listen t' else (t', true)

/-- The setter of a property, which may set the resolution behind it. -/
def setPropertyAt (i : ℕ) (p : RowProperty) (value : p.Value) (t : Table σ) :
    Table σ × Bool :=
  match t.rows[i]? with
  | none => (t, true)
  | some r =>
    let changed := r.row.set (.property p) value
    andThen (t.setFieldAt listen i (.property p) value) fun t =>
      if p.isSize ∧ r.row.get p ≠ value then
        t.setFieldAt listen i .resolution (sizeText (Row.size changed))
      else (t, true)

/-- The properties of a row are set from an object, one after the other. -/
def setPropertiesAt (i : ℕ) (el : Json String) :
    List RowProperty → Table σ → Table σ × Bool
  | [], t => (t, true)
  | p :: rest, t =>
    match p.ofElement el with
    | none => (t, false)
    | some none => setPropertiesAt i el rest t
    | some (some value) =>
      andThen (t.setPropertyAt listen i p value) (setPropertiesAt i el rest)

/-- `row.UpdateFromJson(el)`. -/
def updateAt (i : ℕ) (el : Json String) (t : Table σ) : Table σ × Bool :=
  t.setPropertiesAt listen i el RowProperty.inOrder

/-- The name in an object; `none` is an exception. -/
def nameOf (el : Json String) : Option String := getOr getString "name" "" el

/-- One object of a snapshot: its row is updated, or it gets a row. `existing`
are the names that had one when the snapshot arrived. -/
def applyElement (existing : List String) (el : Json String) (t : Table σ) :
    Table σ × Bool :=
  match nameOf el with
  | none => (t, false)
  | some name =>
    if name = "" then (t, true)
    else
      match existing.idxOf? name with
      | some i => t.updateAt listen i el
      | none =>
        let result := updateRow el newRow
        if result.2 then
          tell listen { t with rows := t.rows ++ [⟨result.1, false⟩] }
        else (t, false)

/-- The objects of a snapshot, up to an exception. -/
def applyElements (existing : List String) :
    List (Json String) → Table σ → Table σ × Bool
  | [], t => (t, true)
  | el :: rest, t =>
    andThen (applyElement listen existing el t) (applyElements existing rest)

/-- The rows below a position that a snapshot says nothing about are removed,
from the last one on; the listener is told of every one of them. -/
def removeUnseen (seen : List String) : ℕ → Table σ → Table σ × Bool
  | 0, t => (t, true)
  | i + 1, t =>
    match t.rows[i]? with
    | none => removeUnseen seen i t
    | some r =>
      if r.row.get .name ∈ seen then removeUnseen seen i t
      else
        andThen (tell listen { t with
          rows := t.rows.eraseIdx i }) (removeUnseen seen i)

/-- `ApplyCameraList`; `false` is an exception. -/
def applyCameraList (cameras : Json String) (t : Table σ) : Table σ × Bool :=
  match cameras with
  | .array els =>
    if t.names.Nodup then
      let seen := (els.filterMap nameOf).filter (fun name => decide (name ≠ ""))
      andThen (applyElements listen t.names els t) fun t =>
        removeUnseen listen seen t.rows.length t
    else (t, false)
  | _ => (t, true)

/-- `ApplyCameraStateEvent`. -/
def applyCameraStateEvent (data : Json String) (t : Table σ) : Table σ × Bool :=
  match nameOf data with
  | none => (t, false)
  | some name =>
    if name = "" then (t, true)
    else
      match t.names.idxOf? name with
      | some i => t.updateAt listen i data
      | none => (t, true)

/-- What arrives from the supervisor: the two events about cameras, and the
cameras in the answer to `get-status`. -/
inductive Message where
  | cameraStateChanged (data : Json String)
  | camerasChanged (data : Json String)
  | status (cameras : Json String)

/-- What has the menu built when it has been handled. -/
def Message.isEvent : Message → Bool
  | .status _ => false
  | _ => true

/-- A message is handled; an event has the menu built when it has been handled
to its end. -/
def handle (t : Table σ) : Message → Table σ × Bool
  | .cameraStateChanged data =>
    andThen (t.applyCameraStateEvent listen data) (tell listen)
  | .camerasChanged data =>
    andThen (t.applyCameraList listen data) (tell listen)
  | .status cameras => t.applyCameraList listen cameras

end Table

/-! ## The tray

The tray rebuilds its menu and its tooltip from the rows whenever it is told.
The tooltip has sums over `int` in it, which throw when they overflow, and
that exception goes back through the setter that has told the tray. -/

/-- The values of a row. -/
abbrev RowValues := (f : RowField) → f.Value

/-- An item of the menu of cameras. -/
inductive MenuItem where
  | camera (text : String) (checked : Bool) (cameraName : String)
  | noCameras

/-- The item of a camera. -/
def menuItem (row : RowValues) : MenuItem :=
  let name := row (.property .name)
  let path := row (.property .path)
  .camera (if path.toList.all MainViewModel.isWhiteSpace then name else name
    ++ "   " ++ path)
    (row (.property .enabled)) name

/-- The menu: cameras that are unplugged are hidden. -/
def cameraMenu (rows : List RowValues) : List MenuItem :=
  if rows.any (fun row => row (.property .present)) then
    (rows.filter (fun row => row (.property .present))).map menuItem
  else [.noCameras]

/-- `Sum` over `int`, which is checked; `none` is the exception. -/
def checkedSum (ns : List ℤ) : Option ℤ :=
  ns.foldlM (fun total n =>
    if IsInt32 (total + n) then some (total + n) else none) 0

/-- `UpdateTooltip`; `none` is an exception, and the tooltip stays as it was. -/
def trayTooltip (rows : List RowValues) : Option String :=
  let total := rows.countP (fun row => row (.property .present))
  let enabled :=
    rows.countP (fun row => row (.property .present)
      && row (.property .enabled))
  (checkedSum (rows.map (fun row => row (.property .viewerCount)))).map
    fun viewers =>
    String.ofList
      (("WebcamStreamer\n" ++ toString enabled ++ " of " ++ toString total
      ++ " cameras enabled\n" ++ toString viewers
      ++ " viewers").toList.take 127)

/-- The rows as they were when the menu was last built, and the tooltip. -/
structure TrayIcon where
  built : List Row
  tooltip : String

/-- `RefreshCameras`. -/
def refreshCameras : TableListener TrayIcon := fun rows icon =>
  match trayTooltip (rows.map Observed.State.stored) with
  | some text => (⟨rows, text⟩, true)
  | none => (⟨rows, icon.tooltip⟩, false)

/-- The table that the tray listens to. -/
abbrev TrayTable := Table TrayIcon

namespace TrayTable

open Table

/-- `new TrayIcon`: the menu is built, and from then on every row is listened
to. -/
def made (rows : List Row) : Option TrayTable :=
  let result := refreshCameras rows ⟨[], "WebcamStreamer"⟩
  if result.2 then some ⟨rows.map (fun row => ⟨row, true⟩), result.1⟩ else none

/-- The values in the table. -/
def values (t : TrayTable) : List RowValues :=
  t.rows.map (fun r => r.row.stored)

/-- The menu as it is. -/
def menu (t : TrayTable) : List MenuItem :=
  cameraMenu (t.listener.built.map Observed.State.stored)

/-- The tooltip as it is. -/
def tooltip (t : TrayTable) : String := t.listener.tooltip

/-- A message arrives. An exception in an answer is caught, one in an event ends
the host. -/
def arrive (t : TrayTable) (m : Message) : Option TrayTable :=
  let result := Table.handle refreshCameras t m
  match m with
  | .status _ => some result.1
  | _ => if result.2 then some result.1 else none

/-- Messages arrive one after the other, as long as the host is there. -/
def arriveAll (messages : List Message) (t : TrayTable) : Option TrayTable :=
  messages.foldlM arrive t

/-! ## What the menu shows

The menu was built from the rows as they were when the tray was last told. It
is up to date if nothing has changed since in a row that somebody listens to,
and this is the invariant. -/

/-- **The menu was built from the rows there are**, and from the values of those
that are listened to; and the tooltip is that of the menu, if the viewers
could be counted. -/
structure Current (t : TrayTable) : Prop where
  menu :
    List.Forall₂ (fun b r => r.watched = true →
      b = r.row) t.listener.built t.rows
  tooltip :
    ∀ text,
      trayTooltip (t.listener.built.map Observed.State.stored) = some text →
    t.tooltip = text

/-- What the tray makes of the rows it is told of. -/
theorem refreshCameras_spec (rows : List Row) (icon : TrayIcon) :
    (refreshCameras rows icon).1.built = rows ∧
      ((refreshCameras rows icon).2 = true →
        trayTooltip (rows.map Observed.State.stored)
          = some (refreshCameras rows icon).1.tooltip) ∧
      ∀ text, trayTooltip (rows.map Observed.State.stored) = some text →
        (refreshCameras rows icon).2 = true := by
  rw [refreshCameras]
  split
  next text htext => exact ⟨rfl, fun _ => htext, fun _ _ => rfl⟩
  next hnone =>
    refine ⟨rfl, fun h => Bool.noConfusion h, fun text htext => ?_⟩
    rw [hnone] at htext
    cases htext

theorem current_tell (t : TrayTable) : Current (tell refreshCameras t).1 := by
  obtain ⟨hbuilt, hdone, hcount⟩ :=
    refreshCameras_spec (t.rows.map TableRow.row) t.listener
  constructor
  · show List.Forall₂ _ (refreshCameras _ _).1.built t.rows
    rw [hbuilt, List.forall₂_map_left_iff]
    exact List.forall₂_same.mpr (fun r _ _ => rfl)
  · intro text htext
    change trayTooltip ((refreshCameras _ _).1.built.map _) = _ at htext
    rw [hbuilt] at htext
    exact Option.some.inj ((hdone (hcount text htext)).symm.trans htext)

/-- After an exception nothing more happens. -/
theorem current_andThen {result : TrayTable × Bool}
    {next : TrayTable → TrayTable × Bool}
    (h : Current result.1) (hnext : ∀ t, Current t → Current (next t).1) :
    Current (andThen result next).1 := by
  rw [andThen]
  split
  next => exact hnext _ h
  next => exact h

/-- A row that nobody listens to may change. -/
theorem forall₂_set {α β : Type} {R : α → β → Prop} {l : List α} {l' : List β}
    (h : List.Forall₂ R l l') {i : ℕ} {b b' : β} (hb : l'[i]? = some b)
    (hR : ∀ a, R a b → R a b') : List.Forall₂ R l (l'.set i b') := by
  induction h generalizing i with
  | nil => exact .nil
  | cons hab hrest ih =>
    cases i with
    | zero =>
      obtain rfl := Option.some.inj hb
      exact .cons (hR _ hab) hrest
    | succ i => exact .cons hab (ih hb)

/-- Where every row is listened to, the menu was built from the rows as they
are. -/
theorem Current.built_eq {t : TrayTable} (h : Current t)
    (hall : ∀ r ∈ t.rows, r.watched = true) :
    t.listener.built = t.rows.map TableRow.row := by
  obtain ⟨hlen, hzip⟩ := List.forall₂_iff_zip.mp h.menu
  rw [← List.forall₂_eq_eq_eq, List.forall₂_map_right_iff, List.forall₂_iff_zip]
  exact ⟨hlen, fun hmem => hzip hmem (hall _ (List.of_mem_zip hmem).2)⟩

theorem current_setFieldAt {t : TrayTable} (h : Current t) (i : ℕ)
    (f : RowField)
    (value : f.Value) : Current (t.setFieldAt refreshCameras i f value).1 := by
  rw [setFieldAt]
  split
  next => exact h
  next r hr =>
    split
    next => exact h
    next =>
      dsimp only
      split
      next => exact current_tell _
      next hwatched =>
        exact ⟨forall₂_set h.menu hr (fun b _ hw => absurd hw hwatched),
          h.tooltip⟩

theorem current_setPropertyAt {t : TrayTable} (h : Current t) (i : ℕ)
    (p : RowProperty)
    (value : p.Value) :
    Current (t.setPropertyAt refreshCameras i p value).1 := by
  rw [setPropertyAt]
  split
  next => exact h
  next =>
    refine current_andThen (current_setFieldAt h i (.property p) value)
      (fun t ht => ?_)
    split
    next => exact current_setFieldAt ht i _ _
    next => exact ht

theorem current_setPropertiesAt {t : TrayTable} (h : Current t) (i : ℕ)
    (el : Json String)
    (ps : List RowProperty) :
    Current (t.setPropertiesAt refreshCameras i el ps).1 := by
  induction ps generalizing t with
  | nil => exact h
  | cons p ps ih =>
    rw [setPropertiesAt]
    split
    next => exact h
    next => exact ih h
    next =>
      exact current_andThen (current_setPropertyAt h i p _) (fun _ ht => ih ht)

theorem current_updateAt {t : TrayTable} (h : Current t) (i : ℕ)
    (el : Json String) :
    Current (t.updateAt refreshCameras i el).1 :=
  current_setPropertiesAt h i el _

theorem current_applyElement {t : TrayTable} (h : Current t)
    (existing : List String)
    (el : Json String) :
    Current (applyElement refreshCameras existing el t).1 := by
  unfold applyElement
  split
  next => exact h
  next =>
    split
    next => exact h
    next =>
      split
      next => exact current_updateAt h _ el
      next =>
        dsimp only
        split
        next => exact current_tell _
        next => exact h

theorem current_applyElements {t : TrayTable} (h : Current t)
    (existing : List String)
    (els : List (Json String)) :
    Current (applyElements refreshCameras existing els t).1 := by
  induction els generalizing t with
  | nil => exact h
  | cons el els ih =>
    exact current_andThen (current_applyElement h existing el)
      (fun _ ht => ih ht)

theorem current_removeUnseen (seen : List String) (i : ℕ) {t : TrayTable}
    (h : Current t) :
    Current (removeUnseen refreshCameras seen i t).1 := by
  induction i generalizing t with
  | zero => exact h
  | succ i ih =>
    rw [removeUnseen]
    split
    next => exact ih h
    next =>
      split
      next => exact ih h
      next => exact current_andThen (current_tell _) (fun _ ht => ih ht)

theorem current_applyCameraList {t : TrayTable} (h : Current t)
    (cameras : Json String) :
    Current (t.applyCameraList refreshCameras cameras).1 := by
  unfold Table.applyCameraList
  split
  next els =>
    split
    next =>
      exact current_andThen (current_applyElements h t.names els)
        (fun _ ht => current_removeUnseen _ _ ht)
    next => exact h
  next => exact h

theorem current_applyCameraStateEvent {t : TrayTable} (h : Current t)
    (data : Json String) :
    Current (t.applyCameraStateEvent refreshCameras data).1 := by
  rw [Table.applyCameraStateEvent]
  split
  next => exact h
  next =>
    split
    next => exact h
    next =>
      split
      next => exact current_updateAt h _ data
      next => exact h

theorem current_handle {t : TrayTable} (h : Current t) (m : Message) :
    Current (t.handle refreshCameras m).1 := by
  cases m with
  | cameraStateChanged data =>
    exact current_andThen (current_applyCameraStateEvent h data)
      (fun t _ => current_tell t)
  | camerasChanged data =>
    exact current_andThen (current_applyCameraList h data)
      (fun t _ => current_tell t)
  | status cameras => exact current_applyCameraList h cameras

theorem current_arrive {t t' : TrayTable} (h : Current t) {m : Message}
    (ht : t.arrive m = some t') : Current t' := by
  have hhandled := current_handle h m
  unfold arrive at ht
  dsimp only at ht
  split at ht
  next => exact Option.some.inj ht ▸ hhandled
  next =>
    split at ht
    next => exact Option.some.inj ht ▸ hhandled
    next => cases ht

theorem current_made {rows : List Row} {t : TrayTable}
    (h : made rows = some t) :
    Current t := by
  have htold :=
    current_tell ⟨rows.map (fun row => ⟨row, true⟩), ⟨[], "WebcamStreamer"⟩⟩
  rw [Table.tell, List.map_map,
    show TableRow.row ∘ (fun row => ⟨row, true⟩) = id from rfl,
    List.map_id] at htold
  unfold made at h
  dsimp only at h
  split at h
  next => exact Option.some.inj h ▸ htold
  next => cases h

theorem current_arriveAll {t t' : TrayTable} (h : Current t)
    {messages : List Message}
    (ht : arriveAll messages t = some t') : Current t' := by
  induction messages generalizing t with
  | nil => exact Option.some.inj ht ▸ h
  | cons m messages ih =>
    rw [arriveAll, List.foldlM_cons] at ht
    obtain ⟨t₁, hm, hrest⟩ := Option.bind_eq_some_iff.mp ht
    exact ih (current_arrive h hm) hrest

/-- A listener that has just been told has been told of the rows there are. -/
theorem tray_of_tell {t : TrayTable} (h : (tell refreshCameras t).2 = true) :
    menu (tell refreshCameras t).1 = cameraMenu
        (values (tell refreshCameras t).1) ∧
      trayTooltip (values (tell refreshCameras t).1)
        = some (tooltip (tell refreshCameras t).1) := by
  obtain ⟨hbuilt, hdone, -⟩ :=
    refreshCameras_spec (t.rows.map TableRow.row) t.listener
  have hvalues : (t.rows.map TableRow.row).map Observed.State.stored
      = values t := by
    rw [List.map_map]
    rfl
  constructor
  · show cameraMenu ((refreshCameras _ _).1.built.map _) = cameraMenu (values t)
    rw [hbuilt, hvalues]
  · exact hvalues ▸ hdone h

theorem tray_of_event {result : TrayTable × Bool} {t' : TrayTable}
    (h : (if (andThen result (tell refreshCameras)).2 = true then
      some (andThen result (tell refreshCameras)).1 else none) = some t') :
    menu t' = cameraMenu (values t') ∧
      trayTooltip (values t') = some (tooltip t') := by
  split at h
  next hall =>
    obtain ⟨hdone, htold⟩ := andThen_eq_true.mp hall
    rw [andThen_of_true hdone] at h
    exact Option.some.inj h ▸ tray_of_tell htold
  next => cases h

/-- **The menu goes with the table**: whatever arrives while the host is there,
and wherever it ends with an exception, the menu was built from as many rows as
there are, and from the values that every row has which was there when the icon
was made. As long as no other row has come, the menu is that of the table, and
so is the tooltip if the viewers can be counted; and otherwise both are again
after every event that is handled to its end. -/
theorem tray_follows_table {rows : List Row} {t₀ t : TrayTable}
    (hmade : made rows = some t₀)
    {messages : List Message} (hrun : arriveAll messages t₀ = some t) :
    t.Current ∧
      ((∀ r ∈ t.rows, r.watched = true) → t.menu = cameraMenu t.values ∧
        ∀ text, trayTooltip t.values = some text → t.tooltip = text) ∧
      ∀ m t', m.isEvent = true → t.arrive m = some t' →
        t'.menu = cameraMenu t'.values ∧
        trayTooltip t'.values = some t'.tooltip := by
  have hcurrent := current_arriveAll (current_made hmade) hrun
  refine ⟨hcurrent, fun hall => ?_, fun m t' hevent ht => ?_⟩
  · have hvalues : t.listener.built.map Observed.State.stored = t.values := by
      rw [hcurrent.built_eq hall, List.map_map]
      rfl
    exact ⟨congrArg cameraMenu hvalues,
      fun text htext => hcurrent.tooltip text (hvalues ▸ htext)⟩
  · cases m with
    | cameraStateChanged data => exact tray_of_event ht
    | camerasChanged data => exact tray_of_event ht
    | status cameras => cases hevent

/-- A camera comes. -/
def cameraComes : Message := .camerasChanged (.array [watchedCamera.toJson])

/-- It has two viewers now. -/
def secondViewer : Message :=
  .cameraStateChanged { watchedCamera with viewerCount := 2 }.toJson

theorem tray_follows_table_secondViewer :
    ∃ t₀ t t', made [] = some t₀ ∧ arriveAll [cameraComes] t₀ = some t ∧
      t.arrive secondViewer = some t' ∧ t.Current ∧
      t'.menu = cameraMenu t'.values ∧
      trayTooltip t'.values = some t'.tooltip := by
  have hsome : (((made []).bind (arriveAll [cameraComes])).bind
      (fun t => arrive t secondViewer)).isSome = true := by decide
  obtain ⟨t', ht'⟩ := Option.isSome_iff_exists.mp hsome
  obtain ⟨t, ht, ht'⟩ := Option.bind_eq_some_iff.mp ht'
  obtain ⟨t₀, hmade, ht⟩ := Option.bind_eq_some_iff.mp ht
  obtain ⟨hcurrent, -, hevent⟩ := tray_follows_table hmade ht
  exact ⟨t₀, t, t', hmade, ht, ht', hcurrent, hevent _ _ rfl ht'⟩

end TrayTable

/-! ## The messages of the supervisor

On the documents that the supervisor really sends, the table with its setters
and listeners makes of the rows what the plain table of the other modules
makes of them. -/

namespace Table

variable {σ : Type} {listen : TableListener σ}

/-- The table, as the model has it. -/
def infos (t : Table σ) : List CameraInfo :=
  t.rows.map (fun r => rowInfo r.row.stored)

theorem names_eq (t : Table σ) : t.names = t.infos.map CameraInfo.name := by
  rw [infos, List.map_map]
  rfl

theorem nameOf_toJson (cam : CamJson) : nameOf cam.toJson = some cam.name := by
  have hname : tryGetProperty "name" cam.toJson
      = some (some (.string cam.name)) :=
    tryGetProperty_toJson cam .name
  rw [nameOf, getOr, hname]
  rfl

/-! ### One row

Setting all properties of a row from an object, one after the other, is
replacing the row, as long as no listener throws. -/

section OneRow

variable {t : Table σ} {i : ℕ} {r : TableRow}

theorem set_of_getElem? (hr : t.rows[i]? = some r) :
    t.rows.set i r = t.rows := by
  obtain ⟨hlt, rfl⟩ := List.getElem?_eq_some_iff.mp hr
  exact List.set_getElem_self hlt

variable (listen) in
/-- A field that is set is set in the row, whoever listens. -/
theorem rows_setFieldAt (hr : t.rows[i]? = some r) (f : RowField)
    (value : f.Value) :
    (t.setFieldAt listen i f value).1.rows
      = t.rows.set i { r with row := r.row.set f value } := by
  rw [setFieldAt, hr]
  dsimp only
  split
  next heq =>
    rw [Observed.State.set_of_stored heq]
    exact (set_of_getElem? hr).symm
  next =>
    split
    next => rfl
    next => rfl

theorem setFieldAt_of_quiet (hquiet : listen.Quiet) (f : RowField)
    (value : f.Value) :
    (t.setFieldAt listen i f value).2 = true := by
  rw [setFieldAt]
  split
  next => rfl
  next =>
    split
    next => rfl
    next =>
      dsimp only
      split
      next => exact hquiet _ _
      next => rfl

/-- A property that is set to the end is set in the row. -/
theorem rows_setPropertyAt (hr : t.rows[i]? = some r) (p : RowProperty)
    (value : p.Value)
    (hdone : (t.setPropertyAt listen i p value).2 = true) :
    (t.setPropertyAt listen i p value).1.rows
      = t.rows.set i { r with row := setProperty p value r.row } := by
  have hfield := rows_setFieldAt listen hr (.property p) value
  unfold setPropertyAt at hdone ⊢
  rw [hr] at hdone ⊢
  dsimp only at hdone ⊢
  rw [andThen_of_true (andThen_eq_true.mp hdone).1, setProperty]
  split
  next =>
    have hset : (t.setFieldAt listen i (.property p) value).1.rows[i]?
        = some { r with row := r.row.set (.property p) value } := by
      rw [hfield, List.getElem?_set_self (List.getElem?_eq_some_iff.mp hr).1]
    rw [rows_setFieldAt listen hset, hfield, List.set_set]
  next => exact hfield

theorem setPropertyAt_of_quiet (hquiet : listen.Quiet) (p : RowProperty)
    (value : p.Value) :
    (t.setPropertyAt listen i p value).2 = true := by
  rw [setPropertyAt]
  split
  next => rfl
  next =>
    rw [andThen_eq_true]
    refine ⟨setFieldAt_of_quiet hquiet _ _, ?_⟩
    split
    next => exact setFieldAt_of_quiet hquiet _ _
    next => rfl

variable (listen) in
/-- **A row is updated**: what was handled to its end is what the row makes of
the object, and only a listener can end it anywhere else. -/
theorem rows_setPropertiesAt (el : Json String) (ps : List RowProperty)
    (hr : t.rows[i]? = some r) :
    ((t.setPropertiesAt listen i el ps).2 = true →
      (setProperties el ps r.row).2 = true ∧
      (t.setPropertiesAt listen i el ps).1.rows
        = t.rows.set i { r with row := (setProperties el ps r.row).1 }) ∧
      (listen.Quiet →
        (t.setPropertiesAt listen i el ps).2
        = (setProperties el ps r.row).2) := by
  induction ps generalizing t r with
  | nil => exact ⟨fun _ => ⟨rfl, (set_of_getElem? hr).symm⟩, fun _ => rfl⟩
  | cons p ps ih =>
    rw [setPropertiesAt, setProperties]
    cases p.ofElement el with
    | none => exact ⟨fun h => Bool.noConfusion h, fun _ => rfl⟩
    | some read =>
      cases read with
      | none => exact ih hr
      | some value =>
        have hlt := (List.getElem?_eq_some_iff.mp hr).1
        by_cases hset : (t.setPropertyAt listen i p value).2 = true
        · have hrows := rows_setPropertyAt hr p value hset
          have hnext : (t.setPropertyAt listen i p value).1.rows[i]?
              = some { r with row := setProperty p value r.row } := by
            rw [hrows, List.getElem?_set_self hlt]
          obtain ⟨hdone, hquiet⟩ := ih hnext
          dsimp only
          rw [andThen_of_true hset]
          refine ⟨fun h => ⟨(hdone h).1, ?_⟩, hquiet⟩
          rw [(hdone h).2, hrows, List.set_set]
        · refine ⟨fun h => absurd (andThen_eq_true.mp h).1 hset,
            fun hquiet => ?_⟩
          exact absurd (setPropertyAt_of_quiet hquiet p value) hset

variable (listen) in
/-- A row is updated: it is replaced. -/
theorem updateAt_toJson {cam : CamJson} (h : cam.Fits)
    (hi : i < t.rows.length) :
    ((t.updateAt listen i cam.toJson).2 = true →
      (t.updateAt listen i cam.toJson).1.infos
        = t.infos.set i (CameraInfo.ofJson cam)) ∧
      (listen.Quiet → (t.updateAt listen i cam.toJson).2 = true) := by
  obtain ⟨hdone, hquiet⟩ := rows_setPropertiesAt listen cam.toJson
    RowProperty.inOrder (List.getElem?_eq_getElem hi)
  refine ⟨fun hset => ?_,
    fun hq => (hquiet hq).trans (get_updateRow_toJson h _).1⟩
  rw [infos, updateAt, (hdone hset).2, List.map_set, infos,
    ← rowInfo_updateRow_toJson h t.rows[i].row]
  rfl

end OneRow

/-! ### All rows

A snapshot is applied object by object and then the rows it did not mention
are removed, from the last one on. Both loops are compared with the functions
on plain lists. -/

/-- Replacing the row with a number is replacing the rows with its name, where
no other row has the name. -/
theorem set_eq_map {rows : List CameraInfo} {existing extra : List String}
    {name : String}
    (hnames : rows.map CameraInfo.name = existing ++ extra)
    (hnodup : existing.Nodup)
    (hextra : name ∉ extra) {i : ℕ} (hi : existing.idxOf? name = some i)
    (new : CameraInfo) :
    rows.set i new = rows.map (fun row => if row.name
      = name then new else row) := by
  induction existing generalizing rows i with
  | nil => cases hi
  | cons e existing ih =>
    obtain ⟨row, rows, rfl, rfl, htail⟩ := List.map_eq_cons_iff.mp hnames
    obtain ⟨hnew, hnodup⟩ := List.nodup_cons.mp hnodup
    rw [List.idxOf?_cons] at hi
    rw [List.map_cons]
    split at hi
    next heq =>
      obtain rfl := Option.some.inj hi
      obtain rfl := beq_iff_eq.mp heq
      have hrest : ∀ r ∈ rows, r.name ≠ row.name := by
        intro r hr hname
        have hmem : r.name ∈ rows.map CameraInfo.name := List.mem_map_of_mem hr
        rw [htail, hname] at hmem
        exact (List.mem_append.mp hmem).elim hnew hextra
      rw [if_pos rfl, List.map_congr_left (fun r hr => if_neg (hrest r hr)),
        List.map_id']
      rfl
    next hne =>
      obtain ⟨k, hk, rfl⟩ := Option.map_eq_some_iff.mp hi
      rw [if_neg (fun heq => hne (beq_iff_eq.mpr heq)), ← ih htail hnodup hk]
      rfl

/-- The rows after the objects of a snapshot have the names from before, and
then new ones. -/
theorem map_name_applyCamera (existing : List String) (rows : List CameraInfo)
    (el : CamJson) :
    (applyCamera existing rows el).map CameraInfo.name
      = if el.name = "" ∨ el.name ∈ existing then rows.map CameraInfo.name
        else rows.map CameraInfo.name ++ [el.name] := by
  unfold applyCamera
  by_cases hempty : el.name = ""
  · rw [if_pos hempty, if_pos (.inl hempty)]
  by_cases hin : el.name ∈ existing
  · rw [if_neg hempty, if_pos hin, if_pos (.inr hin), List.map_map]
    refine List.map_congr_left (fun row _ => ?_)
    show CameraInfo.name (if row.name = el.name then _ else row) = row.name
    split
    next heq => exact heq.symm
    next => rfl
  · rw [if_neg hempty, if_neg hin, if_neg (not_or.mpr ⟨hempty, hin⟩),
      List.map_append]
    rfl

variable (listen) in
/-- One object of a snapshot. -/
theorem applyElement_toJson {cam : CamJson} (h : cam.Fits) {t : Table σ}
    {existing extra : List String} (hnames : t.names = existing ++ extra)
    (hnodup : existing.Nodup) (hextra : ∀ name ∈ extra, name ∉ existing) :
    ((applyElement listen existing cam.toJson t).2 = true →
      (applyElement listen existing cam.toJson t).1.infos
        = applyCamera existing t.infos cam) ∧
      (listen.Quiet →
        (applyElement listen existing cam.toJson t).2 = true) := by
  rw [applyElement, nameOf_toJson, applyCamera]
  dsimp only
  by_cases hempty : cam.name = ""
  · rw [if_pos hempty, if_pos hempty]
    exact ⟨fun _ => rfl, fun _ => rfl⟩
  rw [if_neg hempty, if_neg hempty]
  cases hi : existing.idxOf? cam.name with
  | none =>
    obtain ⟨hdone, hinfo⟩ := And.intro (get_updateRow_toJson h newRow).1
      (rowInfo_updateRow_toJson h newRow)
    rw [if_neg (List.idxOf?_eq_none_iff.mp hi)]
    dsimp only
    rw [if_pos hdone]
    refine ⟨fun _ => ?_, fun hquiet => hquiet _ _⟩
    show ((t.rows ++ [_]).map fun r : TableRow => rowInfo r.row.stored) = _
    rw [List.map_append, ← hinfo]
    rfl
  | some i =>
    have hin : cam.name ∈ existing := List.isSome_idxOf?.mp (by rw [hi]; rfl)
    obtain ⟨hlt, -⟩ := List.idxOf?_eq_some_iff.mp hi
    have hlength := congrArg List.length hnames
    rw [names, List.length_map, List.length_append] at hlength
    obtain ⟨hdone, hquiet⟩ :=
      updateAt_toJson listen h (show i < t.rows.length by omega)
    rw [names_eq] at hnames
    rw [if_pos hin]
    refine ⟨fun hset => (hdone hset).trans ?_, hquiet⟩
    exact set_eq_map hnames hnodup (fun hmem => hextra _ hmem hin) hi _

variable (listen) in
/-- The objects of a snapshot. -/
theorem applyElements_toJson {cams : List CamJson} (h : ∀ cam ∈ cams, cam.Fits)
    {t : Table σ}
    {existing extra : List String} (hnames : t.names = existing ++ extra)
    (hnodup : existing.Nodup) (hextra : ∀ name ∈ extra, name ∉ existing) :
    ((applyElements listen existing (cams.map CamJson.toJson) t).2 = true →
      (applyElements listen existing (cams.map CamJson.toJson) t).1.infos
        = cams.foldl (applyCamera existing) t.infos) ∧
      (listen.Quiet →
        (applyElements listen existing (cams.map CamJson.toJson) t).2
        = true) := by
  induction cams generalizing t extra with
  | nil => exact ⟨fun _ => rfl, fun _ => rfl⟩
  | cons cam cams ih =>
    obtain ⟨hcam, hcams⟩ := List.forall_mem_cons.mp h
    obtain ⟨hdone, hquiet⟩ :=
      applyElement_toJson listen hcam hnames hnodup hextra
    rw [List.map_cons, applyElements, List.foldl_cons]
    by_cases hset : (applyElement listen existing cam.toJson t).2 = true
    · have hinfos := hdone hset
      rw [andThen_of_true hset, ← hinfos]
      have hnext := map_name_applyCamera existing t.infos cam
      rw [← hinfos, ← names_eq, ← names_eq, hnames] at hnext
      split at hnext
      next => exact ih hcams hnext hextra
      next hnew =>
        rw [List.append_assoc] at hnext
        refine ih hcams hnext (fun name hmem => ?_)
        rcases List.mem_append.mp hmem with hmem | hmem
        · exact hextra name hmem
        · rw [List.mem_singleton.mp hmem]
          exact fun hin => hnew (.inr hin)
    · exact ⟨fun hall => absurd (andThen_eq_true.mp hall).1 hset,
        fun hq => absurd (hquiet hq) hset⟩

/-- Rows are removed from the last one on, and all that are left are those that
were seen. -/
theorem infos_removeUnseen (seen : List String) (i : ℕ) (t : Table σ) :
    ((removeUnseen listen seen i t).2 = true →
      (removeUnseen listen seen i t).1.infos
        = (t.infos.take i).filter (fun row => decide (row.name ∈ seen))
          ++ t.infos.drop i) ∧
      (listen.Quiet → (removeUnseen listen seen i t).2 = true) := by
  induction i generalizing t with
  | zero => exact ⟨fun _ => rfl, fun _ => rfl⟩
  | succ i ih =>
    rw [removeUnseen]
    cases hr : t.rows[i]? with
    | none =>
      -- there is no row at the position, and both sides are those of the
      -- position before
      have hlen : t.infos.length ≤ i := by
        rw [infos, List.length_map]
        exact List.getElem?_eq_none_iff.mp hr
      obtain ⟨hdone, hquiet⟩ := ih t
      refine ⟨fun hall => (hdone hall).trans ?_, hquiet⟩
      rw [List.take_of_length_le hlen, List.drop_eq_nil_of_le hlen,
        List.take_of_length_le (hlen.trans (Nat.le_succ i)),
        List.drop_eq_nil_of_le (hlen.trans (Nat.le_succ i))]
    | some r =>
      have hinfo : t.infos[i]? = some (rowInfo r.row.stored) := by
        rw [infos, List.getElem?_map, hr, Option.map_some]
      obtain ⟨hlt, hrow⟩ := List.getElem?_eq_some_iff.mp hinfo
      have htake : t.infos.take (i + 1)
          = t.infos.take i ++ [rowInfo r.row.stored] := by
        rw [List.take_add_one, hinfo]
        rfl
      rw [htake, List.filter_append]
      dsimp only
      -- the loop goes from the last row to the first, so that a removal moves
      -- no row it has still to look at
      by_cases hseen : r.row.get .name ∈ seen
      · have hkeep : (rowInfo r.row.stored).name ∈ seen := hseen
        obtain ⟨hdone, hquiet⟩ := ih t
        rw [if_pos hseen]
        refine ⟨fun hall => (hdone hall).trans ?_, hquiet⟩
        rw [List.drop_eq_getElem_cons hlt, hrow, List.append_assoc]
        simp [hkeep]
      · have hdrop : (rowInfo r.row.stored).name ∉ seen := hseen
        rw [if_neg hseen]
        obtain ⟨hdone, hquiet⟩ :=
          ih (tell listen { t with rows := t.rows.eraseIdx i }).1
        have hinfos : (tell listen { t with rows := t.rows.eraseIdx i }).1.infos
            = t.infos.take i ++ t.infos.drop (i + 1) := by
          show ((t.rows.eraseIdx i).map fun r : TableRow =>
            rowInfo r.row.stored) = _
          rw [List.eraseIdx_eq_take_drop_succ, List.map_append, List.map_take,
            List.map_drop]
          rfl
        refine ⟨fun hall => ?_,
          fun hq => andThen_eq_true.mpr ⟨hq _ _, hquiet hq⟩⟩
        obtain ⟨htold, hrest⟩ := andThen_eq_true.mp hall
        have hlen : (t.infos.take i).length = i := by
          rw [List.length_take]
          exact Nat.min_eq_left hlt.le
        rw [andThen_of_true htold, hdone hrest, hinfos, List.take_left' hlen,
          List.drop_left' hlen]
        simp [hdrop]

variable (listen) in
/-- **A snapshot of the supervisor** makes of the table what the model says,
and throws where the model has nothing. A listener that throws ends the call
with a part of the rows done, which is why the converse asks for listeners
that do not. -/
theorem applyCameraList_toJson {cams : List CamJson}
    (h : ∀ cam ∈ cams, cam.Fits)
    (t : Table σ) :
    ((t.applyCameraList listen (.array (cams.map CamJson.toJson))).2 = true →
      WebcamStreamer.applyCameraList t.infos cams
        = some (t.applyCameraList listen
            (.array (cams.map CamJson.toJson))).1.infos) ∧
      (listen.Quiet →
        (t.applyCameraList listen (.array (cams.map CamJson.toJson))).2
          = (WebcamStreamer.applyCameraList t.infos cams).isSome) := by
  have hseen : (cams.map CamJson.toJson).filterMap nameOf
      = cams.map CamJson.name := by
    rw [List.filterMap_map]
    exact List.filterMap_eq_map_iff_forall_eq_some.mpr
      (fun cam _ => nameOf_toJson cam)
  rw [applyCameraList, WebcamStreamer.applyCameraList, hseen, ← names_eq]
  dsimp only
  split
  next hnodup =>
    obtain ⟨hdone, hquiet⟩ := applyElements_toJson listen h
      (List.append_nil t.names).symm hnodup
        (fun name hmem => absurd hmem List.not_mem_nil)
    refine ⟨fun hall => ?_, fun hq => ?_⟩
    · obtain ⟨hset, hrest⟩ := andThen_eq_true.mp hall
      have hlen : (applyElements listen t.names
          (cams.map CamJson.toJson) t).1.rows.length
          = (applyElements listen t.names
            (cams.map CamJson.toJson) t).1.infos.length := by
        rw [infos, List.length_map]
      rw [andThen_of_true hset, (infos_removeUnseen _ _ _).1 hrest, hlen,
        List.take_length,
        List.drop_length, List.append_nil, hdone hset]
    · exact andThen_eq_true.mpr ⟨hquiet hq, (infos_removeUnseen _ _ _).2 hq⟩
  next => exact ⟨fun hall => Bool.noConfusion hall, fun _ => rfl⟩

theorem updateFirst_eq (data : CamJson) (rows : List CameraInfo) :
    updateFirst data rows
      = match (rows.map CameraInfo.name).idxOf? data.name with
      | some i => rows.set i (CameraInfo.ofJson data)
      | none => rows := by
  induction rows with
  | nil => rfl
  | cons row rows ih =>
    rw [updateFirst, List.map_cons, List.idxOf?_cons]
    by_cases hname : row.name = data.name
    · rw [if_pos hname, if_pos (beq_iff_eq.mpr hname)]
      rfl
    · rw [if_neg hname, if_neg (fun heq => hname (beq_iff_eq.mp heq)), ih]
      cases (rows.map CameraInfo.name).idxOf? data.name <;> rfl

variable (listen) in
/-- **An event about a camera** makes of the table what the model says. Only
the row of the name is looked at, and without such a row nothing is raised and
nothing changes. -/
theorem applyCameraStateEvent_toJson {cam : CamJson} (h : cam.Fits)
    (t : Table σ) :
    ((t.applyCameraStateEvent listen cam.toJson).2 = true →
      (t.applyCameraStateEvent listen cam.toJson).1.infos
        = WebcamStreamer.applyCameraStateEvent t.infos cam) ∧
      (listen.Quiet →
        (t.applyCameraStateEvent listen cam.toJson).2 = true) := by
  rw [applyCameraStateEvent, nameOf_toJson,
    WebcamStreamer.applyCameraStateEvent]
  dsimp only
  split
  next => exact ⟨fun _ => rfl, fun _ => rfl⟩
  next =>
    rw [updateFirst_eq, ← names_eq]
    cases hi : t.names.idxOf? cam.name with
    | none => exact ⟨fun _ => rfl, fun _ => rfl⟩
    | some i =>
      obtain ⟨hlt, -⟩ := List.idxOf?_eq_some_iff.mp hi
      rw [names, List.length_map] at hlt
      exact updateAt_toJson listen h hlt

/-- What an event of the supervisor is when it arrives, as far as it touches the
rows. -/
def messageOf : Event → Option Message
  | .cameraStateChanged cam => some (.cameraStateChanged cam.toJson)
  | .camerasChanged cams =>
    some (.camerasChanged (.array (cams.map CamJson.toJson)))
  | _ => none

variable (listen) in
/-- An event arrives; `none` is an exception. -/
def receive (t : Table σ) (e : Event) : Option (Table σ) :=
  match messageOf e with
  | none => some t
  | some m => if (t.handle listen m).2 then some (t.handle listen m).1 else none

/-- The numbers in an event have the types that the supervisor gives them. -/
def EventFits : Event → Prop
  | .cameraStateChanged cam => cam.Fits
  | .camerasChanged cams => ∀ cam ∈ cams, cam.Fits
  | _ => True

/-- What was handled to its end is what the listener was told. -/
theorem infos_of_told {result : Table σ × Bool} {t' : Table σ}
    (h : (if (andThen result (tell listen)).2 = true then
      some (andThen result (tell listen)).1 else none) = some t') :
    result.2 = true ∧ t'.infos = result.1.infos := by
  split at h
  next hall =>
    have hdone := (andThen_eq_true.mp hall).1
    rw [andThen_of_true hdone] at h
    exact ⟨hdone, Option.some.inj h ▸ rfl⟩
  next => cases h

variable (listen) in
/-- An event makes of the table what the model says, if no listener throws. -/
theorem infos_receive {e : Event} (h : EventFits e) (t : Table σ) :
    (∀ t', t.receive listen e = some t' →
      applyEvent t.infos e = some t'.infos) ∧
      (listen.Quiet →
        (t.receive listen e).isSome = (applyEvent t.infos e).isSome) := by
  cases e with
  | cameraStateChanged cam =>
    obtain ⟨hdone, hquiet⟩ := applyCameraStateEvent_toJson listen h t
    refine ⟨fun t' ht => ?_, fun hq => ?_⟩
    · obtain ⟨hset, hinfos⟩ := infos_of_told ht
      exact congrArg some ((hdone hset).symm.trans hinfos.symm)
    · have hall : (t.handle listen (.cameraStateChanged cam.toJson)).2 = true :=
        andThen_eq_true.mpr ⟨hquiet hq, hq _ _⟩
      show (if _ then some _ else none).isSome = true
      rw [if_pos hall]
      rfl
  | camerasChanged cams =>
    obtain ⟨hdone, hquiet⟩ := applyCameraList_toJson listen h t
    refine ⟨fun t' ht => ?_, fun hq => ?_⟩
    · obtain ⟨hset, hinfos⟩ := infos_of_told ht
      rw [hinfos]
      exact hdone hset
    · show (if _ then some _ else none).isSome
        = (WebcamStreamer.applyCameraList _ _).isSome
      rw [← hquiet hq]
      split
      next hall => exact (andThen_eq_true.mp hall).1.symm
      next hno =>
        refine (Bool.eq_false_iff.mpr (fun hset => hno ?_)).symm
        exact andThen_eq_true.mpr ⟨hset, hq _ _⟩
  | _ => exact ⟨fun t' ht => Option.some.inj ht ▸ rfl, fun _ => rfl⟩

/-- **The table is the model's table**: over any run of events, the rows that
are set from what arrives, property by property, are the rows of the model, and
if no listener throws, an exception ends the run exactly where the model has no
table. -/
theorem table_refines {events : List Event} (h : ∀ e ∈ events, EventFits e)
    (t : Table σ) :
    (∀ t', events.foldlM (receive listen) t = some t' →
      applyEvents t.infos events = some t'.infos) ∧
      (listen.Quiet →
        applyEvents t.infos events
        = (events.foldlM (receive listen) t).map infos) := by
  induction events generalizing t with
  | nil => exact ⟨fun t' ht => Option.some.inj ht ▸ rfl, fun _ => rfl⟩
  | cons e events ih =>
    obtain ⟨he, hevents⟩ := List.forall_mem_cons.mp h
    obtain ⟨hreceived, hquiet⟩ := infos_receive listen he t
    rw [applyEvents_cons, List.foldlM_cons]
    cases hr : t.receive listen e with
    | none =>
      refine ⟨fun t' ht => (nomatch ht), fun hq => ?_⟩
      have hnone := hquiet hq
      rw [hr] at hnone
      have hno : applyEvent t.infos e = none :=
        Option.not_isSome_iff_eq_none.mp
          (by rw [← hnone]; exact Bool.noConfusion)
      rw [hno]
      rfl
    | some t₁ =>
      rw [hreceived t₁ hr]
      exact ih hevents t₁

/-- A camera comes, gets a viewer, and a second one comes. -/
def cameraEvents : List Event :=
  [.camerasChanged [watchedCamera],
    .cameraStateChanged { watchedCamera with viewerCount := 2 },
    .camerasChanged [watchedCamera,
      { watchedCamera with name := "Second", path := "/webcam1" }]]

theorem table_refines_cameraEvents : applyEvents [] cameraEvents
    = (cameraEvents.foldlM (receive (fun _ s => (s, true))) ⟨[],
      ()⟩).map infos := by
  have hfits := fits_watchedCamera
  have hmore : CamJson.Fits { watchedCamera with viewerCount := 2 } :=
    ⟨hfits.width, hfits.height, hfits.fps, hfits.pid, hfits.restarts,
      by decide, hfits.formats⟩
  have hsecond : CamJson.Fits { watchedCamera with
      name := "Second", path := "/webcam1" } :=
    ⟨hfits.width, hfits.height, hfits.fps, hfits.pid, hfits.restarts,
      hfits.viewerCount,
      hfits.formats⟩
  have hone : EventFits (.camerasChanged [watchedCamera]) :=
    List.forall_mem_singleton.mpr hfits
  have htwo : EventFits (.camerasChanged [watchedCamera,
      { watchedCamera with name := "Second", path := "/webcam1" }]) :=
    List.forall_mem_cons.mpr ⟨hfits, List.forall_mem_singleton.mpr hsecond⟩
  have hall : ∀ e ∈ cameraEvents, EventFits e :=
    List.forall_mem_cons.mpr ⟨hone, List.forall_mem_cons.mpr ⟨hmore,
      List.forall_mem_singleton.mpr htwo⟩⟩
  exact (table_refines hall ⟨[], ()⟩).2 (fun _ _ => rfl)

end Table

end WebcamStreamer
