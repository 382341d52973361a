import Mathlib.Data.String.Basic
import WebcamStreamer.CameraConfig
import WebcamStreamer.Files
import WebcamStreamer.StableSort

/-!
# Loading the known-cameras database

`config/known-cameras.json` is an object whose member `cameras` has one entry
for each USB `vid:pid`. A file that is not there, cannot be opened, is not JSON
or has no such member is an empty database, and an entry with an unknown mode is
left out. An entry that is not an object, or has a field of another type, is
neither: `value()` throws where it stands (`KnownCameraDb.load_isOk_iff`).

The database is read once, at start-up, and an exception there ends the
program before it has started a process. So it matters which files are read at
all: the answer is in terms of the members of the document, with the defaults
of the source where a member is missing, and with a profile for each entry
whose mode is known.
-/

namespace WebcamStreamer

/-- The profile in an entry, each field falling back to its default where the
entry has it not. -/
def KnownCamera.ofJson (val : Json String) : Except JsonException KnownCamera :=
  do
  let label ← val.value Json.getString "label" ""
  let mode ← val.value Json.getString "mode" "transcode_mjpeg_to_h264"
  let width ← val.value Json.getInt "width" 1280
  let height ← val.value Json.getInt "height" 720
  let fps ← val.value Json.getInt "fps" 30
  return { label, mode := modeFromString mode, width, height, fps }

/-- A key in lower case. -/
def lowerKey (key : String) : String :=
  String.ofList (key.toList.map Char.toLower)

namespace KnownCameraDb

/-- One turn of the loop over the entries; what was loaded last is found
first. -/
def loadEntry (entries : KnownCameraDb) (entry : String × Json String) :
    Except JsonException KnownCameraDb := do
  let kc ← KnownCamera.ofJson entry.2
  return if kc.mode = .unknown then
    entries else (lowerKey entry.1, kc) :: entries

/-- The loop over the entries, which stand in the order of their keys. -/
def loadEntries (members : List (String × Json String)) :
    Except JsonException KnownCameraDb :=
  (StableSort.orderBy Prod.fst members).foldlM loadEntry []

/-- `KnownCameraDb::Load`: what it returns and the entries. -/
def load (ops : FileOps) (file : JsonFile) :
    Except String (Bool × KnownCameraDb) :=
  match ops.existsThrows with
  | some what => .error what
  | none =>
    match file, ops.readable with
    | .missing, _ => .ok (true, [])
    | .doc j, true =>
      match j.find? "cameras" with
      | some (.object members) =>
        match loadEntries members with
        | .ok entries => .ok (true, entries)
        | .error e => .error e.what
      | _ => .ok (false, [])
    | _, _ => .ok (false, [])

end KnownCameraDb

/-! ## What is loaded

An entry that cannot be read throws, and the exception ends the whole loading.
The readable documents are therefore described from the outside, entry by
entry, and an entry with a mode that is not known is read but not kept. -/

/-- An entry whose fields can be read: an object with textual `label` and `mode`
and numeric `width`, `height` and `fps` where it has these at all. -/
def IsEntry (val : Json String) : Prop :=
  ∃ members, val = .object members ∧
    (∀ key ∈ ["label", "mode"], ∀ v, Json.member key members = some v → ∃ s,
      v = .string s) ∧
    ∀ key ∈ ["width", "height", "fps"], ∀ v,
      Json.member key members = some v → v.IsNumeric

/-- **The entries that are read.** Members that are missing have defaults, so
that only a member of the wrong type makes an object unreadable. -/
theorem KnownCamera.ofJson_isOk_iff {val : Json String} :
    (∃ kc, KnownCamera.ofJson val = .ok kc) ↔ IsEntry val := by
  unfold KnownCamera.ofJson
  simp only [bind_eq_ok]
  constructor
  · rintro ⟨kc, label, hlabel, mode, hmode, width, hwidth, height, hheight,
      fps, hfps, -⟩
    obtain ⟨members, rfl⟩ := Json.isObject_of_value hlabel
    simp only [IsEntry, List.forall_mem_cons, List.not_mem_nil, false_implies,
      implies_true,
      and_true]
    refine ⟨members, rfl, ⟨?_, ?_⟩, ?_, ?_, ?_⟩
    · exact fun v hv => Json.getString_isOk_iff.mp (Json.value_isOk_iff.mp ⟨_,
        hlabel⟩ v hv)
    · exact fun v hv => Json.getString_isOk_iff.mp (Json.value_isOk_iff.mp ⟨_,
        hmode⟩ v hv)
    · exact fun v hv => Json.getInt_isOk_iff.mp (Json.value_isOk_iff.mp ⟨_,
        hwidth⟩ v hv)
    · exact fun v hv => Json.getInt_isOk_iff.mp (Json.value_isOk_iff.mp ⟨_,
        hheight⟩ v hv)
    · exact fun v hv =>
        Json.getInt_isOk_iff.mp (Json.value_isOk_iff.mp ⟨_, hfps⟩ v hv)
  · rintro ⟨members, rfl, htexts, hnumbers⟩
    -- conversely each accessor goes through, on the member or on the default
    have htext : ∀ key ∈ ["label", "mode"], ∀ default,
        ∃ s, (Json.object members).value Json.getString key default = .ok s :=
      fun key hkey _ =>
      Json.value_isOk_iff.mpr (fun v hv =>
        Json.getString_isOk_iff.mpr (htexts key hkey v hv))
    have hnumber : ∀ key ∈ ["width", "height", "fps"], ∀ default,
        ∃ n, (Json.object members).value Json.getInt key default = .ok n :=
      fun key hkey _ =>
      Json.value_isOk_iff.mpr (fun v hv =>
        Json.getInt_isOk_iff.mpr (hnumbers key hkey v hv))
    obtain ⟨label, hlabel⟩ := htext "label" (by simp) ""
    obtain ⟨mode, hmode⟩ := htext "mode" (by simp) "transcode_mjpeg_to_h264"
    obtain ⟨width, hwidth⟩ := hnumber "width" (by simp) 1280
    obtain ⟨height, hheight⟩ := hnumber "height" (by simp) 720
    obtain ⟨fps, hfps⟩ := hnumber "fps" (by simp) 30
    exact ⟨_, label, hlabel, mode, hmode, width, hwidth, height, hheight,
      fps, hfps, rfl⟩

/-- A loop whose turns return on the same elements, whatever has been gathered,
returns if they are those elements. -/
theorem foldlM_isOk_iff {ε α β : Type} {f : β → α → Except ε β} {P : α → Prop}
    (hf : ∀ b a, (∃ b', f b a = .ok b') ↔ P a) (l : List α) (b : β) :
    (∃ r, l.foldlM f b = .ok r) ↔ ∀ a ∈ l, P a := by
  induction l generalizing b with
  | nil => exact iff_of_true ⟨b, rfl⟩ (by simp)
  | cons a l ih =>
    rw [List.forall_mem_cons, ← hf b a, List.foldlM_cons]
    simp only [bind_eq_ok]
    constructor
    · rintro ⟨r, b', hb', hr⟩
      exact ⟨⟨b', hb'⟩, (ih b').mp ⟨r, hr⟩⟩
    · rintro ⟨⟨b', hb'⟩, hall⟩
      obtain ⟨r, hr⟩ := (ih b').mpr hall
      exact ⟨r, b', hb', hr⟩

namespace KnownCameraDb

theorem loadEntry_isOk_iff (entries : KnownCameraDb)
    (entry : String × Json String) :
    (∃ r, entries.loadEntry entry = .ok r) ↔ IsEntry entry.2 := by
  rw [← KnownCamera.ofJson_isOk_iff]
  unfold loadEntry
  simp only [bind_eq_ok]
  exact ⟨fun ⟨_, kc, hkc, _⟩ => ⟨kc, hkc⟩, fun ⟨kc, hkc⟩ => ⟨_, kc, hkc, rfl⟩⟩

theorem loadEntries_isOk_iff {members : List (String × Json String)} :
    (∃ r, loadEntries members = .ok r) ↔
      ∀ entry ∈ members, IsEntry entry.2 := by
  unfold loadEntries
  rw [foldlM_isOk_iff loadEntry_isOk_iff]
  exact forall_congr' (fun entry => by rw [StableSort.mem_orderBy])

/-- **The entries that are loaded** have a mode that is known. An entry with
another mode is left out, so that a profile always has something to say to
`BuildFFmpegArgs`. -/
theorem mode_ne_unknown_of_loadEntries {members : List (String × Json String)}
    {entries : KnownCameraDb} (h : loadEntries members = .ok entries) :
    ∀ e ∈ entries, e.2.mode ≠ .unknown := by
  have hloop :
      ∀ (l : List (String × Json String)) (before after : KnownCameraDb),
      (∀ e ∈ before, e.2.mode ≠ .unknown) →
        l.foldlM loadEntry before = .ok after →
        ∀ e ∈ after, e.2.mode ≠ .unknown := by
    intro l
    induction l with
    | nil =>
      intro before after hbefore hrun
      obtain rfl := Except.ok.inj hrun
      exact hbefore
    | cons entry l ih =>
      intro before after hbefore hrun
      rw [List.foldlM_cons] at hrun
      obtain ⟨next, hnext, hrun⟩ := bind_eq_ok.mp hrun
      refine ih next after ?_ hrun
      obtain ⟨kc, -, hadded⟩ := bind_eq_ok.mp hnext
      obtain rfl := Except.ok.inj hadded
      split
      next => exact hbefore
      next hmode => exact List.forall_mem_cons.mpr ⟨hmode, hbefore⟩
  exact hloop _ [] entries (by simp) h

/-- A document whose entries can be read, where it has entries. -/
def Readable (file : JsonFile) : Prop :=
  ∀ members, file.member? "cameras" = some (.object members) →
    ∀ entry ∈ members, IsEntry entry.2

/-- **The files that are loaded**, where the existence test does not throw:
those that cannot be opened, and those whose entries can be read. -/
theorem load_isOk_iff {ops : FileOps} (hthrow : ops.existsThrows = none)
    (file : JsonFile) :
    (∃ r, load ops file = .ok r) ↔ (ops.readable = true → Readable file) := by
  unfold load
  rw [hthrow]
  cases file with
  | missing => exact iff_of_true ⟨_, rfl⟩ (by simp [Readable, JsonFile.member?])
  | malformed =>
    exact iff_of_true ⟨_, rfl⟩ (by simp [Readable, JsonFile.member?])
  | doc j =>
    cases ops.readable with
    | false => exact iff_of_true ⟨_, rfl⟩ (by simp)
    | true =>
      rw [imp_iff_right rfl]
      show _ ↔ ∀ members, j.find? "cameras" = some (.object members) → _
      dsimp only
      split
      next members hmembers =>
        have hall : (∀ ms, j.find? "cameras" = some (.object ms) → ∀ entry ∈ ms,
            IsEntry entry.2) ↔ ∀ entry ∈ members, IsEntry entry.2 := by
          rw [hmembers]
          exact ⟨fun h => h members rfl, fun h ms hms => by cases hms; exact h⟩
        rw [hall, ← loadEntries_isOk_iff]
        cases loadEntries members with
        | ok entries => exact iff_of_true ⟨_, rfl⟩ ⟨_, rfl⟩
        | error e => exact iff_of_false (by rintro ⟨r, ⟨⟩⟩) (by rintro ⟨r, ⟨⟩⟩)
      next hnone =>
        exact iff_of_true ⟨_, rfl⟩ (fun members h => absurd h (hnone members))

end KnownCameraDb

end WebcamStreamer
