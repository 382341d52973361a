import WebcamStreamer.Files
import WebcamStreamer.CameraConfig
import WebcamStreamer.Slugs
import WebcamStreamer.TextMode

/-!
# The per-camera files

A camera's explicit settings live in `<slug>.override.txt`, a file of
`key=value` lines under the probes directory, where the slug is a lossy
rendering of the camera's name. `loadOverride` reads the file line by line and
skips what it does not understand; `saveOverride` reads the file, overlays the
fields of an update and writes the result. Both use streams in text mode, so
the file has carriage returns that no reader sees, and a reader sees nothing
behind a Control-Z.
-/

namespace WebcamStreamer

/-! ## Slugs

The loop of `SlugifyName` copies letters and digits in lower case, puts one
dash in place of every run of other characters, and cuts the dash off that a
run at the end leaves. The general facts are those of squeezed and trimmed
texts over an alphabet. -/

/-- The letters and digits a slug keeps. -/
def isSlugChar (c : Char) : Bool :=
  ('a' ≤ c && c ≤ 'z') || ('A' ≤ c && c ≤ 'Z') || ('0' ≤ c && c ≤ '9')

/-- The characters of a slug. -/
def slugChars : Slugs.Charset Char where
  keep := isSlugChar
  dash := '-'
  keep_dash := by decide

/-- `SlugifyName`: its loop is `Charset.squeeze`, and what cuts the dashes off
the end is `Charset.trim`. -/
def slugifyName (name : String) : Text := slugChars.slug name.toList

/-! ## Lines and numbers

The readers of the text files share a few functions of the standard library,
which are modelled as they are documented, with their exceptions. A line may
end in a carriage return where the file was written elsewhere, and a number
may be followed by anything. -/

/-- A stream in text mode on Windows; a Control-Z ends the file. -/
def fileMode : TextMode Char where
  cr := '\r'
  newline := '\n'
  endOfFile := Char.ofNat 26
  cr_ne_newline := by decide
  endOfFile_ne_cr := by decide
  endOfFile_ne_newline := by decide

/-- The lines `std::getline` delivers: an unterminated last one counts, an
empty one after the last newline does not. -/
def getlines : Text → List Text
  | [] => []
  | '\n' :: rest => [] :: getlines rest
  | c :: rest =>
    match getlines rest with
    | [] => [[c]]
    | l :: ls => (c :: l) :: ls

/-- A line without the carriage return at its end. -/
def stripCr (line : Text) : Text :=
  if line.getLast? = some '\r' then line.dropLast else line

/-- The key and the value around the first `=` of a line. -/
def splitAtEq : Text → Option (Text × Text)
  | [] => none
  | c :: cs =>
    if c = '=' then some ([], cs)
    else (splitAtEq cs).map (fun kv => (c :: kv.1, kv.2))

/-- `isspace` in the C locale. -/
def isSpace (c : Char) : Bool :=
  c = ' ' || c = '\t' || c = '\n' || c = Char.ofNat 11 || c = Char.ofNat 12
    || c = '\r'

/-- The value of a string of decimal digits. -/
def digitsValue (ds : Text) : ℕ :=
  ds.foldl (fun n c => 10 * n + (c.toNat - '0'.toNat)) 0

/-- The magnitude of the digits a text starts with, `none` if it starts with
no digit. -/
def leadingNumber (t : Text) : Option ℕ :=
  match t.takeWhile Char.isDigit with
  | [] => none
  | ds => some (digitsValue ds)

/-- `std::stoi`: white space, a sign, digits, and whatever follows is ignored;
`none` is the exception on no digits or on a number that is no `int`. -/
def stoi (t : Text) : Option ℤ :=
  let signed := match t.dropWhile isSpace with
    | '-' :: rest => (leadingNumber rest).map (fun n => -(n : ℤ))
    | '+' :: rest => (leadingNumber rest).map (fun n => (n : ℤ))
    | rest => (leadingNumber rest).map (fun n => (n : ℤ))
  signed.filter (fun n => -2 ^ 31 ≤ n ∧ n < 2 ^ 31)

/-! ## Overrides

An override has five fields, any of which may be absent. Saving loads what is
there, lays the update over it and writes the whole file again, so that two
saves after each other add up. The writer and the reader are modelled on
texts, and what a stream can do to the file is a parameter. -/

/-- `struct CameraOverride`. -/
structure CameraOverride where
  mode : Option Mode := none
  width : Option ℤ := none
  height : Option ℤ := none
  fps : Option ℤ := none
  enabled : Option Bool := none
  deriving DecidableEq

namespace CameraOverride

/-- One `key=value` pair of the file; a value that does not parse leaves the
field as it was. -/
def readField (o : CameraOverride) (key value : Text) : CameraOverride :=
  if key = "mode".toList then
    match modeFromString (String.ofList value) with
    | .unknown => o
    | m => { o with mode := some m }
  else if key = "width".toList then
    match stoi value with
    | some n => { o with width := some n }
    | none => o
  else if key = "height".toList then
    match stoi value with
    | some n => { o with height := some n }
    | none => o
  else if key = "fps".toList then
    match stoi value with
    | some n => { o with fps := some n }
    | none => o
  else if key = "enabled".toList then
    if value = "true".toList then { o with enabled := some true }
    else if value = "false".toList then { o with enabled := some false }
    else o
  else o

/-- One line of the file; a line without `=` is skipped. -/
def readLine (o : CameraOverride) (line : Text) : CameraOverride :=
  match splitAtEq (stripCr line) with
  | some (key, value) => o.readField key value
  | none => o

/-- The override that the text of a stream holds. -/
def ofLines (text : Text) : CameraOverride := (getlines text).foldl readLine {}

/-- The override a file holds. -/
def ofText (file : Text) : CameraOverride := ofLines (fileMode.read file)

/-- The fields of the update where it has them, the old ones elsewhere. -/
def overlay (old update : CameraOverride) : CameraOverride where
  mode := update.mode.or old.mode
  width := update.width.or old.width
  height := update.height.or old.height
  fps := update.fps.or old.fps
  enabled := update.enabled.or old.enabled

/-- One line that `SaveOverride` inserts into its stream. -/
def line (key value : String) : Text :=
  key.toList ++ '=' :: value.toList ++ ['\n']

/-- The lines that `SaveOverride` inserts. -/
def inserted (name : String) (o : CameraOverride) : Text :=
  line "camera" name
    ++ (o.mode.elim [] (fun m => line "mode" (modeName m)))
    ++ (o.width.elim [] (fun n => line "width" (toString n)))
    ++ (o.height.elim [] (fun n => line "height" (toString n)))
    ++ (o.fps.elim [] (fun n => line "fps" (toString n)))
    ++ (o.enabled.elim []
      (fun b => line "enabled" (if b then "true" else "false")))

/-- The file `SaveOverride` writes. -/
def toText (name : String) (o : CameraOverride) : Text :=
  fileMode.write (o.inserted name)

end CameraOverride

/-- `LoadOverride` on the camera's override file. The existence test may
throw; a missing or unreadable file is no override. -/
def loadOverride (ops : FileOps) (file : Option Text) :
    Except String (Option CameraOverride) :=
  match ops.existsThrows with
  | some what => .error what
  | none => .ok (if ops.readable then file.map CameraOverride.ofText else none)

/-- `SaveOverride`: the returned flag and the file left behind. -/
def saveOverride (ops : FileOps) (file : Option Text) (name : String)
    (update : CameraOverride) : Except String (Bool × Option Text) :=
  match loadOverride ops file with
  | .error what => .error what
  | .ok existing =>
    .ok (ops.write.good,
      ops.write.contents file (((existing.getD {}).overlay update).toText name))

/-- Only the existence test makes `SaveOverride` throw. -/
theorem saveOverride_error_iff {ops : FileOps} {file : Option Text}
    {name what : String}
    {update : CameraOverride} :
    saveOverride ops file name update = .error what ↔
      ops.existsThrows = some what := by
  unfold saveOverride loadOverride
  cases ops.existsThrows <;> simp

theorem existsThrows_of_saveOverride {ops : FileOps} {file file' : Option Text}
    {name : String}
    {update : CameraOverride} {flag : Bool}
    (h : saveOverride ops file name update = .ok (flag, file')) :
    ops.existsThrows = none := by
  by_contra hne
  obtain ⟨what, hwhat⟩ := Option.ne_none_iff_exists'.mp hne
  rw [saveOverride_error_iff.mpr hwhat] at h
  cases h

/-- A save whose existence test does not throw goes through, written or
not. -/
theorem exists_saveOverride {ops : FileOps} (file : Option Text) (name : String)
    (update : CameraOverride) (h : ops.existsThrows = none) :
    ∃ flag file', saveOverride ops file name update = .ok (flag, file') := by
  unfold saveOverride loadOverride
  rw [h]
  exact ⟨_, _, rfl⟩

end WebcamStreamer
