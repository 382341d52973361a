import WebcamStreamer.Json

/-!
# Files and what can go wrong with them

The program reads and writes small files whole. Every file operation may
succeed, fail or, for `std::filesystem::exists`, throw; which of these happens
is not the program's choice, so it is an argument, `FileOps`, of everything
that touches a file. An `std::ofstream` opened with `trunc` leaves the old file
alone when the open fails, and otherwise a prefix of the new text, all of it
when nothing goes wrong.

A file of lines is its characters. A JSON file is the document it holds: a
proper prefix of the text of an object is not JSON, so a write that stopped
half-way leaves a malformed document. Both programs find the same document in
a file that is UTF-8 and has no Control-Z; what each of them finds in other
files is in `WebcamStreamer.SettingsReaders`.
-/

namespace WebcamStreamer

/-- The characters of a text file; a byte that is not ASCII is a character as
well, and no reader looks at it. -/
abbrev Text := List Char

/-- How far opening an output stream and writing to it got. -/
inductive WriteOutcome where
  /-- The stream could not be opened; the old file stands. -/
  | openFailed
  /-- The file was truncated and the first `n` characters arrived; `noticed`
  says whether the stream knew of the failure before it was destroyed. -/
  | stopped (n : ℕ) (noticed : Bool)
  /-- The whole text arrived. -/
  | complete
  deriving DecidableEq

/-- What the operating system answers to the file operations made on one
file. -/
structure FileOps where
  /-- The text of the exception `std::filesystem::exists` throws, if any. -/
  existsThrows : Option String := none
  /-- Whether an input stream on the file opens. -/
  readable : Bool := true
  /-- What becomes of a write. -/
  write : WriteOutcome := .complete

/-- Every operation on the file succeeds. -/
def FileOps.Succeeds (ops : FileOps) : Prop :=
  ops.existsThrows = none ∧ ops.readable = true ∧ ops.write = .complete

instance (ops : FileOps) : Decidable ops.Succeeds :=
  inferInstanceAs (Decidable (_ ∧ _ ∧ _))

/-- A JSON file as both programs find it: absent, not JSON, or a document. The
layout of the text is not kept, and neither is what stands in a file that is
not JSON. -/
inductive JsonFile where
  | missing
  | malformed
  | doc (j : Json String)

/-- The member of the document in a file. -/
def JsonFile.member? (key : String) : JsonFile → Option (Json String)
  | .doc j => j.find? key
  | _ => none

/-- `good()` on the stream after the last insertion. -/
def WriteOutcome.good : WriteOutcome → Bool
  | .openFailed => false
  | .stopped _ noticed => !noticed
  | .complete => true

/-- What a write leaves: the old file, the beginning `cut n` of the new one, or
the new one. -/
def WriteOutcome.leaves {β : Type} (w : WriteOutcome) (old : β) (cut : ℕ → β)
    (new : β) : β :=
  match w with
  | .openFailed => old
  | .stopped n _ => cut n
  | .complete => new

@[simp] theorem WriteOutcome.leaves_openFailed {β : Type} (old new : β)
    (cut : ℕ → β) : WriteOutcome.openFailed.leaves old cut new = old := rfl

@[simp] theorem WriteOutcome.leaves_stopped {β : Type} (old new : β)
    (cut : ℕ → β) (n : ℕ) (noticed : Bool) :
    (WriteOutcome.stopped n noticed).leaves old cut new = cut n := rfl

@[simp] theorem WriteOutcome.leaves_complete {β : Type} (old new : β)
    (cut : ℕ → β) : WriteOutcome.complete.leaves old cut new = new := rfl

/-- The file of characters or bytes after a write of `new`. -/
def WriteOutcome.contents {α : Type} (w : WriteOutcome) (old : Option (List α))
    (new : List α) : Option (List α) :=
  w.leaves old (fun n => some (new.take n)) (some new)

/-- The JSON file after a write of the document `new`. -/
def WriteOutcome.json (w : WriteOutcome) (old : JsonFile) (new : Json String) :
    JsonFile :=
  w.leaves old (fun _ => .malformed) (.doc new)

end WebcamStreamer
