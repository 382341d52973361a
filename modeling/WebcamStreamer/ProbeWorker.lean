import WebcamStreamer.PipeReaders
import WebcamStreamer.ProbeSummary
import WebcamStreamer.Reenumeration

/-!
# The worker of a probe

`probe-camera` is answered at once, and a thread of its own runs the script and
publishes how it went. The event has the recommendation if the script went well,
and the first 400 bytes of its standard error if not. Nothing in that thread
catches an exception.

The recommendation arrives for a camera with which nothing works, and for no
other (`recommendationArrives_iff`). The bytes of the standard error go into the
event as they are, and `dump()` throws on a string that is not UTF-8: a code
page of the console, or a cut in the middle of a character, ends the supervisor
(`publishes_iff`).
-/

namespace WebcamStreamer

/-! ## The command

The worker runs PowerShell to its end and looks at how it went: whether it
could be started, whether its output could be read, its exit code, and whether
it took too long. All of this is a parameter of the run. -/

/-- `DrainPipe`: what the reads deliver is appended. -/
def drainPipe (reads : List PipeRead) : Bytes :=
  reads.foldl (fun out read => out ++ read.elements) []

/-- The text of bytes, a character for each. -/
def bytesText (b : Bytes) : Text := b.map (fun c => Char.ofNat c.toNat)

/-- The bytes of such a text. -/
def textBytes (t : Text) : Bytes := t.map (fun c => UInt8.ofNat c.toNat)

/-- What the operating system does for the command of the worker, as in
`CommandRun`, with the reads from the two pipes. -/
inductive PowershellRun where
  | noPipe
  | noProcess
  | ran (stdout stderr : List PipeRead) (drained inTime : Bool) (exitCode : ℤ)

namespace PowershellRun

def commandRun : PowershellRun → CommandRun
  | noPipe => .noPipe
  | noProcess => .noProcess
  | ran stdout stderr drained inTime exitCode =>
    .ran (bytesText (drainPipe stdout))
      (bytesText (drainPipe stderr)) drained inTime exitCode

/-- The script went well. -/
def ok : PowershellRun → Bool
  | ran _ _ _ inTime exitCode => inTime && exitCode == 0
  | _ => false

/-- The standard error, where it could be read. -/
def stderr : PowershellRun → Bytes
  | ran _ stderr true _ _ => ChunkedLines.stream stderr
  | _ => []

end PowershellRun

/-! ## The worker

The thread ends by publishing one event, either with what it found in the
summary or with an error. The text of the error has up to 400 bytes of the
standard error in it, which are bytes of whatever code page PowerShell
writes. -/

/-- What leaves the thread: an exception of the file system, or one of the JSON
library. -/
inductive Uncaught where
  | filesystem (what : String)
  | json (id : ℕ)

/-- `PublishEvent`: the message for the pipe. -/
def publishEvent (name : String) (data : Json ByteArray) :
    Except Uncaught (Json ByteArray) :=
  (Json.object [("type", .string "event".toUTF8), ("name", .string name.toUTF8),
    ("data", data)]).dump.mapError .json

/-- The text of an error: the exit code, and the first 400 bytes of the standard
error. -/
def probeError (r : CommandResult) : ByteArray :=
  ("probe-camera.ps1 exit=" ++ toString r.exitCode ++ ": ").toUTF8
    ++ ⟨(textBytes (r.stderrText.take 400)).toArray⟩

/-- The thread that `probe-camera` starts, for the camera `nm`: the message it
publishes. -/
def probeWorker (ops : FileOps) (files : ProbeFiles) (nm : String)
    (run : PowershellRun) :
    Except Uncaught (Json ByteArray) := do
  let r := runCommand run.commandRun
  let ev := [("camera", .string nm.toUTF8), ("ok", .boolean r.ok)]
  if !r.ok then
    publishEvent "probe-completed"
      (.object (ev ++ [("error", .string (probeError r))]))
  else
    let upd ← (loadProbeResult ops files nm).mapError .filesystem
    match upd with
    | some upd =>
      publishEvent "probe-completed"
        (.object (ev ++ [("recommended",
          .string (modeName upd.recommended).toUTF8)]))
    | none => publishEvent "probe-completed" (.object ev)

section Command

variable (run : PowershellRun)

theorem drainPipe_eq (reads : List PipeRead) :
    drainPipe reads = ChunkedLines.stream reads := by
  have hfold : ∀ out : Bytes,
      reads.foldl (fun out read => out ++ read.elements) out
      = out ++ ChunkedLines.stream reads := by
    induction reads with
    | nil => intro out; exact (List.append_nil out).symm
    | cons read reads ih =>
      intro out
      rw [List.foldl_cons, ih, ChunkedLines.stream_cons, List.append_assoc]
  exact hfold []

/-- A byte is the number of its character. -/
theorem toNat_byteChar (c : UInt8) : (Char.ofNat c.toNat).toNat = c.toNat := by
  have hall : ∀ n < 256, (Char.ofNat n).toNat = n := by decide +kernel
  exact hall _ c.toNat_lt

theorem textBytes_take_bytesText (b : Bytes) (n : ℕ) :
    textBytes ((bytesText b).take n) = b.take n := by
  rw [textBytes, bytesText, ← List.map_take, List.map_map]
  refine (List.map_congr_left (fun c _ => ?_)).trans (List.map_id _)
  rw [Function.comp_apply, toNat_byteChar, UInt8.ofNat_toNat, id]

theorem ok_runCommand : (runCommand run.commandRun).ok = run.ok := by
  cases run <;> rfl

theorem stderrText_runCommand :
    (runCommand run.commandRun).stderrText = bytesText run.stderr := by
  cases run with
  | noPipe => rfl
  | noProcess => rfl
  | ran stdout stderr drained inTime exitCode =>
    cases drained with
    | false => rfl
    | true => exact congrArg bytesText (drainPipe_eq stderr)

end Command

/-- **An event goes out exactly if its texts are UTF-8.** The exception comes
from `dump`, before anything of the event is written. -/
theorem publishEvent_eq_ok {name : String} {data m : Json ByteArray} :
    publishEvent name data = .ok m ↔ (∀ s ∈ data.texts, s.IsValidUTF8) ∧
      m = .object [("type", .string "event".toUTF8),
        ("name", .string name.toUTF8),
        ("data", data)] := by
  have htexts : (∀ s ∈ (Json.object [("type", .string "event".toUTF8),
      ("name", .string name.toUTF8), ("data", data)]).texts, s.IsValidUTF8)
      ↔ ∀ s ∈ data.texts, s.IsValidUTF8 := by
    have hevent : "event".toByteArray.IsValidUTF8 := "event".isValidUTF8
    simp [Json.texts, Json.textsOfMembers, hevent, name.isValidUTF8]
  rw [← htexts, ← Json.dump_eq_ok, publishEvent]
  cases Json.dump _ <;> simp [Except.mapError]

section Worker

variable (ops : FileOps) (files : ProbeFiles) (nm : String)
  {run : PowershellRun}

theorem probeWorker_of_not_ok (h : run.ok = false) :
    probeWorker ops files nm run
      = publishEvent "probe-completed" (.object [("camera", .string nm.toUTF8),
          ("ok", .boolean false),
          ("error", .string (probeError (runCommand run.commandRun)))]) := by
  have hok : (runCommand run.commandRun).ok = false :=
    (ok_runCommand run).trans h
  simp [probeWorker, hok]

theorem probeWorker_of_ok (h : run.ok = true) :
    probeWorker ops files nm run = (do
      let upd ← (loadProbeResult ops files nm).mapError .filesystem
      publishEvent "probe-completed" (.object ([("camera", .string nm.toUTF8),
        ("ok", .boolean true)] ++ upd.elim [] (fun upd =>
          [("recommended", .string (modeName upd.recommended).toUTF8)])))) := by
  have hok : (runCommand run.commandRun).ok = true :=
    (ok_runCommand run).trans h
  simp only [probeWorker, hok, Bool.not_true, Bool.false_eq_true, if_false]
  refine congrArg _ (funext fun upd => ?_)
  cases upd <;> rfl

end Worker

/-! ## What arrives

By the results on the summary, the event that reports success carries no
recommendation as soon as any pipeline works. The equivalence says so for
every outcome of the pipelines and every name. -/

/-- **The recommendation arrives**: `LoadProbeResult` returns it from the
summary that the script leaves, and the event of a script that went well has
it. -/
structure RecommendationArrives (ops : FileOps) (files : ProbeFiles)
    (cameraName : String)
    (outcome : Pipeline → PipelineOutcome) : Prop where
  loaded :
    ∃ r, loadProbeResult ops
      (probeCameraScript files cameraName outcome) cameraName
      = .ok (some r) ∧ r.recommended = recommendedMode outcome
  published : ∀ run : PowershellRun, run.ok = true → ∃ m data,
      probeWorker ops (probeCameraScript files cameraName outcome) cameraName
          run = .ok m ∧
      m.find? "data" = some data ∧
      data.find? "recommended"
        = some (.string (modeName (recommendedMode outcome)).toUTF8)

/-- **The recommendation arrives exactly if there is none**: with a pipeline
that works, it is lost. The script writes its summary with a byte-order mark,
and the mark becomes a part of the first key. -/
theorem recommendationArrives_iff {ops : FileOps} (hops : ops.Succeeds)
    (files : ProbeFiles)
    {cameraName : String} (hname : '\n' ∉ cameraName.toList)
    (outcome : Pipeline → PipelineOutcome) :
    RecommendationArrives ops files cameraName outcome ↔
      ∀ p, outcome p ≠ .ok := by
  have hload := loadProbeResult_probeCameraScript hops files hname outcome
  rw [← recommendedMode_eq_unknown_iff]
  constructor
  · intro h
    obtain ⟨r, hr, hmode⟩ := h.loaded
    rw [hload] at hr
    obtain rfl := Option.some.inj (Except.ok.inj hr)
    exact hmode.symm
  · intro hnone
    refine ⟨⟨_, hload, hnone.symm⟩, fun run hrun => ?_⟩
    rw [probeWorker_of_ok ops _ cameraName hrun, hload, hnone]
    refine ⟨_, _, publishEvent_eq_ok.mpr ⟨?_, rfl⟩, rfl, rfl⟩
    have hunknown : (modeName .unknown).toByteArray.IsValidUTF8 :=
      (modeName .unknown).isValidUTF8
    simp [Json.texts, Json.textsOfMembers, cameraName.isValidUTF8, hunknown]

theorem recommendationArrives_nothingWorks :
    RecommendationArrives {} (fun _ => none) "Cam" (fun _ => .publish) :=
  (recommendationArrives_iff (by decide) _ (by decide) _).mpr
    (fun _ => by decide)

/-- Everything works, and nothing is recommended. -/
theorem recommendationArrives_allWork_false :
    ¬ RecommendationArrives {} (fun _ => none) "Cam" (fun _ => .ok) := by
  intro h
  obtain ⟨r, hr, hmode⟩ := h.loaded
  rw [loadProbeResult_probeCameraScript (by decide) _ (by decide)] at hr
  obtain rfl := Option.some.inj (Except.ok.inj hr)
  exact absurd hmode (by decide)

/-! ## What is published

An event goes out if its texts are UTF-8, and otherwise the exception leaves
the thread, which ends the program. The excerpt can fail to be UTF-8 in two
ways: it was not to begin with, or it was cut within a character. -/

/-- The thread publishes its event. -/
def Publishes (ops : FileOps) (files : ProbeFiles) (nm : String)
    (run : PowershellRun) : Prop :=
  ∃ m, probeWorker ops files nm run = .ok m ∧
    m.find? "name" = some (.string "probe-completed".toUTF8)

/-- The error can be printed exactly if the excerpt can. -/
theorem isValidUTF8_probeError (run : PowershellRun) :
    (probeError (runCommand run.commandRun)).IsValidUTF8 ↔
      (⟨(run.stderr.take 400).toArray⟩ : ByteArray).IsValidUTF8 := by
  rw [probeError, isValidUTF8_toUTF8_append, stderrText_runCommand,
    textBytes_take_bytesText]

/-- If all of the standard error is UTF-8, the error can be printed unless byte
400 falls inside of a character. -/
theorem isValidUTF8_probeError_of_text {run : PowershellRun} {s : String}
    (h : run.stderr = s.toUTF8.data.toList) :
    (probeError (runCommand run.commandRun)).IsValidUTF8 ↔
      s.utf8ByteSize ≤ 400 ∨ (⟨400⟩ : String.Pos.Raw).IsValid s := by
  have hextract : (⟨(run.stderr.take 400).toArray⟩ : ByteArray)
      = s.toByteArray.extract 0 400 := by
    refine ByteArray.ext (Array.toList_inj.mp ?_)
    rw [h, ByteArray.data_extract, Array.toList_extract,
      List.extract_eq_take_drop]
    rfl
  rw [isValidUTF8_probeError, hextract]
  by_cases hsize : s.utf8ByteSize ≤ 400
  · have hall : s.toByteArray.extract 0 400 = s.toByteArray :=
      ByteArray.ext (ByteArray.data_extract.trans
        (Array.extract_eq_self_of_le hsize))
    rw [hall]
    exact iff_of_true s.isValidUTF8 (Or.inl hsize)
  · have hle : (⟨400⟩ : String.Pos.Raw) ≤ s.rawEndPos := by
      rw [String.Pos.Raw.le_iff, String.byteIdx_rawEndPos]
      exact Nat.le_of_not_le hsize
    rw [String.Pos.Raw.isValid_iff_isValidUTF8_extract_zero]
    exact ⟨fun h => Or.inr ⟨hle, h⟩, fun h => (h.resolve_left hsize).2⟩

/-- **The thread publishes its event exactly if** the script went well and the
existence test for its summary does not throw, or it failed and the first 400
bytes of its standard error are UTF-8. -/
theorem publishes_iff (ops : FileOps) (files : ProbeFiles) (nm : String)
    (run : PowershellRun) :
    Publishes ops files nm run ↔
      if run.ok then ops.existsThrows = none
      else (⟨(run.stderr.take 400).toArray⟩ : ByteArray).IsValidUTF8 := by
  cases hok : run.ok with
  | false =>
    have htexts : (∀ s ∈ (Json.object [("camera", .string nm.toUTF8),
        ("ok", .boolean false),
        ("error", .string (probeError (runCommand run.commandRun)))]).texts,
        s.IsValidUTF8) ↔
        (⟨(run.stderr.take 400).toArray⟩ : ByteArray).IsValidUTF8 := by
      simp [Json.texts, Json.textsOfMembers, nm.isValidUTF8,
        isValidUTF8_probeError]
    rw [if_neg (by decide), ← htexts, Publishes,
      probeWorker_of_not_ok ops files nm hok]
    constructor
    · rintro ⟨m, hm, -⟩
      exact (publishEvent_eq_ok.mp hm).1
    · intro h
      exact ⟨_, publishEvent_eq_ok.mpr ⟨h, rfl⟩, rfl⟩
  | true =>
    rw [if_pos rfl, Publishes, probeWorker_of_ok ops files nm hok,
      loadProbeResult]
    cases ops.existsThrows with
    | some what =>
      refine iff_of_false ?_ (fun h => by cases h)
      rintro ⟨m, hm, -⟩
      cases hm
    | none =>
      refine iff_of_true ⟨_, publishEvent_eq_ok.mpr ⟨?_, rfl⟩, rfl⟩ rfl
      generalize (if ops.readable = true then _ else none : Option ProbeResult)
        = upd
      cases upd with
      | none => simp [Json.texts, Json.textsOfMembers, nm.isValidUTF8]
      | some upd =>
        simp [Json.texts, Json.textsOfMembers, nm.isValidUTF8,
          (modeName _).isValidUTF8]

/-- PowerShell fails, and writes a letter in a code page of the console. -/
def umlautRun : PowershellRun :=
  .ran [] [{ elements := [0x84], nonempty := by decide, short := by decide }]
    true true 1

/-- That ends the supervisor. -/
theorem publishes_umlautRun_false :
    ¬ Publishes {} (fun _ => none) "Cam" umlautRun := by
  rintro ⟨m, hm, -⟩
  rw [probeWorker_of_not_ok {} _ _ rfl] at hm
  have herror :=
    (publishEvent_eq_ok.mp hm).1 (probeError (runCommand umlautRun.commandRun))
    (by simp [Json.texts, Json.textsOfMembers])
  have hno :
      ¬ (⟨(umlautRun.stderr.take 400).toArray⟩ : ByteArray).IsValidUTF8 := by
    decide +kernel
  exact hno ((isValidUTF8_probeError umlautRun).mp herror)

end WebcamStreamer
