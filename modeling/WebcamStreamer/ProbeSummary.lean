import WebcamStreamer.Overrides

/-!
# The summary of a probe

`probe-camera.ps1` tests five pipelines with a camera, recommends the first one
of a fixed order that works, and leaves a summary, a file of `key=value` lines,
beside its JSON report. `LoadProbeResult` looks for the key `recommended` in it.

That key stands on the first line, and Windows PowerShell starts a file in UTF-8
with a byte-order mark. The mark is read as the first character of the key, so
that the reader finds no recommendation whatever the script has written
(`loadProbeResult_probeCameraScript`).
-/

namespace WebcamStreamer

/-! ## The script

The script is followed as far as its summary goes: which pipelines it tests,
which one it recommends, and what it writes about them. How a pipeline is
tested is left open, and its outcome is a parameter. -/

/-- The pipelines that `probe-camera.ps1` tests. -/
inductive Pipeline where
  | passthroughMjpeg
  | passthroughH264
  | transcodeRawToMjpeg
  | transcodeRawToH264
  | transcodeMjpegToH264
  deriving DecidableEq

/-- `label` -/
def Pipeline.label : Pipeline → String
  | .passthroughMjpeg => "passthrough_mjpeg"
  | .passthroughH264 => "passthrough_h264"
  | .transcodeRawToMjpeg => "transcode_raw_to_mjpeg"
  | .transcodeRawToH264 => "transcode_raw_to_h264"
  | .transcodeMjpegToH264 => "transcode_mjpeg_to_h264"

/-- What becomes of a pipeline: frames arrive, or nothing is published, or
nothing can be pulled, or the camera does not advertise its input. -/
inductive PipelineOutcome where
  | ok
  | publish
  | pull
  | notApplicable
  deriving DecidableEq

/-- `stage` -/
def PipelineOutcome.stage : PipelineOutcome → String
  | .ok => "ok"
  | .publish => "publish"
  | .pull => "pull"
  | .notApplicable => "not_applicable"

/-- A row of `$pipelines`, as far as the summary needs it. -/
structure PipelineRow where
  label : String
  ok : Bool
  stage : String

/-- The pipelines in the order in which they are tested. -/
def testedPipelines : List Pipeline :=
  [.passthroughMjpeg, .passthroughH264, .transcodeRawToMjpeg,
    .transcodeRawToH264,
    .transcodeMjpegToH264]

/-- `$pipelines` -/
def pipelineRows (outcome : Pipeline → PipelineOutcome) : List PipelineRow :=
  testedPipelines.map (fun p =>
    { label := p.label, ok := outcome p == .ok, stage := (outcome p).stage })

/-- `$priority` -/
def priority : List String :=
  ["passthrough_mjpeg", "passthrough_h264", "transcode_mjpeg_to_h264",
    "transcode_raw_to_h264",
    "transcode_raw_to_mjpeg"]

/-- The loop over `$priority` that sets `$recommended`. -/
def recommended (rows : List PipelineRow) : List String → String
  | [] => "none"
  | mode :: modes =>
    match rows.find? (fun row => row.label == mode) with
    | some row => if row.ok then mode else recommended rows modes
    | none => recommended rows modes

/-- `$state` -/
def PipelineRow.state (row : PipelineRow) : String :=
  if row.ok then "ok" else if row.stage = "not_applicable" then "na" else "fail"

/-- A line of the summary. -/
def summaryLine (key value : String) : Text := key.toList ++ '=' :: value.toList

/-- `$lines`; the supervisor leaves the resolution of the test at its
default. -/
def summaryLines (cameraName : String) (rows : List PipelineRow) : List Text :=
  [summaryLine "recommended" (recommended rows priority),
    summaryLine "camera" cameraName,
    summaryLine "test_resolution" "1280x720@30"]
      ++ rows.map (fun row => summaryLine row.label row.state)

/-- `Set-Content -Encoding UTF8` of Windows PowerShell: the mark, and every line
with its end. -/
def setContent (lines : List Text) : Text :=
  '\uFEFF' :: lines.flatMap (· ++ ['\r', '\n'])

/-- `[System.IO.Path]::ChangeExtension`, for an extension that has its dot: what
follows the last dot of the file name is replaced. -/
def changeExtension (path extension : Text) : Text :=
  match path.reverse.dropWhile (fun c => c != '.' && c != '\\' && c != '/'
    && c != ':') with
  | '.' :: rest => rest.reverse ++ extension
  | _ => path ++ extension

/-- The text files of the probes directory. -/
abbrev ProbeFiles := Text → Option Text

/-- The name of the report that the supervisor asks for. -/
def reportName (cameraName : String) : Text :=
  slugifyName cameraName ++ ".json".toList

/-- `probe-camera.ps1`, as far as the summary goes. -/
def probeCameraScript (files : ProbeFiles) (cameraName : String)
    (outcome : Pipeline → PipelineOutcome) : ProbeFiles :=
  Function.update files
    (changeExtension (reportName cameraName) ".summary.txt".toList)
    (some (setContent (summaryLines cameraName (pipelineRows outcome))))

/-! ## The reader

The reader takes the lines in text mode, splits each at its first equals sign
and looks for one key. It knows nothing of byte-order marks, which the script
writes. -/

/-- `struct ProbeResult`. -/
structure ProbeResult where
  sourcePath : Text
  recommended : Mode := .unknown
  deriving DecidableEq

/-- One line of the summary. -/
def readSummaryLine (m : Mode) (line : Text) : Mode :=
  match splitAtEq (stripCr line) with
  | some (k, v) =>
    if k = "recommended".toList then modeFromString (String.ofList v) else m
  | none => m

/-- `LoadProbeResult`. -/
def loadProbeResult (ops : FileOps) (files : ProbeFiles) (cameraName : String) :
    Except String (Option ProbeResult) :=
  let path := slugifyName cameraName ++ ".summary.txt".toList
  match ops.existsThrows with
  | some what => .error what
  | none =>
    .ok (if ops.readable then
        (files path).map (fun file =>
          { sourcePath := path
            recommended :=
              (getlines (fileMode.read file)).foldl readSummaryLine .unknown })
      else none)

/-! ## What the script recommends

The loop of the script takes the first pipeline of its order of preference
that works. This is stated once more as a search in that order, to have
something to compare the reader with. -/

/-- The mode that a pipeline is. -/
def Pipeline.mode : Pipeline → Mode
  | .passthroughMjpeg => .passthroughMjpeg
  | .passthroughH264 => .passthroughH264
  | .transcodeRawToMjpeg => .transcodeRawToMjpeg
  | .transcodeRawToH264 => .transcodeRawToH264
  | .transcodeMjpegToH264 => .transcodeMjpegToH264

/-- The pipelines, the most desirable first. -/
def preference : List Pipeline :=
  [.passthroughMjpeg, .passthroughH264, .transcodeMjpegToH264,
    .transcodeRawToH264,
    .transcodeRawToMjpeg]

/-- **The recommendation**: the most desirable pipeline that works. The order
is that of the script, and nothing is recommended where none of the pipelines
works. -/
def recommendation (outcome : Pipeline → PipelineOutcome) : Option Pipeline :=
  preference.find? (fun p => outcome p == .ok)

/-- Its mode, or `Unknown` for none. -/
def recommendedMode (outcome : Pipeline → PipelineOutcome) : Mode :=
  (recommendation outcome).elim .unknown Pipeline.mode

section Script

variable (outcome : Pipeline → PipelineOutcome)

theorem mem_preference (p : Pipeline) : p ∈ preference := by
  cases p <;> decide

/-- Every pipeline has its row. -/
theorem find?_pipelineRows (p : Pipeline) :
    (pipelineRows outcome).find? (fun row => row.label == p.label)
      = some { label := p.label, ok := outcome p == .ok
               stage := (outcome p).stage } := by
  cases p <;> rfl

/-- The script recommends what works best. -/
theorem recommended_pipelineRows :
    recommended (pipelineRows outcome) priority
      = (recommendation outcome).elim "none" Pipeline.label := by
  have hloop : ∀ ps : List Pipeline,
      recommended (pipelineRows outcome) (ps.map Pipeline.label)
      = (ps.find? (fun p => outcome p == .ok)).elim "none" Pipeline.label := by
    intro ps
    induction ps with
    | nil => rfl
    | cons p ps ih =>
      rw [List.map_cons, recommended, find?_pipelineRows, List.find?_cons, ih]
      cases outcome p == .ok <;> rfl
  exact hloop preference

theorem recommendedMode_eq_unknown_iff :
    recommendedMode outcome = .unknown ↔ ∀ p, outcome p ≠ .ok := by
  have hnone : recommendedMode outcome = .unknown ↔
      recommendation outcome = none := by
    unfold recommendedMode
    cases recommendation outcome with
    | none => simp
    | some p => cases p <;> simp [Pipeline.mode]
  rw [hnone, recommendation, List.find?_eq_none]
  simp [mem_preference]

end Script

/-! ## What is read back

The mark stands in front of the first line, which is the line with the
recommendation. So that line has another key, and all other lines have other
keys anyway, however much of the file was written. -/

theorem changeExtension_reportName (cameraName : String) :
    changeExtension (reportName cameraName) ".summary.txt".toList
      = slugifyName cameraName ++ ".summary.txt".toList := by
  have hdrop : (reportName cameraName).reverse.dropWhile
      (fun c => c != '.' && c != '\\' && c != '/' && c != ':')
      = '.' :: (slugifyName cameraName).reverse := by
    rw [reportName, List.reverse_append]
    rfl
  rw [changeExtension, hdrop]
  exact congrArg (· ++ _) (List.reverse_reverse _)

/-- The lines of a beginning of a text are beginnings of its lines. -/
theorem exists_prefix_of_mem_getlines {lines : List Text}
    (h : ∀ l ∈ lines, '\n' ∉ l) {t : Text}
    (ht : t <+: lines.flatMap (· ++ ['\n'])) {l : Text} (hl : l ∈ getlines t) :
    ∃ line ∈ lines, l <+: line := by
  induction lines generalizing t with
  | nil =>
    obtain rfl := List.prefix_nil.mp ht
    cases hl
  | cons line lines ih =>
    obtain ⟨hline, hlines⟩ := List.forall_mem_cons.mp h
    have hbegin : line ++ ['\n'] <+: (line :: lines).flatMap (· ++ ['\n']) :=
      List.prefix_append _ _
    by_cases hwhole : line ++ ['\n'] <+: t
    · -- the first line is whole, and the others are read behind it
      obtain ⟨rest, rfl⟩ := hwhole
      rw [List.flatMap_cons, List.prefix_append_right_inj] at ht
      rw [List.append_assoc, List.singleton_append,
        getlines_append rest hline] at hl
      rcases List.mem_cons.mp hl with rfl | hl
      · exact ⟨l, List.mem_cons_self, List.prefix_refl l⟩
      · obtain ⟨line', hmem, hprefix⟩ := ih hlines ht hl
        exact ⟨line', List.mem_cons_of_mem _ hmem, hprefix⟩
    · -- the text ends in the first line
      have hcut : t <+: line := by
        have hshort :=
          (List.prefix_or_prefix_of_prefix ht hbegin).resolve_right hwhole
        rcases List.prefix_concat_iff.mp hshort with rfl | hcut
        · exact absurd (List.prefix_refl _) hwhole
        · exact hcut
      have hnil : t ≠ [] := by
        rintro rfl
        cases hl
      rw [getlines_of_notMem (fun hmem => hline (hcut.subset hmem)) hnil] at hl
      exact ⟨line, List.mem_cons_self, List.mem_singleton.mp hl ▸ hcut⟩

theorem splitAtEq_eq_some {t k v : Text} (h : splitAtEq t = some (k, v)) :
    t = k ++ '=' :: v ∧ '=' ∉ k := by
  induction t generalizing k with
  | nil => cases h
  | cons c t ih =>
    rw [splitAtEq] at h
    split at h
    next hc =>
      obtain ⟨rfl, rfl⟩ := Prod.mk.inj (Option.some.inj h)
      exact ⟨by rw [hc, List.nil_append], List.not_mem_nil⟩
    next hc =>
      obtain ⟨⟨k', v'⟩, hsplit, hkv⟩ := Option.map_eq_some_iff.mp h
      obtain ⟨rfl, rfl⟩ := Prod.mk.inj hkv
      obtain ⟨rfl, hk⟩ := ih hsplit
      exact ⟨rfl, List.not_mem_cons_of_ne_of_not_mem (Ne.symm hc) hk⟩

theorem stripCr_isPrefix (l : Text) : stripCr l <+: l := by
  unfold stripCr
  split
  · exact List.dropLast_prefix l
  · exact List.prefix_refl l

/-- The line of another key than the one that is looked for. -/
def OtherLine (l : Text) : Prop :=
  ∃ key value, l = key ++ '=' :: value ∧ '=' ∉ key ∧ key ≠ "recommended".toList

/-- A line of another key changes nothing, and neither does a beginning of
it. -/
theorem readSummaryLine_of_prefix {line : Text} (h : OtherLine line) {l : Text}
    (hl : l <+: line) (m : Mode) : readSummaryLine m l = m := by
  obtain ⟨key, value, rfl, heq, hne⟩ := h
  unfold readSummaryLine
  split
  next k v hsplit =>
    obtain ⟨hstrip, hk⟩ := splitAtEq_eq_some hsplit
    obtain ⟨rest, hrest⟩ := hstrip ▸ (stripCr_isPrefix l).trans hl
    have hsame := congrArg splitAtEq hrest
    rw [List.append_assoc, List.cons_append, splitAtEq_append _ hk,
      splitAtEq_append _ heq] at hsame
    obtain ⟨rfl, -⟩ := Prod.mk.inj (Option.some.inj hsame)
    exact if_neg hne
  next => rfl

/-- The file is a text with the mark in front, written in text mode. -/
theorem setContent_eq_write {line : Text} {lines : List Text}
    (h : ∀ l ∈ line :: lines, '\n' ∉ l) :
    setContent (line :: lines)
      = fileMode.write
        ((('\uFEFF' :: line) :: lines).flatMap (· ++ ['\n'])) := by
  have hline : ∀ l : Text, '\n' ∉ l →
      fileMode.write (l ++ ['\n']) = l ++ ['\r', '\n'] := by
    intro l hl
    induction l with
    | nil => rfl
    | cons c l ih =>
      obtain ⟨hc, hl⟩ := List.ne_and_not_mem_of_not_mem_cons hl
      have hchar : fileMode.writeChar c = [c] := if_neg (Ne.symm hc)
      rw [List.cons_append, TextMode.write, List.flatMap_cons, hchar]
      exact congrArg (c :: ·) (ih hl)
  have hall : ∀ ls : List Text, (∀ l ∈ ls, '\n' ∉ l) →
      fileMode.write (ls.flatMap (· ++ ['\n']))
      = ls.flatMap (· ++ ['\r', '\n']) := by
    intro ls hls
    induction ls with
    | nil => rfl
    | cons l ls ih =>
      obtain ⟨hl, hls⟩ := List.forall_mem_cons.mp hls
      rw [List.flatMap_cons, List.flatMap_cons, TextMode.write,
        List.flatMap_append]
      exact congrArg₂ (· ++ ·) (hline l hl) (ih hls)
  have hmark : ∀ l ∈ ('\uFEFF' :: line) :: lines, '\n' ∉ l := by
    obtain ⟨hl, hls⟩ := List.forall_mem_cons.mp h
    exact List.forall_mem_cons.mpr
      ⟨List.not_mem_cons_of_ne_of_not_mem (by decide) hl, hls⟩
  rw [hall _ hmark, setContent, List.flatMap_cons, List.flatMap_cons]
  rfl

/-- A line has no newline if its key and its value have none. -/
theorem newline_notMem_summaryLine {key value : String}
    (hkey : '\n' ∉ key.toList)
    (hvalue : '\n' ∉ value.toList) : '\n' ∉ summaryLine key value := by
  simp [summaryLine, hkey, hvalue]

/-- A label is a key of its own. -/
theorem Pipeline.isKey_label (p : Pipeline) :
    '\n' ∉ p.label.toList ∧ '=' ∉ p.label.toList ∧
      p.label.toList ≠ "recommended".toList := by
  cases p <;> decide

theorem newline_notMem_state (row : PipelineRow) : '\n' ∉ row.state.toList := by
  unfold PipelineRow.state
  split
  · decide
  · split <;> decide

theorem newline_notMem_summaryLines {cameraName : String}
    (hname : '\n' ∉ cameraName.toList)
    (outcome : Pipeline → PipelineOutcome) :
    ∀ l ∈ summaryLines cameraName (pipelineRows outcome), '\n' ∉ l := by
  have hrecommended :
      '\n' ∉ (recommended (pipelineRows outcome) priority).toList := by
    rw [recommended_pipelineRows]
    cases recommendation outcome with
    | none => decide
    | some p => cases p <;> decide
  have hrows : ∀ row ∈ pipelineRows outcome,
      '\n' ∉ summaryLine row.label row.state := by
    intro row hrow
    obtain ⟨p, -, rfl⟩ := List.mem_map.mp hrow
    exact newline_notMem_summaryLine p.isKey_label.1 (newline_notMem_state _)
  simp only [summaryLines, List.forall_mem_append, List.forall_mem_cons,
    List.forall_mem_map]
  exact ⟨⟨newline_notMem_summaryLine (by decide) hrecommended,
    newline_notMem_summaryLine (by decide) hname,
    by decide, List.forall_mem_nil _⟩, hrows⟩

/-- Lines of other keys leave the mode as it was. -/
theorem foldl_readSummaryLine {lines : List Text} {m : Mode}
    (h : ∀ l ∈ lines, readSummaryLine m l = m) :
    lines.foldl readSummaryLine m = m := by
  induction lines with
  | nil => rfl
  | cons l lines ih =>
    obtain ⟨hl, hlines⟩ := List.forall_mem_cons.mp h
    rw [List.foldl_cons, hl, ih hlines]

/-- No line of the summary is the one that is looked for: the mark belongs to
the key of the first. -/
theorem otherLine_summaryLines (cameraName : String)
    (outcome : Pipeline → PipelineOutcome) :
    ∃ line lines,
      summaryLines cameraName (pipelineRows outcome) = line :: lines ∧
      ∀ l ∈ ('\uFEFF' :: line) :: lines, OtherLine l := by
  have hother : ∀ {key value : String}, '=' ∉ key.toList → key ≠ "recommended" →
      OtherLine (summaryLine key value) := fun heq hne =>
    ⟨_, _, rfl, heq, fun h => hne (String.toList_inj.mp h)⟩
  have hrows : ∀ row ∈ pipelineRows outcome,
      OtherLine (summaryLine row.label row.state) := by
    intro row hrow
    obtain ⟨p, -, rfl⟩ := List.mem_map.mp hrow
    exact ⟨_, _, rfl, p.isKey_label.2.1, p.isKey_label.2.2⟩
  refine ⟨_, _, List.cons_append, ?_⟩
  simp only [List.forall_mem_cons, List.forall_mem_append, List.forall_mem_map]
  exact ⟨⟨'\uFEFF' :: "recommended".toList, _, rfl, by decide, by decide⟩,
    ⟨hother (by decide) (by decide), hother (by decide) (by decide),
      List.forall_mem_nil _⟩, hrows⟩

/-- **The recommendation does not survive**: whatever works and whatever the
name of the camera, the summary that was written is read as one without a
recommendation. -/
theorem loadProbeResult_probeCameraScript {ops : FileOps} (hops : ops.Succeeds)
    (files : ProbeFiles) {cameraName : String}
    (hname : '\n' ∉ cameraName.toList)
    (outcome : Pipeline → PipelineOutcome) :
    loadProbeResult ops (probeCameraScript files cameraName outcome) cameraName
      = .ok (some
        { sourcePath := slugifyName cameraName ++ ".summary.txt".toList
          recommended := .unknown }) := by
  obtain ⟨hexists, hreadable, -⟩ := hops
  obtain ⟨line, lines, hsummary, hothers⟩ :=
    otherLine_summaryLines cameraName outcome
  have hnewline := hsummary ▸ newline_notMem_summaryLines hname outcome
  have hbreaks : ∀ l ∈ ('\uFEFF' :: line) :: lines, '\n' ∉ l := by
    obtain ⟨hl, hls⟩ := List.forall_mem_cons.mp hnewline
    exact List.forall_mem_cons.mpr
      ⟨List.not_mem_cons_of_ne_of_not_mem (by decide) hl, hls⟩
  have hread : (getlines (fileMode.read
      (setContent (summaryLines cameraName (pipelineRows outcome))))).foldl
        readSummaryLine .unknown = .unknown := by
    rw [hsummary, setContent_eq_write hnewline, TextMode.read_write]
    refine foldl_readSummaryLine (fun l hl => ?_)
    obtain ⟨line', hmem, hprefix⟩ :=
      exists_prefix_of_mem_getlines hbreaks (List.takeWhile_prefix _) hl
    exact readSummaryLine_of_prefix (hothers line' hmem) hprefix _
  rw [loadProbeResult, hexists, probeCameraScript, changeExtension_reportName]
  simp only [hreadable, if_true, Function.update_self, Option.map_some, hread]

end WebcamStreamer
