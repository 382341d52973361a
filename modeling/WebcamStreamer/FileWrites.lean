import WebcamStreamer.JsonWriter
import WebcamStreamer.OutputStream
import WebcamStreamer.Overrides
import WebcamStreamer.RuntimeConfig
import WebcamStreamer.SettingsReaders

/-!
# What a write leaves behind

Three functions write a file whole: `SaveSettings`, `SaveOverride` and
`writeRuntimeYml`. Each truncates the file, inserts the new text and returns a
flag. A handover of the stream's buffer can fail after any number of bytes, the
last one when the stream is destroyed and nobody looks any more, and the process
can die anywhere.

The three differ in what the flag is about. `SaveSettings` and `writeRuntimeYml`
ask once, after the open; `SaveOverride` asks once more before the stream is
closed. What the caller may want to rely on is `KeepsPromise`: success means
that the new bytes are there, and anything else that the old ones are.

The rest of the development works with what the files say: a document, the
characters of an override, the viewer entry of the runtime file. Each of these
is what the bytes of this module come to, over one call
(`saveSettingsBytes_runs`, `saveOverrideBytes_runs`) or, for the runtime file,
over a whole run (`describes_bootRun`).
-/

namespace WebcamStreamer

/-! ## One write

A call is cut off in one of two ways: the stream fails and the call goes on,
or the process dies and nothing else happens. What the file then holds is the
beginning of the new text or the old one, and what the caller is told depends
on when the stream is asked. -/

/-- What becomes of a call that writes. -/
inductive WriteFate where
  /-- The call gets to its end, and this is what the stream did. -/
  | runs (w : WriteOutcome)
  /-- The process dies, before the file is truncated or when that many bytes
  have arrived. -/
  | dies (reached : Option ℕ)
  deriving DecidableEq

/-- What a call leaves: the flag it returned, if it returned, and the bytes of
the file. -/
structure Left where
  flag : Option Bool
  file : Option Bytes
  deriving DecidableEq

/-- A call that opens the stream with `trunc`, inserts the bytes and returns
`reports` of the stream. -/
def truncatingWrite (reports : WriteOutcome → Bool) (old : Option Bytes)
    (new : Bytes) : WriteFate → Left
  | .runs w => ⟨some (reports w), w.contents old new⟩
  | .dies none => ⟨none, old⟩
  | .dies (some n) => ⟨none, some (new.take n)⟩

/-- A flag that only says whether the stream opened. -/
def reportsOpened (w : WriteOutcome) : Bool := decide (w ≠ .openFailed)

/-- The write is safe: nothing is cut off behind the flag's back, and what is
cut off knowingly, or by the end of the process, leaves what was there
before. -/
def WriteFate.Safe (reports : WriteOutcome → Bool) (old : Option Bytes)
    (new : Bytes) : WriteFate → Prop
  | .runs (.stopped n noticed) =>
    if reports (.stopped n noticed) then
      new.length ≤ n
    else old = some (new.take n)
  | .dies (some n) => old = some (new.take n)
  | _ => True

/-- A call that writes a file: the bytes it is going to write, or, where it
gives up before it opens the stream, the flag it returns instead (no flag is an
exception); and what it reports of the stream. -/
structure FileWriter where
  contents : Option Bytes
  givesUp : Option Bool
  reports : WriteOutcome → Bool
  givesUp_ne : givesUp ≠ some true
  reports_openFailed : reports .openFailed = false
  reports_complete : reports .complete = true

namespace FileWriter

/-- What the call leaves of a file. -/
def call (w : FileWriter) (fate : WriteFate) (old : Option Bytes) : Left :=
  match w.contents with
  | none => ⟨w.givesUp, old⟩
  | some new => truncatingWrite w.reports old new fate

/-- **What a caller relies on**: after `true` the file has the new bytes, and
without it the old ones. A call that returns no flag, since the process died
in it, counts with `false`: what is found afterwards has to be the old
file. -/
structure KeepsPromise (w : FileWriter) (old : Option Bytes) (left : Left) :
    Prop where
  complete : left.flag = some true → left.file = w.contents
  kept : left.flag ≠ some true → left.file = old

/-- **The condition**: the write of what the call is going to write is safe. A
call that has nothing to write, since its contents could not be made, survives
for that reason. -/
def Survives (w : FileWriter) (old : Option Bytes) (fate : WriteFate) : Prop :=
  ∀ new, w.contents = some new → fate.Safe w.reports old new

variable {w : FileWriter} {old : Option Bytes} {new : Bytes}

theorem call_eq (hnew : w.contents = some new) (fate : WriteFate) :
    w.call fate old = truncatingWrite w.reports old new fate := by
  rw [call, hnew]

/-- A call that does not report success keeps its promise where the file
stays. -/
theorem keepsPromise_iff_of_ne {left : Left} (h : left.flag ≠ some true) :
    w.KeepsPromise old left ↔ left.file = old :=
  ⟨fun hkeeps => hkeeps.kept h,
    fun hfile => ⟨fun htrue => absurd htrue h, fun _ => hfile⟩⟩

/-- A call that reports success keeps its promise where the bytes are there. -/
theorem keepsPromise_iff_of_eq {left : Left} (h : left.flag = some true) :
    w.KeepsPromise old left ↔ left.file = w.contents :=
  ⟨fun hkeeps => hkeeps.complete h,
    fun hfile => ⟨fun _ => hfile, fun hne => absurd h hne⟩⟩

/-- **A call keeps its promise exactly if** its write survives. The fate is
any number of bytes that reach the disk, with or without an error that the
writer gets to see. -/
theorem keepsPromise_call_iff (w : FileWriter) (old : Option Bytes)
    (fate : WriteFate) :
    w.KeepsPromise old (w.call fate old) ↔ w.Survives old fate := by
  unfold Survives
  cases hnew : w.contents with
  | none =>
    rw [call, hnew]
    exact iff_of_true ((keepsPromise_iff_of_ne w.givesUp_ne).mpr rfl) (by simp)
  | some new =>
    rw [call_eq hnew]
    simp only [Option.some.injEq, forall_eq']
    cases fate with
    | runs outcome =>
      cases outcome with
      | openFailed =>
        refine iff_of_true ((keepsPromise_iff_of_ne ?_).mpr rfl) trivial
        rw [truncatingWrite, w.reports_openFailed]
        exact fun h => Bool.noConfusion (Option.some.inj h)
      | complete =>
        refine iff_of_true ((keepsPromise_iff_of_eq ?_).mpr hnew.symm) trivial
        rw [truncatingWrite, w.reports_complete]
      -- the stream has lost bytes, and all depends on whether the writer asks
      -- it after it has noticed
      | stopped n noticed =>
        cases hflag : w.reports (.stopped n noticed) with
        | true =>
          rw [keepsPromise_iff_of_eq (congrArg some hflag), WriteFate.Safe,
            hflag, if_pos rfl, hnew]
          exact Option.some_inj.trans (List.take_eq_self_iff new)
        | false =>
          rw [keepsPromise_iff_of_ne, WriteFate.Safe, hflag,
            if_neg Bool.false_ne_true]
          · exact eq_comm
          · rw [truncatingWrite, hflag]
            exact fun h => Bool.noConfusion (Option.some.inj h)
    -- nobody is told anything, and the old file has to be there still
    | dies reached =>
      cases reached with
      | none =>
        exact iff_of_true
          ((keepsPromise_iff_of_ne (by simp [truncatingWrite])).mpr rfl) trivial
      | some n =>
        rw [keepsPromise_iff_of_ne (by simp [truncatingWrite])]
        exact eq_comm

end FileWriter

/-! ## The ways in which a stream can fail

The outcomes of a write are not an assumption about streams but a consequence
of one: of a model in which elements go through a buffer, flushes can fail at
any point, and closing flushes what is left. Every outcome can happen, and
nothing else can. -/

section Streams

open OutputStream

variable (ops : List (Op UInt8))

/-- Whatever happens to the stream before and when it is closed is one of the
outcomes. -/
theorem exists_outcome_of_stream (n : ℕ) (old : Option Bytes) :
    ∃ w : WriteOutcome, w ≠ .openFailed ∧ w.good = !(Stream.after ops).failed ∧
      w.contents old (inserted ops) = some ((Stream.after ops).close n) := by
  refine ⟨.stopped ((Stream.after ops).close n).length
    (Stream.after ops).failed, ?_, rfl, ?_⟩
  · exact fun h => WriteOutcome.noConfusion h
  · exact congrArg some (List.prefix_iff_eq_take.mp
      (Stream.close_isPrefix ops n)).symm

/-- Wherever the process dies, the file is the new text up to some point. -/
theorem exists_reached_of_stream {ops' : List (Op UInt8)} (h : ops' <+: ops) :
    ∃ n, (Stream.after ops').written = (inserted ops).take n :=
  ⟨_, List.prefix_iff_eq_take.mp (Stream.written_isPrefix h)⟩

/-- Every outcome of a stream that opened can happen, a failure being noticed
only when something is missing. -/
theorem exists_stream_of_outcome {w : WriteOutcome} (hopen : w ≠ .openFailed)
    {new : Bytes}
    (hmissing : ∀ n, w = .stopped n true → n < new.length)
    (old : Option Bytes) :
    ∃ ops n, inserted ops = new ∧ w.good = !(Stream.after ops).failed ∧
      w.contents old new = some ((Stream.after ops).close n) := by
  have hinserted : inserted [Op.insert new] = new := by
    simp [inserted, Op.chunk]
  have hone : ∀ n, (Stream.after [Op.insert new]).close n = new.take n := by
    intro n
    rcases Nat.lt_or_ge n new.length with hlt | hle
    · show (Stream.apply ⟨[], [] ++ new, false⟩ (.flush n)).written = _
      rw [Stream.apply, if_neg Bool.false_ne_true, List.nil_append,
        if_neg (Nat.not_le.mpr hlt)]
      rfl
    · rw [Stream.close_of_le rfl hle, hinserted, List.take_of_length_le hle]
  cases w with
  | openFailed => exact absurd rfl hopen
  | complete =>
    refine ⟨[.insert new], new.length, hinserted, rfl, ?_⟩
    rw [hone, List.take_length]
    rfl
  | stopped n noticed =>
    cases noticed with
    | false => exact ⟨[.insert new], n, hinserted, rfl, by rw [hone]; rfl⟩
    | true =>
      have hn : ¬ new.length ≤ n := Nat.not_le.mpr (hmissing n rfl)
      have hafter : Stream.after [Op.insert new, .flush n] = ⟨new.take n,
          [], true⟩ := by
        show Stream.apply ⟨[], [] ++ new, false⟩ (.flush n) = _
        rw [Stream.apply, if_neg Bool.false_ne_true, List.nil_append, if_neg hn]
        rfl
      refine ⟨[.insert new, .flush n], 0, by simp [inserted, Op.chunk], ?_, ?_⟩
      · rw [hafter]
        rfl
      · rw [hafter]
        rfl

end Streams

/-! ## The three writers

The three functions of the source differ in what they ask of the stream and
when. Each is written as the same call with its own bytes and its own
question, and gives up before it opens the stream in its own way. -/

/-- The characters of a file for a reader of lines, to which no byte decides
anything that is not ASCII. -/
def fileText (file : Option Bytes) : Option Text := file.map Utf8.lenient

/-- The JSON library between documents and texts. -/
structure JsonText extends JsonParser where
  /-- `dump(2)`, which writes something whatever the document is. -/
  dump : Json String → Text
  dump_ne_nil : ∀ j, dump j ≠ []

/-- There is such a library: the reader and the writer of this development. -/
instance : Inhabited JsonText where
  default :=
    { JsonParser.reader with
      dump := fun j => Utf8.lenient (JsonWriter.text (JsonWriter.inUtf8 j))
      dump_ne_nil := fun _ => Utf8.lenient_ne_nil (JsonWriter.text_ne_nil _) }

/-- The document that `SaveSettings` finds in a file. -/
def JsonText.file (lib : JsonText) : Option Bytes → JsonFile :=
  JsonParser.file lib.readByLoadSettings

/-- What `SaveSettings` writes, in text mode. -/
def settingsBytes (lib : JsonText) (ops : FileOps) (file : Option Bytes)
    (s : Settings) : Bytes :=
  Utf8.encode (fileMode.write
    (lib.dump (mergeSettings (membersToMerge ops (lib.file file)) s)))

/-- `SaveSettings` gives up with the exception of the existence test. -/
def settingsWriter (lib : JsonText) (ops : FileOps) (file : Option Bytes)
    (s : Settings) : FileWriter where
  contents :=
    if ops.existsThrows = none then
      some (settingsBytes lib ops file s)
    else none
  givesUp := none
  reports := reportsOpened
  givesUp_ne := by decide
  reports_openFailed := rfl
  reports_complete := rfl

/-- `SaveSettings`, byte by byte. -/
def saveSettingsBytes (lib : JsonText) (ops : FileOps) (fate : WriteFate)
    (file : Option Bytes) (s : Settings) : Left :=
  (settingsWriter lib ops file s).call fate file

/-- `SaveOverride` gives up with the exception of the existence test, and asks
the stream again after the last insertion. -/
def overrideWriter (ops : FileOps) (file : Option Bytes) (name : String)
    (update : CameraOverride) : FileWriter where
  contents := match loadOverride ops (fileText file) with
    | .error _ => none
    | .ok existing =>
      some (Utf8.encode (((existing.getD {}).overlay update).toText name))
  givesUp := none
  reports := WriteOutcome.good
  givesUp_ne := by decide
  reports_openFailed := rfl
  reports_complete := rfl

/-- `SaveOverride`, byte by byte. -/
def saveOverrideBytes (ops : FileOps) (fate : WriteFate) (file : Option Bytes)
    (name : String) (update : CameraOverride) : Left :=
  (overrideWriter ops file name update).call fate file

/-- What `writeRuntimeYml` writes, in text mode. -/
def runtimeBytes (template hook : Text) (c : Credentials) : Bytes :=
  Utf8.encode (fileMode.write (substituted template hook c))

/-- `writeRuntimeYml` gives up where the template cannot be read, and with an
exception where the path of the hook has no narrow form. -/
def runtimeYmlWriter (template : Option Text) (codePage : CodePage)
    (hookExe : Text)
    (c : Credentials) : FileWriter where
  contents := template.bind (fun template =>
    (codePage.narrow hookExe).map (fun hook => runtimeBytes template hook c))
  givesUp := if template = none then some false else none
  reports := reportsOpened
  givesUp_ne := by split <;> decide
  reports_openFailed := rfl
  reports_complete := rfl

/-- `writeRuntimeYml`, byte by byte. -/
def writeRuntimeYmlBytes (template : Option Text) (codePage : CodePage)
    (hookExe : Text) (c : Credentials) (fate : WriteFate)
    (file : Option Bytes) : Left :=
  (runtimeYmlWriter template codePage hookExe c).call fate file

/-! ### The same calls on what the files say

Elsewhere the files are known by what they say: as documents, or as texts of
which only the ASCII characters matter. Here the calls on bytes are shown to
be those calls, where a write that stops in the middle of a character leaves
another text than any beginning of the characters. -/

/-- The same operations, where a write that stops does so at another place. -/
def FileOps.cutAt (ops : FileOps) (n : ℕ) : FileOps :=
  { ops with
    write := match ops.write with
      | .stopped _ noticed => .stopped n noticed
      | w => w }

/-- A call that gets to its end leaves the characters of `saveOverride`. Where
the bytes stop in the middle of a character, a replacement character stands
behind them. -/
theorem saveOverrideBytes_runs {ops : FileOps}
    (hthrow : ops.existsThrows = none)
    (file : Option Bytes) (name : String) (update : CameraOverride) :
    let left := saveOverrideBytes ops (.runs ops.write) file name update
    ∃ n file', left.flag = some ops.write.good ∧
      saveOverride (ops.cutAt n) (fileText file) name update
        = .ok (ops.write.good, file') ∧
      (fileText left.file = file' ∨
        fileText left.file = file'.map (· ++ [Utf8.replacement])) := by
  have hload : ∀ n, loadOverride (ops.cutAt n) (fileText file)
      = .ok (if ops.readable then (fileText file).map CameraOverride.ofText
        else none) := by
    intro n
    rw [loadOverride, FileOps.cutAt, hthrow]
  set existing :=
    if ops.readable then (fileText file).map CameraOverride.ofText else none
  set new := ((existing.getD {}).overlay update).toText name
  have hcall : saveOverrideBytes ops (.runs ops.write) file name update
      = truncatingWrite WriteOutcome.good file (Utf8.encode new)
        (.runs ops.write) := by
    refine FileWriter.call_eq ?_ _
    rw [overrideWriter, loadOverride, hthrow]
  rw [hcall]
  simp only [saveOverride, hload]
  cases hwrite : ops.write with
  | openFailed =>
    refine ⟨0, fileText file, rfl, ?_, .inl rfl⟩
    rw [FileOps.cutAt, hwrite]
    rfl
  | complete =>
    refine ⟨0, some new, rfl, ?_,
      .inl (congrArg some (Utf8.lenient_encode new))⟩
    rw [FileOps.cutAt, hwrite]
    rfl
  | stopped n noticed =>
    -- bytes may stop within a character, which is then read as the replacement
    obtain ⟨m, hm⟩ := Utf8.lenient_take (Utf8.encode new) n
    rw [Utf8.lenient_encode] at hm
    refine ⟨m, some (new.take m), rfl, ?_,
      hm.imp (congrArg some) (congrArg some)⟩
    rw [FileOps.cutAt, hwrite]
    rfl

/-- A call that gets to its end leaves what `saveSettings` says of the
documents, where the library reads back what it writes, and no proper beginning
of it. -/
theorem saveSettingsBytes_runs {lib : JsonText} {ops : FileOps}
    {file : Option Bytes} {s : Settings} (hthrow : ops.existsThrows = none)
    (hback : lib.readByLoadSettings (settingsBytes lib ops file s)
      = some (mergeSettings (membersToMerge ops (lib.file file)) s))
    (hcut : ∀ n noticed, ops.write = .stopped n noticed →
      lib.readByLoadSettings ((settingsBytes lib ops file s).take n) = none) :
    let left := saveSettingsBytes lib ops (.runs ops.write) file s
    ∃ flag, left.flag = some flag ∧
      saveSettings ops (lib.file file) s = .ok (flag, lib.file left.file) := by
  have hcall : saveSettingsBytes lib ops (.runs ops.write) file s
      = truncatingWrite reportsOpened file (settingsBytes lib ops file s)
          (.runs ops.write) :=
    FileWriter.call_eq (if_pos hthrow) _
  refine ⟨reportsOpened ops.write, by rw [hcall]; rfl, ?_⟩
  rw [hcall, saveSettings, hthrow]
  refine congrArg (fun file' => Except.ok (reportsOpened ops.write, file')) ?_
  cases hwrite : ops.write with
  | openFailed => rfl
  | complete =>
    show _ = (lib.readByLoadSettings _).elim _ _
    rw [hback]
    rfl
  | stopped n noticed =>
    show _ = (lib.readByLoadSettings _).elim _ _
    rw [hcut n noticed hwrite]
    rfl

/-! ### The runtime file over a run

The supervisor model keeps of the runtime file only which credentials it has
or that it was cut off. That this is true of the bytes on the disk is shown
for all runs at once, by following the calls that the run makes. -/

/-- What the supervisor knows of the runtime file is true of its bytes. -/
def RuntimeYml.Describes (template hook : Text) :
    RuntimeYml → Option Bytes → Prop
  | .missing, file => file = none
  | .truncated, file =>
    ∃ c n, file = some ((runtimeBytes template hook c).take n)
  | .viewer entry, file =>
    ∃ c, substitutedEntry c = entry ∧ file = some (runtimeBytes template hook c)

/-- `writeRuntimeYml` on what the supervisor knows, call by call. -/
def runtimeYmlAfter (calls : List (FileOps × Credentials)) (yml : RuntimeYml) :
    RuntimeYml :=
  calls.foldl (fun yml call => (writeRuntimeYml call.1 yml call.2).2) yml

section Runtime

variable (template : Text) (codePage : CodePage) (hookExe : Text)

/-- One call of `writeRuntimeYml` that gets to its end, on the bytes. -/
def runtimeCall (call : FileOps × Credentials) (file : Option Bytes) : Left :=
  writeRuntimeYmlBytes
    (if call.1.readable then some template else none) codePage
    hookExe call.2 (.runs call.1.write) file

/-- `writeRuntimeYml` on the bytes, call by call. -/
def runtimeFileAfter (calls : List (FileOps × Credentials))
    (file : Option Bytes) : Option Bytes :=
  calls.foldl (fun file call =>
    (runtimeCall template codePage hookExe call file).file) file

variable {template codePage hookExe} {hook : Text} {old : RuntimeYml}
  {file : Option Bytes} (hhook : codePage.narrow hookExe = some hook)
include hhook

/-- **One call**: the flag is that of the bytes, and what the supervisor knows
stays true. This is how the model with bytes and the model the supervisor
works with are connected, for a single call. -/
theorem describes_runtimeCall (h : old.Describes template hook file)
    (call : FileOps × Credentials) :
    let left := runtimeCall template codePage hookExe call file
    left.flag = some (writeRuntimeYml call.1 old call.2).1 ∧
      (writeRuntimeYml call.1 old call.2).2.Describes template hook
        left.file := by
  obtain ⟨ops, c⟩ := call
  cases hread : ops.readable with
  | false =>
    rw [runtimeCall, writeRuntimeYml, hread]
    exact ⟨rfl, h⟩
  | true =>
    have hcall : writeRuntimeYmlBytes (some template) codePage hookExe c
          (.runs ops.write) file
        = truncatingWrite reportsOpened file (runtimeBytes template hook c)
            (.runs ops.write) :=
      FileWriter.call_eq (congrArg (Option.map _) hhook) _
    rw [runtimeCall, writeRuntimeYml, hread, if_pos rfl, if_pos rfl, hcall]
    cases ops.write with
    | openFailed => exact ⟨rfl, h⟩
    | stopped n noticed => exact ⟨rfl, c, n, rfl⟩
    | complete => exact ⟨rfl, c, rfl, rfl⟩

theorem describes_runtimeFileAfter (calls : List (FileOps × Credentials))
    (h : old.Describes template hook file) :
    (runtimeYmlAfter calls old).Describes template hook
      (runtimeFileAfter template codePage hookExe calls file) := by
  induction calls generalizing old file with
  | nil => exact h
  | cons call calls ih => exact ih (describes_runtimeCall hhook h call).2

end Runtime

/-- **What a step does to the runtime file**: nothing, or one call with the
credentials that are in memory behind it. In particular a step writes the file
at most once, and with nothing but the pair that is in memory after it. -/
theorem runtimeYml_next {sup sup' : Supervisor} {st : Step}
    (h : next sup st = some sup') :
    sup'.disk.runtimeYml = sup.disk.runtimeYml ∨
      sup'.disk.runtimeYml
        = (writeRuntimeYml st.env.ymlOps sup.disk.runtimeYml
          sup'.settings.viewer).2 := by
  obtain ⟨out, hout, rfl⟩ := Option.map_eq_some_iff.mp h
  cases stepsTo_of_step hout with
  | served ha heq hserved =>
    cases hserved with
    | credentialsSet hm hu hu0 hp hp0 hsave hyml ht =>
      subst ht
      exact .inr (congrArg Prod.snd hyml).symm
    | _ => exact .inl rfl
  | tick => exact .inl (congrArg Disk.runtimeYml (Supervisor.disk_tick _ _))
  | _ => exact .inl rfl

/-- The calls of a run, with what the system did at each of them. -/
theorem exists_runtimeYmlAfter {sup sup' : Supervisor} {steps : List Step}
    (h : Runs.run next sup steps = some sup') :
    ∃ calls : List (FileOps × Credentials),
      (calls.map Prod.fst).Sublist (steps.map (fun st => st.env.ymlOps)) ∧
      sup'.disk.runtimeYml = runtimeYmlAfter calls sup.disk.runtimeYml := by
  induction steps generalizing sup with
  | nil =>
    obtain rfl := Option.some.inj h
    exact ⟨[], List.Sublist.refl _, rfl⟩
  | cons st steps ih =>
    obtain ⟨sup₁, hnext, hrest⟩ := Runs.run_cons_iff.mp h
    obtain ⟨calls, hsub, hafter⟩ := ih hrest
    rcases runtimeYml_next hnext with hstays | hcall
    · exact ⟨calls, hsub.cons _, hstays ▸ hafter⟩
    · refine ⟨(st.env.ymlOps, sup₁.settings.viewer) :: calls,
        hsub.cons_cons _, ?_⟩
      rw [hafter, hcall]
      rfl

/-- **The supervisor's copy of the runtime file is derived from the bytes**: in
every reachable state it describes what the calls of the run, the first one at
start-up, have left of whatever file there was before. -/
theorem describes_bootRun {b : Boot} {steps : List Step} {sup : Supervisor}
    (h : bootRun b steps = some sup) {template hook hookExe : Text}
    {codePage : CodePage} (hhook : codePage.narrow hookExe = some hook)
    {file : Option Bytes}
    (hfile : b.disk.runtimeYml.Describes template hook file) :
    ∃ calls : List (FileOps × Credentials),
      (calls.map Prod.fst).Sublist
        (b.env.ymlOps :: steps.map (fun st => st.env.ymlOps)) ∧
      sup.disk.runtimeYml.Describes template hook
        (runtimeFileAfter template codePage hookExe calls file) := by
  obtain ⟨sup₀, hboot, hrun⟩ := bootRun_eq_some.mp h
  obtain ⟨settings, settingsFile, yml, slots, -, hyml, -, rfl⟩ :=
    startUp_spec hboot
  obtain ⟨calls, hsub, hafter⟩ := exists_runtimeYmlAfter hrun
  refine ⟨(b.env.ymlOps, settings.viewer) :: calls, hsub.cons_cons _, ?_⟩
  have hall : sup.disk.runtimeYml
      = runtimeYmlAfter ((b.env.ymlOps,
        settings.viewer) :: calls) b.disk.runtimeYml := by
    rw [hafter]
    exact congrArg (runtimeYmlAfter calls) (congrArg Prod.snd hyml).symm
  exact hall ▸ describes_runtimeFileAfter hhook _ hfile

/-! ### When the calls keep their promise

The promise is the one that the comments at the declarations make: after
`true` the file has the new contents, and after `false` the old ones. The
condition is about the stream and the moment of death alone, and the
counterexample is a full disk. -/

/-- **The three writers keep their promise exactly if** their write survives:
nothing may be missing when `SaveSettings` or `writeRuntimeYml` opened the
stream, or when `SaveOverride` found it good; and where `SaveOverride` found it
bad, or the process died, the beginning that arrived has to be the old file. -/
theorem writers_keepPromise_iff (fate : WriteFate) (file : Option Bytes)
    (ops : FileOps) (lib : JsonText) (s : Settings) (name : String)
    (update : CameraOverride) (template : Option Text) (codePage : CodePage)
    (hookExe : Text) (c : Credentials) :
    ((settingsWriter lib ops file s).KeepsPromise file
          (saveSettingsBytes lib ops fate file s) ↔
        (settingsWriter lib ops file s).Survives file fate) ∧
      ((overrideWriter ops file name update).KeepsPromise file
          (saveOverrideBytes ops fate file name update) ↔
        (overrideWriter ops file name update).Survives file fate) ∧
      ((runtimeYmlWriter template codePage hookExe c).KeepsPromise file
          (writeRuntimeYmlBytes template codePage hookExe c fate file) ↔
        (runtimeYmlWriter template codePage hookExe c).Survives file fate) :=
  ⟨FileWriter.keepsPromise_call_iff _ _ _,
    FileWriter.keepsPromise_call_iff _ _ _,
    FileWriter.keepsPromise_call_iff _ _ _⟩

/-- A full disk: the file is there, empty, and each of the three returns `true`;
the process dies: the file is there, empty, without a flag. -/
theorem writers_keepPromise_false :
    let full : WriteFate := .runs (.stopped 0 false)
    let old := some (Utf8.encode "camera=Cam 1\nfps=15\n".toList)
    let template := some "user: __VIEWER_USER__".toList
    (∀ lib : JsonText, ¬ (settingsWriter lib {} none {}).KeepsPromise none
        (saveSettingsBytes lib {} full none {})) ∧
      ¬ (overrideWriter {} old "Cam 1" { width := some 640 }).KeepsPromise old
        (saveOverrideBytes {} full old "Cam 1" { width := some 640 }) ∧
      ¬ (overrideWriter {} old "Cam 1" { width := some 640 }).KeepsPromise old
        (saveOverrideBytes {} (.dies (some 0)) old "Cam 1"
            { width := some 640 }) ∧
      ¬ (runtimeYmlWriter template .utf8 [] ("u", "p")).KeepsPromise none
        (writeRuntimeYmlBytes template .utf8 [] ("u", "p") full none) := by
  refine ⟨fun lib h => ?_, fun h => ?_, fun h => ?_, fun h => ?_⟩
  · have hempty : [] = settingsBytes lib {} none {} :=
      Option.some.inj (h.complete rfl)
    have htext :=
      congrArg (fun bytes => fileMode.newlines (Utf8.lenient bytes)) hempty
    simp only [settingsBytes, Utf8.lenient_encode,
      TextMode.newlines_write] at htext
    exact lib.dump_ne_nil _ htext.symm
  · exact absurd (h.complete rfl) (by decide)
  · exact absurd (h.kept (by decide)) (by decide)
  · exact absurd (h.complete rfl) (by decide)

end WebcamStreamer
