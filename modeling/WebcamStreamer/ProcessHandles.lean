import WebcamStreamer.Process
import WebcamStreamer.ResourceLedger
import WebcamStreamer.Runs

/-!
# The handles of a supervised process

A `SupervisedProcess` is started and stopped again and again, and a start takes
up to four handles from the operating system: two for the process, two for the
pipe that its output goes through. What can fail on the way is the pipe, the
process and the thread that reads the pipe, and each of these exits has
something else to give back.

Handles are numbered as they are taken. Windows may give a later handle the
value of one that was closed, but nothing here looks at the value of a handle,
apart from whether there is one. Calls that neither take nor close a handle are
left out.
-/

namespace WebcamStreamer

/-! ## The object

A start may take a pipe, a process with its first thread, and a thread of its
own that reads the pipe. Each of them can be missing, and the constructor of a
thread throws when the system has none left, in the middle of `Start`. -/

/-- A `HANDLE`, by the number of handles that were taken before it. -/
abbrev Handle := ℕ

/-- `class SupervisedProcess`, with everything it holds: the fields, whether
there is a callback for the output, what `GetExitCodeProcess` finds behind
`proc_`, and the ledger of the handles. A thread that was started and not joined
is joinable. -/
structure ProcessHandles where
  onStdoutLine : Bool
  proc : Option Handle := none
  thread : Option Handle := none
  pid : ℕ := 0
  stdoutRead : Option Handle := none
  stdoutWrite : Option Handle := none
  stdoutReader : Bool := false
  stdoutStop : Bool := false
  child : ChildState := .exited 0
  ledger : ResourceLedger := {}
  deriving DecidableEq

/-- `PROCESS_INFORMATION`, as far as it is not a handle. No process has the
identifier 0. -/
structure Created where
  pid : ℕ
  pid_ne_zero : pid ≠ 0
  deriving DecidableEq

/-- What one call of `Start` meets: whether there is a pipe, a process and a
thread to be had. -/
structure StartMeets where
  pipe : Bool := true
  created : Option Created
  reader : Bool := true

/-- The process that `Start` gets to create: none if it needs a pipe and there
is none. -/
def StartMeets.process (m : StartMeets) (onStdoutLine : Bool) :
    Option Created :=
  if onStdoutLine && !m.pipe then none else m.created

/-- How `Start` ends. -/
inductive StartResult where
  | returned (ok : Bool)
  | threw
  deriving DecidableEq

namespace ProcessHandles

/-- `if (thread_) { CloseHandle(thread_); thread_ = nullptr; }` -/
def closeThread (p : ProcessHandles) : ProcessHandles :=
  { p with thread := none, ledger := p.ledger.releaseHeld p.thread }

/-- The same for `proc_`. -/
def closeProc (p : ProcessHandles) : ProcessHandles :=
  { p with proc := none, ledger := p.ledger.releaseHeld p.proc }

/-- The same for `stdout_read_`. -/
def closeRead (p : ProcessHandles) : ProcessHandles :=
  { p with stdoutRead := none, ledger := p.ledger.releaseHeld p.stdoutRead }

/-- The same for `stdout_write_`. -/
def closeWrite (p : ProcessHandles) : ProcessHandles :=
  { p with stdoutWrite := none, ledger := p.ledger.releaseHeld p.stdoutWrite }

/-- A `CreatePipe` that succeeds. -/
def createPipe (p : ProcessHandles) : ProcessHandles :=
  { p with
    stdoutRead := some p.ledger.taken
    stdoutWrite := some (p.ledger.taken + 1)
    ledger := p.ledger.take.take }

/-- A `CreateProcessW` that succeeds. -/
def createProcess (p : ProcessHandles) (c : Created) : ProcessHandles :=
  { p with
    proc := some p.ledger.taken
    thread := some (p.ledger.taken + 1)
    pid := c.pid
    child := .alive
    ledger := p.ledger.take.take }

/-- `IsRunning`. -/
def isRunning (p : ProcessHandles) : Bool :=
  p.proc.isSome && match p.child with
    | .alive => true
    | .exited code => code == 259

/-- `Stop`. -/
def stop (p : ProcessHandles) : ProcessHandles :=
  if p.proc.isNone then p
  else
    let p := if p.isRunning then { p with child := .exited 1 } else p
    let p := p.closeThread.closeProc
    let p := { p with pid := 0 }
    if p.stdoutReader then
      let p := { p with stdoutStop := true }.closeRead
      -- `join` waits for the thread
      { p with stdoutReader := false }
    else p.closeRead

/-- The thread that reads the pipe; `none` is `std::terminate`, where a thread
is put in the place of one that is still joinable. -/
def startReader (p : ProcessHandles) (reader : Bool) :
    Option (ProcessHandles × StartResult) :=
  let p := { p with stdoutStop := false }
  if reader = false then some (p, .threw)
  else if p.stdoutReader then none
  else some ({ p with stdoutReader := true }, .returned true)

/-- `Start` once the pipe is there, or none is asked for. -/
def startPiped (p : ProcessHandles) (m : StartMeets) :
    Option (ProcessHandles × StartResult) :=
  match m.created with
  | none => some (p.closeRead.closeWrite, .returned false)
  | some c =>
    let p := (p.createProcess c).closeWrite
    if p.onStdoutLine && p.stdoutRead.isSome then p.startReader m.reader
    else some (p, .returned true)

/-- `Start` where there is no process any more. -/
def startNew (p : ProcessHandles) (m : StartMeets) :
    Option (ProcessHandles × StartResult) :=
  if p.onStdoutLine then
    if m.pipe then p.createPipe.startPiped m else some (p, .returned false)
  else p.startPiped m

/-- `Start`. -/
def start (p : ProcessHandles) (m : StartMeets) :
    Option (ProcessHandles × StartResult) :=
  (if p.proc.isSome then p.stop else p).startNew m

/-- The destructor; `none` is `std::terminate`, where a thread is left that is
still joinable. -/
def destroy (p : ProcessHandles) : Option ProcessHandles :=
  let p := p.stop
  if p.stdoutReader then none else some p

/-- What happens to the object. -/
inductive Action where
  | start (meets : StartMeets)
  | stop
  | destroy
  | childExit (code : UInt32)

/-- One step; `none` is `std::terminate`. -/
def step (p : ProcessHandles) : Action → Option ProcessHandles
  | .start m => (p.start m).map Prod.fst
  | .stop => some p.stop
  | .destroy => p.destroy
  | .childExit code =>
    some (if p.child = .alive then { p with child := .exited code } else p)

/-- The handles in the fields. -/
def held (p : ProcessHandles) : List Handle :=
  p.thread.toList
    ++ (p.proc.toList ++ (p.stdoutWrite.toList ++ p.stdoutRead.toList))

/-- **What holds of the object between two calls.** What is owned is told by
the handles that are set, so that closing one without forgetting it would show
here. -/
structure Tidy (p : ProcessHandles) : Prop where
  /-- The process, its thread and its identifier are set together. -/
  set_or_clear : p.proc ≠ none ∧ p.thread ≠ none ∧ p.pid ≠ 0
    ∨ p.proc = none ∧ p.thread = none ∧ p.pid = 0
  /-- Without a process there is no pipe and no thread that reads it. -/
  clear : p.proc = none → p.stdoutRead = none ∧ p.stdoutWrite = none ∧
    p.stdoutReader = false
  write : p.stdoutWrite = none
  /-- Every handle ever taken is in one field, or has been closed once. -/
  accounted : ∀ h < p.ledger.taken,
    p.held.count h = 1 ∧ p.ledger.released.count h = 0
      ∨ p.held.count h = 0 ∧ p.ledger.released.count h = 1
  /-- Nothing else is held or was closed. -/
  own : ∀ h ∈ p.held ++ p.ledger.released, h < p.ledger.taken
  /-- Where nothing fails, it can be started, whatever there was before. -/
  startable : ∀ m, m.pipe = true → m.created.isSome → m.reader = true →
    ∃ q, p.start m = some (q, .returned true) ∧ q.isRunning = true

/-- **What is left after `Stop` and after the destructor**: nothing is held,
nobody reads a pipe, and every handle ever taken has been closed once. -/
structure Closed (p : ProcessHandles) : Prop where
  held : p.held = []
  pid : p.pid = 0
  stdoutReader : p.stdoutReader = false
  released : ∀ h < p.ledger.taken, p.ledger.released.count h = 1

/-! ## What the calls keep

Every handle that is opened is closed once, and between two calls there is
either nothing or a process with what belongs to it. This is an invariant
about the handles that have numbers, so that closing one twice would be
seen. -/

/-- The ledger is balanced with the fields. -/
def Balanced (p : ProcessHandles) : Prop := p.ledger.Balanced p.held

/-- Nothing is held. -/
structure Cleared (p : ProcessHandles) : Prop where
  proc : p.proc = none
  thread : p.thread = none
  pid : p.pid = 0
  stdoutRead : p.stdoutRead = none
  stdoutWrite : p.stdoutWrite = none
  stdoutReader : p.stdoutReader = false
  balanced : p.Balanced

/-- There is a process, and no write end of a pipe. -/
structure Holding (p : ProcessHandles) : Prop where
  proc : p.proc ≠ none
  thread : p.thread ≠ none
  pid : p.pid ≠ 0
  stdoutWrite : p.stdoutWrite = none
  balanced : p.Balanced

variable {p q : ProcessHandles}

theorem Cleared.held_eq (h : p.Cleared) : p.held = [] := by
  rw [held, h.thread, h.proc, h.stdoutWrite, h.stdoutRead]
  rfl

theorem balanced_closeThread (h : p.Balanced) : p.closeThread.Balanced :=
  @ResourceLedger.Balanced.releaseHeld _ [] _ _ h

theorem balanced_closeProc (h : p.Balanced) : p.closeProc.Balanced :=
  @ResourceLedger.Balanced.releaseHeld _ p.thread.toList _ _ h

theorem balanced_closeWrite (h : p.Balanced) : p.closeWrite.Balanced := by
  unfold Balanced held at *
  rw [← List.append_assoc] at h ⊢
  exact ResourceLedger.Balanced.releaseHeld h

theorem balanced_closeRead (h : p.Balanced) : p.closeRead.Balanced := by
  unfold Balanced held at *
  rw [← List.append_nil p.stdoutRead.toList] at h
  rw [← List.append_assoc, ← List.append_assoc] at h ⊢
  exact ResourceLedger.Balanced.releaseHeld h

theorem balanced_createPipe (h : p.Cleared) : p.createPipe.Balanced := by
  have htaken : p.createPipe.held = [p.ledger.take.taken, p.ledger.taken] := by
    rw [held, createPipe, h.thread, h.proc]
    rfl
  have hb : p.ledger.Balanced [] := h.held_eq ▸ h.balanced
  rw [Balanced, htaken]
  exact hb.take.take

theorem balanced_createProcess (hproc : p.proc = none)
    (hthread : p.thread = none)
    (h : p.Balanced) (c : Created) : (p.createProcess c).Balanced := by
  have hheld : p.held = p.stdoutWrite.toList ++ p.stdoutRead.toList := by
    rw [held, hthread, hproc]
    rfl
  rw [Balanced, hheld] at h
  exact h.take.take

/-- A stop of what has a process closes everything. -/
theorem stop_eq (h : p.proc ≠ none) :
    p.stop = { p.closeThread.closeProc.closeRead with
      pid := 0
      child := if p.isRunning then .exited 1 else p.child
      stdoutReader := false
      stdoutStop := p.stdoutReader || p.stdoutStop } := by
  obtain ⟨onStdoutLine, proc, thread, pid, stdoutRead, stdoutWrite,
    stdoutReader, stdoutStop,
    child, ledger⟩ := p
  have hsome : ¬ proc.isNone = true :=
    fun hnone => h (Option.isNone_iff_eq_none.mp hnone)
  rw [stop, if_neg hsome]
  cases stdoutReader <;> split <;> rfl

theorem cleared_stop (h : p.Holding) : p.stop.Cleared := by
  rw [stop_eq h.proc]
  exact
    { proc := rfl
      thread := rfl
      pid := rfl
      stdoutRead := rfl
      stdoutWrite := h.stdoutWrite
      stdoutReader := rfl
      balanced := balanced_closeRead
        (balanced_closeProc (balanced_closeThread h.balanced)) }

theorem stop_of_cleared (h : p.Cleared) : p.stop = p :=
  if_pos (by rw [h.proc]; rfl)

/-- **What `Start` leaves behind**: nothing where it has no process, and a
process where it has; then it throws only if there is no thread to be had. -/
structure Started (p : ProcessHandles) (process : Option Created)
    (reader : Bool)
    (q : ProcessHandles) (r : StartResult) : Prop where
  onStdoutLine : q.onStdoutLine = p.onStdoutLine
  of_none : process = none → q.Cleared ∧ r = .returned false
  of_some :
    ∀ c, process = some c → q.Holding ∧ q.pid = c.pid ∧ q.child = .alive ∧
    (reader = true → r = .returned true)

/-- The place of the thread that reads the pipe is free. -/
theorem startReader_spec (h : p.Holding) (hfree : p.stdoutReader = false)
    (reader : Bool) :
    ∃ q r, p.startReader reader = some (q, r) ∧ q.Holding ∧
      q.onStdoutLine = p.onStdoutLine ∧
      q.pid = p.pid ∧ q.child = p.child ∧
      (reader = true → r = .returned true) := by
  cases reader with
  | false =>
    exact ⟨{ p with stdoutStop := false }, .threw, rfl,
      ⟨h.proc, h.thread, h.pid, h.stdoutWrite, h.balanced⟩, rfl,
      rfl, rfl, nofun⟩
  | true =>
    exact ⟨{ p with stdoutStop := false, stdoutReader := true }, .returned true,
      by simp [startReader, hfree],
      ⟨h.proc, h.thread, h.pid, h.stdoutWrite, h.balanced⟩, rfl,
      rfl, rfl, fun _ => rfl⟩

theorem started_startPiped (hproc : p.proc = none) (hthread : p.thread = none)
    (hpid : p.pid = 0) (hreader : p.stdoutReader = false) (h : p.Balanced)
    (m : StartMeets) :
    ∃ q r, p.startPiped m = some (q, r) ∧ Started p m.created m.reader q r := by
  cases hcreated : m.created with
  | none =>
    refine ⟨p.closeRead.closeWrite, .returned false,
      by rw [startPiped, hcreated], rfl, fun _ => ⟨?_, rfl⟩, nofun⟩
    exact
      { proc := hproc
        thread := hthread
        pid := hpid
        stdoutRead := rfl
        stdoutWrite := rfl
        stdoutReader := hreader
        balanced := balanced_closeWrite (balanced_closeRead h) }
  | some c =>
    -- the write end is closed in the parent, so that the reader will see the
    -- end of the stream
    have hholding : (p.createProcess c).closeWrite.Holding :=
      { proc := Option.some_ne_none _
        thread := Option.some_ne_none _
        pid := c.pid_ne_zero
        stdoutWrite := rfl
        balanced :=
          balanced_closeWrite (balanced_createProcess hproc hthread h c) }
    have hpiped : p.startPiped m
        = if p.onStdoutLine && p.stdoutRead.isSome then
            (p.createProcess c).closeWrite.startReader m.reader
          else some ((p.createProcess c).closeWrite, .returned true) := by
      rw [startPiped, hcreated]
      rfl
    rw [hpiped]
    split
    next =>
      obtain ⟨q, r, hq, hq', hline, hpid', hchild, hr⟩ :=
        startReader_spec hholding hreader m.reader
      refine ⟨q, r, hq, hline, nofun, fun c' hc' => ?_⟩
      obtain rfl := Option.some.inj hc'
      exact ⟨hq', hpid', hchild, hr⟩
    next =>
      refine ⟨_, .returned true, rfl, rfl, nofun, fun c' hc' => ?_⟩
      obtain rfl := Option.some.inj hc'
      exact ⟨hholding, rfl, rfl, fun _ => rfl⟩

theorem started_startNew (h : p.Cleared) (m : StartMeets) :
    ∃ q r, p.startNew m = some (q, r)
      ∧ Started p (m.process p.onStdoutLine) m.reader q r := by
  unfold startNew StartMeets.process
  cases hline : p.onStdoutLine with
  | false =>
    exact started_startPiped h.proc h.thread h.pid h.stdoutReader h.balanced m
  | true =>
    cases hpipe : m.pipe with
    | false => exact ⟨p, .returned false, rfl, rfl, fun _ => ⟨h, rfl⟩, nofun⟩
    | true =>
      obtain ⟨q, r, hq, hstarted⟩ :=
        @started_startPiped p.createPipe h.proc h.thread h.pid
        h.stdoutReader (balanced_createPipe h) m
      exact ⟨q, r, hq, hstarted.onStdoutLine, hstarted.of_none,
        hstarted.of_some⟩

/-- Between two calls there is nothing, or there is a process. -/
def Inv (p : ProcessHandles) : Prop := p.Cleared ∨ p.Holding

theorem Inv.cleared (h : p.Inv) :
    (if p.proc.isSome then p.stop else p).Cleared := by
  rcases h with h | h
  · rw [if_neg (by rw [h.proc]; exact Bool.false_ne_true)]
    exact h
  · rw [if_pos (Option.isSome_iff_ne_none.mpr h.proc)]
    exact cleared_stop h

theorem onStdoutLine_stop (p : ProcessHandles) :
    p.stop.onStdoutLine = p.onStdoutLine := by
  by_cases hproc : p.proc = none
  · rw [stop, if_pos (Option.isNone_iff_eq_none.mpr hproc)]
  · rw [stop_eq hproc]
    rfl

/-- **A start from wherever it is called.** The object need not be stopped: a
start ends first what is left of an earlier process. -/
theorem started_start (h : p.Inv) (m : StartMeets) :
    ∃ q r, p.start m = some (q, r) ∧
      Started p (m.process p.onStdoutLine) m.reader q r := by
  obtain ⟨q, r, hq, hstarted⟩ := started_startNew h.cleared m
  have hline : (if p.proc.isSome then p.stop else p).onStdoutLine
      = p.onStdoutLine := by
    split
    next => exact onStdoutLine_stop p
    next => rfl
  rw [hline] at hstarted
  exact ⟨q, r, hq, hstarted.onStdoutLine.trans hline, hstarted.of_none,
    hstarted.of_some⟩

theorem Started.inv {process : Option Created} {reader : Bool} {r : StartResult}
    (h : Started p process reader q r) : q.Inv := by
  cases hprocess : process with
  | none => exact .inl (h.of_none hprocess).1
  | some c => exact .inr (h.of_some c hprocess).1

theorem Inv.cleared_stop (h : p.Inv) : p.stop.Cleared := by
  rcases h with h | h
  · rw [stop_of_cleared h]
    exact h
  · exact ProcessHandles.cleared_stop h

theorem Inv.destroy_eq (h : p.Inv) : p.destroy = some p.stop :=
  if_neg (by rw [h.cleared_stop.stdoutReader]; exact Bool.false_ne_true)

/-- Every call is possible, and there is nothing or a process afterwards. -/
theorem inv_step (h : p.Inv) (a : Action) : ∃ q, p.step a = some q ∧ q.Inv := by
  cases a with
  | start m =>
    obtain ⟨q, r, hq, hstarted⟩ := started_start h m
    exact ⟨q, by rw [step, hq]; rfl, hstarted.inv⟩
  | stop => exact ⟨_, rfl, .inl h.cleared_stop⟩
  | destroy => exact ⟨p.stop, h.destroy_eq, .inl h.cleared_stop⟩
  | childExit code =>
    refine ⟨_, rfl, ?_⟩
    split
    next =>
      rcases h with h | h
      · exact .inl ⟨h.1, h.2, h.3, h.4, h.5, h.6, h.7⟩
      · exact .inr ⟨h.1, h.2, h.3, h.4, h.5⟩
    next => exact h

theorem isRunning_of_holding (h : p.Holding) (hchild : p.child = .alive) :
    p.isRunning = true := by
  rw [isRunning, hchild, Option.isSome_iff_ne_none.mpr h.proc]
  rfl

theorem Inv.balanced (h : p.Inv) : p.Balanced :=
  h.elim Cleared.balanced Holding.balanced

theorem Inv.tidy (h : p.Inv) : p.Tidy := by
  have hcount := ResourceLedger.balanced_iff.mp h.balanced
  refine ⟨?_, ?_, ?_, fun r hr => ?_, fun r hr => ?_,
    fun m hpipe hcreated hreader => ?_⟩
  · exact h.symm.imp (fun h => ⟨h.proc, h.thread, h.pid⟩) (fun h => ⟨h.proc,
      h.thread, h.pid⟩)
  · intro hproc
    rcases h with h | h
    · exact ⟨h.stdoutRead, h.stdoutWrite, h.stdoutReader⟩
    · exact absurd hproc h.proc
  · exact h.elim Cleared.stdoutWrite Holding.stdoutWrite
  · have hone := hcount r
    rw [if_pos hr] at hone
    omega
  · by_contra hout
    have hzero := hcount r
    rw [if_neg hout, ← List.count_append] at hzero
    exact absurd (List.count_pos_iff.mpr hr) (hzero ▸ Nat.lt_irrefl 0)
  · obtain ⟨c, hc⟩ := Option.isSome_iff_exists.mp hcreated
    obtain ⟨q, r, hq, hstarted⟩ := started_start h m
    have hprocess : m.process p.onStdoutLine = some c := by
      rw [StartMeets.process, hpipe, Bool.not_true, Bool.and_false]
      exact hc
    obtain ⟨hholding, -, hchild, hr⟩ := hstarted.of_some c hprocess
    obtain rfl := hr hreader
    exact ⟨q, hq, isRunning_of_holding hholding hchild⟩

theorem Cleared.closed (h : p.Cleared) : p.Closed := by
  refine ⟨h.held_eq, h.pid, h.stdoutReader, fun r hr => ?_⟩
  have hcount := ResourceLedger.balanced_iff.mp h.balanced r
  rw [h.held_eq, if_pos hr, List.count_nil, Nat.zero_add] at hcount
  exact hcount

theorem cleared_new (onStdoutLine : Bool) : Cleared { onStdoutLine } :=
  ⟨rfl, rfl, rfl, rfl, rfl, rfl, ResourceLedger.balanced_empty⟩

/-- A stop and the destructor close everything. -/
theorem Inv.closed (h : p.Inv) {a : Action} (ha : a = .stop ∨ a = .destroy) :
    ∃ q, p.step a = some q ∧ q.Closed := by
  rcases ha with rfl | rfl
  · exact ⟨p.stop, rfl, h.cleared_stop.closed⟩
  · exact ⟨p.stop, h.destroy_eq, h.cleared_stop.closed⟩

/-- **The handles of a process.** Whatever is called in whatever order, and
whatever fails: nothing terminates the program, the object is tidy after every
call, and `Stop` and the destructor leave nothing behind. -/
theorem handles_tidy (onStdoutLine : Bool) (actions : List Action) :
    (∃ p, Runs.run step { onStdoutLine } actions = some p)
      ∧ Runs.Everywhere step Tidy { onStdoutLine } actions
      ∧ ∀ a, a = .stop ∨ a = .destroy →
        ∃ q, Runs.run step { onStdoutLine } (actions ++ [a]) = some q
          ∧ q.Closed := by
  have hnew : Inv { onStdoutLine } := .inl (cleared_new onStdoutLine)
  have hstep : ∀ (p : ProcessHandles) a, p.Inv →
      ∃ q, step p a = some q ∧ q.Inv := fun _ a h => inv_step h a
  obtain ⟨p, hp, hinv⟩ := Runs.exists_run hstep hnew actions
  have hall : Runs.Everywhere step Inv { onStdoutLine } actions :=
    Runs.everywhere_of_forall
      (fun _ _ _ h hq => Runs.inv_of_exists_step hstep h hq) hnew actions
  refine ⟨⟨p, hp⟩, hall.mono (fun _ h => h.tidy), fun a ha => ?_⟩
  obtain ⟨q, hq, hclosed⟩ := hinv.closed ha
  exact ⟨q, Runs.run_append.mpr ⟨p, hp, Runs.run_cons_iff.mpr ⟨q, hq, rfl⟩⟩,
    hclosed⟩

/-! ## The process without its handles

The rest of the development knows a process by its configuration and its
child. The map to that smaller state commutes with every call, so that nothing
which is proved there has to be proved again here. -/

/-- The process as the rest of the program sees it. -/
def toProcess (p : ProcessHandles) (cfg : ProcessConfig) :
    SupervisedProcess where
  cfg
  child := p.proc.map (fun _ => ⟨p.pid, p.child⟩)

/-- What a call is for a process without handles. -/
def abstractStep (onStdoutLine : Bool) (p : SupervisedProcess) :
    Action → SupervisedProcess
  | .start m => p.start ((m.process onStdoutLine).map Created.pid)
  | .stop => p.stop
  | .destroy => p.stop
  | .childExit code => p.exit code

theorem isRunning_toProcess (p : ProcessHandles) (cfg : ProcessConfig) :
    (p.toProcess cfg).isRunning = p.isRunning := by
  obtain ⟨onStdoutLine, proc, thread, pid, stdoutRead, stdoutWrite,
    stdoutReader, stdoutStop,
    child, ledger⟩ := p
  cases proc <;> cases child <;> rfl

/-- **The handles are all that the rest of the program does not see**: each call
does to the process what it does to one without handles. -/
theorem toProcess_step (cfg : ProcessConfig) (h : p.Inv) {a : Action}
    (hq : p.step a = some q) :
    q.toProcess cfg = abstractStep p.onStdoutLine (p.toProcess cfg) a := by
  have hstop : p.stop.toProcess cfg = (p.toProcess cfg).stop := by
    rw [toProcess, h.cleared_stop.proc]
    rfl
  cases a with
  | start m =>
    obtain ⟨q', r, hq', hstarted⟩ := started_start h m
    rw [step, hq'] at hq
    obtain rfl : q' = q := Option.some.inj hq
    cases hprocess : m.process p.onStdoutLine with
    | none =>
      rw [toProcess, (hstarted.of_none hprocess).1.proc, abstractStep, hprocess]
      rfl
    | some c =>
      obtain ⟨hholding, hpid, hchild, -⟩ := hstarted.of_some c hprocess
      obtain ⟨proc, hproc⟩ := Option.ne_none_iff_exists'.mp hholding.proc
      rw [toProcess, hproc, hpid, hchild, abstractStep, hprocess]
      rfl
  | stop =>
    obtain rfl : p.stop = q := Option.some.inj hq
    exact hstop
  | destroy =>
    obtain rfl : p.stop = q := Option.some.inj (h.destroy_eq.symm.trans hq)
    exact hstop
  | childExit code =>
    obtain ⟨onStdoutLine, proc, thread, pid, stdoutRead, stdoutWrite,
      stdoutReader, stdoutStop,
      child, ledger⟩ := p
    obtain rfl := Option.some.inj hq
    cases proc <;> cases child <;> rfl

end ProcessHandles

end WebcamStreamer
