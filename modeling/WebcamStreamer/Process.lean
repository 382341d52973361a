import Mathlib.Order.Basic

/-!
# Child processes and the restart backoff

The supervisor starts MediaMTX and one ffmpeg per camera. A
`SupervisedProcess` holds the command it runs and, between a successful start
and the next stop, a handle on the child. The child may exit at any time while
the handle is held; `isRunning` asks for its exit code and takes 259, which is
Windows' `STILL_ACTIVE`, for a child that is still there.

`startNoSleep` is the only place a child is started from. It keeps the
`Backoff` that the supervision loop consults before it restarts anything.
-/

namespace WebcamStreamer

/-- A time of the steady clock, in nanoseconds. -/
abbrev Time := ℕ

/-- A number of milliseconds, as a time. -/
def ms (n : ℕ) : Time := n * 1000000

/-- `struct ProcessConfig`. -/
structure ProcessConfig where
  exePath : String
  args : List String
  friendlyName : String
  deriving DecidableEq

/-- What the operating system knows of a child whose handle is held. -/
inductive ChildState where
  | alive
  | exited (code : UInt32)
  deriving DecidableEq

/-- A child process behind a handle. -/
structure Child where
  pid : ℕ
  state : ChildState
  deriving DecidableEq

/-- `class SupervisedProcess`: the handle is `proc_`. -/
structure SupervisedProcess where
  cfg : ProcessConfig
  child : Option Child := none
  deriving DecidableEq

namespace SupervisedProcess

/-- Whether the child process exists and has not exited. -/
def alive (p : SupervisedProcess) : Bool :=
  match p.child with
  | some ⟨_, .alive⟩ => true
  | _ => false

/-- `IsRunning()`. -/
def isRunning (p : SupervisedProcess) : Bool :=
  match p.child with
  | some ⟨_, .alive⟩ => true
  | some ⟨_, .exited code⟩ => code == 259
  | none => false

/-- `Pid()`. -/
def pid (p : SupervisedProcess) : ℕ :=
  match p.child with
  | some c => c.pid
  | none => 0

/-- `Stop()`: the child is terminated and its handle closed. -/
def stop (p : SupervisedProcess) : SupervisedProcess := { p with child := none }

/-- `Start()`, which stops first: the identifier of the new child, or `none`
where the process could not be created. -/
def start (p : SupervisedProcess) (created : Option ℕ) : SupervisedProcess :=
  { p with child := created.map (fun pid => ⟨pid, .alive⟩) }

/-- The child exits; without one, or after it exited, there is nothing to
exit. -/
def exit (p : SupervisedProcess) (code : UInt32) : SupervisedProcess :=
  match p.child with
  | some ⟨pid, .alive⟩ => { p with child := some ⟨pid, .exited code⟩ }
  | _ => p

@[simp] theorem cfg_stop (p : SupervisedProcess) : p.stop.cfg = p.cfg := rfl

@[simp] theorem alive_stop (p : SupervisedProcess) : p.stop.alive = false := rfl

@[simp] theorem isRunning_stop (p : SupervisedProcess) :
    p.stop.isRunning = false := rfl

@[simp] theorem cfg_start (p : SupervisedProcess) (created : Option ℕ) :
    (p.start created).cfg = p.cfg := rfl

@[simp] theorem alive_start (p : SupervisedProcess) (created : Option ℕ) :
    (p.start created).alive = created.isSome := by
  cases created <;> rfl

@[simp] theorem isRunning_start (p : SupervisedProcess) (created : Option ℕ) :
    (p.start created).isRunning = created.isSome := by
  cases created <;> rfl

@[simp] theorem cfg_exit (p : SupervisedProcess) (code : UInt32) :
    (p.exit code).cfg = p.cfg := by
  obtain ⟨cfg, _ | ⟨pid, _ | code'⟩⟩ := p <;> rfl

@[simp] theorem alive_exit (p : SupervisedProcess) (code : UInt32) :
    (p.exit code).alive = false := by
  obtain ⟨cfg, _ | ⟨pid, _ | code'⟩⟩ := p <;> rfl

/-- An exit leaves the handle as it was. -/
@[simp] theorem child_exit_eq_none (p : SupervisedProcess) (code : UInt32) :
    (p.exit code).child = none ↔ p.child = none := by
  obtain ⟨cfg, _ | ⟨pid, _ | code'⟩⟩ := p <;> simp [exit]

/-- An exit is not noticed when there is nothing to exit, or when the code is
the one of a child that is still there. -/
theorem isRunning_exit {p : SupervisedProcess} {code : UInt32}
    (h : p.alive = false ∨ code = 259) :
    (p.exit code).isRunning = p.isRunning := by
  obtain ⟨cfg, _ | ⟨pid, _ | code'⟩⟩ := p
  · rfl
  · rcases h with h | rfl
    · exact absurd h Bool.noConfusion
    · rfl
  · rfl

end SupervisedProcess

/-- `struct Backoff`; the delay is in milliseconds. -/
structure Backoff where
  lastStart : Time := 0
  earliestNext : Time := 0
  delay : ℕ := 1000
  restarts : ℕ := 0
  deriving DecidableEq

namespace Backoff

/-- The backoff after sixty quiet seconds: the last failure was a one-off. -/
def relax (b : Backoff) (now : Time) : Backoff :=
  if b.restarts > 0 ∧ b.lastStart + ms 60000 < now then
    { b with delay := 1000, restarts := 0 }
  else b

/-- The bookkeeping of one start. -/
def started (b : Backoff) (now : Time) : Backoff :=
  let r := b.relax now
  { lastStart := now
    earliestNext := now + ms r.delay
    delay := min (r.delay * 2) 30000
    restarts := r.restarts + 1 }

end Backoff

/-- What one call of `StartNoSleep` finds: its reading of the clock, and the
process the operating system creates, if it does. -/
structure StartOutcome where
  now : Time := 0
  created : Option ℕ := none
  deriving DecidableEq

/-- `StartNoSleep`: nothing once shutdown has begun. -/
def startNoSleep (stop : Bool) (o : StartOutcome) (p : SupervisedProcess)
    (b : Backoff) : SupervisedProcess × Backoff :=
  if stop then (p, b) else (p.start o.created, b.started o.now)

end WebcamStreamer
