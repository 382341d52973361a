import Mathlib.Data.List.Basic
import WebcamStreamer.Runs

/-!
# Threads, processes and the shutdown

Child processes are started, stopped and replaced by two threads: the main
thread in its supervision loop, and the thread that serves requests. A third
serves the hooks and only counts. A shutdown begins when `g_stop` is set, by a
request or by the console, and then every thread is somewhere in the middle of
something.

Here the operations on processes are steps of their own. A section under
`state_mutex` is a list of operations; between any two of them `g_stop` may be
set, and children may exit. Which branches a section takes depends on names,
clocks and files that play no part here, so any choice of branches is a possible
section. Processes are numbered as they are created.
-/

namespace WebcamStreamer

/-! ## Operations on processes

What the threads do with processes is broken into operations that are carried
out one at a time. A start is three of them, since the console signal may come
in between, and replacing an object destroys the old one afterwards. -/

/-- A process object: the one of MediaMTX, or the one a slot points to. -/
inductive ProcRef where
  | mtx
  | slot (i : ℕ)
  deriving DecidableEq

/-- What the threads do with processes, one step each. A call of `StartNoSleep`
is three: it is entered, it tests `g_stop`, and it calls `Start`; `late` is
whether `g_stop` was set when it was entered, and nothing in the program looks
at it. -/
inductive ProcOp where
  /-- `Stop()`. -/
  | stop (r : ProcRef)
  /-- The assignment to `s.proc` in `rebuildSlot`: the slot points to a new
  object, and the old one is destroyed next. -/
  | rebuild (i : ℕ)
  /-- `~SupervisedProcess` of an object with this handle. -/
  | destroy (handle : Option ℕ)
  /-- `StartNoSleep` is entered. -/
  | startNoSleep (r : ProcRef)
  /-- `if (g_stop) return;` -/
  | testStop (r : ProcRef) (late : Bool)
  /-- `p.Start()`. -/
  | start (r : ProcRef) (late : Bool)
  /-- `slots.push_back`. -/
  | addSlot
  /-- `g_stop.store(true)`. -/
  | setStop
  deriving DecidableEq

/-- A process that was created, and whether the call of `StartNoSleep` that
created it was entered after `g_stop` was set. -/
structure Birth where
  pid : ℕ
  late : Bool
  deriving DecidableEq

/-- `g_stop`, the processes that are alive, and the handles the process objects
hold. -/
structure Procs where
  gStop : Bool := false
  /-- The number of the next process. -/
  next : ℕ := 0
  alive : List ℕ := []
  mtx : Option ℕ := none
  slots : List (Option ℕ) := []
  births : List Birth := []

namespace Procs

/-- The handle of an object. -/
def handle (p : Procs) : ProcRef → Option ℕ
  | .mtx => p.mtx
  | .slot i => p.slots[i]?.join

/-- The object with another handle. -/
def setHandle (p : Procs) (h : Option ℕ) : ProcRef → Procs
  | .mtx => { p with mtx := h }
  | .slot i => { p with slots := p.slots.set i h }

/-- The object is there. -/
def Has (p : Procs) : ProcRef → Prop
  | .mtx => True
  | .slot i => i < p.slots.length

instance (p : Procs) (r : ProcRef) : Decidable (p.Has r) := by
  cases r <;> unfold Has <;> infer_instance

/-- The process behind the handle is terminated. -/
def kill (p : Procs) (h : Option ℕ) : Procs :=
  { p with alive := p.alive.filter (fun q => some q ≠ h) }

/-- `Stop()`. -/
def stop (p : Procs) (r : ProcRef) : Procs :=
  (p.kill (p.handle r)).setHandle none r

/-- `Start()`, which stops first; `created` is whether the operating system
creates the process. -/
def start (p : Procs) (r : ProcRef) (late created : Bool) : Procs :=
  if created then
    { (p.stop r).setHandle (some p.next) r with
      next := p.next + 1
      alive := p.next :: (p.stop r).alive
      births := ⟨p.next, late⟩ :: p.births }
  else p.stop r

end Procs

/-- One operation, and what the thread does next because of it. -/
def exec (p : Procs) (created : Bool) : ProcOp → Procs × List ProcOp
  | .stop r => (p.stop r, [])
  | .rebuild i => (p.setHandle none (.slot i), [.destroy (p.handle (.slot i))])
  | .destroy h => (p.kill h, [])
  | .startNoSleep r => (p, [.testStop r p.gStop])
  | .testStop r late => (p, if p.gStop then [] else [.start r late])
  | .start r late => (if p.Has r then p.start r late created else p, [])
  | .addSlot => ({ p with slots := p.slots ++ [none] }, [])
  | .setStop => ({ p with gStop := true }, [])

/-! ## Sections

Each handler, each part of the pass of the main thread and start-up is a list
of operations. Which of them it is depends on what is found, and what is found
is left open here. -/

/-- What a request does to processes, the slot it names being the `i`-th. -/
inductive Handled where
  /-- `restart-camera` and `set-mode`. -/
  | restart (i : ℕ)
  /-- `set-stream-enabled`. -/
  | enable (i : ℕ) (present : Bool)
  | disable (i : ℕ)
  /-- `set-viewer-credentials`. -/
  | restartMtx
  /-- `shutdown`. -/
  | shutdown
  | other

/-- The operations of a request handler. -/
def handlerOps : Handled → List ProcOp
  | .restart i => [.stop (.slot i), .rebuild i, .startNoSleep (.slot i)]
  | .enable i present =>
    if present then
      [.stop (.slot i), .rebuild i, .startNoSleep (.slot i)]
    else []
  | .disable i => [.stop (.slot i)]
  | .restartMtx => [.stop .mtx, .startNoSleep .mtx]
  | .shutdown => [.setStop]
  | .other => []

/-- What the presence diff finds of a slot. -/
inductive Presence where
  | unchanged
  | gone
  | back (enabled : Bool)

/-- What a pass of the main thread finds: whether the operating system creates a
process, which children are down and due, which cameras came and went, and
whether the pass goes on. -/
structure LoopChoice where
  created : Bool := true
  mtxDue : Bool := false
  due : ℕ → Bool := fun _ => false
  presence : ℕ → Presence := fun _ => .unchanged
  /-- Whether each new camera is enabled. -/
  added : List Bool := []
  goesOn : Bool := false

/-- The parts of a pass that hold the mutex. -/
inductive LoopPart where
  | tick
  | diff
  | append

/-- Stopped and started again. -/
def restartOps (r : ProcRef) : List ProcOp := [.stop r, .startNoSleep r]

/-- The operations of a part, with `n` slots. -/
def partOps (n : ℕ) (c : LoopChoice) : LoopPart → List ProcOp
  | .tick =>
    (if c.mtxDue then restartOps .mtx else [])
      ++ (List.range n).flatMap
        (fun i => if c.due i then restartOps (.slot i) else [])
  | .diff =>
    (List.range n).flatMap (fun i =>
      match c.presence i with
      | .unchanged => []
      | .gone => [.stop (.slot i)]
      | .back enabled =>
        if enabled then [.rebuild i, .startNoSleep (.slot i)] else [])
  | .append =>
    (c.added.mapIdx (fun k enabled =>
      .addSlot :: if enabled then
        [.startNoSleep (.slot (n + k))] else [])).flatten

/-- The operations of start-up: MediaMTX, then all slots, then the publishers of
the enabled ones. -/
def bootOps (cameras : List Bool) : List ProcOp :=
  .startNoSleep .mtx :: cameras.map (fun _ => .addSlot)
    ++ (cameras.mapIdx (fun i enabled =>
      if enabled then [.startNoSleep (.slot i)] else [])).flatten

/-! ## Threads

The main thread goes from start-up through its loop to the shutdown, where it
joins the others and stops what is left. The two workers take the mutex for
one section at a time, and the console handler only sets a flag. -/

/-- Where the main thread is. -/
inductive MainThread where
  | boot (rest : List ProcOp)
  /-- At the test of `while (!g_stop)`. -/
  | loop
  /-- On its way to the mutex. -/
  | before (part : LoopPart)
  /-- With the mutex. -/
  | inside (part : LoopPart) (rest : List ProcOp)
  /-- In the `join` of `ipc.Stop()`. -/
  | joinIpc
  /-- In the `join` of `events.Stop()`. -/
  | joinEvents
  /-- In the loop that stops every slot. -/
  | stopSlots (k : ℕ)
  | stopMtx
  | done

/-- Where a serving thread is. -/
inductive Worker where
  | notStarted
  | idle
  /-- In a handler, with the mutex. -/
  | inside (rest : List ProcOp)
  | finished

/-- The program: its processes and its threads. -/
structure Program where
  procs : Procs := {}
  main : MainThread
  ipc : Worker := .notStarted
  events : Worker := .notStarted

/-- The program as `wmain` begins, with these cameras to come. -/
def Program.begin (cameras : List Bool) : Program where
  main := .boot (bootOps cameras)

namespace Worker

/-- The operations of the handler that are still to come. -/
def rest : Worker → List ProcOp
  | .inside rest => rest
  | _ => []

/-- The worker holds the mutex. -/
def Locks : Worker → Bool
  | .inside _ => true
  | _ => false

end Worker

namespace MainThread

/-- The operations of the section that are still to come. -/
def rest : MainThread → List ProcOp
  | .boot rest => rest
  | .inside _ rest => rest
  | _ => []

/-- The main thread holds the mutex. -/
def Locks : MainThread → Bool
  | .inside _ _ => true
  | _ => false

end MainThread

/-- Nobody holds `state_mutex`. -/
def Program.unlocked (m : Program) : Bool :=
  !m.main.Locks && !m.ipc.Locks && !m.events.Locks

/-- What happens next. -/
inductive Happening where
  /-- The console handler sets `g_stop`. -/
  | signal
  /-- A child exits. -/
  | exit (pid : ℕ)
  | main (c : LoopChoice)
  /-- The request thread goes on: it takes the mutex for a request, or executes
  its next operation, or releases the mutex. -/
  | ipc (created : Bool) (handled : Handled)
  /-- The handler throws; the objects that were being destroyed are. -/
  | ipcThrows
  /-- The request thread returns, since `ipc.Stop()` told it to. -/
  | ipcEnds
  | events
  | eventsEnds

/-- The part that follows in the same pass. -/
def nextPart (goesOn : Bool) : LoopPart → MainThread
  | .tick => if goesOn then .before .diff else .loop
  | .diff => if goesOn then .before .append else .loop
  | .append => .loop

/-- One step of the main thread. -/
def mainStep (m : Program) (c : LoopChoice) : Option Program :=
  match m.main with
  | .boot [] => some { m with main := .loop, ipc := .idle, events := .idle }
  | .boot (op :: rest) =>
    let (procs, more) := exec m.procs c.created op
    some { m with procs := procs, main := .boot (more ++ rest) }
  | .loop =>
    some { m with main := if m.procs.gStop then .joinIpc else .before .tick }
  | .before part =>
    if m.unlocked then
      some { m with main := .inside part (partOps m.procs.slots.length c part) }
    else none
  | .inside part [] => some { m with main := nextPart c.goesOn part }
  | .inside part (op :: rest) =>
    let (procs, more) := exec m.procs c.created op
    some { m with procs := procs, main := .inside part (more ++ rest) }
  | .joinIpc =>
    match m.ipc with
    | .finished => some { m with main := .joinEvents }
    | _ => none
  | .joinEvents =>
    match m.events with
    | .finished => some { m with main := .stopSlots 0 }
    | _ => none
  | .stopSlots k =>
    if k < m.procs.slots.length then
      some { m with
        procs := m.procs.stop (.slot k), main := .stopSlots (k + 1) }
    else some { m with main := .stopMtx }
  | .stopMtx => some { m with procs := m.procs.stop .mtx, main := .done }
  | .done => none

/-- One step of the request thread. -/
def ipcStep (m : Program) (created : Bool) (handled : Handled) :
    Option Program :=
  match m.ipc with
  | .idle =>
    if m.unlocked then
      some { m with ipc := .inside (handlerOps handled) }
    else none
  | .inside [] => some { m with ipc := .idle }
  | .inside (op :: rest) =>
    let (procs, more) := exec m.procs created op
    some { m with procs := procs, ipc := .inside (more ++ rest) }
  | _ => none

/-- One step of the hook thread: it takes the mutex, or releases it. -/
def eventsStep (m : Program) : Option Program :=
  match m.events with
  | .idle => if m.unlocked then some { m with events := .inside [] } else none
  | .inside _ => some { m with events := .idle }
  | _ => none

/-- The operation is the destruction of an object. -/
def ProcOp.isDestroy : ProcOp → Bool
  | .destroy _ => true
  | _ => false

/-- One step of the program. -/
def programStep (m : Program) : Happening → Option Program
  | .signal => some { m with procs := { m.procs with gStop := true } }
  | .exit pid => some { m with procs := m.procs.kill (some pid) }
  | .main c => mainStep m c
  | .ipc created handled => ipcStep m created handled
  | .ipcThrows =>
    match m.ipc with
    | .inside rest =>
      some { m with ipc := .inside (rest.filter ProcOp.isDestroy) }
    | _ => none
  | .ipcEnds =>
    match m.ipc, m.main with
    | .idle, .joinIpc => some { m with ipc := .finished }
    | _, _ => none
  | .events => eventsStep m
  | .eventsEnds =>
    match m.events, m.main with
    | .idle, .joinEvents => some { m with events := .finished }
    | _, _ => none

end WebcamStreamer
