import Mathlib.Data.Fintype.EquivFin
import WebcamStreamer.LockOrder

/-!
# The locks of the supervisor's threads

Five locks are shared by the main thread, the threads of the two pipe servers,
the thread that reads what MediaMTX writes, and the threads that wait for a
probe script. They are taken inside each other: an event is published from
within a section under `state_mutex`, and the pipe is written to under
`write_mutex_`. Under `state_mutex` MediaMTX is stopped as well, and `Stop`
waits for the thread that reads its output, which publishes events of its own.
All this goes one way only, so that the threads never wait for each other in a
circle.

A write to the pipe also waits for the client to read. Here it waits for no
thread, as a call into the operating system does.
-/

namespace WebcamStreamer

/-! ## Locks, threads and sections

The sections of the threads are described by their parts, since what they do
with locks comes down to a few patterns: they log, they publish, and they stop
MediaMTX, whose reader has to be joined. -/

/-- `state_mutex`; `write_mutex_` and `pipe_mutex_` of the `IpcServer`; `mu_` of
the `EventsPipeServer`; `LogMutex()`. -/
inductive SupervisorLock where
  | state
  | write
  | pipe
  | current
  | log
  deriving DecidableEq

/-- The threads; `probe n` are the workers of `probe-camera`. -/
inductive SupervisorThread where
  | main
  | ipc
  | events
  | stdoutReader
  | probe (n : ℕ)
  deriving DecidableEq

/-- An operation of a thread of the supervisor. -/
abbrev ThreadOp := LockOp SupervisorLock SupervisorThread

/-- The locks and the threads as they are. -/
abbrev ThreadLocks := LockState SupervisorLock SupervisorThread

/-- What the threads do inside and outside of `state_mutex`. -/
inductive SectionPart where
  /-- Anything that takes none of the locks. -/
  | work
  /-- `Log`. -/
  | log
  /-- `PublishEvent`; without a client nothing is written. -/
  | publish (client : Bool)
  /-- `mtx->Stop()`: it joins the reader of the output, if there is one. -/
  | stopMtx
  deriving DecidableEq

/-- `WritePipe`. -/
def writePipe (client : Bool) : List ThreadOp :=
  [.lock .write, .lock .pipe,
    .unlock .pipe] ++ (if client then [.other] else [])
    ++ [.unlock .write]

/-- The operations of a part. -/
def SectionPart.ops : SectionPart → List ThreadOp
  | .work => [.other]
  | .log => [.lock .log, .other, .unlock .log]
  | .publish client => writePipe client
  | .stopMtx => [.other, .join .stdoutReader]

/-- A way through the program of a thread that begins and ends without a
lock. -/
inductive ThreadSection where
  /-- Parts outside of the mutex. -/
  | bare (parts : List SectionPart)
  /-- A section under `state_mutex`, and what follows it. -/
  | locked (parts behind : List SectionPart)
  /-- `IpcServer`: a section of `AcceptLoop` under `pipe_mutex_`. -/
  | acceptIpc
  /-- `EventsPipeServer`: a section of `AcceptLoop` under `mu_`. -/
  | acceptEvents
  /-- `IpcServer::Stop`. -/
  | stopIpc
  /-- `EventsPipeServer::Stop`. -/
  | stopEvents

/-- The operations of some parts. -/
def partsOps (parts : List SectionPart) : List ThreadOp :=
  (parts.map SectionPart.ops).flatten

/-- The operations of a section. -/
def ThreadSection.ops : ThreadSection → List ThreadOp
  | .bare parts => partsOps parts
  | .locked parts behind =>
    [.lock .state] ++ partsOps parts ++ [.unlock .state] ++ partsOps behind
  | .acceptIpc => [.lock .pipe, .other, .unlock .pipe]
  | .acceptEvents => [.lock .current, .other, .unlock .current]
  | .stopIpc => [.other, .lock .pipe, .other, .unlock .pipe, .join .ipc]
  | .stopEvents =>
    [.other, .lock .current, .other, .unlock .current, .join .events]

/-- What a thread does: only the main thread and the one that serves requests
stop MediaMTX, the latter under the mutex, and only the main thread stops the
servers. -/
def SupervisorThread.does : SupervisorThread → ThreadSection → Bool
  | .main, .bare _ | .main, .locked _ _ | .main, .stopIpc
  | .main, .stopEvents => true
  | .ipc, .locked _ behind => !behind.contains .stopMtx
  | .ipc, .acceptIpc => true
  | .events, .locked parts behind =>
    !parts.contains .stopMtx && !behind.contains .stopMtx
  | .events, .acceptEvents => true
  | .ipc, .bare parts | .events, .bare parts | .stdoutReader, .bare parts
  | .probe _, .bare parts =>
    !parts.contains .stopMtx
  | _, _ => false

/-- What happens next. -/
inductive LockingStep where
  | begin (t : SupervisorThread)
  | choose (t : SupervisorThread) (sec : ThreadSection)
  | exec (t : SupervisorThread)
  | finish (t : SupervisorThread)

/-- What it is for the locks. -/
def LockingStep.action :
    LockingStep → LockAction SupervisorLock SupervisorThread
  | .begin t => .begin t
  | .choose t sec => .choose t sec.ops
  | .exec t => .exec t
  | .finish t => .finish t

/-- A section is chosen by a thread that does such a thing. -/
def LockingStep.possible : LockingStep → Bool
  | .choose t sec => t.does sec
  | _ => true

/-- The threads of the supervisor, one operation after the other. -/
def lockStep (s : ThreadLocks) (a : LockingStep) : Option ThreadLocks :=
  if a.possible then s.step a.action else none

/-! ## The order

The ranks are chosen so that what is taken later ranks higher, and a thread
that is joined under a lock ranks between that lock and those it takes itself.
That all sections respect the order is checked by running the check on their
parts. -/

/-- What is taken later ranks higher. A thread that is waited for under
`state_mutex` ranks between it and all that the thread itself takes. -/
def lockRank : LockRank SupervisorLock SupervisorThread (Fin 8) where
  lock
    | .state => 2
    | .write => 4
    | .pipe => 5
    | .current => 6
    | .log => 7
  thread
    | .main => 0
    | .ipc => 1
    | .events => 1
    | .stdoutReader => 3
    | .probe _ => 0

open LockState

variable {t : SupervisorThread}

/-- A part leaves what is held as it is, whether this is nothing or
`state_mutex`. -/
theorem heldAfter_part {held : List SupervisorLock}
    (hheld : held = [] ∨ held = [.state])
    {part : SectionPart} (hpart : part = .stopMtx → t ≠ .stdoutReader) :
    heldAfter lockRank t held part.ops = some held := by
  cases part with
  | work => rfl
  | log => rcases hheld with rfl | rfl <;> cases t <;> rfl
  | publish client =>
    rcases hheld with rfl | rfl <;> cases client <;> cases t <;> rfl
  | stopMtx =>
    have hreader := hpart rfl
    cases t with
    | stdoutReader => exact absurd rfl hreader
    | main | ipc | events | probe => rcases hheld with rfl | rfl <;> rfl

theorem heldAfter_partsOps {held : List SupervisorLock}
    (hheld : held = [] ∨ held = [.state])
    {parts : List SectionPart}
    (hparts : t = .stdoutReader → parts.contains .stopMtx = false) :
    heldAfter lockRank t held (partsOps parts) = some held := by
  refine heldAfter_flatten (fun ops hops => ?_)
  obtain ⟨part, hpart, rfl⟩ := List.mem_map.mp hops
  refine heldAfter_part hheld ?_
  rintro rfl ht
  exact Bool.false_ne_true
    ((hparts ht).symm.trans (List.contains_iff_mem.mpr hpart))

/-- A section under `state_mutex` is in order, by any thread that takes it. -/
theorem inOrder_locked {parts behind : List SectionPart}
    (ht : t ≠ .stdoutReader) :
    InOrder lockRank t (ThreadSection.locked parts behind).ops := by
  have hno : ∀ {parts : List SectionPart},
      t = .stdoutReader → parts.contains .stopMtx = false :=
    fun h => absurd h ht
  have hlock : heldAfter lockRank t [] [.lock .state] = some [.state] := by
    cases t with
    | stdoutReader => exact absurd rfl ht
    | main | ipc | events | probe => rfl
  have hunlock : heldAfter lockRank t [.state] [.unlock .state] = some [] := rfl
  rw [InOrder, ThreadSection.ops, heldAfter_append, heldAfter_append,
    heldAfter_append, hlock,
    Option.bind_some, heldAfter_partsOps (.inr rfl) hno,
    Option.bind_some, hunlock,
    Option.bind_some, heldAfter_partsOps (.inl rfl) hno]

/-- **Every section of every thread is in order.** It waits only for what
ranks above itself and above what it holds, be it a lock or a thread, and it
gives back all that it has taken. -/
theorem inOrder_ops {sec : ThreadSection} (h : t.does sec = true) :
    InOrder lockRank t sec.ops := by
  have hbare : ∀ {parts : List SectionPart},
      (t = .stdoutReader → parts.contains .stopMtx = false) →
      InOrder lockRank t (ThreadSection.bare parts).ops :=
    fun hparts => heldAfter_partsOps (.inl rfl) hparts
  cases sec with
  | bare parts =>
    refine hbare (fun ht => ?_)
    subst ht
    simpa [SupervisorThread.does] using h
  | locked parts behind =>
    refine inOrder_locked (fun ht => ?_)
    subst ht
    cases h
  | acceptIpc | acceptEvents | stopIpc | stopEvents =>
    cases t <;> first | rfl | cases h

/-- **The supervisor's threads never wait for each other in a circle**: in
every run, as long as there is a thread, one of them can go on. A thread waits
for a lock or for the end of another thread, and the two kinds of waiting are
ranked together. -/
theorem threads_never_deadlock (steps : List LockingStep) :
    Runs.Everywhere lockStep (fun s => (∃ t, s.rest t ≠ none) → ∃ t,
      s.rest t ≠ none ∧ s.Moves t)
      (LockState.start .main) steps := by
  have hstep : ∀ (s : ThreadLocks) a s', s.Sound lockRank →
      lockStep s a = some s' →
      s'.Sound lockRank := by
    intro s a s' h hs
    unfold lockStep at hs
    split at hs
    next hpossible =>
      refine h.step (fun t ops ha => ?_) hs
      cases a with
      | choose t' sec =>
        obtain ⟨rfl, rfl⟩ := LockAction.choose.inj ha
        exact inOrder_ops hpossible
      | begin | exec | finish => cases ha
    next => cases hs
  have hsound :
      Runs.Everywhere lockStep (Sound lockRank) (LockState.start .main) steps :=
    Runs.everywhere_of_forall hstep (sound_start .main) steps
  refine hsound.mono (fun s h => ?_)
  rintro ⟨t, ht⟩
  exact h.exists_moves ht

end WebcamStreamer
