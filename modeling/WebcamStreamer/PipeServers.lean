import WebcamStreamer.ResourceLedger
import WebcamStreamer.Runs

/-!
# The two pipe servers, and how they stop

`IpcServer` and `EventsPipeServer` each run `AcceptLoop` on a thread: it makes a
pipe, puts its handle into a variable of the server, waits for a client, serves
it, and closes the pipe. `Stop` runs on the main thread. It sets a flag, cancels
what the other thread waits for, closes the pipe if there is one in the
variable, and waits for the thread to end. Each access to the variable is made
under a mutex of its own, and everything in between interleaves.

Two things are at stake. Both threads close handles, and none may be closed
twice; and `Stop` must come to an end, whatever the client does.
-/

namespace WebcamStreamer

/-! ## A server

A server is a thread in its loop, a caller of `Stop` and, behind the pipe, a
client. The handle of the pipe is either in the hands of the thread or in a
variable that `Stop` can see, and the variable is what decides who closes
it. -/

/-- How far `Stop` is. -/
inductive Stopper where
  /-- It was not called. -/
  | running
  /-- `stop_` is set. -/
  | flagged
  /-- `CancelSynchronousIo` was called. -/
  | cancelled
  /-- What was in the variable is closed; `join` is next. -/
  | closed
  | joined
  deriving DecidableEq

/-- A server: where its thread is in `AcceptLoop`, and the variable `pipe_` or
`current_pipe_`. -/
structure PipeServer (Phase : Type) where
  accept : Phase
  stopper : Stopper := .running
  current : Option ℕ := none
  ledger : ResourceLedger := {}
  deriving DecidableEq

/-- What happens next. -/
inductive PipeAction where
  /-- The thread goes on by itself; `ok` is what the operating system answers
  where it is asked. -/
  | accept (ok : Bool)
  /-- The client does what the thread waits for, or `ok = false`, fails to. -/
  | client (ok : Bool)
  /-- `Stop` goes on. -/
  | stop

/-- The code of `AcceptLoop`, step by step: what the thread does by itself,
where a client lets it go on, and what it makes of a cancelled call. -/
structure AcceptLoop (Phase : Type) where
  goOn : PipeServer Phase → Bool → Option (PipeServer Phase)
  client : Phase → Bool → Option Phase
  cancel : Phase → Phase
  done : Phase

namespace PipeServer

variable {Phase : Type}

/-- `stop_`. -/
def stopping (s : PipeServer Phase) : Bool := s.stopper != .running

/-- The pipe in the variable is closed, if there is one. -/
def closeCurrent (s : PipeServer Phase) : PipeServer Phase :=
  { s with current := none, ledger := s.ledger.releaseHeld s.current }

end PipeServer

namespace AcceptLoop

variable {Phase : Type} [DecidableEq Phase] (loop : AcceptLoop Phase)

/-- `Stop`, one step after the other. -/
def stop (s : PipeServer Phase) : Option (PipeServer Phase) :=
  match s.stopper with
  | .running => some { s with stopper := .flagged }
  | .flagged =>
    some { s with stopper := .cancelled, accept := loop.cancel s.accept }
  | .cancelled => some { s.closeCurrent with stopper := .closed }
  | .closed =>
    if s.accept = loop.done then some { s with stopper := .joined } else none
  | .joined => none

/-- One step of the server. -/
def step (s : PipeServer Phase) : PipeAction → Option (PipeServer Phase)
  | .accept ok => loop.goOn s ok
  | .client ok =>
    (loop.client s.accept ok).map (fun phase => { s with accept := phase })
  | .stop => loop.stop s

end AcceptLoop

/-! ## The server of requests

The thread goes from making a pipe to waiting for a client, reading lines and
writing answers. Its waits end by themselves after a while, so that it looks
at `stop_` again and again, except where it writes. -/

/-- Where the thread is in `IpcServer::AcceptLoop`; `p` is the handle in its
hands. -/
inductive IpcPhase where
  /-- At the head of the loop, before it looks at `stop_`. -/
  | top
  /-- In `CreateNamedPipeW`. -/
  | creating
  /-- Before the section that puts the handle into `pipe_`. -/
  | created (p : ℕ)
  /-- Before `ConnectNamedPipe`. -/
  | entered (p : ℕ)
  /-- It waits for a client, and looks at `stop_` after each 200 ms without
  one. -/
  | waiting (p : ℕ)
  /-- Before it looks at `stop_`. -/
  | returned (p : ℕ) (connected : Bool)
  /-- Before the section that closes the pipe and returns. -/
  | leaving (p : ℕ)
  /-- Before the section that closes a pipe without a client. -/
  | failed (p : ℕ)
  /-- Before the section that sets `client_connected_`. -/
  | greeting (p : ℕ)
  /-- At the head of the request loop, before it looks at `stop_`. -/
  | serving (p : ℕ)
  /-- In `LineReader::Next`, which looks at `stop_` only after 200 ms in which
  nothing has come. -/
  | reading (p : ℕ)
  /-- The request is parsed and handled. -/
  | answering (p : ℕ)
  /-- In `WritePipe`, before it looks at `pipe_`. -/
  | writing (p : ℕ)
  /-- In `OverlappedWriteAll`, which waits for the client or for the pipe to be
  closed. -/
  | sending (p : ℕ)
  /-- Before the section that closes the pipe of a client that is gone. -/
  | closing (p : ℕ)
  | done
  deriving DecidableEq

/-- `IpcServer::AcceptLoop`. `CloseHandle` of a variable that is empty closes
nothing. -/
def ipcGoOn (s : PipeServer IpcPhase) (ok : Bool) :
    Option (PipeServer IpcPhase) :=
  match s.accept with
  | .top => some { s with accept := if s.stopping then .done else .creating }
  | .creating =>
    some (if ok then { s with
      accept := .created s.ledger.taken, ledger := s.ledger.take }
      else { s with accept := .top })
  | .created p =>
    some (if s.stopping then { s with
      accept := .done, ledger := s.ledger.release p }
      else { s with accept := .entered p, current := some p })
  | .entered p =>
    some { s with accept := if ok then .waiting p else .returned p false }
  | .waiting p =>
    some { s with
      accept := if s.stopping then .returned p false else .waiting p }
  | .returned p connected =>
    some { s with
      accept :=
        if s.stopping then .leaving p
        else if connected then .greeting p
        else .failed p }
  | .leaving _ => some { s.closeCurrent with accept := .done }
  | .failed _ => some { s.closeCurrent with accept := .top }
  | .greeting p => some { s with accept := .serving p }
  | .serving p =>
    some { s with accept := if s.stopping then .closing p else .reading p }
  | .reading p =>
    some { s with accept := if s.stopping then .closing p else .reading p }
  | .answering p => some { s with accept := .writing p }
  | .writing p =>
    some { s with
      accept := if s.current = none then .closing p else .sending p }
  | .sending p =>
    if s.current = none then some { s with accept := .closing p } else none
  | .closing _ => some { s.closeCurrent with accept := .top }
  | .done => none

/-- A client connects, sends a request or goes, takes an answer or does not. -/
def ipcClient : IpcPhase → Bool → Option IpcPhase
  | .waiting p, true => some (.returned p true)
  | .reading p, ok => some (if ok then .answering p else .closing p)
  | .sending p, ok => some (if ok then .serving p else .closing p)
  | _, _ => none

/-- Its reads and writes are overlapped, so that `CancelSynchronousIo` finds
nothing. -/
def ipcLoop : AcceptLoop IpcPhase where
  goOn := ipcGoOn
  client := ipcClient
  cancel := id
  done := .done

/-! ## The server of hook messages

The calls of this thread do not end by themselves. `Stop` cancels the one that
is under way, if there is one at that moment, and closes the pipe that it
finds in the variable. -/

/-- Where the thread is in `EventsPipeServer::AcceptLoop`. -/
inductive EventsPhase where
  | top
  | creating
  | created (p : ℕ)
  | entered (p : ℕ)
  /-- In `ConnectNamedPipe`, until there is a client. -/
  | connecting (p : ℕ)
  | returned (p : ℕ) (connected : Bool)
  | leaving (p : ℕ)
  | failed (p : ℕ)
  /-- At the head of the reading loop, before it looks at `stop_`. -/
  | serving (p : ℕ)
  /-- Before `ReadFile`. -/
  | asking (p : ℕ)
  /-- In `ReadFile`, until the client writes or goes. -/
  | reading (p : ℕ)
  /-- What was read is parsed and handled. -/
  | handling (p : ℕ)
  | closing (p : ℕ)
  | done
  deriving DecidableEq

/-- `EventsPipeServer::AcceptLoop`. A call on a handle that `Stop` has closed
fails at once, and a call under way stays there when its handle is closed. -/
def eventsGoOn (s : PipeServer EventsPhase) (ok : Bool) :
    Option (PipeServer EventsPhase) :=
  match s.accept with
  | .top => some { s with accept := if s.stopping then .done else .creating }
  | .creating =>
    some (if ok then { s with
      accept := .created s.ledger.taken, ledger := s.ledger.take }
      else { s with accept := .top })
  | .created p =>
    some (if s.stopping then { s with
      accept := .done, ledger := s.ledger.release p }
      else { s with accept := .entered p, current := some p })
  | .entered p =>
    some { s with
      accept :=
        if ok = true ∧ s.current = some p then .connecting p
        else .returned p false }
  | .connecting _ => none
  | .returned p connected =>
    some { s with
      accept :=
        if s.stopping then .leaving p
        else if connected then .serving p
        else .failed p }
  | .leaving _ => some { s.closeCurrent with accept := .done }
  -- the handle in its hands is closed here, and not what is in the variable
  | .failed p =>
    some { s with
      accept := .top, current := none, ledger := s.ledger.release p }
  | .serving p =>
    some { s with accept := if s.stopping then .handling p else .asking p }
  | .asking p =>
    some { s with accept :=
      if ok = true ∧ s.current = some p then .reading p else .handling p }
  | .reading _ => none
  | .handling p => some { s with accept := .closing p }
  | .closing _ => some { s.closeCurrent with accept := .top }
  | .done => none

/-- A client connects or fails to, or it writes: the end of a line, or
`ok = false`, a part of it. -/
def eventsClient : EventsPhase → Bool → Option EventsPhase
  | .connecting p, ok => some (.returned p ok)
  | .reading p, ok => some (if ok then .handling p else .serving p)
  | _, _ => none

/-- A call that was cancelled fails. -/
def eventsCancel : EventsPhase → EventsPhase
  | .connecting p => .returned p false
  | .reading p => .handling p
  | phase => phase

/-- The server of hook messages. -/
def eventsLoop : AcceptLoop EventsPhase where
  goOn := eventsGoOn
  client := eventsClient
  cancel := eventsCancel
  done := .done

/-! ## Every handle is closed once

The ledger counts what was opened and what was closed, and the invariant says
where each open handle is. It is kept by every step of both servers, with one
exception: a client that fails to connect leaves the thread with a handle that
`Stop` may have closed. -/

/-- No pipe is closed twice, and none is left open when the thread has ended. -/
def AcceptLoop.ClosesOnce {Phase : Type} (loop : AcceptLoop Phase)
    (s : PipeServer Phase) : Prop :=
  (∀ p, s.ledger.released.count p ≤ 1) ∧
    (s.accept = loop.done → ∀ p < s.ledger.taken, s.ledger.released.count p = 1)

/-- The handle of a pipe that is not in the variable yet. -/
def IpcPhase.owned : IpcPhase → Option ℕ
  | .created p => some p
  | _ => none

/-- The handle of the pipe that was put into the variable. -/
def IpcPhase.entry : IpcPhase → Option ℕ
  | .top | .creating | .created _ | .done => none
  | .entered p | .waiting p | .returned p _ | .leaving p | .failed p
  | .greeting p | .serving p
  | .reading p | .answering p | .writing p | .sending p | .closing p => some p

@[inherit_doc IpcPhase.owned]
def EventsPhase.owned : EventsPhase → Option ℕ
  | .created p => some p
  | _ => none

@[inherit_doc IpcPhase.entry]
def EventsPhase.entry : EventsPhase → Option ℕ
  | .top | .creating | .created _ | .done => none
  | .entered p | .connecting p | .returned p _ | .leaving p | .failed p
  | .serving p | .asking p
  | .reading p | .handling p | .closing p => some p

namespace PipeServer

variable {Phase : Type} {owned entry : Phase → Option ℕ} {s : PipeServer Phase}
  {phase : Phase}

/-- What is held is in the hands of the thread or in the variable, and it is in
the variable what the thread has put there, until `Stop` has closed it. -/
structure Sound (owned entry : Phase → Option ℕ) (s : PipeServer Phase) :
    Prop where
  balanced : s.ledger.Balanced ((owned s.accept).toList ++ s.current.toList)
  current : s.current = none ∨ s.current = entry s.accept
  closed : s.stopper = .closed ∨ s.stopper = .joined → s.current = none
  made : ∀ p, entry s.accept = some p → p < s.ledger.taken

/-- The thread goes on with the same pipe. -/
theorem Sound.move (h : s.Sound owned entry)
    (howned : owned phase = owned s.accept)
    (hentry : entry phase = entry s.accept) :
    ({ s with accept := phase } : PipeServer Phase).Sound owned entry :=
  ⟨howned ▸ h.balanced, hentry ▸ h.current, h.closed,
    fun p hp => h.made p (hentry ▸ hp)⟩

/-- The pipe in the variable is closed. -/
theorem Sound.close (h : s.Sound owned entry) {stopper : Stopper}
    (howned : owned phase = owned s.accept)
    (hentry : entry phase = none ∨ entry phase = entry s.accept) :
    ({ s.closeCurrent with
      accept := phase, stopper } : PipeServer Phase).Sound owned entry := by
  have hbalanced : s.ledger.Balanced
      ((owned s.accept).toList ++ (s.current.toList ++ [])) := by
    rw [List.append_nil]
    exact h.balanced
  refine ⟨?_, .inl rfl, fun _ => rfl, fun p hp => ?_⟩
  · show (s.ledger.releaseHeld s.current).Balanced ((owned phase).toList ++ [])
    rw [howned]
    exact hbalanced.releaseHeld
  · show p < (s.ledger.releaseHeld s.current).taken
    rw [ResourceLedger.taken_releaseHeld]
    rcases hentry with hnone | hsame
    · exact absurd (hnone.symm.trans hp) (Option.some_ne_none p).symm
    · exact h.made p (hsame ▸ hp)

/-- A pipe was made. -/
theorem Sound.create (h : s.Sound owned entry)
    (howned : owned phase = some s.ledger.taken)
    (hentry : entry phase = none) (hold : owned s.accept = none)
    (hnone : s.current = none) :
    ({ s with
      accept := phase, ledger := s.ledger.take } : PipeServer Phase).Sound owned
      entry := by
  refine ⟨?_, .inl hnone, h.closed,
    fun p hp => absurd (hentry.symm.trans hp) nofun⟩
  show s.ledger.take.Balanced ((owned phase).toList ++ s.current.toList)
  have hbalanced : s.ledger.Balanced s.current.toList := by
    simpa [hold] using h.balanced
  rw [howned]
  exact hbalanced.take

/-- It is put into the variable. -/
theorem Sound.enter {p : ℕ} (h : s.Sound owned entry)
    (hold : owned s.accept = some p)
    (howned : owned phase = none) (hentry : entry phase = some p)
    (hnone : s.current = none)
    (hgoes : s.stopping = false) :
    ({ s with accept := phase, current := some p } : PipeServer Phase).Sound
      owned entry := by
  refine ⟨?_, .inr hentry.symm, fun hstopper => ?_, fun q hq => ?_⟩
  · simpa [hold, howned, hnone] using h.balanced
  · have hrunning : s.stopper = .running := by simpa [stopping] using hgoes
    rcases hstopper with hstopper | hstopper <;> rw [hrunning] at hstopper <;>
      cases hstopper
  · obtain rfl : p = q := Option.some.inj (hentry.symm.trans hq)
    exact h.balanced.lt_taken (by simp [hold])

/-- It is closed instead. -/
theorem Sound.discard {p : ℕ} (h : s.Sound owned entry)
    (hold : owned s.accept = some p)
    (howned : owned phase = none) (hentry : entry phase = none)
    (hnone : s.current = none) :
    ({ s with accept := phase, ledger := s.ledger.release p } : PipeServer
      Phase).Sound owned
      entry := by
  refine ⟨?_, .inl hnone, h.closed,
    fun q hq => absurd (hentry.symm.trans hq) nofun⟩
  show (s.ledger.release p).Balanced ((owned phase).toList ++ s.current.toList)
  have hbalanced :
      s.ledger.Balanced ([] ++ ((some p).toList ++ s.current.toList)) := by
    simpa [hold] using h.balanced
  rw [howned]
  exact hbalanced.releaseHeld

theorem Sound.current_of_entry (h : s.Sound owned entry)
    (hentry : entry s.accept = none) :
    s.current = none := by
  rcases h.current with hnone | hsome
  · exact hnone
  · rw [hsome, hentry]

/-- What soundness says of the handles. -/
theorem Sound.closesOnce {loop : AcceptLoop Phase}
    (howned : owned loop.done = none)
    (hentry : entry loop.done = none) (h : s.Sound owned entry) :
    loop.ClosesOnce s := by
  have hcount := ResourceLedger.balanced_iff.mp h.balanced
  refine ⟨fun p => ?_, fun hdone p hp => ?_⟩
  · have hp := hcount p
    split at hp <;> omega
  · have hheld : (owned s.accept).toList ++ s.current.toList = [] := by
      rw [hdone, howned, h.current_of_entry (hdone ▸ hentry)]
      rfl
    simpa [hheld, hp] using hcount p

variable {t : PipeServer Phase}

/-- **`Stop` keeps it**, where a cancelled call leaves the thread with its
pipe. -/
theorem Sound.stop [DecidableEq Phase] {loop : AcceptLoop Phase}
    (howned : ∀ phase, owned (loop.cancel phase) = owned phase)
    (hentry : ∀ phase, entry (loop.cancel phase) = entry phase)
    (h : s.Sound owned entry)
    (hs : loop.stop s = some t) : t.Sound owned entry := by
  unfold AcceptLoop.stop at hs
  split at hs
  next hstopper =>
    exact Option.some.inj hs ▸ ⟨h.balanced, h.current, nofun, h.made⟩
  next hstopper =>
    have hmoved := h.move (howned s.accept) (hentry s.accept)
    exact Option.some.inj hs ▸ ⟨hmoved.balanced, hmoved.current, nofun,
      hmoved.made⟩
  next => exact Option.some.inj hs ▸ h.close rfl (.inr rfl)
  next hstopper =>
    split at hs
    next =>
      have hnone : s.current = none := h.closed (.inl hstopper)
      exact Option.some.inj hs ▸ ⟨h.balanced, h.current, fun _ => hnone, h.made⟩
    next => cases hs
  next => cases hs

end PipeServer

/-- The thread of the server of requests keeps it. -/
theorem sound_ipcLoop_goOn {s t : PipeServer IpcPhase} {ok : Bool}
    (h : s.Sound IpcPhase.owned IpcPhase.entry) (hs : ipcGoOn s ok = some t) :
    t.Sound IpcPhase.owned IpcPhase.entry := by
  obtain ⟨phase, stopper, current, ledger⟩ := s
  cases phase <;> simp only [ipcGoOn, Option.some.injEq, reduceCtorEq] at hs
  case top => exact hs ▸ h.move (by split <;> rfl) (by split <;> rfl)
  case creating =>
    subst hs
    cases ok with
    | true => exact h.create rfl rfl rfl (h.current_of_entry rfl)
    | false => exact h.move rfl rfl
  case created p =>
    subst hs
    have hnone := h.current_of_entry rfl
    split
    next => exact h.discard rfl rfl rfl hnone
    next hgoes => exact h.enter rfl rfl rfl hnone (Bool.eq_false_iff.mpr hgoes)
  case leaving p => exact hs ▸ h.close rfl (.inl rfl)
  case failed p => exact hs ▸ h.close rfl (.inl rfl)
  case closing p => exact hs ▸ h.close rfl (.inl rfl)
  case sending p =>
    split at hs
    next => exact Option.some.inj hs ▸ h.move rfl rfl
    next => cases hs
  case returned p connected =>
    exact hs ▸ h.move (by split <;> [rfl; (split <;> rfl)])
      (by split <;> [rfl; (split <;> rfl)])
  all_goals exact hs ▸ h.move (by first | rfl | (split <;> rfl)) (by first
    | rfl | (split <;> rfl))

/-- A client changes nothing about the pipes. -/
theorem sound_ipcClient {s : PipeServer IpcPhase} {phase : IpcPhase} {ok : Bool}
    (h : s.Sound IpcPhase.owned IpcPhase.entry)
    (hs : ipcClient s.accept ok = some phase) :
    ({ s with accept := phase } : PipeServer IpcPhase).Sound IpcPhase.owned
      IpcPhase.entry := by
  obtain ⟨old, stopper, current, ledger⟩ := s
  dsimp only at hs
  unfold ipcClient at hs
  split at hs
  next => exact Option.some.inj hs ▸ h.move rfl rfl
  next =>
    exact Option.some.inj hs ▸ h.move (by split <;> rfl) (by split <;> rfl)
  next =>
    exact Option.some.inj hs ▸ h.move (by split <;> rfl) (by split <;> rfl)
  next => cases hs

theorem sound_ipcLoop_step {s t : PipeServer IpcPhase} {a : PipeAction}
    (h : s.Sound IpcPhase.owned IpcPhase.entry)
    (hs : ipcLoop.step s a = some t) :
    t.Sound IpcPhase.owned IpcPhase.entry := by
  cases a with
  | accept ok => exact sound_ipcLoop_goOn h hs
  | client ok =>
    obtain ⟨phase, hphase, rfl⟩ := Option.map_eq_some_iff.mp hs
    exact sound_ipcClient h hphase
  | stop => exact h.stop (fun _ => rfl) (fun _ => rfl) hs

/-- A server that was just started has made no pipe yet. -/
theorem sound_started {Phase : Type} {owned entry : Phase → Option ℕ}
    {phase : Phase}
    (howned : owned phase = none) (hentry : entry phase = none) :
    ({ accept := phase } : PipeServer Phase).Sound owned entry :=
  ⟨by simpa [howned] using ResourceLedger.balanced_empty, .inl rfl,
    fun _ => rfl, fun p hp => absurd (hentry.symm.trans hp) nofun⟩

/-- **The server of requests closes every pipe once**, however its thread, its
clients and `Stop` interleave. A pipe that is closed again could by then be
somebody else’s handle, which is what has to be excluded. -/
theorem ipc_closes_once (steps : List PipeAction) :
    Runs.Everywhere ipcLoop.step ipcLoop.ClosesOnce
      { accept := .top } steps := by
  have hsound : Runs.Everywhere ipcLoop.step
      (PipeServer.Sound IpcPhase.owned IpcPhase.entry)
        { accept := .top } steps :=
    Runs.everywhere_of_forall (fun _ _ _ h hs => sound_ipcLoop_step h hs)
      (sound_started rfl rfl)
      steps
  exact hsound.mono (fun s h => h.closesOnce rfl rfl)

/-- The pipe of a client that could not connect is closed from the hands of the
thread, and `Stop` has closed it before. -/
def ClosesAgain (s : PipeServer EventsPhase) : PipeAction → Prop
  | .accept _ => s.current = none ∧ ∃ p, s.accept = .failed p
  | _ => False

/-- The thread of the server of hook messages keeps it, unless it closes a pipe
again. -/
theorem sound_eventsLoop_goOn {s t : PipeServer EventsPhase} {ok : Bool}
    (h : s.Sound EventsPhase.owned EventsPhase.entry)
    (hagain : ¬ ClosesAgain s (.accept ok))
    (hs : eventsGoOn s ok = some t) :
    t.Sound EventsPhase.owned EventsPhase.entry := by
  obtain ⟨phase, stopper, current, ledger⟩ := s
  cases phase <;> simp only [eventsGoOn, Option.some.injEq, reduceCtorEq] at hs
  case top => exact hs ▸ h.move (by split <;> rfl) (by split <;> rfl)
  case creating =>
    subst hs
    cases ok with
    | true => exact h.create rfl rfl rfl (h.current_of_entry rfl)
    | false => exact h.move rfl rfl
  case created p =>
    subst hs
    have hnone := h.current_of_entry rfl
    split
    next => exact h.discard rfl rfl rfl hnone
    next hgoes => exact h.enter rfl rfl rfl hnone (Bool.eq_false_iff.mpr hgoes)
  case leaving p => exact hs ▸ h.close rfl (.inl rfl)
  case closing p => exact hs ▸ h.close rfl (.inl rfl)
  case failed p =>
    -- what is in the variable is the pipe in the hands of the thread
    rcases h.current with hnone | hsome
    · exact absurd ⟨hnone, p, rfl⟩ hagain
    · obtain rfl : current = some p := hsome
      exact hs ▸ h.close rfl (.inl rfl)
  case returned p connected =>
    exact hs ▸ h.move (by split <;> [rfl; (split <;> rfl)])
      (by split <;> [rfl; (split <;> rfl)])
  all_goals exact hs ▸ h.move (by first | rfl | (split <;> rfl)) (by first
    | rfl | (split <;> rfl))

theorem sound_eventsClient {s : PipeServer EventsPhase}
    {phase : EventsPhase} {ok : Bool}
    (h : s.Sound EventsPhase.owned EventsPhase.entry)
    (hs : eventsClient s.accept ok = some phase) :
    ({ s with accept := phase } : PipeServer EventsPhase).Sound
      EventsPhase.owned
      EventsPhase.entry := by
  obtain ⟨old, stopper, current, ledger⟩ := s
  dsimp only at hs
  unfold eventsClient at hs
  split at hs
  next => exact Option.some.inj hs ▸ h.move rfl rfl
  next =>
    exact Option.some.inj hs ▸ h.move (by split <;> rfl) (by split <;> rfl)
  next => cases hs

/-- A pipe that is closed again was closed twice. -/
theorem not_closesOnce_of_closesAgain {s t : PipeServer EventsPhase} {ok : Bool}
    (h : s.Sound EventsPhase.owned EventsPhase.entry)
    (hagain : ClosesAgain s (.accept ok))
    (hs : eventsGoOn s ok = some t) : ¬ eventsLoop.ClosesOnce t := by
  obtain ⟨hnone, p, hfailed⟩ := hagain
  have hbefore : s.ledger.released.count p = 1 := by
    have hcount := ResourceLedger.balanced_iff.mp h.balanced p
    have hp : p < s.ledger.taken := h.made p (by rw [hfailed]; rfl)
    have hheld : (EventsPhase.owned s.accept).toList ++ s.current.toList
        = [] := by
      rw [hfailed, hnone]
      rfl
    simpa [hheld, hp] using hcount
  simp only [eventsGoOn, hfailed, Option.some.injEq] at hs
  subst hs
  intro honce
  have hle : (p :: s.ledger.released).count p ≤ 1 := honce.1 p
  rw [List.count_cons_self] at hle
  omega

theorem sound_eventsLoop_step {s t : PipeServer EventsPhase} {a : PipeAction}
    (h : s.Sound EventsPhase.owned EventsPhase.entry)
    (hagain : ¬ ClosesAgain s a)
    (hs : eventsLoop.step s a = some t) :
    t.Sound EventsPhase.owned EventsPhase.entry := by
  cases a with
  | accept ok => exact sound_eventsLoop_goOn h hagain hs
  | client ok =>
    obtain ⟨phase, hphase, rfl⟩ := Option.map_eq_some_iff.mp hs
    exact sound_eventsClient h hphase
  | stop =>
    exact h.stop (fun phase => by cases phase <;> rfl)
      (fun phase => by cases phase <;> rfl) hs

/-- **The server of hook messages closes every pipe once**, exactly in the
runs in which no client fails to connect while `Stop` closes the pipe. Such a
client makes the thread close the pipe that `Stop` is about to close as
well. -/
theorem events_closes_once_iff (steps : List PipeAction) :
    Runs.Everywhere eventsLoop.step eventsLoop.ClosesOnce
        { accept := .top } steps ↔
      Runs.Guarded eventsLoop.step
        (fun s a => ¬ ClosesAgain s a) { accept := .top } steps := by
  refine Runs.everywhere_iff_guarded_of_breaking
    (fun s h => h.closesOnce rfl rfl)
    (fun s a t h hok hs => sound_eventsLoop_step h hok hs)
      (fun s a t h hagain hs => ?_)
    (sound_started rfl rfl)
  cases a with
  | accept ok => exact not_closesOnce_of_closesAgain h (not_not.mp hagain) hs
  | client | stop => exact absurd id hagain

/-! ## `Stop` ends

That a stop ends is shown by counting the steps that the thread can still take
once `stop_` is set. What is left to say is whether somebody can go on at
every point without a client, and there the two servers differ. -/

/-- How much of `Stop` is left. -/
def Stopper.left : Stopper → ℕ
  | .running => 4
  | .flagged => 3
  | .cancelled => 2
  | .closed => 1
  | .joined => 0

/-- How many steps the thread takes at most when it is to stop. -/
def IpcPhase.left : IpcPhase → ℕ
  | .done => 0
  | .top | .created _ | .leaving _ => 1
  | .creating | .closing _ | .failed _ | .returned _ _ => 2
  | .waiting _ | .serving _ => 3
  | .entered _ | .greeting _ | .sending _ => 4
  | .writing _ => 5
  | .answering _ => 6
  | .reading _ => 7

@[inherit_doc IpcPhase.left]
def EventsPhase.left : EventsPhase → ℕ
  | .done => 0
  | .top | .created _ | .leaving _ => 1
  | .creating | .closing _ | .failed _ | .returned _ _ => 2
  | .connecting _ | .handling _ => 3
  | .entered _ | .serving _ => 4
  | .reading _ => 5
  | .asking _ => 6

namespace AcceptLoop

variable {Phase : Type} [DecidableEq Phase] (loop : AcceptLoop Phase)

/-- `Stop` has returned, or somebody can go on without a client. -/
def GoesOn (s : PipeServer Phase) : Prop :=
  s.stopper = .joined ∨ (loop.step s (.accept true)).isSome = true ∨
    (loop.step s .stop).isSome = true

/-- Whatever happens next, it is over after `n` steps, and until then somebody
can go on without a client. -/
def EndsWithin (n : ℕ) (s : PipeServer Phase) : Prop :=
  ∀ steps t, Runs.run loop.step s steps = some t →
    steps.length ≤ n ∧ loop.GoesOn t

variable {s t : PipeServer Phase} (left : Phase → ℕ)

/-- Once `stop_` is set, every step brings the end nearer, where every step of
the thread does. -/
theorem step_lt
    (hgoOn : ∀ {s t ok}, s.stopping = true → loop.goOn s ok = some t →
      t.stopper = s.stopper ∧ left t.accept < left s.accept)
    (hclient : ∀ {phase phase' ok}, loop.client phase ok = some phase' →
      left phase' < left phase)
    (hcancel : ∀ phase, left (loop.cancel phase) ≤ left phase) {a : PipeAction}
    (hstop : s.stopping = true) (hs : loop.step s a = some t) :
    t.stopping = true ∧
      left t.accept + t.stopper.left < left s.accept + s.stopper.left := by
  cases a with
  | accept ok =>
    obtain ⟨hsame, hless⟩ := hgoOn hstop hs
    rw [PipeServer.stopping, hsame]
    exact ⟨hstop, Nat.add_lt_add_right hless _⟩
  | client ok =>
    obtain ⟨phase, hphase, rfl⟩ := Option.map_eq_some_iff.mp hs
    exact ⟨hstop, Nat.add_lt_add_right (hclient hphase) _⟩
  | stop =>
    have hkept := hcancel s.accept
    simp only [step, stop] at hs
    cases hstopper : s.stopper with
    | running => simp [PipeServer.stopping, hstopper] at hstop
    | flagged =>
      simp only [hstopper, Option.some.injEq] at hs
      subst hs
      refine ⟨rfl, ?_⟩
      show left (loop.cancel s.accept) + 2 < left s.accept + 3
      omega
    | cancelled =>
      simp only [hstopper, Option.some.injEq] at hs
      exact hs ▸ ⟨rfl, Nat.lt_succ_self (left s.accept + 1)⟩
    | closed =>
      simp only [hstopper] at hs
      split at hs
      next => exact Option.some.inj hs ▸ ⟨rfl, Nat.lt_succ_self (left s.accept)⟩
      next => cases hs
    | joined =>
      simp only [hstopper] at hs
      cases hs

end AcceptLoop

theorem Stopper.left_le {Phase : Type} {s : PipeServer Phase}
    (h : s.stopping = true) :
    s.stopper.left ≤ 3 := by
  unfold PipeServer.stopping at h
  cases hstopper : s.stopper <;> simp [left, hstopper] at h ⊢

/-- The thread of the server of requests is nearer to its end. -/
theorem ipcGoOn_lt {s t : PipeServer IpcPhase} {ok : Bool}
    (hstop : s.stopping = true)
    (hs : ipcGoOn s ok = some t) :
    t.stopper = s.stopper ∧ t.accept.left < s.accept.left := by
  obtain ⟨phase, stopper, current, ledger⟩ := s
  cases phase <;> simp only [ipcGoOn, hstop, if_true, Option.some.injEq,
    reduceCtorEq] at hs
  case creating => cases ok <;> exact hs ▸ ⟨rfl, by simp [IpcPhase.left]⟩
  case entered => cases ok <;> exact hs ▸ ⟨rfl, by simp [IpcPhase.left]⟩
  case writing => cases current <;> exact hs ▸ ⟨rfl, by simp [IpcPhase.left]⟩
  case sending =>
    split at hs
    next => exact Option.some.inj hs ▸ ⟨rfl, by simp [IpcPhase.left]⟩
    next => cases hs
  all_goals exact hs ▸ ⟨rfl, by simp [IpcPhase.left]⟩

theorem ipcClient_lt {phase phase' : IpcPhase} {ok : Bool}
    (hs : ipcClient phase ok = some phase') : phase'.left < phase.left := by
  unfold ipcClient at hs
  split at hs
  next => exact Option.some.inj hs ▸ by simp [IpcPhase.left]
  next => cases ok <;> exact Option.some.inj hs ▸ by simp [IpcPhase.left]
  next => cases ok <;> exact Option.some.inj hs ▸ by simp [IpcPhase.left]
  next => cases hs

/-- The thread of the server of requests waits for a client alone only while it
writes, and then `Stop` has not closed the pipe yet. -/
theorem ipc_goesOn {s : PipeServer IpcPhase}
    (h : s.Sound IpcPhase.owned IpcPhase.entry)
    (hstop : s.stopping = true) : ipcLoop.GoesOn s := by
  obtain ⟨phase, stopper, current, ledger⟩ := s
  cases stopper with
  | running => cases hstop
  | flagged | cancelled => exact .inr (.inr rfl)
  | joined => exact .inl rfl
  | closed =>
    obtain rfl : current = none := h.closed (.inl rfl)
    cases phase with
    | done => exact .inr (.inr rfl)
    | _ => exact .inr (.inl rfl)

/-- **`Stop` of the server of requests ends** within ten steps of the two
threads and the client, whatever these are, and it never waits for the client.
The steps are counted from any state in which `Stop` is under way, with the
thread wherever it is. -/
theorem ipc_stop_ends (steps : List PipeAction) :
    Runs.Everywhere ipcLoop.step (fun s => s.stopping = true →
      ipcLoop.EndsWithin 10 s)
      { accept := .top } steps := by
  have hsound : Runs.Everywhere ipcLoop.step
      (PipeServer.Sound IpcPhase.owned IpcPhase.entry)
        { accept := .top } steps :=
    Runs.everywhere_of_forall (fun _ _ _ h hs => sound_ipcLoop_step h hs)
      (sound_started rfl rfl)
      steps
  refine hsound.mono (fun s h hstop rest t hrun => ?_)
  have hstep : ∀ (s : PipeServer IpcPhase) a t,
      s.Sound IpcPhase.owned IpcPhase.entry ∧ s.stopping = true →
      ipcLoop.step s a = some t →
      (t.Sound IpcPhase.owned IpcPhase.entry ∧ t.stopping = true) ∧
        t.accept.left + t.stopper.left < s.accept.left + s.stopper.left := by
    intro s a t hs ht
    obtain ⟨hgoes, hless⟩ :=
      ipcLoop.step_lt IpcPhase.left ipcGoOn_lt ipcClient_lt
        (fun _ => Nat.le_refl _) hs.2 ht
    exact ⟨⟨sound_ipcLoop_step hs.1 ht, hgoes⟩, hless⟩
  obtain ⟨⟨hend, hgoes⟩, hlen⟩ :=
    Runs.length_le_of_decreasing hstep ⟨h, hstop⟩ hrun
  have haccept : s.accept.left ≤ 7 := by
    cases s.accept <;> simp [IpcPhase.left]
  exact ⟨Nat.le_trans hlen (Nat.add_le_add haccept (Stopper.left_le hstop)),
    ipc_goesOn hend hgoes⟩

/-! The server of hook messages waits in calls that do not look at `stop_`. -/

/-- The thread is in a call that only a client or a cancellation ends. -/
def EventsPhase.blocked : EventsPhase → Bool
  | .connecting _ | .reading _ => true
  | _ => false

theorem eventsGoOn_lt {s t : PipeServer EventsPhase} {ok : Bool}
    (hstop : s.stopping = true)
    (hs : eventsGoOn s ok = some t) :
    t.stopper = s.stopper ∧ t.accept.left < s.accept.left := by
  obtain ⟨phase, stopper, current, ledger⟩ := s
  cases phase <;> simp only [eventsGoOn, hstop, if_true, Option.some.injEq,
    reduceCtorEq] at hs
  case creating => cases ok <;> exact hs ▸ ⟨rfl, by simp [EventsPhase.left]⟩
  case entered =>
    subst hs
    refine ⟨rfl, ?_⟩
    dsimp only
    split <;> simp [EventsPhase.left]
  case asking =>
    subst hs
    refine ⟨rfl, ?_⟩
    dsimp only
    split <;> simp [EventsPhase.left]
  all_goals exact hs ▸ ⟨rfl, by simp [EventsPhase.left]⟩

theorem eventsClient_lt {phase phase' : EventsPhase} {ok : Bool}
    (hs : eventsClient phase ok = some phase') : phase'.left < phase.left := by
  unfold eventsClient at hs
  split at hs
  next => exact Option.some.inj hs ▸ by simp [EventsPhase.left]
  next => cases ok <;> exact Option.some.inj hs ▸ by simp [EventsPhase.left]
  next => cases hs

theorem eventsCancel_le (phase : EventsPhase) :
    (eventsCancel phase).left ≤ phase.left := by
  cases phase <;> simp [eventsCancel, EventsPhase.left]

/-- **The server of hook messages** waits for a client alone exactly in the
calls that are still under way when `Stop` has closed the pipe. -/
theorem events_goesOn_iff {s : PipeServer EventsPhase}
    (hstop : s.stopping = true) :
    eventsLoop.GoesOn s ↔
      ¬ (s.stopper = .closed ∧ s.accept.blocked = true) := by
  obtain ⟨phase, stopper, current, ledger⟩ := s
  cases stopper with
  | running => cases hstop
  | flagged | cancelled =>
    exact iff_of_true (.inr (.inr rfl)) (fun h => nomatch h.1)
  | joined => exact iff_of_true (.inl rfl) (fun h => nomatch h.1)
  | closed =>
    cases phase with
    | connecting | reading =>
      refine iff_of_false ?_ (fun h => h ⟨rfl, rfl⟩)
      rintro (h | h | h) <;> cases h
    | done => exact iff_of_true (.inr (.inr rfl)) (fun h => nomatch h.2)
    | _ => exact iff_of_true (.inr (.inl rfl)) (fun h => nomatch h.2)

/-- What `Stop` has closed is not in the variable again. -/
def ClosedForGood (s : PipeServer EventsPhase) : Prop :=
  s.stopper = .closed ∨ s.stopper = .joined → s.current = none

/-- Neither a client nor the thread comes into a call on a closed pipe, and
`stop_` stays set. -/
theorem eventsGoOn_afterStop {s t : PipeServer EventsPhase} {ok : Bool}
    (hs : eventsGoOn s ok = some t) : t.stopper = s.stopper ∧
      (s.stopping = true → t.current = none ∨ t.current = s.current) ∧
      (s.current = none → t.accept.blocked = false) := by
  obtain ⟨phase, stopper, current, ledger⟩ := s
  cases phase <;> simp only [eventsGoOn, Option.some.injEq,
    reduceCtorEq] at hs <;> subst hs
  case top =>
    exact ⟨rfl, fun _ => .inr rfl, fun _ => by dsimp only; split <;> rfl⟩
  case creating => cases ok <;> exact ⟨rfl, fun _ => .inr rfl, fun _ => rfl⟩
  case created =>
    split
    next => exact ⟨rfl, fun _ => .inr rfl, fun _ => rfl⟩
    next hgoes => exact ⟨rfl, fun hstop => absurd hstop hgoes, fun _ => rfl⟩
  case entered | asking =>
    refine ⟨rfl, fun _ => .inr rfl, fun hnone => ?_⟩
    obtain rfl : current = none := hnone
    simp [EventsPhase.blocked]
  case returned =>
    exact ⟨rfl, fun _ => .inr rfl,
      fun _ => by dsimp only; split <;> [rfl; (split <;> rfl)]⟩
  case leaving | closing | failed =>
    exact ⟨rfl, fun _ => .inl rfl, fun _ => rfl⟩
  case serving =>
    exact ⟨rfl, fun _ => .inr rfl, fun _ => by dsimp only; split <;> rfl⟩
  case handling => exact ⟨rfl, fun _ => .inr rfl, fun _ => rfl⟩

theorem eventsClient_blocked {phase phase' : EventsPhase} {ok : Bool}
    (hs : eventsClient phase ok = some phase') : phase'.blocked = false := by
  unfold eventsClient at hs
  split at hs
  next => exact Option.some.inj hs ▸ rfl
  next => cases ok <;> exact Option.some.inj hs ▸ rfl
  next => cases hs

theorem closedForGood_step {s t : PipeServer EventsPhase} {a : PipeAction}
    (h : ClosedForGood s) (hs : eventsLoop.step s a = some t) :
    ClosedForGood t := by
  cases a with
  | accept ok =>
    obtain ⟨hsame, hcurrent, -⟩ := eventsGoOn_afterStop hs
    intro hstopper
    rw [hsame] at hstopper
    have hstop : s.stopping = true := by
      unfold PipeServer.stopping
      rcases hstopper with hstopper | hstopper <;> rw [hstopper] <;> rfl
    rcases hcurrent hstop with hnone | hkept
    · exact hnone
    · rw [hkept]
      exact h hstopper
  | client ok =>
    obtain ⟨phase, -, rfl⟩ := Option.map_eq_some_iff.mp hs
    exact h
  | stop =>
    simp only [AcceptLoop.step, AcceptLoop.stop] at hs
    cases hstopper : s.stopper <;>
      simp only [hstopper, Option.some.injEq, reduceCtorEq] at hs
    case running => exact hs ▸ nofun
    case flagged => exact hs ▸ nofun
    case cancelled => exact hs ▸ fun _ => rfl
    case closed =>
      split at hs
      next => exact Option.some.inj hs ▸ fun _ => h (.inl hstopper)
      next => cases hs

/-- **`Stop` of the server of hook messages ends**, exactly in the runs in which
no call is under way when it closes the pipe: a call that began after
`CancelSynchronousIo` is waited for as long as there is no client. Beyond that,
nine steps are enough in any run. -/
theorem events_stop_ends_iff (steps : List PipeAction) :
    (Runs.Everywhere eventsLoop.step (fun s => s.stopping = true →
      eventsLoop.GoesOn s)
        { accept := .top } steps ↔
      Runs.Guarded eventsLoop.step
        (fun s a => a = .stop → s.stopper = .cancelled →
          s.accept.blocked = false)
        { accept := .top } steps) ∧
      Runs.Everywhere eventsLoop.step (fun s => s.stopping = true → ∀ rest t,
        Runs.run eventsLoop.step s rest = some t → rest.length ≤ 9)
      { accept := .top } steps := by
  -- `Stop` is stuck only in the join, with a thread in a call that it did not
  -- get out of
  have hgoesOn : ∀ s : PipeServer EventsPhase,
      (s.stopping = true → eventsLoop.GoesOn s) ↔
      (s.stopper = .closed → s.accept.blocked = false) := by
    intro s
    constructor
    · intro h hclosed
      have hstop : s.stopping = true := by
        rw [PipeServer.stopping, hclosed]
        rfl
      have hnot := (events_goesOn_iff hstop).mp (h hstop)
      exact Bool.eq_false_iff.mpr (fun hblocked => hnot ⟨hclosed, hblocked⟩)
    · intro h hstop
      refine (events_goesOn_iff hstop).mpr (fun hstuck => ?_)
      exact absurd ((h hstuck.1).symm.trans hstuck.2) Bool.false_ne_true
  -- six steps of the thread and three of `Stop` are what can be left
  have hbound : ∀ s : PipeServer EventsPhase, s.stopping = true → ∀ rest t,
      Runs.run eventsLoop.step s rest = some t → rest.length ≤ 9 := by
    intro s hstop rest t hrun
    obtain ⟨-, hlen⟩ := Runs.length_le_of_decreasing (fun s a t hs ht =>
      eventsLoop.step_lt EventsPhase.left eventsGoOn_lt eventsClient_lt
        eventsCancel_le hs ht)
      hstop hrun
    have haccept : s.accept.left ≤ 6 := by
      cases s.accept <;> simp [EventsPhase.left]
    exact Nat.le_trans hlen (Nat.add_le_add haccept (Stopper.left_le hstop))
  constructor
  · refine Runs.everywhere_iff_guarded_of_invariant
      (fun s a t h hs => closedForGood_step h hs)
      (fun s a t hgood h hs => ?_) (fun _ => rfl) (fun h => nomatch h)
    rw [hgoesOn] at h ⊢
    cases a with
    -- once the handle is closed the thread does not enter a call again
    | accept ok =>
      obtain ⟨hsame, -, hblocked⟩ := eventsGoOn_afterStop hs
      refine iff_of_true (fun hclosed => ?_) (fun h => nomatch h)
      exact hblocked (hgood (.inl (hsame.symm.trans hclosed)))
    | client ok =>
      obtain ⟨phase, hphase, rfl⟩ := Option.map_eq_some_iff.mp hs
      exact iff_of_true (fun _ => eventsClient_blocked hphase)
        (fun h => nomatch h)
    | stop =>
      simp only [AcceptLoop.step, AcceptLoop.stop] at hs
      cases hstopper : s.stopper <;>
        simp only [hstopper, Option.some.injEq, reduceCtorEq] at hs
      case running =>
        exact hs ▸ iff_of_true (fun h => nomatch h) (fun _ h => nomatch h)
      case flagged =>
        exact hs ▸ iff_of_true (fun h => nomatch h) (fun _ h => nomatch h)
      case cancelled =>
        exact hs ▸ ⟨fun hfree _ _ => hfree rfl, fun hfree _ => hfree rfl rfl⟩
      case closed =>
        split at hs
        next =>
          exact Option.some.inj hs
            ▸ iff_of_true (fun h => nomatch h) (fun _ h => nomatch h)
        next => cases hs
  · exact Runs.everywhere_of_forall (fun _ _ t _ _ => hbound t) (hbound _) steps

end WebcamStreamer
