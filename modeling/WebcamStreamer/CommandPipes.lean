import Mathlib.Data.List.ReduceOption
import WebcamStreamer.BoundedPipe
import WebcamStreamer.ProbeWorker
import WebcamStreamer.Runs

/-!
# Running a command to its end

`RunCommand` starts a process and reads what it writes to its standard output
and its standard error, each through a pipe whose buffer is bounded. A process
that writes to a full pipe waits. So the two pipes are read at the same time, by
the caller and by a thread of its own; then the caller waits for the exit, and
kills the process if that takes too long.

`DrainPipe` reads a pipe until nobody is left who could write to it. Write ends
are inherited: the process has one of each pipe until it closes it or exits, and
so may other processes that were started in between, which are taken not to
write anything. The loop has another way out, though: it stops at a read that
succeeds with zero bytes, and that is what a write of zero bytes may come out
as. What the process writes behind it is then never read.

This module takes the steps of everyone involved one by one. Whatever their
order, the result is what `runCommand` says for everything that was written, or
for what comes before a write of zero bytes (`run_command_result`). How long it
takes is up to the process: no timeout counts while the pipes are drained.
`run_command_ends` says for what `RunCommand` waits, and when it waits for ever
although the process and the others go on.
-/

namespace WebcamStreamer

/-! ## The process and its reader

Four parties take turns: the process, which writes and closes and exits; the
caller, which drains the standard output, joins its thread and waits; the
thread, which drains the standard error; and other processes that may have
inherited a write end. A step of any of them is possible or not, and a run is
any interleaving. -/

/-- What a process writes to. -/
inductive Output where
  | out
  | err
  deriving DecidableEq

/-- The room that a piece of what is written needs in a pipe. A piece is a byte,
or `none` for a whole write of zero bytes. -/
def pieceSize (piece : Option UInt8) : ℕ := piece.isSome.toNat

/-- What a process does: it writes a piece, or closes an output before it
exits. -/
inductive ChildOp where
  | write (o : Output) (piece : Option UInt8)
  | close (o : Output)

/-- The process: what it has still to do, the outputs it has closed, its exit
code. -/
structure ChildProcess where
  todo : List ChildOp
  closed : Output → Bool := fun _ => false
  exitCode : Option ℤ := none

/-- Where the caller is in `RunCommand`. -/
inductive CommandPhase where
  /-- In `DrainPipe` for the standard output. -/
  | draining
  /-- It waits for the thread. -/
  | joining
  /-- It waits for the exit. -/
  | waiting
  /-- Before `TerminateProcess`. -/
  | killing
  | killed
  | done
  deriving DecidableEq

/-- What `RunCommand` is given by the operating system and by its caller: the
size of a buffer, whether the thread for the standard error could be created,
and whether there is a timeout. -/
structure CommandSetup where
  room : ℕ+
  created : Bool
  timed : Bool

/-- A command that runs. -/
structure RunningCommand (setup : CommandSetup) where
  child : ChildProcess
  pipes : Output → BoundedPipe (Option UInt8) pieceSize setup.room :=
    fun _ => .empty
  /-- The write ends that other processes have inherited. -/
  held : Output → ℕ
  phase : CommandPhase := .draining
  /-- The thread has left `DrainPipe` for the standard error. -/
  drained : Bool := false
  inTime : Bool := true

/-- What happens. -/
inductive CommandAction where
  | child
  | exit (code : ℤ)
  /-- Another process that has a write end exits. -/
  | leave (o : Output)
  /-- `ReadFile` succeeds, with the bytes of so many pieces. -/
  | read (o : Output) (n : ℕ)
  /-- `ReadFile` fails, since nobody is left who could write. -/
  | eof (o : Output)
  | joined
  | exited
  | timeout
  | kill
  | giveUp

/-- The steps of `RunCommand` itself, which are those of the caller and its
thread. -/
def CommandAction.own : CommandAction → Bool
  | .child | .exit _ | .leave _ => false
  | .read _ _ | .eof _ | .joined | .exited | .timeout | .kill | .giveUp => true

namespace RunningCommand

variable {setup : CommandSetup}

/-- Nobody is left who could write. -/
def ended (s : RunningCommand setup) (o : Output) : Bool :=
  s.held o == 0 && (s.child.exitCode.isSome || s.child.closed o)

/-- `DrainPipe` has returned for an output. -/
def finished (s : RunningCommand setup) : Output → Bool
  | .out => s.phase != .draining
  | .err => s.drained

/-- Somebody is in `DrainPipe` for an output. -/
def reads (s : RunningCommand setup) : Output → Bool
  | .out => !s.finished .out
  | .err => setup.created && !s.finished .err

/-- The process goes on: a write waits for room, and a write to a closed output
fails. -/
def childStep (s : RunningCommand setup) : Option (RunningCommand setup) :=
  if s.child.exitCode.isSome then none
  else
    match s.child.todo with
    | [] => none
    | .close o :: rest =>
      some { s with child := { s.child with
        todo := rest, closed := Function.update s.child.closed o true } }
    | .write o piece :: rest =>
      if s.child.closed o then
        some { s with child := { s.child with todo := rest } }
      else
        ((s.pipes o).put piece).map (fun pipe =>
          { s with
            child := { s.child with todo := rest }
            pipes := Function.update s.pipes o pipe })

/-- A reader returns from `DrainPipe`. -/
def atEnd (s : RunningCommand setup) : Output → RunningCommand setup
  | .out => { s with phase := if setup.created then .joining else .waiting }
  | .err => { s with drained := true }

/-- `ReadFile` takes what is first in the pipe. A write of zero bytes may get
lost among the bytes around it; a read that has found nothing else has zero
bytes, and is the last one of its loop. -/
def readStep (s : RunningCommand setup) (o : Output) (n : ℕ) :
    RunningCommand setup :=
  let t := { s with pipes := Function.update s.pipes o ((s.pipes o).get n) }
  if ((s.pipes o).buffer.take n).reduceOption.isEmpty then t.atEnd o else t

/-- One step of somebody; `none` is one that is not possible. -/
def step (s : RunningCommand setup) :
    CommandAction → Option (RunningCommand setup)
  | .child => s.childStep
  | .exit code =>
    if s.child.exitCode = none ∧ s.child.todo.isEmpty then
      some { s with child := { s.child with exitCode := some code } }
    else none
  | .leave o =>
    if 0 < s.held o then
      some { s with held := Function.update s.held o (s.held o - 1) }
    else none
  | .read o n =>
    if s.reads o ∧ 0 < n ∧ n ≤ (s.pipes o).buffer.length ∧
        ((s.pipes o).buffer.take n).reduceOption.length ≤ 4096 then
      some (s.readStep o n)
    else none
  | .eof o =>
    if s.reads o ∧ (s.pipes o).buffer.isEmpty ∧ s.ended o then some (s.atEnd o)
    else none
  | .joined =>
    if s.phase = .joining ∧ s.drained then
      some { s with phase := .waiting }
    else none
  | .exited =>
    if s.phase = .waiting ∧ s.child.exitCode.isSome then
      some { s with phase := .done }
    else none
  | .timeout =>
    if s.phase = .waiting ∧ setup.timed ∧ s.child.exitCode = none then
      some { s with phase := .killing, inTime := false }
    else none
  -- the process may just have exited by itself
  | .kill =>
    if s.phase = .killing then
      some { s with
        phase := .killed
        child := { s.child with
          todo := [], exitCode := s.child.exitCode.or (some 1) } }
    else none
  | .giveUp =>
    if s.phase = .killed then some { s with phase := .done } else none

/-- The bytes that were read of an output. -/
def got (s : RunningCommand setup) (o : Output) : Bytes :=
  (s.pipes o).received.reduceOption

/-- What `RunCommand` returns: the standard error is what the thread has
read. -/
def result (s : RunningCommand setup) : CommandResult where
  stdoutText := bytesText (s.got .out)
  stderrText := if setup.created then bytesText (s.got .err) else []
  exitCode := s.child.exitCode.getD (-1)
  ok := s.inTime && s.child.exitCode == some 0

/-- A command that was just started, with what its process is going to do, and
the write ends that others have inherited. -/
def start (script : List ChildOp) (held : Output → ℕ) :
    RunningCommand setup where
  child := { todo := script }
  held := held

end RunningCommand

/-- What a process writes to an output that is open, with what it does. -/
def writesTo (o : Output) : Bool → List ChildOp → List (Option UInt8)
  | _, [] => []
  | closed, .close o' :: rest => writesTo o (closed || decide (o' = o)) rest
  | closed, .write o' piece :: rest =>
    if o' = o ∧ closed = false then piece :: writesTo o closed rest
    else writesTo o closed rest

/-- What one has of what was written: all bytes of it, or the bytes in front of
a write of zero bytes. -/
def Drains (written : List (Option UInt8)) (bytes : Bytes) : Prop :=
  bytes = written.reduceOption ∨
    ∃ before after, written = before ++ none :: after ∧
      bytes = before.reduceOption

/-! ## What has been read

The invariant relates three amounts: what the process was going to write, what
is in the pipes and what has been read. As long as somebody reads an output
the three add up. A reader that has returned has either seen the end, and then
it has everything, or it was sent away by a write of zero bytes. -/

/-- Pieces without a byte begin with a write of zero bytes. -/
theorem exists_cons_none {pieces : List (Option UInt8)} (hne : pieces ≠ [])
    (hnone : pieces.reduceOption = []) : ∃ rest, pieces = none :: rest := by
  match pieces with
  | [] => exact absurd rfl hne
  | none :: rest => exact ⟨rest, rfl⟩
  | some b :: rest =>
    rw [List.reduceOption_cons_of_some] at hnone
    cases hnone

/-- Nothing is written to an output that is closed. -/
@[simp] theorem writesTo_closed (o : Output) (todo : List ChildOp) :
    writesTo o true todo = [] := by
  induction todo with
  | nil => rfl
  | cons op todo ih =>
    cases op with
    | write o' piece =>
      rw [writesTo, if_neg (fun h => Bool.noConfusion h.2), ih]
    | close o' => rw [writesTo, Bool.true_or, ih]

/-- What is written was to be written. -/
theorem mem_of_mem_writesTo {o : Output} {piece : Option UInt8}
    {todo : List ChildOp}
    (closed : Bool) (h : piece ∈ writesTo o closed todo) :
    .write o piece ∈ todo := by
  induction todo generalizing closed with
  | nil => exact absurd h List.not_mem_nil
  | cons op todo ih =>
    cases op with
    | close o' => exact List.mem_cons_of_mem _ (ih _ h)
    | write o' piece' =>
      rw [writesTo] at h
      split at h
      next ho =>
        rcases List.mem_cons.mp h with rfl | h
        · exact ho.1 ▸ List.mem_cons_self
        · exact List.mem_cons_of_mem _ (ih _ h)
      next => exact List.mem_cons_of_mem _ (ih _ h)

namespace RunningCommand

variable {setup : CommandSetup} {script : List ChildOp}
  {s t : RunningCommand setup}

/-- Why `DrainPipe` has returned: nobody is left who could write, and everything
was read, or a write of zero bytes was. -/
def Over (script : List ChildOp) (s : RunningCommand setup) (o : Output) :
    Prop :=
  (s.ended o = true ∧ (s.pipes o).buffer = [] ∧
      (s.pipes o).received = writesTo o false script) ∨
    ∃ before after, writesTo o false script = before ++ none :: after ∧
      s.got o = before.reduceOption

/-- What holds of a command that runs a script. -/
structure Sound (script : List ChildOp) (s : RunningCommand setup) : Prop where
  /-- Where somebody reads, what was written and is still to be is what the
  script writes. -/
  reading : ∀ o, s.reads o = true →
    (s.pipes o).written ++ writesTo o (s.child.closed o) s.child.todo
      = writesTo o false script
  ends : ∀ o, s.finished o = true → Over script s o
  exited : s.child.exitCode.isSome = true → s.child.todo = []
  drained : s.drained = true → setup.created = true
  joining : s.phase = .joining → setup.created = true
  joined : setup.created = true →
    s.phase = .draining ∨ s.phase = .joining ∨ s.drained = true
  killed : s.phase = .killed ∨ s.phase = .done → s.child.exitCode.isSome = true

theorem sound_start (script : List ChildOp) (held : Output → ℕ) :
    Sound script (start script held : RunningCommand setup) where
  reading _ _ := rfl
  ends o h := by cases o <;> cases h
  exited h := by cases h
  drained h := by cases h
  joining h := by cases h
  joined _ := .inl rfl
  killed h := by rcases h with h | h <;> cases h

theorem finished_of_reads {o : Output} (h : s.reads o = true) :
    s.finished o = false := by
  cases o with
  | out => exact Bool.not_eq_true' _ ▸ h
  | err => exact Bool.not_eq_true' _ ▸ (Bool.and_eq_true_iff.mp h).2

theorem finished_out (h : s.phase ≠ .draining) : s.finished .out = true :=
  bne_iff_ne.mpr h

theorem Over.drains {o : Output} (h : Over script s o) :
    Drains (writesTo o false script) (s.got o) := by
  rcases h with ⟨-, -, hread⟩ | h
  · exact .inl (congrArg List.reduceOption hread)
  · exact .inr h

/-- The process and the others go on. What was read stays so, and where nobody
was left who could write, nobody writes. -/
theorem Over.move {o : Output} (h : Over script s o)
    (hreceived : (t.pipes o).received = (s.pipes o).received)
    (hended : s.ended o = true →
      t.ended o = true ∧ (t.pipes o).buffer = (s.pipes o).buffer) :
    Over script t o := by
  refine h.imp (fun ⟨hover, hbuffer, hread⟩ => ?_) (fun ⟨before, after,
    hwrites, hgot⟩ =>
    ⟨before, after, hwrites, ?_⟩)
  · obtain ⟨hover', hbuffer'⟩ := hended hover
    exact ⟨hover', hbuffer'.trans hbuffer, hreceived.trans hread⟩
  · exact (congrArg List.reduceOption hreceived).trans hgot

/-- Where nobody is left who could write, nobody ever is: others leave, outputs
are closed and processes exit. -/
theorem ended_mono {child : ChildProcess} {held : Output → ℕ} {o : Output}
    (hheld : held o ≤ s.held o)
    (hexit : s.child.exitCode.isSome = true → child.exitCode.isSome = true)
    (hclosed : s.child.closed o = true → child.closed o = true)
    (h : s.ended o = true) : ended { s with child, held } o = true := by
  obtain ⟨hnone, hgone⟩ := Bool.and_eq_true_iff.mp h
  refine Bool.and_eq_true_iff.mpr ⟨?_, ?_⟩
  · have hzero : s.held o = 0 := beq_iff_eq.mp hnone
    exact beq_iff_eq.mpr (by show held o = 0; omega)
  · exact Bool.or_eq_true_iff.mpr
      ((Bool.or_eq_true_iff.mp hgone).imp hexit hclosed)

/-- The process or the others go on, and the pipes stay as they are. -/
theorem Sound.move (h : Sound script s) {child : ChildProcess}
    {held : Output → ℕ}
    (hwrites : ∀ o, s.reads o = true →
      writesTo o (child.closed o) child.todo
        = writesTo o (s.child.closed o) s.child.todo)
    (hexited : child.exitCode.isSome = true → child.todo = [])
    (hheld : ∀ o, held o ≤ s.held o)
    (hexit : s.child.exitCode.isSome = true → child.exitCode.isSome = true)
    (hclosed : ∀ o, s.child.closed o = true → child.closed o = true) :
    Sound script { s with child, held } where
  reading o ho :=
    (congrArg ((s.pipes o).written ++ ·) (hwrites o ho)).trans (h.reading o ho)
  ends o ho := (h.ends o ho).move rfl
    (fun hended => ⟨ended_mono (hheld o) hexit (hclosed o) hended, rfl⟩)
  exited := hexited
  drained := h.drained
  joining := h.joining
  joined := h.joined
  killed hphase := hexit (h.killed hphase)

/-- A piece is written. -/
theorem Sound.write (h : Sound script s) {o : Output} {piece : Option UInt8}
    {rest : List ChildOp} (hexit : s.child.exitCode.isSome ≠ true)
    (htodo : s.child.todo = .write o piece :: rest)
    (hopen : s.child.closed o ≠ true)
    {pipe : BoundedPipe (Option UInt8) pieceSize setup.room}
    (hput : (s.pipes o).put piece = some pipe) :
    Sound script { s with
      child := { s.child with todo := rest }
      pipes := Function.update s.pipes o pipe } := by
  obtain ⟨hreceived, -⟩ := BoundedPipe.put_eq_some hput
  have hlive : s.ended o = false := by
    rw [ended, Bool.eq_false_iff.mpr hexit, Bool.eq_false_iff.mpr hopen]
    exact Bool.and_false _
  refine ⟨fun o' ho' => ?_,
    fun o' ho' => (h.ends o' ho').move ?_ (fun hended => ?_), fun hexited =>
      absurd hexited hexit, h.drained, h.joining, h.joined, h.killed⟩
  · rw [← h.reading o' ho', htodo]
    show (Function.update s.pipes o pipe o').written
      ++ writesTo o' (s.child.closed o') rest = _
    by_cases heq : o' = o
    · rw [heq, Function.update_self, BoundedPipe.written_put hput, writesTo,
        if_pos ⟨rfl, Bool.eq_false_iff.mpr hopen⟩, List.append_assoc]
      rfl
    · rw [Function.update_of_ne heq, writesTo, if_neg (fun hc => heq hc.1.symm)]
  · show (Function.update s.pipes o pipe o').received = _
    by_cases heq : o' = o
    · rw [heq, Function.update_self, hreceived]
    · rw [Function.update_of_ne heq]
  · have hne : o' ≠ o := by
      rintro rfl
      exact Bool.false_ne_true (hlive.symm.trans hended)
    exact ⟨hended, congrArg BoundedPipe.buffer (Function.update_of_ne hne _ _)⟩

theorem Sound.childStep (h : Sound script s) (ht : s.childStep = some t) :
    Sound script t := by
  unfold RunningCommand.childStep at ht
  split at ht
  next => cases ht
  next hexit =>
    split at ht
    next => cases ht
    next o rest htodo =>
      obtain rfl := Option.some.inj ht
      refine h.move (fun o' _ => ?_) (fun hexited => absurd hexited hexit)
        (fun _ => le_refl _) id (fun o' hclosed => ?_)
      · show writesTo o' (Function.update s.child.closed o true o') rest = _
        rw [htodo, writesTo]
        by_cases heq : o' = o
        · rw [heq, Function.update_self, decide_eq_true rfl, Bool.or_true]
        · rw [Function.update_of_ne heq, decide_eq_false (Ne.symm heq),
            Bool.or_false]
      · show Function.update s.child.closed o true o' = true
        by_cases heq : o' = o
        · rw [heq, Function.update_self]
        · rw [Function.update_of_ne heq, hclosed]
    next o piece rest htodo =>
      split at ht
      next hclosed =>
        obtain rfl := Option.some.inj ht
        refine h.move (fun o' _ => ?_) (fun hexited => absurd hexited hexit)
          (fun _ => le_refl _) id (fun _ => id)
        rw [htodo, writesTo, if_neg]
        rintro ⟨rfl, hopen⟩
        rw [hclosed] at hopen
        cases hopen
      next hopen =>
        obtain ⟨pipe, hput, rfl⟩ := Option.map_eq_some_iff.mp ht
        exact h.write hexit htodo hopen hput

/-- Some pieces are read. -/
theorem Sound.get (h : Sound script s) {o : Output}
    (hreads : s.reads o = true) (n : ℕ) :
    Sound script
      { s with pipes := Function.update s.pipes o ((s.pipes o).get n) } := by
  refine ⟨fun o' ho' => ?_, fun o' ho' => ?_, h.exited, h.drained,
    h.joining, h.joined,
    h.killed⟩
  · rw [← h.reading o' ho']
    show (Function.update s.pipes o ((s.pipes o).get n) o').written ++ _ = _
    by_cases heq : o' = o
    · rw [heq, Function.update_self, BoundedPipe.written_get]
    · rw [Function.update_of_ne heq]
  · have hne : o' ≠ o := by
      rintro rfl
      exact Bool.false_ne_true ((finished_of_reads hreads).symm.trans ho')
    have hpipe : Function.update s.pipes o ((s.pipes o).get n) o'
        = s.pipes o' :=
      Function.update_of_ne hne _ _
    exact (h.ends o' ho').move (congrArg BoundedPipe.received hpipe)
      (fun hended => ⟨hended, congrArg BoundedPipe.buffer hpipe⟩)

/-- A reader returns from `DrainPipe`. -/
theorem Sound.atEnd (h : Sound script s) {o : Output}
    (hreads : s.reads o = true)
    (hover : Over script s o) : Sound script (s.atEnd o) := by
  cases o with
  | out =>
    have hnext : ∀ phase, phase = .killed ∨ phase = .done →
        (if setup.created = true then CommandPhase.joining else .waiting)
        ≠ phase := by
      rintro phase (rfl | rfl) <;> split <;> exact CommandPhase.noConfusion
    -- with a thread `RunCommand` goes on to join it, and without one to wait
    -- for the process
    have hbehind :
        (if setup.created = true then CommandPhase.joining else .waiting)
          ≠ .draining := by
      split <;> exact CommandPhase.noConfusion
    refine ⟨fun o ho => ?_, fun o ho => ?_, h.exited, h.drained, fun hj => ?_,
      fun hcreated => .inr (.inl (if_pos hcreated)), fun hdone => ?_⟩
    · cases o with
      | out =>
        exact absurd (finished_out hbehind)
          (by rw [finished_of_reads ho]; decide)
      -- the reader of the standard error leaves its flag and nothing else
      | err => exact h.reading .err ho
    · cases o with
      | out => exact hover
      | err => exact h.ends .err ho
    · by_contra hno
      have hwaiting :
          (if setup.created = true then CommandPhase.joining else .waiting)
            = .joining := hj
      rw [if_neg hno] at hwaiting
      cases hwaiting
    · exact (hdone.elim (fun heq => hnext _ (.inl rfl) heq)
        (fun heq => hnext _ (.inr rfl) heq)).elim
  | err =>
    obtain ⟨hcreated, -⟩ := Bool.and_eq_true_iff.mp hreads
    refine ⟨fun o ho => ?_, fun o ho => ?_, h.exited,
      fun _ => hcreated, h.joining, fun _ => .inr (.inr rfl), h.killed⟩
    · cases o with
      | out => exact h.reading .out ho
      | err =>
        exact absurd (finished_of_reads ho) (by show true ≠ false; decide)
    · cases o with
      | out => exact h.ends .out ho
      | err => exact hover

/-- A read delivers something, or zero bytes. -/
theorem Sound.readStep (h : Sound script s) {o : Output} {n : ℕ}
    (hreads : s.reads o = true) (hpos : 0 < n)
    (hlen : n ≤ (s.pipes o).buffer.length) :
    Sound script (s.readStep o n) := by
  have hget := h.get hreads n
  unfold RunningCommand.readStep
  split
  next hempty =>
    refine hget.atEnd (by cases o <;> exact hreads) (.inr ?_)
    have hnone : ((s.pipes o).buffer.take n).reduceOption = [] :=
      List.isEmpty_iff.mp hempty
    have hne : (s.pipes o).buffer.take n ≠ [] := by
      intro hnil
      rw [List.take_eq_nil_iff] at hnil
      rcases hnil with hnil | hnil
      · omega
      · rw [hnil, List.length_nil] at hlen
        omega
    obtain ⟨rest, hrest⟩ := exists_cons_none hne hnone
    have hbuffer : (s.pipes o).buffer
        = none :: (rest ++ (s.pipes o).buffer.drop n) := by
      rw [← List.cons_append, ← hrest, List.take_append_drop]
    refine ⟨(s.pipes o).received, rest ++ (s.pipes o).buffer.drop n
      ++ writesTo o (s.child.closed o) s.child.todo, ?_, ?_⟩
    · rw [← h.reading o hreads, BoundedPipe.written, List.append_assoc,
        ← List.cons_append, ← hbuffer]
    · show (Function.update s.pipes o
        ((s.pipes o).get n) o).received.reduceOption = _
      rw [Function.update_self]
      show ((s.pipes o).received ++ (s.pipes o).buffer.take n).reduceOption = _
      rw [List.reduceOption_append, hnone, List.append_nil]
  next => exact hget

/-- A read fails, and everything was read. -/
theorem Sound.eof (h : Sound script s) {o : Output} (hreads : s.reads o = true)
    (hbuffer : (s.pipes o).buffer = []) (hended : s.ended o = true) :
    Sound script (s.atEnd o) := by
  have hwritten : writesTo o (s.child.closed o) s.child.todo = [] := by
    obtain ⟨-, hgone⟩ := Bool.and_eq_true_iff.mp hended
    rcases Bool.or_eq_true_iff.mp hgone with hexit | hclosed
    · rw [h.exited hexit]
      rfl
    · rw [hclosed, writesTo_closed]
  refine h.atEnd hreads (.inl ⟨hended, hbuffer, ?_⟩)
  rw [← h.reading o hreads, hwritten, List.append_nil,
    BoundedPipe.received_eq_written hbuffer]

/-- Behind `WaitForSingleObject(drainThread, INFINITE)` nobody reads any
more. -/
theorem Sound.reads_eq_false (h : Sound script s)
    (hdraining : s.phase ≠ .draining)
    (hjoining : s.phase ≠ .joining) (o : Output) : s.reads o = false := by
  cases o with
  | out => rw [reads, finished_out hdraining, Bool.not_true]
  | err =>
    rw [reads, Bool.and_eq_false_imp]
    intro hcreated
    rw [finished,
      ((h.joined hcreated).resolve_left hdraining).resolve_left hjoining,
      Bool.not_true]

/-- The caller goes on behind its own loop. -/
theorem Sound.goOn (h : Sound script s) {phase : CommandPhase} (inTime : Bool)
    (hphase : s.phase ≠ .draining)
    (hnext : phase ≠ .draining ∧ phase ≠ .joining)
    (hjoined : s.phase ≠ .joining ∨ s.drained = true)
    (hover : phase = .killed ∨ phase = .done → s.child.exitCode.isSome = true) :
    Sound script { s with phase, inTime } where
  reading o ho := by
    cases o with
    | out =>
      exact absurd (finished_out hnext.1) (by rw [finished_of_reads ho]; decide)
    | err => exact h.reading .err ho
  ends o ho := by
    cases o with
    | out => exact h.ends .out (finished_out hphase)
    | err => exact h.ends .err ho
  exited := h.exited
  drained := h.drained
  joining hj := absurd hj hnext.2
  joined hcreated := .inr (.inr (hjoined.elim
    (fun hne => ((h.joined hcreated).resolve_left hphase).resolve_left hne) id))
  killed := hover

/-- The process is killed, when nobody reads what it writes any more. -/
theorem Sound.kill (h : Sound script s) (hphase : s.phase = .killing) :
    Sound script { s with
      phase := .killed
      child := { s.child with
        todo := [], exitCode := s.child.exitCode.or (some 1) } } := by
  have hkilled : (s.child.exitCode.or (some 1)).isSome = true := by
    cases s.child.exitCode <;> rfl
  have hdraining : s.phase ≠ .draining := by
    rw [hphase]
    decide
  have hjoining : s.phase ≠ .joining := by
    rw [hphase]
    decide
  have hmoved : Sound script { s with child := { s.child with
      todo := [], exitCode := s.child.exitCode.or (some 1) } } := by
    refine h.move (fun o ho => ?_) (fun _ => rfl) (fun _ => le_refl _)
      (fun _ => hkilled)
      (fun _ => id)
    rw [h.reads_eq_false hdraining hjoining o] at ho
    cases ho
  exact hmoved.goOn s.inTime hdraining (by decide) (.inl hjoining)
    (fun _ => hkilled)

/-- **Every step keeps it.** One case for each action, of the child, of
somebody who got its handles, or of `RunCommand`. -/
theorem Sound.step (h : Sound script s) {a : CommandAction}
    (ht : s.step a = some t) :
    Sound script t := by
  unfold RunningCommand.step at ht
  split at ht
  -- the child writes or closes an output
  next => exact h.childStep ht
  next code =>
    split at ht
    next hc =>
      obtain rfl := Option.some.inj ht
      exact h.move (fun _ _ => rfl) (fun _ => List.isEmpty_iff.mp hc.2)
        (fun _ => le_refl _) (fun _ => rfl) (fun _ => id)
    next => cases ht
  -- somebody who has inherited a write end gives it up
  next o =>
    split at ht
    next =>
      obtain rfl := Option.some.inj ht
      refine h.move (fun _ _ => rfl) h.exited (fun o' => ?_) id (fun _ => id)
      show Function.update s.held o (s.held o - 1) o' ≤ s.held o'
      by_cases heq : o' = o
      · rw [heq, Function.update_self]
        omega
      · rw [Function.update_of_ne heq]
    next => cases ht
  -- a read takes bytes out of a pipe, and the end of one ends a `DrainPipe`
  next o n =>
    split at ht
    next hc =>
      obtain rfl := Option.some.inj ht
      exact h.readStep hc.1 hc.2.1 hc.2.2.1
    next => cases ht
  next o =>
    split at ht
    next hc =>
      obtain rfl := Option.some.inj ht
      exact h.eof hc.1 (List.isEmpty_iff.mp hc.2.1) hc.2.2
    next => cases ht
  -- the thread is joined, which it can be once it has left `DrainPipe`
  next =>
    split at ht
    next hc =>
      obtain rfl := Option.some.inj ht
      exact h.goOn s.inTime (by rw [hc.1]; decide) (by decide) (.inr hc.2)
        (fun ho => by rcases ho with ho | ho <;> cases ho)
    next => cases ht
  next =>
    split at ht
    next hc =>
      obtain rfl := Option.some.inj ht
      exact h.goOn s.inTime (by rw [hc.1]; decide) (by decide)
        (.inl (by rw [hc.1]; decide)) (fun _ => hc.2)
    next => cases ht
  next =>
    split at ht
    next hc =>
      obtain rfl := Option.some.inj ht
      exact h.goOn false (by rw [hc.1]; decide) (by decide)
        (.inl (by rw [hc.1]; decide))
          (fun ho => by rcases ho with ho | ho <;> cases ho)
    next => cases ht
  next =>
    split at ht
    next hc =>
      obtain rfl := Option.some.inj ht
      exact h.kill hc
    next => cases ht
  next =>
    split at ht
    next hc =>
      obtain rfl := Option.some.inj ht
      exact h.goOn s.inTime (by rw [hc]; decide) (by decide)
        (.inl (by rw [hc]; decide)) (fun _ => h.killed (.inl hc))
    next => cases ht

/-- What `RunCommand` is to return for what a script writes. -/
def Returns (script : List ChildOp) (s : RunningCommand setup) : Prop :=
  s.phase = .done → ∃ code out err, s.child.exitCode = some code ∧
    Drains (writesTo .out false script) out ∧
    Drains (writesTo .err false script) err ∧
    s.result = runCommand
      (.ran (bytesText out) (bytesText err) setup.created s.inTime code)

theorem Sound.returns (h : Sound script s) : Returns script s := by
  intro hdone
  obtain ⟨code, hcode⟩ := Option.isSome_iff_exists.mp (h.killed (.inr hdone))
  have hdraining : s.phase ≠ .draining := by
    rw [hdone]
    decide
  have hout := (h.ends .out (finished_out hdraining)).drains
  have hresult : ∀ err, (setup.created = true → err = s.got .err) →
      s.result = runCommand
        (.ran (bytesText (s.got .out))
          (bytesText err) setup.created s.inTime code) := by
    intro err herr
    have htext : (if setup.created then bytesText (s.got .err) else [])
        = if setup.created then bytesText err else [] := by
      split
      next hcreated => rw [herr hcreated]
      next => rfl
    rw [result, htext, hcode]
    rfl
  by_cases hcreated : setup.created = true
  · have hdrained : s.drained = true :=
      ((h.joined hcreated).resolve_left hdraining).resolve_left
        (by rw [hdone]; decide)
    exact ⟨code, _, _, hcode, hout, (h.ends .err hdrained).drains,
      hresult _ (fun _ => rfl)⟩
  · exact ⟨code, _, _, hcode, hout, .inl rfl,
      hresult _ (fun h => absurd h hcreated)⟩

/-- **What comes back is what was written**: in every run of the steps of the
caller, its thread, the process and others, a command that has ended returns
what `runCommand` says for the bytes that its process writes, each output taken
up to its end, or up to some write of zero bytes. -/
theorem run_command_result (script : List ChildOp) (held : Output → ℕ)
    (actions : List CommandAction) :
    Runs.Everywhere step (Returns script)
      (start script held : RunningCommand setup)
      actions := by
  have hsound : Runs.Everywhere step (Sound script)
      (start script held : RunningCommand setup) actions :=
    Runs.everywhere_of_forall (fun _ _ _ hs ht => hs.step ht)
      (sound_start script held)
      actions
  exact hsound.mono (fun _ h => h.returns)

/-! ## How long it takes

Every piece has to be written and to be read, and the caller has a fixed
number of places to pass. Counting both gives a number that every step makes
smaller, whoever takes it, so that no run can go on for ever. -/

/-- How far the caller has to go. -/
def rank : CommandPhase → ℕ
  | .draining => 5
  | .joining => 4
  | .waiting => 3
  | .killing => 2
  | .killed => 1
  | .done => 0

/-- What is left to do: a piece has to be written and to be read. -/
def left (s : RunningCommand setup) : ℕ :=
  2 * s.child.todo.length
    + ((s.pipes .out).buffer.length + (s.pipes .err).buffer.length)
    + (s.held .out + s.held .err) + rank s.phase
    + (s.child.exitCode.isNone.toNat + (!s.drained).toNat)

/-- A sum over the outputs, one of which has changed. -/
theorem sum_update (f : Output → ℕ) (o : Output) (n : ℕ) :
    Function.update f o n .out + Function.update f o n .err + f o
      = f .out + f .err + n := by
  cases o with
  | out =>
    rw [Function.update_self, Function.update_of_ne Output.noConfusion]
    omega
  | err =>
    rw [Function.update_self, Function.update_of_ne Output.noConfusion]
    omega

/-- The buffers, one of which has changed. -/
theorem buffers_update (s : RunningCommand setup) (o : Output)
    (pipe : BoundedPipe (Option UInt8) pieceSize setup.room) :
    (Function.update s.pipes o pipe .out).buffer.length
        + (Function.update s.pipes o pipe .err).buffer.length
        + (s.pipes o).buffer.length
      = (s.pipes .out).buffer.length + (s.pipes .err).buffer.length
        + pipe.buffer.length := by
  have hsum :=
    sum_update (fun o => (s.pipes o).buffer.length) o pipe.buffer.length
  have hlen : ∀ o', (Function.update s.pipes o pipe o').buffer.length
      = Function.update (fun o => (s.pipes o).buffer.length) o
        pipe.buffer.length o' := by
    intro o'
    rw [Function.update_apply, Function.update_apply]
    split <;> rfl
  rw [hlen, hlen]
  exact hsum

theorem left_childStep (ht : s.childStep = some t) : t.left < s.left := by
  unfold RunningCommand.childStep at ht
  split at ht
  next => cases ht
  next hexit =>
    split at ht
    next => cases ht
    next o rest htodo =>
      obtain rfl := Option.some.inj ht
      simp only [left, htodo, List.length_cons]
      omega
    next o piece rest htodo =>
      split at ht
      next =>
        obtain rfl := Option.some.inj ht
        simp only [left, htodo, List.length_cons]
        omega
      next =>
        obtain ⟨pipe, hput, rfl⟩ := Option.map_eq_some_iff.mp ht
        have hbuffers := buffers_update s o pipe
        rw [(BoundedPipe.put_eq_some hput).2, List.length_append,
          List.length_singleton] at hbuffers
        simp only [left, htodo, List.length_cons]
        omega

/-- A reader that returns from `DrainPipe` does so once. -/
theorem left_atEnd {o : Output} (hreads : s.reads o = true) :
    (s.atEnd o).left < s.left := by
  cases o with
  | out =>
    have hphase : s.phase = .draining := by simpa [reads, finished] using hreads
    have hrank : rank (if setup.created then CommandPhase.joining else .waiting)
        < 5 := by
      split <;> decide
    have hbefore : rank s.phase = 5 := congrArg rank hphase
    simp only [left, atEnd]
    omega
  | err =>
    have hdrained : s.drained = false := finished_of_reads hreads
    simp only [left, atEnd, hdrained, Bool.not_false, Bool.not_true,
      Bool.toNat_true,
      Bool.toNat_false]
    omega

theorem left_readStep {o : Output} {n : ℕ} (hreads : s.reads o = true)
    (hpos : 0 < n)
    (hlen : n ≤ (s.pipes o).buffer.length) :
    (s.readStep o n).left < s.left := by
  have hbuffers := buffers_update s o ((s.pipes o).get n)
  have hget : ((s.pipes o).get n).buffer.length
      = (s.pipes o).buffer.length - n :=
    List.length_drop
  have hleft :
      ({ s with pipes := Function.update s.pipes o ((s.pipes o).get n) } :
      RunningCommand setup).left < s.left := by
    simp only [left]
    omega
  unfold RunningCommand.readStep
  split
  next => exact (left_atEnd (by cases o <;> exact hreads)).trans hleft
  next => exact hleft

/-- **Every step leaves less to do.** A piece that is written and read counts
twice, which is why handing it to the pipe is progress too. -/
theorem left_step {a : CommandAction} (ht : s.step a = some t) :
    t.left < s.left := by
  unfold RunningCommand.step at ht
  split at ht
  next => exact left_childStep ht
  next code =>
    split at ht
    next hc =>
      obtain rfl := Option.some.inj ht
      simp [left, hc.1]
    next => cases ht
  -- one write end fewer is held
  next o =>
    split at ht
    next hc =>
      obtain rfl := Option.some.inj ht
      have hheld := sum_update s.held o (s.held o - 1)
      simp only [left]
      omega
    next => cases ht
  next o n =>
    split at ht
    next hc =>
      obtain rfl := Option.some.inj ht
      exact left_readStep hc.1 hc.2.1 hc.2.2.1
    next => cases ht
  -- the reader has left `DrainPipe`, which is a phase or a flag
  next o =>
    split at ht
    next hc =>
      obtain rfl := Option.some.inj ht
      exact left_atEnd hc.1
    next => cases ht
  -- what is left are the phases of `RunCommand`, each ranked below the one before
  next =>
    split at ht
    next hc =>
      obtain rfl := Option.some.inj ht
      simp only [left, hc.1, rank]
      omega
    next => cases ht
  next =>
    split at ht
    next hc =>
      obtain rfl := Option.some.inj ht
      simp only [left, hc.1, rank]
      omega
    next => cases ht
  next =>
    split at ht
    next hc =>
      obtain rfl := Option.some.inj ht
      simp only [left, hc.1, rank]
      omega
    next => cases ht
  next =>
    split at ht
    next hc =>
      obtain rfl := Option.some.inj ht
      have hexit : (s.child.exitCode.or (some 1)).isNone.toNat = 0 := by
        cases s.child.exitCode <;> rfl
      simp only [left, hc, rank, hexit, List.length_nil]
      omega
    next => cases ht
  next =>
    split at ht
    next hc =>
      obtain rfl := Option.some.inj ht
      simp only [left, hc, rank]
      omega
    next => cases ht

/-! ## Whom it waits for

That a run has an end does not say that the end is the one that is wanted. A
run may also stop because everybody waits, and this section says exactly when:
`RunCommand` waits for others as long as one of them keeps a write end open,
and a process may wait for a reader that is gone. -/

/-- **`RunCommand` waits for others.** Whoever is in `DrainPipe` has read what
is there, and somebody is left who could write. The caller drains the standard
output, or waits for its thread, or, without a timeout, for the exit. That there
is a timeout is of no use before that. -/
structure Waits (s : RunningCommand setup) : Prop where
  readers : ∀ o, s.reads o = true → (s.pipes o).buffer = [] ∧ s.ended o = false
  caller : s.phase = .draining ∨ (s.phase = .joining ∧ s.drained = false) ∨
    (s.phase = .waiting ∧ s.child.exitCode = none ∧ setup.timed = false)

/-- The process waits for room in a pipe. -/
def waitsFor (s : RunningCommand setup) (o : Output) : Prop :=
  s.child.exitCode = none ∧ ∃ piece rest,
    s.child.todo = .write o piece :: rest ∧
    s.child.closed o = false ∧ (s.pipes o).put piece = none

/-- **The process waits for somebody to read what it writes, and nobody
does**, while `RunCommand` waits for the process. Nobody else holds a write
end, so that no other exit can end the reading, and the write of the process
does not fit in the pipe. -/
structure Starved (s : RunningCommand setup) : Prop where
  waits : s.Waits
  alone : ∀ o, s.held o = 0
  blocked : ∃ o, s.waitsFor o

/-- A process that waits for room leaves a reader something to read. -/
theorem buffer_ne_nil_of_waitsFor {o : Output} (h : s.waitsFor o) :
    (s.pipes o).buffer ≠ [] := by
  obtain ⟨-, piece, rest, -, -, hput⟩ := h
  have hsize : pieceSize piece ≤ setup.room :=
    (Bool.toNat_le piece.isSome).trans setup.room.pos
  exact BoundedPipe.buffer_ne_nil_of_put hsize hput

/-- Nobody reads what a starved process wants to write: the thread could not be
created, or `DrainPipe` has returned at a write of zero bytes. -/
theorem Starved.unread (h : s.Starved) :
    ∃ o, s.waitsFor o ∧ s.reads o = false := by
  obtain ⟨o, hwaits⟩ := h.blocked
  refine ⟨o, hwaits, Bool.eq_false_iff.mpr (fun hreads => ?_)⟩
  exact buffer_ne_nil_of_waitsFor hwaits (h.waits.readers o hreads).1

/-- Where `RunCommand` cannot go on, a reader has nothing to read, and is not at
the end. -/
theorem reader_waits (hstuck : ∀ a : CommandAction,
      a.own = true → s.step a = none)
    {o : Output} (hreads : s.reads o = true) :
    (s.pipes o).buffer = [] ∧ s.ended o = false := by
  have hbuffer : (s.pipes o).buffer = [] := by
    by_contra hne
    have hread := hstuck (.read o 1) rfl
    have hone : ((s.pipes o).buffer.take 1).reduceOption.length ≤ 4096 :=
      (List.reduceOption_length_le _).trans
        ((List.length_take_le 1 _).trans (by decide))
    rw [step,
      if_pos ⟨hreads, by decide, List.length_pos_iff.mpr hne, hone⟩] at hread
    cases hread
  refine ⟨hbuffer, Bool.eq_false_iff.mpr (fun hended => ?_)⟩
  have heof := hstuck (.eof o) rfl
  rw [step, if_pos ⟨hreads, List.isEmpty_iff.mpr hbuffer, hended⟩] at heof
  cases heof

/-- **`RunCommand` can go on, unless it waits for others.** Only actions of
`RunCommand` itself are asked for, not those of the child or of others. -/
theorem own_stuck_iff (hphase : s.phase ≠ .done) :
    (∀ a : CommandAction, a.own = true → s.step a = none) ↔ s.Waits := by
  constructor
  · intro hstuck
    refine ⟨fun o => reader_waits hstuck, ?_⟩
    cases hcase : s.phase with
    | draining => exact .inl rfl
    | joining =>
      refine .inr (.inl ⟨rfl, Bool.eq_false_iff.mpr (fun hdrained => ?_)⟩)
      have hjoined := hstuck .joined rfl
      rw [step, if_pos ⟨hcase, hdrained⟩] at hjoined
      cases hjoined
    -- an exit or a timeout would let the wait return, so that there is neither
    | waiting =>
      have hexit : s.child.exitCode = none := by
        by_contra hne
        have hexited := hstuck .exited rfl
        rw [step, if_pos ⟨hcase, Option.isSome_iff_ne_none.mpr hne⟩] at hexited
        cases hexited
      refine .inr (.inr ⟨rfl, hexit, Bool.eq_false_iff.mpr (fun htimed => ?_)⟩)
      have htimeout := hstuck .timeout rfl
      rw [step, if_pos ⟨hcase, htimed, hexit⟩] at htimeout
      cases htimeout
    | killing =>
      have hkill := hstuck .kill rfl
      rw [step, if_pos hcase] at hkill
      cases hkill
    | killed =>
      have hgive := hstuck .giveUp rfl
      rw [step, if_pos hcase] at hgive
      cases hgive
    | done => exact absurd hcase hphase
  -- conversely each action of its own is excluded by a part of what waiting
  -- means
  · intro hwaits a hown
    have hpast : s.phase ≠ .killing ∧ s.phase ≠ .killed := by
      rcases hwaits.caller with h | ⟨h, -⟩ | ⟨h, -⟩ <;> rw [h] <;> decide
    cases a with
    | child | exit code | leave o => cases hown
    | read o n =>
      rw [step, if_neg]
      rintro ⟨hreads, hpos, hlen, -⟩
      rw [(hwaits.readers o hreads).1, List.length_nil] at hlen
      omega
    | eof o =>
      rw [step, if_neg]
      rintro ⟨hreads, -, hended⟩
      exact Bool.false_ne_true ((hwaits.readers o hreads).2.symm.trans hended)
    | joined =>
      rw [step, if_neg]
      rintro ⟨hjoining, hdrained⟩
      rcases hwaits.caller with h | ⟨-, h⟩ | ⟨h, -⟩
      · rw [hjoining] at h
        cases h
      · exact Bool.false_ne_true (h.symm.trans hdrained)
      · rw [hjoining] at h
        cases h
    | exited =>
      rw [step, if_neg]
      rintro ⟨hwaiting, hexited⟩
      rcases hwaits.caller with h | ⟨h, -⟩ | ⟨-, h, -⟩
      · rw [hwaiting] at h
        cases h
      · rw [hwaiting] at h
        cases h
      · rw [h] at hexited
        cases hexited
    | timeout =>
      rw [step, if_neg]
      rintro ⟨hwaiting, htimed, -⟩
      rcases hwaits.caller with h | ⟨h, -⟩ | ⟨-, -, h⟩
      · rw [hwaiting] at h
        cases h
      · rw [hwaiting] at h
        cases h
      · exact Bool.false_ne_true (h.symm.trans htimed)
    | kill => rw [step, if_neg hpast.1]
    | giveUp => rw [step, if_neg hpast.2]

/-- Where nothing is possible, nobody else has a write end. -/
theorem held_eq_zero (hstuck : ∀ a, s.step a = none) (o : Output) :
    s.held o = 0 := by
  by_contra hne
  have hleave := hstuck (.leave o)
  rw [step, if_pos (Nat.pos_of_ne_zero hne)] at hleave
  cases hleave

/-- Where nothing is possible, a process that has not exited waits for room. -/
theorem child_waits (hstuck : ∀ a, s.step a = none)
    (hexit : s.child.exitCode = none) :
    ∃ o, s.waitsFor o := by
  have hchild : s.childStep = none := hstuck .child
  rw [childStep, if_neg (by rw [hexit]; decide)] at hchild
  split at hchild
  next htodo =>
    have hleave := hstuck (.exit 0)
    rw [step, if_pos ⟨hexit, by rw [htodo]; rfl⟩] at hleave
    cases hleave
  next => cases hchild
  next o piece rest htodo =>
    split at hchild
    next => cases hchild
    next hopen =>
      exact ⟨o, hexit, piece, rest, htodo, Bool.eq_false_iff.mpr hopen,
        Option.map_eq_none_iff.mp hchild⟩

/-- Where `RunCommand` waits and nobody else has a write end, the process has
not exited. -/
theorem Sound.exitCode_eq_none (h : Sound script s) (hwaits : s.Waits)
    (halone : ∀ o, s.held o = 0) : s.child.exitCode = none := by
  by_contra hne
  have hended : ∀ o, s.ended o = true := by
    intro o
    rw [ended, halone o, Option.isSome_iff_ne_none.mpr hne]
    rfl
  have hunread : ∀ o, s.reads o ≠ true := fun o hreads =>
    Bool.false_ne_true ((hwaits.readers o hreads).2.symm.trans (hended o))
  rcases hwaits.caller with hdraining | ⟨hjoining, hdrained⟩ | ⟨-, hexit, -⟩
  · exact hunread .out (by rw [reads, finished, hdraining]; rfl)
  · exact hunread .err
      (by rw [reads, finished, h.joining hjoining, hdrained]; rfl)
  · exact hne hexit

/-- **Nothing is possible** exactly where the process starves. In every other
state before the end, the child, a holder of an end or `RunCommand` can take a
step. -/
theorem Sound.stuck_iff (h : Sound script s) (hphase : s.phase ≠ .done) :
    (∀ a, s.step a = none) ↔ s.Starved := by
  constructor
  · intro hstuck
    have hwaits := (own_stuck_iff hphase).mp (fun a _ => hstuck a)
    have halone := held_eq_zero hstuck
    exact ⟨hwaits, halone,
      child_waits hstuck (h.exitCode_eq_none hwaits halone)⟩
  · intro hstarved a
    obtain ⟨o, hexit, piece, rest, htodo, hopen, hput⟩ := hstarved.blocked
    cases hown : a.own with
    | true => exact (own_stuck_iff hphase).mpr hstarved.waits a hown
    | false =>
      cases a with
      | child =>
        show s.childStep = none
        rw [RunningCommand.childStep, if_neg (by rw [hexit]; decide), htodo]
        dsimp only
        rw [if_neg (Bool.eq_false_iff.mp hopen), hput]
        rfl
      | exit code =>
        rw [RunningCommand.step, if_neg]
        rintro ⟨-, hempty⟩
        rw [htodo] at hempty
        cases hempty
      | leave o =>
        rw [RunningCommand.step, if_neg (by rw [hstarved.alone o]; decide)]
      | read | eof | joined | exited | timeout | kill | giveUp => cases hown

/-- With the thread, and without writes of zero bytes, no process starves. -/
theorem Sound.not_starved (h : Sound script s) (hcreated : setup.created = true)
    (hbytes : ∀ o, ChildOp.write o none ∉ script) : ¬ s.Starved := by
  intro hstarved
  obtain ⟨o, hwaits, hunread⟩ := hstarved.unread
  have hfinished : s.finished o = true := by
    cases o with
    | out => simpa [reads] using hunread
    | err => simpa [reads, hcreated] using hunread
  rcases h.ends o hfinished with ⟨-, hbuffer, -⟩ | ⟨before, after, hwrites, -⟩
  · exact buffer_ne_nil_of_waitsFor hwaits hbuffer
  · refine hbytes o (mem_of_mem_writesTo false ?_)
    rw [hwrites]
    exact List.mem_append_right _ List.mem_cons_self

/-- **What `RunCommand` waits for.** A run has an end, since every step leaves
less to do. As long as it has not returned, the caller or its thread can go on,
unless they wait for others; no timeout helps against a process that keeps an
output open. Somebody can go on, unless the process starves. So where the
process and those who have its write ends go on to their ends, `RunCommand`
returns, if its thread could be created and the process makes no write of zero
bytes. -/
theorem run_command_ends {script : List ChildOp} {held : Output → ℕ}
    {actions : List CommandAction}
    (hrun : Runs.run step (start script held : RunningCommand setup) actions
      = some s) :
    actions.length ≤ (start script held : RunningCommand setup).left ∧
      (s.phase ≠ .done →
        ((∀ a : CommandAction, a.own = true → s.step a = none) ↔ s.Waits) ∧
        ((∀ a, s.step a = none) ↔ s.Starved)) ∧
      (setup.created = true → (∀ o, ChildOp.write o none ∉ script) →
        (∀ a, s.step a = none) → s.phase = .done) := by
  obtain ⟨hsound, hlength⟩ := Runs.length_le_of_decreasing
    (fun _ _ _ (hs : Sound script _) ht => ⟨hs.step ht, left_step ht⟩)
    (sound_start script held) hrun
  refine ⟨hlength, fun hphase => ⟨own_stuck_iff hphase,
    hsound.stuck_iff hphase⟩, fun hcreated hbytes hstuck => ?_⟩
  by_contra hphase
  exact hsound.not_starved hcreated hbytes ((hsound.stuck_iff hphase).mp hstuck)

/-- Without a timeout, and with room for one byte. -/
def smallSetup : CommandSetup where
  room := 1
  created := true
  timed := false

/-- The process begins with a write of zero bytes, which ends the first
drain. -/
def emptyWriteScript : List ChildOp :=
  [.write .out none, .write .out (some 0x6E), .write .out (some 0x6F)]

/-- What it writes then is not read, and nobody can go on. -/
theorem run_command_ends_emptyWrite :
    ∃ s, Runs.run step
        (start emptyWriteScript (fun _ => 0) : RunningCommand smallSetup)
        [.child, .read .out 1, .child] = some s ∧
      s.phase ≠ .done ∧ ∀ a, s.step a = none := by
  have hsome : (Runs.run step
      (start emptyWriteScript (fun _ => 0) : RunningCommand smallSetup)
      [.child, .read .out 1, .child]).isSome = true := rfl
  obtain ⟨s, hs⟩ := Option.isSome_iff_exists.mp hsome
  have hphase : s.phase = .joining := by
    obtain rfl := Option.some.inj hs
    rfl
  have hdone : s.phase ≠ .done := by
    rw [hphase]
    decide
  refine ⟨s, hs, hdone,
    ((run_command_ends hs).2.1 hdone).2.mpr ⟨⟨?_, ?_⟩, ?_, ?_⟩⟩
  · obtain rfl := Option.some.inj hs
    intro o ho
    cases o with
    | out => cases ho
    | err => exact ⟨rfl, rfl⟩
  · obtain rfl := Option.some.inj hs
    exact .inr (.inl ⟨rfl, rfl⟩)
  · obtain rfl := Option.some.inj hs
    exact fun _ => rfl
  · obtain rfl := Option.some.inj hs
    exact ⟨.out, rfl, some 0x6F, [], rfl, rfl, rfl⟩

end RunningCommand

end WebcamStreamer
