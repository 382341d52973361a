import WebcamStreamer.ChunkedLines
import WebcamStreamer.RequestLoop

/-!
# Lines from pipes

Two loops of the program read lines from a pipe, which delivers bytes in chunks
that know nothing of lines.

`LineReader::Next` returns one line of the control pipe. What a read delivered
beyond it stays in the buffer for the next call. Carriage returns are dropped,
and an empty result, which closes the connection, is returned for an empty line
as well as for one that is too long and at the end of the stream. The lines that
a connection reads are those of its bytes, up to the first one that is empty or
too long (`calls_eq`).

`StdoutReaderLoop` hands each line that a child writes to a handler. It keeps
what is not ended yet, and hands it over at the end. Every line is handed over
once, whatever the handler throws (`stdoutReaderLoop_eq`).
-/

namespace WebcamStreamer

/-- A byte stream, in the order in which the bytes arrive. -/
abbrev Bytes := List UInt8

/-- What one `ReadFile` delivers into the buffer of 4096 bytes. -/
abbrev PipeRead := ChunkedLines.Chunk UInt8 4096

/-- `'\n'` -/
def newline : UInt8 := 10

/-- `'\r'` -/
def carriageReturn : UInt8 := 13

/-! ## The reader of the control pipe

The reader keeps the bytes of its last read and how many of them it has
consumed, and a call goes through what is left before it reads again. A line
that gets too long, and one that does not end because the pipe has broken,
comes back as the empty line, which ends the connection. -/

/-- `class LineReader`: the bytes of the last read, whose number is `len_`, and
how many of them are consumed. -/
structure LineReader where
  buf : Bytes := []
  pos : ℕ := 0

namespace LineReader

/-- How the loop over the buffer ends: at a newline, at a line that is too long,
or at the end of the buffer with a line that goes on. -/
inductive Scanned where
  | line (text : Bytes)
  | tooLong
  | more (text : Bytes)

/-- The loop over what is left of the buffer, with the line so far: how it ends,
and `pos_` then. -/
def scan : Bytes → ℕ → Bytes → Scanned × ℕ
  | [], pos, text => (.more text, pos)
  | c :: cs, pos, text =>
    if c = newline then (.line text, pos + 1)
    else if c = carriageReturn then scan cs (pos + 1) text
    else if (text ++ [c]).length > 256 * 1024 then (.tooLong, pos + 1)
    else scan cs (pos + 1) (text ++ [c])

/-- The loop of `LineReader::Next`, with the line so far: what it returns, the
reader then, and the reads that are left. Where none is left the client is
gone. -/
def nextFrom (r : LineReader) (text : Bytes) :
    List PipeRead → Bytes × LineReader × List PipeRead
  | [] =>
    match scan (r.buf.drop r.pos) r.pos text with
    | (.line text, pos) => (text, { r with pos }, [])
    | (_, pos) => ([], { r with pos }, [])
  | read :: reads =>
    match scan (r.buf.drop r.pos) r.pos text with
    | (.line text, pos) => (text, { r with pos }, read :: reads)
    | (.tooLong, pos) => ([], { r with pos }, read :: reads)
    | (.more text, _) => nextFrom { buf := read.elements, pos := 0 } text reads

/-- `LineReader::Next`. -/
def next (r : LineReader) (reads : List PipeRead) :
    Bytes × LineReader × List PipeRead :=
  r.nextFrom [] reads

/-- The results of the first calls of `AcceptLoop`, which makes no more after an
empty one. -/
def calls : ℕ → LineReader → List PipeRead → List Bytes
  | 0, _, _ => []
  | n + 1, r, reads =>
    let (line, r, reads) := r.next reads
    if line = [] then [[]] else line :: calls n r reads

/-! ## Without chunks

The same reader on the whole stream is a recursion on a list. That a call of
the real reader returns the line which the other finds, and leaves the rest of
the stream, is the step from which everything about chunks follows. -/

/-- The reader on a stream that is there as a whole: the line it returns, and
what is left of the stream. -/
def readLine : Bytes → Bytes → Bytes × Bytes
  | [], _ => ([], [])
  | c :: cs, text =>
    if c = newline then (text, cs)
    else if c = carriageReturn then readLine cs text
    else if (text ++ [c]).length > 256 * 1024 then ([], cs)
    else readLine cs (text ++ [c])

/-- What the reader has not consumed, and what has not been read. -/
def unread (r : LineReader) (reads : List PipeRead) : Bytes :=
  r.buf.drop r.pos ++ ChunkedLines.stream reads

/-- How the loop over a buffer ends says how the whole stream is read. -/
theorem readLine_append {buf u : Bytes} {pos : ℕ} (hu : buf.drop pos = u)
    (t text : Bytes) :
    readLine (u ++ t) text = match scan u pos text with
      | (.line text, pos) => (text, buf.drop pos ++ t)
      | (.tooLong, pos) => ([], buf.drop pos ++ t)
      | (.more text, _) => readLine t text := by
  induction u generalizing pos text with
  | nil => rfl
  | cons c u ih =>
    have hu' : buf.drop (pos + 1) = u := by
      rw [← List.tail_drop, hu, List.tail_cons]
    rw [List.cons_append, readLine, scan]
    by_cases hnewline : c = newline
    · rw [if_pos hnewline, if_pos hnewline]
      exact congrArg (fun u => (text, u ++ t)) hu'.symm
    · rw [if_neg hnewline, if_neg hnewline]
      by_cases hreturn : c = carriageReturn
      · rw [if_pos hreturn, if_pos hreturn]
        exact ih hu' text
      · rw [if_neg hreturn, if_neg hreturn]
        by_cases hlong : (text ++ [c]).length > 256 * 1024
        · rw [if_pos hlong, if_pos hlong]
          exact congrArg (fun u => ([], u ++ t)) hu'.symm
        · rw [if_neg hlong, if_neg hlong]
          exact ih hu' (text ++ [c])

/-- **A call reads the line of the stream**, in however many chunks it comes,
and leaves the rest of it. The bytes behind the line stay in the buffer of the
reader, and the next call begins with them. -/
theorem nextFrom_eq (r : LineReader) (text : Bytes) (reads : List PipeRead) :
    (r.nextFrom text reads).1 = (readLine (r.unread reads) text).1 ∧
      ((r.nextFrom text reads).1 ≠ [] →
        (r.nextFrom text reads).2.1.unread (r.nextFrom text reads).2.2
          = (readLine (r.unread reads) text).2) := by
  induction reads generalizing r text with
  | nil =>
    rw [unread, nextFrom, readLine_append rfl]
    rcases scan (r.buf.drop r.pos) r.pos text with ⟨text' | _ | text', pos⟩
    · exact ⟨rfl, fun _ => rfl⟩
    · exact ⟨rfl, fun h => absurd rfl h⟩
    · exact ⟨rfl, fun h => absurd rfl h⟩
  | cons read reads ih =>
    rw [unread, nextFrom, readLine_append rfl]
    rcases scan (r.buf.drop r.pos) r.pos text with ⟨text' | _ | text', pos⟩
    · exact ⟨rfl, fun _ => rfl⟩
    · exact ⟨rfl, fun h => absurd rfl h⟩
    · rw [ChunkedLines.stream_cons]
      exact ih { buf := read.elements, pos := 0 } text'

/-! ## The lines of a stream

What a connection reads is described by the bytes alone: the lines that are
ended, up to the first one that is empty or too long. Neither the size of the
buffer nor the chunks appear in the statement. -/

/-- A line without its carriage returns. -/
def withoutReturns (line : Bytes) : Bytes :=
  line.filter (fun c => c ≠ carriageReturn)

/-- A line that a call returns and that does not close the connection. -/
def Accepted (line : Bytes) : Bool := line ≠ [] ∧ line.length ≤ 256 * 1024

/-- **The lines that a connection reads** of a stream: those that are ended, up
to the first that is empty or too long. -/
def framed (s : Bytes) : List Bytes :=
  ((ChunkedLines.lines newline s).map withoutReturns).takeWhile Accepted

/-- Without a newline there is no line. -/
theorem readLine_of_notMem {s : Bytes} (h : newline ∉ s) (text : Bytes) :
    (readLine s text).1 = [] := by
  induction s generalizing text with
  | nil => rfl
  | cons c s ih =>
    obtain ⟨hc, hs⟩ := not_or.mp (mt List.mem_cons.mpr h)
    rw [readLine, if_neg (Ne.symm hc)]
    split
    · exact ih hs text
    · split
      · rfl
      · exact ih hs _

/-- **One line of the stream**: it is returned whole, or it is too long.
Carriage returns are dropped and do not count, and the bound is on what is
left of the line without them. -/
theorem readLine_append_cons {l : Bytes} (h : newline ∉ l) (s text : Bytes)
    (htext : text.length ≤ 256 * 1024) :
    readLine (l ++ newline :: s) text
        = (text ++ withoutReturns l, s) ∧
        (text ++ withoutReturns l).length ≤ 256 * 1024
      ∨ (readLine (l ++ newline :: s) text).1 = []
        ∧ 256 * 1024 < (text ++ withoutReturns l).length := by
  induction l generalizing text with
  | nil =>
    refine .inl ⟨?_, by simpa [withoutReturns] using htext⟩
    rw [List.nil_append, readLine, if_pos rfl, withoutReturns, List.filter_nil,
      List.append_nil]
  | cons c l ih =>
    obtain ⟨hc, hl⟩ := not_or.mp (mt List.mem_cons.mpr h)
    rw [List.cons_append, readLine, if_neg (Ne.symm hc)]
    by_cases hreturn : c = carriageReturn
    · rw [if_pos hreturn, withoutReturns,
        List.filter_cons_of_neg (by simpa using hreturn)]
      exact ih hl text htext
    · rw [if_neg hreturn, withoutReturns,
        List.filter_cons_of_pos (by simpa using hreturn),
        List.append_cons text c (l.filter _)]
      by_cases hlong : (text ++ [c]).length > 256 * 1024
      · rw [if_pos hlong, List.length_append]
        exact .inr ⟨rfl, by omega⟩
      · rw [if_neg hlong]
        exact ih hl (text ++ [c]) (by omega)

/-- **Request framing does not depend on the chunks**: the first calls return
the lines of the bytes that are still to come, and then the empty result. -/
theorem calls_eq (n : ℕ) (r : LineReader) (reads : List PipeRead) :
    calls n r reads = (framed (r.unread reads) ++ [[]]).take n := by
  induction n generalizing r reads with
  | zero => rfl
  | succ n ih =>
    obtain ⟨hline, hrest⟩ := r.nextFrom_eq [] reads
    rw [calls, next]
    generalize r.nextFrom [] reads = result at hline hrest
    obtain ⟨line, r', reads'⟩ := result
    dsimp only at hline hrest ⊢
    generalize r.unread reads = s at hline hrest
    have hclosed : ∀ {lines : List Bytes}, lines = [] →
        [[]] = (lines ++ [[]]).take (n + 1) := by
      rintro _ rfl
      rw [List.nil_append, List.take_succ_cons, List.take_nil]
    by_cases hs : newline ∈ s
    · obtain ⟨l, t, rfl, hl⟩ := List.eq_append_cons_of_mem hs
      rw [framed, ChunkedLines.lines_append_cons hl, List.map_cons]
      rcases readLine_append_cons hl t [] (by simp) with ⟨heq,
        hshort⟩ | ⟨heq, hlong⟩
      · rw [heq, List.nil_append] at hline hrest
        rw [List.nil_append] at hshort
        dsimp only at hline hrest
        rw [← hline] at hshort ⊢
        by_cases hempty : line = []
        · rw [if_pos hempty]
          exact hclosed
            (List.takeWhile_cons_of_neg (by simp [Accepted, hempty]))
        · rw [if_neg hempty, List.takeWhile_cons_of_pos
            (by simpa [Accepted, hempty] using hshort),
            ih, hrest hempty]
          rfl
      · rw [if_pos (hline.trans heq)]
        rw [List.nil_append] at hlong
        exact hclosed (List.takeWhile_cons_of_neg
          (by simpa [Accepted] using fun _ => hlong))
    · rw [if_pos (hline.trans (readLine_of_notMem hs []))]
      exact hclosed (by rw [framed, ChunkedLines.lines_of_notMem hs]; rfl)

/-- **Request framing**: a connection reads the lines of the bytes that its
client sends, in whichever chunks the pipe delivers them. The empty line
behind the lines is what a call returns once the stream has ended. -/
theorem calls_new (n : ℕ) (reads : List PipeRead) :
    calls n {} reads = (framed (ChunkedLines.stream reads) ++ [[]]).take n :=
  calls_eq n {} reads

end LineReader

/-! ## The reader of a child's output

The reader of a child hands over every ended line of what it carries along,
and keeps the rest for the next read. What the callback does is of no
importance: whatever it throws is caught, and the line has been erased by
then. -/

/-- `on_stdout_line`: whether an invocation returns or throws. It is told how
many there were before. -/
abbrev StdoutHandler := ℕ → Bytes → Except Unit Unit

namespace StdoutReader

/-- One invocation in its `try` block. What it throws is swallowed. -/
def invoke (handler : StdoutHandler) (calls : List Bytes) (line : Bytes) :
    List Bytes :=
  match handler calls.length line with
  | .ok () => calls ++ [line]
  | .error () => calls ++ [line]

/-- A line without the carriage return at its end. -/
def stripReturn (line : Bytes) : Bytes :=
  if line.getLast? = some carriageReturn then line.dropLast else line

/-- The inner loop: every line that is ended is handed over and erased. The
invocations, and what is left of `carry`. -/
def emitLines (handler : StdoutHandler) (calls : List Bytes) (carry : Bytes) :
    List Bytes × Bytes :=
  match h : carry.findIdx? (· == newline) with
  | none => (calls, carry)
  | some pos =>
    emitLines handler (invoke handler calls (stripReturn (carry.take pos)))
      (carry.drop (pos + 1))
termination_by carry.length
decreasing_by
  have hlt := (List.findIdx?_eq_some_iff_getElem.mp h).1
  rw [List.length_drop]
  omega

/-- The outer loop, up to the end of the stream. -/
def readAll (handler : StdoutHandler) (st : List Bytes × Bytes)
    (reads : List PipeRead) : List Bytes × Bytes :=
  reads.foldl (fun st read => emitLines handler st.1 (st.2 ++ read.elements)) st

/-- `StdoutReaderLoop`: the lines that the handler is invoked with. -/
def stdoutReaderLoop (handler : StdoutHandler) (reads : List PipeRead) :
    List Bytes :=
  let (calls, carry) := readAll handler ([], []) reads
  if carry = [] then calls else invoke handler calls carry

/-- An invocation that throws is one as well. -/
@[simp] theorem invoke_eq (handler : StdoutHandler) (calls : List Bytes)
    (line : Bytes) :
    invoke handler calls line = calls ++ [line] := by
  unfold invoke
  split <;> rfl

theorem emitLines_of_notMem {carry : Bytes} (h : newline ∉ carry)
    (handler : StdoutHandler)
    (calls : List Bytes) : emitLines handler calls carry = (calls, carry) := by
  have hnone : carry.findIdx? (· == newline) = none :=
    List.findIdx?_eq_none_iff.mpr
    (fun c hc => beq_eq_false_iff_ne.mpr (fun heq => h (heq ▸ hc)))
  rw [emitLines]
  split
  next => rfl
  next pos hpos => cases hnone.symm.trans hpos

theorem emitLines_append_cons {l : Bytes} (hl : newline ∉ l) (s : Bytes)
    (handler : StdoutHandler) (calls : List Bytes) :
    emitLines handler calls (l ++ newline :: s)
      = emitLines handler (invoke handler calls (stripReturn l)) s := by
  have hsome : (l ++ newline :: s).findIdx? (· == newline) = some l.length := by
    have hnone : l.findIdx? (· == newline) = none :=
      List.findIdx?_eq_none_iff.mpr
      (fun c hc => beq_eq_false_iff_ne.mpr (fun heq => hl (heq ▸ hc)))
    simp [List.findIdx?_append, hnone, List.findIdx?_cons]
  rw [emitLines]
  split
  next hpos => cases hsome.symm.trans hpos
  next pos hpos =>
    obtain rfl := Option.some.inj (hsome.symm.trans hpos)
    rw [List.take_left, List.drop_length_add_append, List.drop_one,
      List.tail_cons]

/-- **The inner loop** hands over the lines that are ended, and leaves the
tail. A carriage return at the end of a line is taken off, and an exception of
the handler does not keep the lines behind it from being handed over. -/
theorem emitLines_eq (handler : StdoutHandler) (calls : List Bytes)
    (carry : Bytes) :
    emitLines handler calls carry
      = (calls ++ (ChunkedLines.lines newline carry).map stripReturn,
          ChunkedLines.tail newline carry) := by
  induction carry
    using @ChunkedLines.induction_on _ _ newline generalizing calls with
  | unended s h =>
    rw [emitLines_of_notMem h, ChunkedLines.lines_of_notMem h,
      ChunkedLines.tail_of_notMem h,
      List.map_nil, List.append_nil]
  | line l s hl ih =>
    rw [emitLines_append_cons hl, ih, invoke_eq,
      ChunkedLines.lines_append_cons hl,
      ChunkedLines.tail_append_cons hl, List.map_cons, List.append_assoc,
      List.singleton_append]

/-- **The outer loop** has handed over the lines of what was read, and keeps
its tail. The tail waits for the bytes that come next, and what is never ended
is never handed over. -/
theorem readAll_eq (handler : StdoutHandler) (calls : List Bytes)
    (carry : Bytes)
    (reads : List PipeRead) (hcarry : newline ∉ carry) :
    readAll handler (calls, carry) reads
      = (calls ++ (ChunkedLines.lines newline
        (carry ++ ChunkedLines.stream reads)).map
            stripReturn,
          ChunkedLines.tail newline (carry ++ ChunkedLines.stream reads)) := by
  induction reads generalizing calls carry with
  | nil =>
    rw [ChunkedLines.stream, List.flatMap_nil, List.append_nil,
      ChunkedLines.lines_of_notMem hcarry, ChunkedLines.tail_of_notMem hcarry,
      List.map_nil,
      List.append_nil]
    rfl
  | cons read reads ih =>
    rw [readAll, List.foldl_cons, ← readAll, emitLines_eq,
      ih _ _ (ChunkedLines.stop_notMem_tail _),
      ChunkedLines.stream_cons, ← List.append_assoc,
      ChunkedLines.lines_append (carry ++ read.elements),
      ChunkedLines.tail_append (carry ++ read.elements), List.map_append,
      List.append_assoc]

/-- **No line of a child is lost**, or repeated, whatever the handler throws:
it is invoked with each line that is ended and then with the rest, if there is
any. The chunks do not appear on the right, so that it makes no difference how
the pipe has cut the lines. -/
theorem stdoutReaderLoop_eq (handler : StdoutHandler) (reads : List PipeRead) :
    stdoutReaderLoop handler reads
      = (ChunkedLines.lines newline (ChunkedLines.stream reads)).map stripReturn
        ++ if ChunkedLines.tail newline (ChunkedLines.stream reads) = [] then []
          else [ChunkedLines.tail newline (ChunkedLines.stream reads)] := by
  rw [stdoutReaderLoop, readAll_eq handler [] [] reads List.not_mem_nil]
  simp only [List.nil_append, invoke_eq]
  split
  next => rw [List.append_nil]
  next => rfl

end StdoutReader

end WebcamStreamer
