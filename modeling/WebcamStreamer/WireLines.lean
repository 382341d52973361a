import WebcamStreamer.JsonWriter
import WebcamStreamer.LockedStream
import WebcamStreamer.Runs

/-!
# Lines from the supervisor

What the supervisor sends on the control pipe are documents, each on a line of
its own. Three threads send, `WritePipe` takes a lock, and below it one write
transfers the bytes of a line as the pipe has room for them. The connection may
be lost at any point, and the next client gets a new one. On the other side the
pump of the client asks for one line after the other of whatever bytes have
arrived.

The bytes of a document have no line break in them, and then the pump reads the
documents that were sent: whole, in their order, and none twice. Only when the
stream has ended may it read a line that is none: the beginning of the document
that was being written.
-/

namespace WebcamStreamer

/-! ## The two ends

The supervisor writes a document and a newline under one lock, in one or
several calls. The client reads bytes and makes lines of them, where a
carriage return and a newline can end a line together or each by itself. -/

/-- `dump()`, which writes a document on one line. -/
structure WireText where
  dump : Json ByteArray → Bytes
  oneLine : ∀ m, newline ∉ dump m ∧ carriageReturn ∉ dump m

/-- A text of the standard is one. -/
def standardText : WireText := ⟨JsonWriter.text, JsonWriter.oneLine_text⟩

/-- What is handed to `WritePipe`. -/
def WireText.line (lib : WireText) (m : Json ByteArray) : Bytes :=
  lib.dump m ++ [newline]

/-- The control pipe with its connections, which are numbered. -/
abbrev ControlPipe := LockedStream.State ℕ (Json ByteArray) UInt8

/-- `StreamReader.ReadLineAsync`, over and over: the lines it has returned, what
it has of the next one, and whether a carriage return has ended the last one. -/
structure PumpReader where
  lines : List Bytes := []
  line : Bytes := []
  afterReturn : Bool := false

namespace PumpReader

/-- One byte: a carriage return ends a line, and so does a newline that is not
behind one. -/
def feed (r : PumpReader) (c : UInt8) : PumpReader :=
  if c = newline then
    if r.afterReturn then { r with afterReturn := false }
    else { lines := r.lines ++ [r.line] }
  else if c = carriageReturn then
    { lines := r.lines ++ [r.line], afterReturn := true }
  else { r with line := r.line ++ [c], afterReturn := false }

/-- What has arrived is read. -/
def readAll {room : ℕ} (r : PumpReader)
    (reads : List (ChunkedLines.Chunk UInt8 room)) : PumpReader :=
  reads.foldl (fun r read => read.elements.foldl feed r) r

/-- The lines it has returned when the stream has ended: what stands behind the
last line end is one more, unless it is empty. -/
def linesAtEnd (r : PumpReader) : List Bytes :=
  if r.line = [] then r.lines else r.lines ++ [r.line]

end PumpReader

/-- The lines that `Pump` gets out of some reads. -/
def pumpLines {room : ℕ} (reads : List (ChunkedLines.Chunk UInt8 room)) :
    List Bytes :=
  (PumpReader.readAll {} reads).lines

/-- The lines that it gets when the stream ends behind them. -/
def pumpLinesAtEnd {room : ℕ} (reads : List (ChunkedLines.Chunk UInt8 room)) :
    List Bytes :=
  (PumpReader.readAll {} reads).linesAtEnd

/-! ## The lines that are read

The text of a document has no line end in it. So the lines that are read of a
stream of documents are their texts, and what is left is the beginning of the
next one. -/

namespace PumpReader

/-- Reading is reading byte by byte. -/
theorem readAll_eq {room : ℕ} (r : PumpReader)
    (reads : List (ChunkedLines.Chunk UInt8 room)) :
    r.readAll reads = (ChunkedLines.stream reads).foldl feed r := by
  rw [ChunkedLines.stream, List.foldl_flatMap]
  rfl

/-- Without carriage returns the lines are those that end with a newline, and
what it has of the next one is the tail. -/
theorem foldl_feed {s : Bytes} (hs : carriageReturn ∉ s) {r : PumpReader}
    (hline : newline ∉ r.line) (hafter : r.afterReturn = false) :
    (s.foldl feed r).lines = r.lines ++ ChunkedLines.lines newline
        (r.line ++ s) ∧
      (s.foldl feed r).line = ChunkedLines.tail newline (r.line ++ s) := by
  induction s generalizing r with
  | nil =>
    rw [List.append_nil, ChunkedLines.lines_of_notMem hline,
      ChunkedLines.tail_of_notMem hline,
      List.append_nil]
    exact ⟨rfl, rfl⟩
  | cons c s ih =>
    obtain ⟨hc, hs⟩ := List.ne_and_not_mem_of_not_mem_cons hs
    rw [List.foldl_cons, feed]
    split
    next heq =>
      obtain ⟨hlines, htail⟩ := ih hs (r := { lines := r.lines ++ [r.line] })
        List.not_mem_nil rfl
      rw [hafter, if_neg Bool.false_ne_true, hlines, htail, heq,
        ChunkedLines.lines_append_cons hline,
        ChunkedLines.tail_append_cons hline,
        List.append_assoc]
      exact ⟨rfl, rfl⟩
    next hne =>
      have hnext : newline ∉ r.line ++ [c] := by
        rw [List.mem_append, List.mem_singleton, not_or]
        exact ⟨hline, Ne.symm hne⟩
      obtain ⟨hlines, htail⟩ :=
        ih hs (r := { r with line := r.line ++ [c], afterReturn := false })
        hnext rfl
      rw [if_neg (Ne.symm hc), hlines, htail, List.append_assoc]
      exact ⟨rfl, rfl⟩

end PumpReader

section NoReturns

variable {room : ℕ} {reads : List (ChunkedLines.Chunk UInt8 room)}
  (h : carriageReturn ∉ ChunkedLines.stream reads)
include h

theorem pumpLines_eq :
    pumpLines reads = ChunkedLines.lines newline
      (ChunkedLines.stream reads) := by
  rw [pumpLines, PumpReader.readAll_eq,
    (PumpReader.foldl_feed h List.not_mem_nil rfl).1]
  rfl

theorem pumpLinesAtEnd_eq : pumpLinesAtEnd reads
    = if ChunkedLines.tail newline (ChunkedLines.stream reads) = [] then
      pumpLines reads
      else pumpLines reads
        ++ [ChunkedLines.tail newline (ChunkedLines.stream reads)] := by
  have hline : (PumpReader.readAll {} reads).line
      = ChunkedLines.tail newline (ChunkedLines.stream reads) := by
    rw [PumpReader.readAll_eq, (PumpReader.foldl_feed h List.not_mem_nil rfl).2]
    rfl
  rw [pumpLinesAtEnd, PumpReader.linesAtEnd, hline]
  rfl

end NoReturns

/-- The lines of documents are their texts. -/
theorem lines_flatMap_line (lib : WireText) (ms : List (Json ByteArray)) :
    ChunkedLines.lines newline (ms.flatMap lib.line) = ms.map lib.dump := by
  induction ms with
  | nil => rfl
  | cons m ms ih =>
    rw [List.flatMap_cons, WireText.line, List.append_assoc]
    show ChunkedLines.lines newline
      (lib.dump m ++ newline :: ms.flatMap lib.line) = _
    rw [ChunkedLines.lines_append_cons (lib.oneLine m).1, ih, List.map_cons]

/-- A carriage return is in no text. -/
theorem carriageReturn_notMem_flatMap (lib : WireText)
    (ms : List (Json ByteArray)) :
    carriageReturn ∉ ms.flatMap lib.line := by
  intro hmem
  obtain ⟨m, -, hm⟩ := List.mem_flatMap.mp hmem
  rcases List.mem_append.mp hm with hm | hm
  · exact (lib.oneLine m).2 hm
  · exact absurd (List.mem_singleton.mp hm) (by decide)

/-! ## What arrives

A connection may break within a document. What the client has of that document
at the end of the stream comes back as one more line, and it is a part of a
text and not a text. -/

/-- **What a client reads of a connection is what was sent.** Whatever it has
read so far: the lines are the texts of documents that were sent on the
connection, from the first one on, and these are in the order in which the lock
was taken for them. It has read all of them as soon as nothing is being written
to the connection and nothing is left in it. If the stream ends there, one more
line may be returned, which is cut off from the text of the next document. -/
def ReadsWhatWasSent (lib : WireText) (pipe : ControlPipe) : Prop :=
  ∀ (c room : ℕ) (reads : List (ChunkedLines.Chunk UInt8 room)),
    ChunkedLines.stream reads <+: pipe.stream c →
      ∃ ms, pumpLines reads = ms.map lib.dump ∧ ms <+: pipe.sent c ∧
        ms.Sublist pipe.taken ∧
        (pipe.phase c = .opened → pipe.rest c = [] →
          ChunkedLines.stream reads = pipe.stream c →
          ms = pipe.sent c) ∧
        (pumpLinesAtEnd reads = pumpLines reads ∨
          ∃ m cut, ms ++ [m] <+: pipe.sent c ∧ cut <+: lib.dump m ∧
            pumpLinesAtEnd reads = pumpLines reads ++ [cut])

/-- What follows the lines in a stream of documents is cut off from the next
one. -/
theorem cut_of_stream {lib : WireText}
    {sent : List (Json ByteArray)} {s : Bytes}
    (hs : s <+: sent.flatMap lib.line)
    (hne : ChunkedLines.tail newline s ≠ []) :
    ∃ m, sent.take (ChunkedLines.lines newline s).length ++ [m] <+: sent ∧
      ChunkedLines.tail newline s <+: lib.dump m := by
  have hlines : ChunkedLines.lines newline s
      = (sent.take (ChunkedLines.lines newline s).length).map lib.dump := by
    obtain ⟨later, hlater⟩ := hs
    rw [List.map_take]
    refine List.prefix_iff_eq_take.mp ?_
    rw [← lines_flatMap_line, ← hlater, ChunkedLines.lines_append]
    exact List.prefix_append _ _
  have hsplit := @ChunkedLines.flatMap_lines_append_tail _ _ newline s
  generalize (ChunkedLines.lines newline s).length = k at hlines
  have hfront : (ChunkedLines.lines newline s).flatMap (fun l => l ++ [newline])
      = (sent.take k).flatMap lib.line := by
    rw [hlines, List.flatMap_map]
    rfl
  have htail : ChunkedLines.tail newline s
      <+: (sent.drop k).flatMap lib.line := by
    have hwhole : sent.flatMap lib.line
        = (sent.take k).flatMap lib.line ++ (sent.drop k).flatMap lib.line := by
      rw [← List.flatMap_append, List.take_append_drop]
    rw [hfront] at hsplit
    rw [← hsplit, hwhole, List.prefix_append_right_inj] at hs
    exact hs
  cases hdrop : sent.drop k with
  | nil =>
    rw [hdrop] at htail
    exact absurd (List.prefix_nil.mp htail) hne
  | cons m later =>
    refine ⟨m, ⟨later, ?_⟩, ?_⟩
    · rw [List.append_assoc, List.singleton_append, ← hdrop,
        List.take_append_drop]
    · rw [hdrop, List.flatMap_cons, WireText.line, List.append_assoc] at htail
      exact ChunkedLines.prefix_of_prefix_append_cons
        (ChunkedLines.stop_notMem_tail s) htail

theorem readsWhatWasSent_of_sound {lib : WireText} {pipe : ControlPipe}
    (h : LockedStream.Sound lib.line pipe) : ReadsWhatWasSent lib pipe := by
  intro c room reads hreads
  have htexts : ChunkedLines.stream reads <+: (pipe.sent c).flatMap lib.line :=
    hreads.trans ((List.prefix_append _ _).trans (h.texts c))
  have hreturn : carriageReturn ∉ ChunkedLines.stream reads :=
    fun hmem => carriageReturn_notMem_flatMap lib _ (htexts.subset hmem)
  have hlines := pumpLines_eq hreturn
  have hprefix : pumpLines reads <+: (pipe.sent c).map lib.dump := by
    obtain ⟨later, hlater⟩ := htexts
    rw [← lines_flatMap_line, ← hlater, ChunkedLines.lines_append, hlines]
    exact List.prefix_append _ _
  refine ⟨(pipe.sent c).take (pumpLines reads).length, ?_,
    List.take_prefix _ _, ?_, ?_, ?_⟩
  · rw [List.map_take]
    exact List.prefix_iff_eq_take.mp hprefix
  · exact (List.take_sublist _ _).trans
      ((List.sublist_append_left _ _).trans (h.order c))
  · intro hopened hrest hall
    have hwhole := h.whole c hopened
    rw [hrest, List.append_nil, ← hall] at hwhole
    rw [hlines, hwhole, lines_flatMap_line, List.length_map, List.take_length]
  · rw [pumpLinesAtEnd_eq hreturn]
    split
    next => exact .inl rfl
    next hne =>
      obtain ⟨m, hm, hcut⟩ := cut_of_stream htexts hne
      exact .inr ⟨m, _, hlines ▸ hm, hcut, rfl⟩

/-- **Lines arrive whole**: in every state that the pipe gets into, however
the threads that write and the connections that come and go take turns, a
client reads what was sent. What a client reads at the end of its stream may
be the beginning of a line, and the statement says so. -/
theorem lines_arrive_whole (lib : WireText)
    (actions : List (LockedStream.Action ℕ (Json ByteArray))) :
    Runs.Everywhere (LockedStream.step lib.line)
      (ReadsWhatWasSent lib) {} actions := by
  have hsound : Runs.Everywhere (LockedStream.step lib.line)
      (LockedStream.Sound lib.line) {}
      actions :=
    Runs.everywhere_of_forall (fun s a t hs ht => hs.step ht)
      (LockedStream.sound_empty lib.line)
      actions
  exact hsound.mono (fun pipe h => readsWhatWasSent_of_sound h)

/-- A document is sent whole, and the connection is lost in the next one. -/
def lostInSecond : List (LockedStream.Action ℕ (Json ByteArray)) :=
  [.connect 0, .take (.boolean true), .issue 0, .transfer 5, .finish,
    .take (.string "a\nb".toUTF8), .issue 0, .transfer 3, .close 0, .fail]

theorem lines_arrive_whole_lostInSecond :
    ∃ pipe, Runs.run (LockedStream.step standardText.line) {} lostInSecond
        = some pipe ∧
      pipe.stream 0 = ascii "true" ++ [newline] ++ ascii "\"a\\" ∧
      ReadsWhatWasSent standardText pipe := by
  have hrun :
      ((Runs.run (LockedStream.step standardText.line) {} lostInSecond).map
      (fun pipe => pipe.stream 0)) = some (ascii "true" ++ [newline]
        ++ ascii "\"a\\") := by
    decide +kernel
  obtain ⟨pipe, hpipe, hstream⟩ := Option.map_eq_some_iff.mp hrun
  exact ⟨pipe, hpipe, hstream, Runs.everywhere_run
    (lines_arrive_whole standardText lostInSecond) hpipe⟩

end WebcamStreamer
