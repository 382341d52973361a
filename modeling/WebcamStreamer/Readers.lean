import WebcamStreamer.ViewerCount

/-!
# The readers behind the viewer count

MediaMTX runs a hook for every reader that attaches to a path and one for every
reader that detaches. Each hook is a process of its own, so that its line
arrives at some later time; only the two lines of one reader keep their order.
When a publisher goes away its readers are detached with it.

This module puts the supervisor and the readers of its cameras together and
asks whether a count is right again once every line has arrived. A line does
not say which generation of readers it belongs to. So a reset of the count is
harmless only if it finds no reader attached, and a reader that was counted
before a reset must have been reported to leave before the next one is
counted: otherwise its line takes the next one away.
-/

namespace WebcamStreamer

/-! ## Readers

A reader has lines on their way to the supervisor, it is attached or not, and
it was counted or not. Beside these it has a mark that only the proof needs:
whether a reset of the count has happened since it was counted. -/

/-- A reader of a camera, which is known by the position of its slot. -/
structure Reader where
  camera : ℕ
  attached : Bool := true
  /-- The lines that have not arrived yet, in their order. -/
  pending : List HookEvent := [.read]
  /-- Whether the reader is part of the slot's count: its `read` line arrived,
  its `unread` line did not, and the count was not reset in between. -/
  counted : Bool := false
  deriving DecidableEq

namespace Reader

/-- A reader that detaches leaves an `unread` line behind. -/
def detach (r : Reader) : Reader :=
  if r.attached then
    { r with attached := false, pending := r.pending ++ [.unread] }
  else r

/-- The reader was counted before the last reset, and its `unread` line has not
arrived. -/
def Stale (r : Reader) : Prop := r.pending = [.unread] ∧ r.counted = false

end Reader

/-- The publisher of a slot that was alive is there no longer; a process is
known by its identifier. -/
def publisherGone (s s' : CamSlot) : Bool :=
  s.proc.alive && decide (s'.proc.child ≠ s.proc.child)

/-- The reader after a step of the supervisor that turned the slots `old` into
`new`: it is detached if its publisher went away, and not counted any more if
the count was reset. -/
def Reader.after (old new : List CamSlot) (r : Reader) : Reader :=
  match old[r.camera]?, new[r.camera]? with
  | some s, some s' =>
    let r₁ := if publisherGone s s' then r.detach else r
    if s'.viewerCount = s.viewerCount then r₁ else { r₁ with counted := false }
  | _, _ => r

/-! ## The supervisor and the readers

A run has readers that come and go, lines that arrive in any order between
different readers, and steps of the supervisor. MediaMTX itself keeps running;
what detaches readers is that the publisher of their camera is replaced. -/

/-- The supervisor and all readers there ever were. -/
structure Relay where
  sup : Supervisor
  readers : List Reader

/-- What happens to the readers and the supervisor. -/
inductive RelayAction where
  /-- A reader attaches to the camera at a position. -/
  | attach (camera : ℕ)
  /-- The reader at a position of the list detaches. -/
  | detach (reader : ℕ)
  /-- The next line of the reader at a position of the list arrives as this
  message. -/
  | deliver (reader : ℕ) (msg : Json String)
  /-- The supervisor takes a step. -/
  | supervisor (st : Step)

/-- One step of the supervisor and the readers. All lines come from readers, and
MediaMTX itself stays up. -/
def relayStep (m : Relay) : RelayAction → Option Relay
  | .attach camera =>
    if camera < m.sup.slots.length then
      some { m with readers := m.readers ++ [{ camera }] }
    else none
  | .detach j => some { m with readers := m.readers.modify j Reader.detach }
  | .deliver j msg =>
    match m.readers[j]? with
    | none => none
    | some r =>
      match r.pending with
      | [] => none
      | ev :: rest =>
        if hookEventFor (streamPath r.camera) { action := .hook msg }
          = some ev then
          (next m.sup { action := .hook msg }).map (fun sup' =>
            { sup := sup'
              readers := m.readers.set j
                { r with pending := rest, counted := ev.isRead } })
        else none
  | .supervisor st =>
    match st.action with
    | .hook _ => none
    | _ =>
      match next m.sup st with
      | none => none
      | some sup' =>
        if sup'.mtx = m.sup.mtx then
          some
            { sup := sup'
              readers := m.readers.map (Reader.after m.sup.slots sup'.slots) }
        else none

/-- With no line on its way, every count is the number of readers attached. -/
def CountsRight (m : Relay) : Prop :=
  (∀ r ∈ m.readers, r.pending = []) → ∀ k s, m.sup.slots[k]? = some s →
    s.viewerCount = m.readers.countP (fun r => decide (r.camera = k)
      && r.attached)

/-- The step confuses no reader with another. -/
structure CountSafe (m : Relay) (a : RelayAction) : Prop where
  /-- A reset finds readers attached only if it replaces their publisher by
  another process. -/
  reset : ∀ st k s r, a = .supervisor st → m.sup.slots[k]? = some s →
    Resets m.sup st k s → s.viewerCount ≠ 0 → r ∈ m.readers → r.camera = k →
    r.attached = true →
    Rebuilds m.sup st k s ∧ s.proc.alive = true ∧
    (st.env.starts k).created ≠ some s.proc.pid
  /-- A `read` line arrives only when every reader of the camera that was
  counted before the last reset has been reported to leave. -/
  read : ∀ j msg r rest, a = .deliver j msg → m.readers[j]? = some r →
    r.pending = .read :: rest → ∀ r' ∈ m.readers,
      r'.camera = r.camera → ¬ r'.Stale

/-! ## The invariant

A reader goes through few states, and in each it is known which of its lines
are still on their way and whether it is part of the count. What is asked of
the whole is that the counts add up, and that a count is zero while it waits
for readers it has forgotten. -/

/-- The states a reader goes through. -/
inductive ReaderOk : Reader → Prop where
  | joining (k : ℕ) : ReaderOk ⟨k, true, [.read], false⟩
  | watching (k : ℕ) : ReaderOk ⟨k, true, [], true⟩
  | left (k : ℕ) : ReaderOk ⟨k, false, [.read, .unread], false⟩
  | leaving (k : ℕ) (counted : Bool) : ReaderOk ⟨k, false, [.unread], counted⟩
  | gone (k : ℕ) : ReaderOk ⟨k, false, [], false⟩

/-- The readers of a camera that are part of its count. -/
def countedOn (k : ℕ) (r : Reader) : Bool := decide (r.camera = k) && r.counted

/-- Every count is the number of readers that are part of it, and it is zero
while a reader from before the last reset is still to be reported. -/
structure RelayOk (m : Relay) : Prop where
  paths : PathsInOrder m.sup.slots
  readers : ∀ r ∈ m.readers, ReaderOk r ∧ r.camera < m.sup.slots.length
  counts : ∀ k s, m.sup.slots[k]? = some s →
    s.viewerCount = m.readers.countP (countedOn k)
  stale : ∀ k s, m.sup.slots[k]? = some s →
    (∃ r ∈ m.readers, r.camera = k ∧ r.Stale) →
    s.viewerCount = 0

/-- With no line on its way, the readers that are counted are those that are
attached. -/
theorem RelayOk.countsRight {m : Relay} (h : RelayOk m) : CountsRight m := by
  intro hpending k s hs
  rw [h.counts k s hs]
  refine List.countP_congr (fun r hr => ?_)
  have hr0 := hpending r hr
  cases (h.readers r hr).1 with
  | joining | left | leaving => cases hr0
  | watching k' => simp [countedOn]
  | gone k' => simp [countedOn]

namespace ReaderOk

variable {r : Reader}

theorem detach (h : ReaderOk r) : ReaderOk r.detach := by
  cases h with
  | joining k => exact .left k
  | watching k => exact .leaving k true
  | left k => exact .left k
  | leaving k counted => exact .leaving k counted
  | gone k => exact .gone k

/-- A reader that is not attached may be struck off the count. -/
theorem strike (h : ReaderOk r) (hr : r.attached = false) :
    ReaderOk { r with counted := false } := by
  cases h with
  | joining | watching => cases hr
  | left k => exact .left k
  | leaving k counted => exact .leaving k false
  | gone k => exact .gone k

/-- The next line of a reader arrives. -/
theorem deliver (h : ReaderOk r) {ev : HookEvent} {rest : List HookEvent}
    (hr : r.pending = ev :: rest) :
    ReaderOk { r with pending := rest, counted := ev.isRead } ∧
      (ev = .read ∧ r.counted = false ∨ ev = .unread ∧ rest = []) := by
  cases h with
  | joining k =>
    obtain ⟨rfl, rfl⟩ := List.cons.inj hr
    exact ⟨.watching k, .inl ⟨rfl, rfl⟩⟩
  | watching k => cases hr
  | left k =>
    obtain ⟨rfl, rfl⟩ := List.cons.inj hr
    exact ⟨.leaving k true, .inl ⟨rfl, rfl⟩⟩
  | leaving k counted =>
    obtain ⟨rfl, rfl⟩ := List.cons.inj hr
    exact ⟨.gone k, .inr ⟨rfl, rfl⟩⟩
  | gone k => cases hr

end ReaderOk

@[simp] theorem Reader.camera_detach (r : Reader) :
    r.detach.camera = r.camera := by
  unfold Reader.detach
  split <;> rfl

@[simp] theorem Reader.counted_detach (r : Reader) :
    r.detach.counted = r.counted := by
  unfold Reader.detach
  split <;> rfl

@[simp] theorem Reader.attached_detach (r : Reader) :
    r.detach.attached = false := by
  unfold Reader.detach
  split
  next => rfl
  next h => simpa using h

/-- Detaching a consistent reader makes no stale one. -/
theorem Reader.stale_of_stale_detach {r : Reader} (h : ReaderOk r)
    (hs : r.detach.Stale) :
    r.Stale := by
  cases h with
  | joining => simp [Reader.Stale, Reader.detach] at hs
  | watching => simp [Reader.Stale, Reader.detach] at hs
  | left => exact hs
  | leaving => exact hs
  | gone => exact hs

/-! ## The steps, one after the other

Three kinds of steps change a count or a reader: a reader comes or goes, a
line arrives, and the supervisor does something. For each of them the number
of counted readers is followed and compared with the count of the slot. -/

variable {m m' : Relay}

theorem relayOk_attach {k : ℕ} (h : RelayOk m)
    (hstep : relayStep m (.attach k) = some m') :
    RelayOk m' := by
  simp only [relayStep] at hstep
  split at hstep
  next hk =>
    obtain rfl := Option.some.inj hstep
    refine ⟨h.paths, fun r hr => ?_, fun k' s hs => ?_, fun k' s hs => ?_⟩
    · rcases List.mem_append.mp hr with hr | hr
      · exact h.readers r hr
      · obtain rfl := List.mem_singleton.mp hr
        exact ⟨.joining k, hk⟩
    · rw [h.counts k' s hs, List.countP_append]
      simp [countedOn]
    · rintro ⟨r, hr, hcamera, hstale⟩
      refine h.stale k' s hs ⟨r, ?_, hcamera, hstale⟩
      rcases List.mem_append.mp hr with hr | hr
      · exact hr
      · obtain rfl := List.mem_singleton.mp hr
        exact absurd hstale.1 (by simp)
  next => cases hstep

theorem mem_of_mem_modify {α : Type} {f : α → α} {l : List α} {j : ℕ} {y : α}
    (h : y ∈ l.modify j f) : y ∈ l ∨ ∃ x ∈ l, y = f x := by
  obtain ⟨i, hi⟩ := List.mem_iff_getElem?.mp h
  rw [List.getElem?_modify] at hi
  obtain ⟨x, hx, hy⟩ := Option.map_eq_some_iff.mp hi
  have hmem := List.mem_of_getElem? hx
  split at hy
  · exact .inr ⟨x, hmem, hy.symm⟩
  · exact .inl (hy ▸ hmem)

theorem countP_modify {α : Type} {p : α → Bool} {f : α → α}
    (hf : ∀ x, p (f x) = p x)
    (l : List α) (j : ℕ) : (l.modify j f).countP p = l.countP p := by
  induction l generalizing j with
  | nil => simp
  | cons a l ih =>
    cases j with
    | zero => simp [List.countP_cons, hf]
    | succ j => simp [List.countP_cons, ih]

theorem relayOk_detach {j : ℕ} (h : RelayOk m)
    (hstep : relayStep m (.detach j) = some m') :
    RelayOk m' := by
  obtain rfl := Option.some.inj hstep
  refine ⟨h.paths, fun r hr => ?_, fun k s hs => ?_, fun k s hs => ?_⟩
  · rcases mem_of_mem_modify hr with hr | ⟨x, hx, rfl⟩
    · exact h.readers r hr
    · exact ⟨(h.readers x hx).1.detach, x.camera_detach ▸ (h.readers x hx).2⟩
  · rw [h.counts k s hs]
    exact (countP_modify (fun r => by simp [countedOn]) _ _).symm
  · rintro ⟨r, hr, hcamera, hstale⟩
    rcases mem_of_mem_modify hr with hr | ⟨x, hx, rfl⟩
    · exact h.stale k s hs ⟨r, hr, hcamera, hstale⟩
    · rw [Reader.camera_detach] at hcamera
      exact h.stale k s hs
        ⟨x, hx, hcamera, Reader.stale_of_stale_detach (h.readers x hx).1 hstale⟩

theorem HookEvent.count_unread (n : ℕ) : HookEvent.unread.count n = n - 1 := by
  cases n <;> rfl

/-- What the arrival of a line does: the slot counts it, and so does the
reader. -/
theorem relayStep_deliver {j : ℕ} {msg : Json String} (h : RelayOk m)
    (hstep : relayStep m (.deliver j msg) = some m') :
    ∃ r ev rest s, m.readers[j]? = some r ∧ r.pending = ev :: rest ∧
      m.sup.slots[r.camera]? = some s ∧
      m' = { sup := m.sup.setSlot r.camera (s.countViewer ev)
             readers := m.readers.set j
               { r with pending := rest, counted := ev.isRead } } := by
  simp only [relayStep] at hstep
  split at hstep
  next => cases hstep
  next r hr =>
    split at hstep
    next => cases hstep
    next ev rest hpending =>
      split at hstep
      next hev =>
        obtain ⟨sup', hnext, rfl⟩ := Option.map_eq_some_iff.mp hstep
        obtain ⟨out, hout, rfl⟩ := Option.map_eq_some_iff.mp hnext
        have hs :=
          List.getElem?_eq_getElem (h.readers r (List.mem_of_getElem? hr)).2
        refine ⟨r, ev, rest, _, hr, hpending, hs, ?_⟩
        rw [step_hook hout hev (findByPath_streamPath h.paths hs)]
      next => cases hstep

/-- The count after a line is the number of readers that are then part of
it. -/
theorem countP_deliver {readers : List Reader} {j k : ℕ} {r : Reader}
    {ev : HookEvent}
    {rest : List HookEvent} {count : ℕ} (hr : readers[j]? = some r)
    (hok : ReaderOk r)
    (hpending : r.pending = ev :: rest) (hk : r.camera = k)
    (hcount : count = readers.countP (countedOn k))
    (hstale : r.Stale → count = 0) :
    ev.count count
      = (readers.set j { r with pending := rest, counted := ev.isRead }).countP
        (countedOn k) := by
  have hlt : j < readers.length := (List.getElem?_eq_some_iff.mp hr).1
  have hget : readers[j] = r := (List.getElem?_eq_some_iff.mp hr).2
  rw [List.countP_set hlt, hget, ← hcount]
  rcases (hok.deliver hpending).2 with ⟨rfl, hnot⟩ | ⟨rfl, rfl⟩
  · simp [countedOn, hk, hnot, HookEvent.isRead, HookEvent.count]
  · rw [HookEvent.count_unread]
    cases hc : r.counted with
    | true => simp [countedOn, hk, hc, HookEvent.isRead]
    | false =>
      -- the reader was counted before a reset, and the clamp ignores its line
      have hzero := hstale ⟨hpending, hc⟩
      simp [countedOn, hc, HookEvent.isRead, hzero]

/-- A line that a safe step delivers counts the reader it is from, or takes it
off the count. -/
theorem relayOk_deliver {j : ℕ} {msg : Json String} (h : RelayOk m)
    (hsafe : CountSafe m (.deliver j msg))
    (hstep : relayStep m (.deliver j msg) = some m') :
    RelayOk m' := by
  obtain ⟨r, ev, rest, s, hr, hpending, hs, rfl⟩ := relayStep_deliver h hstep
  obtain ⟨hok, hcamera⟩ := h.readers r (List.mem_of_getElem? hr)
  have hslots : (m.sup.setSlot r.camera (s.countViewer ev)).slots
      = m.sup.slots.set r.camera (s.countViewer ev) := rfl
  refine ⟨fun k s' hs' => ?_, fun x hx => ?_, fun k s' hs' => ?_,
    fun k s' hs' => ?_⟩
  · rw [hslots] at hs'
    rcases eq_or_of_getElem?_set hs hs' with ⟨rfl, rfl⟩ | ⟨-, hs'⟩
    · exact h.paths r.camera s hs
    · exact h.paths k s' hs'
  · rw [hslots, List.length_set]
    rcases List.mem_or_eq_of_mem_set hx with hx | rfl
    · exact h.readers x hx
    · exact ⟨(hok.deliver hpending).1, hcamera⟩
  · rw [hslots] at hs'
    rcases eq_or_of_getElem?_set hs hs' with ⟨rfl, rfl⟩ | ⟨hk, hs'⟩
    · refine countP_deliver hr hok hpending rfl (h.counts r.camera s hs)
        (fun hstale => ?_)
      exact h.stale r.camera s hs ⟨r, List.mem_of_getElem? hr, rfl, hstale⟩
    · rw [h.counts k s' hs',
        List.countP_set (List.getElem?_eq_some_iff.mp hr).1,
        (List.getElem?_eq_some_iff.mp hr).2]
      simp [countedOn, Ne.symm hk]
  -- while a reader from before a reset is still to be reported, only its
  -- `unread` line can come, which leaves the count at zero
  · rintro ⟨x, hx, hxk, hstale⟩
    rw [hslots] at hs'
    rcases eq_or_of_getElem?_set hs hs' with ⟨rfl, rfl⟩ | ⟨hk, hs'⟩
    · rcases (hok.deliver hpending).2 with ⟨rfl, -⟩ | ⟨rfl, rfl⟩
      · rcases List.mem_or_eq_of_mem_set hx with hx | rfl
        · exact absurd hstale (hsafe.read j msg r rest rfl hr hpending x hx hxk)
        · exact absurd hstale.2 Bool.noConfusion
      · rcases List.mem_or_eq_of_mem_set hx with hx | rfl
        · have hzero := h.stale r.camera s hs ⟨x, hx, hxk, hstale⟩
          simp [CamSlot.countViewer, HookEvent.count_unread, hzero]
        · exact absurd hstale.1 (by simp)
    · rcases List.mem_or_eq_of_mem_set hx with hx | rfl
      · exact h.stale k s' hs' ⟨x, hx, hxk, hstale⟩
      · exact absurd hxk.symm hk

section After

variable {old new : List CamSlot} {r : Reader} {s s' : CamSlot}

@[simp] theorem Reader.camera_after (old new : List CamSlot) (r : Reader) :
    (r.after old new).camera = r.camera := by
  unfold Reader.after
  split
  next =>
    dsimp only
    repeat' split
    all_goals simp
  next => rfl

theorem Reader.after_of_kept (hs : old[r.camera]? = some s)
    (hs' : new[r.camera]? = some s')
    (h : s'.viewerCount = s.viewerCount) :
    r.after old new = if publisherGone s s' then r.detach else r := by
  simp only [Reader.after, hs, hs', h, if_true]

theorem Reader.after_of_reset (hs : old[r.camera]? = some s)
    (hs' : new[r.camera]? = some s')
    (h : s'.viewerCount ≠ s.viewerCount) :
    r.after old new
      = { (if publisherGone s s' then r.detach else r) with
        counted := false } := by
  simp only [Reader.after, hs, hs', h, if_false]

end After

/-- A process that was alive and is replaced by another one is gone. -/
theorem publisherGone_of_replaced {s s' : CamSlot} {stop : Bool}
    {created : Option ℕ}
    (halive : s.proc.alive = true) (hpid : created ≠ some s.proc.pid)
    (hs' : s'.proc.child = if stop = true then none
      else created.map (fun pid => ⟨pid, .alive⟩)) :
    publisherGone s s' = true := by
  rw [publisherGone, halive, Bool.true_and, decide_eq_true_eq, hs']
  obtain ⟨_, ⟨cfg, _ | ⟨pid, _ | code⟩⟩, _⟩ := s
  · cases halive
  · intro heq
    split at heq
    next => cases heq
    next =>
      obtain ⟨p, rfl, hp⟩ := Option.map_eq_some_iff.mp heq
      exact hpid (by simpa [SupervisedProcess.pid] using hp)
  · cases halive

/-- What a step of the supervisor does to a slot and its readers: the count is
kept, or it is reset and then no reader is attached any more. -/
theorem slot_after {st : Step} {out : Outcome}
    (hsafe : CountSafe m (.supervisor st))
    (hout : step m.sup st = some out)
    (hhook : ∀ msg, st.action ≠ .hook msg) {k : ℕ}
    {s : CamSlot} (hs : m.sup.slots[k]? = some s) :
    ∃ s', out.1.slots[k]? = some s' ∧
      (s'.viewerCount = s.viewerCount ∨
        s'.viewerCount = 0 ∧ ∀ r ∈ m.readers, r.camera = k →
          (if publisherGone s s' then r.detach else r).attached = false) := by
  obtain ⟨s', hs', hmove⟩ := step_slot hout hs
  refine ⟨s', hs', ?_⟩
  rcases hmove.viewerCount with ⟨hreset, hzero⟩ | ⟨msg, _, _, _, _, _,
    ha, _⟩ | hsame
  · by_cases hs0 : s.viewerCount = 0
    · exact .inl (hzero.trans hs0.symm)
    · refine .inr ⟨hzero, fun r hr hrk => ?_⟩
      cases hattached : r.attached with
      | false => split <;> simp [hattached]
      | true =>
        obtain ⟨hrebuilds, halive, hpid⟩ :=
          hsafe.reset st k s r rfl hs hreset hs0 hr hrk hattached
        obtain ⟨s'', hs'', hchild⟩ := hrebuilds.slot hs hout
        obtain rfl := Option.some.inj (hs'.symm.trans hs'')
        rw [if_pos (publisherGone_of_replaced halive hpid hchild)]
        exact r.attached_detach
  · exact absurd ha (hhook msg)
  · exact .inl hsame

/-- A step of the supervisor, seen from the readers. -/
theorem relayStep_supervisor {st : Step}
    (hstep : relayStep m (.supervisor st) = some m') :
    ∃ out, step m.sup st = some out ∧ (∀ msg, st.action ≠ .hook msg) ∧
      m' = { sup := out.1
             readers :=
               m.readers.map (Reader.after m.sup.slots out.1.slots) } := by
  simp only [relayStep] at hstep
  split at hstep
  next => cases hstep
  next hhook =>
    split at hstep
    next => cases hstep
    next sup' hnext =>
      split at hstep
      next =>
        obtain rfl := Option.some.inj hstep
        obtain ⟨out, hout, rfl⟩ := Option.map_eq_some_iff.mp hnext
        exact ⟨out, hout, hhook, rfl⟩
      next => cases hstep

theorem viewerCount_newSlot {ffExe : String} {device : CameraDevice}
    {formats : List AdvertisedFormat} {cfg : CameraConfig} {stop : Bool}
    {o : StartOutcome} :
    ((newSlot ffExe device formats cfg).startIfEnabled stop o).viewerCount
      = 0 := by
  unfold CamSlot.startIfEnabled
  split <;> rfl

/-- A slot that a step adds has no viewers. -/
theorem viewerCount_added {sup : Supervisor} {st : Step} {out : Outcome}
    (hout : step sup st = some out) {k : ℕ} {s : CamSlot}
    (hk : sup.slots.length ≤ k)
    (hs : out.1.slots[k]? = some s) : s.viewerCount = 0 := by
  rcases step_added hout with hlen | ⟨newFormats, newDevices, listChanged,
    -, -, hgrown⟩
  · exact absurd (List.getElem?_eq_some_iff.mp hs).1 (by omega)
  · exact @Grown.get_added _ _ _ _ _ _ (fun s => s.viewerCount = 0) hgrown
      (fun _ _ _ _ => viewerCount_newSlot) _ _ hk hs

/-- What becomes of a reader in a safe step of the supervisor. Where the count
of its camera stays, so does its part in it; where the count is reset, the
reader is struck off. -/
theorem reader_after {st : Step} {out : Outcome} (h : RelayOk m)
    (hsafe : CountSafe m (.supervisor st)) (hout : step m.sup st = some out)
    (hhook : ∀ msg, st.action ≠ .hook msg) {r : Reader} (hr : r ∈ m.readers) :
    ∃ s s', m.sup.slots[r.camera]? = some s ∧ out.1.slots[r.camera]? = some s' ∧
      ReaderOk (r.after m.sup.slots out.1.slots) ∧
      (s'.viewerCount = s.viewerCount →
        (r.after m.sup.slots out.1.slots).counted = r.counted ∧
          ((r.after m.sup.slots out.1.slots).Stale → r.Stale)) ∧
      (s'.viewerCount ≠ s.viewerCount →
        s'.viewerCount = 0 ∧
        (r.after m.sup.slots out.1.slots).counted = false) := by
  obtain ⟨hok, hcamera⟩ := h.readers r hr
  have hs := List.getElem?_eq_getElem hcamera
  obtain ⟨s', hs', hcount⟩ := slot_after hsafe hout hhook hs
  have hok₁ : ReaderOk
      (if publisherGone m.sup.slots[r.camera] s' then r.detach else r) := by
    split
    · exact hok.detach
    · exact hok
  refine ⟨_, s', hs, hs', ?_, fun hsame => ?_, fun hreset => ?_⟩
  · by_cases hsame : s'.viewerCount = m.sup.slots[r.camera].viewerCount
    · rw [Reader.after_of_kept hs hs' hsame]
      exact hok₁
    · rw [Reader.after_of_reset hs hs' hsame]
      exact hok₁.strike ((hcount.resolve_left hsame).2 r hr rfl)
  · rw [Reader.after_of_kept hs hs' hsame]
    split
    · exact ⟨r.counted_detach, Reader.stale_of_stale_detach hok⟩
    · exact ⟨rfl, id⟩
  · rw [Reader.after_of_reset hs hs' hreset]
    exact ⟨(hcount.resolve_left hreset).1, rfl⟩

/-- The count of a slot that was there is still the number of readers that are
part of it. -/
theorem countP_after {st : Step} {out : Outcome} (h : RelayOk m)
    (hsafe : CountSafe m (.supervisor st)) (hout : step m.sup st = some out)
    (hhook : ∀ msg, st.action ≠ .hook msg) {k : ℕ} {s s' : CamSlot}
    (hs : m.sup.slots[k]? = some s) (hs' : out.1.slots[k]? = some s') :
    s'.viewerCount
      = (m.readers.map (Reader.after m.sup.slots out.1.slots)).countP
        (countedOn k) := by
  rw [List.countP_map]
  by_cases hsame : s'.viewerCount = s.viewerCount
  · rw [hsame, h.counts k s hs]
    refine List.countP_congr (fun r hr => ?_)
    rw [Function.comp_apply, countedOn, countedOn, Reader.camera_after]
    by_cases hrk : r.camera = k
    · subst hrk
      obtain ⟨s₁, s₁', hs₁, hs₁', -, hkept, -⟩ :=
        reader_after h hsafe hout hhook hr
      obtain rfl := Option.some.inj (hs.symm.trans hs₁)
      obtain rfl := Option.some.inj (hs'.symm.trans hs₁')
      rw [(hkept hsame).1]
    · simp [hrk]
  · obtain ⟨s₁', hs₁', hcount⟩ := slot_after hsafe hout hhook hs
    obtain rfl := Option.some.inj (hs'.symm.trans hs₁')
    rw [(hcount.resolve_left hsame).1, eq_comm, List.countP_eq_zero]
    intro r hr
    rw [Function.comp_apply, countedOn, Reader.camera_after]
    by_cases hrk : r.camera = k
    · subst hrk
      rw [Reader.after_of_reset hs hs' hsame]
      simp
    · simp [hrk]

theorem relayOk_supervisor {st : Step} (h : RelayOk m)
    (hsafe : CountSafe m (.supervisor st))
    (hstep : relayStep m (.supervisor st) = some m') : RelayOk m' := by
  obtain ⟨out, hout, hhook, rfl⟩ := relayStep_supervisor hstep
  have hpaths : PathsInOrder out.1.slots :=
    pathsInOrder_step h.paths (Option.map_eq_some_iff.mpr ⟨out, hout, rfl⟩)
  refine ⟨hpaths, fun r' hr' => ?_, fun k s' hs' => ?_, fun k s' hs' => ?_⟩
  · obtain ⟨r, hr, rfl⟩ := List.mem_map.mp hr'
    obtain ⟨s, s', -, hs', hok, -, -⟩ := reader_after h hsafe hout hhook hr
    exact ⟨hok, by simpa using (List.getElem?_eq_some_iff.mp hs').1⟩
  · rcases Nat.lt_or_ge k m.sup.slots.length with hk | hk
    · exact countP_after h hsafe hout hhook (List.getElem?_eq_getElem hk) hs'
    · -- a slot that was added, and no reader can be at it yet
      rw [viewerCount_added hout hk hs', List.countP_map, eq_comm,
        List.countP_eq_zero]
      intro r hr
      have hcamera := (h.readers r hr).2
      have hne : r.camera ≠ k := by omega
      simp [countedOn, hne]
  · rintro ⟨r', hr', hrk, hstale⟩
    obtain ⟨r, hr, rfl⟩ := List.mem_map.mp hr'
    rw [Reader.camera_after] at hrk
    subst hrk
    obtain ⟨s, s₁', hs, hs₁', -, hkept, hreset⟩ :=
      reader_after h hsafe hout hhook hr
    obtain rfl := Option.some.inj (hs'.symm.trans hs₁')
    by_cases hsame : s'.viewerCount = s.viewerCount
    · rw [hsame]
      exact h.stale r.camera s hs ⟨r, hr, rfl, (hkept hsame).2 hstale⟩
    · exact (hreset hsame).1

/-- **One step** that confuses no readers keeps the counts. The condition
speaks of resets, and of `read` lines that arrive before the readers from
before a reset have been reported to leave. -/
theorem relayOk_step {a : RelayAction} (h : RelayOk m) (hsafe : CountSafe m a)
    (hstep : relayStep m a = some m') : RelayOk m' := by
  cases a with
  | attach k => exact relayOk_attach h hstep
  | detach j => exact relayOk_detach h hstep
  | deliver j msg => exact relayOk_deliver h hsafe hstep
  | supervisor st => exact relayOk_supervisor h hsafe hstep

theorem relayOk_startUp {b : Boot} {sup : Supervisor}
    (hb : startUp b = .ok sup) :
    RelayOk { sup, readers := [] } := by
  have hzero : ∀ s ∈ sup.slots, s.viewerCount = 0 :=
    startUp_forall_slots hb (fun _ _ _ _ => viewerCount_newSlot)
  refine ⟨pathsInOrder_startUp hb, fun r hr => absurd hr List.not_mem_nil,
    fun k s hs => hzero s (List.mem_of_getElem? hs), ?_⟩
  rintro k s hs ⟨r, hr, -⟩
  exact absurd hr List.not_mem_nil

/-- **The counts are right again whenever no line is on its way**, in every
state of a run whose steps confuse no readers. While lines are on their way
the count lags behind the readers, and nothing is said about it then. -/
theorem countsRight_everywhere {b : Boot} {sup : Supervisor}
    (hb : startUp b = .ok sup)
    {actions : List RelayAction}
    (hsafe : Runs.Guarded relayStep CountSafe { sup, readers := [] } actions) :
    Runs.Everywhere relayStep CountsRight { sup, readers := [] } actions := by
  have hinv :=
    Runs.everywhere_of_guarded (fun _ _ _ h hok hstep =>
      relayOk_step h hok hstep)
    (relayOk_startUp hb) hsafe
  exact hinv.mono (fun _ h => h.countsRight)

/-- A reader attaches, and its `read` line arrives. -/
def oneReader : List RelayAction := [.attach 0, .deliver 0 (hookMessage "read")]

theorem countSafe_attach (m : Relay) (k : ℕ) : CountSafe m (.attach k) := by
  constructor
  all_goals intros; contradiction

theorem countsRight_everywhere_oneReader :
    ∃ sup, startUp oneCamera = .ok sup ∧
      Runs.Everywhere relayStep CountsRight { sup, readers := [] }
        oneReader := by
  refine ⟨_, rfl, @countsRight_everywhere oneCamera _ rfl oneReader ?_⟩
  refine fun t ht => ⟨countSafe_attach _ 0, fun t' _ => ⟨⟨?_, ?_⟩, trivial⟩⟩
  · intros
    contradiction
  · intro j msg r rest _ _ _ r' hr' _ hstale
    obtain rfl := Option.some.inj ht
    obtain rfl := List.mem_singleton.mp hr'
    exact absurd hstale.1 (by decide)

/-- A reader is counted, its camera is restarted, a second reader is counted,
and only then the line that the first one left arrives. -/
def lateLine : List RelayAction :=
  [.attach 0, .deliver 0 (hookMessage "read"),
    .supervisor
      (requestWith { starts := fun _ => { created := some 3 } } "restart-camera"
      [("name", .string "Cam")]),
    .attach 0, .deliver 1 (hookMessage "read"),
      .deliver 0 (hookMessage "unread")]

/-- The second reader is attached, no line is on its way, and the count is
zero. -/
theorem late_line_takes_next_reader :
    ¬ ∀ sup m, bootRun oneCamera [] = some sup →
      Runs.run relayStep { sup, readers := [] } lateLine = some m →
      CountsRight m := by
  intro h
  have hright := h _ _ rfl rfl
  exact absurd (hright (by decide) 0 _ rfl) (by decide)

end WebcamStreamer
