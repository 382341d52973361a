import WebcamStreamer.HookMessages
import WebcamStreamer.PipeServers
import WebcamStreamer.Runs

/-!
# How the lines of the hook reach the supervisor

MediaMTX runs one hook for every viewer that comes or goes, so that any number
of them run at a time. The events pipe has one instance, which takes one
connection after the other: each hook tries to open the pipe, up to twenty
times, and the one that gets through writes its line, waits until it is read and
exits. The server reads up to the newline, hands on the line unless it is empty,
and makes a new instance.

A count goes wrong for good where a line is lost, torn or read twice. None of
this happens to a hook that has opened the pipe, unless it is killed or the
server stops while it reads. Nor does a hook keep the pipe from the others: its
connection ends after so many calls of the two.

`AcceptLoop` is here what the hooks see of it. How its thread and `Stop` take
turns is taken apart elsewhere; the last section ties the two together.
-/

namespace WebcamStreamer

/-! ## The hooks and the server

Any number of hooks want the one pipe that there is. A hook tries to open it,
writes its line, waits until the line was read and closes; the server makes an
instance, reads until the line has ended or the hook has gone, and makes the
next. A run is any order of their calls. -/

/-- Where a hook is. One that has not been run yet has made no attempt. -/
inductive HookPhase where
  /-- It has tried to open the pipe so many times. -/
  | trying (attempts : ℕ)
  /-- It has given up, or was killed before it opened the pipe. -/
  | gone
  /-- `WriteFile`, with what is not in the pipe yet. -/
  | writing (rest : Bytes)
  /-- `FlushFileBuffers`. -/
  | flushing
  | exited
  /-- It was killed with the pipe open. -/
  | killed
  deriving DecidableEq

namespace HookPhase

/-- The hook has opened the pipe. -/
def connected : HookPhase → Bool
  | trying _ | gone => false
  | _ => true

/-- The hook has opened the pipe, and its handle is closed. -/
def hungUp : HookPhase → Bool
  | exited | killed => true
  | _ => false

/-- What the hook still has to put into the pipe. -/
def rest : HookPhase → Bytes
  | writing rest => rest
  | _ => []

end HookPhase

/-- Where `AcceptLoop` is. -/
inductive EventsServer where
  /-- There is no instance of the pipe. -/
  | absent
  /-- There is one that nobody has opened. -/
  | free
  /-- A hook has opened it, and this much of its line has been read. -/
  | reading (k : ℕ) (line : Bytes)
  /-- The line was handed on. -/
  | closing
  /-- `Stop`, which may have cut a connection. -/
  | stopped (cut : Option ℕ)
  deriving DecidableEq

/-- The server reads from a hook. -/
def EventsServer.readsFrom (k : ℕ) : EventsServer → Bool
  | reading j _ => decide (j = k)
  | _ => false

/-- The hooks and the pipe. -/
structure EventsTraffic where
  phase : ℕ → HookPhase := fun _ => .trying 0
  server : EventsServer := .absent
  buffer : Bytes := []
  /-- The connections that are over: of which hook, and the line that was
  read. -/
  connections : List (ℕ × Bytes) := []

namespace EventsTraffic

/-- The hooks whose connection is over. -/
def finished (s : EventsTraffic) : List ℕ := s.connections.map Prod.fst

/-- What was handed on: of which hook, and the line. An empty line is not. -/
def received (s : EventsTraffic) : List (ℕ × Bytes) :=
  s.connections.filter (fun c => decide (c.2 ≠ []))

/-- The hooks that a line was handed on of. -/
def heard (s : EventsTraffic) : List ℕ := s.received.map Prod.fst

/-- A hook goes on. -/
def setPhase (s : EventsTraffic) (k : ℕ) (phase : HookPhase) : EventsTraffic :=
  { s with phase := Function.update s.phase k phase }

/-- A connection is over, and its line is handed on unless it is empty. -/
def handOn (s : EventsTraffic) (k : ℕ) (line : Bytes) (server : EventsServer) :
    EventsTraffic :=
  { s with server, buffer := [], connections := s.connections ++ [(k, line)] }

end EventsTraffic

/-- What happens. -/
inductive TrafficAction where
  /-- A hook tries to open the pipe, or gives up. -/
  | attempt (k : ℕ)
  /-- It does not get that far. -/
  | leave (k : ℕ)
  /-- Bytes of its line go into the pipe. -/
  | write (k n : ℕ)
  | flush (k : ℕ)
  | exit (k : ℕ)
  | kill (k : ℕ)
  /-- `CreateNamedPipe`. -/
  | create
  /-- `ConnectNamedPipe` fails with nobody there, and the instance is closed. -/
  | fail
  /-- `ReadFile` returns bytes. -/
  | read (n : ℕ)
  /-- `ReadFile` fails, as nobody is left at the other end. -/
  | endOfFile
  /-- `ConnectNamedPipe` fails, as the hook has come and gone. -/
  | missed
  | close
  | stop

/-- One step; `none` is one that is not possible. The hook `k` has the line
`text k`. -/
def trafficStep (text : ℕ → Bytes) (s : EventsTraffic) :
    TrafficAction → Option EventsTraffic
  | .attempt k =>
    match s.phase k with
    | .trying n =>
      if n < 20 then
        if s.server = .free then
          some { s.setPhase k (.writing (text k)) with server := .reading k [] }
        else some (s.setPhase k (.trying (n + 1)))
      else some (s.setPhase k .gone)
    | _ => none
  | .leave k =>
    match s.phase k with
    | .trying _ => some (s.setPhase k .gone)
    | _ => none
  | .write k n =>
    match s.phase k with
    | .writing rest =>
      if s.server.readsFrom k ∧ 0 < n ∧ rest ≠ [] then
        some { s.setPhase k (.writing (rest.drop n)) with
          buffer := s.buffer ++ rest.take n }
      else none
    | _ => none
  | .flush k =>
    if s.phase k = .writing [] then some (s.setPhase k .flushing) else none
  | .exit k =>
    match s.phase k with
    -- the calls return with an error when the server has closed its end
    | .writing _ =>
      if s.server.readsFrom k then none else some (s.setPhase k .exited)
    | .flushing =>
      if s.server.readsFrom k ∧ s.buffer ≠ [] then none
      else some (s.setPhase k .exited)
    | _ => none
  | .kill k =>
    match s.phase k with
    | .writing _ | .flushing => some (s.setPhase k .killed)
    | _ => none
  | .create =>
    if s.server = .absent then some { s with server := .free } else none
  | .fail =>
    if s.server = .free then some { s with server := .absent } else none
  | .read n =>
    match s.server with
    | .reading k line =>
      if 0 < n ∧ n ≤ 256 ∧ s.buffer ≠ [] then
        match scanEvent (s.buffer.take n) line with
        | (line, true) => some (s.handOn k line .closing)
        | (line, false) =>
          some { s with server := .reading k line, buffer := s.buffer.drop n }
      else none
    | _ => none
  | .endOfFile =>
    match s.server with
    | .reading k line =>
      if s.buffer = [] ∧ (s.phase k).hungUp then some (s.handOn k line .closing)
      else none
    | _ => none
  | .missed =>
    match s.server with
    | .reading k [] =>
      if (s.phase k).hungUp then some (s.handOn k [] .closing) else none
    | _ => none
  | .close =>
    if s.server = .closing then some { s with server := .absent } else none
  | .stop =>
    match s.server with
    | .reading k line => some (s.handOn k line (.stopped (some k)))
    | .stopped _ => none
    | _ => some { s with server := .stopped none }

/-! ## What a step does

The calls are grouped by what they do to the pipe and to the hooks, and the
groups are the constructors of one relation. Every proof about a step that
follows goes by its constructors, and none looks into the definition of the
step again. -/

section
variable {text : ℕ → Bytes} {s t : EventsTraffic}

theorem EventsServer.readsFrom_iff {server : EventsServer} {k : ℕ} :
    server.readsFrom k = true ↔ ∃ line, server = .reading k line := by
  cases server <;> simp [EventsServer.readsFrom]

/-- Why a connection is over: the line has ended, the hook has hung up, or the
server stops. -/
inductive HangsUp (s : EventsTraffic) (k : ℕ) (line : Bytes) :
    Bytes → EventsServer → Prop where
  | ended {n : ℕ} {line' : Bytes}
      (hscan : scanEvent (s.buffer.take n) line = (line', true)) :
      HangsUp s k line line' .closing
  | hungUp (hhung : (s.phase k).hungUp = true) : HangsUp s k line line .closing
  | stopped : HangsUp s k line line (.stopped (some k))

/-- What the server does when it reads from nobody. -/
inductive GoesBetween : TrafficAction → EventsServer → EventsServer → Prop where
  | create : GoesBetween .create .absent .free
  | fail : GoesBetween .fail .free .absent
  | close : GoesBetween .close .closing .absent
  | stop {server : EventsServer} (hreads : ∀ k, server.readsFrom k = false)
      (hrunning : ∀ cut, server ≠ .stopped cut) :
      GoesBetween .stop server (.stopped none)

/-- Between two connections, the server reads from nobody, and has not
stopped. -/
theorem GoesBetween.quiet {a : TrafficAction} {old new : EventsServer}
    (h : GoesBetween a old new) : (∀ k, old.readsFrom k = false) ∧
      (∀ k, new.readsFrom k = false) ∧ ∀ cut, old ≠ .stopped cut := by
  cases h with
  | stop hreads hrunning => exact ⟨hreads, fun _ => rfl, hrunning⟩
  | _ => exact ⟨fun _ => rfl, fun _ => rfl, fun _ => EventsServer.noConfusion⟩

theorem HangsUp.readsFrom_eq_false {k : ℕ} {line line' : Bytes}
    {server : EventsServer}
    (h : HangsUp s k line line' server) (j : ℕ) :
    server.readsFrom j = false := by
  cases h <;> rfl

/-- **What one step can do**: a hook that has not opened the pipe goes on, or
opens it; one that has goes on; the server does so between two connections, or
within one, which may be its end. -/
inductive TrafficStepsTo (text : ℕ → Bytes) (s : EventsTraffic) :
    TrafficAction → EventsTraffic → Prop where
  | outside {a : TrafficAction} {k : ℕ} {phase : HookPhase}
      (ha : a = .attempt k ∨ a = .leave k) (hk : (s.phase k).connected = false)
      (hphase : phase.connected = false) :
      TrafficStepsTo text s a (s.setPhase k phase)
  | connect {k : ℕ} (hk : (s.phase k).connected = false)
      (hfree : s.server = .free) :
      TrafficStepsTo text s (.attempt k)
        { s.setPhase k (.writing (text k)) with server := .reading k [] }
  | write {k n : ℕ} {rest : Bytes} (hk : s.phase k = .writing rest)
      (hreads : s.server.readsFrom k = true) (hpos : 0 < n)
      (hrest : rest ≠ []) :
      TrafficStepsTo text s (.write k n)
        { s.setPhase k (.writing (rest.drop n)) with
          buffer := s.buffer ++ rest.take n }
  | flush {k : ℕ} (hk : s.phase k = .writing []) :
      TrafficStepsTo text s (.flush k) (s.setPhase k .flushing)
  | exit {k : ℕ}
      (hk : (∃ rest, s.phase k = .writing rest) ∨ s.phase k = .flushing)
      (hflushed : s.server.readsFrom k = true →
        s.phase k = .flushing ∧ s.buffer = []) :
      TrafficStepsTo text s (.exit k) (s.setPhase k .exited)
  | kill {k : ℕ}
      (hk : (∃ rest, s.phase k = .writing rest) ∨ s.phase k = .flushing) :
      TrafficStepsTo text s (.kill k) (s.setPhase k .killed)
  | between {a : TrafficAction} {server : EventsServer}
      (hbetween : GoesBetween a s.server server) :
      TrafficStepsTo text s a { s with server }
  | read {k n : ℕ} {line line' : Bytes} (hserver : s.server = .reading k line)
      (hpos : 0 < n) (hsome : s.buffer ≠ [])
      (hscan : scanEvent (s.buffer.take n) line = (line', false)) :
      TrafficStepsTo text s (.read n)
        { s with server := .reading k line', buffer := s.buffer.drop n }
  | handOn {a : TrafficAction} {k : ℕ} {line line' : Bytes}
      {server : EventsServer}
      (hserver : s.server = .reading k line)
      (hover : HangsUp s k line line' server) :
      TrafficStepsTo text s a (s.handOn k line' server)

theorem trafficStepsTo_of_trafficStep {a : TrafficAction}
    (ht : trafficStep text s a = some t) : TrafficStepsTo text s a t := by
  cases a with
  | attempt k =>
    simp only [trafficStep] at ht
    split at ht
    next n hk =>
      have hout : (s.phase k).connected = false := by rw [hk]; rfl
      split at ht
      next =>
        split at ht
        next hfree => exact Option.some.inj ht ▸ .connect hout hfree
        next => exact Option.some.inj ht ▸ .outside (.inl rfl) hout rfl
      next => exact Option.some.inj ht ▸ .outside (.inl rfl) hout rfl
    next => cases ht
  | leave k =>
    simp only [trafficStep] at ht
    split at ht
    next n hk =>
      exact Option.some.inj ht ▸ .outside (.inr rfl) (by rw [hk]; rfl) rfl
    next => cases ht
  | write k n =>
    simp only [trafficStep] at ht
    split at ht
    next rest hk =>
      split at ht
      next hc => exact Option.some.inj ht ▸ .write hk hc.1 hc.2.1 hc.2.2
      next => cases ht
    next => cases ht
  | flush k =>
    simp only [trafficStep] at ht
    split at ht
    next hk => exact Option.some.inj ht ▸ .flush hk
    next => cases ht
  | exit k =>
    simp only [trafficStep] at ht
    split at ht
    next rest hk =>
      split at ht
      next => cases ht
      next hno =>
        exact Option.some.inj ht ▸ .exit (.inl ⟨rest,
          hk⟩) (fun hreads => absurd hreads hno)
    next hk =>
      split at ht
      next => cases ht
      -- a hook whose connection is being read exits only when all of it was
      -- read
      next hflushed =>
        exact Option.some.inj ht ▸ .exit (.inr hk)
          (fun hreads => ⟨hk, not_not.mp (fun hne => hflushed ⟨hreads, hne⟩)⟩)
    next => cases ht
  | kill k =>
    simp only [trafficStep] at ht
    split at ht
    next rest hk => exact Option.some.inj ht ▸ .kill (.inl ⟨rest, hk⟩)
    next hk => exact Option.some.inj ht ▸ .kill (.inr hk)
    next => cases ht
  | create =>
    simp only [trafficStep] at ht
    split at ht
    next hserver => exact Option.some.inj ht ▸ .between (hserver ▸ .create)
    next => cases ht
  | fail =>
    simp only [trafficStep] at ht
    split at ht
    next hserver => exact Option.some.inj ht ▸ .between (hserver ▸ .fail)
    next => cases ht
  | read n =>
    simp only [trafficStep] at ht
    split at ht
    next k line hserver =>
      split at ht
      next hc =>
        split at ht
        -- what was read ends the line, or the line goes on
        next line' hscan =>
          exact Option.some.inj ht ▸ .handOn hserver (.ended hscan)
        next line' hscan =>
          exact Option.some.inj ht ▸ .read hserver hc.1 hc.2.2 hscan
      next => cases ht
    next => cases ht
  | endOfFile =>
    simp only [trafficStep] at ht
    split at ht
    next k line hserver =>
      split at ht
      next hc => exact Option.some.inj ht ▸ .handOn hserver (.hungUp hc.2)
      next => cases ht
    next => cases ht
  | missed =>
    simp only [trafficStep] at ht
    split at ht
    next k hserver =>
      split at ht
      next hhung => exact Option.some.inj ht ▸ .handOn hserver (.hungUp hhung)
      next => cases ht
    next => cases ht
  | close =>
    simp only [trafficStep] at ht
    split at ht
    next hserver => exact Option.some.inj ht ▸ .between (hserver ▸ .close)
    next => cases ht
  | stop =>
    simp only [trafficStep] at ht
    split at ht
    next k line hserver => exact Option.some.inj ht ▸ .handOn hserver .stopped
    next => cases ht
    next hno hstopped =>
      refine Option.some.inj ht ▸ .between (.stop (fun k => ?_) hstopped)
      cases hserver : s.server with
      | reading j line => exact absurd hserver (hno j line)
      | _ => rfl

end

/-! ## One connection after the other

The invariant says of every hook what was told of its line and why no more. It
is kept group by group: opening, writing, reading, going, and the steps of the
server between two connections. -/

namespace EventsTraffic

open EventsServer (readsFrom_iff)

variable {text : ℕ → Bytes} {s t : EventsTraffic}

/-- How much of the line of a hook was read, and why no more of it: nothing is
left, the line has ended, the hook was killed, or the server has stopped. -/
def Told (text : ℕ → Bytes) (s : EventsTraffic) (k : ℕ) (line : Bytes) : Prop :=
  ∃ p, p <+: text k ∧ (scanEvent p []).1 = line ∧
    (p = text k ∨ (scanEvent p []).2 = true ∨ s.phase k = .killed ∨
      s.server = .stopped (some k))

/-- **The traffic is sound**: a hook that has opened the pipe was told or is
being read, and what was read of it is where its line begins. -/
structure Sound (text : ℕ → Bytes) (s : EventsTraffic) : Prop where
  once : s.finished.Nodup
  served : ∀ k, (s.phase k).connected = true ↔
    k ∈ s.finished ∨ s.server.readsFrom k = true
  idle : (∀ k, s.server.readsFrom k = false) → s.buffer = []
  /-- Nothing is missing between what was read and what is still to be written,
  unless the hook was killed. -/
  reading : ∀ k line, s.server = .reading k line → k ∉ s.finished ∧
    ∃ p, scanEvent p [] = (line, false) ∧
      p ++ s.buffer ++ (s.phase k).rest <+: text k ∧
      (s.phase k ≠ .killed → p ++ s.buffer ++ (s.phase k).rest = text k)
  /-- A hook that exits while it is read has left nothing in the pipe. -/
  flushed :
    ∀ k line, s.server = .reading k line → s.phase k = .exited → s.buffer = []
  told : ∀ k line, (k, line) ∈ s.connections → s.Told text k line

theorem sound_start (text : ℕ → Bytes) : ({} : EventsTraffic).Sound text where
  once := List.nodup_nil
  served k := by simp [HookPhase.connected, finished, EventsServer.readsFrom]
  idle _ := rfl
  reading k line h := by cases h
  flushed k line h := by cases h
  told k line h := by cases h

/-- What was told stays so, if no killed hook comes to life, and no stopped
server. -/
theorem Told.mono {k : ℕ} {line : Bytes} (h : s.Told text k line)
    (hkilled : s.phase k = .killed → t.phase k = .killed)
    (hstopped : s.server = .stopped (some k) → t.server = .stopped (some k)) :
    t.Told text k line := by
  obtain ⟨p, hbegins, hscan, hcase⟩ := h
  exact ⟨p, hbegins, hscan,
    hcase.imp_right (Or.imp_right (Or.imp hkilled hstopped))⟩

/-- Another hook is where it was. -/
theorem phase_setPhase_of_ne {j k : ℕ} (h : j ≠ k) (phase : HookPhase) :
    (s.setPhase k phase).phase j = s.phase j := Function.update_of_ne h _ _

@[simp] theorem phase_setPhase_self (k : ℕ) (phase : HookPhase) :
    (s.setPhase k phase).phase k = phase := Function.update_self _ _ _

/-- A hook goes on by itself: it is connected as before, and as long as it is
read it leaves nothing out, unless it is killed. -/
theorem Sound.setPhase (h : s.Sound text) {k : ℕ} {phase : HookPhase}
    (hconnected : phase.connected = (s.phase k).connected)
    (hkilled : s.phase k ≠ .killed)
    (hrest : s.server.readsFrom k = true →
      phase = .killed ∧ phase.rest = [] ∨ phase.rest = (s.phase k).rest)
    (hexited : phase = .exited → s.server.readsFrom k = true → s.buffer = []) :
    (s.setPhase k phase).Sound text where
  once := h.once
  served j := by
    by_cases hj : j = k
    · subst hj
      rw [phase_setPhase_self, hconnected]
      exact h.served j
    · rw [phase_setPhase_of_ne hj]
      exact h.served j
  idle := h.idle
  reading j line hserver := by
    obtain ⟨hnew, p, hscan, hbegins, hwhole⟩ := h.reading j line hserver
    refine ⟨hnew, p, hscan, ?_⟩
    show p ++ s.buffer ++ ((s.setPhase k phase).phase j).rest <+: text j ∧
      ((s.setPhase k phase).phase j ≠ .killed →
        p ++ s.buffer ++ ((s.setPhase k phase).phase j).rest = text j)
    by_cases hj : j = k
    · subst hj
      rw [phase_setPhase_self]
      -- a hook that is killed leaves what it has written, and any other one has
      -- the same still to write
      rcases hrest (readsFrom_iff.mpr ⟨line, hserver⟩) with ⟨hk, hnil⟩ | hsame
      · rw [hnil, List.append_nil]
        exact ⟨(List.prefix_append _ _).trans hbegins, fun hne => absurd hk hne⟩
      · rw [hsame]
        exact ⟨hbegins, fun _ => hwhole hkilled⟩
    · rw [phase_setPhase_of_ne hj]
      exact ⟨hbegins, hwhole⟩
  flushed j line hserver hphase := by
    by_cases hj : j = k
    · subst hj
      rw [phase_setPhase_self] at hphase
      exact hexited hphase (readsFrom_iff.mpr ⟨line, hserver⟩)
    · rw [phase_setPhase_of_ne hj] at hphase
      exact h.flushed j line hserver hphase
  told j line hmem := by
    refine (h.told j line hmem).mono (fun hj => ?_) id
    have hne : j ≠ k := fun heq => hkilled (heq ▸ hj)
    rw [phase_setPhase_of_ne hne, hj]

/-- A hook opens the pipe. -/
theorem Sound.connect (h : s.Sound text) {k : ℕ}
    (hk : (s.phase k).connected = false)
    (hfree : s.server = .free) :
    Sound text { s.setPhase k (.writing (text k)) with
      server := .reading k [] } := by
  have hnot : ∀ j, s.server.readsFrom j = false := fun j => by
    rw [hfree]
    rfl
  have hnew : k ∉ s.finished := fun hmem => by
    rw [(h.served k).mpr (.inl hmem)] at hk
    cases hk
  refine ⟨h.once, fun j => ?_, fun hidle => ?_, fun j line hserver => ?_,
    fun j line hserver hphase => h.idle hnot, fun j line hmem => ?_⟩
  · show ((s.setPhase k (.writing (text k))).phase j).connected = true ↔
      j ∈ s.finished ∨ decide (k = j) = true
    by_cases hj : j = k
    · subst hj
      simp [HookPhase.connected]
    · rw [phase_setPhase_of_ne hj, h.served j, hnot j, decide_eq_true_eq]
      simp [Ne.symm hj]
  · have hself := hidle k
    simp [EventsServer.readsFrom] at hself
  · obtain ⟨rfl, rfl⟩ := EventsServer.reading.inj hserver
    refine ⟨hnew, [], rfl, ?_⟩
    show [] ++ s.buffer ++ ((s.setPhase k (.writing (text k))).phase k).rest
        <+: text k ∧
      (_ → [] ++ s.buffer ++ ((s.setPhase k (.writing (text k))).phase k).rest
        = text k)
    rw [phase_setPhase_self, h.idle hnot]
    exact ⟨List.prefix_rfl, fun _ => rfl⟩
  · have hne : j ≠ k := by
      rintro rfl
      exact hnew (List.mem_map_of_mem hmem)
    refine (h.told j line hmem).mono (fun hkilled => ?_) (fun hcut => ?_)
    · exact (phase_setPhase_of_ne hne _).trans hkilled
    · rw [hfree] at hcut
      cases hcut

/-- Bytes go into the pipe. -/
theorem Sound.write (h : s.Sound text) {k n : ℕ} {rest : Bytes}
    (hk : s.phase k = .writing rest) (hreads : s.server.readsFrom k = true) :
    Sound text { s.setPhase k (.writing (rest.drop n)) with
      buffer := s.buffer ++ rest.take n } := by
  refine ⟨h.once, fun j => ?_, fun hidle => ?_, fun j line hserver => ?_,
    fun j line hserver hphase => ?_, fun j line hmem => ?_⟩
  · show ((s.setPhase k (.writing (rest.drop n))).phase j).connected = true ↔
      j ∈ s.finished ∨ s.server.readsFrom j = true
    by_cases hj : j = k
    · subst hj
      rw [phase_setPhase_self, ← h.served j, hk]
      exact Iff.rfl
    · rw [phase_setPhase_of_ne hj]
      exact h.served j
  · have hno : s.server.readsFrom k = false := hidle k
    rw [hreads] at hno
    cases hno
  · obtain ⟨hnew, p, hscan, hbegins, hwhole⟩ := h.reading j line hserver
    obtain ⟨line', hserver'⟩ := readsFrom_iff.mp hreads
    obtain ⟨rfl, rfl⟩ := EventsServer.reading.inj (hserver.symm.trans hserver')
    refine ⟨hnew, p, hscan, ?_⟩
    -- what is written moves from the hook to the pipe, so that the whole stays
    -- the text
    have hsame : p ++ (s.buffer ++ rest.take n) ++ rest.drop n
        = p ++ s.buffer ++ rest := by
      simp only [List.append_assoc, List.take_append_drop]
    show p ++ (s.buffer ++ rest.take n) ++
        ((s.setPhase j (.writing (rest.drop n))).phase j).rest <+: text j ∧
      (_ → p ++ (s.buffer ++ rest.take n) ++
        ((s.setPhase j (.writing (rest.drop n))).phase j).rest = text j)
    rw [phase_setPhase_self]
    show p ++ (s.buffer ++ rest.take n) ++ rest.drop n <+: text j ∧
      (_ → p ++ (s.buffer ++ rest.take n) ++ rest.drop n = text j)
    rw [hsame]
    rw [hk] at hbegins hwhole
    exact ⟨hbegins, fun _ => hwhole HookPhase.noConfusion⟩
  · obtain ⟨line', hserver'⟩ := readsFrom_iff.mp hreads
    obtain ⟨rfl, -⟩ := EventsServer.reading.inj (hserver'.symm.trans hserver)
    have hwriting : HookPhase.writing (rest.drop n) = .exited :=
      (phase_setPhase_self k _).symm.trans hphase
    cases hwriting
  · refine (h.told j line hmem).mono (fun hkilled => ?_) id
    have hne : j ≠ k := by
      rintro rfl
      rw [hk] at hkilled
      cases hkilled
    exact (phase_setPhase_of_ne hne _).trans hkilled

/-- A connection is over. -/
theorem Sound.handOn (h : s.Sound text) {k : ℕ} {line line' : Bytes}
    {server : EventsServer} (hreads : s.server = .reading k line)
    (hserver : ∀ j, server.readsFrom j = false)
    (htold : (s.handOn k line' server).Told text k line') :
    (s.handOn k line' server).Sound text := by
  obtain ⟨hnew, -⟩ := h.reading k line hreads
  have hover : (s.handOn k line' server).finished = s.finished ++ [k] := by
    rw [finished, EventsTraffic.handOn, List.map_append]
    rfl
  refine ⟨?_, fun j => ?_, fun _ => rfl, fun j line'' heq => ?_,
    fun _ _ _ _ => rfl, fun j line'' hmem => ?_⟩
  · rw [hover]
    exact List.Nodup.append h.once (List.nodup_singleton k)
      (List.disjoint_singleton.mpr hnew)
  · show (s.phase j).connected = true ↔ _ ∨ server.readsFrom j = true
    rw [hover, h.served j, hserver j, hreads, List.mem_append,
      List.mem_singleton]
    simp [EventsServer.readsFrom, eq_comm]
  · have hno := hserver j
    rw [show server = _ from heq] at hno
    simp [EventsServer.readsFrom] at hno
  · rcases List.mem_append.mp hmem with hmem | hmem
    · refine (h.told j line'' hmem).mono id (fun hstopped => ?_)
      rw [hreads] at hstopped
      cases hstopped
    · obtain ⟨rfl, rfl⟩ := Prod.mk.inj (List.mem_singleton.mp hmem)
      exact htold

/-- The server goes on between two connections, or stops there. -/
theorem Sound.between (h : s.Sound text) {a : TrafficAction}
    {server : EventsServer}
    (hbetween : GoesBetween a s.server server) :
    Sound text { s with server } := by
  obtain ⟨hold, hnew, hrunning⟩ := hbetween.quiet
  refine ⟨h.once, fun j => ?_, fun _ => h.idle hold, fun j line heq => ?_,
    fun _ _ _ _ => h.idle hold,
    fun j line hmem =>
      (h.told j line hmem).mono id (fun heq => absurd heq (hrunning _))⟩
  · show _ ↔ _ ∨ server.readsFrom j = true
    rw [h.served j, hold j, hnew j]
    exact Iff.rfl
  · have hno := hnew j
    rw [show server = _ from heq] at hno
    simp [EventsServer.readsFrom] at hno

/-- `ReadFile` returns bytes, in which the line does not end. -/
theorem Sound.read (h : s.Sound text) {k n : ℕ} {line line' : Bytes}
    (hserver : s.server = .reading k line) (hsome : s.buffer ≠ [])
    (hscan : scanEvent (s.buffer.take n) line = (line', false)) :
    Sound text { s with
      server := .reading k line', buffer := s.buffer.drop n } := by
  obtain ⟨hnew, p, hp, hbegins, hwhole⟩ := h.reading k line hserver
  have hmore : scanEvent (p ++ s.buffer.take n) [] = (line', false) := by
    rw [scanEvent_append, hp]
    exact hscan
  have hsame : p ++ s.buffer.take n ++ s.buffer.drop n ++ (s.phase k).rest
      = p ++ s.buffer ++ (s.phase k).rest := by
    simp only [List.append_assoc, List.take_append_drop]
  rw [← hsame] at hbegins hwhole
  refine ⟨h.once, fun j => ?_, fun hidle => ?_, fun j line'' heq => ?_,
    fun j line'' heq hphase => ?_, fun j l hmem => (h.told j l hmem).mono id ?_⟩
  · rw [h.served j, hserver]
    exact Iff.rfl
  · have hno := hidle k
    simp [EventsServer.readsFrom] at hno
  · obtain ⟨rfl, rfl⟩ := EventsServer.reading.inj heq
    exact ⟨hnew, p ++ s.buffer.take n, hmore, hbegins, hwhole⟩
  · obtain ⟨rfl, -⟩ := EventsServer.reading.inj heq
    exact absurd (h.flushed k line hserver hphase) hsome
  · intro hstopped
    rw [hserver] at hstopped
    cases hstopped

/-- What a connection has told when it is over. -/
theorem Sound.told_handOn (h : s.Sound text) {k : ℕ} {line line' : Bytes}
    {server : EventsServer} (hserver : s.server = .reading k line)
    (hover : HangsUp s k line line' server) :
    (s.handOn k line' server).Told text k line' := by
  obtain ⟨-, p, hscan, hbegins, hwhole⟩ := h.reading k line hserver
  have hread : p <+: text k :=
    ((List.prefix_append _ _).trans (List.prefix_append _ _)).trans hbegins
  cases hover with
  | @ended n line' hended =>
    have hmore : scanEvent (p ++ s.buffer.take n) [] = (line', true) := by
      rw [scanEvent_append, hscan]
      exact hended
    have htaken : p ++ s.buffer.take n
        <+: p ++ s.buffer ++ (s.phase k).rest := by
      rw [List.append_assoc, List.prefix_append_right_inj]
      exact (List.take_prefix n _).trans (List.prefix_append _ _)
    exact ⟨_, htaken.trans hbegins, by rw [hmore], .inr (.inl (by rw [hmore]))⟩
  | hungUp hhung =>
    refine ⟨p, hread, by rw [hscan], ?_⟩
    cases hphase : s.phase k with
    | killed => exact .inr (.inr (.inl hphase))
    | exited =>
      have hall := hwhole (by rw [hphase]; exact HookPhase.noConfusion)
      rw [h.flushed k line hserver hphase, hphase, List.append_nil] at hall
      exact .inl ((List.append_nil p).symm.trans hall)
    | _ =>
      rw [hphase] at hhung
      cases hhung
  | stopped => exact ⟨p, hread, by rw [hscan], .inr (.inr (.inr rfl))⟩

/-- **Every step leaves the traffic sound.** An induction over the run then
has it in every reachable state, and the results on what is handed on are read
off its fields. -/
theorem Sound.step (h : s.Sound text) {a : TrafficAction}
    (ht : trafficStep text s a = some t) : t.Sound text := by
  have halive : ∀ {k : ℕ}, (∃ rest, s.phase k = .writing rest) ∨
      s.phase k = .flushing →
      (s.phase k).connected = true ∧ s.phase k ≠ .killed := by
    rintro k (⟨rest, hk⟩ | hk) <;> rw [hk] <;>
      exact ⟨rfl, HookPhase.noConfusion⟩
  cases trafficStepsTo_of_trafficStep ht with
  | @outside _ k phase ha hk hphase =>
    have hunread : s.server.readsFrom k ≠ true := fun hreads => by
      rw [(h.served k).mpr (.inr hreads)] at hk
      cases hk
    exact h.setPhase (hphase.trans hk.symm)
      (fun heq => by rw [heq] at hk; cases hk)
      (fun hreads => absurd hreads hunread)
        (fun _ hreads => absurd hreads hunread)
  | connect hk hfree => exact h.connect hk hfree
  | write hk hreads => exact h.write hk hreads
  | @flush k hk =>
    exact h.setPhase (by rw [hk]; rfl) (halive (.inl ⟨_, hk⟩)).2
      (fun _ => .inr (by rw [hk]; rfl)) HookPhase.noConfusion
  | @exit k hk hflushed =>
    exact h.setPhase (halive hk).1.symm (halive hk).2
      (fun hreads => .inr (by rw [(hflushed hreads).1]; rfl))
      (fun _ hreads => (hflushed hreads).2)
  | kill hk =>
    exact h.setPhase (halive hk).1.symm (halive hk).2 (fun _ => .inl ⟨rfl, rfl⟩)
      HookPhase.noConfusion
  | between hbetween => exact h.between hbetween
  | read hserver hpos hsome hscan => exact h.read hserver hsome hscan
  | handOn hserver hover =>
    exact h.handOn hserver hover.readsFrom_eq_false
      (h.told_handOn hserver hover)

end EventsTraffic

/-! ## What is handed on

A line of the hook is printable and not too long, so that its end is seen, and
nothing before its end is taken for one. What is handed on of a hook is
therefore its whole line, unless it was killed or the server stopped while it
was read. -/

/-- A line that the server takes: printable bytes, some and not too many of
them, and a newline. -/
def IsHookLine (t : Bytes) : Prop :=
  ∃ l, l ≠ [] ∧ PrintableBytes l ∧ l.length ≤ 64 * 1024 ∧ t = l ++ [newline]

/-- The hook writes such a line. -/
theorem isHookLine_hookOutput (ev : HookEvent) {env : HookEnv}
    (henv : PlainEnv env) :
    IsHookLine (hookOutput (some ev.argument) env) := by
  obtain ⟨ip, port, hreader, hmessage⟩ := lineFields_eq henv ev
  obtain ⟨hnames, -⟩ := sentFields_names ev env ip port
  have hvalues := sentFields_plain henv ev hreader
  refine ⟨0x7B :: (renderFields (sentFields ev env ip port) ++ [0x7D]),
    List.cons_ne_nil _ _, ?_, ?_, ?_⟩
  · have hopen : PrintableBytes [0x7B] := by decide
    have hclose : PrintableBytes [0x7D] := by decide
    exact hopen.append ((printable_renderFields (fun f hf => (hnames f hf).1)
      (fun f hf => (hvalues f hf).1)).append hclose)
  · have hle := length_renderFields_le (fun f hf => (hnames f hf).2)
      (fun f hf => (hvalues f hf).2)
    have hcount : (sentFields ev env ip port).length = 8 := rfl
    rw [List.length_cons, List.length_append, List.length_singleton]
    omega
  · rw [hookOutput_eq, hmessage]
    simp

/-- Printable bytes do not end a line. -/
theorem scanEvent_of_printable {s : Bytes} (h : PrintableBytes s) (line : Bytes)
    (hlen : line.length + s.length ≤ 64 * 1024) :
    scanEvent s line = (line ++ s, false) := by
  induction s generalizing line with
  | nil => rw [scanEvent, List.append_nil]
  | cons c s ih =>
    obtain ⟨hc, hs⟩ := List.forall_mem_cons.mp h
    rw [List.length_cons] at hlen
    have hnext : (line ++ [c]).length + s.length ≤ 64 * 1024 := by
      rw [List.length_append, List.length_singleton]
      omega
    rw [scanEvent, if_neg hc.ne_newline, if_neg hc.ne_carriageReturn,
      if_neg (by omega), ih hs _ hnext, List.append_assoc,
      List.singleton_append]

/-- **Every hook is heard once**: what is handed on is whole, unless its hook
was killed or the server stopped in the middle of it. A hook that has opened the
pipe and exited was heard, unless the server stopped while it read from it, and
one that never opened the pipe was not. -/
structure HeardOnce (text : ℕ → Bytes) (s : EventsTraffic) : Prop where
  once : s.heard.Nodup
  whole : ∀ k line, (k, line) ∈ s.received → line ++ [newline] = text k ∨
    line <+: text k ∧ (s.phase k = .killed ∨ s.server = .stopped (some k))
  exited : ∀ k, s.phase k = .exited → k ∈ s.heard ∨ s.server = .stopped (some k)
  unheard : ∀ k, (s.phase k).connected = false → k ∉ s.heard

namespace EventsTraffic

open EventsServer (readsFrom_iff)

variable {text : ℕ → Bytes} {s t : EventsTraffic}

theorem mem_received_iff {k : ℕ} {line : Bytes} :
    (k, line) ∈ s.received ↔ (k, line) ∈ s.connections ∧ line ≠ [] := by
  rw [received, List.mem_filter, decide_eq_true_eq]

/-- Who is heard, was connected. -/
theorem heard_sublist_finished : s.heard.Sublist s.finished :=
  (List.filter_sublist (l := s.connections)).map Prod.fst

/-- What a hook line has told: the line, or a part of it, which was cut. -/
theorem Told.whole {k : ℕ} {line : Bytes} (h : s.Told text k line)
    (htext : IsHookLine (text k)) : (line ++ [newline] = text k ∧ line ≠ []) ∨
      line <+: text k ∧
      (s.phase k = .killed ∨ s.server = .stopped (some k)) := by
  obtain ⟨p, hbegins, rfl, hcase⟩ := h
  obtain ⟨l, hne, hprint, hlen, hl⟩ := htext
  have hall : scanEvent (text k) [] = (l, true) := by
    rw [hl, scanEvent_line hprint [] (by rwa [List.length_nil, Nat.zero_add]),
      List.nil_append]
  rcases hcase with rfl | hended | hcut
  · left
    rw [hall, hl]
    exact ⟨rfl, hne⟩
  · -- what ended in the line ended at its end
    left
    obtain ⟨more, hmore⟩ := hbegins
    rw [← hmore, scanEvent_append] at hall
    rcases hscan : scanEvent p [] with ⟨line', ended⟩
    rw [hscan] at hended hall
    obtain rfl : ended = true := hended
    obtain rfl : line' = l := (Prod.mk.inj hall).1
    exact ⟨hl.symm, hne⟩
  · rw [hl] at hbegins
    rcases List.prefix_concat_iff.mp hbegins with rfl | hpart
    · left
      rw [hl, scanEvent_line hprint [] (by rwa [List.length_nil, Nat.zero_add]),
        List.nil_append]
      exact ⟨rfl, hne⟩
    · right
      have hshort : p.length ≤ 64 * 1024 := hpart.length_le.trans hlen
      rw [scanEvent_of_printable (fun c hc => hprint c (hpart.subset hc)) []
        (by rwa [List.length_nil, Nat.zero_add]), List.nil_append, hl]
      exact ⟨hpart.trans (List.prefix_append _ _), hcut⟩

theorem Sound.heardOnce (h : s.Sound text) (htext : ∀ k, IsHookLine (text k)) :
    HeardOnce text s := by
  refine ⟨heard_sublist_finished.nodup h.once, fun k line hmem => ?_,
    fun k hk => ?_, fun k hk hheard => ?_⟩
  · exact ((h.told k line (mem_received_iff.mp hmem).1).whole
      (htext k)).imp_left (·.1)
  · rcases (h.served k).mp (by rw [hk]; rfl) with hover | hreads
    · obtain ⟨⟨j, line⟩, hmem, rfl⟩ := List.mem_map.mp hover
      rcases (h.told j line hmem).whole (htext j) with ⟨-, hne⟩ | ⟨-,
        hkilled | hstopped⟩
      · exact .inl (List.mem_map_of_mem (mem_received_iff.mpr ⟨hmem, hne⟩))
      · rw [hk] at hkilled
        cases hkilled
      · exact .inr hstopped
    · -- the whole line was read, and did not end
      obtain ⟨line, hserver⟩ := readsFrom_iff.mp hreads
      obtain ⟨-, p, hscan, -, hwhole⟩ := h.reading k line hserver
      have hp := hwhole (by rw [hk]; exact HookPhase.noConfusion)
      rw [h.flushed k line hserver hk, hk, List.append_nil] at hp
      obtain ⟨l, -, hprint, hlen, hl⟩ := htext k
      rw [show p = text k from (List.append_nil p).symm.trans hp, hl,
        scanEvent_line hprint []
          (by rwa [List.length_nil, Nat.zero_add])] at hscan
      cases hscan
  · rw [(h.served k).mpr (.inl (heard_sublist_finished.subset hheard))] at hk
    cases hk

end EventsTraffic

/-- **No line of a hook is lost, torn or counted twice**: however many hooks run
at a time, and however their calls, the reads of the server and its instances of
the pipe take turns. The variables of every hook hold printable ASCII that fits,
as the hook assumes. -/
theorem hooks_heard_once {event : ℕ → HookEvent} {env : ℕ → HookEnv}
    (henv : ∀ k, PlainEnv (env k)) (actions : List TrafficAction) :
    let text := fun k => hookOutput (some (event k).argument) (env k)
    Runs.Everywhere (trafficStep text) (HeardOnce text) {} actions := by
  intro text
  have hsound : Runs.Everywhere (trafficStep text)
      (EventsTraffic.Sound text) {} actions :=
    Runs.everywhere_of_forall (fun s a t hs ht => hs.step ht)
      (EventsTraffic.sound_start text) actions
  exact hsound.mono
    (fun s h => h.heardOnce (fun k => isHookLine_hookOutput _ (henv k)))

theorem hooks_heard_once_quotingViewer :
    Runs.Everywhere
      (trafficStep
        (fun _ => hookOutput (some HookEvent.read.argument) quotingViewer))
      (HeardOnce
        (fun _ => hookOutput (some HookEvent.read.argument) quotingViewer)) {}
      [.create, .attempt 0, .write 0 4096, .read 256, .kill 0,
        .endOfFile, .close] :=
  @hooks_heard_once (fun _ => .read) (fun _ => quotingViewer)
    (fun _ => plainEnv_quotingViewer) _

/-! ## The end of a connection

A hook that has opened the pipe keeps all others out. It does so for a bounded
number of calls, which are counted here twice for each byte that is still to
be written and once for each that is still to be read. -/

/-- How many calls a hook that has opened the pipe is away from its end, where
each byte counts twice, since it is written and read. -/
def HookPhase.left : HookPhase → ℕ
  | .writing rest => 2 * rest.length + 2
  | .flushing => 1
  | _ => 0

/-- How many calls are left of the connection of a hook. -/
def EventsTraffic.left (s : EventsTraffic) (k : ℕ) : ℕ :=
  (s.phase k).left + s.buffer.length

/-- A call of a hook that goes on by itself, or of the server that reads from
it. -/
def TrafficAction.servesHook (k : ℕ) : TrafficAction → Bool
  | .write j _ | .flush j | .exit j => decide (j = k)
  | .read _ | .endOfFile | .missed => true
  | _ => false

namespace EventsTraffic

open EventsServer (readsFrom_iff)

variable {text : ℕ → Bytes} {s t : EventsTraffic}

/-- A hook goes on by itself, which is a call of the connection where it is the
one that is read. -/
theorem left_setPhase {j k own : ℕ} {new : HookPhase}
    (hself : j = k → new.left + own ≤ (s.phase j).left)
    (hother : j ≠ k → own = 0) :
    (s.setPhase j new).left k + own ≤ s.left k := by
  show ((s.setPhase j new).phase k).left + s.buffer.length + own
    ≤ _ + s.buffer.length
  by_cases hj : j = k
  · subst hj
    have hle := hself rfl
    rw [phase_setPhase_self]
    omega
  · rw [phase_setPhase_of_ne (Ne.symm hj), hother hj]
    exact le_rfl

theorem toNat_decide_of_ne {j k : ℕ} (h : j ≠ k) :
    (decide (j = k)).toNat = 0 := by
  rw [decide_eq_false h, Bool.toNat_false]

theorem left_of_connected_eq_false {phase : HookPhase}
    (h : phase.connected = false) :
    phase.left = 0 := by
  cases phase <;> first | rfl | cases h

/-- **A connection goes on or is over**, and each call of it leaves less to
do. What other hooks do meanwhile changes neither, and so only the calls that
serve this one are counted. -/
theorem step_reading {a : TrafficAction} {k : ℕ} {line : Bytes}
    (hserver : s.server = .reading k line)
    (ht : trafficStep text s a = some t) :
    k ∈ t.finished ∨
      t.server.readsFrom k = true ∧
      t.left k + (a.servesHook k).toNat ≤ s.left k := by
  have hreads : s.server.readsFrom k = true := readsFrom_iff.mpr ⟨line, hserver⟩
  cases trafficStepsTo_of_trafficStep ht with
  | @outside _ j phase ha hj hphase =>
    have hnone : (a.servesHook k).toNat = 0 := by
      rcases ha with rfl | rfl <;> rfl
    refine .inr ⟨hreads, left_setPhase (fun _ => ?_) (fun _ => hnone)⟩
    rw [left_of_connected_eq_false hphase, hnone]
    exact Nat.zero_le _
  | connect hj hfree =>
    rw [hserver] at hfree
    cases hfree
  | @write j n rest hj hj' hpos hrest =>
    -- only the hook that is read writes
    obtain ⟨line', hserver'⟩ := readsFrom_iff.mp hj'
    obtain ⟨rfl, -⟩ := EventsServer.reading.inj (hserver.symm.trans hserver')
    refine .inr ⟨hreads, ?_⟩
    have hlen := List.length_pos_of_ne_nil hrest
    show ((s.setPhase k (.writing (rest.drop n))).phase k).left +
      (s.buffer ++ rest.take n).length + (decide (k = k)).toNat ≤ _ + _
    rw [phase_setPhase_self, hj, decide_eq_true rfl, Bool.toNat_true,
      List.length_append,
      List.length_take, HookPhase.left, HookPhase.left, List.length_drop]
    omega
  | @flush j hj =>
    refine .inr ⟨hreads, left_setPhase (fun _ => ?_) toNat_decide_of_ne⟩
    rw [hj]
    exact Nat.add_le_add_left (Bool.toNat_le _) 1
  | @exit j hj hflushed =>
    refine .inr ⟨hreads, left_setPhase (fun heq => ?_) toNat_decide_of_ne⟩
    rw [(hflushed (heq ▸ hreads)).1]
    exact Nat.add_le_add_left (Bool.toNat_le _) 0
  | kill hj =>
    exact .inr ⟨hreads, left_setPhase (fun _ => Nat.zero_le _) (fun _ => rfl)⟩
  | between hbetween =>
    exact absurd ((hbetween.quiet.1 k).symm.trans hreads) Bool.false_ne_true
  | @read j n line' line'' hserver' hpos hsome hscan =>
    obtain ⟨rfl, rfl⟩ := EventsServer.reading.inj (hserver.symm.trans hserver')
    refine .inr ⟨readsFrom_iff.mpr ⟨line'', rfl⟩, ?_⟩
    have hlen := List.length_pos_of_ne_nil hsome
    show (s.phase k).left + (s.buffer.drop n).length + 1
      ≤ (s.phase k).left + s.buffer.length
    rw [List.length_drop]
    omega
  | @handOn _ j line' line'' server hserver' hover =>
    obtain ⟨rfl, -⟩ := EventsServer.reading.inj (hserver.symm.trans hserver')
    exact .inl (List.mem_map_of_mem
      (List.mem_append_right s.connections
        (List.mem_singleton_self (k, line''))))

/-- What is over stays so. -/
theorem mem_finished_step {a : TrafficAction} {k : ℕ} (hk : k ∈ s.finished)
    (ht : trafficStep text s a = some t) : k ∈ t.finished := by
  cases trafficStepsTo_of_trafficStep ht with
  | @handOn _ j line line' server hserver hover =>
    rw [finished, EventsTraffic.handOn, List.map_append]
    exact List.mem_append_left _ hk
  | _ => exact hk

/-- **Nobody waits for nobody**: while a hook is read, the server has something
to read, or the hook goes on, or the server sees that it is gone. -/
theorem Sound.exists_step (h : s.Sound text) {k : ℕ}
    (hreads : s.server.readsFrom k = true) :
    ∃ a t, a.servesHook k = true ∧ trafficStep text s a = some t := by
  obtain ⟨line, hserver⟩ := readsFrom_iff.mp hreads
  by_cases hbuffer : s.buffer = []
  · have hconnected := (h.served k).mpr (.inr hreads)
    have hself : decide (k = k) = true := decide_eq_true rfl
    cases hphase : s.phase k with
    | trying _ | gone =>
      rw [hphase] at hconnected
      cases hconnected
    | writing rest =>
      cases rest with
      | nil => exact ⟨.flush k, s.setPhase k .flushing, hself, if_pos hphase⟩
      | cons c rest =>
        refine ⟨.write k 1, { s.setPhase k (.writing ((c :: rest).drop 1)) with
          buffer := s.buffer ++ (c :: rest).take 1 }, hself, ?_⟩
        rw [trafficStep, hphase]
        exact if_pos ⟨hreads, Nat.one_pos, List.cons_ne_nil c rest⟩
    | flushing =>
      refine ⟨.exit k, s.setPhase k .exited, hself, ?_⟩
      rw [trafficStep, hphase]
      exact if_neg (fun hwaits => hwaits.2 hbuffer)
    | exited | killed =>
      refine ⟨.endOfFile, s.handOn k line .closing, rfl, ?_⟩
      rw [trafficStep, hserver]
      exact if_pos ⟨hbuffer, by rw [hphase]; rfl⟩
  · have hready : 0 < 1 ∧ 1 ≤ 256 ∧ s.buffer ≠ [] :=
      ⟨Nat.one_pos, by decide, hbuffer⟩
    rcases hscan : scanEvent (s.buffer.take 1) line with ⟨line', ended | ended⟩
    · refine ⟨.read 1, { s with
        server := .reading k line', buffer := s.buffer.drop 1 }, rfl, ?_⟩
      simp only [trafficStep, hserver, if_pos hready, hscan]
    · refine ⟨.read 1, s.handOn k line' .closing, rfl, ?_⟩
      simp only [trafficStep, hserver, if_pos hready, hscan]

/-- What is left of a connection is bounded by the line of the hook. -/
theorem Sound.left_le (h : s.Sound text) {k : ℕ}
    (hreads : s.server.readsFrom k = true) :
    s.left k ≤ 2 * (text k).length + 2 := by
  obtain ⟨line, hserver⟩ := readsFrom_iff.mp hreads
  obtain ⟨-, p, -, hbegins, -⟩ := h.reading k line hserver
  have hle := hbegins.length_le
  rw [List.length_append, List.length_append] at hle
  have hphase : (s.phase k).left ≤ 2 * (s.phase k).rest.length + 2 := by
    cases s.phase k <;> simp [HookPhase.left, HookPhase.rest]
  rw [left]
  omega

end EventsTraffic

/-- **No hook keeps the pipe**: as long as it is read, it or the server can go
on, and after no more than twice as many calls of the two as its line has bytes,
and two, the connection is over. It waits for none of the other hooks, whatever
they do in between. -/
theorem hook_connection_ends {text : ℕ → Bytes} {k : ℕ} {s t : EventsTraffic}
    {actions more : List TrafficAction}
    (hrun : Runs.run (trafficStep text) {} actions = some s)
    (hreads : s.server.readsFrom k = true) :
    (∃ a u, a.servesHook k = true ∧ trafficStep text s a = some u) ∧
      (Runs.run (trafficStep text) s more = some t →
        t.server.readsFrom k = true →
        more.countP (TrafficAction.servesHook k)
        ≤ 2 * (text k).length + 2) := by
  have hs : s.Sound text :=
    Runs.run_invariant_of_forall _ (fun _ _ _ h ht => h.step ht)
    (EventsTraffic.sound_start text) hrun
  refine ⟨hs.exists_step hreads, fun hmore hstill => ?_⟩
  have hend : k ∈ t.finished ∨ t.server.readsFrom k = true ∧
      more.countP (TrafficAction.servesHook k) + t.left k ≤ s.left k := by
    refine @Runs.countP_le_of_decreasing _ _ (trafficStep text) s t more
      (fun s => s.server.readsFrom k = true) (fun s => k ∈ s.finished) _
        (fun s => s.left k)
      (fun s a t hreads ht => ?_) (fun _ _ _ => EventsTraffic.mem_finished_step)
        hreads hmore
    obtain ⟨line, hserver⟩ := EventsServer.readsFrom_iff.mp hreads
    exact EventsTraffic.step_reading hserver ht
  rcases hend with hover | ⟨-, hcount⟩
  · have ht : t.Sound text :=
      Runs.run_invariant_of_forall _ (fun _ _ _ h ht => h.step ht) hs hmore
    obtain ⟨line, hserver⟩ := EventsServer.readsFrom_iff.mp hstill
    exact absurd hover (ht.reading k line hserver).1
  · exact (Nat.le_add_right _ _).trans (hcount.trans (hs.left_le hreads))

/-- Two hooks want the pipe: the first has opened it and written a part of its
line. -/
def twoHooks : List TrafficAction :=
  [.create, .attempt 0, .attempt 1, .write 0 5]

/-- The line of each of them. -/
def shortLine : ℕ → Bytes := fun _ => 
  JsonReader.openBrace :: (ascii "\"a\":1" ++ [JsonReader.closeBrace, newline])

theorem hook_connection_ends_twoHooks :
    ∃ s t, Runs.run (trafficStep shortLine) {} twoHooks = some s ∧
      Runs.run (trafficStep shortLine) s [.read 4, .attempt 1] = some t ∧
      (∃ a u, a.servesHook 0 = true ∧ trafficStep shortLine s a = some u) ∧
      [TrafficAction.read 4, .attempt 1].countP (TrafficAction.servesHook 0)
        ≤ 2 * (shortLine 0).length + 2 := by
  have hall : ((Runs.run (trafficStep shortLine) {} (twoHooks ++ [.read 4,
      .attempt 1])).map
      (fun t => t.server.readsFrom 0)) = some true := by
    decide +kernel
  obtain ⟨t, hrun, hstill⟩ := Option.map_eq_some_iff.mp hall
  obtain ⟨s, hs, ht⟩ := Runs.run_append.mp hrun
  have hreads : s.server.readsFrom 0 = true := by
    have hfirst : ((Runs.run (trafficStep shortLine) {} twoHooks).map
        (fun s => s.server.readsFrom 0)) = some true := by
      decide +kernel
    rw [hs] at hfirst
    exact Option.some.inj hfirst
  obtain ⟨hnext, hbound⟩ := hook_connection_ends hs hreads
  exact ⟨s, t, hs, ht, hnext, hbound ht hstill⟩

/-! ## The thread behind it

The traffic has one step where the thread in `AcceptLoop` has several: it looks
at `stop_`, enters the pipe into its variable, and calls `ReadFile` again for a
line that has not ended. What a hook can tell apart is a stage, and both models
go through the same ones. -/

/-- What the hooks see of the server: no pipe, one that nobody has opened, one
that a hook has opened, one whose line was handed on, or that it stops. -/
inductive ServerStage where
  | absent
  | free
  | busy
  | closing
  | stopped
  deriving DecidableEq

/-- How one stage follows another. -/
inductive ServerStage.Moves : ServerStage → ServerStage → Prop where
  | create : Moves .absent .free
  | fail : Moves .free .absent
  | accept : Moves .free .busy
  | handOn : Moves .busy .closing
  | close : Moves .closing .absent
  | stop {stage : ServerStage} : Moves stage .stopped

/-- The stage of the server in the traffic. -/
def EventsServer.stage : EventsServer → ServerStage
  | .absent => .absent
  | .free => .free
  | .reading _ _ => .busy
  | .closing => .closing
  | .stopped _ => .stopped

/-- The stage that the thread is in. A pipe can be opened as soon as it is
made. -/
def EventsPhase.stage : EventsPhase → ServerStage
  | .top | .creating => .absent
  | .created _ | .entered _ | .connecting _ | .returned _ false | .failed _ =>
    .free
  | .returned _ true | .serving _ | .asking _ | .reading _ | .handling _ =>
    .busy
  | .closing _ => .closing
  | .leaving _ | .done => .stopped

/-- The stage of the thread and of `Stop`. -/
def PipeServer.stage (s : PipeServer EventsPhase) : ServerStage :=
  if s.stopping then .stopped else s.accept.stage

namespace PipeServer

variable {s t : PipeServer EventsPhase}

theorem stage_of_stopping (h : s.stopping = true) : s.stage = .stopped :=
  if_pos h

theorem stage_of_running (h : s.stopper = .running) :
    s.stage = s.accept.stage := by
  rw [stage, stopping, h]
  rfl

theorem stopper_stop_ne (hs : eventsLoop.step s .stop = some t) :
    t.stopper ≠ .running := by
  simp only [AcceptLoop.step, AcceptLoop.stop] at hs
  cases hstopper : s.stopper <;>
    simp only [hstopper, Option.some.injEq, reduceCtorEq] at hs
  case closed =>
    split at hs
    next => exact Option.some.inj hs ▸ Stopper.noConfusion
    next => cases hs
  all_goals exact hs ▸ Stopper.noConfusion

/-- **The thread and `Stop` go from stage to stage** as the moves say. -/
theorem stage_step {a : PipeAction} (hs : eventsLoop.step s a = some t) :
    t.stage = s.stage ∨ s.stage.Moves t.stage := by
  by_cases hrun : t.stopper = .running
  · -- `Stop` was not called, so the thread or a client has gone on
    rw [stage_of_running hrun]
    cases a with
    | accept ok =>
      rw [stage_of_running ((eventsGoOn_afterStop hs).1.symm.trans hrun)]
      obtain ⟨phase, stopper, current, ledger⟩ := s
      obtain rfl : stopper = .running :=
        (eventsGoOn_afterStop hs).1.symm.trans hrun
      cases phase <;>
        simp only [AcceptLoop.step, eventsLoop, eventsGoOn, Option.some.injEq,
          reduceCtorEq] at hs <;> subst hs
      case creating => cases ok <;> [exact .inl rfl; exact .inr .create]
      case entered | asking => left; dsimp only; split <;> rfl
      case returned p connected => cases connected <;> exact .inl rfl
      case failed => exact .inr .fail
      case handling => exact .inr .handOn
      case closing => exact .inr .close
      all_goals exact .inl rfl
    | client ok =>
      obtain ⟨phase, hphase, rfl⟩ := Option.map_eq_some_iff.mp hs
      rw [show s.stage = s.accept.stage from stage_of_running hrun]
      cases hold : s.accept <;> rw [hold] at hphase <;> cases ok <;>
        simp only [eventsLoop, eventsClient, Option.some.injEq,
          reduceCtorEq] at hphase <;>
        subst hphase
      case connecting.true => exact .inr .accept
      all_goals exact .inl rfl
    | stop => exact absurd hrun (stopper_stop_ne hs)
  · rw [stage_of_stopping (bne_iff_ne.mpr hrun)]
    exact .inr .stop

end PipeServer

namespace EventsTraffic

variable {text : ℕ → Bytes} {s t : EventsTraffic}

/-- **So does the server of the traffic.** -/
theorem stage_step {a : TrafficAction} (ht : trafficStep text s a = some t) :
    t.server.stage = s.server.stage ∨ s.server.stage.Moves t.server.stage := by
  cases trafficStepsTo_of_trafficStep ht with
  | connect hk hfree => exact .inr (hfree ▸ .accept)
  | @between _ server hbetween =>
    right
    show s.server.stage.Moves server.stage
    generalize s.server = old at hbetween
    cases hbetween <;> constructor
  | read hserver => exact .inl (hserver ▸ rfl)
  | handOn hserver hover =>
    rw [hserver]
    cases hover with
    | stopped => exact .inr .stop
    | _ => exact .inr .handOn
  | _ => exact .inl rfl

/-- The thread is where it waits for what the hooks do. -/
def Mirrors (s : EventsTraffic) (server : PipeServer EventsPhase) : Prop :=
  match s.server with
  | .absent => server.stopper = .running ∧ server.accept = .top
  | .free => server.stopper = .running ∧
    ∃ p, server.accept = .connecting p ∧ server.current = some p
  | .reading _ _ => server.stopper = .running ∧
    ∃ p, server.accept = .serving p ∧ server.current = some p
  | .closing => server.stopper = .running ∧ ∃ p, server.accept = .closing p
  | .stopped _ => server.stopping = true

theorem Mirrors.stage_eq {server : PipeServer EventsPhase}
    (h : s.Mirrors server) :
    server.stage = s.server.stage := by
  unfold Mirrors at h
  split at h
  next heq => rw [heq, PipeServer.stage_of_running h.1, h.2]; rfl
  next heq =>
    obtain ⟨hrun, p, hp, -⟩ := h
    rw [heq, PipeServer.stage_of_running hrun, hp]
    rfl
  next heq =>
    obtain ⟨hrun, p, hp, -⟩ := h
    rw [heq, PipeServer.stage_of_running hrun, hp]
    rfl
  next heq =>
    obtain ⟨hrun, p, hp⟩ := h
    rw [heq, PipeServer.stage_of_running hrun, hp]
    rfl
  next heq => rw [heq, PipeServer.stage_of_stopping h]; rfl

/-- **What the traffic does, the thread does**: a step of the traffic is matched
by so many steps of the thread, of its client and of `Stop`. -/
theorem Mirrors.step {server : PipeServer EventsPhase} (h : s.Mirrors server)
    {a : TrafficAction} (ht : trafficStep text s a = some t) :
    ∃ steps server', Runs.run eventsLoop.step server steps = some server' ∧
      t.Mirrors server' := by
  obtain ⟨phase, stopper, current, ledger⟩ := server
  have hsame : t.server = s.server → ∃ steps server',
      Runs.run eventsLoop.step ⟨phase, stopper, current,
        ledger⟩ steps = some server' ∧
        t.Mirrors server' := by
    intro heq
    refine ⟨[], _, rfl, ?_⟩
    unfold Mirrors at h ⊢
    rwa [heq]
  -- as long as the server of the traffic is not stopped, `Stop` has not been
  -- called
  have hstop : (∀ cut, s.server ≠ .stopped cut) → stopper = .running := by
    intro hne
    unfold Mirrors at h
    split at h
    next => exact h.1
    next => exact h.1
    next => exact h.1
    next => exact h.1
    next heq => exact absurd heq (hne _)
  cases trafficStepsTo_of_trafficStep ht with
  | connect hk hfree =>
    simp only [Mirrors, hfree] at h
    obtain ⟨rfl, p, rfl, rfl⟩ := h
    exact ⟨[.client true, .accept true], _, rfl, rfl, p, rfl, rfl⟩
  | @between _ server hbetween =>
    generalize hold : s.server = old at hbetween hstop
    cases hbetween with
    -- creating a pipe is several steps of the loop: the flag is looked at, and
    -- the pipe is made and published
    | create =>
      simp only [Mirrors, hold] at h
      obtain ⟨rfl, rfl⟩ := h
      refine ⟨[.accept true, .accept true, .accept true, .accept true],
        ⟨.connecting ledger.taken, .running, some ledger.taken, ledger.take⟩,
        ?_,
        rfl, ledger.taken, rfl, rfl⟩
      simp [Runs.run, AcceptLoop.step, eventsLoop, eventsGoOn,
        PipeServer.stopping]
    | fail =>
      simp only [Mirrors, hold] at h
      obtain ⟨rfl, p, rfl, rfl⟩ := h
      exact ⟨[.client false, .accept true, .accept true], _, rfl, rfl, rfl⟩
    | close =>
      simp only [Mirrors, hold] at h
      obtain ⟨rfl, p, rfl⟩ := h
      exact ⟨[.accept true], _, rfl, rfl, rfl⟩
    | stop hreads hrunning =>
      obtain rfl := hstop hrunning
      exact ⟨[.stop], _, rfl, rfl⟩
  | read hserver =>
    refine ⟨[], _, rfl, ?_⟩
    simp only [Mirrors, hserver] at h
    exact h
  | handOn hserver hover =>
    simp only [Mirrors, hserver] at h
    obtain ⟨rfl, p, rfl, rfl⟩ := h
    -- a line that is handed on is one round through the serving phase
    have hclosing : Runs.run eventsLoop.step ⟨.serving p, .running,
        some p, ledger⟩
        [.accept true, .accept true, .client true, .accept true]
          = some ⟨.closing p, .running, some p, ledger⟩ := by
      simp [Runs.run, AcceptLoop.step, eventsLoop, eventsGoOn, eventsClient,
        PipeServer.stopping]
    cases hover with
    | stopped => exact ⟨[.stop], _, rfl, rfl⟩
    | ended | hungUp => exact ⟨_, _, hclosing, rfl, p, rfl⟩
  | _ => exact hsame rfl

/-- So every run of the traffic is one of the thread, up to the same stage. -/
theorem exists_run_of_traffic {actions : List TrafficAction}
    (hrun : Runs.run (trafficStep text) {} actions = some s) :
    ∃ steps server,
      Runs.run eventsLoop.step { accept := .top } steps = some server ∧
      server.stage = s.server.stage := by
  have hstep : ∀ (s : EventsTraffic) (server : PipeServer EventsPhase) a t,
      s.Mirrors server → True → trafficStep text s a = some t →
      ∃ steps server', (∀ b ∈ steps, (fun _ => True) b) ∧
        Runs.run eventsLoop.step server steps = some server' ∧
        t.Mirrors server' := by
    intro s server a t h _ ht
    obtain ⟨steps, server', hsteps, hmirrors⟩ := h.step ht
    exact ⟨steps, server', fun _ _ => trivial, hsteps, hmirrors⟩
  have hstart : ({} : EventsTraffic).Mirrors { accept := .top } := ⟨rfl, rfl⟩
  obtain ⟨steps, server, -, hsteps, hmirrors⟩ :=
    Runs.exists_run_of_simulation hstep hstart (fun _ _ => trivial) hrun
  exact ⟨steps, server, hsteps, hmirrors.stage_eq⟩

/-- The hooks are quiet: nothing is in the pipe, a hook that is read is still
writing, and there is always another one that has not been run yet. -/
structure Quiet (s : EventsTraffic) : Prop where
  buffer : s.buffer = []
  writing :
    ∀ k line, s.server = .reading k line → ∃ rest, s.phase k = .writing rest
  fresh : ∃ n, ∀ k, n ≤ k → s.phase k = .trying 0

/-- With quiet hooks the server can make any move. -/
theorem Quiet.move (h : s.Quiet) {stage : ServerStage}
    (hmove : s.server.stage.Moves stage) :
    ∃ actions t, Runs.run (trafficStep text) s actions = some t ∧ t.Quiet ∧
      t.server.stage = stage := by
  obtain ⟨hbuffer, hwriting, n, hfresh⟩ := h
  -- a move of the server alone keeps the traffic quiet
  have hbetween : ∀ a server, trafficStep text s a = some { s with server } →
      (∀ k, server.readsFrom k = false) → ∃ actions t,
        Runs.run (trafficStep text) s actions = some t ∧ t.Quiet ∧
          t.server.stage = server.stage := by
    intro a server ht hquiet
    refine ⟨[a], _, Runs.run_cons_iff.mpr ⟨_, ht, rfl⟩,
      ⟨hbuffer, fun k line heq => ?_,
      n, hfresh⟩, rfl⟩
    have hno := hquiet k
    rw [show server = _ from heq] at hno
    simp [EventsServer.readsFrom] at hno
  cases hserver : s.server with
  | absent =>
    rw [hserver] at hmove
    cases hmove with
    | create => exact hbetween .create .free (if_pos hserver) (fun _ => rfl)
    | stop =>
      exact hbetween .stop (.stopped none) (by simp [trafficStep, hserver])
        (fun _ => rfl)
  | free =>
    rw [hserver] at hmove
    cases hmove with
    | fail => exact hbetween .fail .absent (if_pos hserver) (fun _ => rfl)
    -- a hook that has never connected does so now, with its whole text still to
    -- write
    | accept =>
      have ht : trafficStep text s (.attempt n)
          = some { s.setPhase n (.writing (text n)) with
            server := .reading n [] } := by
        simp [trafficStep, hfresh n le_rfl, hserver]
      refine ⟨[.attempt n], _, Runs.run_cons_iff.mpr ⟨_, ht, rfl⟩, ⟨hbuffer,
        fun k line heq => ?_, n + 1, fun k hk => ?_⟩, rfl⟩
      · obtain ⟨rfl, -⟩ := EventsServer.reading.inj heq
        exact ⟨text n, phase_setPhase_self n _⟩
      · exact (phase_setPhase_of_ne (by omega) _).trans (hfresh k (by omega))
    | stop =>
      exact hbetween .stop (.stopped none) (by simp [trafficStep, hserver])
        (fun _ => rfl)
  | reading k line =>
    obtain ⟨rest, hk⟩ := hwriting k line hserver
    rw [hserver] at hmove
    cases hmove with
    -- the hook that is read dies, and the server finds the end of the file
    | handOn =>
      have hkill : trafficStep text s (.kill k)
          = some (s.setPhase k .killed) := by
        simp [trafficStep, hk]
      have hend : trafficStep text (s.setPhase k .killed) .endOfFile
          = some ((s.setPhase k .killed).handOn k line .closing) := by
        have hphase : ((s.setPhase k .killed).phase k).hungUp = true := by
          rw [phase_setPhase_self]
          rfl
        simp only [trafficStep,
          show (s.setPhase k .killed).server = _ from hserver]
        exact if_pos ⟨hbuffer, hphase⟩
      refine ⟨[.kill k, .endOfFile], _, Runs.run_cons_iff.mpr ⟨_, hkill,
        Runs.run_cons_iff.mpr ⟨_, hend, rfl⟩⟩, ⟨rfl, nofun,
        max n (k + 1), fun j hj => ?_⟩, rfl⟩
      exact (phase_setPhase_of_ne (by omega) _).trans (hfresh j (by omega))
    | stop =>
      have ht : trafficStep text s .stop
          = some (s.handOn k line (.stopped (some k))) := by
        simp [trafficStep, hserver]
      exact ⟨[.stop], _, Runs.run_cons_iff.mpr ⟨_, ht, rfl⟩,
        ⟨rfl, nofun, n, hfresh⟩, rfl⟩
  | closing =>
    rw [hserver] at hmove
    cases hmove with
    | close => exact hbetween .close .absent (if_pos hserver) (fun _ => rfl)
    | stop =>
      exact hbetween .stop (.stopped none) (by simp [trafficStep, hserver])
        (fun _ => rfl)
  | stopped cut =>
    rw [hserver] at hmove
    cases hmove with
    | stop =>
      exact ⟨[], s, rfl, ⟨hbuffer, hwriting, n, hfresh⟩, by rw [hserver]; rfl⟩

/-- **What the thread does, the traffic does**: a step of the thread, of its
client or of `Stop` is matched by a run of hooks that are quiet. -/
theorem Quiet.follows (h : s.Quiet) {server server' : PipeServer EventsPhase}
    (hstage : s.server.stage = server.stage) {a : PipeAction}
    (hs : eventsLoop.step server a = some server') :
    ∃ actions t, Runs.run (trafficStep text) s actions = some t ∧ t.Quiet ∧
      t.server.stage = server'.stage := by
  rcases PipeServer.stage_step hs with hsame | hmove
  · exact ⟨[], s, rfl, h, hstage.trans hsame.symm⟩
  · exact h.move (hstage ▸ hmove)

end EventsTraffic

end WebcamStreamer
