import WebcamStreamer.Teardown

/-!
# What a shutdown leaves behind

No process is lost sight of: one that is alive is behind the handle of MediaMTX,
of a slot, or of an object whose destruction is an operation some thread still
has to do (`Covered`). The end of the shutdown stops what the objects hold, and
at that point no thread has an operation left, since both serving threads have
been joined.

The shutdown is followed operation by operation, with the two serving threads
anywhere in a handler and children that exit whenever they like. An operation
that is begun is finished by the thread that has begun it, and the main thread
waits for both others before it goes through the objects for the last time;
whatever was started behind its back until then is in one of the objects by
that time.
-/

namespace WebcamStreamer

/-! ## Processes and the operations to come

Every process that is alive is held by an object or is about to be ended by an
operation that a thread has still to carry out. The lemmas say how the second
list changes when an operation is carried out or a process is created. -/

namespace Procs

/-- An object holds the process. -/
def Holds (p : Procs) (pid : ℕ) : Prop := p.mtx = some pid ∨ some pid ∈ p.slots

theorem mem_kill {p : Procs} {h : Option ℕ} {pid : ℕ} :
    pid ∈ (p.kill h).alive ↔ pid ∈ p.alive ∧ some pid ≠ h := by
  simp [kill]

theorem holds_handle {p : Procs} {pid : ℕ} (h : p.Holds pid) :
    ∃ r, p.handle r = some pid := by
  rcases h with h | h
  · exact ⟨.mtx, h⟩
  · obtain ⟨i, hi⟩ := List.mem_iff_getElem?.mp h
    exact ⟨.slot i, by simp [handle, hi]⟩

theorem holds_of_handle {p : Procs} {pid : ℕ} {r : ProcRef}
    (h : p.handle r = some pid) :
    p.Holds pid := by
  cases r with
  | mtx => exact .inl h
  | slot i => exact .inr (List.mem_of_getElem? (Option.join_eq_some_iff.mp h))

/-- Setting one handle leaves the others. -/
theorem handle_setHandle_of_ne {p : Procs} {h : Option ℕ} {r r' : ProcRef}
    (hne : r ≠ r') :
    (p.setHandle h r).handle r' = p.handle r' := by
  cases r with
  | mtx =>
    cases r' with
    | mtx => exact absurd rfl hne
    | slot j => rfl
  | slot i =>
    cases r' with
    | mtx => rfl
    | slot j =>
      have hij : i ≠ j := fun heq => hne (heq ▸ rfl)
      simp [setHandle, handle, List.getElem?_set_ne hij]

theorem handle_setHandle_self {p : Procs} {h : Option ℕ} {r : ProcRef}
    (hr : p.Has r) :
    (p.setHandle h r).handle r = h := by
  cases r with
  | mtx => rfl
  | slot i =>
    have hi : i < p.slots.length := hr
    simp [setHandle, handle, hi]

@[simp] theorem alive_setHandle (p : Procs) (h : Option ℕ) (r : ProcRef) :
    (p.setHandle h r).alive = p.alive := by
  cases r <;> rfl

@[simp] theorem births_setHandle (p : Procs) (h : Option ℕ) (r : ProcRef) :
    (p.setHandle h r).births = p.births := by
  cases r <;> rfl

@[simp] theorem gStop_setHandle (p : Procs) (h : Option ℕ) (r : ProcRef) :
    (p.setHandle h r).gStop = p.gStop := by
  cases r <;> rfl

/-- What another object holds it still holds. -/
theorem Holds.setHandle {p : Procs} {pid : ℕ} (h : p.Holds pid) {r : ProcRef}
    (hne : p.handle r ≠ some pid) (h' : Option ℕ) :
    (p.setHandle h' r).Holds pid := by
  obtain ⟨r', hr'⟩ := holds_handle h
  have hrr : r ≠ r' := by
    rintro rfl
    exact hne hr'
  exact holds_of_handle ((handle_setHandle_of_ne hrr).trans hr')

/-- `Stop()` ends what the object holds, and what another holds stays held. -/
theorem holds_stop {p : Procs} {pid : ℕ} {r : ProcRef}
    (hp : pid ∈ (p.stop r).alive)
    (h : p.Holds pid) : (p.stop r).Holds pid := by
  rw [stop, alive_setHandle, mem_kill] at hp
  have hkilled : (p.kill (p.handle r)).Holds pid := h
  exact hkilled.setHandle hp.2.symm none

theorem mem_alive_of_stop {p : Procs} {pid : ℕ} {r : ProcRef}
    (hp : pid ∈ (p.stop r).alive) : pid ∈ p.alive := by
  rw [stop, alive_setHandle, mem_kill] at hp
  exact hp.1

end Procs

/-- **Every process is covered** by the operations to come: it is held or about
to be destroyed, and nothing to come starts one for a call that was entered
after `g_stop` was set. -/
structure Covered (p : Procs) (pending : List ProcOp) : Prop where
  held : ∀ pid ∈ p.alive, p.Holds pid ∨ .destroy (some pid) ∈ pending
  births : ∀ b ∈ p.births, b.late = false
  tests : ∀ r, .testStop r true ∈ pending → p.gStop = true
  starts : ∀ r, .start r true ∉ pending

namespace Covered

variable {p : Procs} {pending pending' : List ProcOp}

/-- The operations that matter are kept, and no other begins to matter. -/
theorem mono (h : Covered p pending)
    (hkeep : ∀ pid, .destroy (some pid) ∈ pending →
      .destroy (some pid) ∈ pending')
    (htests : ∀ r, .testStop r true ∈ pending' → .testStop r true ∈ pending)
    (hstarts : ∀ r, .start r true ∈ pending' → .start r true ∈ pending) :
    Covered p pending' where
  held pid hpid := (h.held pid hpid).imp_right (hkeep pid)
  births := h.births
  tests r hr := h.tests r (htests r hr)
  starts r hr := h.starts r (hstarts r hr)

/-- The order of the operations does not matter. -/
theorem congr (h : Covered p pending)
    (hmem : ∀ op, op ∈ pending ↔ op ∈ pending') :
    Covered p pending' :=
  h.mono (fun _ => (hmem _).mp) (fun _ => (hmem _).mpr) (fun _ => (hmem _).mpr)

theorem setStop (h : Covered p pending) :
    Covered { p with gStop := true } pending where
  held := h.held
  births := h.births
  tests _ _ := rfl
  starts := h.starts

theorem kill (h : Covered p pending) (pid : ℕ) :
    Covered (p.kill (some pid)) pending where
  held q hq := h.held q (Procs.mem_kill.mp hq).1
  births := h.births
  tests := h.tests
  starts := h.starts

theorem stop (h : Covered p pending) (r : ProcRef) :
    Covered (p.stop r) pending where
  held pid hpid :=
    (h.held pid (Procs.mem_alive_of_stop hpid)).imp_left (Procs.holds_stop hpid)
  births := by
    rw [Procs.stop, Procs.births_setHandle]
    exact h.births
  tests r' hr' := by
    rw [Procs.stop, Procs.gStop_setHandle]
    exact h.tests r' hr'
  starts := h.starts

/-- A process that is created is behind the handle of its object. -/
theorem start (h : Covered p pending) {r : ProcRef} (hr : p.Has r)
    (created : Bool) :
    Covered (p.start r false created) pending := by
  have hstop := h.stop r
  unfold Procs.start
  split
  next =>
    have hnone : (p.stop r).handle r = none := Procs.handle_setHandle_self hr
    have hhas : (p.stop r).Has r := by
      cases r with
      | mtx => trivial
      | slot i =>
        show i < (p.slots.set i none).length
        rw [List.length_set]
        exact hr
    constructor
    · intro q hq
      rcases List.mem_cons.mp hq with rfl | hq
      · exact .inl (Procs.holds_of_handle (Procs.handle_setHandle_self hhas))
      · refine (hstop.held q hq).imp_left (fun hholds => ?_)
        have hne : (p.stop r).handle r ≠ some q := hnone ▸ nofun
        exact hholds.setHandle hne (some p.next)
    · intro b hb
      rcases List.mem_cons.mp hb with rfl | hb
      · rfl
      · exact h.births b hb
    · intro r' hr'
      exact (Procs.gStop_setHandle ..).trans (hstop.tests r' hr')
    · exact h.starts
  next => exact hstop

/-- The tail of the operations to come, when the first is none of the three that
matter. -/
theorem of_cons {op : ProcOp} (h : Covered p (op :: pending))
    (hop : ∀ pid, op ≠ .destroy (some pid)) : Covered p pending :=
  h.mono (fun pid hmem =>
    (List.mem_cons.mp hmem).resolve_left (fun heq => hop pid heq.symm))
    (fun _ => List.mem_cons_of_mem op) (fun _ => List.mem_cons_of_mem op)

end Covered

/-- **One operation keeps every process covered**, whoever executes it. What
it leaves behind to be executed stands in front of what was pending, and the
two together are what covers the processes that run. -/
theorem covered_exec {p : Procs} {op : ProcOp} {pending : List ProcOp}
    (h : Covered p (op :: pending)) (created : Bool) :
    Covered (exec p created op).1 ((exec p created op).2 ++ pending) := by
  cases op with
  | stop r =>
    exact (h.of_cons (by simp)).stop r
  | rebuild i =>
    have htail := h.of_cons (by simp)
    refine ⟨fun pid hpid => ?_, htail.births, fun r hr => ?_, fun r hr => ?_⟩
    · -- What the slot held is about to be destroyed.
      rcases htail.held pid hpid with hholds | hmem
      · by_cases heq : p.handle (.slot i) = some pid
        · exact .inr (heq ▸ List.mem_cons_self)
        · exact .inl (hholds.setHandle heq none)
      · exact .inr (List.mem_cons_of_mem _ hmem)
    · exact htail.tests r ((List.mem_cons.mp hr).resolve_left nofun)
    · exact htail.starts r ((List.mem_cons.mp hr).resolve_left nofun)
  | destroy handle =>
    refine ⟨fun pid hpid => ?_, h.births,
      fun r hr => h.tests r (List.mem_cons_of_mem _ hr),
        fun r hr => h.starts r (List.mem_cons_of_mem _ hr)⟩
    obtain ⟨halive, hne⟩ := Procs.mem_kill.mp hpid
    refine (h.held pid halive).imp_right (fun hmem => ?_)
    exact (List.mem_cons.mp hmem).resolve_left
      (fun heq => hne (ProcOp.destroy.inj heq))
  | startNoSleep r =>
    have htail := h.of_cons (by simp)
    refine ⟨fun pid hpid => ?_, htail.births, fun r' hr' => ?_,
      fun r' hr' => ?_⟩
    · exact (htail.held pid hpid).imp_right (List.mem_cons_of_mem _)
    · rcases List.mem_cons.mp hr' with heq | hmem
      · exact (ProcOp.testStop.inj heq).2.symm
      · exact htail.tests r' hmem
    · exact htail.starts r' ((List.mem_cons.mp hr').resolve_left nofun)
  | testStop r late =>
    have htail := h.of_cons (by simp)
    cases hstop : p.gStop with
    | true =>
      simp only [exec, hstop]
      exact htail
    | false =>
      simp only [exec, hstop]
      -- The call was not entered after `g_stop` was set, since it still is not.
      have hlate : late = false := by
        cases late with
        | false => rfl
        | true => exact (h.tests r List.mem_cons_self).symm.trans hstop
      refine htail.mono (fun _ => List.mem_cons_of_mem _)
        (fun _ hr => (List.mem_cons.mp hr).resolve_left nofun)
          (fun r' hr' => ?_)
      refine (List.mem_cons.mp hr').resolve_left (fun heq => ?_)
      exact absurd ((ProcOp.start.inj heq).2.trans hlate) (by decide)
  | start r late =>
    have htail := h.of_cons (by simp)
    have hlate : late = false := by
      cases late with
      | false => rfl
      | true => exact absurd List.mem_cons_self (h.starts r)
    subst hlate
    simp only [exec, List.nil_append]
    split
    next hr => exact htail.start hr created
    next => exact htail
  | addSlot =>
    have htail := h.of_cons (by simp)
    refine ⟨fun pid hpid => ?_, htail.births, htail.tests, htail.starts⟩
    exact (htail.held pid hpid).imp_left (Or.imp_right (List.mem_append_left _))
  | setStop =>
    exact (h.of_cons (by simp)).setStop

/-- The same in the midst of a section, with the operations of other threads. -/
theorem covered_exec_section {p : Procs} {op : ProcOp}
    {rest others : List ProcOp}
    (h : Covered p ((op :: rest) ++ others)) (created : Bool) :
    Covered (exec p created op).1
      (((exec p created op).2 ++ rest) ++ others) := by
  rw [List.append_assoc]
  exact covered_exec h created

/-! ## Sections begin with nothing half done

The operations that only come up in the midst of a section are never left over
from another one. So a thread that begins a section can take its operations as
they are written down. -/

/-- The operation is one a section is made of, and not one that comes up while
it is executed. -/
def ProcOp.isEntry : ProcOp → Bool
  | .destroy _ | .testStop _ _ | .start _ _ => false
  | _ => true

/-- A section that begins. -/
theorem Covered.add {p : Procs} {pending ops : List ProcOp}
    (h : Covered p pending)
    (hops : ∀ op ∈ ops, op.isEntry = true) : Covered p (ops ++ pending) := by
  have hout : ∀ op, op.isEntry = false → op ∈ ops ++ pending →
      op ∈ pending := by
    intro op hop hmem
    refine (List.mem_append.mp hmem).resolve_left (fun hin => ?_)
    exact absurd (hop.symm.trans (hops op hin)) (by decide)
  exact h.mono (fun _ => List.mem_append_right ops) (fun r => hout _ rfl)
    (fun r => hout _ rfl)

theorem isEntry_handlerOps (handled : Handled) :
    ∀ op ∈ handlerOps handled, op.isEntry = true := by
  cases handled with
  | enable i present => cases present <;> simp [handlerOps, ProcOp.isEntry]
  | _ => simp [handlerOps, ProcOp.isEntry]

theorem isEntry_restartOps (r : ProcRef) :
    ∀ op ∈ restartOps r, op.isEntry = true := by
  simp [restartOps, ProcOp.isEntry]

theorem isEntry_partOps (n : ℕ) (c : LoopChoice) (part : LoopPart) :
    ∀ op ∈ partOps n c part, op.isEntry = true := by
  cases part with
  | tick =>
    intro op hop
    rcases List.mem_append.mp hop with hop | hop
    · split at hop
      next => exact isEntry_restartOps .mtx op hop
      next => cases hop
    · obtain ⟨i, -, hop⟩ := List.mem_flatMap.mp hop
      split at hop
      next => exact isEntry_restartOps (.slot i) op hop
      next => cases hop
  | diff =>
    intro op hop
    obtain ⟨i, -, hop⟩ := List.mem_flatMap.mp hop
    cases hpresence : c.presence i with
    | unchanged => simp [hpresence] at hop
    | gone =>
      rw [hpresence] at hop
      obtain rfl := List.mem_singleton.mp hop
      rfl
    | back enabled =>
      rw [hpresence] at hop
      cases enabled with
      | false => cases hop
      | true => rcases hop with _ | ⟨_, _ | ⟨_, ⟨⟩⟩⟩ <;> rfl
  | append =>
    intro op hop
    obtain ⟨ops, hops, hop⟩ := List.mem_flatten.mp hop
    obtain ⟨k, hk, rfl⟩ := List.mem_mapIdx.mp hops
    rcases List.mem_cons.mp hop with rfl | hop
    · rfl
    · split at hop
      next =>
        obtain rfl := List.mem_singleton.mp hop
        rfl
      next => cases hop

theorem isEntry_bootOps (cameras : List Bool) :
    ∀ op ∈ bootOps cameras, op.isEntry = true := by
  intro op hop
  rcases List.mem_append.mp hop with hop | hop
  · rcases List.mem_cons.mp hop with rfl | hop
    · rfl
    · obtain ⟨_, -, rfl⟩ := List.mem_map.mp hop
      rfl
  · obtain ⟨ops, hops, hop⟩ := List.mem_flatten.mp hop
    obtain ⟨k, hk, rfl⟩ := List.mem_mapIdx.mp hops
    split at hop
    next =>
      obtain rfl := List.mem_singleton.mp hop
      rfl
    next => cases hop

/-! ## The threads

The invariant of the whole program puts together what all threads have still
to do and how far the main thread has come. When it has come to its end, the
other threads are joined and nothing is left to do, so that no process is left
either. -/

/-- The operations that all threads have still to do. -/
def Program.pending (m : Program) : List ProcOp := m.main.rest ++ m.ipc.rest

/-- How far the shutdown has come. -/
def Program.Stage (m : Program) : Prop :=
  match m.main with
  | .boot _ => m.ipc = .notStarted
  | .joinEvents => m.ipc = .finished
  | .stopSlots k => m.ipc = .finished ∧ m.events = .finished
      ∧ ∀ i < k, m.procs.handle (.slot i) = none
  | .stopMtx => m.ipc = .finished ∧ m.events = .finished
      ∧ ∀ i, m.procs.handle (.slot i) = none
  | .done =>
    m.ipc = .finished ∧ m.events = .finished ∧ ∀ r, m.procs.handle r = none
  | _ => True

/-- Every process is covered, and the shutdown has come as far as the main
thread is. -/
structure Program.Sound (m : Program) : Prop where
  covered : Covered m.procs m.pending
  stage : m.Stage

theorem sound_begin (cameras : List Bool) : (Program.begin cameras).Sound where
  covered := by
    have hempty : Covered {} [] := ⟨nofun, nofun, nofun, nofun⟩
    exact hempty.add (isEntry_bootOps cameras)
  stage := rfl

/-- A stopped object holds nothing, and the others hold what they held. -/
theorem Procs.handle_stop (p : Procs) (r r' : ProcRef) :
    (p.stop r).handle r' = if r = r' ∧ p.Has r then none else p.handle r' := by
  by_cases hr : r = r'
  · subst hr
    by_cases hhas : p.Has r
    · rw [if_pos ⟨rfl, hhas⟩]
      exact handle_setHandle_self hhas
    · rw [if_neg (fun h => hhas h.2)]
      cases r with
      | mtx => exact absurd trivial hhas
      | slot i =>
        have hlen : p.slots.length ≤ i := Nat.le_of_not_lt hhas
        simp [stop, kill, setHandle, handle, hlen]
  · rw [if_neg (fun h => hr h.1)]
    exact handle_setHandle_of_ne hr

theorem nextPart_cases (goesOn : Bool) (part : LoopPart) :
    nextPart goesOn part = .loop ∨ ∃ part',
      nextPart goesOn part = .before part' := by
  cases part with
  | tick => cases goesOn <;> simp [nextPart]
  | diff => cases goesOn <;> simp [nextPart]
  | append => exact .inl rfl

theorem sound_mainStep {m m' : Program} {c : LoopChoice} (h : m.Sound)
    (hstep : mainStep m c = some m') : m'.Sound := by
  obtain ⟨procs, main, ipc, events⟩ := m
  obtain ⟨hcov, hstage⟩ := h
  cases main with
  | boot rest =>
    obtain rfl : ipc = .notStarted := hstage
    cases rest with
    | nil =>
      obtain rfl := Option.some.inj hstep
      exact ⟨hcov, trivial⟩
    | cons op rest =>
      obtain rfl := Option.some.inj hstep
      exact ⟨covered_exec_section hcov c.created, rfl⟩
  | loop =>
    obtain rfl := Option.some.inj hstep
    dsimp only
    split
    next => exact ⟨hcov, trivial⟩
    next => exact ⟨hcov, trivial⟩
  | before part =>
    unfold mainStep at hstep
    dsimp only at hstep
    split at hstep
    next =>
      obtain rfl := Option.some.inj hstep
      exact ⟨hcov.add (isEntry_partOps _ c part), trivial⟩
    next => cases hstep
  | inside part rest =>
    cases rest with
    | nil =>
      obtain rfl := Option.some.inj hstep
      rcases nextPart_cases c.goesOn part with heq | ⟨part', heq⟩ <;>
        dsimp only <;> rw [heq]
      · exact ⟨hcov, trivial⟩
      · exact ⟨hcov, trivial⟩
    | cons op rest =>
      obtain rfl := Option.some.inj hstep
      exact ⟨covered_exec_section hcov c.created, trivial⟩
  | joinIpc =>
    cases ipc with
    | finished =>
      obtain rfl := Option.some.inj hstep
      exact ⟨hcov, rfl⟩
    | _ => cases hstep
  | joinEvents =>
    cases events with
    | finished =>
      obtain rfl := Option.some.inj hstep
      exact ⟨hcov, hstage, rfl, fun i hi => absurd hi (by omega)⟩
    | _ => cases hstep
  -- the serving threads are joined, so that nothing can put a process back
  -- behind the position the loop has come to
  | stopSlots k =>
    obtain ⟨hipc, hevents, hbefore⟩ := hstage
    unfold mainStep at hstep
    dsimp only at hstep
    split at hstep
    next hk =>
      obtain rfl := Option.some.inj hstep
      refine ⟨hcov.stop (.slot k), hipc, hevents, fun i hi => ?_⟩
      dsimp only
      rw [Procs.handle_stop]
      split
      next => rfl
      next hne =>
        refine hbefore i (Nat.lt_of_le_of_ne (Nat.le_of_lt_succ hi) ?_)
        rintro rfl
        exact hne ⟨rfl, hk⟩
    -- the loop is past the last slot, and so every slot was stopped
    next hk =>
      obtain rfl := Option.some.inj hstep
      refine ⟨hcov, hipc, hevents, fun i => ?_⟩
      rcases Nat.lt_or_ge i k with hlt | hge
      · exact hbefore i hlt
      · have hlen : procs.slots.length ≤ i :=
          Nat.le_trans (Nat.le_of_not_lt hk) hge
        simp [Procs.handle, hlen]
  -- the last process that could be left is that of MediaMTX
  | stopMtx =>
    obtain ⟨hipc, hevents, hslots⟩ := hstage
    obtain rfl := Option.some.inj hstep
    refine ⟨hcov.stop .mtx, hipc, hevents, fun r => ?_⟩
    dsimp only
    rw [Procs.handle_stop]
    cases r with
    | mtx => rfl
    | slot i => exact hslots i
  | done => cases hstep

/-- The request thread is in the midst of a request, so it has not been
joined. -/
theorem Program.Stage.with_ipc {m : Program} (h : m.Stage)
    (hstarted : m.ipc ≠ .notStarted)
    (hrunning : m.ipc ≠ .finished) (procs : Procs) (ipc : Worker) :
    Stage { m with procs := procs, ipc := ipc } := by
  obtain ⟨procs₀, main, ipc₀, events⟩ := m
  cases main with
  | boot rest => exact absurd h hstarted
  | joinEvents => exact absurd h hrunning
  | stopSlots k => exact absurd h.1 hrunning
  | stopMtx => exact absurd h.1 hrunning
  | done => exact absurd h.1 hrunning
  | _ => trivial

theorem sound_ipcStep {m m' : Program} {created : Bool} {handled : Handled}
    (h : m.Sound)
    (hstep : ipcStep m created handled = some m') : m'.Sound := by
  obtain ⟨procs, main, ipc, events⟩ := m
  obtain ⟨hcov, hstage⟩ := h
  have hswap : ∀ {p : Procs} {l l' : List ProcOp}, Covered p (l ++ l') →
      Covered p (l' ++ l) :=
    fun hc => hc.congr (fun _ => by simp [or_comm])
  cases ipc with
  | idle =>
    unfold ipcStep at hstep
    dsimp only at hstep
    split at hstep
    next =>
      obtain rfl := Option.some.inj hstep
      refine ⟨?_, hstage.with_ipc nofun nofun _ _⟩
      exact hswap ((hcov.congr (by simp [Program.pending, Worker.rest])).add
        (isEntry_handlerOps handled))
    next => cases hstep
  | inside rest =>
    cases rest with
    | nil =>
      obtain rfl := Option.some.inj hstep
      exact ⟨hcov, hstage.with_ipc nofun nofun _ _⟩
    | cons op rest =>
      obtain rfl := Option.some.inj hstep
      exact ⟨hswap (covered_exec_section (hswap hcov) created),
        hstage.with_ipc nofun nofun _ _⟩
  | _ => cases hstep

/-- The hook thread has not been joined either while it runs. -/
theorem Program.Stage.with_events {m : Program} (h : m.Stage)
    (hrunning : m.events ≠ .finished)
    (events : Worker) : Stage { m with events := events } := by
  obtain ⟨procs, main, ipc, events₀⟩ := m
  cases main with
  | stopSlots k => exact absurd h.2.1 hrunning
  | stopMtx => exact absurd h.2.1 hrunning
  | done => exact absurd h.2.1 hrunning
  | _ => exact h

theorem sound_eventsStep {m m' : Program} (h : m.Sound)
    (hstep : eventsStep m = some m') :
    m'.Sound := by
  obtain ⟨procs, main, ipc, events⟩ := m
  obtain ⟨hcov, hstage⟩ := h
  cases events with
  | idle =>
    unfold eventsStep at hstep
    dsimp only at hstep
    split at hstep
    next =>
      obtain rfl := Option.some.inj hstep
      exact ⟨hcov, hstage.with_events nofun _⟩
    next => cases hstep
  | inside rest =>
    obtain rfl := Option.some.inj hstep
    exact ⟨hcov, hstage.with_events nofun _⟩
  | _ => cases hstep

/-- What leaves the handles alone leaves the stage alone. -/
theorem Program.Stage.with_procs {m : Program} (h : m.Stage) {procs : Procs}
    (hhandle : ∀ r, procs.handle r = m.procs.handle r) :
    Stage { m with procs := procs } := by
  obtain ⟨procs₀, main, ipc, events⟩ := m
  cases main with
  | stopSlots k =>
    exact ⟨h.1, h.2.1, fun i hi => (hhandle _).trans (h.2.2 i hi)⟩
  | stopMtx => exact ⟨h.1, h.2.1, fun i => (hhandle _).trans (h.2.2 i)⟩
  | done => exact ⟨h.1, h.2.1, fun r => (hhandle r).trans (h.2.2 r)⟩
  | _ => exact h

/-- When the handler throws, what was about to be destroyed still is. -/
theorem Covered.unwind {p : Procs} {others rest : List ProcOp}
    (h : Covered p (others ++ rest)) :
    Covered p (others ++ rest.filter ProcOp.isDestroy) := by
  have hback : ∀ op, op ∈ others ++ rest.filter ProcOp.isDestroy →
      op ∈ others ++ rest := by
    intro op hmem
    exact (List.mem_append.mp hmem).elim (List.mem_append_left rest)
      (fun hin => List.mem_append_right others (List.mem_of_mem_filter hin))
  refine h.mono (fun pid hmem => ?_) (fun r => hback _) (fun r => hback _)
  exact (List.mem_append.mp hmem).elim (List.mem_append_left _)
    (fun hin => List.mem_append_right others (List.mem_filter.mpr ⟨hin, rfl⟩))

/-- **One step keeps the program sound.** The threads may be anywhere in their
loops, and the main thread anywhere in the order of shutting down. -/
theorem sound_programStep {m m' : Program} {e : Happening} (h : m.Sound)
    (hstep : programStep m e = some m') : m'.Sound := by
  cases e with
  | signal =>
    obtain rfl := Option.some.inj hstep
    exact ⟨h.covered.setStop, h.stage.with_procs (fun r => by cases r <;> rfl)⟩
  | exit pid =>
    obtain rfl := Option.some.inj hstep
    exact ⟨h.covered.kill pid, h.stage.with_procs (fun r => by cases r <;> rfl)⟩
  | main c => exact sound_mainStep h hstep
  | ipc created handled => exact sound_ipcStep h hstep
  | ipcThrows =>
    obtain ⟨procs, main, ipc, events⟩ := m
    cases ipc with
    | inside rest =>
      obtain rfl := Option.some.inj hstep
      exact ⟨h.covered.unwind, h.stage.with_ipc nofun nofun _ _⟩
    | _ => cases hstep
  | ipcEnds =>
    obtain ⟨procs, main, ipc, events⟩ := m
    cases ipc with
    | idle =>
      cases main with
      | joinIpc =>
        obtain rfl := Option.some.inj hstep
        exact ⟨h.covered, trivial⟩
      | _ => cases hstep
    | _ => cases hstep
  | events => exact sound_eventsStep h hstep
  | eventsEnds =>
    obtain ⟨procs, main, ipc, events⟩ := m
    cases events with
    | idle =>
      cases main with
      | joinEvents =>
        obtain rfl := Option.some.inj hstep
        exact ⟨h.covered, h.stage⟩
      | _ => cases hstep
    | _ => cases hstep

/-- **A shutdown leaves nothing running**: in every run, no call of
`StartNoSleep` that was entered after `g_stop` was set creates a process, and
when the main thread is through with the shutdown no process is alive. -/
theorem shutdown_leaves_nothing {cameras : List Bool} {steps : List Happening}
    {m : Program}
    (hrun : Runs.run programStep (Program.begin cameras) steps = some m) :
    (∀ b ∈ m.procs.births, b.late = false) ∧
      (m.main = .done → m.procs.alive = []) := by
  have hsound : m.Sound := Runs.run_invariant_of_forall Program.Sound
    (fun _ _ _ => sound_programStep) (sound_begin cameras) hrun
  obtain ⟨procs, main, ipc, events⟩ := m
  obtain ⟨hcov, hstage⟩ := hsound
  refine ⟨hcov.births, ?_⟩
  rintro rfl
  obtain ⟨rfl, rfl, hnone⟩ : ipc = .finished ∧ events = .finished ∧ ∀ r,
      procs.handle r = none :=
    hstage
  refine List.eq_nil_iff_forall_not_mem.mpr (fun pid hpid => ?_)
  rcases hcov.held pid hpid with hholds | hmem
  · obtain ⟨r, hr⟩ := Procs.holds_handle hholds
    exact absurd ((hnone r).symm.trans hr) nofun
  · cases hmem

/-- One enabled camera. A request restarts its publisher, and the console signal
comes between the replacement of the object and the start of the new one. -/
def stopDuringRestart : List Happening :=
  List.replicate 9 (Happening.main {})
    ++ List.replicate 3 (Happening.ipc true (.restart 0)) ++ Happening.signal
    :: List.replicate 4 (Happening.ipc true .other)
    ++ [.main {}, .main {}, .main {}, .ipcEnds, .main {}, .eventsEnds,
      .main {}, .main {},
      .main {}, .main {}]

/-- What that run leaves. -/
def stoppedDuringRestart : Program where
  procs :=
    { gStop := true, next := 2, slots := [none]
      births := [⟨1, false⟩, ⟨0, false⟩] }
  main := .done
  ipc := .finished
  events := .finished

theorem shutdown_leaves_nothing_duringRestart :
    Runs.run programStep (Program.begin [true]) stopDuringRestart
      = some stoppedDuringRestart ∧
      (∀ b ∈ stoppedDuringRestart.procs.births, b.late = false) ∧
      stoppedDuringRestart.procs.alive = [] := by
  have hrun : Runs.run programStep (Program.begin [true]) stopDuringRestart
      = some stoppedDuringRestart := rfl
  obtain ⟨hbirths, hdone⟩ := shutdown_leaves_nothing hrun
  exact ⟨hrun, hbirths, hdone rfl⟩

end WebcamStreamer
