import WebcamStreamer.StepSections

/-!
# The runs of the supervisor are runs of the program

The program follows the supervisor step by step: it stands between two sections
with the same children, carries out the section that the step is, and stands
where the supervisor stands then. Before the shutdown the main thread can go to
any part of its pass, since the parts on the way may find nothing to do, and so
every state that the supervisor reaches is one that the program reaches.

With this the results about the supervisor and those about the program are
results about one thing. Where the order of operations inside of a section
matters, the program is the model to look at; where it does not, the
supervisor is, with its larger steps and without the handles; and no state
that the supervisor reaches before the shutdown is one that the threads could
not have brought about.
-/

namespace WebcamStreamer

open Runs

/-! ## Between two sections

The relation says when a state of the program stands for a state of the
supervisor: no thread is inside of a section, the main thread is at the head
of its loop or in front of a part of its pass, and the children are the
same. -/

/-- **The program stands where the supervisor does**: between two sections,
with the same children. The two models are compared at these states only;
inside a section the program has operations left to execute that the
supervisor has done in one step. -/
structure Program.Stands (m : Program) (sup : Supervisor) : Prop where
  ipc : m.ipc = .idle
  events : m.events = .idle
  main : m.main = .loop ∨ ∃ part, m.main = .before part
  apart : m.procs.Apart
  seen : m.procs.seen = sup.seen

namespace Program.Stands

variable {m : Program} {sup sup' : Supervisor}

theorem unlocked (h : m.Stands sup) : m.unlocked = true := by
  rcases h.main with hmain | ⟨part, hmain⟩
  · simp [Program.unlocked, hmain, h.ipc, h.events, MainThread.Locks,
      Worker.Locks]
  · simp [Program.unlocked, hmain, h.ipc, h.events, MainThread.Locks,
      Worker.Locks]

/-- A step that no object shows. -/
theorem congr (h : m.Stands sup) (hseen : sup'.seen = sup.seen) :
    m.Stands sup' :=
  ⟨h.ipc, h.events, h.main, h.apart, h.seen.trans hseen.symm⟩

/-- The request thread serves a request. -/
theorem serve (h : m.Stands sup) {handled : Handled}
    (hleads : Leads (handlerOps handled) sup.seen sup'.seen) :
    ∃ es m', run programStep m es = some m' ∧ m'.Stands sup' := by
  obtain ⟨q, hq, hqa, hqs⟩ := hleads m.procs h.apart h.seen
  obtain ⟨es, hes⟩ :=
    run_section (fun p ops => { m with procs := p, ipc := .inside ops })
    (fun p created op ops => ⟨.ipc created .other, rfl⟩) hq
  refine ⟨.ipc true handled :: (es ++ [.ipc true .other]),
    { m with procs := q, ipc := .idle },
    run_cons_iff.mpr ⟨_, ?_, run_append.mpr ⟨_, hes, rfl⟩⟩,
    ⟨rfl, h.events, h.main, hqa, hqs⟩⟩
  simp [programStep, ipcStep, h.ipc, h.unlocked]

/-- The main thread carries out a part of its pass. -/
theorem pass (h : m.Stands sup) {part : LoopPart} {c : LoopChoice}
    (hmain : m.main = .before part)
    (hleads : Leads (partOps sup.slots.length c part) sup.seen sup'.seen)
    (goesOn : Bool) :
    ∃ es m', run programStep m es = some m' ∧ m'.Stands sup'
      ∧ m'.main = nextPart goesOn part := by
  obtain ⟨q, hq, hqa, hqs⟩ := hleads m.procs h.apart h.seen
  obtain ⟨es, hes⟩ := run_section
    (fun p ops => { m with procs := p, main := .inside part ops })
    (fun p created op ops => ⟨.main { created := created }, rfl⟩) hq
  have hlen : m.procs.slots.length = sup.slots.length :=
    congrArg Seen.length h.seen
  refine ⟨.main c :: (es ++ [.main { goesOn := goesOn }]),
    { m with procs := q, main := nextPart goesOn part },
    run_cons_iff.mpr ⟨_, ?_, run_append.mpr ⟨_, hes, rfl⟩⟩,
    ⟨h.ipc, h.events, nextPart_cases goesOn part, hqa, hqs⟩, rfl⟩
  simp [programStep, mainStep, hmain, h.unlocked, hlen]

/-- A child exits. -/
theorem exit (h : m.Stands sup) (r : ProcRef)
    (hseen : sup'.seen = sup.seen.put r ((sup.shows r).map (fun _ => false))) :
    ∃ es m', run programStep m es = some m' ∧ m'.Stands sup' := by
  have hshows : sup.shows r = m.procs.shows r :=
    congrArg (fun v => v.shows r) h.seen.symm
  cases hr : m.procs.handle r with
  | none =>
    have hnone : sup.shows r = none := by
      simp [hshows, Procs.shows, hr]
    have hsame : sup'.seen = sup.seen := by
      rw [hseen, hnone, Option.map_none, ← hnone]
      exact Seen.put_shows _ _
    exact ⟨[], m, run_nil, h.congr hsame⟩
  | some pid =>
    have hsome : (sup.shows r).map (fun _ => false) = some false := by
      simp [hshows, Procs.shows, hr]
    have hkilled : (m.procs.kill (some pid)).seen = sup'.seen := by
      rw [Procs.seen_kill h.apart hr, h.seen, hseen, hsome]
    exact ⟨[.exit pid], { m with procs := m.procs.kill (some pid) }, rfl,
      ⟨h.ipc, h.events, h.main, h.apart.congr (fun _ => rfl) rfl, hkilled⟩⟩

/-- A part that finds nothing to do. -/
theorem pass_empty (h : m.Stands sup) {part : LoopPart}
    (hmain : m.main = .before part)
    (goesOn : Bool) :
    ∃ es m', run programStep m es = some m' ∧ m'.Stands sup
      ∧ m'.main = nextPart goesOn part := by
  have hempty : partOps sup.slots.length {} part = [] := by
    cases part with
    | tick => exact List.flatMap_eq_nil_iff.mpr (fun _ _ => rfl)
    | diff => exact List.flatMap_eq_nil_iff.mpr (fun _ _ => rfl)
    | append => rfl
  exact h.pass (c := {}) hmain (hempty ▸ .nil _) goesOn

/-- The main thread goes back to the test of its loop. -/
theorem reach_loop (h : m.Stands sup) :
    ∃ es m', run programStep m es = some m' ∧ m'.Stands sup ∧
      m'.main = .loop := by
  rcases h.main with hmain | ⟨part, hmain⟩
  · exact ⟨[], m, run_nil, h, hmain⟩
  · obtain ⟨es, m', hrun, hstands, hm'⟩ := h.pass_empty hmain false
    exact ⟨es, m', hrun, hstands, by cases part <;> exact hm'⟩

/-- **Before the shutdown** the main thread reaches every part of its pass.
The parts come round in a fixed order, and those in between can be passed
through without a change. -/
theorem reach (h : m.Stands sup) (hstop : sup.stop = false) (part : LoopPart) :
    ∃ es m', run programStep m es = some m' ∧ m'.Stands sup ∧
      m'.main = .before part := by
  obtain ⟨es₀, m₀, hrun₀, h₀, hmain₀⟩ := h.reach_loop
  have hrun : m₀.procs.gStop = false := (congrArg Seen.stop h₀.seen).trans hstop
  let m₁ : Program := { m₀ with main := .before .tick }
  have hstep : programStep m₀ (.main {}) = some m₁ := by
    simp [programStep, mainStep, hmain₀, hrun, m₁]
  have hrun₁ : run programStep m (es₀ ++ [.main {}]) = some m₁ :=
    run_append.mpr ⟨m₀, hrun₀, run_cons_iff.mpr ⟨m₁, hstep, run_nil⟩⟩
  have h₁ : m₁.Stands sup :=
    ⟨h₀.ipc, h₀.events, .inr ⟨.tick, rfl⟩, h₀.apart, h₀.seen⟩
  obtain ⟨es₂, m₂, hrun₂, h₂, hmain₂⟩ := h₁.pass_empty rfl true
  obtain ⟨es₃, m₃, hrun₃, h₃, hmain₃⟩ := h₂.pass_empty hmain₂ true
  cases part with
  | tick => exact ⟨_, m₁, hrun₁, h₁, rfl⟩
  | diff => exact ⟨_, m₂, run_append.mpr ⟨m₁, hrun₁, hrun₂⟩, h₂, hmain₂⟩
  | append =>
    refine ⟨_, m₃, run_append.mpr ⟨m₁, hrun₁,
      run_append.mpr ⟨m₂, hrun₂, hrun₃⟩⟩, h₃, hmain₃⟩

end Program.Stands

/-! ## Steps and runs of the supervisor

Each step of the supervisor becomes a list of steps of the program, which
takes it from one such state to the next. The main thread may have to go round
its loop to get to the part that is asked for, with sections that find nothing
to do. -/

/-- The part of the main thread's pass that a step is. -/
def Action.part? : Action → Option LoopPart
  | .tick => some .tick
  | .diffPresence _ => some .diff
  | .finishReconcile _ => some .append
  | _ => none

/-- **Every step of the supervisor** is carried out by the program, from where
the main thread is about to carry out the part that the step is. -/
theorem Program.Stands.step {m : Program} {sup : Supervisor}
    (h : m.Stands sup) {st : Step}
    {out : Outcome}
    (hmain : ∀ part, st.action.part? = some part → m.main = .before part)
    (hstep : WebcamStreamer.step sup st = some out) :
    ∃ es m', run programStep m es = some m' ∧ m'.Stands out.1 := by
  cases stepsTo_of_step hstep with
  | served ha heq hserved =>
    obtain ⟨handled, hleads⟩ := hserved.leads
    exact h.serve hleads
  -- steps that no process has a part in are no steps of the program
  | hookIgnored => exact ⟨[], m, run_nil, h⟩
  | @hookCounted msg event path ip user name ev i s payload ha hfields
      hevent hs =>
    obtain ⟨hget, -⟩ := Supervisor.findByPath_some hs
    exact ⟨[], m, run_nil, h.congr (Supervisor.seen_setSlot_of_same hget rfl)⟩
  | publisherExit => exact h.exit _ (sup.seen_publisherExit _ _)
  | mtxExit => exact h.exit .mtx (sup.seen_mtxExit _)
  | consoleSignal =>
    refine ⟨[.signal], _, rfl,
      ⟨h.ipc, h.events, h.main, h.apart.congr (fun _ => rfl) rfl, ?_⟩⟩
    have hstop : (⟨true, m.procs.slots.length, m.procs.shows⟩ : Seen)
        = { sup.seen with stop := true } := by
      rw [← h.seen]
      rfl
    exact hstop
  | editSettings => exact ⟨[], m, run_nil, h.congr rfl⟩
  | beginLoop => exact ⟨[], m, run_nil, h.congr (sup.seen_beginLoop _)⟩
  -- the three parts of the loop are passes of the main thread
  | tick ha hphase =>
    obtain ⟨es, m', hrun, hm', -⟩ :=
      h.pass (hmain .tick (by rw [ha]; rfl)) (sup.leads_tick st.env) true
    exact ⟨es, m', hrun, hm'⟩
  | diffPresence ha hphase =>
    obtain ⟨es, m', hrun, hm', -⟩ :=
      h.pass (hmain .diff (by rw [ha]; rfl))
        (sup.leads_diffPresence st.env _) true
    exact ⟨es, m', hrun, hm'⟩
  | @reconciled newFormats newDevices listChanged slots events ha hphase hgrown
      hnames hevents =>
    obtain ⟨added, -, hleads⟩ := hgrown.leads
    obtain ⟨es, m', hrun, hm', -⟩ :=
      h.pass (hmain .append (by rw [ha]; rfl)) hleads true
    exact ⟨es, m', hrun, hm'.congr rfl⟩

/-- A shutdown that has begun is not taken back. -/
theorem stop_step {sup : Supervisor} {st : Step} {out : Outcome}
    (h : step sup st = some out)
    (hstop : sup.stop = true) : out.1.stop = true := by
  cases stepsTo_of_step h with
  | served ha heq hserved =>
    cases hserved with
    | credentialsSet hm hu hu0 hp hp0 hsave hyml ht =>
      subst ht
      exact hstop
    | shutdown => rfl
    | _ => exact hstop
  | tick => exact (sup.stop_tickMtx st.env).trans hstop
  | consoleSignal => rfl
  | _ => exact hstop

/-- **Every run of the supervisor up to the shutdown** is a run of the
program. The run of the program is given step by step, one section for each
step, with whatever has to come before it. -/
theorem Program.Stands.run {m : Program} {sup sup' : Supervisor}
    (h : m.Stands sup)
    {steps : List Step} (hrun : Runs.run next sup steps = some sup')
    (hstop : sup'.stop = false) :
    ∃ es m', Runs.run programStep m es = some m' ∧ m'.Stands sup' := by
  induction steps generalizing m sup with
  | nil =>
    obtain rfl := Option.some.inj hrun
    exact ⟨[], m, run_nil, h⟩
  | cons st steps ih =>
    obtain ⟨t, ht, hrest⟩ := run_cons_iff.mp hrun
    obtain ⟨out, hout, rfl⟩ := Option.map_eq_some_iff.mp ht
    have hrunning : sup.stop = false := by
      cases hs : sup.stop with
      | false => rfl
      | true =>
        have hstopped : sup'.stop = true :=
          run_invariant_of_forall (fun s => s.stop = true)
          (fun s a t hs hst => by
            obtain ⟨out, hout, rfl⟩ := Option.map_eq_some_iff.mp hst
            exact stop_step hout hs) hs hrun
        exact absurd (hstop.symm.trans hstopped) Bool.false_ne_true
    -- the main thread goes where the step is, and carries it out
    have hready : ∃ es m₁, Runs.run programStep m es = some m₁ ∧ m₁.Stands sup
        ∧ ∀ part, st.action.part? = some part → m₁.main = .before part := by
      cases hpart : st.action.part? with
      | none => exact ⟨[], m, run_nil, h, nofun⟩
      | some part =>
        obtain ⟨es, m₁, hes, h₁, hmain⟩ := h.reach hrunning part
        exact ⟨es, m₁, hes, h₁, fun _ heq => Option.some.inj heq ▸ hmain⟩
    obtain ⟨es₁, m₁, hes₁, h₁, hmain⟩ := hready
    obtain ⟨es₂, m₂, hes₂, h₂⟩ := h₁.step hmain hout
    obtain ⟨es₃, m₃, hes₃, h₃⟩ := ih h₂ hrest
    exact ⟨_, m₃, run_append.mpr ⟨m₁, hes₁, run_append.mpr ⟨m₂, hes₂, hes₃⟩⟩,
      h₃⟩

/-! ## Start-up

Start-up is the first part of the main thread. It creates MediaMTX and the
publishers before there are any other threads, so that the program can carry
it out without being interrupted. -/

/-- **Start-up** is carried out by the program. What the program begins with
is which cameras are enabled. -/
theorem stands_of_startUp {b : Boot} {sup : Supervisor}
    (h : startUp b = .ok sup) :
    ∃ es m, Runs.run programStep (Program.begin sup.enabledCameras) es = some m
      ∧ m.Stands sup := by
  let p₀ : Procs := { gStop := sup.stop }
  have hsignal : ∃ es,
      Runs.run programStep (Program.begin sup.enabledCameras) es
      = some { Program.begin sup.enabledCameras with procs := p₀ } := by
    cases hs : sup.stop with
    | false => exact ⟨[], by simp [p₀, hs, Program.begin]⟩
    | true =>
      exact ⟨[.signal], by simp [p₀, hs, Program.begin, run, programStep]⟩
  obtain ⟨es₀, hes₀⟩ := hsignal
  have hempty : ∀ r, p₀.handle r = none := fun r => by
    cases r <;> simp [p₀, Procs.handle]
  have hapart : p₀.Apart :=
    ⟨fun r pid
      hr => by simp [hempty] at hr, fun r r' pid hr => by simp [hempty] at hr⟩
  have hseen : p₀.seen = ⟨sup.stop, 0, fun _ => none⟩ := by
    refine Seen.ext rfl rfl (funext fun r => ?_)
    simp [Procs.seen, Procs.shows, hempty]
  obtain ⟨q, hq, hqa, hqs⟩ := leads_bootOps h p₀ hapart hseen
  obtain ⟨es, hes⟩ := run_section
    (fun p ops => { Program.begin sup.enabledCameras with
      procs := p, main := .boot ops })
    (fun p created op ops => ⟨.main { created := created }, rfl⟩) hq
  exact ⟨es₀ ++ (es ++ [.main {}]),
    { procs := q, main := .loop, ipc := .idle, events := .idle },
    run_append.mpr ⟨_, hes₀, run_append.mpr ⟨_, hes, rfl⟩⟩,
    ⟨rfl, rfl, .inl rfl, hqa, hqs⟩⟩

/-- **Every state the supervisor reaches before the shutdown** is one the
program stands in. What is proved of all states of the program between two
sections holds therefore of the supervisor. -/
theorem stands_of_bootRun {b : Boot} {steps : List Step} {sup : Supervisor}
    (h : bootRun b steps = some sup) (hstop : sup.stop = false) :
    ∃ cameras es m, Runs.run programStep (Program.begin cameras) es = some m
      ∧ m.Stands sup := by
  obtain ⟨sup₀, hboot, hrun⟩ := bootRun_eq_some.mp h
  obtain ⟨es₀, m₀, hes₀, h₀⟩ := stands_of_startUp hboot
  obtain ⟨es, m, hes, hm⟩ := h₀.run hrun hstop
  exact ⟨_, _, m, run_append.mpr ⟨m₀, hes₀, hes⟩, hm⟩

end WebcamStreamer
