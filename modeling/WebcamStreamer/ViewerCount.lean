import WebcamStreamer.ClampedCounter
import WebcamStreamer.Publishers
import WebcamStreamer.SlotPaths

/-!
# The viewer count

A slot counts the viewers of its path: up at every `read` line from the hooks,
down at every `unread` line, never below zero, and back to zero whenever its
publisher is rebuilt or found down. This module says what one step does to the
count (`step_viewerCount`), and what a run without a reset makes of the lines
it receives, in whatever order they come.

That the counter stops at zero is what makes the order matter: an `unread`
line that comes before its `read` line is lost at zero, and the viewer stays
in the count. The general fact is that of a counter that does not go below
zero, and this module says which lines of a run are its letters.
-/

namespace WebcamStreamer

/-! ## The path of a slot

MediaMTX spells a path without the slash in front, and the handler drops one
if it is there. With the paths in order, the slot that a message names is the
one at the position in the path. -/

/-- The path of the slot at position `k` as MediaMTX spells it. -/
def streamPath (k : ℕ) : String := dropSlash (webcamPath k)

theorem toList_webcamPath (k : ℕ) :
    (webcamPath k).toList = '/' :: (streamPath k).toList := by
  have hslash : "/webcam".toList = '/' :: "webcam".toList := by decide
  have hlist : (webcamPath k).toList
      = '/' :: ("webcam".toList ++ (toString k).toList) := by
    rw [webcamPath, String.toList_append, hslash]
    rfl
  rw [streamPath, dropSlash, hlist]
  simp

theorem streamPath_injective {i j : ℕ} (h : streamPath i = streamPath j) :
    i = j := by
  refine webcamPath_injective (String.toList_inj.mp ?_)
  rw [toList_webcamPath, toList_webcamPath, h]

/-- The paths being in order, the slot that a hook message names by its path is
the one at that position. -/
theorem findByPath_streamPath {sup : Supervisor}
    (h : PathsInOrder sup.slots) {k : ℕ}
    {s : CamSlot} (hs : sup.slots[k]? = some s) :
    sup.findByPath (streamPath k) = some (k, s) := by
  refine findSlot_eq_some.mpr ⟨hs, ?_, fun j x hj hx => ?_⟩
  · rw [h k s hs]
    exact beq_self_eq_true _
  · rw [h j x hx]
    exact beq_eq_false_iff_ne.mpr
      (fun heq => absurd (streamPath_injective heq) (by omega))

/-! ## Lines and resets

Between two resets the count of a slot is changed by lines alone. A reset
comes with a fresh publisher, with one that the tick found down, or with a
camera that was plugged in or out. -/

/-- The event that the hooks report for a path in this step. -/
def hookEventFor (path : String) (st : Step) : Option HookEvent :=
  match st.action with
  | .hook msg =>
    match hookFields msg with
    | .ok (event, path', _, _) =>
      if path' = path then HookEvent.ofString event else none
    | .error _ => none
  | _ => none

/-- The step replaces the process object of the slot `s` at position `i` by a
fresh one and starts it. -/
inductive Rebuilds (sup : Supervisor) (st : Step) (i : ℕ) (s : CamSlot) :
    Prop where
  | restarted (h : Restarts sup st i s)
  | enabled {rq : IpcRequest} {nm : String} (ha : st.action = .request rq)
      (hm : rq.method = "set-stream-enabled")
      (hp : rq.params.valueString "name" = .ok nm)
      (hne : nm ≠ "") (hwant : rq.params.find? "enabled" = some (.boolean true))
      (hs : sup.findByName nm = some (i, s)) (hpresent : s.present = true)
      (hops : (st.env.overrideOps i).existsThrows = none)
  | replugged {current : List CameraDevice}
      (ha : st.action = .diffPresence current)
      (hpresent : s.present = false) (henabled : s.cfg.enabled = true)
      (hin : current.any (fun d => d.friendlyName == s.cfg.friendlyName) = true)

/-- The step sets the count of the slot `s` at position `i` to zero. -/
inductive Resets (sup : Supervisor) (st : Step) (i : ℕ) (s : CamSlot) :
    Prop where
  | rebuilt (h : Rebuilds sup st i s)
  | down (ha : st.action = .tick) (hwanted : s.wanted = true)
      (h : s.proc.isRunning = false)
  | unwanted (ha : st.action = .tick) (hwanted : s.wanted = false)
      (h : s.lastRunning = true ∨ s.viewerCount ≠ 0)

/-- A slot that is rebuilt has the process that was created for it, if any. -/
theorem Rebuilds.slot {sup : Supervisor} {st : Step} {i : ℕ} {s : CamSlot}
    {out : Outcome}
    (hr : Rebuilds sup st i s) (hs : sup.slots[i]? = some s)
    (h : step sup st = some out) :
    ∃ s', out.1.slots[i]? = some s' ∧
      s'.proc.child = if sup.stop = true then none
        else (st.env.starts i).created.map (fun pid => ⟨pid, .alive⟩) := by
  obtain ⟨env, action⟩ := st
  cases hr with
  | restarted hr =>
    obtain ⟨s₁, -, -, hget⟩ := hr.slot h
    exact ⟨_, hget, CamSlot.child_restart _ _ _ _⟩
  | @enabled rq nm ha hm hp hne hwant hs hpresent hops =>
    obtain rfl : action = _ := ha
    obtain rfl := Option.some.inj h
    have hlt :=
      (List.getElem?_eq_some_iff.mp (Supervisor.findByName_some hs).1).1
    obtain ⟨flag, file, hsave⟩ := exists_saveOverride
      (sup.disk.override nm) nm { enabled := some true } hops
    show ∃ s', (handle env rq sup).sup.slots[i]? = some s' ∧ _
    rw [handle_setStreamEnabled hm hp hne hwant hs, hsave]
    refine ⟨_, List.getElem?_set_self hlt, ?_⟩
    simp only [CamSlot.enable, hpresent, if_true, CamSlot.proc_noteRunning]
    exact CamSlot.child_restart _ _ _ _
  | @replugged current ha hpresent henabled hin =>
    obtain rfl : action = _ := ha
    simp only [step] at h
    split at h
    next =>
      obtain rfl := Option.some.inj h
      rw [Supervisor.slots_diffPresence, List.getElem?_mapIdx, hs]
      refine ⟨(sup.diffSlot env current i s).1, rfl, ?_⟩
      rw [Supervisor.diffSlot, hin,
        CamSlot.diffPresence_of_replugged _ _ _ hpresent]
      dsimp only
      rw [if_pos henabled]
      exact CamSlot.child_restart _ _ _ _
    next => cases h

/-- **What a move does to the count**: a reset, one line, or nothing. A reset
belongs to a publisher that is rebuilt, or to a tick that finds one down or
not wanted. -/
theorem SlotMove.viewerCount {sup : Supervisor} {st : Step} {i : ℕ}
    {s s' : CamSlot}
    (h : SlotMove sup st i s s') :
    (Resets sup st i s ∧ s'.viewerCount = 0) ∨
      (∃ msg event path ip user ev, st.action = .hook msg ∧
        hookFields msg = .ok (event, path, ip, user) ∧
        HookEvent.ofString event = some ev ∧
        sup.findByPath path = some (i, s) ∧
        s'.viewerCount = ev.count s.viewerCount) ∨
      s'.viewerCount = s.viewerCount := by
  cases h with
  | same => exact .inr (.inr rfl)
  | restarted ha hm hp hne hs =>
    exact .inl ⟨.rebuilt (.restarted (.restartCamera ha hm hp hne hs)), rfl⟩
  | modeThrown => exact .inr (.inr rfl)
  | modeSet ha hm hp hne hmode hs hops =>
    exact .inl ⟨.rebuilt (.restarted (.setMode ha hm hp hne hmode hs hops)),
      rfl⟩
  -- only a camera that is enabled and there has its publisher rebuilt
  | @enabledSet rq nm want ha hm hp hne hwant hs hops =>
    cases want with
    | false => exact .inr (.inr rfl)
    | true =>
      cases hpresent : s.present with
      | false => exact .inr (.inr (by simp [CamSlot.enable, hpresent]))
      | true =>
        exact .inl ⟨.rebuilt (.enabled ha hm hp hne hwant hs hpresent hops), by
          simp [CamSlot.enable, hpresent]⟩
  | counted ha hfields hevent hs =>
    exact .inr (.inl ⟨_, _, _, _, _, _, ha, hfields, hevent, hs, rfl⟩)
  | exited => exact .inr (.inr rfl)
  | noted => exact .inr (.inr rfl)
  -- the tick resets a count where the publisher is down or not wanted
  | ticked ha =>
    rw [Supervisor.tickSlot]
    cases hw : s.wanted with
    | false =>
      rw [CamSlot.tick_of_unwanted _ _ _ hw]
      split
      next h => exact .inl ⟨.unwanted ha hw h, rfl⟩
      next => exact .inr (.inr rfl)
    | true =>
      cases hr : s.proc.isRunning with
      | false =>
        refine .inl ⟨.down ha hw hr, ?_⟩
        rw [CamSlot.tick_of_down _ _ _ hw hr]
        dsimp only
        repeat' split
        all_goals rfl
      | true =>
        rw [CamSlot.tick_of_running _ _ _ hw hr]
        exact .inr (.inr (by split <;> rfl))
  | diffed ha =>
    rw [Supervisor.diffSlot]
    rcases s.diffPresence_cases sup.ffExe sup.stop (st.env.starts i) _ with
      ⟨-, hd⟩ | ⟨-, -, hd⟩ | ⟨hp, hin, hd⟩
    · rw [hd]
      exact .inr (.inr rfl)
    · rw [hd]
      exact .inr (.inr rfl)
    · rw [hd]
      dsimp only
      split
      next henabled =>
        exact .inl ⟨.rebuilt (.replugged ha hp henabled hin), rfl⟩
      next => exact .inr (.inr rfl)

/-- A line for the path of a slot reaches that slot. -/
theorem step_hook {sup : Supervisor} {st : Step} {out : Outcome}
    (h : step sup st = some out)
    {path : String} {ev : HookEvent}
    (hev : hookEventFor path st = some ev) {i : ℕ}
    {s : CamSlot} (hs : sup.findByPath path = some (i, s)) :
    out.1 = sup.setSlot i (s.countViewer ev) := by
  obtain ⟨env, action⟩ := st
  cases action with
  | hook msg =>
    simp only [hookEventFor] at hev
    split at hev
    next event path' ip user hfields =>
      split at hev
      next hpath =>
        subst hpath
        obtain rfl := Option.some.inj h
        simp only [Supervisor.hookEvent, hfields, hev, hs]
      next => cases hev
    next => cases hev
  | _ => cases hev

/-- **What one step does to the count of a slot**, if it does not reset it.
Paths are distinct, so that a message for the path of one slot is not counted
at another. -/
theorem step_viewerCount {sup : Supervisor} {st : Step} {out : Outcome}
    (h : step sup st = some out) (hpaths : PathsInOrder sup.slots) {i : ℕ}
    {s : CamSlot}
    (hs : sup.slots[i]? = some s) (hno : ¬ Resets sup st i s) :
    ∃ s', out.1.slots[i]? = some s' ∧
      s'.viewerCount
        = ((hookEventFor (streamPath i) st).map
          (fun ev => ev.count s.viewerCount)).getD
          s.viewerCount := by
  have hlt : i < sup.slots.length := (List.getElem?_eq_some_iff.mp hs).1
  cases hev : hookEventFor (streamPath i) st with
  | some ev =>
    rw [step_hook h hev (findByPath_streamPath hpaths hs)]
    exact ⟨s.countViewer ev, List.getElem?_set_self hlt, rfl⟩
  | none =>
    obtain ⟨s', hs', hmove⟩ := step_slot h hs
    refine ⟨s', hs', ?_⟩
    rcases hmove.viewerCount with
      ⟨hreset, -⟩ | ⟨msg, event, path, ip, user, ev, ha, hfields, hevent,
        hfind, -⟩ | hsame
    · exact absurd hreset hno
    · -- the line would have been one for this slot's path
      obtain ⟨hget, hpath⟩ := Supervisor.findByPath_some hfind
      rw [hpaths i s hget] at hpath
      simp [hookEventFor, ha, hfields, hpath, hevent, streamPath] at hev
    · exact hsame

/-! ## A run without a reset

Over a run without a reset the count is that of the clamped counter on the
lines that have arrived. It is what it was before the readers came exactly if
no line takes it below zero on the way, in whichever order the lines
arrive. -/

/-- Whether a line counts up. -/
def HookEvent.isRead : HookEvent → Bool
  | .read => true
  | .unread => false

theorem HookEvent.count_eq_bump (ev : HookEvent) (n : ℕ) :
    ev.count n = ClampedCounter.bump HookEvent.isRead n ev := by
  cases ev with
  | read => rfl
  | unread => cases n <;> rfl

theorem HookEvent.downs_isRead (word : List HookEvent) :
    ClampedCounter.downs HookEvent.isRead word = word.count .unread := by
  refine List.countP_congr (fun ev _ => ?_)
  cases ev <;> decide

theorem HookEvent.ups_isRead (word : List HookEvent) :
    ClampedCounter.ups HookEvent.isRead word = word.count .read := by
  refine List.countP_congr (fun ev _ => ?_)
  cases ev <;> decide

/-- The lines for a path, in the order in which they arrive. -/
def linesFor (path : String) (steps : List Step) : List HookEvent :=
  steps.filterMap (hookEventFor path)

theorem linesFor_cons_none {path : String} {st : Step} {steps : List Step}
    (h : hookEventFor path st = none) :
    linesFor path (st :: steps) = linesFor path steps :=
  List.filterMap_cons_none h

theorem linesFor_cons_some {path : String} {st : Step} {steps : List Step}
    {ev : HookEvent}
    (h : hookEventFor path st = some ev) :
    linesFor path (st :: steps) = ev :: linesFor path steps :=
  List.filterMap_cons_some h

/-- The step does not reset the count of the slot at position `i`. -/
def NoReset (i : ℕ) (sup : Supervisor) (st : Step) : Prop :=
  ∀ s, sup.slots[i]? = some s → ¬ Resets sup st i s

/-- The count of a slot after a run without a reset is what the clamped counter
makes of the lines for its path. -/
theorem run_viewerCount {sup sup' : Supervisor} {steps : List Step} {i : ℕ}
    {s : CamSlot}
    (hpaths : PathsInOrder sup.slots)
    (hrun : Runs.run next sup steps = some sup')
    (hno : Runs.Guarded next (NoReset i) sup steps)
    (hs : sup.slots[i]? = some s) :
    ∃ s', sup'.slots[i]? = some s' ∧
      s'.viewerCount
        = ClampedCounter.final HookEvent.isRead s.viewerCount
          (linesFor (streamPath i) steps) := by
  induction steps generalizing sup s with
  | nil =>
    obtain rfl := Option.some.inj hrun
    exact ⟨s, hs, rfl⟩
  | cons st steps ih =>
    obtain ⟨sup₁, hnext, hrest⟩ := Runs.run_cons_iff.mp hrun
    obtain ⟨hnost, hnosteps⟩ := hno sup₁ hnext
    obtain ⟨out, hout, rfl⟩ := Option.map_eq_some_iff.mp hnext
    obtain ⟨s₁, hs₁, hcount⟩ := step_viewerCount hout hpaths hs (hnost s hs)
    obtain ⟨s', hs', hfinal⟩ :=
      ih (pathsInOrder_step hpaths hnext) hrest hnosteps hs₁
    refine ⟨s', hs', ?_⟩
    rw [hfinal, hcount]
    cases hev : hookEventFor (streamPath i) st with
    | none => rw [linesFor_cons_none hev, Option.map_none, Option.getD_none]
    | some ev =>
      rw [linesFor_cons_some hev,
        ClampedCounter.final_cons, ← HookEvent.count_eq_bump,
        Option.map_some, Option.getD_some]

/-- **The count after readers have come and gone.** Let the lines of some
readers, one `read` and one `unread` each, arrive in any order, and let nothing
reset the count meanwhile. Then the count is what it was before exactly when at
no point more readers had been reported to leave than had been counted. -/
theorem viewerCount_restored_iff {b : Boot} {before steps : List Step}
    {sup sup' : Supervisor}
    {i : ℕ} {s : CamSlot} {readers : ℕ} (hboot : bootRun b before = some sup)
    (hrun : Runs.run next sup steps = some sup') (hs : sup.slots[i]? = some s)
    (hno : Runs.Guarded next (NoReset i) sup steps)
    (hlines : (linesFor (streamPath i) steps).Perm
      (List.replicate readers .read ++ List.replicate readers .unread)) :
    ∃ s', sup'.slots[i]? = some s' ∧
      (s'.viewerCount = s.viewerCount ↔
        ∀ arrived, arrived <+: linesFor (streamPath i) steps →
          arrived.count .unread ≤ s.viewerCount + arrived.count .read) := by
  obtain ⟨s', hs', hcount⟩ :=
    run_viewerCount (pathsInOrder_bootRun hboot) hrun hno hs
  refine ⟨s', hs', ?_⟩
  have hiff := ClampedCounter.final_eq_iff HookEvent.isRead s.viewerCount
    (linesFor (streamPath i) steps)
  have hread : (linesFor (streamPath i) steps).count .read = readers := by
    rw [hlines.count_eq, List.count_append, List.count_replicate_self]
    simp [List.count_replicate]
  have hunread : (linesFor (streamPath i) steps).count .unread = readers := by
    rw [hlines.count_eq, List.count_append, List.count_replicate_self]
    simp [List.count_replicate]
  rw [← hcount, HookEvent.downs_isRead, HookEvent.ups_isRead, hread, hunread,
    Nat.add_right_cancel_iff] at hiff
  rw [hiff]
  simp only [ClampedCounter.NeverClamped, HookEvent.downs_isRead,
    HookEvent.ups_isRead]

theorem not_resets_of_hook {sup : Supervisor} {st : Step}
    {msg : Json String} {i : ℕ}
    {s : CamSlot} (ha : st.action = .hook msg) : ¬ Resets sup st i s := by
  intro h
  rcases h with (⟨h | h⟩ | h | h) | h | h
  all_goals simp [ha] at h

/-- What the hooks write for the path of the first camera. -/
def hookMessage (event : String) : Json String :=
  .object [("event", .string event), ("path", .string "webcam0"),
    ("reader_ip", .string "10.0.0.7"), ("reader_user", .string "u")]

/-- The arrival of a line for the path of the first camera. -/
def hookLine (event : String) : Step where
  action := .hook (hookMessage event)

theorem noReset_hookLine (sup : Supervisor) (event : String) (i : ℕ) :
    NoReset i sup (hookLine event) := fun _ _ => not_resets_of_hook rfl

theorem viewerCount_restored_iff_oneReader :
    ∃ sup sup' s, bootRun oneCamera [] = some sup ∧
      Runs.run next sup [hookLine "read", hookLine "unread"] = some sup' ∧
      sup.slots[0]? = some s ∧
      ∃ s', sup'.slots[0]? = some s' ∧ s'.viewerCount = s.viewerCount := by
  have hlines : linesFor (streamPath 0) [hookLine "read", hookLine "unread"]
      = [.read, .unread] := by decide
  refine ⟨_, _, _, rfl, rfl, rfl, ?_⟩
  obtain ⟨s', hs', hiff⟩ := @viewerCount_restored_iff oneCamera []
    [hookLine "read", hookLine "unread"] _ _ 0 _ 1 rfl rfl rfl
    (fun _ _ => ⟨noReset_hookLine _ _ _,
      fun _ _ => ⟨noReset_hookLine _ _ _, trivial⟩⟩)
    (hlines ▸ List.Perm.refl _)
  refine ⟨s', hs', hiff.mpr ?_⟩
  rw [hlines]
  intro arrived harrived
  have hall : ∀ arrived ∈ ([.read, .unread] : List HookEvent).inits,
      arrived.count .unread ≤ arrived.count .read := by decide
  exact Nat.le_trans (hall arrived ((List.mem_inits _ _).mpr harrived))
    (Nat.le_add_left _ _)

/-- One reader, whose `unread` line arrives first: the count stays at one. -/
theorem viewerCount_depends_on_order :
    ¬ ∀ sup sup', bootRun oneCamera [] = some sup →
      Runs.run next sup [hookLine "unread", hookLine "read"] = some sup' →
      sup'.slots.map CamSlot.viewerCount
      = sup.slots.map CamSlot.viewerCount := by
  intro h
  exact absurd (h _ _ rfl rfl) (by decide)

end WebcamStreamer
