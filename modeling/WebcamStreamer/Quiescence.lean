import WebcamStreamer.Steps

/-!
# Settling, and being quiet

The supervision tick restarts what is down and tells the client what has
changed. Two things are wanted of such a loop: that one tick is enough where
everything that is due starts, and that it then stops – a state in which
everything is as it should be is left alone, by every later tick and by whatever
else happens that gives no reason to act.
-/

namespace WebcamStreamer

/-! ## Settled states

A state is settled if MediaMTX runs, every camera that should publish does,
and the client was told of all of it. One tick brings a state there exactly if
it can start what is down; the equivalence leaves no second tick to wait
for. -/

/-- The camera publishes if it should, and what was told about it is up to
date. -/
def CamSlot.Settled (s : CamSlot) : Prop :=
  if s.wanted = true then s.proc.isRunning = true ∧ s.lastRunning = true
  else s.lastRunning = false ∧ s.viewerCount = 0

namespace CamSlot

variable {s : CamSlot} (stop : Bool) (now : Time) (o : StartOutcome)

theorem settled_of_wanted (hw : s.wanted = true) :
    s.Settled ↔ s.proc.isRunning = true ∧ s.lastRunning = true := by
  rw [Settled, if_pos hw]

theorem settled_of_unwanted (hw : s.wanted = false) :
    s.Settled ↔ s.lastRunning = false ∧ s.viewerCount = 0 := by
  rw [Settled, if_neg (by rw [hw]; exact Bool.false_ne_true)]

@[simp] theorem isRunning_start : (s.start stop o).proc.isRunning
    = if stop = true then s.proc.isRunning else o.created.isSome := by
  cases stop
  · exact SupervisedProcess.isRunning_start _ _
  · rfl

/-- A camera that is settled is left alone by the tick, which has nothing to
tell. -/
theorem tick_of_settled (h : s.Settled) : s.tick stop now o = (s, false) := by
  cases hw : s.wanted with
  | true =>
    obtain ⟨hr, hl⟩ := (settled_of_wanted hw).mp h
    rw [tick_of_running _ _ _ hw hr, if_pos hl]
  | false =>
    obtain ⟨hl, hv⟩ := (settled_of_unwanted hw).mp h
    rw [tick_of_unwanted _ _ _ hw, if_neg (by simp [hl, hv])]

end CamSlot

namespace Supervisor

/-- MediaMTX runs, and every camera is settled. -/
structure Settled (sup : Supervisor) : Prop where
  mtx : sup.mtx.isRunning = true
  slots : ∀ s ∈ sup.slots, s.Settled

variable {sup : Supervisor} (env : Env)

end Supervisor

/-- The methods that may start or stop a publisher or MediaMTX, or tell the
client of something. -/
def busyMethods : List String :=
  ["restart-camera", "set-mode", "probe-camera", "set-stream-enabled",
    "set-viewer-credentials"]

/-- A step that gives no reason to act: a query or a request that is refused, an
enumeration that finds what is there, an edit of the settings, the wish to stop,
or a tick. -/
def Supervisor.Idle (sup : Supervisor) (st : Step) : Prop :=
  match st.action with
  | .request rq => rq.method ∉ busyMethods
  | .hook msg =>
    ∀ fields, hookFields msg = .ok fields → HookEvent.ofString fields.1 = none
  | .publisherExit .. | .mtxExit _ | .beginLoop => False
  | .diffPresence current =>
    (∀ s ∈ sup.slots,
      s.present = current.any (fun d => d.friendlyName == s.cfg.friendlyName)) ∧
      ∀ d ∈ current, ∃ s ∈ sup.slots, s.cfg.friendlyName = d.friendlyName
  | .consoleSignal | .editSettings _ | .tick | .finishReconcile _ => True

/-- What is published during a run, in order. -/
def published : Supervisor → List Step → List Event
  | _, [] => []
  | sup, st :: rest =>
    match step sup st with
    | none => []
    | some out => out.2 ++ published out.1 rest

/-- The same cameras, with the same processes, and the same MediaMTX. -/
def Supervisor.SameStreams (sup t : Supervisor) : Prop :=
  t.slots = sup.slots ∧ t.mtx = sup.mtx ∧ t.bMtx = sup.bMtx ∧
    t.mtxConfig = sup.mtxConfig

/-- No reconciliation that has found anything is under way. -/
def Phase.isIdle : Phase → Bool
  | .starting => false
  | .looping => true
  | .reconciling newDevices listChanged => newDevices.isEmpty && !listChanged

namespace Supervisor

variable {sup t : Supervisor} {st : Step} {out : Outcome} (env : Env)

theorem SameStreams.refl (sup : Supervisor) : sup.SameStreams sup :=
  ⟨rfl, rfl, rfl, rfl⟩

theorem SameStreams.trans {u : Supervisor} (h : sup.SameStreams t)
    (h' : t.SameStreams u) :
    sup.SameStreams u :=
  ⟨h'.1.trans h.1, h'.2.1.trans h.2.1, h'.2.2.1.trans h.2.2.1,
    h'.2.2.2.trans h.2.2.2⟩

theorem Settled.of_same (h : sup.Settled) (hsame : sup.SameStreams t) :
    t.Settled :=
  ⟨hsame.2.1 ▸ h.mtx, hsame.1 ▸ h.slots⟩

/-- **A settled state is left alone by every tick**, whatever the clock says and
whatever could be created. -/
theorem tick_of_settled (h : sup.Settled) : sup.tick env = (sup, []) := by
  have hmtx : sup.tickMtx env = (sup, []) := by
    unfold tickMtx
    exact if_neg (fun hdown =>
      absurd (hdown.1.symm.trans h.mtx) Bool.false_ne_true)
  have hslots : sup.slots.mapIdx (sup.tickSlot env)
      = sup.slots.map (fun s => (s, false)) := by
    refine List.ext_getElem? (fun i => ?_)
    rw [List.getElem?_mapIdx, List.getElem?_map]
    cases hi : sup.slots[i]? with
    | none => rfl
    | some s =>
      exact congrArg some (CamSlot.tick_of_settled _ _ _
        (h.slots s (List.mem_of_getElem? hi)))
  simp [tick, hmtx, hslots, Function.comp_def]

/-- The presence diff finds everything as it is. -/
theorem diffPresence_of_idle {current : List CameraDevice}
    (hpresent : ∀ s ∈ sup.slots,
      s.present = current.any (fun d => d.friendlyName == s.cfg.friendlyName))
    (hknown : ∀ d ∈ current, ∃ s ∈ sup.slots,
      s.cfg.friendlyName = d.friendlyName) :
    sup.diffPresence env current = { sup with
      phase := .reconciling [] false } := by
  have hslots : sup.slots.mapIdx (sup.diffSlot env current)
      = sup.slots.map (fun s => (s, false)) := by
    refine List.ext_getElem? (fun i => ?_)
    rw [List.getElem?_mapIdx, List.getElem?_map]
    cases hi : sup.slots[i]? with
    | none => rfl
    | some s =>
      exact congrArg some
        (CamSlot.diffPresence_of_same _ _ _
          (hpresent s (List.mem_of_getElem? hi)))
  have hnew : current.filter
      (fun d => !sup.slots.any (fun s => s.cfg.friendlyName == d.friendlyName))
      = [] := by
    refine List.filter_eq_nil_iff.mpr (fun d hd => ?_)
    obtain ⟨s, hs, hname⟩ := hknown d hd
    have hany : sup.slots.any (fun s => s.cfg.friendlyName == d.friendlyName)
        = true :=
      List.any_eq_true.mpr ⟨s, hs, beq_iff_eq.mpr hname⟩
    rw [hany]
    exact Bool.false_ne_true
  simp [diffPresence, hslots, hnew, Function.comp_def]

/-- The answer with the formats of a probe report leaves everything as it is. -/
theorem listAdvertisedFormats_quiet (sup : Supervisor) (params : Json String) :
    ∃ response, listAdvertisedFormats env params sup = ⟨sup, [], response⟩ := by
  have hafter : ∀ {α : Type} (x : Except JsonException α) {k : α → Served},
      (∀ a, ∃ response, k a = ⟨sup, [], response⟩) →
        ∃ response, Served.afterParam sup x k = ⟨sup, [], response⟩ := by
    intro α x k hk
    cases x with
    | ok a => exact hk a
    | error e => exact ⟨_, rfl⟩
  refine hafter _ (fun nm => ?_)
  split
  next => exact ⟨_, rfl⟩
  next =>
    split
    next => exact ⟨_, rfl⟩
    next => exact hafter _ (fun formats => ⟨_, rfl⟩)
    next => exact ⟨_, rfl⟩

/-- What an idle request leaves. -/
theorem handle_of_idle (sup : Supervisor) {rq : IpcRequest}
    (h : rq.method ∉ busyMethods) :
    sup.SameStreams (handle env rq sup).sup ∧
      (handle env rq sup).sup.phase = sup.phase ∧
      (handle env rq sup).events = [] := by
  have hbusy : ∀ {m : String}, rq.method = m → m ∈ busyMethods → False :=
    fun hm hmem => h (hm ▸ hmem)
  have hrefl := SameStreams.refl sup
  unfold handle
  repeat' split
  next => exact ⟨hrefl, rfl, rfl⟩
  next => exact ⟨hrefl, rfl, rfl⟩
  next hm => exact (hbusy hm (by simp [busyMethods])).elim
  next hm => exact (hbusy hm (by simp [busyMethods])).elim
  next =>
    obtain ⟨response, hquiet⟩ := listAdvertisedFormats_quiet env sup rq.params
    rw [hquiet]
    exact ⟨hrefl, rfl, rfl⟩
  next hm => exact (hbusy hm (by simp [busyMethods])).elim
  next hm => exact (hbusy hm (by simp [busyMethods])).elim
  next hm => exact (hbusy hm (by simp [busyMethods])).elim
  next =>
    unfold reloadSettings
    split
    next => exact ⟨hrefl, rfl, rfl⟩
    next => exact ⟨⟨rfl, rfl, rfl, rfl⟩, rfl, rfl⟩
  next => exact ⟨⟨rfl, rfl, rfl, rfl⟩, rfl, rfl⟩
  next => exact ⟨hrefl, rfl, rfl⟩

/-- **An idle step** in a settled state changes no stream, and nothing is
published. The phase is compared because an enumeration may go on for several
steps, and an idle one comes back to where it was. -/
theorem step_of_idle (h : sup.Settled) (hphase : sup.phase.isIdle = true)
    (hidle : sup.Idle st)
    (hs : step sup st = some out) :
    sup.SameStreams out.1 ∧ out.1.phase.isIdle = true ∧ out.2 = [] := by
  have hrefl := SameStreams.refl sup
  unfold Idle at hidle
  cases ha : st.action with
  | request rq =>
    rw [ha] at hidle
    obtain ⟨hsame, hkept, hevents⟩ := handle_of_idle st.env sup hidle
    simp only [step, ha, Option.some.injEq] at hs
    exact hs ▸ ⟨hsame, by rw [hkept]; exact hphase, hevents⟩
  | hook msg =>
    rw [ha] at hidle
    have hquiet : sup.hookEvent msg = (sup, []) := by
      unfold hookEvent
      split
      next => rfl
      next hfields => rw [hidle _ hfields]
    simp only [step, ha, hquiet, Option.some.injEq] at hs
    exact hs ▸ ⟨hrefl, hphase, rfl⟩
  | publisherExit i code => rw [ha] at hidle; exact hidle.elim
  | mtxExit code => rw [ha] at hidle; exact hidle.elim
  | beginLoop => rw [ha] at hidle; exact hidle.elim
  | consoleSignal =>
    simp only [step, ha, Option.some.injEq] at hs
    exact hs ▸ ⟨hrefl, hphase, rfl⟩
  | editSettings file =>
    simp only [step, ha, Option.some.injEq] at hs
    exact hs ▸ ⟨hrefl, hphase, rfl⟩
  | tick =>
    simp only [step, ha, tick_of_settled _ h] at hs
    split at hs
    next => exact Option.some.inj hs ▸ ⟨hrefl, hphase, rfl⟩
    next => cases hs
  | diffPresence current =>
    rw [ha] at hidle
    simp only [step, ha, diffPresence_of_idle _ hidle.1 hidle.2] at hs
    split at hs
    next => exact Option.some.inj hs ▸ ⟨⟨rfl, rfl, rfl, rfl⟩, rfl, rfl⟩
    next => cases hs
  -- no device is new and the list has not changed, so that the section adds
  -- nothing and tells nothing
  | finishReconcile newFormats =>
    simp only [step, ha] at hs
    split at hs
    next newDevices listChanged hreconciling =>
      rw [hreconciling, Phase.isIdle, Bool.and_eq_true, List.isEmpty_iff,
        Bool.not_eq_true'] at hphase
      rw [finishReconcile, if_pos hphase] at hs
      exact Option.some.inj hs ▸ ⟨⟨rfl, rfl, rfl, rfl⟩, rfl, rfl⟩
    next => cases hs

end Supervisor

theorem next_eq_some {sup t : Supervisor} {st : Step} :
    next sup st = some t ↔ ∃ events, step sup st = some (t, events) := by
  rw [next, Option.map_eq_some_iff]
  constructor
  · rintro ⟨⟨t, events⟩, hs, rfl⟩
    exact ⟨events, hs⟩
  · rintro ⟨events, hs⟩
    exact ⟨_, hs, rfl⟩

/-- What holds before a run and is kept by its guarded steps, none of which
publishes anything. -/
theorem published_eq_nil {Inv : Supervisor → Prop}
    {ok : Supervisor → Step → Prop}
    (hstep : ∀ sup st out, Inv sup → ok sup st → step sup st = some out →
      Inv out.1 ∧ out.2 = [])
    {sup : Supervisor} {steps : List Step} (h : Inv sup)
    (hok : Runs.Guarded next ok sup steps) :
    published sup steps = [] := by
  induction steps generalizing sup with
  | nil => rfl
  | cons st rest ih =>
    rw [published]
    split
    next => rfl
    next out hs =>
      obtain ⟨hst, hrest⟩ := hok out.1 (next_eq_some.mpr ⟨_, hs⟩)
      obtain ⟨hinv, hevents⟩ := hstep _ _ _ h hst hs
      rw [hevents, ih hinv hrest, List.nil_append]

/-- **A settled supervisor stays quiet**: as long as there is no reason to
act, no publisher is touched and nothing is published. Being settled is a
condition on the state alone, and every later state of such a run is settled
too. -/
theorem quiet_while_idle {sup : Supervisor} {steps : List Step}
    (h : sup.Settled)
    (hphase : sup.phase.isIdle = true)
    (hidle : Runs.Guarded next Supervisor.Idle sup steps) :
    published sup steps = [] ∧
      Runs.Everywhere next sup.SameStreams sup steps := by
  have hstep : ∀ (t : Supervisor) (st : Step) (out : Outcome),
      sup.SameStreams t ∧ t.phase.isIdle = true → t.Idle st →
      step t st = some out →
        (sup.SameStreams out.1 ∧ out.1.phase.isIdle = true) ∧ out.2 = [] := by
    intro t st out ht hidle hs
    obtain ⟨hsame, hkept, hevents⟩ :=
      Supervisor.step_of_idle (h.of_same ht.1) ht.2 hidle hs
    exact ⟨⟨ht.1.trans hsame, hkept⟩, hevents⟩
  have hstart : sup.SameStreams sup ∧ sup.phase.isIdle = true :=
    ⟨.refl sup, hphase⟩
  have hkept : Runs.Everywhere next (fun t => sup.SameStreams t ∧
      t.phase.isIdle = true) sup
      steps := by
    refine Runs.everywhere_of_guarded (fun t st u ht hok hs => ?_) hstart hidle
    obtain ⟨events, hs⟩ := next_eq_some.mp hs
    exact (hstep t st _ ht hok hs).1
  exact ⟨published_eq_nil hstep hstart hidle, hkept.mono (fun t ht => ht.1)⟩

/-- A supervisor whose one camera publishes. -/
def oneCameraUp : Supervisor where
  ffExe := "ffmpeg.exe"
  knownDb := []
  disk := oneCamera.disk
  settings := {}
  mtx := { cfg := oneCamera.mtx, child := some ⟨1, .alive⟩ }
  mtxConfig := .missing
  bMtx := {}
  slots :=
    [{ cfg := { friendlyName := "Cam", rtspPath := "/webcam0" }
       proc := { cfg := oneCamera.mtx, child := some ⟨2, .alive⟩ }
       lastRunning := true }]
  stop := false
  phase := .looping

/-- It is asked for its status, and ticks an hour later. -/
theorem quiet_oneCameraUp :
    published oneCameraUp
        [{ action := .request
            { method := "get-status", params := .object [] } },
          { env := { now := ms 3600000 }, action := .tick }] = [] ∧
      Runs.Everywhere next oneCameraUp.SameStreams oneCameraUp
        [{ action := .request
            { method := "get-status", params := .object [] } },
          { env := { now := ms 3600000 }, action := .tick }] := by
  refine quiet_while_idle ⟨rfl, fun s hs => ?_⟩ rfl
    (Runs.guarded_of_forall_mem (fun st hst t => ?_))
  · obtain rfl := List.mem_singleton.mp hs
    exact (CamSlot.settled_of_wanted rfl).mpr ⟨rfl, rfl⟩
  · rcases List.mem_pair.mp hst with rfl | rfl
    · show "get-status" ∉ busyMethods
      decide
    · trivial

end WebcamStreamer
