import WebcamStreamer.CameraEnum
import WebcamStreamer.SlotPaths

/-!
# A re-enumeration that fails

The loop enumerates the cameras every ten seconds, by running ffmpeg and reading
what it writes. ffmpeg exits with an error even when it lists the devices, so
`EnumerateCameras` does not look at the result of `RunCommand`, only at the
text. A command that was never started leaves no text, and no text is a listing
without a camera.

What reaches the presence diff is therefore the same for a machine without
cameras and for a listing that was not obtained (`enumerate_of_failed`), and it
marks every camera unplugged that is there.
-/

namespace WebcamStreamer

/-! ## Running a command

A command can fail in many ways, and the enumeration of the cameras looks at
none of them: it reads what the standard error has, and an empty text is a
machine without cameras. -/

/-- `struct CommandResult`. -/
structure CommandResult where
  ok : Bool := false
  exitCode : ℤ := -1
  stdoutText : Text := []
  stderrText : Text := []
  deriving DecidableEq

/-- What the operating system does for `RunCommand`. -/
inductive CommandRun where
  /-- `CreatePipe` fails, for the standard output or the standard error. -/
  | noPipe
  /-- `CreateProcess` fails. -/
  | noProcess
  /-- The process runs: `drained` says whether the thread that reads its
  standard error could be created, `inTime` whether it exited before the
  timeout. -/
  | ran (stdout stderr : Text) (drained inTime : Bool) (exitCode : ℤ)

/-- `RunCommand`. -/
def runCommand : CommandRun → CommandResult
  | .noPipe => {}
  | .noProcess => {}
  | .ran stdout stderr drained inTime exitCode =>
    { stdoutText := stdout
      stderrText := if drained then stderr else []
      exitCode := exitCode
      ok := inTime && exitCode == 0 }

/-- `EnumerateCameras` on what the command did. -/
def enumerate (run : CommandRun) : List CameraDevice :=
  enumerateCameras (runCommand run).stderrText

/-- **No device list was obtained**: the command did not start, its standard
error could not be read, or the timeout came before a device was printed. -/
def CommandRun.Failed : CommandRun → Prop
  | .noPipe => True
  | .noProcess => True
  | .ran _ stderr drained inTime _ =>
    drained = false ∨ inTime = false ∧ parseFfmpegDshowList stderr = []

/-- A failure looks like a machine without cameras. -/
theorem enumerate_of_failed {run : CommandRun} (h : run.Failed) :
    enumerate run = [] := by
  cases run with
  | noPipe => rfl
  | noProcess => rfl
  | ran stdout stderr drained inTime exitCode =>
    rcases h with rfl | ⟨-, hparse⟩
    · rfl
    · cases drained with
      | false => rfl
      | true =>
        show enumerateCameras stderr = []
        rw [enumerateCameras, hparse]
        rfl

/-! ## The iteration of the loop

An empty listing unplugs every camera that is present. So a failed enumeration
is harmless in one case only, which is that there was nothing to unplug. -/

/-- **The iteration disturbs no stream**: after the first locked section every
camera is present or not as before, and every publisher as before; and whatever
the other threads do in between, the second one publishes no list of cameras. -/
structure Undisturbed (sup : Supervisor) (current : List CameraDevice) :
    Prop where
  present : ∀ env out, step sup ⟨env, .diffPresence current⟩ = some out →
    out.1.slots.map CamSlot.present = sup.slots.map CamSlot.present
  procs : ∀ env out, step sup ⟨env, .diffPresence current⟩ = some out →
    out.1.slots.map CamSlot.proc = sup.slots.map CamSlot.proc
  silent : ∀ env out between sup' env' newFormats out',
    step sup ⟨env, .diffPresence current⟩ = some out →
    (∀ st ∈ between, ∀ formats, st.action ≠ .finishReconcile formats) →
    Runs.run next out.1 between = some sup' →
    step sup' ⟨env', .finishReconcile newFormats⟩ = some out' →
      ∀ cams, Event.camerasChanged cams ∉ out'.2

section Iteration

variable {sup : Supervisor}

theorem step_diffPresence {env : Env} {current : List CameraDevice}
    (hphase : sup.phase = .looping) :
    step sup ⟨env, .diffPresence current⟩
      = some (sup.diffPresence env current, []) := by
  simp only [step, hphase]

/-- A listing without cameras leaves none present. -/
theorem present_diffPresence_nil (env : Env) {s : CamSlot}
    (hs : s ∈ (sup.diffPresence env []).slots) : s.present = false := by
  obtain ⟨r, hr, rfl⟩ := List.mem_map.mp hs
  obtain ⟨i, hi, rfl⟩ := List.mem_mapIdx.mp hr
  show ((sup.slots[i]).diffPresence _ _ _ false).1.present = false
  rcases CamSlot.diffPresence_cases sup.ffExe sup.stop (env.starts i) false
    (s := sup.slots[i])
    with ⟨hp, heq⟩ | ⟨-, -, heq⟩ | ⟨-, htrue, -⟩
  · rw [heq, hp]
  · rw [heq]
    rfl
  · cases htrue

/-- Where no camera is present, there is nothing to unplug. -/
theorem diffPresence_nil_of_absent (env : Env)
    (h : ∀ s ∈ sup.slots, s.present = false) :
    sup.diffPresence env [] = { sup with phase := .reconciling [] false } := by
  have hdiff : sup.slots.mapIdx (sup.diffSlot env [])
      = sup.slots.map (fun s => (s, false)) := by
    refine List.ext_getElem (by simp) (fun i _ hi => ?_)
    rw [List.getElem_mapIdx, List.getElem_map]
    exact CamSlot.diffPresence_of_same _ _ _ (h _ (List.getElem_mem _))
  have hslots : (sup.slots.map (fun s => (s, false))).map Prod.fst
      = sup.slots := by
    rw [List.map_map]
    exact List.map_id _
  unfold Supervisor.diffPresence
  simp only [hdiff, hslots, List.filter_nil, List.any_map]
  simp

/-- The other threads leave the main thread where it is. -/
theorem phase_between {sup' : Supervisor} {newDevices : List CameraDevice}
    {listChanged : Bool}
    {between : List Step}
    (hphase : sup.phase = .reconciling newDevices listChanged)
    (hothers : ∀ st ∈ between, ∀ formats, st.action ≠ .finishReconcile formats)
    (hrun : Runs.run next sup between = some sup') :
    sup'.phase = .reconciling newDevices listChanged := by
  have hguarded : Runs.Guarded next
      (fun _ st => ∀ formats,
        st.action ≠ .finishReconcile formats) sup between :=
    Runs.guarded_of_forall_mem (fun st hst _ => hothers st hst)
  refine Runs.run_invariant (fun sup => sup.phase
    = .reconciling newDevices listChanged) ?_
    hphase hguarded hrun
  intro s st t hs hst hstep
  obtain ⟨out, hout, rfl⟩ := Option.map_eq_some_iff.mp hstep
  exact (step_phase hout hs hst).1.trans hs

/-- **A failed enumeration disturbs no stream exactly if** no camera is
present. A failed enumeration is read as one without devices, and every camera
that is present counts as unplugged then. -/
theorem undisturbed_of_failed_iff {run : CommandRun}
    (hphase : sup.phase = .looping)
    (hfailed : run.Failed) :
    Undisturbed sup (enumerate run) ↔ ∀ s ∈ sup.slots, s.present = false := by
  rw [enumerate_of_failed hfailed]
  constructor
  · intro h s hs
    have hpresent := h.present {} _ (step_diffPresence hphase)
    have hmem :
        s.present ∈ (sup.diffPresence {} []).slots.map CamSlot.present :=
      hpresent ▸ List.mem_map_of_mem hs
    obtain ⟨t, ht, heq⟩ := List.mem_map.mp hmem
    exact heq ▸ present_diffPresence_nil {} ht
  · intro h
    have hout : ∀ env out, step sup ⟨env, .diffPresence []⟩ = some out →
        out.1 = { sup with phase := .reconciling [] false } := by
      intro env out hstep
      rw [step_diffPresence hphase, diffPresence_nil_of_absent env h] at hstep
      rw [← Option.some.inj hstep]
    refine ⟨fun env out hstep => ?_, fun env out hstep => ?_, ?_⟩
    · rw [hout env out hstep]
    · rw [hout env out hstep]
    · intro env out between sup' env' newFormats out' hstep hothers hrun
        hfinish cams
      have hphase' : sup'.phase = .reconciling [] false :=
        phase_between (by rw [hout env out hstep]) hothers hrun
      have hnothing : sup'.finishReconcile env' [] false newFormats
          = .ok (sup', []) := rfl
      simp only [step, hphase', hnothing, Option.some.injEq] at hfinish
      rw [← hfinish]
      exact List.not_mem_nil

/-- The camera is unplugged, and then ffmpeg cannot be started. -/
theorem undisturbed_of_failed_unplugged :
    ∃ sup, bootRun oneCamera [{ action := .beginLoop },
      { action := .diffPresence [] },
        { action := .finishReconcile (fun _ => []) }] = some sup ∧
      Undisturbed sup (enumerate .noProcess) := by
  have hfailed : CommandRun.Failed .noProcess := trivial
  refine ⟨_, rfl, (undisturbed_of_failed_iff rfl hfailed).mpr ?_⟩
  decide

/-- The camera is there and streams, and then ffmpeg cannot be started: the
publisher is stopped, and the client is told of a list that changed. -/
theorem undisturbed_of_failed_streaming_false :
    ∃ sup, bootRun oneCamera [{ action := .beginLoop }] = some sup ∧
      sup.phase = .looping ∧ CommandRun.Failed .noProcess ∧
      ¬ Undisturbed sup (enumerate .noProcess) ∧
      sup.slots.map (fun s => s.proc.isRunning) = [true] ∧
      ((sup.diffPresence {} (enumerate .noProcess)).slots.map
        (fun s => s.proc.isRunning)
        = [false]) ∧
      ∃ out cams, step (sup.diffPresence {} (enumerate .noProcess))
          { action := .finishReconcile (fun _ => []) } = some out ∧
        Event.camerasChanged cams ∈ out.2 := by
  refine ⟨_, rfl, rfl, trivial, fun h => ?_,
    by decide, by decide, _, _, rfl, List.mem_cons_self⟩
  exact absurd (h.present {} _ rfl) (by decide)

end Iteration

end WebcamStreamer
