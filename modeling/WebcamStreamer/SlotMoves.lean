import WebcamStreamer.Steps

/-!
# What a step can do to a slot

Publishers are started, stopped and replaced from many places, and what holds of
slots has to survive all of them. This module says once what a step can
do to the slot at one position (`SlotMove`); the invariants are then proved by
cases on this.

A move knows the state and the step it belongs to, since some of them are
possible for one request or one device only, and it relates the slot before to
the slot behind it and nothing else. Slots are never removed and never change
their places, so that the slot at a position can be followed through a run;
new ones come behind the others, and only at the end of a reconciliation
(`step_added`).
-/

namespace WebcamStreamer

/-- A slot put back where it came from changes nothing, and nothing else can be
put there without a change. -/
theorem Supervisor.set_eq_self_iff {sup : Supervisor} {i : ℕ} {s s' : CamSlot}
    (hs : sup.slots[i]? = some s) :
    sup.slots.set i s' = sup.slots ↔ s' = s := by
  have hlt : i < sup.slots.length := (List.getElem?_eq_some_iff.mp hs).1
  constructor
  · intro h
    have hget : (sup.slots.set i s')[i]? = some s := by rw [h, hs]
    rw [List.getElem?_set_self hlt] at hget
    exact Option.some.inj hget
  · rintro rfl
    refine List.ext_getElem? (fun k => ?_)
    by_cases hik : i = k
    · rw [← hik, List.getElem?_set_self hlt, hs]
    · rw [List.getElem?_set_ne hik]

open CamSlot in
/-- **What the step `st` can do to the slot `s` at position `i`.** What is not
in the list does not happen to a slot, and with it every invariant of single
slots is a matter of cases on the moves. -/
inductive SlotMove (sup : Supervisor) (st : Step) (i : ℕ) (s : CamSlot) :
    CamSlot → Prop where
  | same : SlotMove sup st i s s
  | restarted {rq : IpcRequest} {nm : String} (ha : st.action = .request rq)
      (hm : rq.method = "restart-camera")
      (hp : rq.params.valueString "name" = .ok nm)
      (hne : nm ≠ "") (hs : sup.findByName nm = some (i, s)) :
      SlotMove sup st i s
        (s.restart sup.ffExe sup.stop (st.env.starts i)).noteRunning
  | modeThrown {rq : IpcRequest} {nm what : String} {parsed : Mode}
      {upd : CameraOverride}
      (ha : st.action = .request rq) (hm : rq.method = "set-mode")
      (hp : setModeParams rq.params = .ok (nm, parsed, upd)) (hne : nm ≠ "")
      (hmode : parsed ≠ .unknown) (hs : sup.findByName nm = some (i, s))
      (hops : (st.env.overrideOps i).existsThrows = some what) :
      SlotMove sup st i s { s with cfg := s.cfg.update upd }
  | modeSet {rq : IpcRequest} {nm : String} {parsed : Mode}
      {upd : CameraOverride}
      (ha : st.action = .request rq) (hm : rq.method = "set-mode")
      (hp : setModeParams rq.params = .ok (nm, parsed, upd)) (hne : nm ≠ "")
      (hmode : parsed ≠ .unknown) (hs : sup.findByName nm = some (i, s))
      (hops : (st.env.overrideOps i).existsThrows = none) :
      SlotMove sup st i s
        ({ s with cfg := s.cfg.update upd }.restart sup.ffExe sup.stop
          (st.env.starts i)).noteRunning
  | enabledSet {rq : IpcRequest} {nm : String} {want : Bool}
      (ha : st.action = .request rq)
      (hm : rq.method = "set-stream-enabled")
      (hp : rq.params.valueString "name" = .ok nm)
      (hne : nm ≠ "") (hwant : rq.params.find? "enabled" = some (.boolean want))
      (hs : sup.findByName nm = some (i, s))
      (hops : (st.env.overrideOps i).existsThrows = none) :
      SlotMove sup st i s
        (s.enable sup.ffExe sup.stop (st.env.starts i) want).noteRunning
  | counted {msg : Json String} {event path ip user : String} {ev : HookEvent}
      (ha : st.action = .hook msg)
      (hfields : hookFields msg = .ok (event, path, ip, user))
      (hevent : HookEvent.ofString event = some ev)
      (hs : sup.findByPath path = some (i, s)) :
      SlotMove sup st i s (s.countViewer ev)
  | exited {code : UInt32} (ha : st.action = .publisherExit i code) :
      SlotMove sup st i s { s with proc := s.proc.exit code }
  | noted (ha : st.action = .beginLoop) : SlotMove sup st i s s.noteRunning
  | ticked (ha : st.action = .tick) :
      SlotMove sup st i s (sup.tickSlot st.env i s).1
  | diffed {current : List CameraDevice}
      (ha : st.action = .diffPresence current) :
      SlotMove sup st i s (sup.diffSlot st.env current i s).1

/-- A step that replaces one slot moves that one and leaves the others. -/
theorem SlotMove.of_set {sup : Supervisor} {st : Step}
    {slots : List CamSlot} {i : ℕ}
    {s s' : CamSlot} (hmove : SlotMove sup st i s s') (hi : slots[i]? = some s)
    {k : ℕ} {x : CamSlot} (hx : slots[k]? = some x) :
    ∃ y, (slots.set i s')[k]? = some y ∧ SlotMove sup st k x y := by
  by_cases hik : i = k
  · subst hik
    obtain rfl := Option.some.inj (hi.symm.trans hx)
    have hlt : i < slots.length := (List.getElem?_eq_some_iff.mp hi).1
    exact ⟨s', by simp [hlt], hmove⟩
  · exact ⟨x, by rw [List.getElem?_set_ne hik, hx], .same⟩

/-- **No step removes a slot, and what it does to each one is a move.** A slot
keeps its position for the whole life of the program, which is why the
position can stand for the camera. -/
theorem step_slot {sup : Supervisor} {st : Step} {out : Outcome}
    (h : step sup st = some out)
    {k : ℕ} {x : CamSlot} (hx : sup.slots[k]? = some x) :
    ∃ y, out.1.slots[k]? = some y ∧ SlotMove sup st k x y := by
  cases stepsTo_of_step h with
  | @served rq served ha heq hserved =>
    cases hserved with
    | restarted hm hp hne hs =>
      have hmove := SlotMove.restarted ha hm hp hne hs
      exact hmove.of_set (Supervisor.findByName_some hs).1 hx
    | modeThrown hm hp hne hmode hs hops =>
      have hmove := SlotMove.modeThrown ha hm hp hne hmode hs hops
      exact hmove.of_set (Supervisor.findByName_some hs).1 hx
    | modeSet hm hp hne hmode hs hsave =>
      have hmove :=
        SlotMove.modeSet ha hm hp hne hmode hs
          (existsThrows_of_saveOverride hsave)
      exact hmove.of_set (Supervisor.findByName_some hs).1 hx
    | enabledSet hm hp hne hwant hs hsave =>
      have hmove :=
        SlotMove.enabledSet ha hm hp hne hwant hs
          (existsThrows_of_saveOverride hsave)
      exact hmove.of_set (Supervisor.findByName_some hs).1 hx
    | credentialsSet hm hu hu0 hp hp0 hsave hyml ht =>
      subst ht
      exact ⟨x, hx, .same⟩
    | _ => exact ⟨x, hx, .same⟩
  | hookIgnored => exact ⟨x, hx, .same⟩
  | hookCounted ha hfields hevent hs =>
    have hmove := SlotMove.counted ha hfields hevent hs
    exact hmove.of_set (Supervisor.findByPath_some hs).1 hx
  | @publisherExit i code ha =>
    by_cases hik : i = k
    · subst hik
      exact ⟨_, by simp [hx], .exited ha⟩
    · exact ⟨x, by simp [hik, hx], .same⟩
  | mtxExit => exact ⟨x, hx, .same⟩
  | consoleSignal => exact ⟨x, hx, .same⟩
  | editSettings => exact ⟨x, hx, .same⟩
  | beginLoop ha => exact ⟨_, by simp [hx], .noted ha⟩
  | tick ha => exact ⟨_, by simp [hx], .ticked ha⟩
  | diffPresence ha => exact ⟨_, by simp [hx], .diffed ha⟩
  -- new slots come behind the old ones, and so the position has the slot it had
  | reconciled ha hphase hgrown =>
    obtain ⟨added, rfl⟩ := hgrown.append
    exact ⟨x, (List.getElem?_append_left
      (List.getElem?_eq_some_iff.mp hx).1).trans hx, .same⟩

/-- **Only the end of a reconciliation adds slots.** The slots there were keep
their positions, and the new ones come behind them. -/
theorem step_added {sup : Supervisor} {st : Step} {out : Outcome}
    (h : step sup st = some out) :
    out.1.slots.length = sup.slots.length ∨
      ∃ newFormats newDevices listChanged,
        st.action = .finishReconcile newFormats ∧
        sup.phase = .reconciling newDevices listChanged ∧
        Grown st.env (sup.slots.map (fun s => s.cfg.friendlyName)) sup
          (newDevices.mapIdx (fun j d => (d, newFormats j))) sup.slots
            out.1.slots := by
  cases stepsTo_of_step h with
  | reconciled ha hphase hgrown => exact .inr ⟨_, _, _, ha, hphase, hgrown⟩
  | served ha heq hserved =>
    refine .inl ?_
    cases hserved with
    | credentialsSet hm hu hu0 hp hp0 hsave hyml ht =>
      subst ht
      rfl
    | _ =>
      simp [Served.slotChanged, Served.answer, Served.thrown, Served.refuse]
  | _ => exact .inl (by simp)

/-- Any step but the end of a reconciliation keeps the number of slots. -/
theorem length_slots_step {sup : Supervisor} {st : Step} {out : Outcome}
    (h : step sup st = some out)
    (hno : ∀ newFormats, st.action ≠ .finishReconcile newFormats) :
    out.1.slots.length = sup.slots.length := by
  rcases step_added h with hlen | ⟨newFormats, -, -, ha, -⟩
  · exact hlen
  · exact absurd ha (hno newFormats)

/-- A step that adds no slot leaves only slots that it moved. -/
theorem slot_of_step {sup : Supervisor} {st : Step} {out : Outcome}
    (h : step sup st = some out)
    (hlen : out.1.slots.length = sup.slots.length) {k : ℕ} {y : CamSlot}
    (hy : out.1.slots[k]? = some y) :
    ∃ x, sup.slots[k]? = some x ∧ SlotMove sup st k x y := by
  have hlt : k < sup.slots.length := hlen ▸ (List.getElem?_eq_some_iff.mp hy).1
  have hx : sup.slots[k]? = some sup.slots[k] := List.getElem?_eq_getElem hlt
  obtain ⟨y', hy', hm⟩ := step_slot h hx
  obtain rfl := Option.some.inj (hy.symm.trans hy')
  exact ⟨_, hx, hm⟩

/-- **The rule for a property that every slot has**: the moves of the step keep
it, and a slot that is added begins with it. -/
theorem step_forall_slots {P : CamSlot → Prop} {sup : Supervisor} {st : Step}
    {out : Outcome}
    (h : step sup st = some out) (hs : ∀ s ∈ sup.slots, P s)
    (hmove : ∀ k x y, sup.slots[k]? = some x → P x →
      SlotMove sup st k x y → P y)
    (hadd : ∀ (device : CameraDevice) (formats : List AdvertisedFormat)
      (cfg : CameraConfig)
      (o : StartOutcome),
      P ((newSlot sup.ffExe device formats cfg).startIfEnabled sup.stop o)) :
    ∀ s ∈ out.1.slots, P s := by
  rcases step_added h with hlen | ⟨newFormats, newDevices, listChanged,
    -, -, hgrown⟩
  · intro y hy
    obtain ⟨k, hk⟩ := List.mem_iff_getElem?.mp hy
    obtain ⟨x, hx, hm⟩ := slot_of_step h hlen hk
    exact hmove k x y hx (hs x (List.mem_of_getElem? hx)) hm
  · exact hgrown.forall_mem hs (fun _ device formats _ cfg _ _ _ =>
      hadd device formats cfg _)

end WebcamStreamer
