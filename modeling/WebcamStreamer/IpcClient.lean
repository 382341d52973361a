import Mathlib.Logic.Function.Basic
import WebcamStreamer.Json
import WebcamStreamer.Runs

/-!
# The host's side of the control pipe

Calls run side by side. Each takes the next id, puts a `TaskCompletionSource`
into the table `_waiters` under it, writes its request and awaits the source.
The pump takes the source of a response out of the table and completes it, a
timer and a cancellation token complete it as well, and only the first of them
counts.

What leaves the `await` takes the id out of the table again. What throws before
it does not: the serializer, the write and the registrations stand outside of
the `try` block, although the id is in the table by then. Apart from that, every
call is paired with its own response (`IpcClient.paired_everywhere_iff`).

A response arrives when the pump looks its id up in the table.
-/

namespace WebcamStreamer

namespace IpcClient

/-! ## Calls

A call goes through stages, and between any two of them other calls and the
pump can run. The table `_waiters` maps ids to the sources of the calls that
wait. Ids are 32 bits wide and are taken one after the other. -/

/-- A response: its id and the element with everything in it. -/
structure Response where
  id : ℤ
  element : Json String

/-- What a `TaskCompletionSource` is completed with. -/
inductive TaskResult where
  | result (r : Response)
  | canceled
  | timedOut

/-- How far a call got: it has its id; it is in the table; its request is a
text; the text is written; it watches its token; it watches its timer and
awaits; it is over. -/
inductive Stage where
  | numbered
  | registered
  | serialized
  | written
  | watching
  | awaiting
  | finished
  deriving DecidableEq

/-- A call: its id, its stage, its `tcs`, and how many responses had arrived
when it was registered. -/
structure Call where
  id : ℤ
  stage : Stage := .numbered
  tcs : Option TaskResult := none
  since : ℕ := 0

/-- How a call completed: its `await` returned or threw what the source was
completed with, or something threw before. -/
inductive Completion where
  | awaited (result : TaskResult)
  | thrown

end IpcClient

/-- The client. A source is known by the position of its call. -/
structure IpcClient where
  /-- `_writer` is not null. -/
  connected : Bool := false
  nextId : ℤ := 0
  calls : List IpcClient.Call := []
  waiters : ℤ → Option ℕ := fun _ => none
  /-- What pumps have taken out of the table and not completed yet. -/
  taken : List (ℕ × IpcClient.Response) := []
  /-- The responses that arrived, in their order. -/
  arrived : List IpcClient.Response := []
  /-- The calls that completed, in their order. -/
  completed : List (ℕ × IpcClient.Completion) := []
  /-- How many calls found no connection. -/
  refused : ℕ := 0

namespace IpcClient

/-! ## Steps

A call is made of several steps, between which other calls, the pumps, the
timers and the tokens can have theirs. Each step is one that the source cannot
be interrupted in. -/

/-- The steps of calls, pumps, timers and tokens, each of them atomic. -/
inductive Action where
  | connect
  | dispose
  /-- A call is made and takes its id. -/
  | start
  | register (k : ℕ)
  | serialize (k : ℕ)
  | write (k : ℕ)
  | watchToken (k : ℕ)
  | watchTimer (k : ℕ)
  /-- What the call does next throws. -/
  | throw (k : ℕ)
  /-- The token of the call is cancelled, and its callback runs. -/
  | cancel (k : ℕ)
  /-- The timer of the call runs out, and its callback runs. -/
  | timeOut (k : ℕ)
  /-- A pump looks up the id of a response. -/
  | arrive (r : Response)
  /-- A pump completes the source at a position of `taken`. -/
  | setResult (i : ℕ)
  /-- The `await` of a call is over, and its `finally` block runs. -/
  | finish (k : ℕ)

/-- `TrySetResult` and its like: only the first one counts. -/
def Call.trySet (c : Call) (result : TaskResult) : Call :=
  { c with tcs := c.tcs.or (some result) }

/-- A step of the call at a position, which is in one of the stages. -/
def ofCall (s : IpcClient) (k : ℕ) (stages : List Stage)
    (f : Call → IpcClient) : Option IpcClient :=
  match s.calls[k]? with
  | some c => if c.stage ∈ stages then some (f c) else none
  | none => none

/-- The client with another call at a position. -/
def setCall (s : IpcClient) (k : ℕ) (c : Call) : IpcClient :=
  { s with calls := s.calls.set k c }

/-- A call goes from one stage to the next. -/
def advance (s : IpcClient) (k : ℕ) (before after : Stage) : Option IpcClient :=
  s.ofCall k [before] (fun c => s.setCall k { c with stage := after })

/-- What an action makes of the client; `none` where it is not possible. -/
def step (s : IpcClient) : Action → Option IpcClient
  | .connect => some { s with connected := true }
  | .dispose => some { s with connected := false }
  | .start =>
    if s.connected then
      let id := int32OfInteger (s.nextId + 1)
      some { s with nextId := id, calls := s.calls ++ [{ id }] }
    else some { s with refused := s.refused + 1 }
  | .register k =>
    s.ofCall k [.numbered] (fun c =>
      { s.setCall k { c with
        stage := .registered, since := s.arrived.length } with
        waiters := Function.update s.waiters c.id (some k) })
  | .serialize k => s.advance k .registered .serialized
  | .write k => s.advance k .serialized .written
  | .watchToken k => s.advance k .written .watching
  | .watchTimer k => s.advance k .watching .awaiting
  | .throw k =>
    s.ofCall k [.registered, .serialized, .written, .watching] (fun c =>
      { s.setCall k { c with stage := .finished } with
        completed := s.completed ++ [(k, .thrown)] })
  | .cancel k =>
    s.ofCall k [.watching,
      .awaiting] (fun c => s.setCall k (c.trySet .canceled))
  | .timeOut k =>
    s.ofCall k [.awaiting] (fun c => s.setCall k (c.trySet .timedOut))
  | .arrive r =>
    match s.waiters r.id with
    | some k =>
      some { s with
        waiters := Function.update s.waiters r.id none
        taken := s.taken ++ [(k, r)], arrived := s.arrived ++ [r] }
    | none => some { s with arrived := s.arrived ++ [r] }
  | .setResult i =>
    match s.taken[i]? with
    | some (k, r) =>
      some { s with
        taken := s.taken.eraseIdx i
        calls := s.calls.modify k (·.trySet (.result r)) }
    | none => none
  | .finish k =>
    match s.calls[k]? with
    | some c =>
      match c.stage, c.tcs with
      | .awaiting, some result =>
        some { s.setCall k { c with stage := .finished } with
          waiters := Function.update s.waiters c.id none
          completed := s.completed ++ [(k, .awaited result)] }
      | _, _ => none
    | none => none

/-! ## What it is for

A call that returns a value returns that of a response with its id which
arrived after it was registered, and it returns once. This is stated about the
history of a run, which the state carries along: what arrived, what was taken
out of the table, and what completed. -/

/-- The response carries the id of the call, and arrived after its
registration. -/
def Answers (s : IpcClient) (k : ℕ) (r : Response) : Prop :=
  ∃ c, s.calls[k]? = some c ∧ c.stage ≠ .numbered ∧ r.id = c.id ∧
    ∃ j, c.since ≤ j ∧ s.arrived[j]? = some r

/-- **Calls and responses are paired.** It is asked of the states in which the
counter of identifiers has not come round. -/
structure Paired (s : IpcClient) : Prop where
  /-- Each call completes at most once. -/
  once : (s.completed.map Prod.fst).Nodup
  /-- A call that returns a value returns a response of its own. -/
  own : ∀ k r, (k, .awaited (.result r)) ∈ s.completed → s.Answers k r
  /-- The id of a call that completed is not in the table. -/
  gone :
    ∀ k o c, (k, o) ∈ s.completed → s.calls[k]? = some c → s.waiters c.id = none

/-! ## What a step can do

The actions are sorted by what they do to the calls, the table and the
sources, so that several of them share a case. The fields of the invariant are
each kept by few of the cases for a reason, and by all others because nothing
that they mention has changed. -/

/-- A call after a step that does not end it and does not touch the table. -/
structure Call.Goes (c c' : Call) : Prop where
  id : c'.id = c.id
  since : c'.since = c.since
  before : c.stage ≠ .numbered ∧ c.stage ≠ .finished
  after : c'.stage ≠ .numbered ∧ c'.stage ≠ .finished
  tcs : ∀ r, c'.tcs = some (.result r) → c.tcs = some (.result r)

/-- **What the action `a` can make of the client `s`.** The cases say what a
step leaves as it is as much as what it changes, and the invariants are proved
over them. -/
inductive Move (s : IpcClient) : Action → IpcClient → Prop where
  /-- The connection, or a call that finds none. -/
  | noCall {a : Action} (connected : Bool) (refused : ℕ)
      (ha : ∀ k, a ≠ .throw k) :
      Move s a { s with connected, refused }
  | started : Move s .start
      { s with nextId := int32OfInteger (s.nextId + 1)
               calls := s.calls ++ [{ id := int32OfInteger (s.nextId + 1) }] }
  | registered {k : ℕ} {c : Call} (hc : s.calls[k]? = some c)
      (hstage : c.stage = .numbered) :
      Move s (.register k)
        { s.setCall k { c with
          stage := .registered, since := s.arrived.length } with
          waiters := Function.update s.waiters c.id (some k) }
  | went {a : Action} {k : ℕ} {c c' : Call} (hc : s.calls[k]? = some c)
      (hgoes : c.Goes c')
      (ha : ∀ k, a ≠ .throw k) : Move s a (s.setCall k c')
  | threw {k : ℕ} {c : Call} (hc : s.calls[k]? = some c)
      (hstage : c.stage ≠ .numbered)
      (hstage' : c.stage ≠ .finished) :
      Move s (.throw k)
        { s.setCall k { c with stage := .finished } with
          completed := s.completed ++ [(k, .thrown)] }
  | arrivedInTime {r : Response} {k : ℕ} (hk : s.waiters r.id = some k) :
      Move s (.arrive r)
        { s with waiters := Function.update s.waiters r.id none
                 taken := s.taken ++ [(k, r)], arrived := s.arrived ++ [r] }
  | arrivedForNobody {r : Response} (hr : s.waiters r.id = none) :
      Move s (.arrive r) { s with arrived := s.arrived ++ [r] }
  | resultSet {i k : ℕ} {r : Response} (hi : s.taken[i]? = some (k, r)) :
      Move s (.setResult i)
        { s with
          taken := s.taken.eraseIdx i
          calls := s.calls.modify k (·.trySet (.result r)) }
  | finished {k : ℕ} {c : Call} {result : TaskResult}
      (hc : s.calls[k]? = some c)
      (hstage : c.stage = .awaiting) (hresult : c.tcs = some result) :
      Move s (.finish k)
        { s.setCall k { c with stage := .finished } with
          waiters := Function.update s.waiters c.id none
          completed := s.completed ++ [(k, .awaited result)] }

variable {s t : IpcClient} {a : Action} {k : ℕ} {c : Call}

theorem ofCall_eq_some {stages : List Stage} {f : Call → IpcClient} :
    s.ofCall k stages f = some t ↔
      ∃ c, s.calls[k]? = some c ∧ c.stage ∈ stages ∧ f c = t := by
  unfold ofCall
  cases s.calls[k]? with
  | none => simp
  | some c => simp

theorem move_advance {before after : Stage} (ha : ∀ k, a ≠ .throw k)
    (hbefore : before ≠ .numbered ∧ before ≠ .finished)
    (hafter : after ≠ .numbered ∧ after ≠ .finished)
    (h : s.advance k before after = some t) : Move s a t := by
  obtain ⟨c, hc, hstage, rfl⟩ := ofCall_eq_some.mp h
  obtain rfl := List.mem_singleton.mp hstage
  exact .went hc ⟨rfl, rfl, hbefore, hafter, fun _ h => h⟩ ha

/-- A timer or a token completes a source with no response. -/
theorem move_trySet {stages : List Stage} {result : TaskResult}
    (ha : ∀ k, a ≠ .throw k)
    (hstages : ∀ x ∈ stages, x ≠ .numbered ∧ x ≠ .finished)
    (hresult : ∀ r, result ≠ .result r)
    (h : s.ofCall k stages (fun c => s.setCall k (c.trySet result)) = some t) :
    Move s a t := by
  obtain ⟨c, hc, hstage, rfl⟩ := ofCall_eq_some.mp h
  refine .went hc ⟨rfl, rfl, hstages _ hstage, hstages _ hstage,
    fun r hr => ?_⟩ ha
  rcases Option.or_eq_some_iff.mp hr with htcs | ⟨-, heq⟩
  · exact htcs
  · exact absurd (Option.some.inj heq) (hresult r)

/-- **Every step is a move.** The conditions under which an action is possible
are dropped, except where a later proof asks for them. -/
theorem move_of_step (h : step s a = some t) : Move s a t := by
  cases a with
  | connect =>
    obtain rfl := Option.some.inj h
    exact .noCall true s.refused (fun _ => by simp)
  | dispose =>
    obtain rfl := Option.some.inj h
    exact .noCall false s.refused (fun _ => by simp)
  | start =>
    rw [step] at h
    split at h
    next => exact Option.some.inj h ▸ .started
    next =>
      exact Option.some.inj h ▸ .noCall s.connected (s.refused + 1)
        (fun _ => by simp)
  | register k =>
    obtain ⟨c, hc, hstage, rfl⟩ := ofCall_eq_some.mp h
    exact .registered hc (List.mem_singleton.mp hstage)
  -- four actions bring a call to its next stage and touch nothing else
  | serialize | write | watchToken | watchTimer =>
    exact move_advance (fun _ => by simp) (by decide) (by decide) h
  -- the exception ends the call and leaves the table as it is
  | throw k =>
    obtain ⟨c, hc, hstage, rfl⟩ := ofCall_eq_some.mp h
    have hstages : ∀ x ∈ [Stage.registered, .serialized, .written, .watching],
        x ≠ .numbered ∧ x ≠ .finished := by decide
    exact .threw hc (hstages _ hstage).1 (hstages _ hstage).2
  | cancel =>
    exact move_trySet (fun _ => by simp) (by decide) (fun _ => by simp) h
  | timeOut =>
    exact move_trySet (fun _ => by simp) (by decide) (fun _ => by simp) h
  | arrive r =>
    rw [step] at h
    split at h
    next k hk => exact Option.some.inj h ▸ .arrivedInTime hk
    next hr => exact Option.some.inj h ▸ .arrivedForNobody hr
  | setResult i =>
    rw [step] at h
    split at h
    next k r hi => exact Option.some.inj h ▸ .resultSet hi
    next => cases h
  | finish k =>
    rw [step] at h
    split at h
    next c hc =>
      split at h
      next result hstage hresult =>
        exact Option.some.inj h ▸ .finished hc hstage hresult
      next => cases h
    next => cases h

/-- **What a step keeps of the call at a position.** A stage is never taken
back, and what the call waits on changes only to a response that came in for
it. -/
structure Kept (s : IpcClient) (k : ℕ) (c c' : Call) : Prop where
  id : c'.id = c.id
  registered : c.stage ≠ .numbered → c'.stage ≠ .numbered ∧ c'.since = c.since
  finished : c.stage = .finished → c'.stage = .finished
  since : c'.since = c.since ∨ c'.since = s.arrived.length
  tcs :
    ∀ r, c'.tcs = some (.result r) → c.tcs = some (.result r) ∨ (k, r) ∈ s.taken

theorem Kept.same : Kept s k c c where
  id := rfl
  registered h := ⟨h, rfl⟩
  finished h := h
  since := .inl (rfl)
  tcs _ h := .inl h

/-- Another call at one position leaves the calls at the others. -/
theorem kept_set {i : ℕ} {d d' : Call} (hd : s.calls[i]? = some d)
    (hkept : Kept s i d d')
    (hc : s.calls[k]? = some c) :
    ∃ c', (s.calls.set i d')[k]? = some c' ∧ Kept s k c c' := by
  by_cases hik : i = k
  · subst hik
    obtain rfl := Option.some.inj (hd.symm.trans hc)
    exact ⟨d', List.getElem?_set_self (List.getElem?_eq_some_iff.mp hd).1,
      hkept⟩
  · exact ⟨c, by rw [List.getElem?_set_ne hik, hc], .same⟩

/-- **Every call stays where it is**, and a step keeps of it what it keeps.
Calls are added behind the others and never taken away, so that the position
of a call can stand for the call. -/
theorem Move.kept (hm : Move s a t) (hc : s.calls[k]? = some c) :
    ∃ c', t.calls[k]? = some c' ∧ Kept s k c c' := by
  cases hm with
  | noCall | arrivedInTime | arrivedForNobody => exact ⟨c, hc, .same⟩
  | started =>
    exact ⟨c, (List.getElem?_append_left
      (List.getElem?_eq_some_iff.mp hc).1).trans hc, .same⟩
  | registered hd hstage =>
    refine kept_set hd ⟨rfl, fun h => absurd hstage h, fun h => ?_, .inr (rfl),
      fun _ h => .inl h⟩ hc
    exact Stage.noConfusion (hstage.symm.trans h)
  | went hd hgoes =>
    exact kept_set hd ⟨hgoes.id, fun _ => ⟨hgoes.after.1, hgoes.since⟩,
      fun h => absurd h hgoes.before.2, .inl hgoes.since,
        fun r h => .inl (hgoes.tcs r h)⟩ hc
  | threw hd hstage =>
    exact kept_set hd ⟨rfl, fun _ => ⟨by simp, rfl⟩, fun _ => rfl,
      .inl (rfl), fun _ h => .inl h⟩ hc
  | finished hd hstage =>
    exact kept_set hd ⟨rfl, fun _ => ⟨by simp, rfl⟩, fun _ => rfl,
      .inl (rfl), fun _ h => .inl h⟩ hc
  | @resultSet i j r hi =>
    by_cases hjk : j = k
    · subst hjk
      refine ⟨c.trySet (.result r),
        by simp [hc], rfl, fun h => ⟨h, rfl⟩, fun h => h,
        .inl (rfl), fun r' htcs => ?_⟩
      rcases Option.or_eq_some_iff.mp htcs with hold | ⟨-, hnew⟩
      · exact .inl hold
      · obtain rfl := TaskResult.result.inj (Option.some.inj hnew)
        exact .inr (List.mem_of_getElem? hi)
    · exact ⟨c, by simp [hjk, hc], .same⟩

/-- A call is an old one, or it has just been made. -/
theorem Move.origin (hm : Move s a t) {c' : Call}
    (hc' : t.calls[k]? = some c') :
    (∃ c, s.calls[k]? = some c ∧ Kept s k c c') ∨
      k = s.calls.length ∧ c' = { id := int32OfInteger (s.nextId + 1) } := by
  rcases Nat.lt_or_ge k s.calls.length with hlt | hge
  · have hc : s.calls[k]? = some s.calls[k] := List.getElem?_eq_getElem hlt
    obtain ⟨c'', hc'', hkept⟩ := hm.kept hc
    obtain rfl := Option.some.inj (hc''.symm.trans hc')
    exact .inl ⟨_, hc, hkept⟩
  · have hlt' := (List.getElem?_eq_some_iff.mp hc').1
    cases hm with
    | started =>
      have hk : k = s.calls.length := by
        rw [List.length_append, List.length_singleton] at hlt'
        omega
      subst hk
      rw [List.getElem?_concat_length] at hc'
      exact .inr ⟨rfl, (Option.some.inj hc').symm⟩
    | noCall | arrivedInTime | arrivedForNobody =>
      exact absurd hlt' (Nat.not_lt.mpr hge)
    | _ =>
      simp only [setCall, List.length_set, List.length_modify] at hlt'
      exact absurd hlt' (Nat.not_lt.mpr hge)

/-- **Who is in the table** was there before, or has just been registered. The
second case is the registration, the only move that puts anything into the
table. -/
theorem Move.waiters (hm : Move s a t) {id : ℤ} (hk : t.waiters id = some k) :
    s.waiters id = some k ∨ ∃ c, s.calls[k]? = some c ∧
      c.stage = .numbered ∧ c.id = id ∧
      ∃ c', t.calls[k]? = some c' ∧ c'.stage ≠ .numbered := by
  have hremoved : ∀ {i : ℤ}, Function.update s.waiters i none id = some k →
      s.waiters id = some k := by
    intro i hupdate
    by_cases hid : id = i
    · rw [hid, Function.update_self] at hupdate
      cases hupdate
    · rwa [Function.update_of_ne hid] at hupdate
  cases hm with
  | @registered i c hc hstage =>
    change Function.update s.waiters c.id (some i) id = some k at hk
    by_cases hid : id = c.id
    · rw [hid, Function.update_self] at hk
      obtain rfl := Option.some.inj hk
      exact .inr ⟨c, hc, hstage, hid.symm, _,
        List.getElem?_set_self (List.getElem?_eq_some_iff.mp hc).1, by simp⟩
    · rw [Function.update_of_ne hid] at hk
      exact .inl hk
  | arrivedInTime | finished => exact .inl (hremoved hk)
  | _ => exact .inl hk

/-- What arrived stays in its place. -/
theorem Move.arrived (hm : Move s a t) {j : ℕ} {r : Response}
    (h : s.arrived[j]? = some r) :
    t.arrived[j]? = some r := by
  cases hm with
  | arrivedInTime | arrivedForNobody =>
    exact (List.getElem?_append_left (List.getElem?_eq_some_iff.mp h).1).trans h
  | _ => exact h

/-- A call that completes in a step: it was not over and is over now, the
response it returns is the one its source was completed with, and its id is not
in the table any more unless it threw. -/
structure Completes (s : IpcClient) (a : Action) (t : IpcClient) (k : ℕ)
    (o : Completion)
    (c : Call) : Prop where
  before : s.calls[k]? = some c
  running : c.stage ≠ .numbered ∧ c.stage ≠ .finished
  tcs : ∀ r, o = .awaited (.result r) → c.tcs = some (.result r)
  after : ∃ c', t.calls[k]? = some c' ∧ c'.stage = .finished
  gone : a = .throw k ∨ t.waiters c.id = none

/-- **What a step adds to the calls that completed**: nothing, or one call. So
a call that has completed stays so with its outcome, and what is proved of the
last one is proved of all. -/
theorem Move.completed (hm : Move s a t) :
    t.completed = s.completed ∨ ∃ k o c, t.completed = s.completed ++ [(k, o)] ∧
      Completes s a t k o c := by
  cases hm with
  | @threw k c hc hstage hstage' =>
    exact .inr ⟨k, .thrown, c, rfl, hc, ⟨hstage, hstage'⟩,
      fun _ heq => Completion.noConfusion heq,
      ⟨_, List.getElem?_set_self (List.getElem?_eq_some_iff.mp hc).1, rfl⟩,
      .inl rfl⟩
  | @finished k c result hc hstage hresult =>
    refine .inr ⟨k, .awaited result, c, rfl, hc,
      by rw [hstage]; decide, fun r heq => ?_,
      ⟨_, List.getElem?_set_self (List.getElem?_eq_some_iff.mp hc).1, rfl⟩,
      .inr (Function.update_self _ _ _)⟩
    rw [hresult, Completion.awaited.inj heq]
  | _ => exact .inl rfl

/-- A call that completed did so before, or completes in the step. -/
theorem Move.mem_completed (hm : Move s a t) {o : Completion}
    (hmem : (k, o) ∈ t.completed) :
    (k, o) ∈ s.completed ∨ ∃ c, Completes s a t k o c := by
  rcases hm.completed with heq | ⟨k', o', c, heq, hcompletes⟩
  · exact .inl (heq ▸ hmem)
  · rcases List.mem_append.mp (heq ▸ hmem) with hold | hnew
    · exact .inl hold
    · obtain ⟨rfl, rfl⟩ := Prod.mk.inj (List.mem_singleton.mp hnew)
      exact .inr ⟨c, hcompletes⟩

/-- **An answer stays an answer.** It says that the response arrived behind
the registration, and what arrives later does not change where it stands. -/
theorem Answers.step {r : Response} (h : s.Answers k r) (hm : Move s a t) :
    t.Answers k r := by
  obtain ⟨c, hc, hstage, hid, j, hsince, hj⟩ := h
  obtain ⟨c', hc', hkept⟩ := hm.kept hc
  obtain ⟨hstage', hsince'⟩ := hkept.registered hstage
  exact ⟨c', hc', hstage', hid.trans hkept.id.symm, j, hsince' ▸ hsince,
    hm.arrived hj⟩

/-! ## The invariant

Everything that the client keeps leads to a call: an id in the table, a
response that was taken out of it, a source that was completed. The links are
what each step keeps, and that a call completes once with its own response
follows from them. -/

/-- **Everything is linked to its call**: the ids are counted, the table and
what was taken out of it lead to calls that are registered, and every response
on its way to a call answers it. -/
structure Linked (s : IpcClient) : Prop where
  nextId : s.nextId = int32OfInteger s.calls.length
  ids :
    ∀ (k : ℕ) (c : Call), s.calls[k]? = some c → c.id = int32OfInteger (k + 1)
  since :
    ∀ (k : ℕ) (c : Call), s.calls[k]? = some c → c.since ≤ s.arrived.length
  waiting : ∀ (id : ℤ) (k : ℕ), s.waiters id = some k →
    ∃ c, s.calls[k]? = some c ∧ c.stage ≠ .numbered ∧ c.id = id
  taken : ∀ k r, (k, r) ∈ s.taken → s.Answers k r
  set : ∀ (k : ℕ) (c : Call) (r : Response), s.calls[k]? = some c →
    c.tcs = some (.result r) →
    s.Answers k r
  completed : ∀ k o, (k, o) ∈ s.completed → ∃ c,
    s.calls[k]? = some c ∧ c.stage = .finished
  own : ∀ k r, (k, .awaited (.result r)) ∈ s.completed → s.Answers k r
  once : (s.completed.map Prod.fst).Nodup

theorem int32OfInteger_add_one (n : ℤ) :
    int32OfInteger (int32OfInteger n + 1) = int32OfInteger (n + 1) :=
  Int.bmod_add_bmod

theorem linked_empty : ({} : IpcClient).Linked := by
  constructor <;> simp [int32OfInteger]

namespace Linked

variable (h : s.Linked) (hm : Move s a t)

include h hm

theorem nextId_step : t.nextId = int32OfInteger t.calls.length := by
  cases hm with
  | started =>
    show int32OfInteger (s.nextId + 1) = _
    rw [h.nextId, int32OfInteger_add_one, List.length_append]
    rfl
  | noCall | arrivedInTime | arrivedForNobody => exact h.nextId
  | _ =>
    simp only [setCall, List.length_set, List.length_modify]
    exact h.nextId

theorem ids_step : ∀ (k : ℕ) (c : Call), t.calls[k]? = some c →
    c.id = int32OfInteger (k + 1) := by
  intro k c' hc'
  rcases hm.origin hc' with ⟨c, hc, hkept⟩ | ⟨rfl, rfl⟩
  · exact hkept.id.trans (h.ids k c hc)
  · show int32OfInteger (s.nextId + 1) = _
    rw [h.nextId, int32OfInteger_add_one]

theorem since_step : ∀ (k : ℕ) (c : Call), t.calls[k]? = some c →
    c.since ≤ t.arrived.length := by
  intro k c' hc'
  have hmono : s.arrived.length ≤ t.arrived.length := by
    cases hm with
    | arrivedInTime | arrivedForNobody => simp
    | _ => exact le_rfl
  rcases hm.origin hc' with ⟨c, hc, hkept⟩ | ⟨-, rfl⟩
  · rcases hkept.since with hsince | hsince
    · exact hsince ▸ (h.since k c hc).trans hmono
    · exact hsince ▸ hmono
  · exact Nat.zero_le _

theorem waiting_step : ∀ (id : ℤ) (k : ℕ), t.waiters id = some k →
    ∃ c, t.calls[k]? = some c ∧ c.stage ≠ .numbered ∧ c.id = id := by
  intro id k hk
  rcases hm.waiters hk with hold | ⟨c, hc, -, hid, c', hc', hstage'⟩
  · obtain ⟨c, hc, hstage, hid⟩ := h.waiting id k hold
    obtain ⟨c', hc', hkept⟩ := hm.kept hc
    exact ⟨c', hc', (hkept.registered hstage).1, hkept.id.trans hid⟩
  · obtain ⟨c'', hc'', hkept⟩ := hm.kept hc
    obtain rfl := Option.some.inj (hc'.symm.trans hc'')
    exact ⟨c', hc', hstage', hkept.id.trans hid⟩

/-- What a pump takes out of the table answers the call it belongs to. -/
theorem taken_step : ∀ k r, (k, r) ∈ t.taken → t.Answers k r := by
  intro k r hmem
  have hold : (k, r) ∈ s.taken → t.Answers k r :=
    fun hold => (h.taken k r hold).step hm
  cases hm with
  | @arrivedInTime r' k' hk =>
    rcases List.mem_append.mp hmem with hin | hnew
    · exact hold hin
    · obtain ⟨rfl, rfl⟩ := Prod.mk.inj (List.mem_singleton.mp hnew)
      obtain ⟨c, hc, hstage, hid⟩ := h.waiting _ _ hk
      exact ⟨c, hc, hstage, hid.symm, s.arrived.length, h.since k c hc,
        List.getElem?_concat_length⟩
  | resultSet => exact hold (List.mem_of_mem_eraseIdx hmem)
  | _ => exact hold hmem

theorem set_step : ∀ (k : ℕ) (c : Call) (r : Response), t.calls[k]? = some c →
    c.tcs = some (.result r) → t.Answers k r := by
  intro k c' r hc' htcs
  rcases hm.origin hc' with ⟨c, hc, hkept⟩ | ⟨-, rfl⟩
  · rcases hkept.tcs r htcs with hset | htaken
    · exact (h.set k c r hc hset).step hm
    · exact (h.taken k r htaken).step hm
  · cases htcs

theorem completed_step : ∀ k o, (k, o) ∈ t.completed →
    ∃ c, t.calls[k]? = some c ∧ c.stage = .finished := by
  intro k o hmem
  rcases hm.mem_completed hmem with hold | ⟨c, hcompletes⟩
  · obtain ⟨c, hc, hstage⟩ := h.completed k o hold
    obtain ⟨c', hc', hkept⟩ := hm.kept hc
    exact ⟨c', hc', hkept.finished hstage⟩
  · exact hcompletes.after

theorem own_step :
    ∀ k r, (k, .awaited (.result r)) ∈ t.completed → t.Answers k r := by
  intro k r hmem
  rcases hm.mem_completed hmem with hold | ⟨c, hcompletes⟩
  · exact (h.own k r hold).step hm
  · exact (h.set k c r hcompletes.before (hcompletes.tcs r rfl)).step hm

/-- A call that is over does not complete again. -/
theorem once_step : (t.completed.map Prod.fst).Nodup := by
  rcases hm.completed with heq | ⟨k, o, c, heq, hcompletes⟩
  · exact heq ▸ h.once
  · rw [heq, List.map_append, List.map_cons, List.map_nil, List.nodup_append]
    refine ⟨h.once, by simp, fun k₁ hk₁ k₂ hk₂ heq' => ?_⟩
    obtain rfl := List.mem_singleton.mp hk₂
    obtain ⟨⟨k', o'⟩, hmem, rfl⟩ := List.mem_map.mp hk₁
    obtain rfl : k' = k₂ := heq'
    obtain ⟨c', hc', hstage⟩ := h.completed k' o' hmem
    obtain rfl := Option.some.inj (hc'.symm.trans hcompletes.before)
    exact hcompletes.running.2 hstage

/-- **Every step keeps everything linked.** -/
theorem step : t.Linked where
  nextId := h.nextId_step hm
  ids := h.ids_step hm
  since := h.since_step hm
  waiting := h.waiting_step hm
  taken := h.taken_step hm
  set := h.set_step hm
  completed := h.completed_step hm
  own := h.own_step hm
  once := h.once_step hm

end Linked

/-! ## Ids

With fewer than `2 ^ 32` calls no two have the same id. Beyond that an id
comes round again, and if the first call with it is still waiting the second
one takes its place in the table. The results are therefore about runs with
fewer calls. -/

/-- Fewer than `2 ^ 32` calls have different ids. -/
theorem int32OfInteger_inj {m n : ℕ} (hm : m < 2 ^ 32) (hn : n < 2 ^ 32)
    (h : int32OfInteger m = int32OfInteger n) : m = n := by
  have hmod : (m : ℤ) % (2 ^ 32 : ℕ) = (n : ℤ) % (2 ^ 32 : ℕ) := by
    rw [← @Int.bmod_emod m, ← @Int.bmod_emod n]
    exact congrArg (· % ((2 ^ 32 : ℕ) : ℤ)) h
  omega

/-- The calls made so far are fewer than the ids there are. -/
def Few (s : IpcClient) : Prop := s.calls.length < 2 ^ 32

instance (s : IpcClient) : Decidable s.Few :=
  inferInstanceAs (Decidable (_ < _))

theorem Move.length_le (hm : Move s a t) : s.calls.length ≤ t.calls.length := by
  by_contra hlt
  have hlast : s.calls[t.calls.length]? = some s.calls[t.calls.length] :=
    List.getElem?_eq_getElem (Nat.not_le.mp hlt)
  obtain ⟨c', hc', -⟩ := hm.kept hlast
  exact absurd (List.getElem?_eq_some_iff.mp hc').1 (Nat.lt_irrefl _)

theorem Linked.eq_of_id_eq (h : s.Linked) (hfew : s.Few) {i : ℕ} {d : Call}
    (hc : s.calls[k]? = some c) (hd : s.calls[i]? = some d)
    (hid : c.id = d.id) : k = i := by
  have hk := (List.getElem?_eq_some_iff.mp hc).1
  have hi := (List.getElem?_eq_some_iff.mp hd).1
  have hfew' : s.calls.length < 2 ^ 32 := hfew
  rw [h.ids k c hc, h.ids i d hd] at hid
  have heq : k + 1 = i + 1 := int32OfInteger_inj (by omega) (by omega) hid
  omega

/-! ## Every run

A call that throws before it gets to its `await` leaves its id in the table,
unless a response has taken it out by then, since only the `finally` block
does so otherwise. Nothing else breaks the pairing. So a run keeps it exactly
if no step of it leaves an id behind. -/

/-- **What throws leaves nothing behind**: the id of a call that throws before
its `await` is not in the table any more, because a response with it has
arrived. -/
def CleansUp (s : IpcClient) (a : Action) : Prop :=
  ∀ (k : ℕ) (c : Call), a = .throw k → s.calls[k]? = some c →
    s.waiters c.id = none

theorem paired_of_gone (h : s.Linked)
    (hgone : ∀ k o c, (k, o) ∈ s.completed → s.calls[k]? = some c →
      s.waiters c.id = none) :
    s.Paired := ⟨h.once, h.own, hgone⟩

/-- **A step keeps calls and responses paired** exactly if it cleans up.
Cleaning up is a condition on one action only, the exception of a call: it may
not leave the identifier of the call in the table. -/
theorem paired_step_iff (h : s.Linked) (hpaired : s.Few → s.Paired)
    (hstep : IpcClient.step s a = some t) :
    (t.Few → t.Paired) ↔ (s.Few → s.CleansUp a) := by
  have hm := move_of_step hstep
  constructor
  · rintro hafter hfew k c rfl hc
    cases hm with
    | noCall _ _ ha => exact absurd rfl (ha k)
    | went _ _ ha => exact absurd rfl (ha k)
    | @threw _ d hd =>
      obtain rfl := Option.some.inj (hc.symm.trans hd)
      have hfew' : (s.calls.set k { c with stage := .finished }).length
          < 2 ^ 32 := by
        rw [List.length_set]
        exact hfew
      exact (hafter hfew').gone k .thrown { c with stage := .finished }
        (List.mem_append_right _ (List.mem_singleton_self _))
        (List.getElem?_set_self (List.getElem?_eq_some_iff.mp hc).1)
  · intro hclean hfew'
    have hfew : s.Few := Nat.lt_of_le_of_lt hm.length_le hfew'
    refine paired_of_gone (h.step hm) (fun k o c' hmem hc' => ?_)
    by_contra hne
    obtain ⟨i, hi⟩ := Option.ne_none_iff_exists'.mp hne
    -- the call that completed had its id before, was registered, and is not in
    -- the table
    obtain ⟨c, hc, hstage, hgone⟩ : ∃ c,
        s.calls[k]? = some c ∧ c.stage ≠ .numbered ∧
        (s.waiters c.id = none ∨ t.waiters c.id = none) := by
      rcases hm.mem_completed hmem with hold | ⟨c, hcompletes⟩
      · obtain ⟨c, hc, hstage⟩ := h.completed k o hold
        exact ⟨c, hc,
          by simp [hstage], .inl ((hpaired hfew).gone k o c hold hc)⟩
      · exact ⟨c, hcompletes.before, hcompletes.running.1,
          hcompletes.gone.imp_left
            (fun ha => hclean hfew k c ha hcompletes.before)⟩
    obtain ⟨c'', hc'', hkept⟩ := hm.kept hc
    obtain rfl := Option.some.inj (hc'.symm.trans hc'')
    rw [hkept.id] at hi
    rcases hgone with hgone | hgone
    · rcases hm.waiters hi with hold | ⟨d, hd, hnumbered, hid', -⟩
      · rw [hgone] at hold
        cases hold
      · -- an id that is registered is not that of an older call
        obtain rfl := h.eq_of_id_eq hfew hd hc hid'
        obtain rfl := Option.some.inj (hd.symm.trans hc)
        exact hstage hnumbered
    · rw [hgone] at hi
      cases hi

/-- **Every state of every run pairs calls and responses** exactly if every
step cleans up. The condition on the steps is asked at the states they are
taken in, with nothing about the states behind them. -/
theorem paired_everywhere_iff (actions : List Action) :
    Runs.Everywhere IpcClient.step (fun s => s.Few → s.Paired) {} actions ↔
      Runs.Guarded IpcClient.step (fun s a => s.Few →
        s.CleansUp a) {} actions :=
  Runs.everywhere_iff_guarded_of_invariant
    (fun _ _ _ h hstep => h.step (move_of_step hstep))
    (fun _ _ _ h hpaired hstep => paired_step_iff h hpaired hstep) linked_empty
    (fun _ => paired_of_gone linked_empty (by simp))

/-- The write of the first call throws, and its id stays in the table. -/
theorem paired_everywhere_throwingWrite_false :
    ¬ Runs.Everywhere IpcClient.step (fun s => s.Few → s.Paired) {}
      [.connect, .start, .register 0, .serialize 0, .throw 0] := by
  intro h
  have hpaired := Runs.everywhere_head
    ((((((h.2 _ rfl).2 _ rfl).2 _ rfl).2 _ rfl).2) _ rfl) (by decide)
  exact absurd (hpaired.gone 0 .thrown _ List.mem_cons_self rfl) (by decide)

end IpcClient

end WebcamStreamer
