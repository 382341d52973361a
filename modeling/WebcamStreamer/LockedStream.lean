import Mathlib.Data.List.Basic
import Mathlib.Logic.Function.Basic

/-!
# Streams that are written under one lock

Several writers share one lock. Whoever has it takes a message and writes its
text to a connection, which transfers it piece by piece, as much at a time as it
likes. Connections are opened and closed meanwhile, and a write to one that is
closed fails, wherever it is. A writer may also find no connection, and drop its
message.

Whatever happens, what has been transferred on a connection is a prefix of the
texts of messages, one after the other (`Sound`): no text is torn apart by
another one. Each connection has its messages in the order in which the lock was
taken, none of them twice.
-/

namespace LockedStream

/-- A connection is opened at most once. -/
inductive Phase where
  | unused
  | opened
  | closed
  deriving DecidableEq

variable {Conn Message α : Type}

/-- The writer that has the lock: its message, and the connection it writes to
with what is not transferred yet, once it has one. -/
structure Writing (Conn Message α : Type) where
  message : Message
  target : Option (Conn × List α) := none

/-- The connections and the writer. -/
structure State (Conn Message α : Type) where
  writing : Option (Writing Conn Message α) := none
  phase : Conn → Phase := fun _ => .unused
  /-- What a connection has transferred. -/
  stream : Conn → List α := fun _ => []
  /-- The messages that a connection was given to transfer. -/
  sent : Conn → List Message := fun _ => []
  /-- The messages that were taken under the lock. -/
  taken : List Message := []

/-- What happens. -/
inductive Action (Conn Message : Type) where
  | connect (c : Conn)
  | close (c : Conn)
  /-- A writer takes the lock. -/
  | take (m : Message)
  /-- It finds no connection. -/
  | drop
  /-- It begins to write to a connection. -/
  | issue (c : Conn)
  /-- A piece is transferred. -/
  | transfer (n : ℕ)
  /-- Everything is transferred, and the lock is released. -/
  | finish
  /-- The connection is gone, and the lock is released. -/
  | fail

variable [DecidableEq Conn]

/-- One step; `none` is one that is not possible. -/
def step (text : Message → List α) (s : State Conn Message α) :
    Action Conn Message → Option (State Conn Message α)
  | .connect c =>
    if s.phase c = .unused then
      some { s with phase := Function.update s.phase c .opened }
    else none
  | .close c => some { s with phase := Function.update s.phase c .closed }
  | .take m =>
    match s.writing with
    | none =>
      some { s with writing := some { message := m }, taken := s.taken ++ [m] }
    | some _ => none
  | .drop =>
    match s.writing with
    | some ⟨_, none⟩ => some { s with writing := none }
    | _ => none
  | .issue c =>
    match s.writing with
    | some ⟨m, none⟩ =>
      if s.phase c = .opened then
        some { s with writing := some ⟨m, some (c, text m)⟩
                      sent := Function.update s.sent c (s.sent c ++ [m]) }
      else none
    | _ => none
  -- what is transferred is whatever the connection takes at a time
  | .transfer n =>
    match s.writing with
    | some ⟨m, some (c, rest)⟩ =>
      if s.phase c = .opened then
        some { s with
          writing := some ⟨m, some (c, rest.drop n)⟩
          stream := Function.update s.stream c (s.stream c ++ rest.take n) }
      else none
    | _ => none
  | .finish =>
    match s.writing with
    | some ⟨_, some (_, [])⟩ => some { s with writing := none }
    | _ => none
  -- only a connection that is closed makes a write fail
  | .fail =>
    match s.writing with
    | some ⟨_, some (c, _)⟩ =>
      if s.phase c = .closed then some { s with writing := none } else none
    | _ => none

namespace State

/-- What is still to be transferred on a connection. -/
def rest (s : State Conn Message α) (c : Conn) : List α :=
  match s.writing with
  | some ⟨_, some (d, r)⟩ => if d = c then r else []
  | _ => []

/-- The message that was taken under the lock and has no connection yet. -/
def pending (s : State Conn Message α) : List Message :=
  match s.writing with
  | some ⟨m, none⟩ => [m]
  | _ => []

end State

/-- **The streams are sound.** While somebody holds the lock, a message can be
there in part, which is what the rest of the stream accounts for. -/
structure Sound (text : Message → List α) (s : State Conn Message α) :
    Prop where
  /-- What is transferred, and is still to be, are texts of messages, and all of
  them as long as the connection is open. -/
  texts : ∀ c, s.stream c ++ s.rest c <+: (s.sent c).flatMap text
  whole :
    ∀ c, s.phase c = .opened → s.stream c ++ s.rest c = (s.sent c).flatMap text
  /-- Nothing has happened on a connection before it is opened. -/
  unused : ∀ c, s.phase c = .unused → s.sent c = []
  /-- Messages are in their order. -/
  order : ∀ c, (s.sent c ++ s.pending).Sublist s.taken

theorem sound_empty (text : Message → List α) :
    Sound text ({} : State Conn Message α) where
  texts _ := List.nil_prefix
  whole _ h := by cases h
  unused _ _ := rfl
  order _ := List.Sublist.refl _

variable {text : Message → List α} {s t : State Conn Message α}

/-- A connection is opened when nothing has happened on it, or closed. -/
theorem Sound.setPhase (h : Sound text s) {c : Conn} {phase : Phase}
    (hne : phase ≠ .unused)
    (hopened : phase = .opened → s.phase c = .unused) :
    Sound text { s with phase := Function.update s.phase c phase } where
  texts := h.texts
  whole d hd := by
    have hphase : (if d = c then phase else s.phase d) = .opened :=
      (Function.update_apply s.phase c phase d).symm.trans hd
    split at hphase
    next hdc =>
      have hnone : (s.sent d).flatMap text = [] := by
        rw [h.unused d (hdc ▸ hopened hphase)]
        rfl
      exact (List.eq_nil_of_prefix_nil (hnone ▸ h.texts d)).trans hnone.symm
    next => exact h.whole d hphase
  unused d hd := by
    have hphase : (if d = c then phase else s.phase d) = .unused :=
      (Function.update_apply s.phase c phase d).symm.trans hd
    split at hphase
    next => exact absurd hphase hne
    next => exact h.unused d hphase
  order := h.order

/-- A writer that has written everything, or cannot go on, releases the lock. -/
theorem Sound.release (h : Sound text s) {m : Message}
    {target : Option (Conn × List α)}
    (hw : s.writing = some ⟨m, target⟩)
    (hrest : ∀ c r, target = some (c, r) → r = [] ∨ s.phase c = .closed) :
    Sound text { s with writing := none } where
  texts c :=
    (List.append_nil (s.stream c)).symm ▸ (List.prefix_append _ _).trans
      (h.texts c)
  whole c hc := by
    have hnone : s.rest c = [] := by
      unfold State.rest
      rw [hw]
      cases target with
      | none => rfl
      | some p =>
        obtain ⟨d, r⟩ := p
        dsimp only
        split
        next hdc =>
          rcases hrest d r rfl with rfl | hclosed
          · rfl
          · rw [hdc, hc] at hclosed
            cases hclosed
        next => rfl
    have hwhole := h.whole c hc
    rwa [hnone] at hwhole
  unused := h.unused
  order c := by
    show List.Sublist (s.sent c ++ []) s.taken
    rw [List.append_nil]
    exact (List.sublist_append_left _ _).trans (h.order c)

/-- A writer takes the lock. -/
theorem Sound.take (h : Sound text s) (hw : s.writing = none) (m : Message) :
    Sound text { s with
      writing := some { message := m }, taken := s.taken ++ [m] } where
  texts c := by
    have htexts := h.texts c
    rw [State.rest, hw] at htexts
    exact htexts
  whole c hc := by
    have hwhole := h.whole c hc
    rw [State.rest, hw] at hwhole
    exact hwhole
  unused := h.unused
  order c := by
    have hpending : s.pending = [] := by rw [State.pending, hw]
    have horder := h.order c
    rw [hpending, List.append_nil] at horder
    exact horder.append (List.Sublist.refl [m])

/-- A writer begins to write to a connection: its message is given to it. -/
theorem Sound.issue (h : Sound text s) {m : Message}
    (hw : s.writing = some ⟨m, none⟩) {c : Conn}
    (hc : s.phase c = .opened) :
    Sound text { s with
      writing := some ⟨m, some (c, text m)⟩
      sent := Function.update s.sent c (s.sent c ++ [m]) } := by
  have hrest : ∀ d, s.rest d = [] := fun d => by rw [State.rest, hw]
  have hpending : s.pending = [m] := by rw [State.pending, hw]
  -- nothing was left of the message before, so that the new one begins where
  -- its text does
  have hwhole : s.stream c ++ text m = (s.sent c ++ [m]).flatMap text := by
    have hold := h.whole c hc
    rw [hrest, List.append_nil] at hold
    rw [List.flatMap_append, ← hold, List.flatMap_singleton]
  refine ⟨fun d => ?_, fun d hd => ?_, fun d hd => ?_, fun d => ?_⟩
  · show s.stream d ++ (if c = d then text m else [])
      <+: (Function.update s.sent c (s.sent c ++ [m]) d).flatMap text
    by_cases hdc : d = c
    · refine ⟨[], ?_⟩
      rw [List.append_nil, hdc, if_pos rfl, Function.update_self, hwhole]
    · rw [if_neg (Ne.symm hdc), Function.update_of_ne hdc, ← hrest d]
      exact h.texts d
  · show s.stream d ++ (if c = d then text m else [])
      = (Function.update s.sent c (s.sent c ++ [m]) d).flatMap text
    by_cases hdc : d = c
    · rw [hdc, if_pos rfl, Function.update_self, hwhole]
    · rw [if_neg (Ne.symm hdc), Function.update_of_ne hdc, ← hrest d]
      exact h.whole d hd
  · show Function.update s.sent c _ d = []
    have hdc : d ≠ c := by
      rintro rfl
      rw [hc] at hd
      cases hd
    rw [Function.update_of_ne hdc]
    exact h.unused d hd
  · show List.Sublist (Function.update s.sent c _ d ++ []) s.taken
    have horder := h.order d
    rw [hpending] at horder
    rw [List.append_nil]
    by_cases hdc : d = c
    · rw [hdc, Function.update_self]
      exact hdc ▸ horder
    · rw [Function.update_of_ne hdc]
      exact (List.sublist_append_left _ _).trans horder

/-- A piece is transferred: it is no longer to be transferred. -/
theorem Sound.transfer (h : Sound text s) {m : Message} {c : Conn}
    {rest : List α}
    (hw : s.writing = some ⟨m, some (c, rest)⟩) (n : ℕ) :
    Sound text { s with
      writing := some ⟨m, some (c, rest.drop n)⟩
      stream := Function.update s.stream c
        (s.stream c ++ rest.take n) } := by
  have hkept : ∀ d, Function.update s.stream c (s.stream c ++ rest.take n) d
      ++ (if c = d then rest.drop n else []) = s.stream d ++ s.rest d := by
    intro d
    by_cases hdc : d = c
    · rw [hdc, Function.update_self, if_pos rfl, State.rest, hw,
        List.append_assoc,
        List.take_append_drop]
      dsimp only
      rw [if_pos rfl]
    · rw [Function.update_of_ne hdc, if_neg (Ne.symm hdc), State.rest, hw]
      dsimp only
      rw [if_neg (Ne.symm hdc)]
  have hpending : s.pending = [] := by rw [State.pending, hw]
  refine ⟨fun d => ?_, fun d hd => ?_, h.unused, fun d => ?_⟩
  · show Function.update s.stream c _ d ++ (if c = d then _ else []) <+: _
    rw [hkept]
    exact h.texts d
  · show Function.update s.stream c _ d ++ (if c = d then _ else []) = _
    rw [hkept]
    exact h.whole d hd
  · show List.Sublist (s.sent d ++ []) s.taken
    exact hpending ▸ h.order d

/-- **Every step leaves the streams sound.** Only the holder of the lock adds
to a stream, and it begins with a new message where the last one was
complete. -/
theorem Sound.step (h : Sound text s) {a : Action Conn Message}
    (ht : LockedStream.step text s a = some t) : Sound text t := by
  unfold LockedStream.step at ht
  split at ht
  next c =>
    split at ht
    next hc =>
      obtain rfl := Option.some.inj ht
      exact h.setPhase (by decide) (fun _ => hc)
    next => cases ht
  next c =>
    obtain rfl := Option.some.inj ht
    exact h.setPhase (by decide) (fun heq => by cases heq)
  -- whoever takes a message has the lock until it gives it back
  next m =>
    split at ht
    next hw =>
      obtain rfl := Option.some.inj ht
      exact h.take hw m
    next => cases ht
  next =>
    split at ht
    next hw =>
      obtain rfl := Option.some.inj ht
      exact h.release hw (fun c r hr => by cases hr)
    next => cases ht
  next c =>
    split at ht
    next hw =>
      split at ht
      next hc =>
        obtain rfl := Option.some.inj ht
        exact h.issue hw hc
      next => cases ht
    next => cases ht
  next n =>
    split at ht
    next hw =>
      split at ht
      next =>
        obtain rfl := Option.some.inj ht
        exact h.transfer hw n
      next => cases ht
    next => cases ht
  next =>
    split at ht
    next hw =>
      obtain rfl := Option.some.inj ht
      exact h.release hw (fun c r hr =>
        .inl (Prod.mk.inj (Option.some.inj hr)).2.symm)
    next => cases ht
  next =>
    split at ht
    next hw =>
      split at ht
      next hc =>
        obtain rfl := Option.some.inj ht
        refine h.release hw (fun c r hr => .inr ?_)
        rw [← (Prod.mk.inj (Option.some.inj hr)).1]
        exact hc
      next => cases ht
    next => cases ht

end LockedStream
