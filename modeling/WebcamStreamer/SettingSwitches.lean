import Mathlib.Logic.Function.Basic
import WebcamStreamer.SettingsUpdates

/-!
# The switches of the settings

Whether there are notifications is switched in two places, at a check box of the
window and at an item of the tray menu, and the window has two more boxes, for
the start on logon and for cameras that are new. The boxes are loaded once. A
click of any of them compares all three with the settings in memory, saves,
waits for the supervisor to reload – and only then brings the menu item in line,
and the entry in the registry. The item is never compared with anything: a click
of it is written to memory and saved, and no box hears of it.

What is in effect is not in one place. The host asks its own settings whether to
notify, and Windows asks the registry; what becomes of a camera that is new is
up to the settings of the supervisor. These change only when it serves
`reload-settings`, and then to what `settings.json` says at that time. The host
does not wait for that beyond a timeout: what it takes for an answer may be an
exception, while the request is still to be served.

So two things can come between a choice and what becomes of it: a box that shows
an old value, which a click of its neighbour saves again, and an answer that
arrives late and says something else, which undoes what was chosen in the
meantime. Nothing else can.
-/

namespace WebcamStreamer

/-! ## The boxes and the item

There are three boxes in the window and an item in the menu, which sets the
same value as one of the boxes. A click saves at once and asks the supervisor
to load the settings; what else it does waits for the answer, and several
answers can be awaited at a time. -/

/-- The check boxes of the window. -/
inductive SettingsBox where
  | notifications
  | autostart
  | streamByDefault
  deriving DecidableEq

/-- A value for each box. -/
abbrev Choices := SettingsBox → Bool

/-- The settings of the host and what shows them, and what the supervisor has of
them. -/
structure Switches where
  settings : HostSettings
  file : JsonFile
  /-- `AutostartHelper.IsEnabled`. -/
  runKey : Bool
  /-- The item `Notifications`, once the icon was made. -/
  tray : Option Bool := none
  /-- The check boxes, once the window was loaded. -/
  boxes : Option Choices := none
  /-- What the boxes showed where `Settings_Changed_Inline` waits for an answer,
  in the order of the requests. -/
  awaiting : List Choices := []
  /-- The `default_enabled_for_new_cameras` of the supervisor. -/
  served : Bool
  /-- The requests `reload-settings` that the supervisor has still to serve. -/
  requests : ℕ := 0
  /-- What the user chose last for each of the three. -/
  chosen : Choices

/-- What happens, with what becomes of the write of `settings.json` and whether
the registry can be written. -/
inductive SwitchAction where
  | trayMade
  | trayClicked (write : WriteOutcome)
  /-- `MainWindow_Loaded`. -/
  | windowLoaded
  | boxClicked (box : SettingsBox) (write : WriteOutcome) (registry : Bool)
  /-- The request of a click is over for the host, with an answer or with an
  exception. -/
  | answered (i : ℕ) (write : WriteOutcome) (registry : Bool)
  /-- The supervisor serves a request. -/
  | reloaded
  /-- A request does not reach the supervisor, or cannot be served. -/
  | lost

namespace Switches

/-- What is in effect: for the notifications of the host, for Windows at a
logon, and for the supervisor at a new camera. -/
def inEffect (s : Switches) : Choices
  | .notifications => s.settings.notificationsEnabled
  | .autostart => s.runKey
  | .streamByDefault => s.served

/-- `LoadSettingsIntoCheckboxes`. -/
def loadSettingsIntoCheckboxes (s : Switches) : Choices
  | .notifications => s.settings.notificationsEnabled
  | .autostart => s.runKey
  | .streamByDefault => s.settings.defaultEnabledForNewCameras

/-- What the supervisor reads in `settings.json` for new cameras. -/
def fileDefault (s : Switches) : Bool :=
  (Settings.ofFile s.file).defaultEnabledForNewCameras

/-- `reload-settings` is sent. -/
def request (s : Switches) : Switches := { s with requests := s.requests + 1 }

/-- Other answers are awaited. -/
def withAwaiting (answers : List Choices) (s : Switches) : Switches :=
  { s with awaiting := answers }

/-- `HostSettings.Save` with new settings in memory. -/
def save (settings : HostSettings) (write : WriteOutcome) (s : Switches) :
    Switches :=
  { s with settings, file := write.json s.file settings.toJson }

/-- The handler of `NotificationsToggled`. -/
def notificationsToggled (on : Bool) (write : WriteOutcome) (s : Switches) :
    Switches :=
  (s.save { s.settings with notificationsEnabled := on } write).request

/-- `SyncTrayNotificationToggle`. Setting the item raises the event of a
click. -/
def syncNotificationToggle (enabled : Bool) (write : WriteOutcome)
    (s : Switches) : Switches :=
  match s.tray with
  | some on =>
    if on ≠ enabled then
      { s with tray := some enabled }.notificationsToggled enabled write
    else s
  | none => s

/-- The end of `Settings_Changed_Inline`: `AutostartHelper.Enable` or
`Disable`. -/
def setAutostart (autostart registry : Bool) (s : Switches) : Switches :=
  if autostart ≠ s.runKey ∧ registry = true then
    { s with runKey := autostart }
  else s

/-- `Settings_Changed_Inline` after the request. -/
def finish (write : WriteOutcome) (registry : Bool) (s : Switches)
    (shown : Choices) : Switches :=
  (s.syncNotificationToggle (shown .notifications) write).setAutostart
    (shown .autostart) registry

/-- The boxes show other settings than those in memory. -/
def Differs (s : Switches) (shown : Choices) : Prop :=
  s.settings.notificationsEnabled ≠ shown .notifications ∨
    s.settings.defaultEnabledForNewCameras ≠ shown .streamByDefault

instance (s : Switches) (shown : Choices) : Decidable (s.Differs shown) :=
  inferInstanceAs (Decidable (_ ∨ _))

/-- `Settings_Changed_Inline` up to the request. Where the file cannot be
written that is all there is. -/
def settingsChanged (shown : Choices) (write : WriteOutcome) (registry : Bool)
    (s : Switches) : Switches :=
  if s.Differs shown then
    let saved := s.save { s.settings with
      notificationsEnabled := shown .notifications
      defaultEnabledForNewCameras := shown .streamByDefault } write
    if write = .complete then
      (saved.withAwaiting (s.awaiting ++ [shown])).request
    else saved
  else s.setAutostart (shown .autostart) registry

/-- The boxes after a click. -/
def flip (shown : Choices) (box : SettingsBox) : Choices :=
  Function.update shown box (!shown box)

/-- One step; `none` is one that is not possible. -/
def step (s : Switches) : SwitchAction → Option Switches
  | .trayMade =>
    match s.tray with
    | none => some { s with tray := some s.settings.notificationsEnabled }
    | some _ => none
  | .trayClicked write =>
    match s.tray with
    | some on =>
      some { { s with tray := some (!on) }.notificationsToggled (!on) write with
        chosen := Function.update s.chosen .notifications (!on) }
    | none => none
  | .windowLoaded => some { s with boxes := some s.loadSettingsIntoCheckboxes }
  | .boxClicked box write registry =>
    match s.boxes with
    | some shown =>
      some { s.settingsChanged (flip shown box) write registry with
        boxes := some (flip shown box)
        chosen := Function.update s.chosen box (!shown box) }
    | none => none
  | .answered i write registry =>
    match s.awaiting[i]? with
    | some shown =>
      some ((s.withAwaiting (s.awaiting.eraseIdx i)).finish write
        registry shown)
    | none => none
  | .reloaded =>
    match s.requests with
    | 0 => none
    | n + 1 => some { s with served := s.fileDefault, requests := n }
  | .lost =>
    match s.requests with
    | 0 => none
    | n + 1 => some { s with requests := n }

/-- The host and the supervisor have loaded their settings. -/
def start (file : JsonFile) (runKey : Bool) : Switches :=
  let settings := HostSettings.load true file
  let served := (Settings.ofFile file).defaultEnabledForNewCameras
  { settings, file, runKey, served, chosen := fun
    | .notifications => settings.notificationsEnabled
    | .autostart => runKey
    | .streamByDefault => served }

/-- The supervisor serves all requests. -/
def requestsServed (s : Switches) : Switches :=
  { s with
    served := if s.requests = 0 then s.served else s.fileDefault
    requests := 0 }

/-- All the answers arrive, in the order of the requests, everything can be
written, and the requests are served. -/
def answersIn (s : Switches) : Switches :=
  (s.awaiting.foldl (finish .complete true) (s.withAwaiting [])).requestsServed

/-! ## What the handlers touch

Each handler touches a few fields, and the lemmas of this section say so once
and for all. Setting the item from the program raises the same event as a
click of the user, which ends after one turn because the values agree by
then. -/

section Frames

variable {s : Switches} {write : WriteOutcome} {registry : Bool}
  {shown : Choices}

@[simp] theorem settings_withAwaiting (answers : List Choices) :
    (s.withAwaiting answers).settings = s.settings := rfl

@[simp] theorem tray_withAwaiting (answers : List Choices) :
    (s.withAwaiting answers).tray = s.tray := rfl

@[simp] theorem runKey_withAwaiting (answers : List Choices) :
    (s.withAwaiting answers).runKey = s.runKey := rfl

@[simp] theorem settings_setAutostart (autostart : Bool) :
    (s.setAutostart autostart registry).settings = s.settings := by
  unfold setAutostart
  split <;> rfl

theorem file_setAutostart (autostart : Bool) :
    (s.setAutostart autostart registry).file = s.file := by
  unfold setAutostart
  split <;> rfl

theorem served_setAutostart (autostart : Bool) :
    (s.setAutostart autostart registry).served = s.served := by
  unfold setAutostart
  split <;> rfl

@[simp] theorem tray_setAutostart (autostart : Bool) :
    (s.setAutostart autostart registry).tray = s.tray := by
  unfold setAutostart
  split <;> rfl

@[simp] theorem awaiting_setAutostart (autostart : Bool) :
    (s.setAutostart autostart registry).awaiting = s.awaiting := by
  unfold setAutostart
  split <;> rfl

/-- Bringing the item in line is nothing, or what a click of it is. -/
theorem syncNotificationToggle_cases (s : Switches) (enabled : Bool)
    (write : WriteOutcome) :
    s.syncNotificationToggle enabled write = s ∨
      s.syncNotificationToggle enabled write
        = { s with
          tray := some enabled }.notificationsToggled enabled write := by
  unfold syncNotificationToggle
  split
  next =>
    split
    next => exact .inr rfl
    next => exact .inl rfl
  next => exact .inl rfl

@[simp] theorem awaiting_syncNotificationToggle (enabled : Bool) :
    (s.syncNotificationToggle enabled write).awaiting = s.awaiting :=
  (s.syncNotificationToggle_cases enabled write).elim
    (congrArg Switches.awaiting)
    (congrArg Switches.awaiting)

theorem served_finish : (s.finish write registry shown).served = s.served := by
  refine (served_setAutostart _).trans ?_
  exact (s.syncNotificationToggle_cases (shown .notifications) write).elim
    (congrArg Switches.served) (congrArg Switches.served)

/-- The supervisor is told of what is in the file: it has read it, or a request
is still to be served. The file has what the host has in memory. -/
structure InLine (s : Switches) : Prop where
  file : s.fileDefault = s.settings.defaultEnabledForNewCameras
  served : s.requests = 0 → s.served = s.fileDefault

/-- A save that succeeds is followed by a request. -/
theorem inLine_save (settings : HostSettings) :
    (s.save settings .complete).request.InLine :=
  ⟨rfl, fun h => (nomatch h)⟩

theorem InLine.setAutostart (h : s.InLine) (autostart registry : Bool) :
    (s.setAutostart autostart registry).InLine := by
  unfold Switches.setAutostart
  split <;> exact ⟨h.file, h.served⟩

theorem InLine.finish (h : s.InLine) (registry : Bool) (shown : Choices) :
    (s.finish .complete registry shown).InLine := by
  refine InLine.setAutostart ?_ _ _
  rcases s.syncNotificationToggle_cases
    (shown .notifications) .complete with heq | heq
  · rw [heq]
    exact h
  · rw [heq]
    exact inLine_save _

theorem syncNotificationToggle_of_unmade (h : s.tray = none) (enabled : Bool) :
    s.syncNotificationToggle enabled write = s := by
  unfold syncNotificationToggle
  split
  next on hon => cases h.symm.trans hon
  next => rfl

theorem syncNotificationToggle_of_eq {on : Bool} (h : s.tray = some on) :
    s.syncNotificationToggle on write = s := by
  unfold syncNotificationToggle
  split
  next on' hon =>
    obtain rfl := Option.some.inj (h.symm.trans hon)
    exact if_neg (not_not.mpr rfl)
  next => rfl

/-- Where the item shows something else, it is set, and so is the setting. -/
theorem syncNotificationToggle_of_ne {on enabled : Bool} (h : s.tray = some on)
    (hne : on ≠ enabled) :
    (s.syncNotificationToggle enabled write).tray = some enabled ∧
      (s.syncNotificationToggle enabled write).settings.notificationsEnabled
      = enabled := by
  unfold syncNotificationToggle
  split
  next on' hon =>
    obtain rfl := Option.some.inj (h.symm.trans hon)
    rw [if_pos hne]
    exact ⟨rfl, rfl⟩
  next hnone => cases h.symm.trans hnone

@[simp] theorem settings_finish :
    (s.finish write registry shown).settings
      = (s.syncNotificationToggle (shown .notifications) write).settings :=
  settings_setAutostart _

@[simp] theorem tray_finish :
    (s.finish write registry shown).tray
      = (s.syncNotificationToggle (shown .notifications) write).tray :=
  tray_setAutostart _

@[simp] theorem awaiting_finish :
    (s.finish write registry shown).awaiting = s.awaiting := by
  rw [finish, awaiting_setAutostart, awaiting_syncNotificationToggle]

/-- After an answer the item shows what the box did. -/
theorem tray_finish_of_made {on : Bool} (htray : s.tray = some on) :
    (s.finish write registry shown).tray = some (shown .notifications) := by
  rw [tray_finish]
  by_cases hon : on = shown .notifications
  · rw [← hon, syncNotificationToggle_of_eq htray, htray]
  · exact (syncNotificationToggle_of_ne htray hon).1

end Frames

/-! ## When the answers are in

A question about the end of a run is a question about all answers that are
still awaited. They are folded over the state in their order, and what each
box showed at the last of them decides. -/

/-- What is in effect is what the item shows, or what one of these answers will
make it show. -/
def AnnouncedBy (answers : List Choices) (s : Switches) : Prop :=
  ∀ on, s.tray = some on → s.settings.notificationsEnabled = on ∨
    ∃ shown ∈ answers, shown .notifications = s.settings.notificationsEnabled

/-- What a box showed at the last request whose answer is awaited. -/
def lastShown (s : Switches) (box : SettingsBox) (otherwise : Bool) : Bool :=
  match s.awaiting.getLast? with
  | some shown => shown box
  | none => otherwise

/-- What is to be in effect once the answers are in: what was saved last, and
what the boxes showed at the last request. -/
def settled (s : Switches) : Choices
  | .notifications =>
    match s.tray with
    | some _ => s.lastShown .notifications s.settings.notificationsEnabled
    | none => s.settings.notificationsEnabled
  | .autostart => s.lastShown .autostart s.runKey
  | .streamByDefault => s.settings.defaultEnabledForNewCameras

section Answers

variable {s t : Switches} {answers : List Choices}

theorem setAutostart_withAwaiting (autostart registry : Bool) :
    (s.withAwaiting answers).setAutostart autostart registry
      = (s.setAutostart autostart registry).withAwaiting answers := by
  unfold setAutostart
  rw [runKey_withAwaiting]
  split <;> rfl

theorem syncNotificationToggle_withAwaiting (enabled : Bool)
    (write : WriteOutcome) :
    (s.withAwaiting answers).syncNotificationToggle enabled write
      = (s.syncNotificationToggle enabled write).withAwaiting answers := by
  unfold syncNotificationToggle
  rw [tray_withAwaiting]
  cases s.tray with
  | none => rfl
  | some on =>
    show (if on ≠ enabled then _ else _) = withAwaiting answers
      (if on ≠ enabled then _ else _)
    split <;> rfl

/-- It makes no difference to an answer which others are awaited. -/
theorem finish_withAwaiting (s : Switches) (answers : List Choices)
    (write : WriteOutcome)
    (registry : Bool) (shown : Choices) :
    (s.withAwaiting answers).finish write registry shown
      = (s.finish write registry shown).withAwaiting answers := by
  rw [finish, syncNotificationToggle_withAwaiting, setAutostart_withAwaiting]
  rfl

/-- Whoever reads the file last decides. -/
theorem requestsServed_reloaded {n : ℕ} (hn : s.requests = n + 1) :
    requestsServed { s with served := s.fileDefault, requests := n }
      = s.requestsServed := by
  simp [requestsServed, fileDefault, hn]

/-- The requests are served in so many steps. -/
theorem run_reloaded {n : ℕ} (hn : s.requests = n) :
    Runs.run step s (List.replicate n .reloaded) = some s.requestsServed := by
  induction n generalizing s with
  | zero =>
    obtain ⟨_, _, _, _, _, _, _, requests, _⟩ := s
    obtain rfl : requests = 0 := hn
    rfl
  | succ n ih =>
    rw [List.replicate_succ, Runs.run_cons_iff]
    refine ⟨{ s with served := s.fileDefault, requests := n },
      by simp only [step, hn], ?_⟩
    rw [ih rfl, requestsServed_reloaded hn]

/-- The answers are steps, and what the supervisor does then. -/
theorem run_answers (s : Switches) : ∃ n, Runs.run step s
    (List.replicate s.awaiting.length (.answered 0 .complete true)
      ++ List.replicate n .reloaded) = some s.answersIn := by
  have hall : ∀ (answers : List Choices) (s : Switches),
      Runs.run step (s.withAwaiting answers)
          (List.replicate answers.length (.answered 0 .complete true))
        = some (answers.foldl (finish .complete true) (s.withAwaiting [])) := by
    intro answers
    induction answers with
    | nil => exact fun s => rfl
    | cons shown answers ih =>
      intro s
      rw [List.length_cons, List.replicate_succ, Runs.run_cons_iff]
      refine ⟨(s.withAwaiting answers).finish .complete true shown, rfl, ?_⟩
      rw [finish_withAwaiting s answers, List.foldl_cons,
        finish_withAwaiting s []]
      exact ih _
  exact ⟨_, Runs.run_append.mpr ⟨_, hall s.awaiting s, run_reloaded rfl⟩⟩

/-- An answer leaves what is in effect announced. -/
theorem AnnouncedBy.finish (h : AnnouncedBy answers s) {i : ℕ} {shown : Choices}
    (hi : answers[i]? = some shown) (write : WriteOutcome) (registry : Bool) :
    AnnouncedBy (answers.eraseIdx i) (s.finish write registry shown) := by
  intro on hon
  cases htray : s.tray with
  | none =>
    rw [tray_finish, syncNotificationToggle_of_unmade htray, htray] at hon
    cases hon
  | some on' =>
    rw [tray_finish_of_made htray] at hon
    obtain rfl := Option.some.inj hon
    rw [settings_finish]
    by_cases heq : on' = shown .notifications
    · -- the item shows it already, and nothing happens
      subst heq
      rw [syncNotificationToggle_of_eq htray]
      rcases h _ htray with hself | ⟨other, hmem, hother⟩
      · exact .inl hself
      · obtain ⟨j, hj⟩ := List.mem_iff_getElem?.mp hmem
        by_cases hji : j = i
        · subst hji
          obtain rfl := Option.some.inj (hi.symm.trans hj)
          exact .inl hother.symm
        · exact .inr ⟨other,
            List.mem_eraseIdx_iff_getElem?.mpr ⟨j, hji, hj⟩, hother⟩
    · exact .inl (syncNotificationToggle_of_ne htray heq).2

/-- As long as there is no item, an answer changes nothing but the registry. -/
theorem foldl_finish_of_unmade (htray : s.tray = none) :
    (answers.foldl (finish .complete true) s).tray = none ∧
      (answers.foldl (finish .complete true) s).settings = s.settings := by
  induction answers generalizing s with
  | nil => exact ⟨htray, rfl⟩
  | cons shown answers ih =>
    have hsame : s.syncNotificationToggle (shown .notifications) .complete
        = s :=
      syncNotificationToggle_of_unmade htray _
    obtain ⟨hend, hsettings⟩ := ih (s := s.finish .complete true shown)
      (by rw [tray_finish, hsame, htray])
    rw [settings_finish, hsame] at hsettings
    exact ⟨hend, hsettings⟩

theorem InLine.foldl_finish (h : s.InLine) :
    (answers.foldl (Switches.finish .complete true) s).InLine := by
  induction answers generalizing s with
  | nil => exact h
  | cons shown answers ih => exact ih (h.finish true shown)

/-- Answers that make the item show what it shows change nothing. -/
theorem foldl_finish_of_shown {on : Bool} (htray : s.tray = some on)
    (h : ∀ shown ∈ answers, shown .notifications = on) :
    (answers.foldl (finish .complete true) s).tray = some on ∧
      (answers.foldl (finish .complete true) s).settings.notificationsEnabled
        = s.settings.notificationsEnabled := by
  induction answers generalizing s with
  | nil => exact ⟨htray, rfl⟩
  | cons shown answers ih =>
    obtain ⟨hshown, hrest⟩ := List.forall_mem_cons.mp h
    rw [List.foldl_cons]
    have hsame : s.syncNotificationToggle (shown .notifications) .complete
        = s := by
      rw [hshown]
      exact syncNotificationToggle_of_eq htray
    obtain ⟨hend, hsettings⟩ := ih (s := s.finish .complete true shown)
      (by rw [tray_finish, hsame, htray]) hrest
    rw [settings_finish, hsame] at hsettings
    exact ⟨hend, hsettings⟩

/-- What is announced is what the item shows in the end, and it is the last
answer's. -/
theorem AnnouncedBy.foldl_finish (h : AnnouncedBy answers s) {on : Bool}
    (htray : s.tray = some on) :
    ∃ on', (answers.foldl (Switches.finish .complete true) s).tray = some on' ∧
      (answers.foldl (Switches.finish .complete true)
          s).settings.notificationsEnabled = on' ∧
      (∀ shown, answers.getLast? = some shown → shown .notifications = on') ∧
      (answers = [] → on' = s.settings.notificationsEnabled) := by
  induction answers generalizing s on with
  | nil =>
    rcases h on htray with hself | ⟨_, hmem, _⟩
    · exact ⟨on, htray, hself, fun _ hlast => (nomatch hlast),
        fun _ => hself.symm⟩
    · cases hmem
  | cons shown answers ih =>
    have hnext : AnnouncedBy answers (s.finish .complete true shown) :=
      h.finish (i := 0) rfl .complete true
    obtain ⟨on', hend, hsettings, hlast, -⟩ :=
      ih hnext (tray_finish_of_made htray)
    refine ⟨on', hend, hsettings, fun last hl => ?_, fun hno => (nomatch hno)⟩
    cases answers with
    | nil =>
      obtain rfl := Option.some.inj hl
      exact Option.some.inj ((tray_finish_of_made htray).symm.trans hend)
    | cons other answers => exact hlast last (List.getLast?_cons_cons ▸ hl)

/-- The item shows what is in effect once the answers are in, exactly where that
is announced. -/
theorem announcedBy_iff_answersIn : AnnouncedBy s.awaiting s ↔
    ∀ on, s.answersIn.tray = some on →
      s.answersIn.settings.notificationsEnabled = on := by
  show _ ↔ ∀ on, (s.awaiting.foldl (finish .complete true)
      (s.withAwaiting [])).tray = some on →
    (s.awaiting.foldl (finish .complete true)
      (s.withAwaiting [])).settings.notificationsEnabled = on
  constructor
  · intro h on hon
    cases htray : s.tray with
    | none =>
      rw [(foldl_finish_of_unmade (s := s.withAwaiting []) htray).1] at hon
      cases hon
    | some on' =>
      obtain ⟨on₁, hend, hsettings, -⟩ :=
        AnnouncedBy.foldl_finish (s := s.withAwaiting []) h htray
      rw [hsettings]
      exact Option.some.inj (hend.symm.trans hon)
  · intro h on htray
    by_contra hnot
    obtain ⟨hself, hnone⟩ := not_or.mp hnot
    -- then every answer is what the item shows
    have hall : ∀ shown ∈ s.awaiting, shown .notifications = on :=
      fun shown hmem => by
      have hne : shown .notifications ≠ s.settings.notificationsEnabled :=
        fun heq => hnone ⟨shown, hmem, heq⟩
      revert hself hne
      cases s.settings.notificationsEnabled <;> cases on <;>
        cases shown .notifications <;> decide
    obtain ⟨hend, hsettings⟩ :=
      foldl_finish_of_shown (s := s.withAwaiting []) htray hall
    exact hself (hsettings.symm.trans (h on hend))

end Answers

/-! ## The item and the setting

The item can show something else than what is set while an answer is awaited.
It agrees in the end unless a click could not be saved at a moment at which
nothing announced the value that the item shows. -/

section Item

variable {s t : Switches}

/-- A step whose save is noticed: where the click of a box cannot be saved, the
item shows the setting all the same, or an answer will make it. -/
def Noticed (s : Switches) : SwitchAction → Prop
  | .boxClicked box write _ =>
    ∀ shown on, s.boxes = some shown → s.tray = some on →
    s.Differs (flip shown box) → write ≠ .complete →
      flip shown box .notifications = on ∨
      ∃ other ∈ s.awaiting, other .notifications = flip shown box .notifications
  | _ => True

/-- What becomes of the boxes of a click. -/
theorem announcedBy_settingsChanged {shown : Choices} {write : WriteOutcome}
    {registry : Bool}
    (h : AnnouncedBy s.awaiting s) :
    AnnouncedBy (s.settingsChanged shown write registry).awaiting
        (s.settingsChanged shown write registry) ↔
      ∀ on, s.tray = some on → s.Differs shown → write ≠ .complete →
        shown .notifications = on ∨
          ∃ other ∈ s.awaiting,
            other .notifications = shown .notifications := by
  unfold settingsChanged
  split
  next hdiffers =>
    by_cases hwrite : write = .complete
    · rw [if_pos hwrite]
      refine iff_of_true (fun on _ => .inr ⟨shown, ?_, rfl⟩)
        (fun _ _ _ hfails => absurd hwrite hfails)
      exact List.mem_append_right s.awaiting (List.mem_singleton_self shown)
    · rw [if_neg hwrite]
      exact ⟨fun hnew on hon _ _ => hnew on hon,
        fun hguard on hon => hguard on hon hdiffers hwrite⟩
  next hsame =>
    refine iff_of_true (fun on hon => ?_)
      (fun _ _ hdiffers => absurd hdiffers hsame)
    rw [tray_setAutostart] at hon
    rw [awaiting_setAutostart, settings_setAutostart]
    exact h on hon

/-- **A step leaves the setting announced exactly where its save is noticed.**
Only a click whose save fails can go unnoticed, since the host goes on with
the value it could not write. -/
theorem announcedBy_step {a : SwitchAction} (h : AnnouncedBy s.awaiting s)
    (ht : s.step a = some t) : AnnouncedBy t.awaiting t ↔ s.Noticed a := by
  cases a with
  | trayMade =>
    rw [step] at ht
    split at ht
    next =>
      obtain rfl := Option.some.inj ht
      exact iff_of_true (fun on hon => .inl (Option.some.inj hon)) trivial
    next => cases ht
  | trayClicked write =>
    rw [step] at ht
    split at ht
    next on htray =>
      obtain rfl := Option.some.inj ht
      exact iff_of_true (fun on hon => .inl (Option.some.inj hon)) trivial
    next => cases ht
  | windowLoaded =>
    obtain rfl := Option.some.inj ht
    exact iff_of_true h trivial
  -- the click of a box is the only action that may change the setting without
  -- an answer to come
  | boxClicked box write registry =>
    rw [step] at ht
    split at ht
    next shown hboxes =>
      obtain rfl := Option.some.inj ht
      refine (@announcedBy_settingsChanged s
        (flip shown box) write registry h).trans
        ⟨fun hnew shown' on hshown' => ?_, fun hnoticed on => ?_⟩
      · obtain rfl := Option.some.inj (hboxes.symm.trans hshown')
        exact hnew on
      · exact hnoticed shown on hboxes
    next => cases ht
  -- the answer is taken off the list, and finishing it shows in the item what
  -- it announces
  | answered i write registry =>
    rw [step] at ht
    split at ht
    next shown hi =>
      obtain rfl := Option.some.inj ht
      refine iff_of_true ?_ trivial
      rw [awaiting_finish]
      exact AnnouncedBy.finish
        (s := s.withAwaiting (s.awaiting.eraseIdx i)) h hi write
        registry
    next => cases ht
  | reloaded | lost =>
    rw [step] at ht
    split at ht
    next => cases ht
    next => exact Option.some.inj ht ▸ iff_of_true h trivial

end Item

/-! ## The last choice

What the user chose last at a box is to be in effect once everything has
settled. The steps that can undo a choice are few: the item is made or
clicked, or boxes are clicked again, while an answer is awaited that carries
an older value. -/

section LastChoice

variable {s t : Switches}

/-- Everything can be written, and requests reach the supervisor. -/
def Succeeds : SwitchAction → Prop
  | .trayMade | .windowLoaded | .reloaded => True
  | .lost => False
  | .trayClicked write => write = .complete
  | .boxClicked _ write registry | .answered _ write registry =>
    write = .complete ∧ registry = true

/-- **A step that disturbs no choice.** The item is made and clicked where the
answer that is awaited last says the same. A box is clicked where the others
show what is to be in effect – or the click changes no setting while an answer
is awaited, and then it is that answer's choice. An answer does not overtake a
later one. -/
def Undisturbed (s : Switches) : SwitchAction → Prop
  | .trayMade => ∀ last, s.awaiting.getLast? = some last →
    last .notifications = s.settings.notificationsEnabled
  | .trayClicked _ => ∀ last, s.awaiting.getLast? = some last →
    s.tray = some (!last .notifications)
  | .windowLoaded | .reloaded | .lost => True
  | .boxClicked box _ _ => ∀ shown, s.boxes = some shown →
    if s.Differs (flip shown box) ∨ s.awaiting = [] then
      ∀ other ≠ box, shown other = s.settled other
    else s.settled box = !shown box
  | .answered i _ _ => ∀ last, (s.awaiting.eraseIdx i).getLast? = some last →
    last .autostart = s.settled .autostart ∧
      (s.tray ≠ none → last .notifications = s.settled .notifications)

/-- **The supervisor is kept in line** by every step in which nothing fails.
Failures are excluded by the hypothesis, since after one the supervisor may go
on with the settings it had. -/
theorem InLine.step {a : SwitchAction} (h : s.InLine) (hsucceeds : Succeeds a)
    (ht : s.step a = some t) : t.InLine := by
  cases a with
  | trayMade =>
    rw [Switches.step] at ht
    split at ht
    next => exact Option.some.inj ht ▸ ⟨h.file, h.served⟩
    next => cases ht
  | trayClicked write =>
    obtain rfl : write = .complete := hsucceeds
    rw [Switches.step] at ht
    split at ht
    next => exact Option.some.inj ht ▸ ⟨rfl, fun h => (nomatch h)⟩
    next => cases ht
  | windowLoaded => exact Option.some.inj ht ▸ ⟨h.file, h.served⟩
  | boxClicked box write registry =>
    obtain ⟨rfl, rfl⟩ := hsucceeds
    rw [Switches.step] at ht
    split at ht
    next shown hboxes =>
      obtain rfl := Option.some.inj ht
      -- a click that changes a setting is saved, and the request behind it is
      -- on its way
      have hclicked :
          (s.settingsChanged (flip shown box) .complete true).InLine := by
        unfold settingsChanged
        split
        next => exact ⟨rfl, fun h => (nomatch h)⟩
        next => exact h.setAutostart _ _
      exact ⟨hclicked.file, hclicked.served⟩
    next => cases ht
  | answered i write registry =>
    obtain ⟨rfl, rfl⟩ := hsucceeds
    rw [Switches.step] at ht
    split at ht
    next shown hi =>
      have hawaited : (s.withAwaiting (s.awaiting.eraseIdx i)).InLine :=
        ⟨h.file, h.served⟩
      exact Option.some.inj ht ▸ hawaited.finish true shown
    next => cases ht
  | reloaded =>
    rw [Switches.step] at ht
    split at ht
    next => cases ht
    next => exact Option.some.inj ht ▸ ⟨h.file, fun _ => rfl⟩
  | lost => cases hsucceeds

end LastChoice

/-! ## Over a run

Both statements follow from their steps by the rule for runs. The condition
for the second one also asks that everything can be written and that the
requests arrive. -/

theorem announcedBy_start (file : JsonFile) (runKey : Bool) :
    AnnouncedBy (start file runKey).awaiting (start file runKey) :=
  fun _ hon => (nomatch hon)

/-- **The item of the menu shows whether there are notifications** – as soon as
the answers are in, it shows what is in effect – exactly in the runs in which
every save of a box that fails is noticed. -/
theorem item_shows_setting_iff (file : JsonFile) (runKey : Bool)
    (actions : List SwitchAction) :
    Runs.Everywhere step (fun s => ∀ on, s.answersIn.tray = some on →
        s.answersIn.inEffect .notifications = on) (start file runKey) actions ↔
      Runs.Guarded step Noticed (start file runKey) actions := by
  have hsame : (fun s : Switches => ∀ on, s.answersIn.tray = some on →
      s.answersIn.inEffect .notifications
      = on) = fun s => AnnouncedBy s.awaiting s := by
    funext s
    exact propext announcedBy_iff_answersIn.symm
  rw [hsame]
  exact Runs.everywhere_iff_guarded (fun _ _ _ h ht => announcedBy_step h ht)
    (announcedBy_start file runKey)

/-- A save that succeeds is noticed. -/
theorem Succeeds.noticed {s : Switches} {a : SwitchAction} (h : Succeeds a) :
    s.Noticed a := by
  cases a with
  | boxClicked box write registry =>
    exact fun _ _ _ _ _ hfails => absurd h.1 hfails
  | _ => trivial

/-- Notifications are switched off at the item, and on again by the click of
another box. -/
example : (Runs.run step (start .missing false)
    [.trayMade, .windowLoaded, .trayClicked .complete,
      .boxClicked .streamByDefault .complete true,
      .answered 0 .complete true]).map
        (fun s => (s.chosen .notifications, s.inEffect .notifications))
      = some (false, true) := by
  decide

/-! ## The two programs

The switches are a closer look at the host. With everything but the file and
the settings forgotten, a run of them is a run of the host and the supervisor
as the module about their common file has it. -/

section Refinement

variable {s t : Switches} {m : Machine}

/-- The host of the two programs has these settings, the file is theirs, and so
is what a running supervisor has loaded. -/
structure FollowedBy (s : Switches) (m : Machine) : Prop where
  host : m.host = some s.settings
  file : m.file = s.file
  served : ∀ sup, m.stage = .running sup →
    sup.settings.defaultEnabledForNewCameras = s.served

/-- The supervisor serves `reload-settings`. -/
def reload : Step where
  env := {}
  action := .request { method := "reload-settings" }

/-- A save of the host, or the `reload-settings` that it asks for. -/
def IsHostSave : SettingsAction → Prop
  | .hostSave _ _ => True
  | .supervisorStep st => st = reload
  | _ => False

/-- A supervisor that loads the settings has what is in the file. -/
theorem FollowedBy.reload (h : s.FollowedBy m) {sup : Supervisor}
    (hstage : m.stage = .running sup) :
    ∃ m', settingsStep m (.supervisorStep Switches.reload) = some m' ∧
      ∀ requests,
        FollowedBy { s with served := s.fileDefault, requests } m' := by
  have hfile : sup.disk.settings = s.file := by
    have hfile := h.file
    rwa [Machine.file, hstage] at hfile
  let loaded : Supervisor :=
    { sup with settings := Settings.ofFile sup.disk.settings }
  have hnext : next sup Switches.reload = some loaded := by
    have hserved : handle {} { method := "reload-settings" } sup
        = .answer loaded [] (.defaultEnabledForNewCameras
          loaded.settings.defaultEnabledForNewCameras) := handle_reloadSettings
            rfl rfl
    show some (handle {} { method := "reload-settings" } sup).sup = some loaded
    rw [hserved]
    rfl
  have hstep : settingsStep m (.supervisorStep Switches.reload)
      = some { m with
          stage := .running loaded
          lastPair := (answeredPair sup Switches.reload).or m.lastPair } := by
    rw [settingsStep, hstage]
    refine (if_pos (by decide)).trans ?_
    rw [hnext]
    rfl
  refine ⟨_, hstep, fun requests => ⟨h.host, hfile, fun sup' hsup' => ?_⟩⟩
  obtain rfl := Stage.running.inj hsup'
  exact congrArg (fun file =>
    (Settings.ofFile file).defaultEnabledForNewCameras) hfile

/-- Writing new flags is a save of the host. -/
theorem FollowedBy.save (h : s.FollowedBy m)
    (notifications defaultEnabled : Bool) :
    ∃ m', settingsStep m (.hostSave notifications defaultEnabled) = some m' ∧
      (s.save { s.settings with
        notificationsEnabled := notifications
        defaultEnabledForNewCameras := defaultEnabled } .complete).FollowedBy
          m' := by
  let settings : HostSettings := { s.settings with
    notificationsEnabled := notifications
    defaultEnabledForNewCameras := defaultEnabled }
  refine ⟨{ m.withFile settings.save with
    host := some settings
    lastFlags := some (notifications, defaultEnabled) }, ?_, rfl,
      Machine.file_withFile m _,
    fun sup hsup => ?_⟩
  · rw [settingsStep, h.host]
  · obtain ⟨stage, host, lastPair, lastFlags⟩ := m
    cases stage with
    | stopped file => cases hsup
    | running sup' =>
      obtain rfl := Stage.running.inj hsup
      exact h.served sup' rfl

/-- **Every step is a save of the host or none**, as far as the settings and
the file go. The switches are seen from further away here: a save is one step
of the two programs, and a movement in the window is none. -/
theorem FollowedBy.step {a : SwitchAction} (h : s.FollowedBy m)
    (ha : Succeeds a)
    (ht : s.step a = some t) :
    ∃ saves m', (∀ b ∈ saves, IsHostSave b) ∧
      Runs.run settingsStep m saves = some m' ∧
      t.FollowedBy m' := by
  have hnone : ∀ {t : Switches}, t.settings = s.settings → t.file = s.file →
      t.served = s.served →
      ∃ saves m', (∀ b ∈ saves, IsHostSave b) ∧
        Runs.run settingsStep m saves = some m' ∧
        t.FollowedBy m' :=
    fun hsettings hfile hserved => ⟨[], m,
      fun b hb => absurd hb List.not_mem_nil, rfl,
      h.host.trans (congrArg some hsettings.symm), h.file.trans hfile.symm,
      fun sup hsup => (h.served sup hsup).trans hserved.symm⟩
  have hone : ∀ {t : Switches} (notifications defaultEnabled : Bool),
      t.settings = { s.settings with
        notificationsEnabled := notifications
        defaultEnabledForNewCameras := defaultEnabled } →
      t.file = .doc t.settings.toJson → t.served = s.served →
      ∃ saves m', (∀ b ∈ saves, IsHostSave b) ∧
        Runs.run settingsStep m saves = some m' ∧
        t.FollowedBy m' := by
    intro t notifications defaultEnabled hsettings hfile hserved
    obtain ⟨m', hsave, hhost, hfile', hserved'⟩ :=
      h.save notifications defaultEnabled
    refine ⟨[.hostSave notifications defaultEnabled], m', ?_,
      Runs.run_cons_iff.mpr ⟨m', hsave, rfl⟩,
      hhost.trans (congrArg some hsettings.symm),
      hfile'.trans ?_, fun sup hsup => (hserved' sup hsup).trans hserved.symm⟩
    · exact List.forall_mem_singleton.mpr trivial
    · rw [hfile, hsettings]
      rfl
  cases a with
  | trayMade =>
    rw [Switches.step] at ht
    split at ht
    next =>
      obtain rfl := Option.some.inj ht
      exact hnone rfl rfl rfl
    next => cases ht
  | trayClicked write =>
    obtain rfl : write = .complete := ha
    rw [Switches.step] at ht
    split at ht
    next on _ =>
      obtain rfl := Option.some.inj ht
      exact hone (!on) s.settings.defaultEnabledForNewCameras rfl rfl rfl
    next => cases ht
  | windowLoaded =>
    obtain rfl := Option.some.inj ht
    exact hnone rfl rfl rfl
  | boxClicked box write registry =>
    obtain ⟨rfl, rfl⟩ := ha
    rw [Switches.step] at ht
    split at ht
    next shown hboxes =>
      obtain rfl := Option.some.inj ht
      by_cases hdiffers : s.Differs (flip shown box)
      · rw [settingsChanged, if_pos hdiffers, if_pos rfl]
        exact hone (flip shown box .notifications)
          (flip shown box .streamByDefault)
          rfl rfl rfl
      · rw [settingsChanged, if_neg hdiffers]
        exact hnone (settings_setAutostart _) (file_setAutostart _)
          (served_setAutostart _)
    next => cases ht
  | answered i write registry =>
    obtain ⟨rfl, rfl⟩ := ha
    rw [Switches.step] at ht
    split at ht
    next shown hi =>
      obtain rfl := Option.some.inj ht
      rw [finish_withAwaiting]
      have hfile : (s.finish .complete true shown).file
          = (s.syncNotificationToggle (shown .notifications) .complete).file :=
        file_setAutostart _
      by_cases hsame : s.tray = none ∨ s.tray = some (shown .notifications)
      · have hsync : s.syncNotificationToggle (shown .notifications) .complete
            = s :=
          hsame.elim (fun hnone => syncNotificationToggle_of_unmade hnone _)
            syncNotificationToggle_of_eq
        exact hnone (settings_finish.trans (congrArg Switches.settings hsync))
          (hfile.trans (congrArg Switches.file hsync)) served_finish
      · -- the item is set, and its handler saves
        obtain ⟨hmade, hother⟩ := not_or.mp hsame
        obtain ⟨on, htray⟩ := Option.ne_none_iff_exists'.mp hmade
        have hne : on ≠ shown .notifications := fun heq => hother (heq ▸ htray)
        have hsync : s.syncNotificationToggle (shown .notifications) .complete
            = { s with
              tray := some (shown .notifications) }.notificationsToggled
              (shown .notifications) .complete := by
          rw [syncNotificationToggle, htray]
          exact if_pos hne
        refine hone (shown .notifications)
          s.settings.defaultEnabledForNewCameras
          (settings_finish.trans (congrArg Switches.settings hsync))
            (hfile.trans ?_)
          served_finish
        rw [settings_withAwaiting, settings_finish, hsync]
        rfl
    next => cases ht
  | reloaded =>
    rw [Switches.step] at ht
    split at ht
    next => cases ht
    next n hn =>
      obtain rfl := Option.some.inj ht
      cases hstage : m.stage with
      | stopped file =>
        exact ⟨[], m, fun b hb => absurd hb List.not_mem_nil, rfl,
          h.host, h.file, fun sup hsup => by rw [hstage] at hsup; cases hsup⟩
      | running sup =>
        obtain ⟨m', hreload, hfollowed⟩ := h.reload hstage
        exact ⟨[.supervisorStep Switches.reload], m',
          List.forall_mem_singleton.mpr rfl,
          Runs.run_cons_iff.mpr ⟨m', hreload, rfl⟩, hfollowed n⟩
  | lost => cases ha

/-- **A run of the switches is a run of the two programs**, in which the host
saves and the supervisor reloads. With this the results on the two programs
hold of the switches too, without a proof of their own. -/
theorem exists_run_followedBy {file : JsonFile} {runKey : Bool}
    (hm : (start file runKey).FollowedBy m) {actions : List SwitchAction}
    (h : ∀ a ∈ actions, Succeeds a)
    (hrun : Runs.run step (start file runKey) actions = some t) :
    ∃ saves m', (∀ b ∈ saves, IsHostSave b) ∧
      Runs.run settingsStep m saves = some m' ∧
      t.FollowedBy m' :=
  Runs.exists_run_of_simulation (fun _ _ _ _ hR ha ht =>
    FollowedBy.step hR ha ht) hm h hrun

/-- The host has started, and will launch the supervisor. -/
theorem followedBy_hostStart (file : JsonFile) (runKey : Bool) :
    ∃ m, settingsStep { stage := .stopped file } .hostStart = some m ∧
      (start file runKey).FollowedBy m :=
  ⟨_, rfl, rfl, rfl, fun _ hsup => (nomatch hsup)⟩

end Refinement

end Switches

end WebcamStreamer
