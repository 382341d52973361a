import WebcamStreamer.CommandLine
import WebcamStreamer.EditBuffer

/-!
# The password box that shows what was just typed

`RevealingPasswordBox` puts bullets into a text box and keeps the password
itself in a field of its own. Typing, Backspace, Delete and a paste never get to
the text box: their handlers read the selection from it, change the field, and
put a new display into the text box, where the characters of a text input stand
in clear until a timer, a loss of focus or the next change hides them.

Every handler that changes the field puts the caret back after the display. Of
the text box this uses that a different text collapses the selection to the
front, that the same text changes nothing, and that a caret can be set
afterwards: it is an `EditBuffer`.

Texts are lists of UTF-16 code units, as the positions of .NET count them.
-/

namespace WebcamStreamer

/-! ## Strings of .NET

The handlers edit strings with the methods of the library, which throw out of
range. Whether they ever do is one of the questions, so that each of them is a
partial function. -/

/-- `String.Remove`; out of range it throws. -/
def removeAt (s : WString) (start count : ℕ) : Option WString :=
  if start + count ≤ s.length then
    some (s.take start ++ s.drop (start + count))
  else none

/-- `String.Insert`; out of range it throws. -/
def insertAt (s : WString) (start : ℕ) (value : WString) : Option WString :=
  if start ≤ s.length then
    some (s.take start ++ value ++ s.drop start)
  else none

/-- The assignments to `sb[start]`, `sb[start + 1]` and so on of a
`StringBuilder`; out of range they throw. -/
def setRun (sb : WString) (start : ℕ) : WString → Option WString
  | [] => some sb
  | c :: cs =>
    if start < sb.length then setRun (sb.set start c) (start + 1) cs else none

/-! ## The control

The control keeps the password in a field of its own and shows bullets in a
text box, with the caret and the selection that the text box has. Every
handler is written with its calls in the order of the source, since a call can
move the caret that the next one reads. -/

/-- `kBullet`. -/
def bullet : UInt16 := 0x2022

/-- So many bullets. -/
def bullets (n : ℕ) : WString := List.replicate n bullet

/-- What `KeyEventArgs.Key` is compared with. -/
inductive Key where
  | back
  | delete
  | other
  deriving DecidableEq

/-- `class RevealingPasswordBox`: `_real`, the value of `Password`, which a
binding can set to null, the text box `Input`, and whether `_hideTimer` is
running. -/
structure RevealingPasswordBox where
  real : WString := []
  password : Option WString := some []
  input : EditBuffer UInt16 := .empty
  hideTimer : Bool := false
  deriving DecidableEq

namespace RevealingPasswordBox

/-- `MaskAll`. -/
def maskAll (box : RevealingPasswordBox) : RevealingPasswordBox :=
  { box with input := box.input.assign (bullets box.real.length) }

/-- `OnPasswordChanged`. -/
def onPasswordChanged (box : RevealingPasswordBox) (newValue : Option WString) :
    RevealingPasswordBox :=
  let newVal := newValue.getD []
  if newVal = box.real then box else { box with real := newVal }.maskAll

/-- `Password = value`; the callback is for a value that is a different one. -/
def setPassword (box : RevealingPasswordBox) (value : Option WString) :
    RevealingPasswordBox :=
  if value = box.password then
    box
  else { box with password := value }.onPasswordChanged value

/-- `Input.CaretIndex = n`. -/
def setCaretIndex (box : RevealingPasswordBox) (n : ℕ) : RevealingPasswordBox :=
  { box with input := box.input.select n 0 }

/-- `Input_PreviewTextInput`. -/
def previewTextInput (box : RevealingPasswordBox) (text : WString) :
    Option RevealingPasswordBox := do
  let selStart := box.input.start
  let selLen := box.input.count
  let removed ← removeAt box.real selStart selLen
  let real ← insertAt removed selStart text
  let sb ← setRun (bullets real.length) selStart text
  let box := { box with real, input := box.input.assign sb }
  let box := box.setCaretIndex (selStart + text.length)
  return { box.setPassword (some box.real) with hideTimer := true }

/-- How the handlers end that reveal nothing: the property gets the password,
and the timer is stopped. -/
def publish (box : RevealingPasswordBox) : RevealingPasswordBox :=
  { box.setPassword (some box.real) with hideTimer := false }

/-- Units of the password are deleted, and the caret is put where they were. -/
def deleteUnits (box : RevealingPasswordBox) (start count : ℕ) :
    Option RevealingPasswordBox :=
  (removeAt box.real start count).map
    (fun real => { box with real }.maskAll.setCaretIndex start)

/-- What `Input_PreviewKeyDown` deletes for Backspace or Delete. -/
def deleteFor (box : RevealingPasswordBox) (key : Key) :
    Option RevealingPasswordBox :=
  let selStart := box.input.start
  let selLen := box.input.count
  if 0 < selLen then box.deleteUnits selStart selLen
  else if key = .back ∧ 0 < selStart then box.deleteUnits (selStart - 1) 1
  else if key = .delete ∧ selStart < box.real.length then
    box.deleteUnits selStart 1
  else some box

/-- `Input_PreviewKeyDown`: it ends in the same way when nothing was deleted. -/
def previewKeyDown (box : RevealingPasswordBox) (key : Key) :
    Option RevealingPasswordBox :=
  if key ≠ .back ∧ key ≠ .delete then
    some box
  else (box.deleteFor key).map publish

/-- `OnPaste`; `clip` is the text of the clipboard, if it has one. -/
def onPaste (box : RevealingPasswordBox) (clip : Option WString) :
    Option RevealingPasswordBox :=
  match clip with
  | none => some box
  | some clip => do
    let selStart := box.input.start
    let selLen := box.input.count
    let removed ← removeAt box.real selStart selLen
    let real ← insertAt removed selStart clip
    return ({ box with
      real }.maskAll.setCaretIndex (selStart + clip.length)).publish

/-- `Input_LostFocus`. -/
def lostFocus (box : RevealingPasswordBox) : RevealingPasswordBox :=
  { box with hideTimer := false }.maskAll

/-- The handler of `_hideTimer.Tick`; a timer that is stopped does not tick. -/
def tick (box : RevealingPasswordBox) : RevealingPasswordBox :=
  if box.hideTimer then { box with hideTimer := false }.maskAll else box

/-- What happens to the control. -/
inductive Event where
  /-- The caret is moved, or something is selected. -/
  | select (start count : ℕ)
  | textInput (text : WString)
  | keyDown (key : Key)
  | paste (clip : Option WString)
  | tick
  | lostFocus
  /-- The other end of the binding has a new value. -/
  | passwordSet (value : Option WString)

/-- The control after an event; `none` is an exception in a handler. -/
def handle (box : RevealingPasswordBox) : Event → Option RevealingPasswordBox
  | .select start count =>
    some { box with input := box.input.select start count }
  | .textInput text => box.previewTextInput text
  | .keyDown key => box.previewKeyDown key
  | .paste clip => box.onPaste clip
  | .tick => some box.tick
  | .lostFocus => some box.lostFocus
  | .passwordSet value => some (box.setPassword value)

/-! ## What the handlers do

Between two events there is a place in the display for every unit of the
password, so that a position in the one is a position in the other. Each
handler is compared with what a plain text box would do to the password. -/

/-- The password is the one in the field, and there is a place in the display
for every unit of it. -/
structure Sound (box : RevealingPasswordBox) : Prop where
  password_eq : box.password.getD [] = box.real
  length_display : box.input.text.length = box.real.length

/-- The password with the selection that the text box has. -/
def Sound.view {box : RevealingPasswordBox} (h : box.Sound) :
    EditBuffer UInt16 where
  text := box.real
  start := box.input.start
  count := box.input.count
  inside := h.length_display ▸ box.input.inside

/-- The control with a password and a caret in it, as it is behind a display. -/
def holding (b : EditBuffer UInt16) (display : WString) (hideTimer : Bool) :
    RevealingPasswordBox where
  real := b.text
  password := some b.text
  input := .caretAt display b.start
  hideTimer

/-- The display behind a text input. -/
def revealed (b : EditBuffer UInt16) (text : WString) : WString :=
  bullets b.start ++ text ++ bullets (b.text.length - (b.start + b.count))

theorem sound_holding {b : EditBuffer UInt16} {display : WString}
    (hideTimer : Bool)
    (h : display.length = b.text.length) :
    (holding b display hideTimer).Sound := ⟨rfl, h⟩

@[simp] theorem length_bullets (n : ℕ) : (bullets n).length = n :=
  List.length_replicate

/-- What is in the selection goes, and something else comes in its place. -/
theorem insertAt_removeAt {s : WString} {start count : ℕ}
    (h : start + count ≤ s.length)
    (value : WString) :
    (removeAt s start count).bind (fun removed => insertAt removed start value)
      = some (s.take start ++ value ++ s.drop (start + count)) := by
  have hstart : (s.take start).length = start :=
    List.length_take_of_le (by omega)
  have hle : start ≤ (s.take start ++ s.drop (start + count)).length := by
    rw [List.length_append, hstart]
    omega
  rw [removeAt, if_pos h, Option.bind_some, insertAt, if_pos hle,
    List.take_left' hstart,
    List.drop_left' hstart]

theorem setRun_eq {sb : WString} {start : ℕ} {text : WString}
    (h : start + text.length ≤ sb.length) :
    setRun sb start text
      = some (sb.take start ++ text ++ sb.drop (start + text.length)) := by
  induction text generalizing sb start with
  | nil => simp [setRun]
  | cons c cs ih =>
    rw [List.length_cons] at h
    have hlt : start < sb.length := by omega
    have htake : (sb.set start c).take (start + 1) = sb.take start ++ [c] := by
      rw [List.take_add_one, List.take_set_of_le (Nat.le_refl _),
        List.getElem?_set_self hlt]
      rfl
    have hend : start + 1 + cs.length = start + (c :: cs).length := by
      rw [List.length_cons]
      omega
    rw [setRun, if_pos hlt, ih (by rw [List.length_set]; omega), htake,
      List.drop_set_of_lt (by omega), hend, List.append_assoc (sb.take start)]
    rfl

theorem setPassword_real (box : RevealingPasswordBox) :
    box.setPassword (some box.real) = { box with
      password := some box.real } := by
  unfold setPassword onPasswordChanged
  split
  next h => rw [h]
  next => exact if_pos rfl

/-- A display that was masked and a caret that was put into it. -/
theorem setCaretIndex_maskAll (box : RevealingPasswordBox) (n : ℕ) :
    box.maskAll.setCaretIndex n
      = { box with input := .caretAt (bullets box.real.length) n } := by
  unfold setCaretIndex maskAll
  rw [EditBuffer.select_assign]

/-- What a plain buffer does with a key. -/
def pressed (b : EditBuffer UInt16) : Key → EditBuffer UInt16
  | .back => b.backspace
  | .delete => b.delete
  | .other => b

/-- There is something for the key to delete. -/
def Deletes (box : RevealingPasswordBox) : Key → Prop
  | .back => 0 < box.input.count ∨ 0 < box.input.start
  | .delete => 0 < box.input.count ∨ box.input.start < box.real.length
  | .other => False

variable {box : RevealingPasswordBox}

theorem Sound.start_le (h : box.Sound) : box.input.start ≤ box.real.length := by
  have := h.view.inside
  exact Nat.le_trans (Nat.le_add_right _ _) this

/-- The display behind a text input: the input in clear between bullets. -/
theorem setRun_bullets (h : box.Sound) (text : WString) :
    setRun (bullets (h.view.insert text).text.length) box.input.start text
      = some (revealed h.view text) := by
  have hlen : (h.view.insert text).text.length
      = box.real.length - box.input.count + text.length :=
    EditBuffer.length_splice h.view.inside text
  have hinside : box.input.start + box.input.count ≤ box.real.length :=
    h.view.inside
  have hfits : box.input.start + text.length
      ≤ (bullets (h.view.insert text).text.length).length := by
    rw [length_bullets, hlen]
    omega
  have hbefore : min box.input.start (h.view.insert text).text.length
      = box.input.start := by
    omega
  have hbehind : (h.view.insert text).text.length
      - (box.input.start + text.length)
      = box.real.length - (box.input.start + box.input.count) := by omega
  rw [setRun_eq hfits, bullets, List.take_replicate, List.drop_replicate,
    hbefore, hbehind]
  rfl

theorem previewTextInput_eq (h : box.Sound) (text : WString) :
    box.previewTextInput text
      = some (holding (h.view.insert text) (revealed h.view text) true) := by
  have hreal : (removeAt box.real box.input.start box.input.count).bind
      (fun removed => insertAt removed box.input.start text)
      = some (h.view.insert text).text := insertAt_removeAt h.view.inside text
  obtain ⟨removed, hremoved, hinserted⟩ := Option.bind_eq_some_iff.mp hreal
  have hcaret : (h.view.insert text).start = box.input.start + text.length :=
    EditBuffer.start_splice h.start_le
  simp only [previewTextInput, Option.bind_eq_bind, hremoved, hinserted,
    setRun_bullets h,
    Option.bind_some, setCaretIndex, EditBuffer.select_assign]
  rw [setPassword_real, holding, hcaret]
  rfl

theorem publish_eq (box : RevealingPasswordBox) :
    box.publish = { box with
      password := some box.real, hideTimer := false } := by
  rw [publish, setPassword_real]

theorem onPaste_some_eq (h : box.Sound) (clip : WString) :
    box.onPaste (some clip)
      = some (holding (h.view.insert clip)
        (bullets (h.view.insert clip).text.length) false) := by
  have hreal : (removeAt box.real box.input.start box.input.count).bind
      (fun removed => insertAt removed box.input.start clip)
      = some (h.view.insert clip).text := insertAt_removeAt h.view.inside clip
  obtain ⟨removed, hremoved, hinserted⟩ := Option.bind_eq_some_iff.mp hreal
  have hcaret : (h.view.insert clip).start = box.input.start + clip.length :=
    EditBuffer.start_splice h.start_le
  simp only [onPaste, Option.bind_eq_bind, hremoved, hinserted,
    Option.bind_some,
    setCaretIndex_maskAll]
  rw [publish_eq, holding, hcaret]
  rfl

theorem deleteUnits_publish (h : box.Sound) {i n : ℕ}
    (hin : i + n ≤ box.real.length) :
    (box.deleteUnits i n).map publish
      = some (holding (h.view.splice i n [])
        (bullets (h.view.splice i n []).text.length)
          false) := by
  have hreal : removeAt box.real i n = some (h.view.splice i n []).text := by
    rw [removeAt, if_pos hin, EditBuffer.text_splice, List.append_nil]
    rfl
  have hle : i ≤ h.view.text.length := Nat.le_trans (Nat.le_add_right i n) hin
  have hcaret : (h.view.splice i n []).start = i := EditBuffer.start_splice hle
  rw [deleteUnits, hreal, Option.map_some, Option.map_some,
    setCaretIndex_maskAll, publish_eq,
    holding, hcaret]

/-- A key that has something to delete deletes it, and masks the display. -/
theorem previewKeyDown_of_deletes (h : box.Sound) {key : Key}
    (hkey : box.Deletes key) :
    box.previewKeyDown key
      = some (holding (pressed h.view key)
        (bullets (pressed h.view key).text.length) false) := by
  have hinside : box.input.start + box.input.count ≤ box.real.length :=
    h.view.inside
  cases key with
  | other => exact hkey.elim
  | back =>
    rw [previewKeyDown, if_neg (by decide), deleteFor]
    by_cases hsel : 0 < box.input.count
    · have hpressed : pressed h.view .back
          = h.view.splice box.input.start box.input.count [] :=
        if_pos hsel
      rw [if_pos hsel, hpressed]
      exact deleteUnits_publish h hinside
    · have hstart : 0 < box.input.start := hkey.resolve_left hsel
      have hpressed : pressed h.view .back
          = h.view.splice (box.input.start - 1) 1 [] :=
        (if_neg hsel).trans (if_pos hstart)
      rw [if_neg hsel, if_pos ⟨rfl, hstart⟩, hpressed]
      exact deleteUnits_publish h (by omega)
  | delete =>
    rw [previewKeyDown, if_neg (by decide), deleteFor]
    by_cases hsel : 0 < box.input.count
    · have hpressed : pressed h.view .delete
          = h.view.splice box.input.start box.input.count [] :=
        if_pos hsel
      rw [if_pos hsel, hpressed]
      exact deleteUnits_publish h hinside
    · have hend : box.input.start < box.real.length := hkey.resolve_left hsel
      have hpressed : pressed h.view .delete
          = h.view.splice box.input.start 1 [] :=
        (if_neg hsel).trans (if_pos hend)
      rw [if_neg hsel, if_neg (fun hback => Key.noConfusion hback.1),
        if_pos ⟨rfl, hend⟩,
        hpressed]
      exact deleteUnits_publish h hend

/-- A key that has nothing to delete stops the timer all the same. -/
theorem previewKeyDown_of_not_deletes {key : Key} (hother : key ≠ .other)
    (hkey : ¬ box.Deletes key) : box.previewKeyDown key = some box.publish := by
  cases key with
  | other => exact absurd rfl hother
  | back =>
    obtain ⟨hsel, hstart⟩ := not_or.mp hkey
    rw [previewKeyDown, if_neg (by decide), deleteFor, if_neg hsel,
      if_neg (fun hback => hstart hback.2),
      if_neg (fun hdelete => Key.noConfusion hdelete.1),
      Option.map_some]
  | delete =>
    obtain ⟨hsel, hend⟩ := not_or.mp hkey
    rw [previewKeyDown, if_neg (by decide), deleteFor, if_neg hsel,
      if_neg (fun hback => Key.noConfusion hback.1),
      if_neg (fun hdelete => hend hdelete.2),
      Option.map_some]

/-- A plain buffer does nothing then either. -/
theorem pressed_of_not_deletes (h : box.Sound) {key : Key}
    (hkey : ¬ box.Deletes key) :
    pressed h.view key = h.view := by
  cases key with
  | other => rfl
  | back =>
    obtain ⟨hsel, hstart⟩ := not_or.mp hkey
    exact (if_neg hsel).trans (if_neg hstart)
  | delete =>
    obtain ⟨hsel, hend⟩ := not_or.mp hkey
    exact (if_neg hsel).trans (if_neg hend)

theorem sound_publish (h : box.Sound) : box.publish.Sound := by
  rw [publish_eq]
  exact ⟨rfl, h.length_display⟩

theorem view_publish (h : box.Sound) : (sound_publish h).view = h.view := by
  refine EditBuffer.ext ?_ ?_ ?_ <;> simp only [Sound.view, publish_eq]

/-- The control behind a display has the caret where the password has it. -/
theorem view_holding {b : EditBuffer UInt16} {display : WString}
    {hideTimer : Bool}
    (h : display.length = b.text.length) (hcount : b.count = 0) :
    (sound_holding hideTimer h).view = b := by
  have hle : b.start ≤ display.length :=
    h ▸ Nat.le_trans (Nat.le_add_right _ _) b.inside
  exact EditBuffer.ext rfl (EditBuffer.start_caretAt hle) hcount.symm

theorem length_revealed (h : box.Sound) (text : WString) :
    (revealed h.view text).length = (h.view.insert text).text.length := by
  have hlen : (h.view.insert text).text.length
      = h.view.text.length - h.view.count + text.length :=
    EditBuffer.length_splice h.view.inside text
  have hinside : h.view.start + h.view.count ≤ h.view.text.length :=
    h.view.inside
  rw [hlen, revealed, List.length_append, List.length_append, length_bullets,
    length_bullets]
  omega

end RevealingPasswordBox

end WebcamStreamer
