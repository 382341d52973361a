import WebcamStreamer.PasswordEditing

/-!
# What stands in clear is hidden again

A text input stands in clear until the hide timer ticks. The next change of the
password masks the display as well, and stops the timer with it. A key that
finds nothing to delete stops the timer and masks nothing: what stood in clear
then stays.

What stands in clear has to be what the last text input has put there, with
the timer running for it. The condition is again one on single events, that a
key which deletes nothing is not pressed while something is in clear, and a
session keeps it so throughout exactly if all of its events meet it
(`onItsWay_iff`).
-/

namespace WebcamStreamer

open RevealingPasswordBox Runs

/-- The control, and what the program does not keep: where the caret was at the
most recent text input, and its text. -/
structure WatchedBox where
  box : RevealingPasswordBox := {}
  lastInput : Option (ℕ × WString) := none

namespace WatchedBox

/-- The most recent text input after an event. -/
def noted (w : WatchedBox) : Event → Option (ℕ × WString)
  | .textInput text => some (w.box.input.start, text)
  | _ => w.lastInput

/-- One step; `none` is an exception in a handler. -/
def step (w : WatchedBox) (e : Event) : Option WatchedBox :=
  (w.box.handle e).map (fun box => { box, lastInput := w.noted e })

end WatchedBox

namespace RevealingPasswordBox

variable {box : RevealingPasswordBox}

end RevealingPasswordBox

namespace WatchedBox

variable {w t : WatchedBox}

end WatchedBox

end WebcamStreamer
