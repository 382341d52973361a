import Mathlib.Algebra.GroupWithZero.Nat
import Mathlib.Data.List.Basic
import Mathlib.Data.PNat.Defs

/-!
# Pipes with a buffer of bounded size

A writer puts elements into a pipe one by one, as long as the buffer has room
for them, and a reader gets them out in pieces. Elements may need more room or
less; some need none. A pipe keeps what its reader has got, so that nothing that
was written is ever forgotten (`written_put`, `written_get`).

That the buffer fits is a field of the pipe. A writer that finds no room has
to wait, and it never waits at an empty buffer as long as its element fits at
all (`buffer_ne_nil_of_put`): somebody else has to have written what stands in
its way, and somebody has to read it.
-/

/-- A pipe with so much room for elements of different sizes: what the reader
has got, and what is on its way. -/
structure BoundedPipe (α : Type) (size : α → ℕ) (room : ℕ+) where
  received : List α
  buffer : List α
  fits : (buffer.map size).sum ≤ room

namespace BoundedPipe

variable {α : Type} {size : α → ℕ} {room : ℕ+}

/-- A pipe that nothing was written to. -/
def empty : BoundedPipe α size room := ⟨[], [], Nat.zero_le _⟩

/-- What was written. -/
def written (p : BoundedPipe α size room) : List α := p.received ++ p.buffer

/-- An element is written, if there is room for it. -/
def put (p : BoundedPipe α size room) (a : α) :
    Option (BoundedPipe α size room) :=
  if h : (p.buffer.map size).sum + size a ≤ room then
    some ⟨p.received, p.buffer ++ [a], by
      rwa [List.map_append, List.sum_append, List.map_singleton,
        List.sum_singleton]⟩
  else none

/-- So many elements are read. -/
def get (p : BoundedPipe α size room) (n : ℕ) : BoundedPipe α size room :=
  ⟨p.received ++ p.buffer.take n, p.buffer.drop n, by
    have hsplit : ((p.buffer.take n).map size).sum
        + ((p.buffer.drop n).map size).sum
        = (p.buffer.map size).sum := by
      rw [← List.sum_append, ← List.map_append, List.take_append_drop]
    have hfits := p.fits
    omega⟩

variable {p q : BoundedPipe α size room} {a : α}

theorem put_eq_some (h : p.put a = some q) :
    q.received = p.received ∧ q.buffer = p.buffer ++ [a] := by
  unfold put at h
  split at h
  next =>
    obtain rfl := Option.some.inj h
    exact ⟨rfl, rfl⟩
  next => cases h

theorem written_put (h : p.put a = some q) : q.written = p.written ++ [a] := by
  obtain ⟨hreceived, hbuffer⟩ := put_eq_some h
  rw [written, written, hreceived, hbuffer, List.append_assoc]

@[simp] theorem written_get (p : BoundedPipe α size room) (n : ℕ) :
    (p.get n).written = p.written := by
  show (p.received ++ p.buffer.take n) ++ p.buffer.drop n
    = p.received ++ p.buffer
  rw [List.append_assoc, List.take_append_drop]

/-- A writer that has to wait leaves the reader something to read: no element is
larger than the room for it. -/
theorem buffer_ne_nil_of_put (hsize : size a ≤ room) (h : p.put a = none) :
    p.buffer ≠ [] := by
  intro hbuffer
  have hfits : (p.buffer.map size).sum + size a ≤ room := by
    rw [hbuffer, List.map_nil, List.sum_nil, Nat.zero_add]
    exact hsize
  rw [put, dif_pos hfits] at h
  cases h

/-- A reader that has read everything has got what was written. -/
theorem received_eq_written (h : p.buffer = []) : p.received = p.written := by
  rw [written, h, List.append_nil]

end BoundedPipe
