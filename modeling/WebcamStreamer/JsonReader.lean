import Mathlib.Data.String.Basic
import WebcamStreamer.PipeReaders
import WebcamStreamer.StableSort

/-!
# JSON texts

What the program writes as JSON without a library is read by one, and what that
library has to do with it is in the standard: this module reads JSON texts as
the standard says, except for numbers and the escapes by code point, about which
it says nothing. It also says nothing about objects that have a name twice.

An object has its members in the order of their names, as the maps of
nlohmann/json keep them. A parser that conforms reads at least these texts, and
reads them so (`Conforms`).
-/

namespace WebcamStreamer

/-- The bytes of an ASCII literal. -/
def ascii (s : String) : Bytes := s.toList.map (fun c => UInt8.ofNat c.toNat)

namespace JsonReader

/-! ## Reading

The reader is a recursive descent over the bytes, bounded by a number that is
taken from the length of the text. It reads what the standard says, and a
conforming parser is one that agrees with it wherever it reads something. -/

/-- `"` -/
def quote : UInt8 := 0x22

/-- `\` -/
def backslash : UInt8 := 0x5C

/-- `{` -/
def openBrace : UInt8 := 0x7B

/-- `}` -/
def closeBrace : UInt8 := 0x7D

/-- Blank, tab, line feed and carriage return. -/
def isSpace (c : UInt8) : Bool :=
  c == 0x20 || c == 0x09 || c == 0x0A || c == 0x0D

def skipSpace (t : Bytes) : Bytes := t.dropWhile isSpace

/-- What stands behind a symbol, which may have blanks before it. -/
def symbol (c : UInt8) (t : Bytes) : Option Bytes :=
  match skipSpace t with
  | d :: rest => if d = c then some rest else none
  | [] => none

/-- The byte that an escape of two characters stands for. -/
def unescape (e : UInt8) : Option UInt8 :=
  -- a slash may be escaped, too
  if e = quote ∨ e = backslash ∨ e = 0x2F then some e
  else if e = 0x62 then some 0x08
  else if e = 0x66 then some 0x0C
  else if e = 0x6E then some 0x0A
  else if e = 0x72 then some 0x0D
  else if e = 0x74 then some 0x09
  else none

/-- A string behind its opening quote: its bytes, and what follows the closing
one. -/
def stringBytes : Bytes → Option (Bytes × Bytes)
  | [] => none
  | c :: cs =>
    if c = quote then some ([], cs)
    else if c = backslash then
      match cs with
      | [] => none
      | e :: rest => do
        let b ← unescape e
        let (s, t) ← stringBytes rest
        return (b :: s, t)
    else if c < 0x20 then none
    else do
      let (s, t) ← stringBytes cs
      return (c :: s, t)

theorem stringBytes_quote (t : Bytes) :
    stringBytes (quote :: t) = some ([], t) := by
  rw [stringBytes.eq_def]
  exact if_pos rfl

theorem stringBytes_escape (e : UInt8) (t : Bytes) :
    stringBytes (backslash :: e :: t)
      = (unescape e).bind (fun b => (stringBytes t).map (fun p => (b :: p.1,
        p.2))) := by
  have hne : backslash ≠ quote := by decide
  rw [stringBytes.eq_def]
  dsimp only
  rw [if_neg hne, if_pos rfl]
  cases unescape e <;> cases stringBytes t <;> rfl

theorem stringBytes_plain {c : UInt8} (hquote : c ≠ quote)
    (hback : c ≠ backslash)
    (hspace : ¬ c < 0x20) (t : Bytes) :
    stringBytes (c :: t) = (stringBytes t).map (fun p => (c :: p.1, p.2)) := by
  rw [stringBytes.eq_def]
  dsimp only
  rw [if_neg hquote, if_neg hback, if_neg hspace]
  cases stringBytes t <;> rfl

/-- A string behind its opening quote, which has to be UTF-8. -/
def string (t : Bytes) : Option (String × Bytes) := do
  let (s, rest) ← stringBytes t
  let s ← String.fromUTF8? ⟨s.toArray⟩
  return (s, rest)

/-- A word of the grammar. -/
def word (w t : Bytes) : Option Bytes :=
  if w.isPrefixOf t then some (t.drop w.length) else none

/-- `true`, `false` and `null`. -/
def literal (t : Bytes) : Option (Json String × Bytes) :=
  ((word [0x74, 0x72, 0x75, 0x65] t).map (.boolean true, ·)).or
    (((word [0x66, 0x61, 0x6C, 0x73, 0x65] t).map (.boolean false, ·)).or
      ((word [0x6E, 0x75, 0x6C, 0x6C] t).map (.null, ·)))

/-- The members of an object in the order of their names. -/
def sortMembers (members : List (String × Json String)) :
    List (String × Json String) :=
  StableSort.orderBy Prod.fst members

mutual

/-- A value, and what follows it. `fuel` bounds the depth and the number of
members and elements. -/
def value : ℕ → Bytes → Option (Json String × Bytes)
  | 0, _ => none
  | fuel + 1, t =>
    match skipSpace t with
    | [] => none
    | c :: cs =>
      if c = quote then (string cs).map (fun p => (.string p.1, p.2))
      else if c = 0x7B then
        match symbol 0x7D cs with
        | some rest => some (.object [], rest)
        | none =>
          (members fuel cs).map (fun p => (.object (sortMembers p.1), p.2))
      else if c = 0x5B then
        match symbol 0x5D cs with
        | some rest => some (.array [], rest)
        | none => (elements fuel cs).map (fun p => (.array p.1, p.2))
      else literal (c :: cs)

/-- The members of an object that has some, up to its closing brace. -/
def members : ℕ → Bytes → Option (List (String × Json String) × Bytes)
  | 0, _ => none
  | fuel + 1, t => do
    let t ← symbol quote t
    let (name, t) ← string t
    let t ← symbol 0x3A t
    let (v, t) ← value fuel t
    match symbol 0x2C t with
    | none => (symbol 0x7D t).map (fun rest => ([(name, v)], rest))
    | some t =>
      let (others, rest) ← members fuel t
      if name ∈ others.map Prod.fst then
        none
      else return ((name, v) :: others, rest)

/-- The elements of an array that has some, up to its closing bracket. -/
def elements : ℕ → Bytes → Option (List (Json String) × Bytes)
  | 0, _ => none
  | fuel + 1, t => do
    let (v, t) ← value fuel t
    match symbol 0x2C t with
    | none => (symbol 0x5D t).map (fun rest => ([v], rest))
    | some t =>
      let (others, rest) ← elements fuel t
      return (v :: others, rest)

end

/-- **A JSON text**: one value, and nothing behind it. Blanks may stand in
front of the value and behind it, as the standard has it. -/
def text (t : Bytes) : Option (Json String) :=
  match value (t.length + 1) t with
  | some (v, rest) => if skipSpace rest = [] then some v else none
  | none => none

/-- **A parser that conforms** to the standard. Nothing is asked of it on
bytes that are no JSON text, where a parser may be as lenient as it likes. -/
def Conforms (parse : Parser) : Prop :=
  ∀ t v, text t = some v → parse ⟨t.toArray⟩ = .ok v

end JsonReader

end WebcamStreamer
