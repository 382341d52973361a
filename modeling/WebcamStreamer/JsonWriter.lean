import WebcamStreamer.JsonReader
import WebcamStreamer.Overrides

/-!
# Writing JSON texts

A document is written without any space between its parts. What is in a string
stands there as it is, except for quotes, backslashes and control characters,
which are escaped – so that nothing in a text ends a line, whatever the strings
are (`oneLine_text`).

A number that is no integer is written with one digit behind the point here,
which is exact for the frame rates of cameras; `dump` writes as many as it
needs.

Strings are bytes, since the library keeps them so, and they are written byte
by byte. No line end is written between the parts of a document either, so
that the lines of a stream can be told apart without reading the documents on
them.
-/

namespace WebcamStreamer

namespace JsonWriter

open JsonReader (quote backslash)

/-- A hexadecimal digit. -/
def hexDigit (n : UInt8) : UInt8 := if n < 10 then 0x30 + n else 0x57 + n

/-- The letters of the control characters that have an escape of two
characters. -/
def shortEscapes : List (UInt8 × UInt8) :=
  [(0x08, 0x62), (0x09, 0x74), (0x0A, 0x6E), (0x0C, 0x66), (0x0D, 0x72)]

/-- A byte of a string. -/
def escapeByte (c : UInt8) : Bytes :=
  if c = quote ∨ c = backslash then [backslash, c]
  else if c < 0x20 then
    match shortEscapes.lookup c with
    | some e => [backslash, e]
    | none =>
      [backslash, 0x75, 0x30, 0x30, hexDigit (c / 16), hexDigit (c % 16)]
  else [c]

/-- A string. -/
def string (s : Bytes) : Bytes := quote :: (s.flatMap escapeByte ++ [quote])

/-- A number with one digit behind the point. -/
def decimal (q : ℚ) : String :=
  let tenths := (|q| * 10).floor
  (if q < 0 then "-" else "") ++ toString (tenths / 10) ++ "."
    ++ toString (tenths % 10)

mutual

/-- `dump()`. -/
def text : Json ByteArray → Bytes
  | .null => ascii "null"
  | .boolean b => ascii (if b then "true" else "false")
  | .integer n => ascii (toString n)
  | .float q => ascii (decimal q)
  | .string s => string s.data.toList
  | .array vs => 0x5B :: (elements vs ++ [0x5D])
  | .object ms => 0x7B :: (members ms ++ [0x7D])

/-- The elements of an array, with commas between them. -/
def elements : List (Json ByteArray) → Bytes
  | [] => []
  | v :: vs => text v ++ (if vs.isEmpty then [] else 0x2C :: elements vs)

/-- The members of an object. -/
def members : List (String × Json ByteArray) → Bytes
  | [] => []
  | (name, v) :: ms =>
    string name.toUTF8.data.toList ++ 0x3A :: text v
      ++ (if ms.isEmpty then [] else 0x2C :: members ms)

end

/-! ## One line

A byte is plain if it is no control character. Everything that is written is
plain, the escapes included, by the structure of the document. -/

/-- No byte is a control character. -/
def Plain (t : Bytes) : Prop := ∀ c ∈ t, 0x20 ≤ c

instance (t : Bytes) : Decidable (Plain t) := List.decidableBAll _ t

theorem plain_append {s t : Bytes} (hs : Plain s) (ht : Plain t) :
    Plain (s ++ t) :=
  fun c hc => (List.mem_append.mp hc).elim (hs c) (ht c)

theorem plain_cons {c : UInt8} {t : Bytes} (hc : 0x20 ≤ c) (ht : Plain t) :
    Plain (c :: t) :=
  List.forall_mem_cons.mpr ⟨hc, ht⟩

theorem plain_nil : Plain [] := fun _ hc => absurd hc List.not_mem_nil

theorem plain_escapeByte (c : UInt8) : Plain (escapeByte c) := by
  have hall : ∀ n < 256,
      (escapeByte (UInt8.ofNat n)).all (0x20 ≤ ·) = true := by
    decide +kernel
  have hc := hall c.toNat c.toNat_lt
  rw [UInt8.ofNat_toNat] at hc
  exact fun d hd => of_decide_eq_true (List.all_eq_true.mp hc d hd)

theorem plain_string (s : Bytes) : Plain (string s) := by
  have hquote : 0x20 ≤ quote := by decide
  refine plain_cons hquote
    (plain_append (fun c hc => ?_) (plain_cons hquote plain_nil))
  obtain ⟨d, -, hd⟩ := List.mem_flatMap.mp hc
  exact plain_escapeByte d c hd

theorem plain_ascii {s : String}
    (h : ∀ c ∈ s.toList, c.isDigit = true ∨ c ∈ ['-', '.']) :
    Plain (ascii s) := by
  intro b hb
  obtain ⟨c, hc, rfl⟩ := List.mem_map.mp hb
  rcases h c hc with hdigit | hmem
  · have hrange : 48 ≤ c.toNat ∧ c.toNat ≤ 57 := by
      simpa [Char.isDigit, UInt32.le_iff_toNat_le] using hdigit
    rw [UInt8.le_iff_toNat_le, UInt8.toNat_ofNat', Nat.mod_eq_of_lt (by omega)]
    exact Nat.le_trans (by decide) hrange.1
  · simp only [List.mem_cons, List.not_mem_nil, or_false] at hmem
    rcases hmem with rfl | rfl <;> decide

theorem plain_toString (n : ℤ) : Plain (ascii (toString n)) :=
  plain_ascii (fun _ hc =>
    (isDigit_of_mem_toString hc).imp_right
      (fun h => List.mem_cons.mpr (.inl h)))

theorem plain_decimal (q : ℚ) : Plain (ascii (decimal q)) := by
  refine plain_ascii (fun c hc => ?_)
  have hsign : ∀ d ∈ (if q < 0 then "-" else "").toList, d = '-' := by
    split <;> simp
  have hnumber : ∀ n : ℤ, ∀ d ∈ (toString n).toList,
      d.isDigit = true ∨ d ∈ ['-', '.'] :=
    fun n d hd => (isDigit_of_mem_toString hd).imp_right (fun h =>
      List.mem_cons.mpr (.inl h))
  simp only [decimal, String.toList_append, List.mem_append] at hc
  rcases hc with ((hc | hc) | hc) | hc
  · exact .inr (List.mem_cons.mpr (.inl (hsign c hc)))
  · exact hnumber _ c hc
  · exact .inr (List.mem_cons_of_mem _ hc)
  · exact hnumber _ c hc

mutual

theorem plain_text : ∀ j : Json ByteArray, Plain (text j)
  | .null => by decide
  | .boolean true => by decide
  | .boolean false => by decide
  | .integer n => plain_toString n
  | .float q => plain_decimal q
  | .string s => plain_string _
  | .array vs =>
    plain_cons (by decide)
      (plain_append (plain_elements vs) (plain_cons (by decide) plain_nil))
  | .object ms =>
    plain_cons (by decide)
      (plain_append (plain_members ms) (plain_cons (by decide) plain_nil))

theorem plain_elements : ∀ vs : List (Json ByteArray), Plain (elements vs)
  | [] => plain_nil
  | v :: vs => by
    refine plain_append (plain_text v) ?_
    split
    next => exact plain_nil
    next => exact plain_cons (by decide) (plain_elements vs)

theorem plain_members :
    ∀ ms : List (String × Json ByteArray), Plain (members ms)
  | [] => plain_nil
  | (name, v) :: ms => by
    refine plain_append
      (plain_append (plain_string _) (plain_cons (by decide) (plain_text v))) ?_
    split
    next => exact plain_nil
    next => exact plain_cons (by decide) (plain_members ms)

end

/-- **A document is written on one line.** Line breaks in strings are escaped,
and none are written between the parts of a value. -/
theorem oneLine_text (j : Json ByteArray) :
    newline ∉ text j ∧ carriageReturn ∉ text j :=
  ⟨fun h => absurd (plain_text j _ h) (by decide),
    fun h => absurd (plain_text j _ h) (by decide)⟩

/-! ## Documents of texts

A document that a program has parsed has texts in it where the library has
bytes. It is written by way of their encoding. -/

mutual

/-- A document of texts as the library has it, with its strings in UTF-8. -/
def inUtf8 : Json String → Json ByteArray
  | .null => .null
  | .boolean b => .boolean b
  | .integer n => .integer n
  | .float q => .float q
  | .string s => .string s.toUTF8
  | .array vs => .array (elementsInUtf8 vs)
  | .object ms => .object (membersInUtf8 ms)

/-- The elements of an array. -/
def elementsInUtf8 : List (Json String) → List (Json ByteArray)
  | [] => []
  | v :: vs => inUtf8 v :: elementsInUtf8 vs

/-- The members of an object. -/
def membersInUtf8 : List (String × Json String) → List (String × Json ByteArray)
  | [] => []
  | (name, v) :: ms => (name, inUtf8 v) :: membersInUtf8 ms

end

theorem ascii_ne_nil {s : String} (h : s.toList ≠ []) : ascii s ≠ [] :=
  fun hnil => h (List.map_eq_nil_iff.mp hnil)

/-- Something is written for every document. -/
theorem text_ne_nil (j : Json ByteArray) : text j ≠ [] := by
  cases j with
  | null => decide
  | boolean b => cases b <;> decide
  | integer n =>
    refine ascii_ne_nil ?_
    rw [Int.toString_eq_repr]
    cases n with
    | ofNat m =>
      show m.repr.toList ≠ []
      rw [Nat.toList_repr]
      exact Nat.toDigits_ne_nil
    | negSucc m =>
      show ("-" ++ (m + 1).repr).toList ≠ []
      simp
  | float q =>
    refine ascii_ne_nil ?_
    simp [decimal]
  | string s => exact List.cons_ne_nil _ _
  | array vs => exact List.cons_ne_nil _ _
  | object ms => exact List.cons_ne_nil _ _

end JsonWriter

end WebcamStreamer
