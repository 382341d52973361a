import Mathlib.Algebra.Group.Int.Defs
import Mathlib.Algebra.Group.Nat.Defs
import Mathlib.Data.List.Basic
import Mathlib.Data.Rat.Defs

/-!
# JSON values and their accessors

Everything the program exchanges or stores as a document is JSON: requests and
responses on the control pipe, hook messages on the events pipe, the settings
file. The supervisor reads it through nlohmann/json, and this module is the
part of that library it relies on: the values, the lookups, and the accessors
with the exceptions they raise.

Strings are a parameter `σ`. A string that came out of the parser is valid
UTF-8, and there `σ` is `String`; the request loop also builds strings out of
bytes that were never checked, and there `σ` is `ByteArray`.

An object is the list of its members. A parser leaves at most one member for a
key; where a list has more, the first one counts.
-/

namespace WebcamStreamer

/-- A JSON value. `integer` covers the signed and the unsigned integers of
nlohmann/json, and `float` the doubles, which are rational numbers. -/
inductive Json (σ : Type) where
  | null
  | boolean (b : Bool)
  | integer (n : ℤ)
  | float (q : ℚ)
  | string (s : σ)
  | array (elements : List (Json σ))
  | object (members : List (String × Json σ))

/-- An exception of nlohmann/json: the number of its kind and its text. -/
structure JsonException where
  id : ℕ
  text : String
  deriving DecidableEq

/-- `type_error::what()`. -/
def JsonException.what (e : JsonException) : String :=
  "[json.exception.type_error." ++ toString e.id ++ "] " ++ e.text

/-- A 64-bit integer converted to the 32-bit `int`: the low 32 bits, read in
two's complement. -/
def int32OfInteger (n : ℤ) : ℤ := Int.bmod n (2 ^ 32)

/-- A double converted to the 32-bit `int`: truncated towards zero, and the
smallest `int` where that does not fit, which is what the conversion
instruction of x86-64 leaves. -/
def int32OfFloat (q : ℚ) : ℤ :=
  let t := if 0 ≤ q then q.floor else q.ceil
  if -2 ^ 31 ≤ t ∧ t < 2 ^ 31 then t else -2 ^ 31

/-- A computation that goes on with the result of another returns if both do. -/
theorem bind_eq_ok {ε α β : Type} {x : Except ε α}
    {f : α → Except ε β} {b : β} :
    (x >>= f) = .ok b ↔ ∃ a, x = .ok a ∧ f a = .ok b := by
  cases x with
  | error e => simp [bind, Except.bind]
  | ok a => simp [bind, Except.bind]

namespace Json

variable {σ α : Type}

/-- `type_name()`. -/
def typeName : Json σ → String
  | .null => "null"
  | .boolean _ => "boolean"
  | .integer _ | .float _ => "number"
  | .string _ => "string"
  | .array _ => "array"
  | .object _ => "object"

/-- `is_object()`. -/
def isObject : Json σ → Bool
  | .object _ => true
  | _ => false

/-- The value of a key in a list of members: the first one counts. -/
def member (key : String) : List (String × Json σ) → Option (Json σ)
  | [] => none
  | (k, w) :: rest => if key = k then some w else member key rest

/-- `find(key)`: the member of an object; anything else has none. -/
def find? (key : String) : Json σ → Option (Json σ)
  | .object members => member key members
  | _ => none

/-- `get<std::string>()`. -/
def getString : Json σ → Except JsonException σ
  | .string s => .ok s
  | j => .error ⟨302, "type must be string, but is " ++ j.typeName⟩

/-- `get<int>()`: numbers and booleans convert, nothing else does. -/
def getInt : Json σ → Except JsonException ℤ
  | .integer n => .ok (int32OfInteger n)
  | .float q => .ok (int32OfFloat q)
  | .boolean b => .ok (if b then 1 else 0)
  | j => .error ⟨302, "type must be number, but is " ++ j.typeName⟩

/-- `value(key, default)`, with the conversion it makes: the default where the
object has no such member, and an exception on anything but an object. -/
def value (get : Json σ → Except JsonException α) (j : Json σ) (key : String)
    (default : α) : Except JsonException α :=
  if j.isObject then
    match j.find? key with
    | some v => get v
    | none => .ok default
  else .error ⟨306, "cannot use value() with " ++ j.typeName⟩

/-- `value(key, std::string{})`. -/
def valueString (j : Json String) (key : String) :
    Except JsonException String :=
  j.value getString key ""

/-- `value(key, 0)`. -/
def valueInt (j : Json σ) (key : String) : Except JsonException ℤ :=
  j.value getInt key 0

/-- `is_boolean()` followed by `get<bool>()`. -/
def boolean? : Json σ → Option Bool
  | .boolean b => some b
  | _ => none

/-- `is_string()` followed by `get<std::string>()`. -/
def string? : Json σ → Option σ
  | .string s => some s
  | _ => none

theorem boolean?_eq_some {j : Json σ} {b : Bool} :
    j.boolean? = some b ↔ j = .boolean b := by
  cases j <;> simp [boolean?]

/-! ## What the accessors take

The accessors throw on a member of the wrong type, and most of the places that
call them are not in a `try` block. So it has to be said exactly on which
documents they go through, and this is said by the type of the member
alone. -/

/-- A number or a boolean, which is what `get<int>()` takes. -/
def IsNumeric (j : Json σ) : Prop :=
  (∃ n, j = .integer n) ∨ (∃ q, j = .float q) ∨ ∃ b, j = .boolean b

theorem getInt_isOk_iff {j : Json σ} :
    (∃ n, j.getInt = .ok n) ↔ j.IsNumeric := by
  cases j <;> simp [getInt, IsNumeric]

theorem getString_isOk_iff {j : Json σ} :
    (∃ s, j.getString = .ok s) ↔ ∃ s, j = .string s := by
  cases j <;> simp [getString]

section Value

variable {get : Json σ → Except JsonException α} {key : String}

/-- `value()` goes through on an object whose member, if there is one,
converts. -/
theorem value_isOk_iff {members : List (String × Json σ)} {default : α} :
    (∃ a, (object members).value get key default = .ok a) ↔
      ∀ v, member key members = some v → ∃ a, get v = .ok a := by
  have hobject : (object members).isObject = true := rfl
  have hfind : (object members).find? key = member key members := rfl
  unfold value
  rw [if_pos hobject, hfind]
  cases member key members <;> simp

/-- `value()` throws on anything but an object. -/
theorem isObject_of_value {j : Json σ} {default a : α}
    (h : j.value get key default = .ok a) :
    ∃ members, j = .object members := by
  cases j with
  | object members => exact ⟨members, rfl⟩
  | _ => cases h

end Value

/-! ## Writing a document out

A document that was parsed is UTF-8, but the program also puts texts into
documents that come from elsewhere. Writing the document out is where bytes
that are no UTF-8 are noticed, by an exception, and it is the only thing that
writing can fail on. -/

mutual

/-- The strings that occur as values in a document. -/
def texts : Json σ → List σ
  | .string s => [s]
  | .array elements => textsOfElements elements
  | .object members => textsOfMembers members
  | _ => []

/-- The strings in the elements of an array. -/
def textsOfElements : List (Json σ) → List σ
  | [] => []
  | v :: rest => texts v ++ textsOfElements rest

/-- The strings in the members of an object. -/
def textsOfMembers : List (String × Json σ) → List σ
  | [] => []
  | (_, v) :: rest => texts v ++ textsOfMembers rest

end

/-- `dump()`: a string that is not UTF-8 makes it throw `type_error.316`, and
only the number of the exception is kept. Otherwise the document goes out, and
it is kept as the document it is. -/
def dump (j : Json ByteArray) : Except ℕ (Json ByteArray) :=
  if ∀ s ∈ j.texts, s.IsValidUTF8 then .ok j else .error 316

theorem dump_eq_ok {j m : Json ByteArray} :
    j.dump = .ok m ↔ (∀ s ∈ j.texts, s.IsValidUTF8) ∧ m = j := by
  unfold dump
  split
  next h =>
    exact ⟨fun hm => ⟨h, (Except.ok.inj hm).symm⟩, fun hm => by rw [hm.2]⟩
  next h => exact ⟨(by cases ·), fun hm => absurd hm.1 h⟩

/-! ## Writing a member

The settings are written by setting a few members of the document that was
read. What is set reads back, and all other members stay as they were, which
is what makes the writing a merge. -/

/-- `members[key] = v`: the member is replaced where it stands, or added. -/
def setMember (key : String) (v : Json σ) :
    List (String × Json σ) → List (String × Json σ)
  | [] => [(key, v)]
  | (k, w) :: rest =>
    if key = k then (k, v) :: rest else (k, w) :: setMember key v rest

@[simp] theorem find?_object (key : String) (members : List (String × Json σ)) :
    (Json.object members).find? key = member key members := rfl

/-- A member that was written reads back. -/
@[simp] theorem member_setMember_self (key : String) (v : Json σ)
    (members : List (String × Json σ)) :
    member key (setMember key v members) = some v := by
  induction members with
  | nil => simp [setMember, member]
  | cons m rest ih =>
    rw [setMember]
    split
    next h => simp [member, h]
    next h => simp [member, h, ih]

/-- Writing a member leaves every other member as it was. -/
@[simp] theorem member_setMember_of_ne {key key' : String} (h : key' ≠ key)
    (v : Json σ)
    (members : List (String × Json σ)) :
    member key' (setMember key v members) = member key' members := by
  induction members with
  | nil => simp [setMember, member, h]
  | cons m rest ih =>
    rw [setMember]
    split
    next hk =>
      have hne : key' ≠ m.1 := hk ▸ h
      simp [member, hne]
    next hk => simp [member, ih]

/-- Writing a member with the value it has changes nothing. -/
theorem setMember_of_member {key : String} {v : Json σ}
    {members : List (String × Json σ)}
    (h : member key members = some v) : setMember key v members = members := by
  induction members with
  | nil => simp [member] at h
  | cons m rest ih =>
    obtain ⟨k, w⟩ := m
    rw [setMember]
    rw [member] at h
    split at h
    next hk =>
      obtain rfl := Option.some.inj h
      rw [if_pos hk]
    next hk => rw [if_neg hk, ih h]

end Json

end WebcamStreamer
