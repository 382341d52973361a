import Mathlib.Data.List.Basic
import Mathlib.Data.Char

/-!
# UTF-16

A text in UTF-16 is a list of 16-bit units: a character below 0x10000 is one
unit, any other one is a pair of surrogates, a high one and a low one. Not every
list of units is a text. `decode` reads any list and puts the replacement
character in the place of a surrogate that has no partner, so that what was
encoded is read back, and what is read is written back as it was exactly where
no unit had to be replaced.
-/

namespace Utf16

/-- The first unit of a pair. -/
def isHigh (u : UInt16) : Bool := 0xD800 ≤ u.toNat && u.toNat < 0xDC00

/-- The second unit of a pair. -/
def isLow (u : UInt16) : Bool := 0xDC00 ≤ u.toNat && u.toNat < 0xE000

/-- A unit of a pair. -/
def isSurrogate (u : UInt16) : Bool := 0xD800 ≤ u.toNat && u.toNat < 0xE000

/-- The units of a character. -/
def units (c : Char) : List UInt16 :=
  if c.toNat < 0x10000 then [UInt16.ofNat c.toNat]
  else [UInt16.ofNat (0xD800 + (c.toNat - 0x10000) / 0x400),
    UInt16.ofNat (0xDC00 + (c.toNat - 0x10000) % 0x400)]

/-- The units of a text. -/
def encode (cs : List Char) : List UInt16 := cs.flatMap units

/-- What stands for a unit that cannot be read. -/
def replacement : Char := Char.ofNat 0xFFFD

/-- The character of a unit by itself. -/
def single (u : UInt16) : Char :=
  if isSurrogate u then replacement else Char.ofNat u.toNat

/-- The character of a pair. -/
def pair (u v : UInt16) : Char :=
  Char.ofNat (0x10000 + (u.toNat - 0xD800) * 0x400 + (v.toNat - 0xDC00))

/-- The text that is read from units. -/
def decode : List UInt16 → List Char
  | [] => []
  | [u] => [single u]
  | u :: v :: rest =>
    if isHigh u && isLow v then
      pair u v :: decode rest
    else single u :: decode (v :: rest)

/-- Every surrogate has its partner. -/
def wellFormed : List UInt16 → Bool
  | [] => true
  | [u] => !isSurrogate u
  | u :: v :: rest =>
    if isHigh u && isLow v then
      wellFormed rest
    else !isSurrogate u && wellFormed (v :: rest)

/-! ## One character

A character is one unit or a pair, and which of the two can be seen from the
first unit. Both directions are checked by arithmetic on the code point. -/

variable {c : Char} {u v : UInt16}

theorem isHigh_iff : isHigh u = true ↔ 0xD800 ≤ u.toNat ∧ u.toNat < 0xDC00 := by
  simp [isHigh]

theorem isLow_iff : isLow u = true ↔ 0xDC00 ≤ u.toNat ∧ u.toNat < 0xE000 := by
  simp [isLow]

theorem isSurrogate_iff :
    isSurrogate u = true ↔ 0xD800 ≤ u.toNat ∧ u.toNat < 0xE000 := by
  simp [isSurrogate]

/-- The code points are the numbers below 0x110000 that are no surrogates. -/
theorem toNat_cases (c : Char) :
    c.toNat < 0xD800 ∨ 0xDFFF < c.toNat ∧ c.toNat < 0x110000 :=
  c.valid

theorem toNat_ofNat {n : ℕ} (h : n < 0x10000) : (UInt16.ofNat n).toNat = n :=
  UInt16.toNat_ofNat_of_lt' h

theorem toNat_charOfNat {n : ℕ} (h : n < 0xD800 ∨ 0xDFFF < n ∧ n < 0x110000) :
    (Char.ofNat n).toNat = n := by
  rw [Char.ofNat, dif_pos h]
  rfl

/-- A character below 0x10000 is one unit, and no surrogate. -/
theorem units_of_lt (h : c.toNat < 0x10000) :
    units c = [UInt16.ofNat c.toNat] ∧
      isSurrogate (UInt16.ofNat c.toNat) = false ∧
      Char.ofNat (UInt16.ofNat c.toNat).toNat = c := by
  have hnot : ¬ isSurrogate (UInt16.ofNat c.toNat) = true := by
    rw [isSurrogate_iff, toNat_ofNat h]
    have := toNat_cases c
    omega
  exact ⟨if_pos h, Bool.eq_false_iff.mpr hnot,
    by rw [toNat_ofNat h, Char.ofNat_toNat]⟩

/-- Any other character is a pair, and is what the pair stands for. -/
theorem units_of_ge (h : 0x10000 ≤ c.toNat) :
    ∃ u v, units c = [u, v] ∧ isHigh u = true ∧ isLow v = true ∧
      pair u v = c := by
  have hc := toNat_cases c
  refine ⟨_, _, if_neg (by omega), ?_, ?_, ?_⟩
  · rw [isHigh_iff, toNat_ofNat (by omega)]
    omega
  · rw [isLow_iff, toNat_ofNat (by omega)]
    omega
  · rw [pair, toNat_ofNat (by omega), toNat_ofNat (by omega)]
    have hsum : 0x10000 + (0xD800 + (c.toNat - 0x10000) / 0x400 - 0xD800)
        * 0x400
        + (0xDC00 + (c.toNat - 0x10000) % 0x400 - 0xDC00) = c.toNat := by omega
    rw [hsum, Char.ofNat_toNat]

/-- A unit by itself is read as one unit. -/
theorem exists_units_single (u : UInt16) : ∃ x, units (single u) = [x] := by
  unfold single
  split
  next => exact ⟨0xFFFD, rfl⟩
  next h =>
    have hu : u.toNat < 0x10000 := u.toNat_lt
    have hc : (Char.ofNat u.toNat).toNat = u.toNat := by
      rw [isSurrogate_iff] at h
      exact toNat_charOfNat (by omega)
    exact ⟨_, if_pos (by rw [hc]; exact hu)⟩

/-- It stands for itself, unless it is a surrogate. -/
theorem units_single : units (single u) = [u] ↔ isSurrogate u = false := by
  cases h : isSurrogate u with
  | true =>
    have hreplaced : units (single u) = [0xFFFD] := by
      rw [single, h]
      rfl
    rw [hreplaced]
    refine iff_of_false (fun heq => ?_) nofun
    obtain rfl : (0xFFFD : UInt16) = u := List.head_eq_of_cons_eq heq
    exact absurd h (by decide)
  | false =>
    refine iff_of_true ?_ rfl
    have hu : u.toNat < 0x10000 := u.toNat_lt
    have hnot : ¬ (0xD800 ≤ u.toNat ∧ u.toNat < 0xE000) := by
      rw [← isSurrogate_iff, h]
      exact Bool.false_ne_true
    have hc : (single u).toNat = u.toNat := by
      rw [single, h]
      exact toNat_charOfNat (by omega)
    rw [units, hc, if_pos hu, UInt16.ofNat_toNat]

/-- The character of a pair has the units of the pair. -/
theorem units_pair (hu : isHigh u = true) (hv : isLow v = true) :
    units (pair u v) = [u, v] := by
  rw [isHigh_iff] at hu
  rw [isLow_iff] at hv
  have hc : (pair u v).toNat = 0x10000 + (u.toNat - 0xD800) * 0x400
      + (v.toNat - 0xDC00) :=
    toNat_charOfNat (by omega)
  have hhigh : 0xD800 + ((pair u v).toNat - 0x10000) / 0x400 = u.toNat := by
    omega
  have hlow : 0xDC00 + ((pair u v).toNat - 0x10000) % 0x400 = v.toNat := by
    omega
  rw [units, if_neg (by omega), hhigh, hlow, UInt16.ofNat_toNat,
    UInt16.ofNat_toNat]

/-! ## Texts

Decoding undoes encoding without conditions. In the other direction it is a
condition on the units that every surrogate has its partner, since a unit that
has none becomes the replacement character. -/

variable {us : List UInt16}

theorem decode_pair (hu : isHigh u = true) (hv : isLow v = true) :
    decode (u :: v :: us) = pair u v :: decode us := by
  rw [decode, hu, hv]
  rfl

theorem decode_single (h : isSurrogate u = false) :
    decode (u :: us) = single u :: decode us := by
  have hhigh : isHigh u = false := by
    refine Bool.eq_false_iff.mpr (fun hhigh => ?_)
    rw [isHigh_iff] at hhigh
    refine absurd (isSurrogate_iff.mpr ⟨hhigh.1, by omega⟩) ?_
    rw [h]
    exact Bool.false_ne_true
  cases us with
  | nil => rfl
  | cons v rest =>
    rw [decode, hhigh]
    rfl

/-- The first character is read from its units. -/
theorem decode_units_append (c : Char) :
    decode (units c ++ us) = c :: decode us := by
  by_cases h : c.toNat < 0x10000
  · obtain ⟨hunits, hnot, hc⟩ := units_of_lt h
    rw [hunits, List.singleton_append, decode_single hnot, single, hnot]
    exact congrArg (· :: decode us) hc
  · obtain ⟨u, v, hunits, hu, hv, hc⟩ := units_of_ge (Nat.le_of_not_lt h)
    rw [hunits, List.cons_append, List.singleton_append, decode_pair hu hv, hc]

/-- **What was encoded is read back.** A character is one unit or a pair, and
the first unit of a pair cannot be a character of its own. -/
theorem decode_encode (cs : List Char) : decode (encode cs) = cs := by
  induction cs with
  | nil => rfl
  | cons c cs ih =>
    show decode (units c ++ encode cs) = c :: cs
    rw [decode_units_append, ih]

theorem encode_injective : Function.Injective encode :=
  Function.LeftInverse.injective decode_encode

/-- **What was read is written back as it was**, exactly where every surrogate
has its partner. A single surrogate is replaced, and the replacement is
encoded as itself, so that the original is lost. -/
theorem encode_decode_iff : encode (decode us) = us ↔ wellFormed us = true := by
  induction us using decode.induct with
  | case1 => exact iff_of_true rfl rfl
  | case2 u =>
    show units (single u) ++ [] = [u] ↔ (!isSurrogate u) = true
    rw [List.append_nil, units_single, Bool.not_eq_true']
  | case3 u v rest hpair ih =>
    obtain ⟨hu, hv⟩ := Bool.and_eq_true_iff.mp hpair
    rw [decode_pair hu hv, wellFormed, if_pos hpair, ← ih]
    show units (pair u v) ++ encode (decode rest) = [u, v] ++ rest ↔ _
    rw [units_pair hu hv, List.append_cancel_left_eq]
  | case4 u v rest hpair ih =>
    rw [decode, if_neg hpair, wellFormed, if_neg hpair, Bool.and_eq_true,
      Bool.not_eq_true', ← ih,
      ← units_single]
    show units (single u) ++ encode (decode (v :: rest)) = u :: v :: rest ↔ _
    constructor
    · intro h
      obtain ⟨x, hx⟩ := exists_units_single u
      rw [hx, List.singleton_append] at h
      obtain ⟨rfl, hrest⟩ := List.cons.inj h
      exact ⟨hx, hrest⟩
    · rintro ⟨hu, hrest⟩
      rw [hu, hrest, List.singleton_append]

/-- What is encoded has every surrogate with its partner. -/
theorem wellFormed_encode (cs : List Char) : wellFormed (encode cs) = true :=
  encode_decode_iff.mp (congrArg encode (decode_encode cs))

end Utf16
