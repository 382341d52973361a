import Mathlib.Data.List.Basic
import Mathlib.Data.Char

/-!
# Percent-encoding

A byte is written as `%` and two hexadecimal digits, unless it is an ASCII
character of a set that is kept as it is. The set is a parameter: what matters
is that `%` is not in it. Then every list of bytes is read back from what is
written, and nothing is written but characters that are kept, digits and letters
for the digits, and `%` – a separator that is none of these can be looked for in
what is written.
-/

/-- The bytes that are written as they are. -/
structure PercentSet where
  keep : UInt8 → Bool
  ascii : ∀ b, keep b = true → b.toNat < 128
  percent : keep 0x25 = false

namespace PercentEncoding

/-- A hexadecimal digit. -/
def hexDigit (n : ℕ) : Char :=
  Char.ofNat (if n < 10 then 0x30 + n else 0x41 + (n - 10))

/-- What a digit stands for. -/
def hexValue (c : Char) : Option ℕ :=
  if '0' ≤ c ∧ c ≤ '9' then some (c.toNat - 0x30)
  else if 'A' ≤ c ∧ c ≤ 'F' then some (c.toNat - 0x41 + 10)
  else if 'a' ≤ c ∧ c ≤ 'f' then some (c.toNat - 0x61 + 10)
  else none

/-- What is written for one byte. -/
def escapeByte (set : PercentSet) (b : UInt8) : List Char :=
  if set.keep b then [Char.ofNat b.toNat]
  else ['%', hexDigit (b.toNat / 16), hexDigit (b.toNat % 16)]

/-- What is written for bytes. -/
def escape (set : PercentSet) (bs : List UInt8) : List Char :=
  bs.flatMap (escapeByte set)

/-- What is read; `none` where a `%` has no two digits behind it, or a character
is not ASCII. -/
def unescape : List Char → Option (List UInt8)
  | [] => some []
  | '%' :: a :: b :: rest => do
    let high ← hexValue a
    let low ← hexValue b
    return UInt8.ofNat (16 * high + low) :: (← unescape rest)
  | c :: rest =>
    if c = '%' ∨ 128 ≤ c.toNat then none
    else (unescape rest).map (UInt8.ofNat c.toNat :: ·)

/-! ## One byte

A byte is written as itself or as a percent sign and two digits, and the
reader decides between the two by the first character alone. Since a percent
sign is never written as itself, the two cannot be confused. -/

theorem hexValue_hexDigit :
    ∀ n < 16, hexValue (hexDigit n) = some n := by decide

/-- A digit is none of the characters that have no value. -/
theorem hexDigit_ne {c : Char} (h : hexValue c = none) {n : ℕ} (hn : n < 16) :
    hexDigit n ≠ c := by
  intro heq
  rw [← heq, hexValue_hexDigit n hn] at h
  cases h

variable {set : PercentSet} {b : UInt8} {c : Char} {cs : List Char}

/-- What is kept is an ASCII character other than `%`. -/
theorem keep_spec (h : set.keep b = true) :
    (Char.ofNat b.toNat).toNat = b.toNat ∧
    b.toNat < 128 ∧ Char.ofNat b.toNat ≠ '%' := by
  have hlt := set.ascii b h
  have hval : (Char.ofNat b.toNat).toNat = b.toNat := by
    rw [Char.ofNat, dif_pos (.inl (by omega))]
    rfl
  refine ⟨hval, hlt, fun hpercent => ?_⟩
  have hb : b = 0x25 := UInt8.toNat_inj.mp (by rw [← hval, hpercent]; rfl)
  rw [hb, set.percent] at h
  exact Bool.false_ne_true h

/-- **A byte is read back.** A byte that is kept is one character, and it is
no percent sign; every other one is a percent sign and two digits. -/
theorem unescape_escapeByte_append :
    unescape (escapeByte set b ++ cs) = (unescape cs).map (b :: ·) := by
  unfold escapeByte
  split
  next hkeep =>
    obtain ⟨hval, hlt, hpercent⟩ := keep_spec hkeep
    rw [List.singleton_append, unescape]
    · rw [if_neg
        (by rw [hval]; exact not_or.mpr ⟨hpercent, Nat.not_le_of_lt hlt⟩), hval,
        UInt8.ofNat_toNat]
    · intro a b' rest hc
      exact absurd hc hpercent
  next =>
    have hb : b.toNat < 256 := b.toNat_lt
    have hsum : 16 * (b.toNat / 16) + b.toNat % 16 = b.toNat := by omega
    rw [List.cons_append, List.cons_append, List.cons_append,
      List.nil_append, unescape,
      hexValue_hexDigit _ (by omega), hexValue_hexDigit _ (by omega)]
    show (do return UInt8.ofNat (16 * (b.toNat / 16) + b.toNat % 16)
      :: (← unescape cs)) = _
    rw [hsum, UInt8.ofNat_toNat]
    cases unescape cs <;> rfl

/-- **What was written is read back.** Nothing is asked of the bytes, which
need not be the encoding of a text. -/
theorem unescape_escape (bs : List UInt8) :
    unescape (escape set bs) = some bs := by
  induction bs with
  | nil => rfl
  | cons b bs ih =>
    show unescape (escapeByte set b ++ escape set bs) = some (b :: bs)
    rw [unescape_escapeByte_append, ih]
    rfl

/-- **A separator stays one**: a character that is not kept, no digit and not
`%` is not written. It is what the readers of a URL rely on when they cut at
the first separator. -/
theorem notMem_escape (hkeep : ∀ b, set.keep b = true → Char.ofNat b.toNat ≠ c)
    (hdigit : hexValue c = none) (hpercent : c ≠ '%') (bs : List UInt8) :
    c ∉ escape set bs := by
  intro hmem
  obtain ⟨b, -, hb⟩ := List.mem_flatMap.mp hmem
  unfold escapeByte at hb
  have hlt : b.toNat < 256 := b.toNat_lt
  split at hb
  next h => exact hkeep b h (List.mem_singleton.mp hb).symm
  next =>
    simp only [List.mem_cons, List.not_mem_nil, or_false] at hb
    rcases hb with hb | hb | hb
    · exact hpercent hb
    · exact hexDigit_ne hdigit (by omega) hb.symm
    · exact hexDigit_ne hdigit (by omega) hb.symm

end PercentEncoding
