import Mathlib.Algebra.Order.Field.Power
import Mathlib.Algebra.Ring.Parity
import Mathlib.Data.Int.Log
import Mathlib.Data.Rat.Floor
import Mathlib.Tactic.Linarith
import Mathlib.Tactic.Positivity

/-!
# Rounding to a binary floating-point format

A number is rounded to the nearest multiple of the spacing that the format has
at its magnitude, and to the even one of two that are equally near. Numbers of
too great a magnitude overflow and numbers of too small a magnitude round to
zero; both happen past a power of two, or half a spacing before it
(`BinaryFormat.le_nearest_iff`, `BinaryFormat.nearest_eq_zero_iff`).

Only numbers that are not negative are rounded here.

The format is a record of three numbers, the precision and the two ends of the
exponents, and rounding is a function from the rationals to the rationals,
without a representation in bits. That is enough for questions about range:
whether a decimal text overflows, and whether it becomes zero, is decided by
comparing it with a power of two and half a spacing.
-/

namespace FloatRounding

variable {K : Type*} [Field K] [LinearOrder K] [IsStrictOrderedRing K]
  [FloorRing K]

/-! ## To the nearest integer

Rounding to the nearest integer, to the even one of two, is described by where
it goes from half to half. The two lemmas have an even integer as their bound,
which is the case that the format needs. -/

/-- The nearest integer, and the even one of two that are equally near. -/
def roundHalfEven (x : K) : ℤ :=
  if 2 * (x - ⌊x⌋) < 1 ∨ 2 * (x - ⌊x⌋) = 1 ∧ Even ⌊x⌋ then ⌊x⌋ else ⌊x⌋ + 1

/-- A number is rounded down to an even integer from half above it. -/
theorem roundHalfEven_le_iff {x : K} {n : ℤ} (hn : Even n) :
    roundHalfEven x ≤ n ↔ 2 * (x - n) ≤ 1 := by
  have hfloor := Int.floor_le x
  have hlt := Int.lt_floor_add_one x
  rcases lt_trichotomy ⌊x⌋ n with h | rfl | h
  · -- below `n` both sides hold, since `x < n`
    have hle : ((⌊x⌋ + 1 : ℤ) : K) ≤ n := Int.cast_le.mpr h
    push_cast at hle
    refine iff_of_true ?_ (by linarith)
    unfold roundHalfEven
    split <;> omega
  · unfold roundHalfEven
    by_cases hhalf : 2 * (x - ⌊x⌋) ≤ 1
    · rw [if_pos ((lt_or_eq_of_le hhalf).imp id (fun heq => ⟨heq, hn⟩))]
      exact iff_of_true le_rfl hhalf
    · rw [if_neg
        (fun hcase => hhalf (hcase.elim le_of_lt (fun heq => heq.1.le)))]
      exact iff_of_false (by omega) hhalf
  · -- above `n` neither does: at `n + 1` a half rounds up, since `n + 1` is odd
    have hle : ((n + 1 : ℤ) : K) ≤ ⌊x⌋ := Int.cast_le.mpr h
    push_cast at hle
    refine iff_of_false ?_ (by linarith)
    unfold roundHalfEven
    split <;> omega

/-- A number is rounded up to an even integer from half below it. -/
theorem le_roundHalfEven_iff {x : K} {n : ℤ} (hn : Even n) :
    n ≤ roundHalfEven x ↔ 2 * (n - x) ≤ 1 := by
  have hfloor := Int.floor_le x
  have hlt := Int.lt_floor_add_one x
  rcases lt_trichotomy (⌊x⌋ + 1) n with h | h | h
  · have hle : ((⌊x⌋ + 1 + 1 : ℤ) : K) ≤ n := Int.cast_le.mpr h
    push_cast at hle
    refine iff_of_false ?_ (by linarith)
    unfold roundHalfEven
    split <;> omega
  · -- just above the floor, which is odd
    have hodd : ¬ Even ⌊x⌋ := by
      rw [← h] at hn
      exact fun heven => (Int.even_add_one.mp hn) heven
    have hcast : (n : K) = ⌊x⌋ + 1 := by
      rw [← h]
      push_cast
      rfl
    unfold roundHalfEven
    by_cases hhalf : 2 * (x - ⌊x⌋) < 1
    · rw [if_pos (.inl hhalf)]
      exact iff_of_false (by omega) (by linarith)
    · rw [if_neg (fun hcase => hcase.elim hhalf (fun heq => hodd heq.2))]
      exact iff_of_true h.ge (by linarith)
  · have hle : (n : K) ≤ ⌊x⌋ := Int.cast_le.mpr (Int.lt_add_one_iff.mp h)
    refine iff_of_true ?_ (by linarith)
    unfold roundHalfEven
    split <;> omega

/-! ## To a format

A format is given by its precision and its range of exponents, and a number is
rounded to a multiple of the spacing at its magnitude. Only the two ends of
the range matter here, since these are where a conversion reports an error. -/

/-- A binary format: the number of bits of its significands, and the exponents
of its smallest and of its largest normal numbers. -/
structure BinaryFormat where
  precision : ℕ
  minExp : ℤ
  maxExp : ℤ
  precision_ge : 2 ≤ precision
  minExp_le : minExp ≤ maxExp

/-- The format of a `double`. -/
def binary64 : BinaryFormat := ⟨53, -1022, 1023, by decide, by decide⟩

namespace BinaryFormat

variable (f : BinaryFormat) {q : K}

/-- The exponent of the spacing at the magnitude of a number; it does not shrink
below that of the smallest normal number. -/
def spacing (q : K) : ℤ := max (Int.log 2 q) f.minExp - (f.precision - 1)

/-- The number rounded to the format, as if its exponents had no upper bound. -/
def nearest (q : K) : K := roundHalfEven (q / 2 ^ f.spacing q) * 2 ^ f.spacing q

omit [IsStrictOrderedRing K] in
theorem zpow_spacing_eq_half_mul (q : K) :
    (2 : K) ^ f.spacing q = 2 ^ (f.spacing q - 1) * 2 := by
  rw [← zpow_add_one₀ two_ne_zero, sub_add_cancel]

/-- A number rounds up to an even multiple of its spacing. -/
theorem mul_le_nearest_iff {n : ℤ} (hn : Even n) :
    n * 2 ^ f.spacing q ≤ f.nearest q ↔
      n * 2 ^ f.spacing q - 2 ^ (f.spacing q - 1) ≤ q := by
  have hpos : (0 : K) < 2 ^ f.spacing q := by positivity
  have hhalf := f.zpow_spacing_eq_half_mul q
  have hq : q = q / 2 ^ f.spacing q * 2 ^ f.spacing q :=
    (div_mul_cancel₀ q hpos.ne').symm
  unfold nearest
  rw [mul_le_mul_iff_left₀ hpos, Int.cast_le, le_roundHalfEven_iff hn,
    ← mul_le_mul_iff_left₀ hpos]
  constructor <;> intro h <;> linarith

/-- A number rounds down to an even multiple of its spacing. -/
theorem nearest_le_mul_iff {n : ℤ} (hn : Even n) :
    f.nearest q ≤ n * 2 ^ f.spacing q ↔
      q ≤ n * 2 ^ f.spacing q + 2 ^ (f.spacing q - 1) := by
  have hpos : (0 : K) < 2 ^ f.spacing q := by positivity
  have hhalf := f.zpow_spacing_eq_half_mul q
  have hq : q = q / 2 ^ f.spacing q * 2 ^ f.spacing q :=
    (div_mul_cancel₀ q hpos.ne').symm
  unfold nearest
  rw [mul_le_mul_iff_left₀ hpos, Int.cast_le, roundHalfEven_le_iff hn,
    ← mul_le_mul_iff_left₀ hpos]
  constructor <;> intro h <;> linarith

/-- A number of at least the smallest normal magnitude has the power of two that
its spacing is made of. -/
theorem zpow_spacing_le (hq : 0 < q) (h : f.minExp ≤ Int.log 2 q) :
    (2 : K) ^ (f.spacing q + (f.precision - 1)) ≤ q := by
  rw [spacing, max_eq_left h, sub_add_cancel]
  exact_mod_cast Int.zpow_log_le_self one_lt_two hq

/-- Every number is less than the power of two above it. -/
theorem lt_zpow_spacing (q : K) : q < 2 ^ (f.spacing q + f.precision) := by
  have hlog : q < (2 : K) ^ (Int.log 2 q + 1) := by
    exact_mod_cast Int.lt_zpow_succ_log_self one_lt_two q
  refine hlog.trans_le (zpow_le_zpow_right₀ one_le_two ?_)
  have hmax := le_max_left (Int.log 2 q) f.minExp
  unfold spacing
  omega

omit [IsStrictOrderedRing K] in
/-- A power of two above the spacing is a multiple of it. -/
theorem zpow_spacing_add (q : K) (k : ℕ) :
    (2 : K) ^ (f.spacing q + k) = ((2 ^ k : ℤ) : K) * 2 ^ f.spacing q := by
  rw [zpow_add₀ two_ne_zero, mul_comm]
  norm_cast

/-- **Underflow**: the numbers that round to zero are those of at most half
the smallest spacing. The bound itself is a tie, which goes to the even
neighbour, and that is zero. -/
theorem nearest_eq_zero_iff (hq : 0 ≤ q) :
    f.nearest q = 0 ↔ q ≤ 2 ^ (f.minExp - f.precision) := by
  have hnonneg : 0 ≤ f.nearest q := by
    simpa using (f.mul_le_nearest_iff (q := q) (n := 0) (by decide)).mpr
      (by simpa using hq.trans' (neg_nonpos.mpr (by positivity)))
  have hzero : f.nearest q = 0 ↔ q ≤ 2 ^ (f.spacing q - 1) := by
    rw [le_antisymm_iff, and_iff_left hnonneg]
    simpa using f.nearest_le_mul_iff (q := q) (n := 0) (by decide)
  rw [hzero]
  have hp := f.precision_ge
  rcases hq.eq_or_lt with rfl | hpos
  · exact iff_of_true (by positivity) (by positivity)
  by_cases hlog : f.minExp ≤ Int.log 2 q
  · -- a normal number is more than half its spacing, which is not the smallest
    have hspacing : f.spacing q = Int.log 2 q - (f.precision - 1) := by
      rw [spacing, max_eq_left hlog]
    have hhalf : (2 : K) ^ (f.spacing q - 1) < q :=
      (zpow_lt_zpow_right₀ one_lt_two (by omega)).trans_le
        (f.zpow_spacing_le hpos hlog)
    have hmin : (2 : K) ^ (f.minExp - f.precision) ≤ 2 ^ (f.spacing q - 1) :=
      zpow_le_zpow_right₀ one_le_two (by omega)
    exact iff_of_false (not_le.mpr hhalf) (not_le.mpr (hmin.trans_lt hhalf))
  · have hspacing : f.spacing q - 1 = f.minExp - f.precision := by
      rw [spacing, max_eq_right (not_le.mp hlog).le]
      omega
    rw [hspacing]

/-- **Overflow**: a number rounds past the largest finite one from half the
largest spacing before the next power of two. The bound itself is a tie again,
and there the even neighbour is the power of two, so that it overflows. -/
theorem le_nearest_iff (hq : 0 ≤ q) :
    2 ^ (f.maxExp + 1) ≤ f.nearest q ↔
      2 ^ (f.maxExp + 1) - 2 ^ (f.maxExp - f.precision) ≤ q := by
  have hp := f.precision_ge
  have hexp := f.minExp_le
  have heven : ∀ {k : ℕ}, k ≠ 0 → Even (2 ^ k : ℤ) :=
    fun hk => even_two.pow_of_ne_zero hk
  rcases hq.eq_or_lt with rfl | hpos
  · have hgap : (2 : K) ^ (f.maxExp - f.precision) < 2 ^ (f.maxExp + 1) :=
      zpow_lt_zpow_right₀ one_lt_two (by omega)
    rw [(f.nearest_eq_zero_iff le_rfl).mpr (by positivity)]
    exact iff_of_false (not_le.mpr (by positivity))
      (not_le.mpr (sub_pos.mpr hgap))
  rcases lt_trichotomy (f.spacing q + (f.precision - 1)) f.maxExp with h | h | h
  · -- below the largest exponent both sides are false
    have hup : f.nearest q ≤ 2 ^ (f.spacing q + f.precision) := by
      rw [f.zpow_spacing_add,
        f.nearest_le_mul_iff (heven (by omega)), ← f.zpow_spacing_add]
      exact (f.lt_zpow_spacing q).le.trans
        (le_add_of_nonneg_right (by positivity))
    have hle : (2 : K) ^ (f.spacing q + f.precision) ≤ 2 ^ f.maxExp :=
      zpow_le_zpow_right₀ one_le_two (by omega)
    have hspacing : (2 : K) ^ (f.maxExp - f.precision) ≤ 2 ^ f.maxExp :=
      zpow_le_zpow_right₀ one_le_two (by omega)
    have hdouble : (2 : K) ^ (f.maxExp + 1) = 2 ^ f.maxExp * 2 :=
      zpow_add_one₀ two_ne_zero _
    have hone : (0 : K) < 2 ^ f.maxExp := by positivity
    have hlt := f.lt_zpow_spacing q
    exact iff_of_false (by linarith) (by linarith)
  · -- at the largest exponent the next power of two is a multiple of the
    -- spacing
    have hnext : (2 : K) ^ (f.maxExp + 1)
        = ((2 ^ f.precision : ℤ) : K) * 2 ^ f.spacing q := by
      rw [← f.zpow_spacing_add]
      congr 1
      omega
    have hspacing : f.maxExp - f.precision = f.spacing q - 1 := by omega
    rw [hnext, hspacing, f.mul_le_nearest_iff (heven (by omega))]
  · -- above it both sides are true
    have hmax : f.maxExp < max (Int.log 2 q) f.minExp := by
      have hdef : f.spacing q + (f.precision - 1)
          = max (Int.log 2 q) f.minExp :=
        sub_add_cancel _ _
      omega
    have hlog : f.minExp ≤ Int.log 2 q := by
      rcases max_choice (Int.log 2 q) f.minExp with hm | hm <;> omega
    have hle : (2 : K) ^ (f.maxExp + 1)
        ≤ 2 ^ (f.spacing q + (f.precision - 1)) :=
      zpow_le_zpow_right₀ one_le_two (by omega)
    have hq' := f.zpow_spacing_le hpos hlog
    have hcast : f.spacing q + ((f.precision : ℤ) - 1)
        = f.spacing q + ((f.precision - 1 : ℕ) : ℤ) := by omega
    have hup : (2 : K) ^ (f.spacing q + (f.precision - 1)) ≤ f.nearest q := by
      rw [hcast, f.zpow_spacing_add, f.mul_le_nearest_iff (heven (by omega)),
        ← f.zpow_spacing_add, ← hcast]
      exact (sub_le_self _ (by positivity)).trans hq'
    refine iff_of_true (hle.trans hup) ?_
    exact (sub_le_self _ (by positivity)).trans (hle.trans hq')

end BinaryFormat

end FloatRounding
