import Mathlib.Data.List.ReduceOption
import Mathlib.Data.Prod.Lex
import Mathlib.Data.String.Basic
import WebcamStreamer.CameraEnum
import WebcamStreamer.FloatRounding
import WebcamStreamer.Overrides
import WebcamStreamer.StableSort

/-!
# Enumerating the formats of a camera

ffmpeg lists the formats of a device on its standard error. The program reads
every line with two regular expressions, converts the numbers they find, sorts
the formats and keeps the first of those that agree in kind, codec and size.

The expressions say what a number looks like, and the conversions have an
opinion of their own: `enumerateFormats_isSome_iff` says on which texts they
agree.
-/

namespace WebcamStreamer

open FloatRounding StableSort

/-! ## Doubles

A rate is converted by `std::stod`, which throws on a number outside of the
range of a double, at either end. Nothing else about doubles matters for the
listing, and the rates are kept as the rational numbers that the texts stand
for. -/

/-- The number a text of digits and dots starts with: digits, and digits after a
dot, at least one of them. -/
def leadingDecimal (t : Text) : Option ℚ :=
  let whole := t.takeWhile Char.isDigit
  let fraction := match t.dropWhile Char.isDigit with
    | '.' :: rest => rest.takeWhile Char.isDigit
    | _ => []
  if whole = [] ∧ fraction = [] then none
  else some (digitsValue (whole ++ fraction) / 10 ^ fraction.length)

/-- `std::stod` on a text of digits and dots: `none` is the exception on no
number, on one that rounds to infinity and on one that rounds to zero and is
none. -/
def stod (t : Text) : Option ℚ :=
  (leadingDecimal t).bind (fun q =>
    let d := binary64.nearest q
    if 2 ^ 1024 ≤ d ∨ (d = 0 ∧ q ≠ 0) then none else some d)

/-- A number that fits into a `double`: zero, or more than half the smallest
`double` and less than the largest and half its spacing. -/
def FitsDouble (q : ℚ) : Prop :=
  q = 0 ∨ (1 / 2 ^ 1075 < q ∧ q < 2 ^ 1024 - 2 ^ 970)

instance (q : ℚ) : Decidable (FitsDouble q) :=
  inferInstanceAs (Decidable (_ ∨ _))

theorem leadingDecimal_nonneg {t : Text} {q : ℚ}
    (h : leadingDecimal t = some q) : 0 ≤ q := by
  simp only [leadingDecimal, Option.ite_none_left_eq_some,
    Option.some.injEq] at h
  rw [← h.2]
  positivity

/-- A number fits exactly if rounding it neither overflows nor underflows. -/
theorem fitsDouble_iff {q : ℚ} (hq : 0 ≤ q) :
    FitsDouble q ↔
      ¬ (2 ^ 1024 ≤ binary64.nearest q ∨ (binary64.nearest q = 0 ∧ q ≠ 0)) := by
  have hunder := binary64.nearest_eq_zero_iff hq
  have hover := binary64.le_nearest_iff hq
  have hmin : (2 : ℚ) ^ (binary64.minExp - binary64.precision) = 1 / 2 ^ 1075 :=
    (zpow_neg 2 1075).trans (one_div _).symm
  have hmax : (2 : ℚ) ^ (binary64.maxExp + 1) = 2 ^ 1024 := zpow_natCast 2 1024
  have hspacing : (2 : ℚ) ^ (binary64.maxExp - binary64.precision) = 2 ^ 970 :=
    zpow_natCast 2 970
  have hroom : (0 : ℚ) < 2 ^ 1024 - 2 ^ 970 :=
    sub_pos.mpr (pow_lt_pow_right₀ one_lt_two (by decide))
  rw [hmin] at hunder
  rw [hmax, hspacing] at hover
  rw [hunder, hover, not_or, not_and, not_not, not_le, FitsDouble]
  by_cases hzero : q = 0
  · subst hzero
    exact iff_of_true (.inl rfl) ⟨hroom, fun _ => rfl⟩
  · rw [or_iff_right hzero, and_comm]
    exact and_congr_right fun _ =>
      ⟨fun h hle => absurd hle (not_le.mpr h),
        fun h => not_le.mp (fun hle => hzero (h hle))⟩

/-- **The texts that are converted**: those that start with a number, and the
number fits. `std::stod` raises an exception in the two other cases:
`invalid_argument` for a text without a number in front, `out_of_range` for a
number that a double cannot hold. -/
theorem stod_isSome_iff {t : Text} :
    (stod t).isSome = true ↔ ∃ q, leadingDecimal t = some q ∧ FitsDouble q := by
  unfold stod
  cases h : leadingDecimal t with
  | none => simp
  | some q =>
    rw [Option.bind_some,
      Option.isSome_ite', ← fitsDouble_iff (leadingDecimal_nonneg h)]
    simp

/-! ## The two expressions

The two expressions differ in the key in front only. Their runs of digits and
dots are greedy, and what has to follow each run is a character that the run
does not take, so that a run never has to be shortened. -/

/-- A run of characters, as long as possible and not empty, and what follows. -/
def takeRun (p : Char → Bool) (t : Text) : Option (Text × Text) :=
  match t.takeWhile p with
  | [] => none
  | cs => some (cs, t.dropWhile p)

/-- `[\d.]` -/
def isRateChar (c : Char) : Bool := c.isDigit || c == '.'

/-- `s=(\d+)x(\d+)\s+fps=([\d.]+)`: the three groups, and what follows. -/
def sizeRe (t : Text) : Option ((Text × Text × Text) × Text) := do
  let t ← afterPrefix "s=".toList t
  let (width, t) ← takeRun Char.isDigit t
  let t ← afterPrefix ['x'] t
  let (height, t) ← takeRun Char.isDigit t
  let (_, t) ← takeRun isSpace t
  let t ← afterPrefix "fps=".toList t
  let (fps, t) ← takeRun isRateChar t
  return ((width, height, fps), t)

/-- The groups that are looked at: the first four and the last. -/
structure FormatMatch where
  name : Text
  width : Text
  height : Text
  minFps : Text
  maxFps : Text
  deriving DecidableEq

/-- `key=(\S+)\s+min\s+s=(\d+)x(\d+)\s+fps=([\d.]+)\s+max\s+s=(\d+)x(\d+)\s+fps=([\d.]+)` -/
def formatRe (key t : Text) : Option FormatMatch := do
  let t ← afterPrefix (key ++ ['=']) t
  let (name, t) ← takeRun (fun c => !isSpace c) t
  let (_, t) ← takeRun isSpace t
  let t ← afterPrefix "min".toList t
  let (_, t) ← takeRun isSpace t
  let ((width, height, minFps), t) ← sizeRe t
  let (_, t) ← takeRun isSpace t
  let t ← afterPrefix "max".toList t
  let (_, t) ← takeRun isSpace t
  let ((_, _, maxFps), _) ← sizeRe t
  return { name, width, height, minFps, maxFps }

/-- `kCompressedRe`. -/
def compressedRe : Text → Option FormatMatch := formatRe "vcodec".toList

/-- `kRawRe`. -/
def rawRe : Text → Option FormatMatch := formatRe "pixel_format".toList

/-! ## The listing

A line is read in the order of the source: its numbers are converted one after
the other, and the first exception ends the whole enumeration. What was read
is sorted, and of formats with the same key the first is kept. -/

/-- The numbers of a match converted, in the order of the source. -/
def FormatMatch.convert (m : FormatMatch) (f : AdvertisedFormat) :
    Option AdvertisedFormat := do
  let width ← stoi m.width
  let height ← stoi m.height
  let minFps ← stod m.minFps
  let maxFps ← stod m.maxFps
  return { f with width, height, minFps, maxFps }

/-- The match of a line, and the format it is converted into. -/
def matchFormat (line : Text) : Option (FormatMatch × AdvertisedFormat) :=
  match regexSearch compressedRe line with
  | some m => some (m, { kind := "compressed", codec := String.ofList m.name })
  | none => (regexSearch rawRe line).map
      (fun m => (m, { kind := "raw", pixFmt := String.ofList m.name }))

/-- One line of the listing: its format, if it has one. The outer `none` is an
exception. -/
def readFormatLine (line : Text) : Option (Option AdvertisedFormat) :=
  match matchFormat line with
  | some (m, f) => (m.convert f).map some
  | none => some none

/-- What the formats are sorted by and told apart by. -/
def AdvertisedFormat.key (f : AdvertisedFormat) :
    String ×ₗ String ×ₗ String ×ₗ ℤ ×ₗ ℤ :=
  toLex (f.kind, toLex (f.codec, toLex (f.pixFmt, toLex (f.width, f.height))))

/-- `EnumerateFormats` on what ffmpeg wrote; `none` is an exception. -/
def enumerateFormats (std : SortBy AdvertisedFormat.key) (stderr : Text) :
    Option (List AdvertisedFormat) :=
  ((getlines stderr).mapM readFormatLine).map
    (fun read => uniqueBy AdvertisedFormat.key (std.sort read.reduceOption))

/-! ## What the expressions promise

Which lines throw depends on what the groups can contain. A size is digits by
the expression, and only its length can be too much. A rate may be any mixture
of digits and dots, also one that no number begins with. -/

theorem takeRun_some {p : Char → Bool} {t cs rest : Text}
    (h : takeRun p t = some (cs, rest)) :
    cs ≠ [] ∧ ∀ c ∈ cs, p c = true := by
  unfold takeRun at h
  split at h
  next => cases h
  next hne =>
    obtain ⟨rfl, -⟩ := Prod.mk.inj (Option.some.inj h)
    exact ⟨hne, fun c hc => List.mem_takeWhile_imp hc⟩

/-- A run that ends inside a text does not depend on what follows. -/
theorem takeRun_append_of_exists {p : Char → Bool} {t : Text}
    (h : ∃ c ∈ t, p c = false)
    (s : Text) :
    takeRun p (t ++ s) = (takeRun p t).map (fun r => (r.1, r.2 ++ s)) := by
  have hdrop : t.dropWhile p ≠ [] := by
    obtain ⟨c, hc, hp⟩ := h
    intro hnil
    rw [List.dropWhile_eq_nil_iff.mp hnil c hc] at hp
    cases hp
  have htake : (t.takeWhile p).length ≠ t.length := by
    intro hlen
    have happend :=
      congrArg List.length (@List.takeWhile_append_dropWhile _ p t)
    rw [List.length_append, hlen] at happend
    exact hdrop (List.length_eq_zero_iff.mp (by omega))
  unfold takeRun
  rw [List.takeWhile_append, if_neg htake, List.dropWhile_append,
    if_neg (by simpa using hdrop)]
  split <;> rfl

/-- A run that a text ends in goes on into what follows. -/
theorem takeRun_append_of_forall {p : Char → Bool} {t : Text}
    (h : ∀ c ∈ t, p c = true)
    (s : Text) :
    takeRun p (t ++ s) = if t ++ s.takeWhile p = [] then none
      else some (t ++ s.takeWhile p, s.dropWhile p) := by
  unfold takeRun
  rw [List.takeWhile_append_of_pos h, List.dropWhile_append_of_pos h]
  split
  next hnil => rw [if_pos hnil]
  next hne => rw [if_neg hne]

/-- A run that is all of a text leaves nothing. -/
theorem takeRun_of_forall {p : Char → Bool} {t : Text}
    (h : ∀ c ∈ t, p c = true) :
    takeRun p t = if t = [] then none else some (t, []) := by
  have happend := takeRun_append_of_forall h []
  rwa [List.append_nil, List.takeWhile_nil, List.dropWhile_nil,
    List.append_nil] at happend

/-- What a run leaves is not empty, unless it is all of the text. -/
theorem takeRun_some_ne_nil {p : Char → Bool} {t cs rest : Text}
    (h : ∃ c ∈ t, p c = false)
    (hrun : takeRun p t = some (cs, rest)) : rest ≠ [] := by
  obtain ⟨c, hc, hp⟩ := h
  unfold takeRun at hrun
  split at hrun
  next => cases hrun
  next =>
    obtain ⟨-, rfl⟩ := Prod.mk.inj (Option.some.inj hrun)
    intro hnil
    rw [List.dropWhile_eq_nil_iff.mp hnil c hc] at hp
    cases hp

theorem exists_of_not_forall {p : Char → Bool} {t : Text}
    (h : ¬ ∀ c ∈ t, p c = true) :
    ∃ c ∈ t, p c = false := by
  simpa using h

/-- A run up to a character that ends it. -/
theorem takeRun_append {p : Char → Bool} {t : Text} (hne : t ≠ [])
    (h : ∀ c ∈ t, p c = true)
    {d : Char} (hd : p d = false) (s : Text) :
    takeRun p (t ++ d :: s) = some (t, d :: s) := by
  have hno : ¬ p d = true := by rw [hd]; decide
  rw [takeRun_append_of_forall h, List.takeWhile_cons_of_neg hno,
    List.dropWhile_cons_of_neg hno,
    List.append_nil, if_neg hne]

/-- A text of digits, at least one. -/
def IsDigits (t : Text) : Prop := t ≠ [] ∧ ∀ c ∈ t, c.isDigit = true

-- not by the instance for a quantifier over all characters
instance (t : Text) : Decidable (IsDigits t) :=
  decidable_of_iff (t.isEmpty = false ∧ t.all Char.isDigit = true)
    (and_congr List.isEmpty_eq_false_iff List.all_eq_true)

theorem sizeRe_some {t width height fps rest : Text}
    (h : sizeRe t = some ((width, height, fps), rest)) :
    IsDigits width ∧ IsDigits height := by
  simp only [sizeRe, Option.bind_eq_bind, Option.bind_eq_some_iff,
    Option.pure_def,
    Option.some.injEq, Prod.mk.injEq] at h
  obtain ⟨_, -, ⟨_, _⟩, hw, _, -, ⟨_, _⟩, hh, _, -, _, -, _, -,
    ⟨rfl, rfl, -⟩, -⟩ := h
  exact ⟨takeRun_some hw, takeRun_some hh⟩

/-- The sizes of a match are digits. -/
theorem formatRe_some {key t : Text} {m : FormatMatch}
    (h : formatRe key t = some m) :
    IsDigits m.width ∧ IsDigits m.height := by
  simp only [formatRe, Option.bind_eq_bind, Option.bind_eq_some_iff,
    Option.pure_def,
    Option.some.injEq] at h
  obtain ⟨_, -, _, -, _, -, _, -, _, -, ⟨⟨_, _, _⟩, _⟩, hsize, _, -, _, -, _, -,
    _, -, rfl⟩ := h
  exact sizeRe_some hsize

theorem matchFormat_some {line : Text} {m : FormatMatch} {f : AdvertisedFormat}
    (h : matchFormat line = some (m, f)) :
    IsDigits m.width ∧ IsDigits m.height := by
  unfold matchFormat at h
  split at h
  next m' hm =>
    obtain ⟨rfl, -⟩ := Prod.mk.inj (Option.some.inj h)
    obtain ⟨t', -, hmatch⟩ := regexSearch_some hm
    exact formatRe_some hmatch
  next =>
    obtain ⟨m', hm, heq⟩ := Option.map_eq_some_iff.mp h
    obtain ⟨rfl, -⟩ := Prod.mk.inj heq
    obtain ⟨t', -, hmatch⟩ := regexSearch_some hm
    exact formatRe_some hmatch

/-! ## What is converted

A match is converted exactly if its numbers fit, the sizes into an `int` and
the rates into a double. A line without a match is passed over, and one match
that does not fit ends the whole enumeration. -/

/-- The numbers of a match fit: the sizes into an `int`, and the rates start
with a number that fits into a `double`. -/
structure FormatMatch.Fits (m : FormatMatch) : Prop where
  width : digitsValue m.width < 2 ^ 31
  height : digitsValue m.height < 2 ^ 31
  minFps : ∃ q, leadingDecimal m.minFps = some q ∧ FitsDouble q
  maxFps : ∃ q, leadingDecimal m.maxFps = some q ∧ FitsDouble q

/-- A whole rate that is an `int` fits. -/
theorem fits_of_isDigits {t : Text} (h : IsDigits t)
    (hlt : digitsValue t < 2 ^ 31) :
    ∃ q, leadingDecimal t = some q ∧ FitsDouble q := by
  have hdecimal : leadingDecimal t = some (digitsValue t : ℚ) := by
    simp only [leadingDecimal, List.takeWhile_eq_self_iff.mpr h.2,
      List.dropWhile_eq_nil_iff.mpr h.2, List.append_nil, List.length_nil,
      pow_zero, div_one,
      and_true]
    exact if_neg h.1
  refine ⟨_, hdecimal, ?_⟩
  rcases Nat.eq_zero_or_pos (digitsValue t) with hzero | hpos
  · exact .inl (by rw [hzero, Nat.cast_zero])
  · have hone : (1 : ℚ) ≤ digitsValue t := Nat.one_le_cast.mpr hpos
    have hsmall : (1 / 2 ^ 1075 : ℚ) < 1 := by
      rw [div_lt_one (by positivity)]
      exact one_lt_pow₀ one_lt_two (by decide)
    have hint : (digitsValue t : ℚ) < 2 ^ 31 := by exact_mod_cast hlt
    have hlarge : (digitsValue t : ℚ) < 2 ^ 1023 :=
      hint.trans (pow_lt_pow_right₀ one_lt_two (by decide))
    have hspacing : (2 : ℚ) ^ 970 ≤ 2 ^ 1023 :=
      pow_le_pow_right₀ one_le_two (by decide)
    refine .inr ⟨hsmall.trans_le hone, lt_sub_iff_add_lt.mpr ?_⟩
    calc (digitsValue t : ℚ) + 2 ^ 970 < 2 ^ 1023 + 2 ^ 1023 :=
          add_lt_add_of_lt_of_le hlarge hspacing
      _ = 2 ^ 1024 := by rw [← mul_two, ← pow_succ]

/-- A match is converted exactly if its numbers fit. -/
theorem FormatMatch.convert_isSome_iff {m : FormatMatch} (f : AdvertisedFormat)
    (hwidth : IsDigits m.width) (hheight : IsDigits m.height) :
    (m.convert f).isSome = true ↔ m.Fits := by
  have hsplit : (m.convert f).isSome = true ↔ (stoi m.width).isSome = true ∧
      (stoi m.height).isSome = true ∧ (stod m.minFps).isSome = true ∧
        (stod m.maxFps).isSome = true := by
    unfold convert
    cases stoi m.width <;> cases stoi m.height <;> cases stod m.minFps <;>
      cases stod m.maxFps <;> simp
  rw [hsplit, stoi_isSome_iff hwidth.1 hwidth.2,
    stoi_isSome_iff hheight.1 hheight.2,
    stod_isSome_iff, stod_isSome_iff]
  exact ⟨fun ⟨hw, hh, hmin, hmax⟩ => ⟨hw, hh, hmin, hmax⟩,
    fun h => ⟨h.width, h.height, h.minFps, h.maxFps⟩⟩

theorem readFormatLine_isSome_iff {line : Text} :
    (readFormatLine line).isSome = true ↔
      ∀ m f, matchFormat line = some (m, f) → m.Fits := by
  unfold readFormatLine
  cases h : matchFormat line with
  | none => simp
  | some mf =>
    obtain ⟨m, f⟩ := mf
    obtain ⟨hwidth, hheight⟩ := matchFormat_some h
    dsimp only
    rw [Option.isSome_map, FormatMatch.convert_isSome_iff f hwidth hheight]
    constructor
    · rintro hfits m' f' heq
      obtain ⟨rfl, -⟩ := Prod.mk.inj (Option.some.inj heq)
      exact hfits
    · exact fun hall => hall m f rfl

/-- Every element is converted, or the loop is left by the first exception. -/
theorem mapM_isSome_iff {α β : Type} {f : α → Option β} {l : List α} :
    (l.mapM f).isSome = true ↔ ∀ a ∈ l, (f a).isSome = true := by
  induction l with
  | nil => simp
  | cons a l ih =>
    rw [List.mapM_cons, List.forall_mem_cons, ← ih]
    cases f a <;> cases l.mapM f <;> simp

/-- **The listings that are read**: those whose matches have numbers that fit.
One line with a number out of range is enough to lose the whole listing, since
nothing in the function catches the exception of the conversion. -/
theorem enumerateFormats_isSome_iff (std : SortBy AdvertisedFormat.key)
    {stderr : Text} :
    (enumerateFormats std stderr).isSome = true ↔
      ∀ line ∈ getlines stderr, ∀ m f, matchFormat line = some (m, f) →
        m.Fits := by
  rw [enumerateFormats, Option.isSome_map, mapM_isSome_iff]
  exact forall₂_congr (fun _ _ => readFormatLine_isSome_iff)

/-- The rate of a line is a dot. -/
example :
    (matchFormat
      "[in] vcodec=mjpeg  min s=640x480 fps=. max s=640x480 fps=30".toList).map
    Prod.fst = some ⟨"mjpeg".toList, "640".toList, "480".toList, ".".toList,
      "30".toList⟩ := by
  decide

end WebcamStreamer
