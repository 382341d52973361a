import Mathlib.Data.List.MinMax
import Mathlib.Order.Bounds.Basic
import WebcamStreamer.Overrides
import WebcamStreamer.SupervisionLoop

/-!
# The default pick and what the camera offers

A camera that nobody configured is streamed as the pick from its advertised
formats. The pick becomes four input options of ffmpeg, and the publisher runs
only if the camera has one format that answers all of them.

The loop of `pickBest` keeps three candidates; what it returns is the first
format of the preferred size, else the first of largest area among those that
fit into it, else the first of largest area (`pickBest_eq_preferred`). The size
is therefore always one of the list, but two things are not taken from the
format picked: the pixel format of a raw mode is always the same one, and the
rate is a whole number below the advertised maximum, however close the minimum
is.
-/

namespace WebcamStreamer

/-! ## The format preferred in a list

The loop of the source keeps two candidates and stops early when it meets the
preferred size. What it returns can be said without a loop: the preferred size
if it is there, else the largest of those that fit into it, else the largest
of all, and the first one among equals. -/

namespace AdvertisedFormat

/-- The format has the size that is preferred. -/
def IsPreferredSize (f : AdvertisedFormat) : Bool :=
  f.width = 640 ∧ f.height = 480

/-- The format is no larger than the preferred size on either side. -/
def Fits (f : AdvertisedFormat) : Bool := f.width ≤ 640 ∧ f.height ≤ 480

/-- The first of the largest formats of a list. -/
def largestOf (formats : List AdvertisedFormat) : Option AdvertisedFormat :=
  @List.argmax _ ℤ Int.instLinearOrder.toPreorder
    (fun a b => Int.decLt a b) area formats

end AdvertisedFormat

/-- The format preferred in a list. -/
def preferred (formats : List AdvertisedFormat) : Option AdvertisedFormat :=
  (formats.find? AdvertisedFormat.IsPreferredSize).or
    ((AdvertisedFormat.largestOf (formats.filter AdvertisedFormat.Fits)).or
      (AdvertisedFormat.largestOf formats))

/-- The candidate after some more formats. -/
def largest (best : Option AdvertisedFormat) (formats : List AdvertisedFormat) :
    Option AdvertisedFormat :=
  formats.foldl larger best

theorem largest_eq_largestOf (formats : List AdvertisedFormat) :
    largest none formats = AdvertisedFormat.largestOf formats := by
  have hstep : larger = List.argAux (fun b c => AdvertisedFormat.area c
      < AdvertisedFormat.area b) := by
    funext best f
    cases best with
    | none => rfl
    | some g => simp [larger, List.argAux]
  rw [largest, hstep]
  rfl

/-- **The loop of `pickBest`**, from any candidates. The preferred size ends
the loop, which is the first alternative on the right; the other two are the
accumulators at the end of the list. -/
theorem pickBestLoop_eq (pred : AdvertisedFormat → Bool)
    (formats : List AdvertisedFormat)
    (leSized best : Option AdvertisedFormat) :
    pickBestLoop pred formats leSized best
      = ((formats.filter pred).find? AdvertisedFormat.IsPreferredSize).or
          ((largest leSized
            ((formats.filter pred).filter AdvertisedFormat.Fits)).or
            (largest best (formats.filter pred))) := by
  induction formats generalizing leSized best with
  | nil => rfl
  | cons f fs ih =>
    unfold pickBestLoop
    by_cases hp : pred f = true
    · rw [if_pos hp, List.filter_cons_of_pos hp]
      by_cases hsize : f.width = 640 ∧ f.height = 480
      · rw [if_pos hsize,
          List.find?_cons_of_pos (by simpa [AdvertisedFormat.IsPreferredSize]
          using hsize), Option.some_or]
      · rw [if_neg hsize,
          List.find?_cons_of_neg (by simpa [AdvertisedFormat.IsPreferredSize]
          using hsize), ih]
        by_cases hfits : f.width ≤ 640 ∧ f.height ≤ 480
        · rw [if_pos hfits, List.filter_cons_of_pos
            (by simpa [AdvertisedFormat.Fits] using hfits)]
          rfl
        · rw [if_neg hfits, List.filter_cons_of_neg
            (by simpa [AdvertisedFormat.Fits] using hfits)]
          rfl
    · rw [if_neg hp, List.filter_cons_of_neg hp, ih]

/-- **`pickBest` returns the format preferred** among those that satisfy the
predicate. The right side has no loop: it filters first, and then asks for the
preferred size, the largest that fits, and the largest at all. -/
theorem pickBest_eq_preferred (formats : List AdvertisedFormat)
    (pred : AdvertisedFormat → Bool) :
    pickBest formats pred = preferred (formats.filter pred) := by
  rw [pickBest, pickBestLoop_eq, largest_eq_largestOf, largest_eq_largestOf]
  rfl

theorem preferred_eq_none {formats : List AdvertisedFormat} :
    preferred formats = none ↔ formats = [] := by
  constructor
  · intro h
    exact List.argmax_eq_none.mp
      (Option.or_eq_none_iff.mp (Option.or_eq_none_iff.mp h).2).2
  · rintro rfl
    rfl

/-- The format preferred in a list is one of the list. -/
theorem mem_of_preferred {formats : List AdvertisedFormat}
    {m : AdvertisedFormat}
    (h : preferred formats = some m) : m ∈ formats := by
  rcases Option.or_eq_some_iff.mp h with h | ⟨-, h⟩
  · exact List.mem_of_find?_eq_some h
  · rcases Option.or_eq_some_iff.mp h with h | ⟨-, h⟩
    · exact List.mem_of_mem_filter (List.argmax_mem h)
    · exact List.argmax_mem h

/-! ## The rate

The rate that is asked for is a whole number, while the advertised rates are
not. Truncating the greatest one, bounded by 30, is the greatest whole rate
that the camera advertises, and there is only one such number. -/

/-- The rate asked for with a format: the greatest whole number that is at most
30 and at most the advertised maximum, and 30 if no maximum is known. -/
def RateAsked (m : AdvertisedFormat) (n : ℤ) : Prop :=
  if 0 < m.maxFps then
    IsGreatest {k : ℤ | (k : ℚ) ≤ 30 ∧ (k : ℚ) ≤ m.maxFps} n
  else n = 30

theorem rateAsked_pickedFps (m : AdvertisedFormat) :
    RateAsked m (pickedFps m) := by
  unfold RateAsked pickedFps
  by_cases h : 0 < m.maxFps
  · rw [if_pos h, if_pos h]
    constructor
    · exact ⟨(Rat.floor_le _).trans (min_le_left _ _),
        (Rat.floor_le _).trans (min_le_right _ _)⟩
    · rintro k ⟨h30, hmax⟩
      exact Rat.le_floor_iff.mpr (le_min h30 hmax)
  · rw [if_neg h, if_neg h]

/-- There is one such rate only. -/
theorem RateAsked.eq {m : AdvertisedFormat} {n k : ℤ} (hn : RateAsked m n)
    (hk : RateAsked m k) : n = k := by
  unfold RateAsked at hn hk
  split at hn
  next h =>
    rw [if_pos h] at hk
    exact hn.unique hk
  next h =>
    rw [if_neg h] at hk
    rw [hn, hk]

/-! ## The input options

The command line is taken apart again: an option has a value if the value
stands behind its name. Sizes and rates are read back from their texts, so
that a format can be compared with the options of a command and not only with
the pick behind them. -/

/-- The arguments that concern the input: those before `-i`. -/
def inputOptions (args : List String) : List String := args.takeWhile (· ≠ "-i")

/-- The value of an option, `none` if it is not given. -/
def optionValue (name : String) : List String → Option String
  | [] => none
  | arg :: args => if arg = name then args.head? else optionValue name args

/-- **The format answers the options**: it has what each of them asks for. An
option that is not passed asks for nothing, which is how ffmpeg reads it. -/
structure AdvertisedFormat.Answers (f : AdvertisedFormat)
    (options : List String) : Prop where
  codec : ∀ v, optionValue "-vcodec" options = some v → f.codec = v
  pixFmt : ∀ v, optionValue "-pixel_format" options = some v → f.pixFmt = v
  size : ∀ v, optionValue "-video_size" options = some v →
    v = toString f.width ++ "x" ++ toString f.height
  rate : ∀ v, optionValue "-framerate" options = some v →
    ∃ n : ℤ, v = toString n ∧ f.minFps ≤ n ∧ n ≤ f.maxFps

/-- The camera's configuration with a default pick. -/
def DefaultPick.config (pick : DefaultPick) (cam : CameraConfig) :
    CameraConfig :=
  { cam with
    mode := pick.mode, width := pick.width, height := pick.height
    fps := pick.fps }

theorem toDigits_injective : Function.Injective (Nat.toDigits 10) := by
  intro m k h
  have hvalue : some m = some k := by
    rw [← leadingNumber_toDigits, h, leadingNumber_toDigits]
  exact Option.some.inj hvalue

/-- A number is read back from its text. -/
theorem toString_inj {n k : ℤ} : toString n = toString k ↔ n = k := by
  refine ⟨fun h => ?_, fun h => h ▸ rfl⟩
  -- No digit is a minus sign, so the two texts have the same sign.
  have hminus : ∀ m, '-' ∉ Nat.toDigits 10 m := fun m hm =>
    absurd (Nat.isDigit_of_mem_toDigits (by omega) (by omega) hm) (by decide)
  have htext : ∀ m : ℕ,
      (toString (Int.negSucc m)).toList = '-' :: Nat.toDigits 10 (m + 1) := by
    intro m
    show ("-" ++ (m + 1).repr).toList = _
    rw [String.toList_append, Nat.toList_repr]
    rfl
  replace h := congrArg String.toList h
  cases n with
  | ofNat m =>
    replace h : Nat.toDigits 10 m = (toString k).toList := Nat.toList_repr ▸ h
    cases k with
    | ofNat m' =>
      replace h : Nat.toDigits 10 m = Nat.toDigits 10 m' :=
        h.trans Nat.toList_repr
      rw [toDigits_injective h]
    | negSucc m' =>
      rw [htext] at h
      exact absurd (h ▸ List.mem_cons_self) (hminus m)
  | negSucc m =>
    rw [htext] at h
    cases k with
    | ofNat m' =>
      replace h : _ = Nat.toDigits 10 m' := h.trans Nat.toList_repr
      exact absurd (h ▸ List.mem_cons_self) (hminus m')
    | negSucc m' =>
      rw [htext] at h
      have hsucc := toDigits_injective (List.cons.inj h).2
      rw [Nat.succ.inj hsucc]

/-- A size is read back from its text. -/
theorem size_inj {w h w' h' : ℤ} :
    toString w ++ "x" ++ toString h = toString w' ++ "x" ++ toString h' ↔
      w = w' ∧ h = h' := by
  have hx : ∀ n : ℤ, 'x' ∉ (toString n).toList := fun n hmem =>
    absurd (isDigit_of_mem_toString hmem) (by decide)
  refine ⟨fun heq => ?_, fun ⟨hw, hh⟩ => hw ▸ hh ▸ rfl⟩
  have htext : (toString w).toList ++ 'x' :: (toString h).toList
      = (toString w').toList ++ 'x' :: (toString h').toList := by
    simpa using congrArg String.toList heq
  obtain ⟨hw, -, hh⟩ := (List.append_cons_inj_of_notMem (hx w) (hx _)).mp htext
  exact ⟨toString_inj.mp (String.toList_inj.mp hw),
    toString_inj.mp (String.toList_inj.mp hh)⟩

/-- The text has only digits, signs and the `x` between two numbers, as no
option name has. -/
def IsNumeric (v : String) : Bool :=
  v.toList.all (fun c => c.isDigit || c == '-' || c == 'x')

theorem isNumeric_toString (n : ℤ) : IsNumeric (toString n) = true := by
  refine List.all_eq_true.mpr (fun c hc => ?_)
  rcases isDigit_of_mem_toString hc with h | h <;> simp [h]

theorem isNumeric_size (w h : ℤ) :
    IsNumeric (toString w ++ "x" ++ toString h) = true := by
  have happend : ∀ v u : String, IsNumeric v = true → IsNumeric u = true →
      IsNumeric (v ++ u) = true := by
    intro v u hv hu
    unfold IsNumeric at *
    rw [String.toList_append, List.all_append, hv, hu]
    rfl
  exact happend _ _ (happend _ _ (isNumeric_toString w) (by decide))
    (isNumeric_toString h)

theorem ne_of_isNumeric {v name : String} (hv : IsNumeric v = true)
    (hname : IsNumeric name = false) : v ≠ name := by
  rintro rfl
  rw [hv] at hname
  cases hname

/-- The input options of `BuildFFmpegArgs` for a size and a rate. -/
def optionsFor (mode : Mode) (size rate : String) : List String :=
  ["-hide_banner", "-loglevel", "warning", "-f",
    "dshow"] ++ inputFormatArgs mode
    ++ ["-video_size", size, "-framerate", rate]

theorem inputOptions_buildFFmpegArgs (cam : CameraConfig) (url : String) :
    inputOptions (buildFFmpegArgs cam url)
      = optionsFor cam.mode (toString cam.width ++ "x" ++ toString cam.height)
          (toString cam.fps) := by
  have hsize : toString cam.width ++ "x" ++ toString cam.height ≠ "-i" :=
    ne_of_isNumeric (isNumeric_size _ _) (by decide)
  have hrate : toString cam.fps ≠ "-i" :=
    ne_of_isNumeric (isNumeric_toString _) (by decide)
  unfold inputOptions buildFFmpegArgs optionsFor
  generalize toString cam.width ++ "x" ++ toString cam.height = size at hsize ⊢
  generalize toString cam.fps = rate at hrate ⊢
  cases cam.mode <;> simp [inputFormatArgs, hsize, hrate]

theorem answers_optionsFor_iff {f : AdvertisedFormat} {mode : Mode}
    {size rate : String}
    (hsize : IsNumeric size = true) (hrate : IsNumeric rate = true) :
    f.Answers (optionsFor mode size rate) ↔
      f.Answers (inputFormatArgs mode) ∧
      size = toString f.width ++ "x" ++ toString f.height
        ∧ ∃ n : ℤ, rate = toString n ∧ f.minFps ≤ n ∧ n ≤ f.maxFps := by
  have hs : ∀ name, IsNumeric name = false → size ≠ name :=
    fun _ => ne_of_isNumeric hsize
  have hr : ∀ name, IsNumeric name = false → rate ≠ name :=
    fun _ => ne_of_isNumeric hrate
  have hvcodec : optionValue "-vcodec" (optionsFor mode size rate)
      = optionValue "-vcodec" (inputFormatArgs mode) := by
    cases mode <;> simp [optionsFor, inputFormatArgs, optionValue,
      hs "-vcodec" (by decide),
      hr "-vcodec" (by decide)]
  have hpix : optionValue "-pixel_format" (optionsFor mode size rate)
      = optionValue "-pixel_format" (inputFormatArgs mode) := by
    cases mode <;> simp [optionsFor, inputFormatArgs, optionValue,
      hs "-pixel_format" (by decide),
      hr "-pixel_format" (by decide)]
  have hvideo : optionValue "-video_size" (optionsFor mode size rate)
      = some size := by
    cases mode <;> simp [optionsFor, inputFormatArgs, optionValue]
  have hframe : optionValue "-framerate" (optionsFor mode size rate)
      = some rate := by
    cases mode <;> simp [optionsFor, inputFormatArgs, optionValue,
      hs "-framerate" (by decide)]
  constructor
  · rintro ⟨hc, hp, hsz, hrt⟩
    refine ⟨⟨hvcodec ▸ hc, hpix ▸ hp, ?_, ?_⟩, hsz _ hvideo, hrt _ hframe⟩
    · cases mode <;> simp [inputFormatArgs, optionValue]
    · cases mode <;> simp [inputFormatArgs, optionValue]
  · rintro ⟨⟨hc, hp, -, -⟩, hsz, hrt⟩
    refine ⟨hvcodec ▸ hc, hpix ▸ hp, ?_, ?_⟩
    · rintro v hv
      rwa [← Option.some.inj (hvideo.symm.trans hv)]
    · rintro v hv
      rwa [← Option.some.inj (hframe.symm.trans hv)]

/-- **A format answers the options of a configuration** if it has the codec or
the pixel format of the mode, the size, and the rate in its range. -/
theorem answers_buildFFmpegArgs_iff {f : AdvertisedFormat} {cam : CameraConfig}
    {url : String} :
    f.Answers (inputOptions (buildFFmpegArgs cam url)) ↔
      f.Answers (inputFormatArgs cam.mode) ∧
      (f.width = cam.width ∧ f.height = cam.height)
        ∧ f.minFps ≤ cam.fps ∧ cam.fps ≤ f.maxFps := by
  rw [inputOptions_buildFFmpegArgs, answers_optionsFor_iff (isNumeric_size _ _)
    (isNumeric_toString _), size_inj]
  refine and_congr_right (fun _ => and_congr (and_congr eq_comm eq_comm) ?_)
  constructor
  · rintro ⟨n, hn, hrange⟩
    rwa [toString_inj.mp hn]
  · exact fun hrange => ⟨cam.fps, rfl, hrange⟩

/-! ## What is picked is offered

A pick can fail to be offered for two reasons. The whole rate may lie below
the least rate of the format, as it does for one that is always at 29.97, and
a raw format may have another pixel format than the one that is always asked
for. -/

/-- Some format with the property has the size of the format preferred in
`entries`, and the rate asked for with that one in its range. -/
def PreferredOffered (formats entries : List AdvertisedFormat)
    (p : AdvertisedFormat → Prop) : Prop :=
  ∃ m n, preferred entries = some m ∧ RateAsked m n ∧
    ∃ f ∈ formats, p f ∧ (f.width = m.width ∧ f.height = m.height)
      ∧ f.minFps ≤ n ∧ n ≤ f.maxFps

/-- The camera offers its default: with a compressed mjpeg entry, the preferred
one of these as mjpeg, and without, the preferred one of the raw entries in the
one pixel format that a raw mode asks for. -/
def DefaultOffered (formats : List AdvertisedFormat) : Prop :=
  PreferredOffered formats (formats.filter AdvertisedFormat.isCompressedMjpeg)
      (fun f => f.codec = "mjpeg")
    ∨ formats.filter AdvertisedFormat.isCompressedMjpeg = []
      ∧ PreferredOffered formats (formats.filter AdvertisedFormat.isRaw)
        (fun f => f.pixFmt = "yuyv422")

theorem preferredOffered_of_eq_some {formats entries : List AdvertisedFormat}
    {p : AdvertisedFormat → Prop} {m : AdvertisedFormat}
    (h : preferred entries = some m) :
    PreferredOffered formats entries p ↔
      ∃ f ∈ formats, p f ∧ (f.width = m.width ∧ f.height = m.height)
        ∧ f.minFps ≤ pickedFps m ∧ pickedFps m ≤ f.maxFps := by
  constructor
  · rintro ⟨m', n, hm, hn, hf⟩
    obtain rfl := Option.some.inj (h.symm.trans hm)
    obtain rfl := hn.eq (rateAsked_pickedFps m)
    exact hf
  · exact fun hf => ⟨m, pickedFps m, h, rateAsked_pickedFps m, hf⟩

theorem not_preferredOffered_nil {formats : List AdvertisedFormat}
    {p : AdvertisedFormat → Prop} : ¬ PreferredOffered formats [] p := by
  rintro ⟨m, n, hm, -⟩
  cases hm

/-- The options of the default for a picked format. -/
theorem answers_config_iff {f m : AdvertisedFormat} {mode : Mode}
    {cam : CameraConfig}
    {url : String} :
    f.Answers (inputOptions (buildFFmpegArgs
        (DefaultPick.config ⟨mode, m.width, m.height, pickedFps m⟩ cam) url)) ↔
      f.Answers (inputFormatArgs mode) ∧
        (f.width = m.width ∧ f.height = m.height) ∧ f.minFps ≤ pickedFps m ∧
        pickedFps m ≤ f.maxFps :=
  answers_buildFFmpegArgs_iff

theorem answers_mjpeg_iff {f : AdvertisedFormat} :
    f.Answers (inputFormatArgs .transcodeMjpegToH264) ↔ f.codec = "mjpeg" := by
  constructor
  · exact fun h => h.codec "mjpeg" rfl
  · intro h
    constructor <;> simp [inputFormatArgs, optionValue, h]

theorem answers_raw_iff {f : AdvertisedFormat} :
    f.Answers (inputFormatArgs .transcodeRawToH264) ↔ f.pixFmt = "yuyv422" := by
  constructor
  · exact fun h => h.pixFmt "yuyv422" rfl
  · intro h
    constructor <;> simp [inputFormatArgs, optionValue, h]

/-- **The default is something the camera offers exactly if** the size of the
preferred format, and the whole rate below its maximum, are in one entry of the
codec or the pixel format that the mode asks for. -/
theorem answered_by_one_format_iff {formats : List AdvertisedFormat}
    (h : ∃ f ∈ formats, f.isCompressedMjpeg = true ∨ f.isRaw = true)
    (cam : CameraConfig)
    (url : String) :
    (∃ f ∈ formats, f.Answers (inputOptions (buildFFmpegArgs
        ((pickDefaultFromFormats formats).config cam) url)))
      ↔ DefaultOffered formats := by
  unfold pickDefaultFromFormats DefaultOffered
  rw [pickBest_eq_preferred, pickBest_eq_preferred]
  cases hmjpeg : preferred
    (formats.filter AdvertisedFormat.isCompressedMjpeg) with
  | some m =>
    have hne : formats.filter AdvertisedFormat.isCompressedMjpeg ≠ [] := by
      intro hnil
      rw [preferred_eq_none.mpr hnil] at hmjpeg
      cases hmjpeg
    simp only [answers_config_iff, answers_mjpeg_iff,
      preferredOffered_of_eq_some hmjpeg,
      hne, false_and, or_false]
  | none =>
    have hnil := preferred_eq_none.mp hmjpeg
    cases hraw : preferred (formats.filter AdvertisedFormat.isRaw) with
    | some m =>
      simp only [answers_config_iff, answers_raw_iff,
        preferredOffered_of_eq_some hraw, hnil,
        not_preferredOffered_nil, true_and, false_or]
    | none =>
      obtain ⟨f, hf, hm | hr⟩ := h
      · exact absurd (List.mem_filter.mpr ⟨hf, hm⟩) (hnil ▸ List.not_mem_nil)
      · exact absurd (List.mem_filter.mpr ⟨hf, hr⟩)
          (preferred_eq_none.mp hraw ▸ List.not_mem_nil)

/-- A camera with mjpeg at 640x480, from 5 to 30 frames. -/
def vgaFormat : AdvertisedFormat where
  kind := "compressed"
  codec := "mjpeg"
  width := 640
  height := 480
  minFps := 5
  maxFps := 30

theorem answered_by_one_format_iff_vga :
    ∃ f ∈ [vgaFormat], f.Answers (inputOptions (buildFFmpegArgs
      ((pickDefaultFromFormats [vgaFormat]).config ⟨"Cam", "/webcam0", .unknown,
        0, 0, 0, true⟩)
      "rtsp://localhost:8554")) :=
  (answered_by_one_format_iff ⟨vgaFormat, List.mem_cons_self,
    .inl (by decide)⟩ _ _).mpr
    (.inl ⟨vgaFormat, 30, by decide, rateAsked_pickedFps vgaFormat, vgaFormat,
      List.mem_cons_self, by decide, by decide, by decide, by decide⟩)

/-- A camera with one raw format, and that in another pixel format than the one
a raw mode asks for. -/
def nv12Format : AdvertisedFormat where
  kind := "raw"
  pixFmt := "nv12"
  width := 640
  height := 480
  minFps := 5
  maxFps := 30

/-- **A camera that offers only `nv12`** is asked for `yuyv422`. The pick
takes any raw format, while the arguments of a raw camera have the pixel
format `yuyv422` in them. -/
theorem nv12_default_is_not_offered :
    ¬ ∀ (formats : List AdvertisedFormat) (cam : CameraConfig) (url : String),
      (∃ f ∈ formats, f.isCompressedMjpeg = true ∨ f.isRaw = true) →
        ∃ f ∈ formats, f.Answers (inputOptions (buildFFmpegArgs
          ((pickDefaultFromFormats formats).config cam) url)) := by
  intro h
  obtain ⟨f, hf, hanswers⟩ :=
    h [nv12Format] ⟨"Cam", "/webcam0", .unknown, 0, 0, 0, true⟩
    "rtsp://localhost:8554" ⟨nv12Format, List.mem_cons_self, .inr (by decide)⟩
  obtain rfl := List.mem_singleton.mp hf
  have hpick : pickDefaultFromFormats [nv12Format]
      = ⟨.transcodeRawToH264, 640, 480, pickedFps nv12Format⟩ := rfl
  rw [hpick] at hanswers
  have hpixel := answers_raw_iff.mp (answers_buildFFmpegArgs_iff.mp hanswers).1
  exact absurd hpixel (by decide)

/-! ## The best size

The same pick is characterised once more, by the order of the sizes alone.
This is the specification that the results about sorted lists use, where the
order of the lines of a listing must not matter. -/

/-- The first of the largest formats of a kind: those before it are smaller, and
those behind it no larger. -/
def FirstLargest (kind : AdvertisedFormat → Prop)
    (formats : List AdvertisedFormat)
    (m : AdvertisedFormat) : Prop :=
  kind m ∧ ∃ before after, formats = before ++ m :: after ∧
    (∀ f ∈ before, kind f → f.area < m.area) ∧ ∀ f ∈ after, kind f →
      f.area ≤ m.area

/-- **The best size** among the formats of a kind. The cases are those of a
preference, in their order; a later one holds only where the earlier ones have
nothing to offer. -/
inductive BestSize (kind : AdvertisedFormat → Prop)
    (formats : List AdvertisedFormat) :
    AdvertisedFormat → Prop where
  /-- The preferred size is advertised. -/
  | exact {m : AdvertisedFormat}
      (hm : FirstLargest (fun f => kind f ∧ f.width = 640 ∧
        f.height = 480) formats m) :
      BestSize kind formats m
  /-- It is not, but some size is no larger on either side. -/
  | fitting {m : AdvertisedFormat}
      (hnone : ∀ f ∈ formats, kind f → ¬ (f.width = 640 ∧ f.height = 480))
      (hm : FirstLargest (fun f => kind f ∧ f.width ≤ 640 ∧
        f.height ≤ 480) formats m) :
      BestSize kind formats m
  /-- Every size is larger on one side. -/
  | larger {m : AdvertisedFormat}
      (hnone : ∀ f ∈ formats, kind f → ¬ (f.width ≤ 640 ∧ f.height ≤ 480))
      (hm : FirstLargest kind formats m) : BestSize kind formats m

theorem FirstLargest.congr {p q : AdvertisedFormat → Prop}
    {formats : List AdvertisedFormat}
    {m : AdvertisedFormat} (h : FirstLargest p formats m)
    (hpq : ∀ f, p f ↔ q f) :
    FirstLargest q formats m := by
  obtain ⟨hm, before, after, rfl, hbefore, hafter⟩ := h
  exact ⟨(hpq m).mp hm, before, after, rfl,
    fun f hf hq => hbefore f hf ((hpq f).mpr hq),
      fun f hf hq => hafter f hf ((hpq f).mpr hq)⟩

/-- One more format at the end is taken only if it is strictly larger. -/
theorem largestOf_append_singleton (formats : List AdvertisedFormat)
    (f : AdvertisedFormat) :
    AdvertisedFormat.largestOf (formats ++ [f])
      = larger (AdvertisedFormat.largestOf formats) f := by
  rw [← largest_eq_largestOf, ← largest_eq_largestOf, largest,
    List.foldl_append]
  rfl

/-- **The largest format of a kind** is the first of them. Of several formats
of one size the first in the listing is taken, since only a strictly larger
one replaces the candidate. -/
theorem firstLargest_of_largestOf {kind : AdvertisedFormat → Bool}
    {formats : List AdvertisedFormat} {m : AdvertisedFormat}
    (h : AdvertisedFormat.largestOf (formats.filter kind) = some m) :
    FirstLargest (fun f => kind f = true) formats m := by
  induction formats using List.reverseRecOn generalizing m with
  | nil => cases h
  | append_singleton formats f ih =>
    rw [List.filter_append] at h
    by_cases hf : kind f = true
    · rw [List.filter_cons_of_pos hf, List.filter_nil,
        largestOf_append_singleton] at h
      unfold larger at h
      split at h
      next hnone =>
        -- no format of the kind came before
        obtain rfl := Option.some.inj h
        have hnil : formats.filter kind = [] := List.argmax_eq_none.mp hnone
        refine ⟨hf, formats, [], rfl, fun g hg hk => ?_,
          fun g hg => absurd hg List.not_mem_nil⟩
        exact absurd (List.mem_filter.mpr ⟨hg, hk⟩) (hnil ▸ List.not_mem_nil)
      next c hc =>
        obtain ⟨hk, before, after, rfl, hbefore, hafter⟩ := ih hc
        split at h
        next hlt =>
          obtain rfl := Option.some.inj h
          refine ⟨hf, before ++ c :: after, [], rfl, fun g hg hkg => ?_,
            fun g hg => absurd hg List.not_mem_nil⟩
          rcases List.mem_append.mp hg with hg | hg
          · exact (hbefore g hg hkg).trans hlt
          · rcases List.mem_cons.mp hg with rfl | hg
            · exact hlt
            · exact (hafter g hg hkg).trans_lt hlt
        next hle =>
          obtain rfl := Option.some.inj h
          refine ⟨hk, before, after ++ [f],
            by simp, hbefore, fun g hg hkg => ?_⟩
          rcases List.mem_append.mp hg with hg | hg
          · exact hafter g hg hkg
          · obtain rfl := List.mem_singleton.mp hg
            exact not_lt.mp hle
    · rw [List.filter_cons_of_neg hf, List.filter_nil, List.append_nil] at h
      obtain ⟨hk, before, after, rfl, hbefore, hafter⟩ := ih h
      refine ⟨hk, before, after ++ [f], by simp, hbefore, fun g hg hkg => ?_⟩
      rcases List.mem_append.mp hg with hg | hg
      · exact hafter g hg hkg
      · exact absurd (List.mem_singleton.mp hg ▸ hkg) hf

/-- Where all formats of a kind are as large, the first one is the first of the
largest. -/
theorem firstLargest_of_find? {kind : AdvertisedFormat → Bool}
    {formats : List AdvertisedFormat} {m : AdvertisedFormat}
    (harea : ∀ f g, kind f = true → kind g = true → f.area = g.area)
    (h : formats.find? kind = some m) :
    FirstLargest (fun f => kind f = true) formats m := by
  obtain ⟨hm, before, after, rfl, hbefore⟩ := List.find?_eq_some_iff_append.mp h
  refine ⟨hm, before, after, rfl, fun f hf hk => ?_,
    fun f _ hk => (harea f m hk hm).le⟩
  exact absurd hk (by simpa using hbefore f hf)

/-- **The format preferred** among those of a kind has the best size of them.
Each of the three alternatives of `preferred` gives one case of the
specification. -/
theorem bestSize_of_preferred {kind : AdvertisedFormat → Bool}
    {formats : List AdvertisedFormat} {m : AdvertisedFormat}
    (h : preferred (formats.filter kind) = some m) :
    BestSize (fun f => kind f = true) formats m := by
  rcases Option.or_eq_some_iff.mp h with hexact | ⟨hnone, h⟩
  · rw [List.find?_filter] at hexact
    refine .exact ((firstLargest_of_find? ?_ hexact).congr (fun f => ?_))
    · intro f g hf hg
      simp only [AdvertisedFormat.IsPreferredSize, decide_eq_true_eq] at hf hg
      rw [AdvertisedFormat.area, AdvertisedFormat.area, hf.2.1, hf.2.2,
        hg.2.1, hg.2.2]
    · simp [AdvertisedFormat.IsPreferredSize]
  · rcases Option.or_eq_some_iff.mp h with hfits | ⟨hnofit, hlarger⟩
    · refine .fitting (fun f hf hkind => ?_) ?_
      · simpa [AdvertisedFormat.IsPreferredSize] using
          List.find?_eq_none.mp hnone f (List.mem_filter.mpr ⟨hf, hkind⟩)
      · rw [List.filter_filter] at hfits
        refine (firstLargest_of_largestOf hfits).congr (fun f => ?_)
        simp [AdvertisedFormat.Fits, and_comm]
    · refine .larger (fun f hf hkind hsize => ?_)
        (firstLargest_of_largestOf hlarger)
      have hnil := List.argmax_eq_none.mp hnofit
      refine absurd (List.mem_filter.mpr ⟨List.mem_filter.mpr ⟨hf, hkind⟩, ?_⟩)
        (hnil ▸ List.not_mem_nil)
      simpa [AdvertisedFormat.Fits] using hsize

theorem pickedFps_mem_Icc (f : AdvertisedFormat) :
    0 ≤ pickedFps f ∧ pickedFps f ≤ 30 := by
  unfold pickedFps
  by_cases h : f.maxFps > 0
  · rw [if_pos h]
    refine ⟨Rat.le_floor_iff.mpr (le_min (by decide) h.le), ?_⟩
    exact_mod_cast (Rat.floor_le _).trans (min_le_left (30 : ℚ) f.maxFps)
  · rw [if_neg h]
    decide

/-- The pick has the best size among the formats of a kind. -/
def DefaultPick.HasBestSize (pick : DefaultPick)
    (kind : AdvertisedFormat → Prop)
    (formats : List AdvertisedFormat) : Prop :=
  ∃ m, BestSize kind formats m ∧ pick.width = m.width ∧ pick.height = m.height

/-- **The smart pick**: mjpeg if the camera compresses into it, else raw, else
the default, and the best size of the kind. -/
structure SmartPick (formats : List AdvertisedFormat) (pick : DefaultPick) :
    Prop where
  mjpeg : (∃ f ∈ formats, f.isCompressedMjpeg = true) →
    pick.mode = .transcodeMjpegToH264
      ∧ pick.HasBestSize (fun f => f.isCompressedMjpeg = true) formats
  raw : (∀ f ∈ formats, f.isCompressedMjpeg = false) →
    (∃ f ∈ formats, f.isRaw = true) →
    pick.mode = .transcodeRawToH264 ∧
    pick.HasBestSize (fun f => f.isRaw = true) formats
  neither : (∀ f ∈ formats, f.isCompressedMjpeg = false) →
    (∀ f ∈ formats, f.isRaw = false) →
    pick = ⟨.transcodeMjpegToH264, 640, 480, 30⟩
  fps : 0 ≤ pick.fps ∧ pick.fps ≤ 30

theorem preferred_filter_eq_none {kind : AdvertisedFormat → Bool}
    {formats : List AdvertisedFormat} :
    preferred (formats.filter kind) = none ↔ ∀ f ∈ formats, kind f = false := by
  rw [preferred_eq_none, List.filter_eq_nil_iff]
  exact forall₂_congr (fun f _ => Bool.not_eq_true (kind f) ▸ Iff.rfl)

/-- **The smart pick chooses the best advertised size**, for every list of
formats. Nothing is asked of the list: it may be empty, have formats twice, or
none that the pick can use. -/
theorem smartPick_pickDefaultFromFormats (formats : List AdvertisedFormat) :
    SmartPick formats (pickDefaultFromFormats formats) := by
  have hno : ∀ {kind : AdvertisedFormat → Bool} {m},
      preferred (formats.filter kind) = some m →
      ¬ ∀ f ∈ formats, kind f = false := by
    intro kind m hm hall
    rw [preferred_filter_eq_none.mpr hall] at hm
    cases hm
  unfold pickDefaultFromFormats
  rw [pickBest_eq_preferred, pickBest_eq_preferred]
  cases hmjpeg : preferred
    (formats.filter AdvertisedFormat.isCompressedMjpeg) with
  | some m =>
    exact ⟨fun _ => ⟨rfl, m, bestSize_of_preferred hmjpeg, rfl, rfl⟩,
      fun h => absurd h (hno hmjpeg), fun h => absurd h (hno hmjpeg),
        pickedFps_mem_Icc m⟩
  | none =>
    have hnone : ¬ ∃ f ∈ formats, f.isCompressedMjpeg = true := by
      rintro ⟨f, hf, hf'⟩
      exact absurd (preferred_filter_eq_none.mp hmjpeg f hf)
        (Bool.not_eq_false _ ▸ hf')
    cases hraw : preferred (formats.filter AdvertisedFormat.isRaw) with
    | some m =>
      exact ⟨fun h => absurd h hnone,
        fun _ _ => ⟨rfl, m, bestSize_of_preferred hraw, rfl, rfl⟩,
          fun _ h => absurd h (hno hraw), pickedFps_mem_Icc m⟩
    | none =>
      refine ⟨fun h => absurd h hnone, ?_, fun _ _ => rfl, by decide⟩
      rintro - ⟨f, hf, hf'⟩
      exact absurd (preferred_filter_eq_none.mp hraw f hf)
        (Bool.not_eq_false _ ▸ hf')

/-- Wide and short, tall and narrow, and two that fit and are as large. -/
example : pickDefaultFromFormats
    [⟨"raw", "", "yuyv422", 1920, 100, 5, 30⟩,
      ⟨"raw", "", "yuyv422", 320, 240, 5, 15⟩,
      ⟨"raw", "", "yuyv422", 100, 1080, 5, 30⟩,
      ⟨"raw", "", "yuyv422", 240, 320, 5, 30⟩]
    = ⟨.transcodeRawToH264, 320, 240, 15⟩ := by decide

end WebcamStreamer
