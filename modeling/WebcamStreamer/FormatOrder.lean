import Mathlib.Data.Finset.Max
import WebcamStreamer.CameraFormats
import WebcamStreamer.VideoSizes

/-!
# The default pick and the order of ffmpeg's lines

A camera advertises one size at several rates, on a line each. The formats are
sorted and told apart by kind, codec, pixel format and size; the rate is no part
of that, so that one of several rates is kept, and nothing says which.

What the pick is made for is therefore a question of the lines only and not of
their order, and neither of what the sort does with equal keys: the best of the
kinds and sizes on them (`AdvertisedFormat.rank`). The rate that comes with it
is the greatest one exactly if all lines of that kind and size come to the same
rate (`orderIndependent_iff`).
-/

namespace WebcamStreamer

open StableSort

/-! ## The formats on the lines

Which formats a listing advertises does not depend on how they are sorted, and
where all numbers fit no line is lost to an exception. So the order of the
lines only permutes the list that is sorted. -/

/-- The formats on the lines of a listing, in the order of the lines. -/
def advertised (stderr : Text) : List AdvertisedFormat :=
  (getlines stderr).filterMap (fun line => (readFormatLine line).join)

/-- The numbers of every match fit. -/
def NumbersFit (stderr : Text) : Prop :=
  ∀ line ∈ getlines stderr, ∀ m f, matchFormat line = some (m, f) → m.Fits

theorem reduceOption_of_mapM {lines : List Text}
    {read : List (Option AdvertisedFormat)}
    (h : lines.mapM readFormatLine = some read) :
    read.reduceOption
      = lines.filterMap (fun line => (readFormatLine line).join) := by
  induction lines generalizing read with
  | nil =>
    obtain rfl := Option.some.inj h
    rfl
  | cons line lines ih =>
    rw [List.mapM_cons] at h
    obtain ⟨found, hfound, hrest⟩ := Option.bind_eq_some_iff.mp h
    obtain ⟨others, hothers, heq⟩ := Option.bind_eq_some_iff.mp hrest
    obtain rfl := Option.some.inj heq
    cases found with
    | none => rw [List.reduceOption_cons_of_none, ih hothers,
        List.filterMap_cons_none (by rw [hfound]; rfl)]
    | some f => rw [List.reduceOption_cons_of_some, ih hothers,
        List.filterMap_cons_some (by rw [hfound]; rfl)]

/-- Where the numbers fit, the formats on the lines are sorted and one is kept
for each key. -/
theorem enumerateFormats_eq {stderr : Text} (h : NumbersFit stderr)
    (std : SortBy AdvertisedFormat.key) :
    enumerateFormats std stderr
      = some (uniqueBy AdvertisedFormat.key
        (std.sort (advertised stderr))) := by
  obtain ⟨formats, hformats⟩ := Option.isSome_iff_exists.mp
    ((enumerateFormats_isSome_iff std).mpr h)
  obtain ⟨read, hread, -⟩ := Option.map_eq_some_iff.mp hformats
  rw [enumerateFormats, hread, Option.map_some, reduceOption_of_mapM hread]
  rfl

theorem NumbersFit.perm {stderr stderr' : Text} (h : NumbersFit stderr)
    (hperm : (getlines stderr').Perm (getlines stderr)) : NumbersFit stderr' :=
  fun line hline => h line (hperm.mem_iff.mp hline)

theorem advertised_perm {stderr stderr' : Text}
    (hperm : (getlines stderr').Perm (getlines stderr)) :
    (advertised stderr').Perm (advertised stderr) :=
  hperm.filterMap _

/-! ## The best kind and size

The choice of the source looks at kinds first and at sizes second. A rank puts
both into one number, so that the best formats are those of maximal rank, and
two of them have the same key and can differ in their rates only. -/

namespace AdvertisedFormat

/-- The kinds in the order in which they are preferred; zero is for those that
are not picked at all. -/
def kindRank (f : AdvertisedFormat) : ℕ :=
  if f.isCompressedMjpeg then 2 else if f.isRaw then 1 else 0

/-- How good the size of a format is: the preferred size, a size that fits into
it, and the more pixels the better. Of sizes that are as good, the first in the
order of the listing is taken. -/
def sizeRank (f : AdvertisedFormat) :
    Bool ×ₗ Bool ×ₗ ℤ ×ₗ (String ×ₗ String ×ₗ String ×ₗ ℤ ×ₗ ℤ)ᵒᵈ :=
  toLex (f.IsPreferredSize,
    toLex (f.Fits, toLex (f.area, OrderDual.toDual f.key)))

/-- How good a format is: the kind counts more than the size. -/
def rank (f : AdvertisedFormat) :
    ℕ ×ₗ Bool ×ₗ Bool ×ₗ ℤ ×ₗ (String ×ₗ String ×ₗ String ×ₗ ℤ ×ₗ ℤ)ᵒᵈ :=
  toLex (f.kindRank, f.sizeRank)

end AdvertisedFormat

/-- **A best format** of some: it can be picked, and none of them is better. Two
that are best agree in kind, codec, pixel format and size. -/
structure IsBest (formats : List AdvertisedFormat) (f : AdvertisedFormat) :
    Prop where
  mem : f ∈ formats
  picked : f.kindRank ≠ 0
  rank_le : ∀ g ∈ formats, g.rank ≤ f.rank

theorem AdvertisedFormat.key_eq_of_rank_eq {f g : AdvertisedFormat}
    (h : f.rank = g.rank) :
    f.key = g.key := by
  simp only [rank, sizeRank, EmbeddingLike.apply_eq_iff_eq, Prod.mk.injEq] at h
  exact h.2.2.2.2

theorem IsBest.key_eq {formats : List AdvertisedFormat} {f g : AdvertisedFormat}
    (hf : IsBest formats f) (hg : IsBest formats g) : f.key = g.key :=
  AdvertisedFormat.key_eq_of_rank_eq
    (le_antisymm (hg.rank_le f hf.mem) (hf.rank_le g hg.mem))

/-! ## What is picked

In a list in the order of the keys the first of the largest is the best one,
whatever the list was before. Therefore what the pick returns is a best
format, and it returns none only if there is none that it could return. -/

/-- In a list that is sorted by the keys, the first of the largest formats of a
kind is the best of the kind: the others have fewer pixels, or come later. -/
theorem FirstLargest.area_key_le {kind : AdvertisedFormat → Prop}
    {formats : List AdvertisedFormat} {m f : AdvertisedFormat}
    (hm : FirstLargest kind formats m)
    (hsorted : formats.Pairwise (fun f g => f.key < g.key))
    (hf : f ∈ formats) (hk : kind f) :
    toLex (f.area, OrderDual.toDual f.key) ≤ toLex (m.area,
      OrderDual.toDual m.key) := by
  obtain ⟨-, before, after, rfl, hbefore, hafter⟩ := hm
  obtain ⟨-, hcons, -⟩ := List.pairwise_append.mp hsorted
  rcases List.mem_append.mp hf with hf | hf
  · exact Prod.Lex.toLex_le_toLex.mpr (.inl (hbefore f hf hk))
  · rcases List.mem_cons.mp hf with rfl | hf
    · exact le_rfl
    · have hkey := (List.pairwise_cons.mp hcons).1 f hf
      rcases (hafter f hf hk).lt_or_eq with hlt | heq
      · exact Prod.Lex.toLex_le_toLex.mpr (.inl hlt)
      · exact Prod.Lex.toLex_le_toLex.mpr (.inr ⟨heq,
          OrderDual.toDual_le_toDual.mpr hkey.le⟩)

theorem AdvertisedFormat.fits_of_isPreferredSize {f : AdvertisedFormat}
    (h : f.IsPreferredSize = true) : f.Fits = true := by
  simp only [IsPreferredSize, Fits, decide_eq_true_eq] at h ⊢
  omega

/-- The best size of a kind is the best one in the order of the sizes. -/
theorem BestSize.sizeRank_le {kind : AdvertisedFormat → Prop}
    {formats : List AdvertisedFormat} {m f : AdvertisedFormat}
    (hm : BestSize kind formats m)
    (hsorted : formats.Pairwise (fun f g => f.key < g.key)) (hf : f ∈ formats)
    (hk : kind f) :
    f.sizeRank ≤ m.sizeRank := by
  have hexact : ∀ {g : AdvertisedFormat}, g.IsPreferredSize = true
      ↔ g.width = 640 ∧ g.height = 480 := by
    simp [AdvertisedFormat.IsPreferredSize]
  have hfits : ∀ {g : AdvertisedFormat}, g.Fits = true ↔
      g.width ≤ 640 ∧ g.height ≤ 480 := by
    simp [AdvertisedFormat.Fits]
  -- a rank is compared at the first place where two differ
  have hrank : ∀ {b b' c c' : Bool} {x y : ℤ ×ₗ
      (String ×ₗ String ×ₗ String ×ₗ ℤ ×ₗ ℤ)ᵒᵈ},
      (b = true → b' = true) →
      (b = b' → (c = true → c' = true) ∧ (c = c' → x ≤ y)) →
        toLex (b, toLex (c, x)) ≤ toLex (b', toLex (c', y)) := by
    intro b b' c c' x y hb hrest
    rcases (Bool.le_iff_imp.mpr hb).lt_or_eq with hlt | rfl
    · exact Prod.Lex.toLex_le_toLex.mpr (.inl hlt)
    · obtain ⟨hc, hxy⟩ := hrest rfl
      refine Prod.Lex.toLex_le_toLex.mpr (.inr ⟨rfl, ?_⟩)
      rcases (Bool.le_iff_imp.mpr hc).lt_or_eq with hlt | rfl
      · exact Prod.Lex.toLex_le_toLex.mpr (.inl hlt)
      · exact Prod.Lex.toLex_le_toLex.mpr (.inr ⟨rfl, hxy rfl⟩)
  cases hm with
  | exact hm =>
    have hsize := hexact.mpr hm.1.2
    refine hrank (fun _ => hsize) (fun heq =>
      ⟨fun _ => AdvertisedFormat.fits_of_isPreferredSize hsize, fun _ => ?_⟩)
    exact hm.area_key_le hsorted hf ⟨hk, hexact.mp (heq.trans hsize)⟩
  | fitting hnone hm =>
    refine hrank (fun h => absurd (hexact.mp h) (hnone f hf hk)) (fun _ =>
      ⟨fun _ => hfits.mpr hm.1.2, fun heq => ?_⟩)
    exact hm.area_key_le hsorted hf ⟨hk,
      hfits.mp (heq.trans (hfits.mpr hm.1.2))⟩
  | larger hnone hm =>
    have hno : f.Fits ≠ true := fun h => hnone f hf hk (hfits.mp h)
    exact hrank (fun h =>
      absurd (AdvertisedFormat.fits_of_isPreferredSize h) hno) (fun _ =>
      ⟨fun h => absurd h hno, fun _ => hm.area_key_le hsorted hf hk⟩)

/-- The pick that a format is made into. -/
def AdvertisedFormat.toPick (m : AdvertisedFormat) : DefaultPick where
  mode :=
    if m.isCompressedMjpeg then .transcodeMjpegToH264 else .transcodeRawToH264
  width := m.width
  height := m.height
  fps := pickedFps m

theorem not_isCompressedMjpeg_of_isRaw {f : AdvertisedFormat}
    (h : f.isRaw = true) :
    f.isCompressedMjpeg = false := by
  have hkind : f.kind = "raw" := by simpa [AdvertisedFormat.isRaw] using h
  simp [AdvertisedFormat.isCompressedMjpeg, hkind]

theorem mem_filter_of_preferred {kind : AdvertisedFormat → Bool}
    {formats : List AdvertisedFormat} {m : AdvertisedFormat}
    (h : preferred (formats.filter kind) = some m) :
    m ∈ formats ∧ kind m = true :=
  List.mem_filter.mp (mem_of_preferred h)

theorem pickDefaultFromFormats_eq_toPick (formats : List AdvertisedFormat) :
    pickDefaultFromFormats formats = (pickedFormat formats).elim
      ⟨.transcodeMjpegToH264, 640, 480, 30⟩ AdvertisedFormat.toPick := by
  unfold pickDefaultFromFormats pickedFormat
  rw [pickBest_eq_preferred, pickBest_eq_preferred]
  cases hmjpeg : preferred
    (formats.filter AdvertisedFormat.isCompressedMjpeg) with
  | some m =>
    rw [Option.some_or, Option.elim_some, AdvertisedFormat.toPick,
      if_pos (mem_filter_of_preferred hmjpeg).2]
  | none =>
    rw [Option.none_or]
    cases hraw : preferred (formats.filter AdvertisedFormat.isRaw) with
    | some m =>
      rw [Option.elim_some, AdvertisedFormat.toPick,
        not_isCompressedMjpeg_of_isRaw
        (mem_filter_of_preferred hraw).2]
      rfl
    | none => rfl

/-- A kind that counts more, or the same kind and a size that is no worse. -/
theorem AdvertisedFormat.rank_le_rank {f m : AdvertisedFormat}
    (h : f.kindRank ≤ m.kindRank)
    (hsize : f.kindRank = m.kindRank → f.sizeRank ≤ m.sizeRank) :
    f.rank ≤ m.rank := by
  rcases h.lt_or_eq with hlt | heq
  · exact Prod.Lex.toLex_le_toLex.mpr (.inl hlt)
  · exact Prod.Lex.toLex_le_toLex.mpr (.inr ⟨heq, hsize heq⟩)

theorem mem_of_pickedFormat {formats : List AdvertisedFormat}
    {m : AdvertisedFormat}
    (h : pickedFormat formats = some m) : m ∈ formats := by
  rcases Option.or_eq_some_iff.mp h with h | ⟨-, h⟩
  · exact (mem_filter_of_preferred h).1
  · exact (mem_filter_of_preferred h).1

/-- **The format picked** from a list in the order of the keys is a best one.
It is the order in which `EnumerateFormats` returns them, without two formats
of one key. -/
theorem isBest_of_pickedFormat {formats : List AdvertisedFormat}
    {m : AdvertisedFormat}
    (hsorted : formats.Pairwise (fun f g => f.key < g.key))
    (h : pickedFormat formats = some m) :
    IsBest formats m := by
  rcases Option.or_eq_some_iff.mp h with hmjpeg | ⟨hnone, hraw⟩
  · obtain ⟨hmem, hm⟩ := mem_filter_of_preferred hmjpeg
    have htwo : m.kindRank = 2 := if_pos hm
    refine ⟨hmem,
      by rw [htwo]; decide, fun g hg => AdvertisedFormat.rank_le_rank ?_ ?_⟩
    · rw [htwo, AdvertisedFormat.kindRank]
      split
      · exact le_rfl
      · split <;> decide
    · intro heq
      refine (bestSize_of_preferred hmjpeg).sizeRank_le hsorted hg ?_
      by_contra hno
      rw [htwo, AdvertisedFormat.kindRank, if_neg hno] at heq
      split at heq <;> cases heq
  · obtain ⟨hmem, hm⟩ := mem_filter_of_preferred hraw
    have hone : ∀ g ∈ formats, g.kindRank = if g.isRaw then 1 else 0 :=
      fun g hg =>
      if_neg (by rw [preferred_filter_eq_none.mp hnone g hg]; decide)
    have hm' : m.kindRank = 1 := by rw [hone m hmem, if_pos hm]
    refine ⟨hmem,
      by rw [hm']; decide, fun g hg => AdvertisedFormat.rank_le_rank ?_ ?_⟩
    · rw [hm', hone g hg]
      split <;> decide
    · intro heq
      refine (bestSize_of_preferred hraw).sizeRank_le hsorted hg ?_
      by_contra hno
      rw [hm', hone g hg, if_neg hno] at heq
      cases heq

/-- Nothing is picked only if nothing can be. -/
theorem kindRank_of_pickedFormat_eq_none {formats : List AdvertisedFormat} :
    pickedFormat formats = none ↔ ∀ f ∈ formats, f.kindRank = 0 := by
  rw [pickedFormat, Option.or_eq_none_iff, preferred_filter_eq_none,
    preferred_filter_eq_none,
    ← forall₂_and]
  refine forall₂_congr (fun f _ => ?_)
  unfold AdvertisedFormat.kindRank
  cases f.isCompressedMjpeg <;> cases f.isRaw <;> simp

/-! ## The order of the lines

A sort that keeps one format for each key may keep any of them, as the source
calls a sort that is not stable. What it keeps decides the rate. So the lines
agree on the pick exactly if all of them that have the best format come to the
same rate. -/

/-- **The default does not depend on the order of the lines**: every order of
them is read and gives the same pick, with the greatest rate that any line has
for the format picked. -/
def OrderIndependent (std : SortBy AdvertisedFormat.key) (stderr : Text) :
    Prop :=
  ∃ pick, ∀ stderr', (getlines stderr').Perm (getlines stderr) →
    ∃ formats, enumerateFormats std stderr' = some formats ∧
      pickDefaultFromFormats formats = pick ∧
      ∀ m, pickedFormat formats = some m →
        ∀ r, IsGreatest {r | ∃ f ∈ advertised stderr',
          f.key = m.key ∧ f.maxFps = r} r →
          pick.fps = (min 30 r).floor

/-- **The rates of the best format agree**: what every line has for it comes to
the same whole number as the greatest one. A rate of zero is taken for 30. -/
def RatesAgree (formats : List AdvertisedFormat) : Prop :=
  ∀ f g, IsBest formats f → IsBest formats g →
    (∀ h, IsBest formats h → h.maxFps ≤ g.maxFps) →
    if 0 < f.maxFps then
      (min 30 f.maxFps).floor = (min 30 g.maxFps).floor
    else 30 ≤ g.maxFps

theorem pickedFps_eq_floor_iff {f : AdvertisedFormat} {r : ℚ} :
    pickedFps f = (min 30 r).floor ↔
      if 0 < f.maxFps then
        (min 30 f.maxFps).floor = (min 30 r).floor
      else 30 ≤ r := by
  unfold pickedFps
  by_cases hpos : 0 < f.maxFps
  · rw [if_pos hpos, if_pos hpos]
  · rw [if_neg hpos, if_neg hpos]
    constructor
    · intro h
      have hle : ((30 : ℤ) : ℚ) ≤ min 30 r := Rat.le_floor_iff.mp h.le
      exact_mod_cast (le_min_iff.mp hle).2
    · intro h
      rw [min_eq_left h]
      decide

theorem IsBest.perm {formats formats' : List AdvertisedFormat}
    {f : AdvertisedFormat}
    (h : IsBest formats f) (hperm : formats'.Perm formats) :
    IsBest formats' f :=
  ⟨hperm.mem_iff.mpr h.mem, h.picked,
    fun g hg => h.rank_le g (hperm.mem_iff.mp hg)⟩

/-- A key is kind, codec, pixel format and size. -/
theorem AdvertisedFormat.fields_of_key_eq {f g : AdvertisedFormat}
    (h : f.key = g.key) :
    f.kind = g.kind ∧ f.codec = g.codec ∧ f.pixFmt = g.pixFmt ∧
      f.width = g.width
      ∧ f.height = g.height := by
  simpa only [key, EmbeddingLike.apply_eq_iff_eq, Prod.mk.injEq] using h

theorem AdvertisedFormat.kindRank_congr {f g : AdvertisedFormat}
    (h : f.key = g.key) :
    f.kindRank = g.kindRank := by
  obtain ⟨hkind, hcodec, -⟩ := fields_of_key_eq h
  unfold kindRank isCompressedMjpeg isRaw
  rw [hkind, hcodec]

/-- How good a format is can be told from its key. -/
theorem AdvertisedFormat.rank_congr {f g : AdvertisedFormat}
    (h : f.key = g.key) :
    f.rank = g.rank := by
  obtain ⟨-, -, -, hwidth, hheight⟩ := fields_of_key_eq h
  unfold rank sizeRank IsPreferredSize Fits area
  rw [h, kindRank_congr h, hwidth, hheight]

/-- **What a listing is picked from**: a format on one of its lines, which is
a best one of them. Removing duplicates keeps one line for each key, so that
nothing that could be picked is lost by it. -/
theorem isBest_advertised {std : SortBy AdvertisedFormat.key} {stderr : Text}
    {m : AdvertisedFormat}
    (h : pickedFormat (uniqueBy AdvertisedFormat.key
      (std.sort (advertised stderr))) = some m) :
    IsBest (advertised stderr) m := by
  have hbest := isBest_of_pickedFormat (std.pairwise_uniqueBy _) h
  have hmem : m ∈ advertised stderr :=
    (std.perm _).mem_iff.mp ((List.destutter_sublist _ _).subset hbest.mem)
  refine ⟨hmem, hbest.picked, fun g hg => ?_⟩
  obtain ⟨g', hg', hkey⟩ := @exists_mem_uniqueBy _ _ _ AdvertisedFormat.key _ _
    ((std.perm (advertised stderr)).mem_iff.mpr hg)
  exact AdvertisedFormat.rank_congr hkey ▸ hbest.rank_le g' hg'

/-- Where a format can be picked, one is. -/
theorem exists_pickedFormat (std : SortBy AdvertisedFormat.key) {stderr : Text}
    {f : AdvertisedFormat} (hf : f ∈ advertised stderr)
    (hkind : f.kindRank ≠ 0) :
    ∃ m, pickedFormat (uniqueBy AdvertisedFormat.key
      (std.sort (advertised stderr)))
      = some m := by
  refine Option.ne_none_iff_exists'.mp (fun hnone => hkind ?_)
  obtain ⟨g, hg, hkey⟩ := @exists_mem_uniqueBy _ _ _ AdvertisedFormat.key _ _
    ((std.perm (advertised stderr)).mem_iff.mpr hf)
  rw [← AdvertisedFormat.kindRank_congr hkey]
  exact kindRank_of_pickedFormat_eq_none.mp hnone g hg

/-- Of the best formats, some have the greatest rate. -/
theorem exists_greatest_rate {formats : List AdvertisedFormat}
    {f : AdvertisedFormat}
    (hf : IsBest formats f) :
    ∃ g, IsBest formats g ∧ ∀ h, IsBest formats h → h.maxFps ≤ g.maxFps := by
  classical
  have hmem : ∀ {h}, h ∈ formats.toFinset.filter (IsBest formats) ↔
      IsBest formats h := by
    intro h
    rw [Finset.mem_filter, List.mem_toFinset]
    exact and_iff_right_of_imp IsBest.mem
  obtain ⟨g, hg, hmax⟩ := Finset.exists_max_image _ AdvertisedFormat.maxFps
    ⟨f, hmem.mpr hf⟩
  exact ⟨g, hmem.mp hg, fun h hh => hmax h (hmem.mpr hh)⟩

/-- A line with the key of a best format has a best format. -/
theorem IsBest.of_key_eq {formats : List AdvertisedFormat}
    {f m : AdvertisedFormat}
    (hm : IsBest formats m) (hf : f ∈ formats) (hkey : f.key = m.key) :
    IsBest formats f := by
  refine ⟨hf, ?_,
    fun g hg => AdvertisedFormat.rank_congr hkey ▸ hm.rank_le g hg⟩
  rw [AdvertisedFormat.kindRank_congr hkey]
  exact hm.picked

/-- The greatest rate of the lines for a best format. -/
theorem isGreatest_rate_iff {formats : List AdvertisedFormat}
    {m : AdvertisedFormat}
    (hm : IsBest formats m) {r : ℚ} :
    IsGreatest {r | ∃ f ∈ formats, f.key = m.key ∧ f.maxFps = r} r ↔
      ∃ g, IsBest formats g ∧ (∀ h, IsBest formats h → h.maxFps ≤ g.maxFps) ∧
        g.maxFps = r := by
  constructor
  · rintro ⟨⟨g, hg, hkey, rfl⟩, hmax⟩
    exact ⟨g, hm.of_key_eq hg hkey,
      fun h hh => hmax ⟨h, hh.mem, hh.key_eq hm, rfl⟩, rfl⟩
  · rintro ⟨g, hg, hmax, rfl⟩
    refine ⟨⟨g, hg.mem, hg.key_eq hm, rfl⟩, ?_⟩
    rintro _ ⟨h, hh, hkey, rfl⟩
    exact hmax h (hm.of_key_eq hh hkey)

/-- Formats with the same key make the same pick up to the rate. -/
theorem toPick_eq {f g : AdvertisedFormat} (hkey : f.key = g.key)
    (hfps : pickedFps f = pickedFps g) : f.toPick = g.toPick := by
  obtain ⟨hkind, hcodec, -, hwidth, hheight⟩ :=
    AdvertisedFormat.fields_of_key_eq hkey
  unfold AdvertisedFormat.toPick AdvertisedFormat.isCompressedMjpeg
  rw [hkind, hcodec, hwidth, hheight, hfps]

/-- **If the rates agree**, no order matters, and no sort. Two best lines can
then differ in nothing that the configuration has in it. -/
theorem orderIndependent_of_ratesAgree {stderr : Text}
    (hfits : NumbersFit stderr)
    (hrates : RatesAgree (advertised stderr))
    (std : SortBy AdvertisedFormat.key) :
    OrderIndependent std stderr := by
  -- what is picked in any order is a best line of the listing as it stands
  have hread : ∀ stderr', (getlines stderr').Perm (getlines stderr) → ∀ m,
      pickedFormat (uniqueBy AdvertisedFormat.key
          (std.sort (advertised stderr'))) = some m →
        IsBest (advertised stderr) m := fun stderr' hperm m hm =>
    (isBest_advertised hm).perm (advertised_perm hperm).symm
  refine ⟨pickDefaultFromFormats
    (uniqueBy AdvertisedFormat.key (std.sort (advertised stderr))),
    fun stderr' hperm => ?_⟩
  have hadvertised := advertised_perm hperm
  have hsame : pickDefaultFromFormats
        (uniqueBy AdvertisedFormat.key (std.sort (advertised stderr')))
      = pickDefaultFromFormats
        (uniqueBy AdvertisedFormat.key (std.sort (advertised stderr))) := by
    rw [pickDefaultFromFormats_eq_toPick, pickDefaultFromFormats_eq_toPick]
    -- either both orders pick nothing, or both pick a line of one key
    cases hm : pickedFormat
      (uniqueBy AdvertisedFormat.key (std.sort (advertised stderr))) with
    | none =>
      cases hm' : pickedFormat
          (uniqueBy AdvertisedFormat.key (std.sort (advertised stderr'))) with
      | none => rfl
      | some m' =>
        have hbest := hread stderr' hperm m' hm'
        obtain ⟨m, hm''⟩ := exists_pickedFormat std hbest.mem hbest.picked
        cases hm.symm.trans hm''
    | some m =>
      have hbest := isBest_advertised hm
      obtain ⟨m', hm'⟩ :=
        exists_pickedFormat std (hadvertised.mem_iff.mpr hbest.mem)
        hbest.picked
      have hbest' := hread stderr' hperm m' hm'
      obtain ⟨g, hg, hmax⟩ := exists_greatest_rate hbest
      rw [hm', Option.elim_some, Option.elim_some]
      refine toPick_eq (hbest'.key_eq hbest) ?_
      rw [pickedFps_eq_floor_iff.mpr (hrates m' g hbest' hg hmax),
        pickedFps_eq_floor_iff.mpr (hrates m g hbest hg hmax)]
  refine ⟨_, enumerateFormats_eq (hfits.perm hperm) std, hsame,
    fun m hm r hr => ?_⟩
  obtain ⟨g, hg, hmax, rfl⟩ :=
    (isGreatest_rate_iff (isBest_advertised hm)).mp hr
  rw [← hsame, pickDefaultFromFormats_eq_toPick, hm]
  refine pickedFps_eq_floor_iff.mpr (hrates m g (hread stderr' hperm m hm)
    (hg.perm hadvertised.symm) (fun h hh => hmax h (hh.perm hadvertised)))

/-- **If no order matters**, the rates agree: each line could be the first.
The stable sort is one of the sorts, and with it the first of several lines of
one key is the one that is kept. -/
theorem ratesAgree_of_orderIndependent {stderr : Text}
    (hfits : NumbersFit stderr)
    (h : OrderIndependent (SortBy.stable AdvertisedFormat.key) stderr) :
    RatesAgree (advertised stderr) := by
  intro f g hf hg hmax
  obtain ⟨pick, hpick⟩ := h
  obtain ⟨line, hline, hread⟩ := List.mem_filterMap.mp hf.mem
  -- the line goes to the front
  have hnewline : ∀ l ∈ line :: (getlines stderr).erase line, '\n' ∉ l := by
    refine List.forall_mem_cons.mpr ⟨newline_notMem_getlines hline,
      fun l hl => ?_⟩
    exact newline_notMem_getlines (List.mem_of_mem_erase hl)
  have hlines := getlines_flatMap hnewline
  set stderr' := (line :: (getlines stderr).erase line).flatMap (· ++ ['\n'])
  have hperm : (getlines stderr').Perm (getlines stderr) :=
    hlines ▸ (List.perm_cons_erase hline).symm
  obtain ⟨rest, hrest⟩ : ∃ rest, advertised stderr' = f :: rest := by
    rw [advertised, hlines]
    exact ⟨_, List.filterMap_cons_some hread⟩
  obtain ⟨formats, hformats, hmade, hrate⟩ := hpick stderr' hperm
  rw [enumerateFormats_eq (hfits.perm hperm)] at hformats
  obtain rfl := Option.some.inj hformats
  have hf' := hf.perm (advertised_perm hperm)
  obtain ⟨m, hm⟩ :=
    exists_pickedFormat (SortBy.stable AdvertisedFormat.key) hf'.mem hf.picked
  have hbest := isBest_advertised hm
  -- the format of the line is kept, and with its key it is the one picked
  have hkept : f ∈ uniqueBy AdvertisedFormat.key
      ((SortBy.stable AdvertisedFormat.key).sort (advertised stderr')) := by
    rw [hrest]
    exact mem_uniqueBy_orderBy_cons f rest
  obtain rfl : m = f :=
    eq_of_key_eq (SortBy.pairwise_uniqueBy _ _) (mem_of_pickedFormat hm) hkept
      (hbest.key_eq hf')
  have hgreatest := (isGreatest_rate_iff hbest).mpr
    ⟨g, hg.perm (advertised_perm hperm), fun h hh =>
      hmax h (hh.perm (advertised_perm hperm).symm), rfl⟩
  refine pickedFps_eq_floor_iff.mp ?_
  rw [← hrate m hm _ hgreatest, ← hmade, pickDefaultFromFormats_eq_toPick, hm]
  rfl

/-- **No order of the lines matters**, for no sort, exactly if the lines of
the best format agree about the rate. Every admissible sort is quantified over
on the left, since the standard leaves open what `std::sort` does with equal
elements. -/
theorem orderIndependent_iff {stderr : Text} (hfits : NumbersFit stderr) :
    (∀ std, OrderIndependent std stderr) ↔ RatesAgree (advertised stderr) :=
  ⟨fun h => ratesAgree_of_orderIndependent hfits (h _),
    fun hrates std => orderIndependent_of_ratesAgree hfits hrates std⟩

/-- The line of a camera with mjpeg at 640x480, up to a rate. -/
def cappedLine (cap : String) : Text :=
  "vcodec=mjpeg min s=640x480 fps=5 max s=640x480 fps=".toList ++ cap.toList

/-- The format on it. -/
def capped (cap : ℚ) : AdvertisedFormat :=
  ⟨"compressed", "mjpeg", "", 640, 480, 5, cap⟩

/-- The size with two rates. -/
def twoCaps : Text := cappedLine "30" ++ '\n' :: cappedLine "15"

/-- The size with one rate, on two lines. -/
def oneCap : Text := cappedLine "30" ++ '\n' :: cappedLine "30"

theorem numbersFit_of_forall {stderr : Text}
    (h : (getlines stderr).all (fun line => (readFormatLine line).isSome)
      = true) :
    NumbersFit stderr :=
  fun line hline =>
    readFormatLine_isSome_iff.mp (List.all_eq_true.mp h line hline)

theorem orderIndependent_oneCap :
    RatesAgree (advertised oneCap) ∧ ∀ std, OrderIndependent std oneCap := by
  have hrates : RatesAgree (advertised oneCap) := by
    have hlines : advertised oneCap = [capped 30, capped 30] := by
      decide +kernel
    rw [hlines]
    intro f g hf hg _
    obtain rfl : f = capped 30 := by simpa using hf.1
    obtain rfl : g = capped 30 := by simpa using hg.1
    decide
  exact ⟨hrates,
    (orderIndependent_iff (numbersFit_of_forall (by decide +kernel))).mpr
      hrates⟩

/-- With two rates the first line decides. -/
theorem orderIndependent_twoCaps_false :
    NumbersFit twoCaps ∧
      ¬ OrderIndependent (SortBy.stable AdvertisedFormat.key) twoCaps := by
  have hfits : NumbersFit twoCaps := numbersFit_of_forall (by decide +kernel)
  refine ⟨hfits, fun h => ?_⟩
  have hlines : advertised twoCaps = [capped 30, capped 15] := by decide +kernel
  have hrank : ∀ f ∈ advertised twoCaps,
      f.rank = (capped 30).rank ∧ f.maxFps ≤ 30 := by
    rw [hlines]
    exact List.forall_mem_cons.mpr
      ⟨⟨rfl, le_rfl⟩, List.forall_mem_singleton.mpr ⟨rfl, by decide⟩⟩
  have hbest : ∀ f ∈ advertised twoCaps, f.kindRank ≠ 0 →
      IsBest (advertised twoCaps) f :=
    fun f hf hkind => ⟨hf, hkind,
      fun g hg => ((hrank g hg).1.trans (hrank f hf).1.symm).le⟩
  have hrates := ratesAgree_of_orderIndependent hfits h (capped 15) (capped 30)
    (hbest _ (by rw [hlines]; simp) (by decide))
      (hbest _ (by rw [hlines]; simp) (by decide))
    (fun f hf => (hrank f hf.mem).2)
  exact absurd hrates (by decide)

end WebcamStreamer
