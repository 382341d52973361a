import WebcamStreamer.CameraTable
import WebcamStreamer.DefaultPicks
import WebcamStreamer.StableSort

/-!
# The Resolution dropdown

Next to the mode of a camera the user picks a resolution, and the dropdown is to
list the resolutions that ffmpeg accepts in that mode. It is filled on the side
of the user interface: a predicate for each mode selects the advertised formats,
their sizes are shown once each, sorted by a number that is computed from the
text. Where nothing is selected, a fixed list is shown instead.

ffmpeg is given its options on the side of the supervisor. `MenuAgrees` says
when the two sides agree: something is selected, what is selected and what
answers the options have the same sizes, and the numbers sort the sizes.
-/

namespace WebcamStreamer

/-! ## The dropdown

The dropdown is made of the formats that a predicate on the mode selects, as
texts, without repetitions, and sorted by a number that is computed from the
text again. Where nothing is selected, a fixed list takes its place. -/

/-- `Resolutions.All`. -/
def Resolutions.all : List String :=
  ["320x240", "640x360", "640x480", "960x540", "1280x720", "1920x1080"]

/-- The formats that `AvailableResolutions` selects for a mode. -/
def menuPredicate (mode : String) (f : AdvertisedFormat) : Bool :=
  if mode = "passthrough_mjpeg" then
    f.kind == "compressed" && f.codec == "mjpeg"
  else if mode = "transcode_mjpeg_to_h264" then
    f.kind == "compressed" && f.codec == "mjpeg"
  else if mode = "passthrough_h264" then
    f.kind == "compressed" && f.codec == "h264"
  else if mode = "transcode_raw_to_h264" then f.kind == "raw"
  else if mode = "transcode_raw_to_mjpeg" then f.kind == "raw"
  else true

/-- A resolution as it is shown. -/
def sizeText (size : ℤ × ℤ) : String :=
  toString size.1 ++ "x" ++ toString size.2

/-- The size of a format. -/
def AdvertisedFormat.size (f : AdvertisedFormat) : ℤ × ℤ := (f.width, f.height)

/-- What stands behind the digits that a text starts with. -/
def behindDigits (t : Text) : Text :=
  match t.dropWhile isSpace with
  | '-' :: rest => rest.dropWhile Char.isDigit
  | '+' :: rest => rest.dropWhile Char.isDigit
  | rest => rest.dropWhile Char.isDigit

/-- `int.Parse`: a number as `stoi` reads it, and nothing but white space behind
it; `none` is the exception. -/
def parseInt (t : Text) : Option ℤ :=
  if (behindDigits t).all isSpace then stoi t else none

/-- The number by which the resolutions are sorted, in unchecked 32-bit
arithmetic. -/
def sizeKey (size : ℤ × ℤ) : ℤ := int32OfInteger (size.1 * 10000 + size.2)

/-- The number computed from the text; `none` is an exception of the parser or
of the index. -/
def sortKey (s : String) : Option ℤ := do
  let parts := s.toList.splitOn 'x'
  let w ← parts[0]?.bind parseInt
  let h ← parts[1]?.bind parseInt
  return sizeKey (w, h)

namespace CameraInfo

/-- The distinct sizes of the selected formats, in the order of the list. -/
def selectedSizes (row : CameraInfo) : List (ℤ × ℤ) :=
  ((row.advertisedFormats.filter (menuPredicate row.mode)).map
    AdvertisedFormat.size).eraseDups

/-- `AvailableResolutions`; `none` is the exception of a key. -/
def availableResolutions (row : CameraInfo) : Option (List String) :=
  if row.advertisedFormats = [] then some []
  else
    let texts := ((row.advertisedFormats.filter (menuPredicate row.mode)).map
      (fun f => sizeText f.size)).eraseDups
    (texts.mapM (fun s => (sortKey s).map (fun key => (key, s)))).map
      (fun keyed => (StableSort.orderBy Prod.fst keyed).map Prod.snd)

end CameraInfo

/-- `ResolutionFallbackConverter.Convert`. -/
def ResolutionFallbackConverter.convert (list : List String) : List String :=
  if list = [] then Resolutions.all else list

/-- What the dropdown of a row shows. -/
def CameraInfo.shownResolutions (row : CameraInfo) : Option (List String) :=
  row.availableResolutions.map ResolutionFallbackConverter.convert

/-! ## A resolution is read back

The number by which a text is sorted comes from parsing the text at its cross.
A text that was made from two numbers is parsed into them, so that no
exception is thrown for a size of 32 bits. -/

theorem sizeText_injective : Function.Injective sizeText := fun _ _ h =>
  Prod.ext_iff.mpr (size_inj.mp h)

/-- A number is digits, after a sign where it is negative. -/
theorem toList_toString_eq (n : ℤ) :
    ∃ ds : Text, ds ≠ [] ∧ (∀ c ∈ ds, c.isDigit = true) ∧
      ((toString n).toList = ds ∨ (toString n).toList = '-' :: ds) := by
  have hdigits : ∀ m : ℕ, ∀ c ∈ Nat.toDigits 10 m, c.isDigit = true :=
    fun m c hc =>
    Nat.isDigit_of_mem_toDigits (by omega) (by omega) hc
  cases n with
  | ofNat m => exact ⟨_, Nat.toDigits_ne_nil, hdigits m, .inl Nat.toList_repr⟩
  | negSucc m =>
    refine ⟨_, Nat.toDigits_ne_nil, hdigits (m + 1), .inr ?_⟩
    show ("-" ++ (m + 1).repr).toList = _
    rw [String.toList_append, Nat.toList_repr]
    rfl

theorem behindDigits_toString (n : ℤ) :
    behindDigits (toString n).toList = [] := by
  obtain ⟨ds, hne, hds, htext⟩ := toList_toString_eq n
  have hdrop : ds.dropWhile Char.isDigit = [] :=
    List.dropWhile_eq_nil_iff.mpr hds
  obtain ⟨c, cs, rfl⟩ := List.exists_cons_of_ne_nil hne
  have hc : c.isDigit = true := hds c List.mem_cons_self
  rcases htext with htext | htext
  · rw [htext, behindDigits,
      List.dropWhile_cons_of_neg (by simp [isSpace_of_isDigit hc])]
    split
    next heq => exact absurd ((List.cons.inj heq).1 ▸ hc) (by decide)
    next heq => exact absurd ((List.cons.inj heq).1 ▸ hc) (by decide)
    next => exact hdrop
  · rw [htext]
    exact hdrop

theorem parseInt_toString {n : ℤ} (h : IsInt32 n) :
    parseInt (toString n).toList = some n := by
  rw [parseInt, behindDigits_toString]
  exact stoi_toString h

/-- The key of a resolution is the number computed from its sides. -/
theorem sortKey_sizeText {size : ℤ × ℤ} (hw : IsInt32 size.1)
    (hh : IsInt32 size.2) :
    sortKey (sizeText size) = some (sizeKey size) := by
  have hx : ∀ n : ℤ, 'x' ∉ (toString n).toList := fun n hmem =>
    absurd (isDigit_of_mem_toString hmem) (by decide)
  have hsplit : (sizeText size).toList.splitOn 'x'
      = [(toString size.1).toList, (toString size.2).toList] := by
    have htext : (sizeText size).toList
        = (toString size.1).toList ++ 'x' :: (toString size.2).toList := by
      simp [sizeText]
    rw [htext, List.splitOn_append_cons_self_of_not_mem (hx _),
      List.splitOn_eq_singleton (hx _)]
  unfold sortKey
  rw [hsplit]
  show ((parseInt _).bind fun w => (parseInt _).bind fun h =>
    some (sizeKey (w, h))) = _
  rw [parseInt_toString hw, parseInt_toString hh]
  rfl

/-- Where every element has a value, so has the list. -/
theorem mapM_eq_some_map {α β : Type} {f : α → Option β} {g : α → β}
    {l : List α}
    (h : ∀ a ∈ l, f a = some (g a)) : l.mapM f = some (l.map g) := by
  induction l with
  | nil => rfl
  | cons a l ih =>
    obtain ⟨ha, hl⟩ := List.forall_mem_cons.mp h
    rw [List.mapM_cons, ha, ih hl]
    rfl

/-! ## What is shown

With the keys known, the dropdown is the list of the distinct sizes in the
order of the keys. The arithmetic of the keys overflows silently, so that this
need not be the order of the sizes. -/

namespace CameraInfo

variable {row : CameraInfo}

/-- The sizes are numbers of 32 bits, as the properties that hold them. -/
def SizesFit (row : CameraInfo) : Prop :=
  ∀ f ∈ row.advertisedFormats, IsInt32 f.width ∧ IsInt32 f.height

theorem mem_selectedSizes {size : ℤ × ℤ} :
    size ∈ row.selectedSizes ↔
      ∃ f ∈ row.advertisedFormats,
        menuPredicate row.mode f = true ∧ f.size = size := by
  rw [selectedSizes, List.mem_eraseDups, List.mem_map]
  simp only [List.mem_filter, and_assoc]

/-- **What the dropdown lists**: the distinct sizes of the selected formats in
the order of their keys. The sort is stable and the sizes are distinct, so
that only sizes of one key stand as they stood in the listing. -/
theorem availableResolutions_eq (hfit : row.SizesFit)
    (hne : row.advertisedFormats ≠ []) :
    row.availableResolutions
      = some ((StableSort.orderBy sizeKey row.selectedSizes).map sizeText) := by
  have htexts : ((row.advertisedFormats.filter (menuPredicate row.mode)).map
      (fun f => sizeText f.size)).eraseDups
      = row.selectedSizes.map sizeText := by
    rw [selectedSizes, ← StableSort.eraseDups_map sizeText_injective,
      List.map_map]
    rfl
  have hkeys : (row.selectedSizes.map sizeText).mapM
      (fun s => (sortKey s).map (fun key => (key, s)))
      = some (row.selectedSizes.map (fun size => (sizeKey size,
        sizeText size))) := by
    rw [List.mapM_map]
    refine mapM_eq_some_map (fun size hsize => ?_)
    obtain ⟨f, hf, -, rfl⟩ := mem_selectedSizes.mp hsize
    rw [Function.comp_apply, sortKey_sizeText (hfit f hf).1 (hfit f hf).2]
    rfl
  unfold availableResolutions
  rw [if_neg hne]
  show Option.map _ (List.mapM _ _) = _
  rw [htexts, hkeys, Option.map_some, StableSort.orderBy_map, List.map_map]
  rfl

/-- Where nothing is selected, the fixed list is shown. -/
theorem shownResolutions_eq (hfit : row.SizesFit)
    (hne : row.advertisedFormats ≠ []) :
    row.shownResolutions = some (if row.selectedSizes = [] then Resolutions.all
      else (StableSort.orderBy sizeKey row.selectedSizes).map sizeText) := by
  rw [shownResolutions, availableResolutions_eq hfit hne, Option.map_some,
    ResolutionFallbackConverter.convert]
  refine congrArg some (if_congr ?_ rfl rfl)
  rw [List.map_eq_nil_iff, StableSort.orderBy_eq_nil_iff]

end CameraInfo

/-! ## What ffmpeg accepts

What ffmpeg accepts is described from the other side, by the input options
that the configuration of the row leads to. The two sides agree on a row under
a condition that looks at its formats only, and the condition is exact. -/

/-- The format is one that the input options ask for: a compressed one of the
codec, or a raw one of the pixel format. -/
def AdvertisedFormat.IsAskedFor (f : AdvertisedFormat) (options : List String) :
    Prop :=
  f.kind = "compressed" ∧ optionValue "-vcodec" options = some f.codec ∨
    f.kind = "raw" ∧ optionValue "-pixel_format" options = some f.pixFmt

instance (f : AdvertisedFormat) (options : List String) :
    Decidable (f.IsAskedFor options) :=
  inferInstanceAs (Decidable (_ ∧ _ ∨ _ ∧ _))

/-- Sizes in their order: by width, then by height. -/
def SizeLt (a b : ℤ × ℤ) : Prop := a.1 < b.1 ∨ a.1 = b.1 ∧ a.2 < b.2

namespace CameraInfo

variable {row : CameraInfo} {f : AdvertisedFormat}

/-- The format is one that `BuildFFmpegArgs` asks for in the mode of the row. -/
def Accepts (row : CameraInfo) (f : AdvertisedFormat) : Prop :=
  f.IsAskedFor (inputFormatArgs (modeFromString row.mode))

instance (row : CameraInfo) (f : AdvertisedFormat) :
    Decidable (row.Accepts f) :=
  inferInstanceAs (Decidable (AdvertisedFormat.IsAskedFor _ _))

/-- **The dropdown offers what ffmpeg accepts**: every entry is the size of a
format that is asked for, every such size is shown once, and they are shown in
increasing order. -/
structure OffersAccepted (row : CameraInfo) (shown : List String) : Prop where
  accepted : ∀ s ∈ shown, ∃ f ∈ row.advertisedFormats,
    row.Accepts f ∧ s = sizeText f.size
  once : ∀ f ∈ row.advertisedFormats, row.Accepts f →
    shown.count (sizeText f.size) = 1
  increasing :
    ∃ sizes : List (ℤ × ℤ), shown = sizes.map sizeText ∧ sizes.Pairwise SizeLt

/-- **The condition under which the two sides agree**: some format is selected,
each one selected has the size of one that is asked for, and where the keys do
not tell two sizes apart, or are the wrong way round, the list does. -/
structure MenuAgrees (row : CameraInfo) : Prop where
  selects : ∃ f ∈ row.advertisedFormats, menuPredicate row.mode f = true
  asked : ∀ f ∈ row.advertisedFormats, menuPredicate row.mode f = true →
    ∃ g ∈ row.advertisedFormats, row.Accepts g ∧ g.size = f.size
  sorted : ∀ a ∈ row.selectedSizes, ∀ b ∈ row.selectedSizes, SizeLt a b →
    sizeKey a < sizeKey b ∨ sizeKey a = sizeKey b ∧
    [a, b].Sublist row.selectedSizes

/-- What is asked for is selected, in every mode. -/
theorem menuPredicate_of_accepts (h : row.Accepts f) :
    menuPredicate row.mode f = true := by
  unfold Accepts AdvertisedFormat.IsAskedFor modeFromString at h
  unfold menuPredicate
  split_ifs at * with h₁ h₂ h₃ h₄ h₅
  all_goals simp_all [inputFormatArgs, optionValue]

theorem selectedSizes_eq_nil_iff :
    row.selectedSizes = [] ↔ ¬ ∃ f ∈ row.advertisedFormats,
      menuPredicate row.mode f = true := by
  rw [List.eq_nil_iff_forall_not_mem]
  constructor
  · rintro h ⟨f, hf, hpred⟩
    exact h f.size (mem_selectedSizes.mpr ⟨f, hf, hpred, rfl⟩)
  · rintro h size hsize
    obtain ⟨f, hf, hpred, -⟩ := mem_selectedSizes.mp hsize
    exact h ⟨f, hf, hpred⟩

/-- The order of the sizes is the order of the dropdown exactly if the keys put
them there. -/
theorem pairwise_sizeLt_iff :
    (StableSort.orderBy sizeKey row.selectedSizes).Pairwise SizeLt ↔
      ∀ a ∈ row.selectedSizes, ∀ b ∈ row.selectedSizes, SizeLt a b →
        sizeKey a < sizeKey b ∨ sizeKey a = sizeKey b ∧
        [a, b].Sublist row.selectedSizes := by
  refine StableSort.pairwise_orderBy_iff (fun a h => ?_) (fun a b h => ?_)
    (fun a b h => ?_)
    (StableSort.nodup_eraseDups _)
  · unfold SizeLt at h
    omega
  · unfold SizeLt at h ⊢
    omega
  · unfold SizeLt
    have hne : a.1 ≠ b.1 ∨ a.2 ≠ b.2 := by
      by_contra hall
      exact h (Prod.ext_iff.mpr (by omega))
    omega

/-- Where the dropdown offers what is accepted, the sides agree. -/
theorem menuAgrees_of_offersAccepted (hfit : row.SizesFit)
    (hne : row.advertisedFormats ≠ [])
    {shown : List String} (hshown : row.shownResolutions = some shown)
    (h : row.OffersAccepted shown) : row.MenuAgrees := by
  obtain rfl :=
    Option.some.inj ((shownResolutions_eq hfit hne).symm.trans hshown)
  have hselects : ∃ f ∈ row.advertisedFormats,
      menuPredicate row.mode f = true := by
    by_contra hnone
    -- an entry of the fixed list is no accepted size where nothing is selected
    have hall := h.accepted
    rw [if_pos (selectedSizes_eq_nil_iff.mpr hnone)] at hall
    obtain ⟨f, hf, haccepts, -⟩ := hall "320x240" (by decide)
    exact hnone ⟨f, hf, menuPredicate_of_accepts haccepts⟩
  rw [if_neg (fun hnil => selectedSizes_eq_nil_iff.mp hnil hselects)] at h
  refine ⟨hselects, fun f hf hpred => ?_, pairwise_sizeLt_iff.mp ?_⟩
  · have hmem := mem_selectedSizes.mpr ⟨f, hf, hpred, rfl⟩
    obtain ⟨g, hg, haccepts, htext⟩ := h.accepted _
      (List.mem_map_of_mem (StableSort.mem_orderBy.mpr hmem))
    exact ⟨g, hg, haccepts, (sizeText_injective htext).symm⟩
  · obtain ⟨sizes, hsizes, hsorted⟩ := h.increasing
    exact (List.map_injective_iff.mpr sizeText_injective hsizes).symm ▸ hsorted

/-- Where the sides agree, the dropdown offers what is accepted. -/
theorem MenuAgrees.offersAccepted (h : row.MenuAgrees) (hfit : row.SizesFit)
    (hne : row.advertisedFormats ≠ []) :
    ∃ shown, row.shownResolutions = some shown ∧ row.OffersAccepted shown := by
  refine ⟨_, shownResolutions_eq hfit hne, ?_⟩
  rw [if_neg (fun hnil => selectedSizes_eq_nil_iff.mp hnil h.selects)]
  have hnodup :
      ((StableSort.orderBy sizeKey row.selectedSizes).map sizeText).Nodup :=
    (StableSort.nodup_orderBy.mpr (StableSort.nodup_eraseDups _)).map
      sizeText_injective
  refine ⟨fun s hs => ?_, fun f hf haccepts => ?_, _, rfl,
    pairwise_sizeLt_iff.mpr h.sorted⟩
  · obtain ⟨size, hsize, rfl⟩ := List.mem_map.mp hs
    obtain ⟨f, hf, hpred, rfl⟩ :=
      mem_selectedSizes.mp (StableSort.mem_orderBy.mp hsize)
    obtain ⟨g, hg, haccepts, hsame⟩ := h.asked f hf hpred
    exact ⟨g, hg, haccepts, congrArg sizeText hsame.symm⟩
  · refine List.count_eq_one_of_mem hnodup
      (List.mem_map_of_mem (StableSort.mem_orderBy.mpr ?_))
    exact mem_selectedSizes.mpr ⟨f, hf, menuPredicate_of_accepts haccepts, rfl⟩

/-- **The dropdown offers what ffmpeg accepts exactly if** the two sides
agree. The right side speaks of the row alone, of its mode and of its formats,
and not of what the dropdown has made of them. -/
theorem shownResolutions_offersAccepted_iff (row : CameraInfo)
    (hfit : row.SizesFit)
    (hne : row.advertisedFormats ≠ []) :
    (∃ shown, row.shownResolutions = some shown ∧ row.OffersAccepted shown) ↔
      row.MenuAgrees :=
  ⟨fun ⟨_, hshown, h⟩ => menuAgrees_of_offersAccepted hfit hne hshown h,
    fun h => h.offersAccepted hfit hne⟩

/-- A camera with an MJPEG size that is also raw. -/
def plainCamera : CameraInfo where
  mode := "transcode_mjpeg_to_h264"
  advertisedFormats := [⟨"compressed", "mjpeg", "", 640, 480, 5, 30⟩,
    ⟨"raw", "", "yuyv422", 640, 480, 5, 30⟩,
    ⟨"compressed", "mjpeg", "", 640, 480, 5, 15⟩]

theorem shownResolutions_offersAccepted_plainCamera :
    ∃ shown, plainCamera.shownResolutions = some shown ∧
      plainCamera.OffersAccepted shown := by
  have hfit : plainCamera.SizesFit := by
    simp [SizesFit, plainCamera, IsInt32]
  refine (shownResolutions_offersAccepted_iff plainCamera hfit
    (by decide)).mpr ?_
  refine ⟨by decide, by decide, ?_⟩
  have hsizes : plainCamera.selectedSizes = [(640, 480)] := by decide
  rw [hsizes]
  simp [SizeLt]

/-- A camera whose only raw format is not the one that is asked for. -/
def nv12Camera : CameraInfo where
  mode := "transcode_raw_to_h264"
  advertisedFormats := [⟨"raw", "", "nv12", 640, 480, 5, 30⟩]

/-- A camera with no format for its mode. -/
def h264Camera : CameraInfo where
  mode := "transcode_mjpeg_to_h264"
  advertisedFormats := [⟨"compressed", "h264", "", 1280, 720, 5, 30⟩]

/-- The one dropdown offers the size of the wrong pixel format, the other the
fixed list. -/
theorem shownResolutions_offersAccepted_false :
    (¬ ∃ shown, nv12Camera.shownResolutions = some shown ∧
      nv12Camera.OffersAccepted shown) ∧
      ¬ ∃ shown, h264Camera.shownResolutions = some shown ∧
        h264Camera.OffersAccepted shown := by
  have hnv12 : nv12Camera.SizesFit := by simp [SizesFit, nv12Camera, IsInt32]
  have hh264 : h264Camera.SizesFit := by simp [SizesFit, h264Camera, IsInt32]
  constructor
  · rintro ⟨shown, hshown, h⟩
    exact absurd (menuAgrees_of_offersAccepted hnv12 (by decide) hshown h).asked
      (by decide)
  · rintro ⟨shown, hshown, h⟩
    exact absurd (menuAgrees_of_offersAccepted hh264
      (by decide) hshown h).selects (by decide)

/-! ## The condition in the modes of the dropdown

In the two modes that the window offers the condition becomes simple: sizes as
cameras have them are sorted correctly, and what is left is that some format
is selected and, for raw video, that it has the right pixel format. -/

/-- Sizes for which the number does not overflow and the height has four
digits. -/
def SizesUsual (row : CameraInfo) : Prop :=
  ∀ f ∈ row.advertisedFormats,
    (0 ≤ f.width ∧ f.width ≤ 214747) ∧ 0 ≤ f.height ∧ f.height < 10000

theorem sizeKey_of_usual {size : ℤ × ℤ} (hw : 0 ≤ size.1 ∧ size.1 ≤ 214747)
    (hh : 0 ≤ size.2 ∧ size.2 < 10000) :
    sizeKey size = size.1 * 10000 + size.2 := by
  unfold sizeKey int32OfInteger
  exact Int.bmod_eq_of_le (by omega) (by omega)

/-- Usual sizes are sorted by their keys. -/
theorem menuAgrees_iff_of_usual (husual : row.SizesUsual) :
    row.MenuAgrees ↔
      (∃ f ∈ row.advertisedFormats, menuPredicate row.mode f = true) ∧
      ∀ f ∈ row.advertisedFormats, menuPredicate row.mode f = true →
        ∃ g ∈ row.advertisedFormats, row.Accepts g ∧ g.size = f.size := by
  refine ⟨fun h => ⟨h.selects, h.asked⟩,
    fun ⟨hselects, hasked⟩ => ⟨hselects, hasked, ?_⟩⟩
  intro a ha b hb hlt
  obtain ⟨f, hf, -, rfl⟩ := mem_selectedSizes.mp ha
  obtain ⟨g, hg, -, rfl⟩ := mem_selectedSizes.mp hb
  obtain ⟨hfw, hfh⟩ := husual f hf
  obtain ⟨hgw, hgh⟩ := husual g hg
  rw [sizeKey_of_usual hfw hfh, sizeKey_of_usual hgw hgh]
  unfold SizeLt AdvertisedFormat.size at *
  dsimp only at *
  omega

/-- Of usual sizes, those for MJPEG are right as soon as there is one. -/
theorem menuAgrees_mjpeg_iff (husual : row.SizesUsual)
    (hmode : row.mode = "transcode_mjpeg_to_h264") :
    row.MenuAgrees ↔
      ∃ f ∈ row.advertisedFormats,
        f.kind = "compressed" ∧ f.codec = "mjpeg" := by
  have hpred : ∀ f, menuPredicate row.mode f = true ↔
      f.kind = "compressed" ∧ f.codec = "mjpeg" := by
    intro f
    rw [hmode]
    simp [menuPredicate]
  have haccepts : ∀ f, f.kind = "compressed" ∧ f.codec = "mjpeg" →
      row.Accepts f := by
    rintro f ⟨hkind, hcodec⟩
    have hread : modeFromString row.mode = .transcodeMjpegToH264 :=
      hmode ▸ by decide
    rw [Accepts, hread]
    exact .inl ⟨hkind, hcodec ▸ rfl⟩
  simp only [menuAgrees_iff_of_usual husual, hpred]
  exact ⟨And.left,
    fun h => ⟨h, fun f hf hmjpeg => ⟨f, hf, haccepts f hmjpeg, rfl⟩⟩⟩

/-- Of usual sizes, the raw ones are right if there is one and each is also one
of the pixel format that is asked for. -/
theorem menuAgrees_raw_iff (husual : row.SizesUsual)
    (hmode : row.mode = "transcode_raw_to_h264") :
    row.MenuAgrees ↔ (∃ f ∈ row.advertisedFormats, f.kind = "raw") ∧
      ∀ f ∈ row.advertisedFormats, f.kind = "raw" → ∃ g ∈ row.advertisedFormats,
        (g.kind = "raw" ∧ g.pixFmt = "yuyv422") ∧ g.size = f.size := by
  have hpred : ∀ f, menuPredicate row.mode f = true ↔ f.kind = "raw" := by
    intro f
    rw [hmode]
    simp [menuPredicate]
  have haccepts : ∀ f, row.Accepts f ↔
      f.kind = "raw" ∧ f.pixFmt = "yuyv422" := by
    intro f
    have hread : modeFromString row.mode = .transcodeRawToH264 :=
      hmode ▸ by decide
    rw [Accepts, hread]
    simp [AdvertisedFormat.IsAskedFor, inputFormatArgs, optionValue, eq_comm]
  simp only [menuAgrees_iff_of_usual husual, hpred, haccepts]

end CameraInfo

end WebcamStreamer
