import WebcamStreamer.CameraFormats
import WebcamStreamer.KnownCameras
import WebcamStreamer.Settings

/-!
# What others write

At start-up and whenever a camera is plugged in, the program reads what it did
not write itself: three files, and what ffmpeg prints about the devices and
about their formats. The readers run on the main thread, and nothing above them
catches an exception.

Two of them never raise one: the settings are read inside a `try` block and an
override is read line by line inside another. The devices are read without a
conversion. The database and the formats are converted outside of any such block
(`ReadersReturn.iff_converts`).
-/

namespace WebcamStreamer

open StableSort

/-- The texts that others write. -/
structure ExternalText where
  /-- `config/known-cameras.json`. -/
  knownCameras : JsonFile := .missing
  /-- `settings.json`. -/
  settings : JsonFile := .missing
  /-- An override file. -/
  override : Option Text := none
  /-- What `-list_devices` prints. -/
  listDevices : Text := []
  /-- What `-list_options` prints. -/
  listOptions : Text := []

/-- What the operating system answers about the three files. -/
structure ExternalOps where
  knownCameras : FileOps := {}
  settings : FileOps := {}
  override : FileOps := {}

/-- No existence test throws. -/
structure ExternalOps.Quiet (ops : ExternalOps) : Prop where
  knownCameras : ops.knownCameras.existsThrows = none
  settings : ops.settings.existsThrows = none
  override : ops.override.existsThrows = none

/-- **The readers return**, all of them. Returning means without an exception:
what is read then, a default included, is left open here. -/
structure ReadersReturn (std : SortBy AdvertisedFormat.key) (ops : ExternalOps)
    (t : ExternalText) : Prop where
  knownCameras : ∃ r, KnownCameraDb.load ops.knownCameras t.knownCameras = .ok r
  settings : ∃ s, loadSettings ops.settings t.settings = .ok s
  override : ∃ o, loadOverride ops.override t.override = .ok o
  /-- `ParseFfmpegDshowList` has no exception to raise. -/
  devices : ∃ devices, parseFfmpegDshowList t.listDevices = devices
  formats : ∃ formats, enumerateFormats std t.listOptions = some formats

/-- **The texts that convert**: an entry of the database has fields of their
types, and a line of formats has numbers that fit. -/
structure ExternalText.Converts (ops : ExternalOps) (t : ExternalText) :
    Prop where
  knownCameras :
    ops.knownCameras.readable = true → KnownCameraDb.Readable t.knownCameras
  formats : ∀ line ∈ getlines t.listOptions, ∀ m f,
    matchFormat line = some (m, f) → m.Fits

variable {std : SortBy AdvertisedFormat.key} {ops : ExternalOps}
  {t : ExternalText}

/-- **The readers return exactly on the texts that convert.** The hypothesis
excludes exceptions of the file system, about which the texts say nothing. -/
theorem ReadersReturn.iff_converts (hops : ops.Quiet) :
    ReadersReturn std ops t ↔ t.Converts ops := by
  have hformats := @enumerateFormats_isSome_iff std t.listOptions
  rw [Option.isSome_iff_exists] at hformats
  have hknown := KnownCameraDb.load_isOk_iff hops.knownCameras t.knownCameras
  constructor
  · exact fun h => ⟨hknown.mp h.knownCameras, hformats.mp h.formats⟩
  · refine fun h => ⟨hknown.mpr h.knownCameras,
      ⟨_, loadSettings_eq_ok.mpr ⟨hops.settings, rfl⟩⟩,
      ?_, ⟨_, rfl⟩, hformats.mpr h.formats⟩
    unfold loadOverride
    rw [hops.override]
    exact ⟨_, rfl⟩

/-- A database with one entry, whose only field is its rate. -/
def rateEntry (fps : Json String) : JsonFile :=
  .doc (.object [("cameras", .object [("046d:085e", .object [("fps", fps)])])])

theorem readable_rateEntry_iff {fps : Json String} :
    KnownCameraDb.Readable (rateEntry fps) ↔ fps.IsNumeric := by
  have hentry : IsEntry (.object [("fps", fps)]) ↔ fps.IsNumeric := by
    simp [IsEntry, Json.member]
  unfold KnownCameraDb.Readable rateEntry
  simp [JsonFile.member?, Json.member, hentry]

/-- The program's own notation of a rate, and a camera with one format. -/
theorem ReadersReturn.iff_converts_numbers :
    ReadersReturn (.stable AdvertisedFormat.key) {} {
      knownCameras := rateEntry (.integer 30)
      listOptions :=
        "vcodec=mjpeg  min s=640x480 fps=5 max s=640x480 fps=30".toList } := by
  refine (ReadersReturn.iff_converts ⟨rfl, rfl, rfl⟩).mpr ⟨fun _ => ?_,
    fun line hline m f hm => ?_⟩
  · exact readable_rateEntry_iff.mpr (.inl ⟨30, rfl⟩)
  · have hlines :
        getlines "vcodec=mjpeg  min s=640x480 fps=5 max s=640x480 fps=30".toList
        = ["vcodec=mjpeg  min s=640x480 fps=5 max s=640x480 fps=30".toList] := by
      decide
    have hmatch : matchFormat
        "vcodec=mjpeg  min s=640x480 fps=5 max s=640x480 fps=30".toList
        = some (⟨"mjpeg".toList, "640".toList, "480".toList, "5".toList,
          "30".toList⟩,
          { kind := "compressed", codec := "mjpeg" }) := by
      decide
    obtain rfl := List.mem_singleton.mp (hlines ▸ hline)
    obtain ⟨rfl, -⟩ := Prod.mk.inj (Option.some.inj (hmatch.symm.trans hm))
    exact ⟨by decide, by decide, fits_of_isDigits (by decide) (by decide),
      fits_of_isDigits (by decide) (by decide)⟩

/-- A rate that is written as a text: `value()` throws, and nothing catches
it. -/
theorem readersReturn_textRate_false :
    ¬ ∀ (std : SortBy AdvertisedFormat.key) (ops : ExternalOps)
      (t : ExternalText),
      ops.Quiet → ReadersReturn std ops t := by
  intro hall
  have hreturn :=
    hall (.stable _) {} { knownCameras := rateEntry (.string "30") } ⟨rfl, rfl,
      rfl⟩
  have hread := (KnownCameraDb.load_isOk_iff rfl _).mp hreturn.knownCameras rfl
  simpa [Json.IsNumeric] using readable_rateEntry_iff.mp hread

end WebcamStreamer
