import Mathlib.Algebra.Order.Ring.Unbundled.Rat
import Mathlib.Data.Rat.Defs

/-!
# Camera configurations

What a camera is streamed as: the mode, the size and the rate, where these
defaults come from, and the ffmpeg command line they are turned into.

The default for a camera nobody configured is picked from the formats that
`ffmpeg -list_options` advertises for it. The pick is one pass over the list
with three running candidates and an early exit, and it is kept that way here.
-/

namespace WebcamStreamer

/-- `enum class Mode`. -/
inductive Mode where
  | passthroughMjpeg
  | passthroughH264
  | transcodeMjpegToH264
  | transcodeRawToH264
  | transcodeRawToMjpeg
  | unknown
  deriving DecidableEq

/-- `ModeName`. -/
def modeName : Mode → String
  | .passthroughMjpeg => "passthrough_mjpeg"
  | .passthroughH264 => "passthrough_h264"
  | .transcodeMjpegToH264 => "transcode_mjpeg_to_h264"
  | .transcodeRawToH264 => "transcode_raw_to_h264"
  | .transcodeRawToMjpeg => "transcode_raw_to_mjpeg"
  | .unknown => "unknown"

/-- `ModeFromString`. -/
def modeFromString (s : String) : Mode :=
  if s = "passthrough_mjpeg" then .passthroughMjpeg
  else if s = "passthrough_h264" then .passthroughH264
  else if s = "transcode_mjpeg_to_h264" then .transcodeMjpegToH264
  else if s = "transcode_raw_to_h264" then .transcodeRawToH264
  else if s = "transcode_raw_to_mjpeg" then .transcodeRawToMjpeg
  else .unknown

/-- Every mode reads back from its name. -/
theorem modeFromString_modeName (m : Mode) :
    modeFromString (modeName m) = m := by
  cases m <;> decide

/-- `struct CameraConfig`. -/
structure CameraConfig where
  friendlyName : String
  rtspPath : String
  mode : Mode := .transcodeMjpegToH264
  width : ℤ := 640
  height : ℤ := 480
  fps : ℤ := 30
  enabled : Bool := true
  deriving DecidableEq

/-- The input format options of `BuildFFmpegArgs`. -/
def inputFormatArgs : Mode → List String
  | .passthroughMjpeg | .transcodeMjpegToH264 => ["-vcodec", "mjpeg"]
  | .passthroughH264 => ["-vcodec", "h264"]
  | .transcodeRawToH264 | .transcodeRawToMjpeg => ["-pixel_format", "yuyv422"]
  | .unknown => ["-vcodec", "mjpeg"]

/-- The output codec options of `BuildFFmpegArgs`. -/
def outputCodecArgs : Mode → List String
  | .passthroughMjpeg | .passthroughH264 => ["-c:v", "copy"]
  | .transcodeMjpegToH264 | .transcodeRawToH264 =>
    ["-c:v", "libx264", "-preset", "ultrafast", "-tune", "zerolatency",
      "-pix_fmt", "yuv420p", "-g", "60", "-bf", "0"]
  | .transcodeRawToMjpeg =>
    ["-c:v", "mjpeg", "-q:v", "4", "-pix_fmt", "yuvj422p"]
  | .unknown => ["-c:v", "copy"]

/-- `BuildFFmpegArgs`. -/
def buildFFmpegArgs (cam : CameraConfig) (publisherUrl : String) :
    List String :=
  ["-hide_banner", "-loglevel", "warning", "-f", "dshow"]
    ++ inputFormatArgs cam.mode
    ++ ["-video_size", toString cam.width ++ "x" ++ toString cam.height,
      "-framerate", toString cam.fps, "-i", "video=" ++ cam.friendlyName]
    ++ outputCodecArgs cam.mode
    ++ ["-an", "-max_packet_size", "1200", "-f", "rtsp",
      "-rtsp_transport", "tcp",
      publisherUrl ++ cam.rtspPath]

/-- `struct CameraDevice`: one video device of an enumeration. -/
structure CameraDevice where
  friendlyName : String
  altName : String := ""
  vidPid : String := ""
  deriving DecidableEq

/-! ## The advertised formats and the default picked from them

The two predicates and the pick have the words of the source. The pick walks
the list with a best candidate, a best one among those that are not too large,
and a way out at the preferred size. -/

/-- `struct AdvertisedFormat`; the rates are doubles. -/
structure AdvertisedFormat where
  kind : String
  codec : String := ""
  pixFmt : String := ""
  width : ℤ := 0
  height : ℤ := 0
  minFps : ℚ := 0
  maxFps : ℚ := 0
  deriving DecidableEq

namespace AdvertisedFormat

/-- The number of pixels, in 64 bits. -/
def area (f : AdvertisedFormat) : ℤ := f.width * f.height

/-- The predicate of the first pick. -/
def isCompressedMjpeg (f : AdvertisedFormat) : Bool :=
  f.kind == "compressed" && f.codec == "mjpeg"

/-- The predicate of the second pick. -/
def isRaw (f : AdvertisedFormat) : Bool := f.kind == "raw"

end AdvertisedFormat

/-- A candidate replaced by a strictly larger one. -/
def larger (best : Option AdvertisedFormat) (f : AdvertisedFormat) :
    Option AdvertisedFormat :=
  match best with
  | none => some f
  | some g => if f.area > g.area then some f else some g

/-- The loop of `pickBest`: it stops at the preferred 640x480, and otherwise
keeps the largest format that fits into it and the largest of all. -/
def pickBestLoop (pred : AdvertisedFormat → Bool) :
    List AdvertisedFormat → Option AdvertisedFormat → Option AdvertisedFormat →
      Option AdvertisedFormat
  | [], leSized, largest => leSized.or largest
  | f :: fs, leSized, largest =>
    if pred f then
      if f.width = 640 ∧ f.height = 480 then some f
      else
        pickBestLoop pred fs
          (if f.width ≤ 640 ∧ f.height ≤ 480 then larger leSized f else leSized)
          (larger largest f)
    else pickBestLoop pred fs leSized largest

/-- `pickBest`. -/
def pickBest (formats : List AdvertisedFormat)
    (pred : AdvertisedFormat → Bool) : Option AdvertisedFormat :=
  pickBestLoop pred formats none none

/-- `struct DefaultPick`. -/
structure DefaultPick where
  mode : Mode
  width : ℤ
  height : ℤ
  fps : ℤ
  deriving DecidableEq

/-- The rate of a picked format: its greatest advertised rate, at most 30,
truncated. -/
def pickedFps (f : AdvertisedFormat) : ℤ :=
  if f.maxFps > 0 then (min 30 f.maxFps).floor else 30

/-- `PickDefaultFromFormats`. -/
def pickDefaultFromFormats (formats : List AdvertisedFormat) : DefaultPick :=
  match pickBest formats AdvertisedFormat.isCompressedMjpeg with
  | some m => ⟨.transcodeMjpegToH264, m.width, m.height, pickedFps m⟩
  | none =>
    match pickBest formats AdvertisedFormat.isRaw with
    | some m => ⟨.transcodeRawToH264, m.width, m.height, pickedFps m⟩
    | none => ⟨.transcodeMjpegToH264, 640, 480, 30⟩

/-! ## The known-cameras database

A profile has the defaults of the source, which are those of an entry that
leaves everything out. What a file with such entries is loaded as is the
subject of another module. -/

/-- `struct KnownCamera`. -/
structure KnownCamera where
  label : String := ""
  mode : Mode := .transcodeMjpegToH264
  width : ℤ := 1280
  height : ℤ := 720
  fps : ℤ := 30
  deriving DecidableEq

/-- The entries of a loaded `KnownCameraDb`, by USB `vid:pid`. -/
abbrev KnownCameraDb := List (String × KnownCamera)

/-- `KnownCameraDb::Lookup`. -/
def KnownCameraDb.lookup? (db : KnownCameraDb) (vidPid : String) :
    Option KnownCamera :=
  List.lookup vidPid db

end WebcamStreamer
