import WebcamStreamer.CommandLine
import WebcamStreamer.Quiescence
import WebcamStreamer.Utf16

/-!
# Wide strings on the wire

The supervisor holds names and paths as wide strings and speaks UTF-8:
`Utf8ToWide` converts what ffmpeg, MediaMTX and the clients say, and
`WideToUtf8` converts what it says to them. A camera is named by a client as the
supervisor has named it, and found by a comparison of wide strings. The rest of
the development writes such a name as a text and compares texts.

What `MultiByteToWideChar` makes of bytes that are no UTF-8 is left open here;
it reads UTF-8.
-/

namespace WebcamStreamer

/-- `WideToUtf8`: a surrogate without its partner becomes the replacement
character. -/
def wideToUtf8 (w : WString) : ByteArray :=
  (String.ofList (Utf16.decode w)).toUTF8

/-- `Utf8ToWide`, where `reads` are the characters that bytes are read as. -/
def utf8ToWide (reads : ByteArray → List Char) (s : ByteArray) : WString :=
  Utf16.encode (reads s)

/-- UTF-8 is read as what it stands for. -/
def ReadsUtf8 (reads : ByteArray → List Char) : Prop :=
  ∀ text : String, reads text.toUTF8 = text.toList

/-- The characters of valid UTF-8, and one replacement character in the place of
anything else. -/
def readUtf8 (s : ByteArray) : List Char :=
  match String.fromUTF8? s with
  | some text => text.toList
  | none => [Utf16.replacement]

theorem readsUtf8_readUtf8 : ReadsUtf8 readUtf8 := by
  intro text
  have hread : String.fromUTF8? text.toUTF8 = some text := by
    rw [String.fromUTF8?,
      dif_pos (show text.toUTF8.IsValidUTF8 from text.isValidUTF8)]
    rfl
  rw [readUtf8, hread]

section Conversions

variable {reads : ByteArray → List Char} (h : ReadsUtf8 reads)
include h

theorem utf8ToWide_toUTF8 (text : String) :
    utf8ToWide reads text.toUTF8 = wide text := by
  rw [utf8ToWide, h]
  rfl

theorem utf8ToWide_wideToUtf8 (w : WString) :
    utf8ToWide reads (wideToUtf8 w) = Utf16.encode (Utf16.decode w) := by
  rw [utf8ToWide, wideToUtf8, h, String.toList_ofList]

/-- **A wide string comes back from UTF-8** exactly where every surrogate in it
has its partner. So does all that came from UTF-8, or from any other bytes, in
the first place. -/
theorem wide_roundTrip_iff (w : WString) :
    (utf8ToWide reads (wideToUtf8 w) = w ↔ Utf16.wellFormed w = true) ∧
      ∀ s, utf8ToWide reads (wideToUtf8 (utf8ToWide reads s))
        = utf8ToWide reads s := by
  refine ⟨?_, fun s => ?_⟩
  · rw [utf8ToWide_wideToUtf8 h]
    exact Utf16.encode_decode_iff
  · rw [utf8ToWide_wideToUtf8 h]
    exact Utf16.encode_decode_iff.mpr (Utf16.wellFormed_encode _)

end Conversions

/-- A high surrogate by itself. -/
theorem wide_roundTrip_iff_lone :
    utf8ToWide readUtf8 (wideToUtf8 [0xD83D]) ≠ [0xD83D] ∧
      ∀ s, utf8ToWide readUtf8 (wideToUtf8 (utf8ToWide readUtf8 s))
        = utf8ToWide readUtf8 s := by
  obtain ⟨hiff, htwice⟩ := wide_roundTrip_iff readsUtf8_readUtf8 [0xD83D]
  exact ⟨fun h => absurd (hiff.mp h) (by decide), htwice⟩

/-- Different texts are different wide strings. -/
theorem wide_injective : Function.Injective wide := by
  intro s t h
  exact String.toList_injective (Utf16.encode_injective h)

/-- What the handler of hook messages does to a path: `w.erase(0, 1)` behind its
check. -/
def dropWideSlash : WString → WString
  | u :: rest => if u = 0x2F then rest else u :: rest
  | [] => []

theorem dropWideSlash_wide (path : String) :
    dropWideSlash (wide path) = wide (dropSlash path) := by
  have hwide : ∀ cs : List Char, wide (String.ofList cs) = cs.flatMap utf16 :=
    fun cs => by
    rw [wide, String.toList_ofList]
  rw [wide, dropSlash]
  split
  next rest hpath =>
    rw [hpath, hwide, List.flatMap_cons]
    show dropWideSlash (0x2F :: rest.flatMap utf16) = _
    rw [dropWideSlash, if_pos rfl]
  next hslash =>
    rw [hwide]
    cases hcs : path.toList with
    | nil => rfl
    | cons c rest =>
      obtain ⟨u, us, hu⟩ := List.exists_cons_of_ne_nil (utf16_ne_nil c)
      rw [List.flatMap_cons, hu, List.cons_append]
      refine if_neg (fun h => ?_)
      -- only the units of a slash have a slash among them
      have hmem : UInt16.ofNat '/'.toNat ∈ utf16 c := by
        rw [hu]
        exact List.mem_cons.mpr (.inl h.symm)
      exact hslash rest (hcs.trans (by rw [eq_of_mem_utf16 (by decide) hmem]))

namespace Supervisor

/-- The slot that a request names, as the handlers look for it: `Utf8ToWide(nm)`
is compared with the friendly names. -/
def findByWideName (reads : ByteArray → List Char) (sup : Supervisor)
    (nm : ByteArray) : Option (ℕ × CamSlot) :=
  findSlot (fun s => wide s.cfg.friendlyName == utf8ToWide reads nm) sup.slots

/-- The slot that a hook message names, as its handler looks for it. -/
def findByWidePath (reads : ByteArray → List Char) (sup : Supervisor)
    (path : ByteArray) : Option (ℕ × CamSlot) :=
  findSlot (fun s =>
    dropWideSlash (wide s.cfg.rtspPath) == utf8ToWide reads path) sup.slots

end Supervisor

/-- **Comparing wide strings is comparing texts**: the handlers find the slot
that the rest of the development says they find. The source compares after a
conversion to UTF-16, and different texts stay different under it. -/
theorem found_by_wide_strings {reads : ByteArray → List Char}
    (h : ReadsUtf8 reads)
    (sup : Supervisor) (name path : String) :
    sup.findByWideName reads name.toUTF8 = sup.findByName name ∧
      sup.findByWidePath reads path.toUTF8 = sup.findByPath path := by
  have hbeq : ∀ s t : String, (wide s == wide t) = (s == t) := by
    intro s t
    rw [Bool.eq_iff_iff, beq_iff_eq, beq_iff_eq]
    exact wide_injective.eq_iff
  constructor
  · refine congrArg (findSlot · sup.slots) (funext fun s => ?_)
    rw [utf8ToWide_toUTF8 h]
    exact hbeq _ _
  · refine congrArg (findSlot · sup.slots) (funext fun s => ?_)
    rw [utf8ToWide_toUTF8 h, dropWideSlash_wide]
    exact hbeq _ _

/-- A name with a character beyond the first plane. -/
theorem found_by_wide_strings_oneCameraUp :
    oneCameraUp.findByWideName readUtf8 "Cam 📷".toUTF8
        = oneCameraUp.findByName "Cam 📷" ∧
      oneCameraUp.findByWidePath readUtf8 "webcam0".toUTF8
        = oneCameraUp.findByPath "webcam0" :=
  found_by_wide_strings readsUtf8_readUtf8 oneCameraUp "Cam 📷" "webcam0"

end WebcamStreamer
