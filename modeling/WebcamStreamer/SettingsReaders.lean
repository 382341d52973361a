import WebcamStreamer.CameraProbe
import WebcamStreamer.JsonReader
import WebcamStreamer.Settings
import WebcamStreamer.Utf16
import WebcamStreamer.Utf8

/-!
# Two readers of one settings file

The supervisor reads three members of `settings.json`, each on its own. The
host reads these three and one more into a schema, and one member of another
type than its property rejects the whole document, so that all properties have
their defaults. Both take a missing member and `null` for the default.

Before that, they do not find the same document in every file. The supervisor
reads a stream in text mode, which ends at a Control-Z, and its parser wants
UTF-8. The host looks for a byte-order mark, reads UTF-16 and UTF-32 as well,
and puts replacement characters where bytes are no text. In a file of UTF-8
without a Control-Z both find the same (`readByHost_of_strict`), and no file
holds two documents, one for each (`eq_of_read`).

The readers agree where no member is of another type, and where a document
that is rejected, or that only one of them finds, says nothing but the defaults
(`SameReading.iff_compatible`).
-/

namespace WebcamStreamer

/-! ## One member

The supervisor looks at the type of each member, and falls back to a default
for the members that have another one. The host converts, and one member that
cannot be converted is enough to reject the document. -/

section Member

variable {α : Type} {get : Json String → Option α} {j : Json String}
  {key : String}

/-- The member can be read into a property: it is absent, `null` or of the type
of the property. -/
def Json.Fits (get : Json String → Option α) (j : Json String) (key : String) :
    Prop :=
  ∀ v, j.find? key = some v → v = .null ∨ (get v).isSome = true

/-- A property is read exactly if its member fits. -/
theorem property_isSome_iff :
    (HostSettings.property get j key).isSome = true ↔ j.Fits get key := by
  unfold HostSettings.property Json.Fits
  cases j.find? key with
  | none => simp
  | some v => cases v <;> simp

/-- A property that is read has the value that the member has, or the default on
both sides. -/
theorem getD_of_property (hnull : get .null = none) {o : Option α}
    (h : HostSettings.property get j key = some o) (default : α) :
    o.getD default = ((j.find? key).bind get).getD default := by
  unfold HostSettings.property at h
  split at h
  next hfind =>
    rw [hfind, ← Option.some.inj h, Option.bind_none]
  next hfind =>
    rw [hfind, ← Option.some.inj h, Option.bind_some, hnull]
  next v hne hfind =>
    obtain ⟨a, ha, rfl⟩ := Option.map_eq_some_iff.mp h
    rw [hfind, Option.bind_some, ha]

end Member

/-! ## The document

On a document that fits the schema both readers have the same settings. On
another one the host has the defaults, so that they agree only if the members
that the supervisor knows say nothing but the defaults. -/

/-- The members of the schema, each of its own type. -/
structure FitsSchema (j : Json String) : Prop where
  notifications : j.Fits Json.boolean? "notifications_enabled"
  defaultEnabled : j.Fits Json.boolean? "default_enabled_for_new_cameras"
  user : j.Fits Json.string? "viewer_user"
  pass : j.Fits Json.string? "viewer_pass"

/-- The three members that both programs read say nothing but the defaults. -/
structure SaysDefaults (j : Json String) : Prop where
  defaultEnabled :
    j.find? "default_enabled_for_new_cameras" ≠ some (.boolean false)
  user : ∀ s, j.find? "viewer_user" = some (.string s) → s = ""
  pass : ∀ s, j.find? "viewer_pass" = some (.string s) → s = ""

/-- The supervisor's part of the host's settings. -/
def HostSettings.shared (h : HostSettings) : Settings :=
  ⟨h.defaultEnabledForNewCameras, h.viewerUser, h.viewerPassword⟩

/-- A document of the schema is read as the supervisor reads it. -/
theorem shared_of_fitsSchema {members : List (String × Json String)}
    (h : FitsSchema (.object members)) :
    ∃ host, HostSettings.ofJson? (.object members) = some host ∧
      host.shared = Settings.ofJson (.object members) := by
  obtain ⟨n, hn⟩ :=
    Option.isSome_iff_exists.mp (property_isSome_iff.mpr h.notifications)
  obtain ⟨d, hd⟩ :=
    Option.isSome_iff_exists.mp (property_isSome_iff.mpr h.defaultEnabled)
  obtain ⟨u, hu⟩ := Option.isSome_iff_exists.mp (property_isSome_iff.mpr h.user)
  obtain ⟨p, hp⟩ := Option.isSome_iff_exists.mp (property_isSome_iff.mpr h.pass)
  refine ⟨⟨n.getD true, d.getD true, u.getD "", p.getD ""⟩, ?_, ?_⟩
  · rw [HostSettings.ofJson?]
    simp only [hn, hd, hu, hp]
    rfl
  · simp only [HostSettings.shared, Settings.ofJson, getD_of_property rfl hd,
      getD_of_property rfl hu, getD_of_property rfl hp]

/-- A document that does not fit is rejected. -/
theorem ofJson?_eq_none_of_not_fits {members : List (String × Json String)}
    (h : ¬ FitsSchema (.object members)) :
    HostSettings.ofJson? (.object members) = none := by
  by_contra hsome
  obtain ⟨host, hhost⟩ := Option.ne_none_iff_exists'.mp hsome
  rw [HostSettings.ofJson?] at hhost
  simp only [Option.bind_eq_bind, Option.bind_eq_some_iff] at hhost
  obtain ⟨n, hn, d, hd, u, hu, p, hp, -⟩ := hhost
  exact h ⟨property_isSome_iff.mp (hn ▸ rfl), property_isSome_iff.mp (hd ▸ rfl),
    property_isSome_iff.mp (hu ▸ rfl), property_isSome_iff.mp (hp ▸ rfl)⟩

/-- The supervisor reads the defaults exactly where the members say them. -/
theorem ofJson_eq_default_iff {j : Json String} :
    Settings.ofJson j = {} ↔ SaysDefaults j := by
  have hbool : ((j.find? "default_enabled_for_new_cameras").bind
        Json.boolean?).getD true = true ↔
      j.find? "default_enabled_for_new_cameras" ≠ some (.boolean false) := by
    cases j.find? "default_enabled_for_new_cameras" with
    | none => simp
    | some v => cases v <;> simp [Json.boolean?]
  have hstring : ∀ key, ((j.find? key).bind Json.string?).getD "" = "" ↔
      ∀ s, j.find? key = some (.string s) → s = "" := by
    intro key
    cases j.find? key with
    | none => simp
    | some v => cases v <;> simp [Json.string?]
  rw [Settings.ofJson, Settings.mk.injEq, hbool, hstring, hstring]
  constructor
  · exact fun h => ⟨h.1, h.2.1, h.2.2⟩
  · exact fun h => ⟨h.defaultEnabled, h.user, h.pass⟩

/-! ## One document

The condition for documents is put together from the two cases. It is about
the document that both programs have found, whatever the file looked like. -/

/-- **Both readers have the same settings** of a file that both read as the
document it is. The parser is left out here: what is compared is what the two
make of the members of one document. -/
def SameSettings (file : JsonFile) : Prop :=
  Settings.ofFile file = (HostSettings.load true file).shared

/-- **The condition under which they have**: an object with a member that is
not of the type of its property says nothing but the defaults. -/
def Lenient : JsonFile → Prop
  | .doc (.object members) =>
    FitsSchema (.object members) ∨ SaysDefaults (.object members)
  | _ => True

theorem sameSettings_iff (file : JsonFile) :
    SameSettings file ↔ Lenient file := by
  cases file with
  | missing => exact iff_of_true rfl trivial
  | malformed => exact iff_of_true rfl trivial
  | doc j =>
    cases j with
    | object members =>
      by_cases hfits : FitsSchema (.object members)
      · obtain ⟨host, hhost, hshared⟩ := shared_of_fitsSchema hfits
        refine iff_of_true ?_ (.inl hfits)
        rw [SameSettings, HostSettings.load, hhost]
        exact hshared.symm
      · rw [SameSettings, HostSettings.load, ofJson?_eq_none_of_not_fits hfits]
        exact ofJson_eq_default_iff.trans ⟨.inr, fun h => h.resolve_left hfits⟩
    | _ => exact iff_of_true rfl trivial

/-- What the host reads in a document is the defaults where it rejects the
document, and where the document says no more. -/
theorem shared_eq_default_iff {j : Json String} :
    (HostSettings.load true (.doc j)).shared = {} ↔
      ∀ members, j = .object members → FitsSchema j → SaysDefaults j := by
  cases j with
  | object members =>
    by_cases hfits : FitsSchema (.object members)
    · have hsame := (sameSettings_iff (.doc (.object members))).mpr (.inl hfits)
      rw [← hsame]
      refine ofJson_eq_default_iff.trans ⟨fun h _ _ _ => h,
        fun h => h members rfl hfits⟩
    · rw [HostSettings.load, ofJson?_eq_none_of_not_fits hfits]
      exact iff_of_true rfl (fun _ _ h => absurd h hfits)
  | _ => exact iff_of_true rfl (fun _ h => nomatch h)

/-! ## The bytes of the file

The two programs do not find the same document in every file. The host looks
for byte-order marks, knows three encodings and replaces what it cannot read;
the supervisor reads in text mode, skips one kind of mark and takes nothing
but UTF-8. -/

/-- Text mode on the bytes of a file. -/
def byteMode : TextMode UInt8 where
  cr := 0x0D
  newline := 0x0A
  endOfFile := 0x1A
  cr_ne_newline := by decide
  endOfFile_ne_cr := by decide
  endOfFile_ne_newline := by decide

theorem matches_fileMode : Utf8.Matches byteMode fileMode where
  cr := rfl
  newline := rfl
  endOfFile := rfl
  ascii := by simp [fileMode]

/-- How the bytes of a file stand for a text. -/
inductive FileEncoding where
  | utf8
  | utf16 (big : Bool)
  | utf32 (big : Bool)

/-- The mark in front of UTF-8. -/
def utf8Mark : Bytes := [0xEF, 0xBB, 0xBF]

/-- The byte-order marks that `File.ReadAllText` looks for, in its order. -/
def byteOrderMarks : List (Bytes × FileEncoding) :=
  [(utf8Mark, .utf8), ([0xFF, 0xFE, 0x00, 0x00], .utf32 false),
    ([0xFF, 0xFE], .utf16 false), ([0xFE, 0xFF], .utf16 true),
    ([0x00, 0x00, 0xFE, 0xFF], .utf32 true)]

/-- The number of some bytes. -/
def numberOf (big : Bool) (bs : Bytes) : ℕ :=
  (if big then bs else bs.reverse).foldl (fun n b => 256 * n + b.toNat) 0

/-- The units of UTF-16. -/
def units16 (big : Bool) : Bytes → List UInt16
  | a :: b :: rest => UInt16.ofNat (numberOf big [a, b]) :: units16 big rest
  | _ => []

/-- The characters of UTF-32; bytes that are left over are none. -/
def text32 (big : Bool) : Bytes → Text
  | a :: b :: c :: d :: rest =>
    let n := numberOf big [a, b, c, d]
    (if n.isValidChar then Char.ofNat n else Utf8.replacement)
      :: text32 big rest
  | [] => []
  | _ => [Utf8.replacement]

/-- What is read in an encoding, with a replacement character for what is
none. -/
def FileEncoding.text : FileEncoding → Bytes → Text
  | utf8, bs => Utf8.lenient bs
  | utf16 big, bs =>
    Utf16.decode (units16 big bs) ++ (if bs.length % 2
      = 0 then [] else [Utf8.replacement])
  | utf32 big, bs => text32 big bs

/-- `File.ReadAllText`. -/
def readAllText (bs : Bytes) : Text :=
  match byteOrderMarks.find? (fun m => m.1 <+: bs) with
  | some (mark, encoding) => encoding.text (bs.drop mark.length)
  | none => Utf8.lenient bs

/-- `skip_bom` of the parser. -/
def skipBom (bs : Bytes) : Bytes :=
  if utf8Mark <+: bs then bs.drop utf8Mark.length else bs

/-- **A parser of JSON texts**, as far as the two libraries have to be
standard: a line end is a blank outside of strings and an error in them, and a
Control-Z is an error everywhere. -/
structure JsonParser where
  parse : Text → Option (Json String)
  lineEnds : ∀ t, parse (fileMode.newlines t) = parse t
  controlZ : ∀ t, fileMode.endOfFile ∈ t → parse t = none

namespace JsonParser

variable (p : JsonParser)

/-- The document that `LoadSettings` finds: a stream in text mode, and bytes
that the parser takes for UTF-8. -/
def readByLoadSettings (bs : Bytes) : Option (Json String) :=
  (Utf8.strict (skipBom (byteMode.read bs))).bind p.parse

/-- The document that `HostSettings.Load` finds. -/
def readByHost (bs : Bytes) : Option (Json String) := p.parse (readAllText bs)

/-- A file as it is read by a program. -/
def file (read : Bytes → Option (Json String)) : Option Bytes → JsonFile
  | none => .missing
  | some bs => (read bs).elim .malformed .doc

end JsonParser

/-- **Both readers agree** on the file. The bytes are the same on both sides,
and each side has its own way from the bytes to a document. -/
def SameReading (p : JsonParser) (bytes : Option Bytes) : Prop :=
  loadSettings {} (JsonParser.file p.readByLoadSettings bytes)
    = .ok (HostSettings.load true (JsonParser.file p.readByHost bytes)).shared

/-- **The condition under which they do.** A document that both find is one
that both take alike, and one that only one of them finds says nothing that
the other does not have by default. -/
structure Compatible (p : JsonParser) (bytes : Bytes) : Prop where
  both :
    ∀ j, p.readByLoadSettings bytes = some j → p.readByHost bytes = some j →
    Lenient (.doc j)
  loadSettingsOnly : ∀ j, p.readByLoadSettings bytes = some j →
    p.readByHost bytes = none → SaysDefaults j
  hostOnly : ∀ members, p.readByLoadSettings bytes = none →
    p.readByHost bytes = some (.object members) → FitsSchema (.object members) →
      SaysDefaults (.object members)

section Bytes

variable {p : JsonParser} {bs : Bytes}

theorem skipBom_newlines (bs : Bytes) :
    skipBom (byteMode.newlines bs) = byteMode.newlines (skipBom bs) := by
  have hcr : byteMode.cr ∉ utf8Mark := by decide
  by_cases h : utf8Mark <+: bs
  · obtain ⟨rest, rfl⟩ := h
    rw [TextMode.newlines_append hcr, skipBom, skipBom,
      if_pos (List.prefix_append _ _),
      if_pos (List.prefix_append _ _), List.drop_left, List.drop_left]
  · have hlines : ¬ utf8Mark <+: byteMode.newlines bs :=
      fun hpre => h (TextMode.prefix_of_newlines hcr (by decide) hpre)
    rw [skipBom, skipBom, if_neg h, if_neg hlines]

/-- Without a Control-Z, text mode makes no difference. -/
theorem readByLoadSettings_of_notMem (h : byteMode.endOfFile ∉ bs) :
    p.readByLoadSettings bs = (Utf8.strict (skipBom bs)).bind p.parse := by
  rw [JsonParser.readByLoadSettings, TextMode.read_of_notMem h,
    skipBom_newlines,
    Utf8.strict_newlines matches_fileMode, Option.bind_map]
  exact congrArg _ (funext p.lineEnds)

/-- The marks of the encodings that only the host reads. -/
abbrev wideMarks : List Bytes :=
  [[0xFF, 0xFE, 0x00, 0x00], [0xFF, 0xFE], [0xFE, 0xFF],
    [0x00, 0x00, 0xFE, 0xFF]]

theorem readAllText_cases (bs : Bytes) :
    readAllText bs = Utf8.lenient (skipBom bs) ∨ ∃ mark ∈ wideMarks,
      mark <+: bs := by
  rw [readAllText]
  split
  next mark encoding hfind =>
    have hfound := List.find?_some hfind
    have hpre : mark <+: bs := of_decide_eq_true hfound
    have hmem := List.mem_of_find?_eq_some hfind
    rw [byteOrderMarks] at hmem
    rcases List.mem_cons.mp hmem with heq | hmem
    · obtain ⟨rfl, rfl⟩ := Prod.mk.inj heq
      exact .inl (by rw [skipBom, if_pos hpre]; rfl)
    · exact .inr ⟨mark, List.mem_map_of_mem (f := Prod.fst) hmem, hpre⟩
  next hfind =>
    have hno : ¬ utf8Mark <+: bs := by
      simpa using List.find?_eq_none.mp hfind (utf8Mark,
        .utf8) List.mem_cons_self
    exact .inl (by rw [skipBom, if_neg hno])

/-- A mark of a wide encoding is no UTF-8, and text mode does not see it. -/
theorem strict_of_wide {mark : Bytes} (hmark : mark ∈ wideMarks)
    (rest : Bytes) :
    Utf8.strict (skipBom (mark ++ rest)) = none := by
  have hfirst : ¬ utf8Mark <+: mark ++ rest := by
    intro hpre
    simp only [wideMarks, List.mem_cons, List.not_mem_nil, or_false] at hmark
    rcases hmark with rfl | rfl | rfl | rfl <;>
      exact absurd hpre (by simp [utf8Mark])
  have hmem : (0xFE : UInt8) ∈ mark := by
    simp only [wideMarks, List.mem_cons, List.not_mem_nil, or_false] at hmark
    rcases hmark with rfl | rfl | rfl | rfl <;> decide
  rw [skipBom, if_neg hfirst]
  exact Utf8.strict_eq_none (by decide) (List.mem_append_left rest hmem)

theorem readByLoadSettings_of_wide {mark : Bytes} (hmark : mark ∈ wideMarks)
    (hpre : mark <+: bs) : p.readByLoadSettings bs = none := by
  obtain ⟨rest, rfl⟩ := hpre
  have hplain : byteMode.cr ∉ mark ∧ byteMode.endOfFile ∉ mark := by
    simp only [wideMarks, List.mem_cons, List.not_mem_nil, or_false] at hmark
    rcases hmark with rfl | rfl | rfl | rfl <;> decide
  rw [JsonParser.readByLoadSettings, TextMode.read_append hplain.1 hplain.2,
    strict_of_wide hmark]
  rfl

/-- Where there is a Control-Z, the host finds no document. -/
theorem readByHost_of_mem (h : byteMode.endOfFile ∈ bs)
    (htext : readAllText bs = Utf8.lenient (skipBom bs)) :
    p.readByHost bs = none := by
  have hmem : byteMode.endOfFile ∈ skipBom bs := by
    rw [skipBom]
    split
    next hpre =>
      obtain ⟨rest, rfl⟩ := hpre
      rw [List.drop_left]
      exact (List.mem_append.mp h).resolve_left (by decide)
    next => exact h
  rw [JsonParser.readByHost, htext]
  exact p.controlZ _ (Utf8.mem_lenient_of_ascii (by decide) hmem)

/-- **In UTF-8 without a Control-Z both find the same document.** The host
would replace bytes that are not UTF-8, and the supervisor would stop at the
character; without either they have the same text to parse. -/
theorem readByHost_of_strict {text : Text}
    (h : Utf8.strict (skipBom bs) = some text)
    (hend : byteMode.endOfFile ∉ bs) :
    p.readByHost bs = p.parse text ∧
      p.readByLoadSettings bs = p.parse text := by
  refine ⟨?_, by rw [readByLoadSettings_of_notMem hend, h]; rfl⟩
  rcases readAllText_cases bs with htext | ⟨mark, hmark, hpre⟩
  · rw [JsonParser.readByHost, htext, Utf8.lenient_of_strict h]
  · obtain ⟨rest, rfl⟩ := hpre
    rw [strict_of_wide hmark] at h
    cases h

/-- **No file holds two documents**, one for each reader. Where both find a
document, it is therefore the same, and they can differ only in finding
one. -/
theorem eq_of_read {j j' : Json String} (h : p.readByLoadSettings bs = some j)
    (hhost : p.readByHost bs = some j') : j = j' := by
  rcases readAllText_cases bs with htext | ⟨mark, hmark, hpre⟩
  · by_cases hend : byteMode.endOfFile ∈ bs
    · rw [readByHost_of_mem hend htext] at hhost
      cases hhost
    · rw [readByLoadSettings_of_notMem hend] at h
      obtain ⟨text, hstrict, hparse⟩ := Option.bind_eq_some_iff.mp h
      rw [(readByHost_of_strict hstrict hend).1, hparse] at hhost
      exact Option.some.inj hhost
  · rw [readByLoadSettings_of_wide hmark hpre] at h
    cases h

end Bytes

/-- **The readers agree exactly on the compatible files**, and where there is
no file. Without a file both take the defaults, which are the same in both
programs. -/
theorem SameReading.iff_compatible (p : JsonParser) (bytes : Option Bytes) :
    SameReading p bytes ↔ ∀ bs ∈ bytes, Compatible p bs := by
  cases bytes with
  | none => exact iff_of_true rfl (fun _ h => nomatch h)
  | some bs =>
    have hsame : SameReading p (some bs) ↔
        Settings.ofFile ((p.readByLoadSettings bs).elim .malformed .doc)
          = (HostSettings.load true
            ((p.readByHost bs).elim .malformed .doc)).shared :=
      Except.ok.injEq _ _ ▸ Iff.rfl
    have hall : (∀ b ∈ some bs, Compatible p b) ↔ Compatible p bs := by simp
    rw [hsame, hall]
    -- who reads a document and who does not gives four cases, one for each
    -- field of the condition and one in which both take the defaults
    cases hread : p.readByLoadSettings bs with
    | none =>
      cases hhost : p.readByHost bs with
      | none =>
        exact iff_of_true rfl
          ⟨by simp [hread], by simp [hread], by simp [hhost]⟩
      | some j =>
        refine eq_comm.trans (shared_eq_default_iff.trans ⟨fun h => ?_,
          fun h => ?_⟩)
        · refine ⟨by simp [hread], by simp [hread], fun members _ hj => ?_⟩
          rw [hhost] at hj
          obtain rfl := Option.some.inj hj
          exact h members rfl
        · rintro members rfl
          exact h.hostOnly members hread hhost
    | some j =>
      cases hhost : p.readByHost bs with
      | none =>
        refine ofJson_eq_default_iff.trans ⟨fun h => ?_,
          fun h => h.loadSettingsOnly j hread hhost⟩
        refine ⟨by simp [hhost], fun i hi _ => ?_, by simp [hread]⟩
        rw [hread] at hi
        exact Option.some.inj hi ▸ h
      | some j' =>
        -- both have read the same document, and only their defaults can differ
        obtain rfl := eq_of_read hread hhost
        refine (sameSettings_iff (.doc j)).trans ⟨fun h => ?_,
          fun h => h.both j hread hhost⟩
        refine ⟨fun i hi _ => ?_, by simp [hhost], by simp [hread]⟩
        rw [hread] at hi
        exact Option.some.inj hi ▸ h

/-! ## A parser

The results are about any two parsers that accept what the standard says. One
such parser is the reader of this development, and the file at the end of the
module is read with it by both programs. -/

/-- Carriage returns as one line feed with what is behind them: another blank
outside of strings, and an error in them as they are. -/
def unifyLineEnds : Text → Text
  | [] => []
  | c :: t =>
    if c = '\r' then
      if (unifyLineEnds t).head? = some '\n' then
        unifyLineEnds t
      else '\n' :: unifyLineEnds t
    else c :: unifyLineEnds t

theorem unifyLineEnds_newlines (t : Text) :
    unifyLineEnds (fileMode.newlines t) = unifyLineEnds t := by
  induction t with
  | nil => rfl
  | cons c t ih =>
    by_cases hend : c = fileMode.cr ∧ t.head? = some fileMode.newline
    · obtain ⟨rfl, hhead⟩ := hend
      obtain ⟨rest, rfl⟩ := List.head?_eq_some_iff.mp hhead
      rw [TextMode.newlines_cr_newline, ih]
      rfl
    · rw [TextMode.newlines_cons (fun hc hhead => hend ⟨hc, hhead⟩),
        unifyLineEnds, ih]
      rfl

/-- A parser that reads the texts of this development. -/
def JsonParser.reader : JsonParser where
  parse t :=
    if fileMode.endOfFile ∈ t then none
    else JsonReader.text (Utf8.encode (unifyLineEnds t))
  lineEnds t := by
    have hmem : fileMode.endOfFile ∈ fileMode.newlines t ↔
        fileMode.endOfFile ∈ t :=
      ⟨fun h => TextMode.newlines_subset t h,
        TextMode.mem_newlines fileMode.endOfFile_ne_cr⟩
    simp only [hmem, unifyLineEnds_newlines]
  controlZ t h := if_pos h

theorem unifyLineEnds_of_notMem {t : Text} (h : '\r' ∉ t) :
    unifyLineEnds t = t := by
  induction t with
  | nil => rfl
  | cons c t ih =>
    obtain ⟨hc, ht⟩ := List.ne_and_not_mem_of_not_mem_cons h
    rw [unifyLineEnds, if_neg (Ne.symm hc), ih ht]

theorem JsonParser.parse_reader {t : Text} (hcr : '\r' ∉ t)
    (hend : fileMode.endOfFile ∉ t) :
    JsonParser.reader.parse t = JsonReader.text (Utf8.encode t) := by
  show (if fileMode.endOfFile ∈ t then none else _) = _
  rw [if_neg hend, unifyLineEnds_of_notMem hcr]

/-- Members in the order of their names are read as they stand. -/
theorem JsonReader.text_object {cs : Bytes} {ms : List (String × Json String)}
    (hopen : symbol 0x7D cs = none)
    (hms : members (cs.length + 1) cs = some (ms, []))
    (hsorted : ms.Pairwise (fun a b => a.1 ≤ b.1)) :
    text (0x7B :: cs) = some (.object ms) := by
  have hspace : skipSpace (0x7B :: cs) = 0x7B :: cs := rfl
  have hsort : sortMembers ms = ms :=
    List.mergeSort_of_pairwise (hsorted.imp (fun h => decide_eq_true h))
  have hvalue : value (cs.length + 1 + 1) (0x7B :: cs)
      = some (.object ms, []) := by
    rw [value, hspace]
    dsimp only
    rw [if_neg (by decide), if_pos rfl, hopen]
    dsimp only
    rw [hms, Option.map_some, hsort]
  rw [text, List.length_cons, hvalue]
  rfl

/-- The text of an object, behind its opening brace. -/
def membersText (members : String) : Text := members.toList ++ ['}']

/-- A member that only the host reads is of another type. -/
def notificationsText : Text :=
  membersText ("\"default_enabled_for_new_cameras\": false, " ++
    "\"notifications_enabled\": \"yes\", " ++
    "\"viewer_pass\": \"secret\", \"viewer_user\": \"alice\"")

/-- The file of that object. -/
def notificationsFile : Bytes := Utf8.encode ('{' :: notificationsText)

/-- The supervisor reads the three members it knows, the host rejects the
document. -/
theorem parse_notificationsText :
    ∃ j, JsonParser.reader.parse ('{' :: notificationsText) = some j ∧
      Settings.ofJson j = ⟨false, "alice", "secret"⟩ ∧
      HostSettings.ofJson? j = none := by
  have hread : (JsonReader.members
      ((Utf8.encode notificationsText).length + 1)
      (Utf8.encode notificationsText)).map
        (fun r => (decide (r.1.Pairwise (fun a b => a.1 ≤ b.1)), r.2,
          Settings.ofJson (.object r.1), HostSettings.ofJson? (.object r.1)))
        = some (true, [], ⟨false, "alice", "secret"⟩, none) := by
    decide +kernel
  obtain ⟨⟨ms, rest⟩, hms, hviews⟩ := Option.map_eq_some_iff.mp hread
  obtain ⟨hsorted, hviews⟩ := Prod.mk.inj hviews
  obtain ⟨rfl, hviews⟩ := Prod.mk.inj hviews
  obtain ⟨hours, hhost⟩ := Prod.mk.inj hviews
  have hcr : '\r' ∉ '{' :: notificationsText := by decide +kernel
  have hend : fileMode.endOfFile ∉ '{' :: notificationsText := by decide +kernel
  have hbytes : ∀ t : Text, Utf8.encode ('{' :: t) = 0x7B :: Utf8.encode t :=
    fun _ => rfl
  refine ⟨_, ?_, hours, hhost⟩
  rw [JsonParser.parse_reader hcr hend, hbytes]
  exact JsonReader.text_object (by decide +kernel) hms
    (of_decide_eq_true hsorted)

/-- The host has the default policy and no credentials, the supervisor the ones
that stand there. -/
theorem sameReading_notificationsText_false :
    ¬ SameReading JsonParser.reader (some notificationsFile) := by
  obtain ⟨j, hj, hours, hhost⟩ := parse_notificationsText
  have hend : byteMode.endOfFile ∉ notificationsFile := by decide +kernel
  have hmark : skipBom notificationsFile = notificationsFile := by
    decide +kernel
  have hstrict : Utf8.strict (skipBom notificationsFile)
      = some ('{' :: notificationsText) := by
    rw [hmark]
    exact Utf8.strict_encode _
  obtain ⟨hread, hload⟩ := @readByHost_of_strict .reader _ _ hstrict hend
  intro h
  replace h := Except.ok.inj h
  simp only [JsonParser.file, hload, hread, hj, Option.elim_some,
    Settings.ofFile, hours,
    HostSettings.load, hhost] at h
  exact absurd (congrArg Settings.defaultEnabledForNewCameras h) (by decide)

end WebcamStreamer
