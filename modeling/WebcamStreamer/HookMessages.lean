import WebcamStreamer.JsonReader
import WebcamStreamer.SupervisionLoop

/-!
# The messages of the hook

MediaMTX runs `mtx_event_hook` when a viewer connects and when one leaves. What
it knows about the viewer comes in environment variables, and leaves on the
events pipe as one line of JSON, which the hook writes by hand: it puts a
backslash before quotes and backslashes and nothing else.

The variables hold what a remote viewer chose, so the question is whether a
value can be read as something else than what it is. Of printable ASCII none can
(`receive_hookOutput`).
-/

namespace WebcamStreamer

/-! ## The hook

The hook is a small program that reads a few environment variables and writes
one line. The address of the reader comes from variables of its own, or else
from an id in which address and port are joined by the last colon, with
brackets around an address of IPv6. -/

/-- The environment of the hook. -/
abbrev HookEnv := String → Option Bytes

/-- `GetEnv`: the value, where it fits with its terminator into 1024 bytes. -/
def getEnv (env : HookEnv) (name : String) : Bytes :=
  match env name with
  | none => []
  | some v => if v.length = 0 ∨ v.length ≥ 1024 then [] else v

/-- `JsonEsc`. -/
def jsonEsc (s : Bytes) : Bytes :=
  s.flatMap (fun c =>
    if c = JsonReader.quote ∨ c = JsonReader.backslash then
      [JsonReader.backslash, c]
    else [c])

/-- `':'` -/
def colon : UInt8 := 0x3A

/-- `find_last_of(':')`: what stands before and behind the last colon. -/
def splitAtLastColon : Bytes → Option (Bytes × Bytes)
  | [] => none
  | c :: cs =>
    match splitAtLastColon cs with
    | some (before, behind) => some (c :: before, behind)
    | none => if c = colon then some ([], cs) else none

/-- An address without the brackets of an IPv6 literal. -/
def unbracket (ip : Bytes) : Bytes :=
  if ip.length ≥ 2 ∧ ip.head? = some 0x5B ∧ ip.getLast? = some 0x5D then
    ip.tail.dropLast
  else ip

/-- The address and the port of the reader: the variables of these names, unless
the address is not set and has to be taken from the reader's id. -/
def readerAddress (id ip port : Bytes) : Bytes × Bytes :=
  if ip = [] ∧ id ≠ [] then
    match splitAtLastColon id with
    | some (host, port) => (unbracket host, port)
    | none => (id, port)
  else (ip, port)

/-- The line that `main` writes; the argument is the event, `read` if there is
none. -/
def hookOutput (arg : Option Bytes) (env : HookEnv) : Bytes :=
  let event := arg.getD (ascii "read")
  let path := getEnv env "MTX_PATH"
  let readerType := getEnv env "MTX_READER_TYPE"
  let readerId := getEnv env "MTX_READER_ID"
  let (readerIp, readerPort) :=
    readerAddress readerId (getEnv env "MTX_READER_IP")
      (getEnv env "MTX_READER_PORT")
  let readerUser := getEnv env "MTX_READER_USER"
  let query := getEnv env "MTX_QUERY"
  [JsonReader.openBrace]
    ++ ascii "\"event\":\"" ++ jsonEsc event ++ ascii "\","
    ++ ascii "\"path\":\"" ++ jsonEsc path ++ ascii "\","
    ++ ascii "\"reader_id\":\"" ++ jsonEsc readerId ++ ascii "\","
    ++ ascii "\"reader_ip\":\"" ++ jsonEsc readerIp ++ ascii "\","
    ++ ascii "\"reader_port\":\"" ++ jsonEsc readerPort ++ ascii "\","
    ++ ascii "\"reader_user\":\"" ++ jsonEsc readerUser ++ ascii "\","
    ++ ascii "\"reader_type\":\"" ++ jsonEsc readerType ++ ascii "\","
    ++ ascii "\"query\":\"" ++ jsonEsc query ++ ascii "\""
    ++ [JsonReader.closeBrace] ++ ascii "\n"

/-! ## The server

The server reads whatever the pipe delivers, byte by byte, up to a newline,
and drops carriage returns. What it has when the connection ends counts as a
line as well, and an empty line is not handed on. -/

/-- What one `ReadFile` delivers into the buffer of 256 bytes. -/
abbrev EventsRead := ChunkedLines.Chunk UInt8 256

/-- The loop over the bytes of one read, with the line so far: the line, and
whether it has ended. -/
def scanEvent : Bytes → Bytes → Bytes × Bool
  | [], line => (line, false)
  | c :: cs, line =>
    if c = newline then (line, true)
    else if c = carriageReturn then scanEvent cs line
    else if (line ++ [c]).length > 64 * 1024 then (line ++ [c], true)
    else scanEvent cs (line ++ [c])

/-- The line of one connection, from the line so far. It ends with the
connection, too. -/
def eventLine (line : Bytes) : List EventsRead → Bytes
  | [] => line
  | read :: reads =>
    match scanEvent read.elements line with
    | (line, true) => line
    | (line, false) => eventLine line reads

/-- What the handler of `EventsPipeServer` is called with, if it is called. -/
def receive (parse : Parser) (reads : List EventsRead) : Option (Json String) :=
  let line := eventLine [] reads
  if line = [] then none
  else
    match parse ⟨line.toArray⟩ with
    | .ok msg => some msg
    | .error _ => none

/-! ## ASCII

All that is proved about the texts is proved for printable ASCII, where bytes,
UTF-8 and characters are the same thing. A user name may well be something
else; then the hook still writes a line, about which nothing is said here. -/

/-- A printable character of ASCII. -/
def IsPrintable (c : UInt8) : Prop := 0x20 ≤ c ∧ c ≤ 0x7E

instance (c : UInt8) : Decidable (IsPrintable c) :=
  inferInstanceAs (Decidable (_ ∧ _))

/-- A text of printable ASCII. -/
def PrintableBytes (s : Bytes) : Prop := ∀ c ∈ s, IsPrintable c

instance (s : Bytes) : Decidable (PrintableBytes s) := List.decidableBAll _ s

/-- The text that ASCII bytes are. -/
def asciiText (s : Bytes) : String :=
  String.ofList (s.map (fun c => Char.ofNat c.toNat))

theorem utf8EncodeChar_ofNat {n : ℕ} (h : n < 128) :
    String.utf8EncodeChar (Char.ofNat n) = [UInt8.ofNat n] := by
  have hall : ∀ n < 128,
      String.utf8EncodeChar (Char.ofNat n) = [UInt8.ofNat n] := by
    decide +kernel
  exact hall n h

/-- ASCII bytes are the UTF-8 of their text. -/
theorem toByteArray_asciiText {s : Bytes} (h : PrintableBytes s) :
    (asciiText s).toByteArray = ⟨s.toArray⟩ := by
  have hbytes : (s.map (fun c => Char.ofNat c.toNat)).flatMap
      String.utf8EncodeChar = s := by
    induction s with
    | nil => rfl
    | cons c s ih =>
      obtain ⟨hc, hs⟩ := List.forall_mem_cons.mp h
      have hlt : c.toNat < 128 :=
        Nat.lt_of_le_of_lt (UInt8.le_iff_toNat_le.mp hc.2) (by decide)
      rw [List.map_cons, List.flatMap_cons, ih hs, utf8EncodeChar_ofNat hlt,
        UInt8.ofNat_toNat,
        List.singleton_append]
  rw [asciiText, String.toByteArray_ofList, List.utf8Encode, hbytes]
  exact ByteArray.ext List.data_toByteArray

theorem fromUTF8?_ascii {s : Bytes} (h : PrintableBytes s) :
    String.fromUTF8? ⟨s.toArray⟩ = some (asciiText s) := by
  have hvalid : (⟨s.toArray⟩ : ByteArray).IsValidUTF8 :=
    toByteArray_asciiText h ▸ (asciiText s).isValidUTF8
  rw [String.fromUTF8?, dif_pos hvalid]
  refine congrArg some (String.toByteArray_inj.mp ?_)
  exact (toByteArray_asciiText h).symm

/-! ## Reading back

The escaping of the hook is its own and covers two characters, the quote and
the backslash. It is read back by the reader for JSON of the standard, string
by string: no backslash is left that could go with a character of the name. -/

namespace JsonReader

theorem symbol_cons {c : UInt8} (h : isSpace c = false) (t : Bytes) :
    symbol c (c :: t) = some t := by
  simp [symbol, skipSpace, h]

theorem symbol_cons_of_ne {c d : UInt8} (h : isSpace d = false) (hne : d ≠ c)
    (t : Bytes) :
    symbol c (d :: t) = none := by
  simp [symbol, skipSpace, h, hne]

/-- **What the hook escapes is read back**: every backslash it writes belongs to
the character behind it, and the first quote without one ends the string. -/
theorem stringBytes_jsonEsc {s : Bytes} (h : PrintableBytes s) (rest : Bytes) :
    stringBytes (jsonEsc s ++ quote :: rest) = some (s, rest) := by
  induction s with
  | nil => exact stringBytes_quote rest
  | cons c s ih =>
    obtain ⟨hc, hs⟩ := List.forall_mem_cons.mp h
    by_cases hesc : c = quote ∨ c = backslash
    · have hline : jsonEsc (c :: s) ++ quote :: rest
          = backslash :: c :: (jsonEsc s ++ quote :: rest) := by
        simp [jsonEsc, hesc]
      have hun : unescape c = some c := by
        rcases hesc with rfl | rfl <;> decide
      rw [hline, stringBytes_escape, hun, Option.bind_some, ih hs,
        Option.map_some]
    · have hline : jsonEsc (c :: s) ++ quote :: rest
          = c :: (jsonEsc s ++ quote :: rest) := by
        simp [jsonEsc, hesc]
      obtain ⟨hquote, hback⟩ := not_or.mp hesc
      rw [hline, stringBytes_plain hquote hback (UInt8.not_lt.mpr hc.1), ih hs,
        Option.map_some]

theorem string_jsonEsc {s : Bytes} (h : PrintableBytes s) (rest : Bytes) :
    string (jsonEsc s ++ quote :: rest) = some (asciiText s, rest) := by
  simp [string, stringBytes_jsonEsc h, fromUTF8?_ascii h]

theorem value_jsonEsc {s : Bytes} (h : PrintableBytes s) (fuel : ℕ)
    (rest : Bytes) :
    value (fuel + 1) (quote :: (jsonEsc s ++ quote :: rest))
      = some (.string (asciiText s), rest) := by
  have hspace : skipSpace (quote :: (jsonEsc s ++ quote :: rest))
      = quote :: (jsonEsc s ++ quote :: rest) := rfl
  rw [value, hspace]
  simp [string_jsonEsc h]

end JsonReader

/-! ## The fields of a line

The line is an object with eight fields, all of them strings, in an order that
does not change. It is read back member by member, where the names are known
not to need escaping and not to repeat. -/

/-- A member as the hook writes it. -/
def renderField (f : String × Bytes) : Bytes :=
  JsonReader.quote :: (ascii f.1
    ++ JsonReader.quote :: colon :: JsonReader.quote
    :: (jsonEsc f.2 ++ [JsonReader.quote]))

/-- Members with commas between them. -/
def renderFields : List (String × Bytes) → Bytes
  | [] => []
  | [f] => renderField f
  | f :: fields => renderField f ++ 0x2C :: renderFields fields

/-- The fields that a line is made of. -/
def lineFields (arg : Option Bytes) (env : HookEnv) : List (String × Bytes) :=
  let address :=
    readerAddress (getEnv env "MTX_READER_ID") (getEnv env "MTX_READER_IP")
    (getEnv env "MTX_READER_PORT")
  [("event", arg.getD (ascii "read")), ("path", getEnv env "MTX_PATH"),
    ("reader_id", getEnv env "MTX_READER_ID"), ("reader_ip", address.1),
    ("reader_port", address.2), ("reader_user", getEnv env "MTX_READER_USER"),
    ("reader_type", getEnv env "MTX_READER_TYPE"),
    ("query", getEnv env "MTX_QUERY")]

/-- **The line is an object** of these fields. The text is built with a
sequence of calls, brace, fields and newline, and the statement puts them
together. -/
theorem hookOutput_eq (arg : Option Bytes) (env : HookEnv) :
    hookOutput arg env
      = 0x7B :: (renderFields (lineFields arg env) ++ [0x7D, newline]) := by
  have hname : ∀ name : String, ascii ("\"" ++ name ++ "\":\"")
      = JsonReader.quote :: (ascii name ++ [JsonReader.quote, colon,
        JsonReader.quote]) := by
    intro name
    simp [ascii, JsonReader.quote, colon]
  have hopen : [JsonReader.openBrace] = [0x7B] := rfl
  have hclose : [JsonReader.closeBrace] = [0x7D] := rfl
  have hstop : ascii "\n" = [newline] := rfl
  have hend : ascii "\"" = [JsonReader.quote] := rfl
  have hnext : ascii "\"," = [JsonReader.quote, 0x2C] := rfl
  unfold hookOutput lineFields
  rw [hopen, hclose, hstop, hend, hnext,
    show ascii "\"event\":\"" = _ from hname "event",
    show ascii "\"path\":\"" = _ from hname "path",
    show ascii "\"reader_id\":\"" = _ from hname "reader_id",
    show ascii "\"reader_ip\":\"" = _ from hname "reader_ip",
    show ascii "\"reader_port\":\"" = _ from hname "reader_port",
    show ascii "\"reader_user\":\"" = _ from hname "reader_user",
    show ascii "\"reader_type\":\"" = _ from hname "reader_type",
    show ascii "\"query\":\"" = _ from hname "query"]
  simp [renderFields, renderField]

/-- A name that is written as it is. -/
structure IsPlainName (name : String) : Prop where
  printable : PrintableBytes (ascii name)
  unescaped : jsonEsc (ascii name) = ascii name
  read : asciiText (ascii name) = name

/-- The member that a field is read as. -/
def toMember (f : String × Bytes) : String × Json String :=
  (f.1, .string (asciiText f.2))

namespace JsonReader

/-- Up to its value, a field is read as it was written. -/
theorem members_renderField {f : String × Bytes} (hname : IsPlainName f.1)
    (hvalue : PrintableBytes f.2) (fuel : ℕ) (t : Bytes) :
    members (fuel + 2) (renderField f ++ t) =
      match symbol 0x2C t with
      | none => (symbol 0x7D t).map (fun rest => ([toMember f], rest))
      | some t => (members (fuel + 1) t).bind (fun p =>
          if f.1 ∈ p.1.map Prod.fst then
            none
          else some (toMember f :: p.1, p.2)) := by
  have hline : renderField f ++ t = quote :: (jsonEsc (ascii f.1)
      ++ quote :: (colon :: (quote :: (jsonEsc f.2 ++ quote :: t)))) := by
    rw [renderField, hname.unescaped]
    simp
  have hcolon : symbol 0x3A (colon :: (quote :: (jsonEsc f.2 ++ quote :: t)))
      = some (quote :: (jsonEsc f.2 ++ quote :: t)) := symbol_cons rfl _
  rw [hline, members, symbol_cons rfl]
  simp only [Option.bind_eq_bind, Option.bind_some,
    string_jsonEsc hname.printable, hcolon,
    value_jsonEsc hvalue, hname.read]
  cases symbol 0x2C t with
  | none => rfl
  | some t => rfl

/-- **Members are read back** one by one, where no name stands twice. The fuel
is one for each field and one for the end, and what is behind the closing
brace is left over. -/
theorem members_renderFields {fields : List (String × Bytes)}
    (hne : fields ≠ [])
    (hnames : ∀ f ∈ fields, IsPlainName f.1)
    (hvalues : ∀ f ∈ fields, PrintableBytes f.2)
    (hdistinct : (fields.map Prod.fst).Nodup) (fuel : ℕ) (rest : Bytes) :
    members (fields.length + 1 + fuel) (renderFields fields ++ 0x7D :: rest)
      = some (fields.map toMember, rest) := by
  induction fields with
  | nil => exact absurd rfl hne
  | cons f fields ih =>
    obtain ⟨hname, hnames⟩ := List.forall_mem_cons.mp hnames
    obtain ⟨hvalue, hvalues⟩ := List.forall_mem_cons.mp hvalues
    obtain ⟨hnew, hdistinct⟩ := List.nodup_cons.mp hdistinct
    have hfuel : (f :: fields).length + 1 + fuel
        = fields.length + fuel + 2 := by
      rw [List.length_cons]
      omega
    rw [hfuel]
    cases fields with
    | nil =>
      rw [renderFields, members_renderField hname hvalue,
        symbol_cons_of_ne rfl (by decide),
        symbol_cons rfl]
      rfl
    | cons g fields =>
      -- a member is kept only if its name is not among those of the others
      have hkeys : ((g :: fields).map toMember).map Prod.fst
          = (g :: fields).map Prod.fst := by
        rw [List.map_map]
        rfl
      have hrest := ih (List.cons_ne_nil g fields) hnames hvalues hdistinct
      rw [renderFields, List.append_assoc, List.cons_append,
        members_renderField hname hvalue,
        symbol_cons rfl]
      · dsimp only
        rw [show (g :: fields).length + fuel + 1
          = (g :: fields).length + 1 + fuel by omega,
          hrest, Option.bind_some]
        dsimp only
        rw [hkeys, if_neg hnew]
        rfl
      · exact fun h => absurd h (List.cons_ne_nil g fields)

theorem exists_renderFields {fields : List (String × Bytes)}
    (hne : fields ≠ []) :
    ∃ t, renderFields fields = quote :: t := by
  match fields, hne with
  | [f], _ => exact ⟨_, rfl⟩
  | f :: g :: fields, _ => exact ⟨_, rfl⟩

theorem length_le_renderFields (fields : List (String × Bytes)) :
    fields.length ≤ (renderFields fields).length := by
  have hfield : ∀ f, 1 ≤ (renderField f).length :=
    fun f => Nat.succ_le_succ (Nat.zero_le _)
  induction fields with
  | nil => exact Nat.le_refl 0
  | cons f fields ih =>
    have hf := hfield f
    cases fields with
    | nil => exact hf
    | cons g fields =>
      rw [renderFields, List.length_append]
      · simp only [List.length_cons] at ih ⊢
        omega
      · exact fun h => absurd h (List.cons_ne_nil g fields)

/-- **The object is read back.** The members come out in the order of their
names, since an object of the library keeps them in a sorted map. -/
theorem text_renderFields {fields : List (String × Bytes)} (hne : fields ≠ [])
    (hnames : ∀ f ∈ fields, IsPlainName f.1)
    (hvalues : ∀ f ∈ fields, PrintableBytes f.2)
    (hdistinct : (fields.map Prod.fst).Nodup) :
    text (0x7B :: (renderFields fields ++ [0x7D]))
      = some (.object (sortMembers (fields.map toMember))) := by
  obtain ⟨t, ht⟩ := exists_renderFields hne
  have hlength := length_le_renderFields fields
  obtain ⟨fuel, hfuel⟩ : ∃ fuel,
      (0x7B :: (renderFields fields ++ [0x7D])).length + 1
      = fields.length + 1 + fuel + 1 :=
    ⟨(renderFields fields).length - fields.length + 1, by
      rw [List.length_cons, List.length_append, List.length_singleton]
      omega⟩
  have hspace : skipSpace (0x7B :: (renderFields fields ++ [0x7D]))
      = 0x7B :: (renderFields fields ++ [0x7D]) := rfl
  have hopen : symbol 0x7D (renderFields fields ++ [0x7D]) = none := by
    rw [ht, List.cons_append]
    exact symbol_cons_of_ne rfl (by decide) _
  have hvalue : value (fields.length + 1 + fuel + 1)
      (0x7B :: (renderFields fields ++ [0x7D]))
      = some (.object (sortMembers (fields.map toMember)), []) := by
    rw [value, hspace]
    dsimp only
    rw [if_neg (by decide), if_pos rfl, hopen]
    dsimp only
    rw [members_renderFields hne hnames hvalues hdistinct]
    rfl
  rw [text, hfuel, hvalue]
  rfl

end JsonReader

/-! ## The line on the pipe

Two things could keep a line from arriving whole: a line end within it, and
the limit of the server on its length. A printable line has no line end before
its own, and the sum over its fields stays below the limit. -/

theorem scanEvent_append (s t line : Bytes) :
    scanEvent (s ++ t) line = match scanEvent s line with
      | (line, true) => (line, true)
      | (line, false) => scanEvent t line := by
  induction s generalizing line with
  | nil => rfl
  | cons c s ih =>
    rw [List.cons_append, scanEvent, scanEvent]
    split
    · rfl
    · split
      · exact ih line
      · split
        · rfl
        · exact ih _

/-- The line of a connection does not depend on the chunks. -/
theorem eventLine_eq (line : Bytes) (reads : List EventsRead) :
    eventLine line reads = (scanEvent (ChunkedLines.stream reads) line).1 := by
  induction reads generalizing line with
  | nil => rfl
  | cons read reads ih =>
    rw [ChunkedLines.stream_cons, scanEvent_append, eventLine]
    rcases scanEvent read.elements line with ⟨line', ended | ended⟩
    · exact ih line'
    · rfl

theorem IsPrintable.ne_newline {c : UInt8} (h : IsPrintable c) :
    c ≠ newline := by
  rintro rfl
  exact absurd h.1 (by decide)

theorem IsPrintable.ne_carriageReturn {c : UInt8} (h : IsPrintable c) :
    c ≠ carriageReturn := by
  rintro rfl
  exact absurd h.1 (by decide)

/-- A printable line that is short enough is accepted whole. -/
theorem scanEvent_line {s : Bytes} (h : PrintableBytes s) (line : Bytes)
    (hlen : line.length + s.length ≤ 64 * 1024) :
    scanEvent (s ++ [newline]) line = (line ++ s, true) := by
  induction s generalizing line with
  | nil => rw [List.nil_append, scanEvent, if_pos rfl, List.append_nil]
  | cons c s ih =>
    obtain ⟨hc, hs⟩ := List.forall_mem_cons.mp h
    rw [List.length_cons] at hlen
    have hshort : ¬ (line ++ [c]).length > 64 * 1024 := by
      rw [List.length_append, List.length_singleton]
      omega
    rw [List.cons_append, scanEvent, if_neg hc.ne_newline,
      if_neg hc.ne_carriageReturn,
      if_neg hshort, ih hs, List.append_assoc, List.singleton_append]
    rw [List.length_append, List.length_singleton]
    omega

theorem PrintableBytes.append {s t : Bytes} (hs : PrintableBytes s)
    (ht : PrintableBytes t) :
    PrintableBytes (s ++ t) := by
  intro c hc
  exact (List.mem_append.mp hc).elim (hs c) (ht c)

theorem printable_jsonEsc {s : Bytes} (h : PrintableBytes s) :
    PrintableBytes (jsonEsc s) := by
  intro c hc
  obtain ⟨d, hd, hc⟩ := List.mem_flatMap.mp hc
  split at hc
  · rcases List.mem_cons.mp hc with rfl | hc
    · decide
    · exact List.mem_singleton.mp hc ▸ h d hd
  · exact List.mem_singleton.mp hc ▸ h d hd

theorem length_jsonEsc_le (s : Bytes) : (jsonEsc s).length ≤ 2 * s.length := by
  induction s with
  | nil => exact Nat.le_refl 0
  | cons c s ih =>
    rw [jsonEsc, List.flatMap_cons, ← jsonEsc, List.length_append,
      List.length_cons]
    split
    · rw [List.length_cons, List.length_singleton]
      omega
    · rw [List.length_singleton]
      omega

theorem printable_renderField {f : String × Bytes} (hname : IsPlainName f.1)
    (hvalue : PrintableBytes f.2) : PrintableBytes (renderField f) := by
  have hquote : PrintableBytes [JsonReader.quote] := by decide
  have hcolon : PrintableBytes [JsonReader.quote, colon, JsonReader.quote] := by
    decide
  have hline : renderField f = [JsonReader.quote] ++ (ascii f.1
      ++ ([JsonReader.quote, colon, JsonReader.quote]
        ++ (jsonEsc f.2 ++ [JsonReader.quote]))) := rfl
  rw [hline]
  exact hquote.append (hname.printable.append (hcolon.append
    ((printable_jsonEsc hvalue).append hquote)))

theorem printable_renderFields {fields : List (String × Bytes)}
    (hnames : ∀ f ∈ fields, IsPlainName f.1)
    (hvalues : ∀ f ∈ fields, PrintableBytes f.2) :
    PrintableBytes (renderFields fields) := by
  induction fields with
  | nil => exact fun c hc => absurd hc List.not_mem_nil
  | cons f fields ih =>
    obtain ⟨hname, hnames⟩ := List.forall_mem_cons.mp hnames
    obtain ⟨hvalue, hvalues⟩ := List.forall_mem_cons.mp hvalues
    cases fields with
    | nil => exact printable_renderField hname hvalue
    | cons g fields =>
      have hcomma : PrintableBytes [0x2C] := by decide
      exact (printable_renderField hname hvalue).append
        (hcomma.append (ih hnames hvalues))

/-- No field takes more than its name, twice its value, and the punctuation. -/
theorem length_renderFields_le {fields : List (String × Bytes)}
    (hnames : ∀ f ∈ fields, (ascii f.1).length ≤ 11)
    (hvalues : ∀ f ∈ fields, f.2.length ≤ 1023) :
    (renderFields fields).length ≤ 2063 * fields.length := by
  have hfield : ∀ f : String × Bytes, (ascii f.1).length ≤ 11 →
      f.2.length ≤ 1023 →
      (renderField f).length ≤ 2062 := by
    intro f hname hvalue
    have hesc := length_jsonEsc_le f.2
    simp only [renderField, List.length_cons, List.length_append,
      List.length_nil]
    omega
  induction fields with
  | nil => exact Nat.le_refl 0
  | cons f fields ih =>
    obtain ⟨hname, hnames⟩ := List.forall_mem_cons.mp hnames
    obtain ⟨hvalue, hvalues⟩ := List.forall_mem_cons.mp hvalues
    have hf := hfield f hname hvalue
    have hrest := ih hnames hvalues
    cases fields with
    | nil =>
      rw [renderFields, List.length_singleton]
      omega
    | cons g fields =>
      rw [renderFields, List.length_append]
      · simp only [List.length_cons] at hrest ⊢
        omega
      · exact fun h => absurd h (List.cons_ne_nil g fields)

/-! ## What arrives

The address that is meant is described without the code that finds it: what
the variables say, or else what stands in front of the last colon of an id,
where an address of IPv6 has brackets. What arrives is then the message with
these fields, whatever the chunks, and for every parser that conforms. -/

/-- An address as it stands in an id if it is one of IPv6. -/
def bracketed (ip : Bytes) : Bytes := 0x5B :: (ip ++ [0x5D])

/-- **The reader's address**, as it is meant: what the variables say, or else
what the reader's id says, which ends in a colon and the port, and may have
brackets around an IPv6 address. -/
inductive ReaderOf (id ip port : Bytes) : Bytes → Bytes → Prop where
  | given (h : ip ≠ [] ∨ id = []) : ReaderOf id ip port ip port
  | derived {host port' : Bytes} (hip : ip = [])
      (hid : id = host ++ colon :: port')
      (hlast : colon ∉ port') (hplain : ∀ ip', host ≠ bracketed ip') :
      ReaderOf id ip port host port'
  | derivedBracketed {ip' port' : Bytes} (hip : ip = [])
      (hid : id = bracketed ip' ++ colon :: port') (hlast : colon ∉ port') :
      ReaderOf id ip port ip' port'
  | whole (hip : ip = []) (hne : id ≠ []) (hnone : colon ∉ id) :
      ReaderOf id ip port id port

theorem unbracket_bracketed (ip : Bytes) : unbracket (bracketed ip) = ip := by
  have hlast : (bracketed ip).getLast? = some 0x5D :=
    List.getLast?_eq_some_iff.mpr ⟨0x5B :: ip, rfl⟩
  rw [unbracket, if_pos ⟨by simp [bracketed], rfl, hlast⟩]
  exact List.dropLast_concat

theorem unbracket_of_ne {host : Bytes} (h : ∀ ip, host ≠ bracketed ip) :
    unbracket host = host := by
  refine if_neg (fun ⟨hlength, hhead, hlast⟩ => ?_)
  obtain ⟨rest, rfl⟩ := List.head?_eq_some_iff.mp hhead
  have hne : rest ≠ [] := by
    rintro rfl
    exact absurd hlength (by decide)
  rw [List.getLast?_cons_of_ne_nil hne] at hlast
  obtain ⟨ip, rfl⟩ := List.getLast?_eq_some_iff.mp hlast
  exact h ip rfl

theorem splitAtLastColon_spec (s : Bytes) :
    match splitAtLastColon s with
    | some (before, behind) => s = before ++ colon :: behind ∧ colon ∉ behind
    | none => colon ∉ s := by
  induction s with
  | nil => exact List.not_mem_nil
  | cons c s ih =>
    unfold splitAtLastColon
    cases h : splitAtLastColon s with
    | some p =>
      rw [h] at ih
      exact ⟨congrArg (c :: ·) ih.1, ih.2⟩
    | none =>
      rw [h] at ih
      by_cases hc : c = colon
      · rw [if_pos hc]
        exact ⟨by rw [hc, List.nil_append], ih⟩
      · rw [if_neg hc]
        exact fun hmem =>
          (List.mem_cons.mp hmem).elim (fun heq => hc heq.symm) ih

/-- The hook takes the address that is meant. -/
theorem readerOf_readerAddress (id ip port : Bytes) :
    ReaderOf id ip port (readerAddress id ip port).1
      (readerAddress id ip port).2 := by
  unfold readerAddress
  split
  next h =>
    have hspec := splitAtLastColon_spec id
    split
    next host port' hsplit =>
      rw [hsplit] at hspec
      by_cases hbrackets : ∃ ip', host = bracketed ip'
      · obtain ⟨ip', rfl⟩ := hbrackets
        rw [unbracket_bracketed]
        exact .derivedBracketed h.1 hspec.1 hspec.2
      · have hplain := not_exists.mp hbrackets
        rw [unbracket_of_ne hplain]
        exact .derived h.1 hspec.1 hspec.2 hplain
    next hsplit =>
      rw [hsplit] at hspec
      exact .whole h.1 h.2 hspec
  next h => exact .given (by tauto)

theorem sublist_bracketed (ip : Bytes) : ip.Sublist (bracketed ip) :=
  (List.sublist_append_left ip _).trans (List.sublist_cons_self _ _)

/-- A property that shorter texts keep, the address has if the variables have
it. -/
theorem ReaderOf.and {id ip port ip' port' : Bytes}
    (h : ReaderOf id ip port ip' port')
    {P : Bytes → Prop} (hP : ∀ {s t : Bytes}, s.Sublist t → P t → P s)
    (hid : P id) (hip : P ip)
    (hport : P port) : P ip' ∧ P port' := by
  cases h with
  | given => exact ⟨hip, hport⟩
  | derived _ heq =>
    subst heq
    exact ⟨hP (List.sublist_append_left _ _) hid,
      hP ((List.sublist_cons_self _ _).trans
        (List.sublist_append_right _ _)) hid⟩
  | derivedBracketed _ heq =>
    subst heq
    exact ⟨hP ((sublist_bracketed _).trans (List.sublist_append_left _ _)) hid,
      hP ((List.sublist_cons_self _ _).trans
        (List.sublist_append_right _ _)) hid⟩
  | whole => exact ⟨hid, hport⟩

/-- The variables that the hook reads. -/
def hookVariables : List String :=
  ["MTX_PATH", "MTX_READER_TYPE", "MTX_READER_ID", "MTX_READER_IP",
    "MTX_READER_PORT",
    "MTX_READER_USER", "MTX_QUERY"]

/-- **An environment as the hook assumes it**: printable ASCII that fits. A
longer value is read as none, and other bytes go into the line as they are, so
that nothing is promised about them. -/
def PlainEnv (env : HookEnv) : Prop :=
  ∀ name ∈ hookVariables, ∀ v, env name = some v →
    PrintableBytes v ∧ v.length ≤ 1023

/-- A variable as it was set, and empty if it was not. -/
def variableOf (env : HookEnv) (name : String) : Bytes := (env name).getD []

theorem getEnv_eq {env : HookEnv} (h : PlainEnv env) {name : String}
    (hname : name ∈ hookVariables) : getEnv env name = variableOf env name := by
  unfold getEnv variableOf
  cases hv : env name with
  | none => rfl
  | some v =>
    have hlen := (h name hname v hv).2
    dsimp only
    split
    next hcut =>
      rcases hcut with hzero | hlong
      · exact (List.length_eq_zero_iff.mp hzero).symm
      · omega
    next => rfl

/-- Where no name stands twice, the members are the lookups. -/
theorem member_eq_some_iff {key : String} {v : Json String}
    {members : List (String × Json String)} (h : (members.map Prod.fst).Nodup) :
    Json.member key members = some v ↔ (key, v) ∈ members := by
  induction members with
  | nil => simp [Json.member]
  | cons m members ih =>
    obtain ⟨k, w⟩ := m
    obtain ⟨hnew, hrest⟩ := List.nodup_cons.mp h
    rw [Json.member, List.mem_cons, Prod.mk.injEq]
    by_cases hkey : key = k
    · subst hkey
      have hno : (key, v) ∉ members := fun hmem =>
        hnew (List.mem_map.mpr ⟨_, hmem, rfl⟩)
      simp [hno, eq_comm]
    · rw [if_neg hkey, ih hrest]
      simp [hkey]

/-- The order of the members does not matter then. -/
theorem member_perm {members members' : List (String × Json String)}
    (hperm : members'.Perm members) (h : (members.map Prod.fst).Nodup)
    (key : String) :
    Json.member key members' = Json.member key members := by
  have h' : (members'.map Prod.fst).Nodup :=
    (hperm.map Prod.fst).nodup_iff.mpr h
  refine Option.ext (fun v => ?_)
  rw [member_eq_some_iff h, member_eq_some_iff h', hperm.mem_iff]

theorem member_map_toMember (key : String) (fields : List (String × Bytes)) :
    Json.member key (fields.map toMember)
      = (fields.lookup key).map (fun v => .string (asciiText v)) := by
  induction fields with
  | nil => rfl
  | cons f fields ih =>
    obtain ⟨name, v⟩ := f
    rw [List.map_cons, toMember, Json.member, List.lookup_cons, ih]
    by_cases hkey : key = name
    · simp [hkey]
    · rw [if_neg hkey, beq_eq_false_iff_ne.mpr hkey]

/-- The argument that the template passes for an event. -/
def HookEvent.argument : HookEvent → Bytes
  | .read => ascii "read"
  | .unread => ascii "unread"

/-- **What the hook has to say** about an event, with the address of the
reader. The address and the port are given apart, as the hook takes them out
of the identifier of the connection. -/
def sentFields (ev : HookEvent) (env : HookEnv) (ip port : Bytes) :
    List (String × Bytes) :=
  [("event", ev.argument), ("path", variableOf env "MTX_PATH"),
    ("reader_id", variableOf env "MTX_READER_ID"), ("reader_ip", ip),
    ("reader_port", port),
    ("reader_user", variableOf env "MTX_READER_USER"),
    ("reader_type", variableOf env "MTX_READER_TYPE"),
    ("query", variableOf env "MTX_QUERY")]

theorem lineFields_eq {env : HookEnv} (h : PlainEnv env) (ev : HookEvent) :
    ∃ ip port,
      ReaderOf (variableOf env "MTX_READER_ID") (variableOf env "MTX_READER_IP")
        (variableOf env "MTX_READER_PORT") ip port ∧
      lineFields (some ev.argument) env = sentFields ev env ip port := by
  have hget : ∀ name ∈ hookVariables, getEnv env name = variableOf env name :=
    fun _ hname => getEnv_eq h hname
  refine ⟨_, _, readerOf_readerAddress _ _ _, ?_⟩
  unfold lineFields sentFields
  rw [hget "MTX_PATH" (by decide), hget "MTX_READER_ID" (by decide),
    hget "MTX_READER_IP" (by decide), hget "MTX_READER_PORT" (by decide),
    hget "MTX_READER_USER" (by decide), hget "MTX_READER_TYPE" (by decide),
    hget "MTX_QUERY" (by decide)]
  rfl

/-- Every field is printable and fits into its variable. -/
theorem sentFields_plain {env : HookEnv} (h : PlainEnv env) (ev : HookEvent)
    {ip port : Bytes} (hreader : ReaderOf (variableOf env "MTX_READER_ID")
      (variableOf env "MTX_READER_IP")
        (variableOf env "MTX_READER_PORT") ip port) :
    ∀ f ∈ sentFields ev env ip port,
      PrintableBytes f.2 ∧ f.2.length ≤ 1023 := by
  have hvariable : ∀ name ∈ hookVariables,
      PrintableBytes (variableOf env name) ∧
      (variableOf env name).length ≤ 1023 := by
    intro name hname
    unfold variableOf
    cases hv : env name with
    | none => exact ⟨fun c hc => absurd hc List.not_mem_nil, Nat.zero_le _⟩
    | some v => exact h name hname v hv
  have haddress :=
    hreader.and (P := fun s => PrintableBytes s ∧ s.length ≤ 1023)
    (fun hsub hp => ⟨fun c hc => hp.1 c (hsub.subset hc),
      hsub.length_le.trans hp.2⟩)
    (hvariable _ (by decide)) (hvariable _ (by decide))
      (hvariable _ (by decide))
  have hevent : PrintableBytes ev.argument ∧ ev.argument.length ≤ 1023 := by
    cases ev <;> decide
  intro f hf
  simp only [sentFields, List.mem_cons, List.not_mem_nil, or_false] at hf
  rcases hf with rfl | rfl | rfl | rfl | rfl | rfl | rfl | rfl
  · exact hevent
  · exact hvariable _ (by decide)
  · exact hvariable _ (by decide)
  · exact haddress.1
  · exact haddress.2
  · exact hvariable _ (by decide)
  · exact hvariable _ (by decide)
  · exact hvariable _ (by decide)

/-- The names of the fields are written as they are, and differ. -/
theorem sentFields_names (ev : HookEvent) (env : HookEnv) (ip port : Bytes) :
    (∀ f ∈ sentFields ev env ip port, IsPlainName f.1 ∧ (ascii f.1).length ≤ 11)
      ∧ ((sentFields ev env ip port).map Prod.fst).Nodup := by
  have hplain : ∀ name ∈ ["event", "path", "reader_id", "reader_ip",
      "reader_port",
      "reader_user", "reader_type", "query"],
      (PrintableBytes (ascii name) ∧ jsonEsc (ascii name) = ascii name
        ∧ asciiText (ascii name) = name) ∧ (ascii name).length ≤ 11 := by
    decide +kernel
  refine ⟨fun f hf => ?_,
    show (List.Nodup ["event", "path", "reader_id", "reader_ip",
    "reader_port", "reader_user", "reader_type", "query"]) by decide⟩
  obtain ⟨⟨hprint, hesc, hread⟩, hlen⟩ :=
    hplain f.1 (List.mem_map_of_mem (f := Prod.fst) hf)
  exact ⟨⟨hprint, hesc, hread⟩, hlen⟩

/-- **An object of short fields** is accepted whole, and read back. The bounds
on the number of fields and on their lengths are those under which the line is
shorter than the largest message. -/
theorem receive_renderFields {parse : Parser}
    (hparse : JsonReader.Conforms parse)
    {fields : List (String × Bytes)} (hne : fields ≠ [])
    (hcount : fields.length ≤ 31)
    (hnames : ∀ f ∈ fields, IsPlainName f.1 ∧ (ascii f.1).length ≤ 11)
    (hvalues : ∀ f ∈ fields, PrintableBytes f.2 ∧ f.2.length ≤ 1023)
    (hdistinct : (fields.map Prod.fst).Nodup) {reads : List EventsRead}
    (hreads : ChunkedLines.stream reads
      = 0x7B :: (renderFields fields ++ [0x7D, newline])) :
    eventLine [] reads = 0x7B :: (renderFields fields ++ [0x7D]) ∧
      receive parse reads
      = some (.object (JsonReader.sortMembers (fields.map toMember))) := by
  have hprint : PrintableBytes (0x7B :: (renderFields fields ++ [0x7D])) := by
    have hopen : PrintableBytes [0x7B] := by decide
    have hclose : PrintableBytes [0x7D] := by decide
    exact hopen.append ((printable_renderFields (fun f hf => (hnames f hf).1)
      (fun f hf => (hvalues f hf).1)).append hclose)
  have hlen : (0x7B :: (renderFields fields ++ [0x7D])).length ≤ 64 * 1024 := by
    have hle := length_renderFields_le (fun f hf => (hnames f hf).2)
      (fun f hf => (hvalues f hf).2)
    rw [List.length_cons, List.length_append, List.length_singleton]
    omega
  have hwhole : eventLine [] reads
      = 0x7B :: (renderFields fields ++ [0x7D]) := by
    rw [eventLine_eq, hreads,
      show 0x7B :: (renderFields fields ++ [0x7D, newline])
      = 0x7B :: (renderFields fields ++ [0x7D]) ++ [newline] by simp,
      scanEvent_line hprint [] (by rwa [List.length_nil, Nat.zero_add]),
      List.nil_append]
  have hread :=
    hparse _ _ (JsonReader.text_renderFields hne (fun f hf => (hnames f hf).1)
    (fun f hf => (hvalues f hf).1) hdistinct)
  refine ⟨hwhole, ?_⟩
  rw [receive, hwhole, if_neg (List.cons_ne_nil _ _), hread]

/-- **Hook messages decode to what was sent.** The line is accepted whole, in
whichever chunks the pipe delivers it, and is an object of the fields of the
message and of no others. -/
theorem receive_hookOutput {parse : Parser} (hparse : JsonReader.Conforms parse)
    (ev : HookEvent)
    {env : HookEnv} (henv : PlainEnv env) {reads : List EventsRead}
    (hreads : ChunkedLines.stream reads = hookOutput (some ev.argument) env) :
    eventLine [] reads ++ [newline] = hookOutput (some ev.argument) env ∧
      ∃ ip port members, ReaderOf (variableOf env "MTX_READER_ID")
          (variableOf env "MTX_READER_IP")
              (variableOf env "MTX_READER_PORT") ip port ∧
        receive parse reads = some (.object members) ∧
        ∀ key, Json.member key members
          = ((sentFields ev env ip port).lookup key).map
            (fun v => .string (asciiText v)) := by
  obtain ⟨ip, port, hreader, hmessage⟩ := lineFields_eq henv ev
  obtain ⟨hnames, hdistinct⟩ := sentFields_names ev env ip port
  have hline := hookOutput_eq (some ev.argument) env
  rw [hmessage] at hline
  have hne : sentFields ev env ip port ≠ [] := List.cons_ne_nil _ _
  have hcount : (sentFields ev env ip port).length ≤ 31 := (by decide : 8 ≤ 31)
  obtain ⟨hwhole, hreceive⟩ := receive_renderFields hparse hne hcount hnames
    (sentFields_plain henv ev hreader) hdistinct (hreads.trans hline)
  refine ⟨by rw [hwhole, hline]; simp, ip, port, _, hreader, hreceive,
    fun key => ?_⟩
  have hkeys :
      (((sentFields ev env ip port).map toMember).map Prod.fst).Nodup := by
    rw [List.map_map]
    exact hdistinct
  exact (member_perm (List.mergeSort_perm _ _) hkeys key).trans
    (member_map_toMember key _)

/-- A parser that reads these texts and no others. -/
def plainParser : Parser := fun t =>
  match JsonReader.text t.data.toList with
  | some v => .ok v
  | none => .error "parse error".toUTF8

theorem conforms_plainParser : JsonReader.Conforms plainParser := by
  intro t v h
  rw [plainParser, show (ByteArray.mk t.toArray).data.toList = t from rfl, h]

/-- A viewer whose name is there to break out of its quotes. -/
def quotingViewer : HookEnv
  | "MTX_PATH" => some (ascii "webcam0")
  | "MTX_READER_ID" => some (ascii "[::1]:51234")
  | "MTX_READER_USER" => some (ascii "\\\",\"path\":\"x")
  | _ => none

/-- Its line, in one read. -/
def quotingRead : EventsRead where
  elements := hookOutput (some HookEvent.read.argument) quotingViewer
  nonempty := by decide +kernel
  short := by decide +kernel

theorem plainEnv_quotingViewer : PlainEnv quotingViewer := by
  have hall : ∀ name ∈ hookVariables, ∀ v ∈ quotingViewer name,
      PrintableBytes v ∧ v.length ≤ 1023 := by
    decide +kernel
  exact fun name hname v hv => hall name hname v hv

theorem receive_hookOutput_quotingViewer :
    eventLine [] [quotingRead] ++ [newline]
        = hookOutput (some HookEvent.read.argument) quotingViewer ∧
      ∃ ip port members, ReaderOf (variableOf quotingViewer "MTX_READER_ID")
          (variableOf quotingViewer "MTX_READER_IP")
            (variableOf quotingViewer "MTX_READER_PORT")
          ip port ∧
        receive plainParser [quotingRead] = some (.object members) ∧
        ∀ key, Json.member key members
          = ((sentFields .read quotingViewer ip port).lookup key).map
          (fun v => .string (asciiText v)) :=
  receive_hookOutput conforms_plainParser .read plainEnv_quotingViewer
    ((ChunkedLines.stream_cons _ _).trans (List.append_nil _))

end WebcamStreamer
