import WebcamStreamer.Requests

/-!
# The request loop of the control pipe

`AcceptLoop` reads the lines of a connected client one after another. It parses
a line, reads `id`, `method` and `params` out of it, calls the handler, and
writes one response. Two of these steps stand in `try` blocks, parsing and the
handler; the accessors and `dump()` do not. What they throw leaves the thread,
which has nothing above to catch it, and ends the process with every stream in
it.

The parser is a third-party one and stays a parameter, `parse`: it returns a
document, or it throws and `what()` is a text that may quote bytes of the line.
A parsed document has strings that are UTF-8. The text of an exception, and
whatever a handler answers, are bytes. The handler is a parameter as it is of
the class: a line comes with the handler in the state it is then in, so that any
way of keeping a state between the calls is covered.

`answersAll_iff` says for which lines and handlers the loop does its job.
-/

namespace WebcamStreamer

/-! ## The loop

A turn of the loop parses a line, reads three members, calls the handler and
writes the response. Exceptions of the parser and of the handler are caught;
those of the three accessors and of the final `dump` are not. -/

/-- `nlohmann::json::parse`: a document, or the `what()` of the exception. -/
abbrev Parser := ByteArray → Except ByteArray (Json String)

/-- A line as `LineReader::Next` returns it. An empty one means that the client
is gone. -/
structure RequestLine where
  bytes : ByteArray
  nonempty : bytes.size ≠ 0
  short : bytes.size ≤ 256 * 1024

/-- `struct IpcResponse`, before anything has looked at its texts. -/
structure WireResponse where
  ok : Bool := false
  result : Json ByteArray := .null
  error : ByteArray := .empty

/-- What a handler does: it answers, or it throws. -/
abbrev HandlerOutcome := Except ByteArray WireResponse

/-- The response that the loop makes of it. -/
def HandlerOutcome.response : HandlerOutcome → WireResponse
  | .ok rs => rs
  | .error what => { error := "handler-exception: ".toUTF8 ++ what }

/-- One turn of the loop: the line it reads, the handler, and whether
`WritePipe` gets the response through. -/
structure Exchange where
  line : RequestLine
  handler : IpcRequest → HandlerOutcome
  written : Bool := true

/-- The three `value()` calls, none of them in a `try` block. -/
def readRequest (req : Json String) : Except JsonException IpcRequest := do
  let id ← req.valueInt "id"
  let method ← req.valueString "method"
  let params ← req.value .ok "params" (.object [])
  return { id, method, params }

/-- The document of a response. -/
def respDocument (id : ℤ) (rs : WireResponse) : Json ByteArray :=
  .object [("type", .string "resp".toUTF8), ("id", .integer id),
    ("ok", .boolean rs.ok),
    if rs.ok then ("result", rs.result) else ("error", .string rs.error)]

/-- The response to a line, or the exception that nothing catches. -/
def respond (parse : Parser) (x : Exchange) : Except ℕ (Json ByteArray) :=
  match parse x.line.bytes with
  | .error what =>
    (respDocument 0 { error := "bad-json: ".toUTF8 ++ what }).dump
  | .ok req =>
    match readRequest req with
    | .error e => .error e.id
    | .ok rq => (respDocument rq.id (x.handler rq).response).dump

/-- How the loop ends. -/
inductive LoopEnd where
  | disconnected
  | pipeBroken
  | uncaught (id : ℕ)
  deriving DecidableEq

/-- What happened on a connection: the responses handed to `WritePipe`, and how
it ended. -/
structure Connection where
  responses : List (Json ByteArray) := []
  ending : LoopEnd

/-- The request loop of one connection, over what the client sends. -/
def requestLoop (parse : Parser) : List Exchange → Connection
  | [] => { ending := .disconnected }
  | x :: rest =>
    match respond parse x with
    | .error id => { ending := .uncaught id }
    | .ok m =>
      if x.written then
        let c := requestLoop parse rest
        { c with responses := m :: c.responses }
      else { responses := [m], ending := .pipeBroken }

/-- The lines the loop gets to read when nothing stops it but the pipe. -/
def linesRead : List Exchange → List Exchange
  | [] => []
  | x :: rest => x :: if x.written then linesRead rest else []

/-! ## What it is for

A line deserves an answer of a certain form, with the id of its request. This
is stated about the document that is handed to the pipe, and a connection is
served if each of its lines has such an answer. -/

/-- A document that can be read as a request: an object, with a numeric `id`
and a textual `method` where it has these at all. -/
def IsRequest (req : Json String) : Prop :=
  ∃ members, req = .object members ∧
    (∀ v, Json.member "id" members = some v → v.IsNumeric) ∧
    ∀ v, Json.member "method" members = some v → ∃ s, v = .string s

/-- **The answer a line deserves**: of type `resp`, under the id of the request
where that is an integer, and a refusal where the line is no request. -/
structure Answers (parse : Parser) (x : Exchange) (m : Json ByteArray) :
    Prop where
  type : m.find? "type" = some (.string "resp".toUTF8)
  sameId :
    ∀ req n, parse x.line.bytes = .ok req → req.find? "id" = some (.integer n) →
    m.find? "id" = some (.integer n)
  refused : (¬ ∃ req, parse x.line.bytes = .ok req ∧ IsRequest req) →
    m.find? "ok" = some (.boolean false)

/-- No exception has left the loop, and the lines were answered one by one. -/
structure AnswersAll (parse : Parser) (xs : List Exchange) (c : Connection) :
    Prop where
  caught : ∀ id, c.ending ≠ .uncaught id
  answered : List.Forall₂ (Answers parse) (linesRead xs) c.responses

/-! ## When a line gets its answer

The loop copes with a line if the parser rejects it in words that can be
printed, or if it is a request whose response can be printed. Both conditions
are exact, and neither says what a request means. -/

/-- What a response says is UTF-8: the texts of the result, or the error. -/
def WireResponse.Printable (rs : WireResponse) : Prop :=
  if rs.ok then ∀ s ∈ rs.result.texts, s.IsValidUTF8 else rs.error.IsValidUTF8

/-- What an outcome says is UTF-8. -/
def HandlerOutcome.Printable : HandlerOutcome → Prop
  | .ok rs => rs.Printable
  | .error what => what.IsValidUTF8

/-- The lines the loop copes with. Either the parser rejects the line in words
that are UTF-8; or the line is a request, its id fits an `int` where it is an
integer, and the outcome of the handler can be printed. -/
def CanAnswer (parse : Parser) (x : Exchange) : Prop :=
  match parse x.line.bytes with
  | .error what => what.IsValidUTF8
  | .ok req =>
    IsRequest req ∧ (∀ n, req.find? "id" = some (.integer n) →
      -2 ^ 31 ≤ n ∧ n < 2 ^ 31) ∧
      ∀ rq, readRequest req = .ok rq → (x.handler rq).Printable

section Respond

variable {parse : Parser} {x : Exchange} {req : Json String} {rq : IpcRequest}

/-- A text in front of some bytes changes nothing about their being UTF-8. -/
theorem isValidUTF8_toUTF8_append (s : String) (b : ByteArray) :
    (s.toUTF8 ++ b).IsValidUTF8 ↔ b.IsValidUTF8 := by
  have hlist : ∀ l : List Char, (l.utf8Encode ++ b).IsValidUTF8 ↔
      b.IsValidUTF8 := by
    intro l
    induction l with
    | nil => simp
    | cons c l ih =>
      rw [List.utf8Encode_cons, ByteArray.append_assoc,
        ByteArray.isValidUTF8_utf8Encode_singleton_append_iff]
      exact ih
  rw [String.toUTF8_eq_toByteArray, ← String.utf8Encode_toList]
  exact hlist _

/-- An `int` holds exactly the integers of 32 bits. -/
theorem int32OfInteger_eq_self_iff {n : ℤ} :
    int32OfInteger n = n ↔ -2 ^ 31 ≤ n ∧ n < 2 ^ 31 := by
  unfold int32OfInteger
  rw [Int.bmod_def]
  split <;> omega

theorem readRequest_eq_ok :
    readRequest req = .ok rq ↔ req.valueInt "id" = .ok rq.id ∧
      req.valueString "method" = .ok rq.method ∧
      req.value .ok "params" (.object []) = .ok rq.params := by
  unfold readRequest
  simp only [bind_eq_ok]
  constructor
  · rintro ⟨id, hid, method, hmethod, params, hparams, heq⟩
    obtain rfl := Except.ok.inj heq
    exact ⟨hid, hmethod, hparams⟩
  · rintro ⟨hid, hmethod, hparams⟩
    exact ⟨_, hid, _, hmethod, _, hparams, rfl⟩

/-- **The accessors go through exactly on requests.** Members that are missing
have defaults, and a member of another type is an exception. -/
theorem readRequest_isOk_iff :
    (∃ rq, readRequest req = .ok rq) ↔ IsRequest req := by
  constructor
  · rintro ⟨rq, hrq⟩
    obtain ⟨hid, hmethod, -⟩ := readRequest_eq_ok.mp hrq
    obtain ⟨members, rfl⟩ := Json.isObject_of_value hid
    refine ⟨members, rfl, fun v hv => ?_, fun v hv => ?_⟩
    · exact Json.getInt_isOk_iff.mp (Json.value_isOk_iff.mp ⟨_, hid⟩ v hv)
    · exact Json.getString_isOk_iff.mp (Json.value_isOk_iff.mp ⟨_,
        hmethod⟩ v hv)
  · rintro ⟨members, rfl, hid, hmethod⟩
    obtain ⟨id, hid⟩ : ∃ id, (Json.object members).valueInt "id" = .ok id :=
      Json.value_isOk_iff.mpr (fun v hv => Json.getInt_isOk_iff.mpr (hid v hv))
    obtain ⟨method, hmethod⟩ :
        ∃ method, (Json.object members).valueString "method" = .ok method :=
      Json.value_isOk_iff.mpr (fun v hv =>
        Json.getString_isOk_iff.mpr (hmethod v hv))
    obtain ⟨params, hparams⟩ :
        ∃ params,
          (Json.object members).value .ok "params" (.object []) = .ok params :=
      Json.value_isOk_iff.mpr (fun v _ => ⟨v, rfl⟩)
    exact ⟨⟨id, method, params⟩, readRequest_eq_ok.mpr ⟨hid, hmethod, hparams⟩⟩

/-- An integer id is read as an `int`. -/
theorem readRequest_id {n : ℤ} (h : readRequest req = .ok rq)
    (hn : req.find? "id" = some (.integer n)) : rq.id = int32OfInteger n := by
  obtain ⟨hid, -, -⟩ := readRequest_eq_ok.mp h
  obtain ⟨members, rfl⟩ := Json.isObject_of_value hid
  have hmember : Json.member "id" members = some (.integer n) := hn
  have hint : (Json.object members).valueInt "id" = .ok (int32OfInteger n) := by
    simp [Json.valueInt, Json.value, Json.isObject, hmember, Json.getInt]
  rw [hint] at hid
  exact (Except.ok.inj hid).symm

/-- **A response goes out exactly when what it says is UTF-8.** Everything
else in the document is fixed text or a number, and cannot make `dump`
throw. -/
theorem dump_respDocument {id : ℤ} {rs : WireResponse} {m : Json ByteArray} :
    (respDocument id rs).dump = .ok m ↔
      rs.Printable ∧ m = respDocument id rs := by
  have hresp : "resp".toByteArray.IsValidUTF8 := "resp".isValidUTF8
  rw [Json.dump_eq_ok]
  refine and_congr_left (fun _ => ?_)
  cases h : rs.ok <;>
    simp [respDocument, WireResponse.Printable, Json.texts,
      Json.textsOfMembers, h, hresp]

/-- The text that the loop puts in front of an exception changes nothing. -/
theorem HandlerOutcome.printable_response {outcome : HandlerOutcome} :
    outcome.response.Printable ↔ outcome.Printable := by
  cases outcome with
  | ok rs => exact Iff.rfl
  | error what => exact isValidUTF8_toUTF8_append _ _

theorem find?_respDocument_type (id : ℤ) (rs : WireResponse) :
    (respDocument id rs).find? "type" = some (.string "resp".toUTF8) := rfl

theorem find?_respDocument_id (id : ℤ) (rs : WireResponse) :
    (respDocument id rs).find? "id" = some (.integer id) := rfl

theorem find?_respDocument_ok (id : ℤ) (rs : WireResponse) :
    (respDocument id rs).find? "ok" = some (.boolean rs.ok) := rfl

/-- **One turn of the loop.** A line gets the answer it deserves exactly when
it is one of those the loop copes with. -/
theorem respond_answers_iff :
    (∃ m, respond parse x = .ok m ∧ Answers parse x m) ↔ CanAnswer parse x := by
  unfold respond CanAnswer
  cases hparse : parse x.line.bytes with
  | error what =>
    show (∃ m, (respDocument 0 _).dump = .ok m ∧ _) ↔ what.IsValidUTF8
    simp only [dump_respDocument]
    rw [← isValidUTF8_toUTF8_append "bad-json: "]
    constructor
    · rintro ⟨m, ⟨hprint, -⟩, -⟩
      exact hprint
    · intro hprint
      refine ⟨_, ⟨hprint, rfl⟩, find?_respDocument_type _ _,
        fun req n hreq => ?_, fun _ => find?_respDocument_ok _ _⟩
      rw [hparse] at hreq
      cases hreq
  | ok req =>
    dsimp only
    cases hread : readRequest req with
    | error e =>
      -- Nothing is written, and the line was no request.
      constructor
      · rintro ⟨m, hm, -⟩
        cases hm
      · rintro ⟨hreq, -⟩
        obtain ⟨rq, hrq⟩ := readRequest_isOk_iff.mpr hreq
        rw [hread] at hrq
        cases hrq
    | ok rq =>
      have hreq : IsRequest req := readRequest_isOk_iff.mp ⟨rq, hread⟩
      simp only [dump_respDocument, HandlerOutcome.printable_response]
      constructor
      · rintro ⟨m, ⟨hprint, rfl⟩, hm⟩
        refine ⟨hreq, fun n hn => ?_, fun rq' hrq' => ?_⟩
        · -- The id that was written is the low half of the one that was sent.
          have hid := hm.sameId req n hparse hn
          rw [find?_respDocument_id, readRequest_id hread hn] at hid
          exact int32OfInteger_eq_self_iff.mp
            (Json.integer.inj (Option.some.inj hid))
        · obtain rfl := Except.ok.inj hrq'
          exact hprint
      · rintro ⟨-, hfits, hprint⟩
        refine ⟨_, ⟨hprint rq rfl, rfl⟩, find?_respDocument_type _ _,
          fun req' n hreq' hn => ?_, fun hno => absurd ⟨req, hparse, hreq⟩ hno⟩
        obtain rfl : req = req' := Except.ok.inj (hparse.symm.trans hreq')
        rw [find?_respDocument_id, readRequest_id hread hn,
          int32OfInteger_eq_self_iff.mpr (hfits n hn)]

end Respond

/-! ## When a connection is served

The lines of a connection are answered one after the other, and the first line
that the loop does not cope with ends the process. What was read after it is
then lost, so that the condition is about the lines that are read. -/

theorem AnswersAll.cons_iff {parse : Parser} {x : Exchange}
    {rest : List Exchange} :
    AnswersAll parse (x :: rest) (requestLoop parse (x :: rest)) ↔
      CanAnswer parse x ∧
        (x.written = true →
          AnswersAll parse rest (requestLoop parse rest)) := by
  rw [← respond_answers_iff, requestLoop]
  cases hrespond : respond parse x with
  | error id =>
    constructor
    · exact fun h => absurd rfl (h.caught id)
    · rintro ⟨⟨m, hm, -⟩, -⟩
      cases hm
  | ok m =>
    cases hw : x.written with
    | false =>
      constructor
      · rintro ⟨-, hall⟩
        rw [linesRead] at hall
        cases hall with
        | cons hm _ => exact ⟨⟨m, rfl, hm⟩, Bool.noConfusion⟩
      · rintro ⟨⟨m', hm', hans⟩, -⟩
        obtain rfl := Except.ok.inj hm'
        refine ⟨fun id h => ?_, ?_⟩
        · cases h
        · rw [linesRead, hw]
          exact .cons hans .nil
    | true =>
      constructor
      · rintro ⟨hcaught, hall⟩
        rw [linesRead, hw] at hall
        cases hall with
        | cons hm hrest => exact ⟨⟨m, rfl, hm⟩, fun _ => ⟨hcaught, hrest⟩⟩
      · rintro ⟨⟨m', hm', hans⟩, hrest⟩
        obtain rfl := Except.ok.inj hm'
        refine ⟨(hrest rfl).caught, ?_⟩
        rw [linesRead, hw]
        exact .cons hans (hrest rfl).answered

/-- **A connection is served to its end exactly when the loop copes with every
line it reads.** Each line then has one response, and no exception ends the
process; and one line it does not cope with is enough to lose the rest. -/
theorem answersAll_iff (parse : Parser) (xs : List Exchange) :
    AnswersAll parse xs (requestLoop parse xs) ↔
      ∀ x ∈ linesRead xs, CanAnswer parse x := by
  induction xs with
  | nil =>
    refine ⟨fun _ x hx => absurd hx List.not_mem_nil,
      fun _ => ⟨fun id h => ?_, .nil⟩⟩
    cases h
  | cons x rest ih =>
    rw [AnswersAll.cons_iff, ih, linesRead]
    cases x.written <;> simp

/-! ## A line that ends the process

The shortest line of this kind is an empty array: it is a JSON text, it has no
members, and asking it for one throws. -/

/-- The two bytes of an empty array, on a line of their own. -/
def emptyArrayLine : RequestLine where
  bytes := ⟨#[0x5b, 0x5d]⟩
  nonempty := by decide
  short := by decide

/-- A parser as far as the two shortest documents need one. -/
def parseShortest : Parser := fun line =>
  if line.data = #[0x5b, 0x5d] then .ok (.array [])
  else if line.data = #[0x7b, 0x7d] then .ok (.object [])
  else .error "parse error".toUTF8

/-- An empty array is well-formed JSON, and `value()` on it throws where
nothing catches it: the line is read, nothing is written, and the process
ends. -/
theorem array_line_kills_server :
    (requestLoop parseShortest [⟨emptyArrayLine, fun _ => .ok {}, true⟩]).ending
        = .uncaught 306 ∧
      ¬ AnswersAll parseShortest [⟨emptyArrayLine, fun _ => .ok {}, true⟩]
        (requestLoop parseShortest [⟨emptyArrayLine, fun _ => .ok {},
          true⟩]) := by
  have hend : (requestLoop parseShortest
      [⟨emptyArrayLine, fun _ => .ok {}, true⟩]).ending
      = .uncaught 306 := by decide
  exact ⟨hend, fun h => h.caught 306 hend⟩

end WebcamStreamer
