import MangoProtocol.TypeScript.Frames
import MangoProtocol.TypeScript.Ndjson
import MangoProtocol.TypeScript.TypeBox

/-! The line encoder of the TypeScript package over any value of the language.  It checks the value
in memory and writes its projection, so its own decoder refuses a line where the two differ: a
request, a result or an event whose open member `JSON.stringify` leaves out, or an object that
converts itself to something that is no frame. -/

namespace MangoProtocol.TypeScript

/-! ### The frame schemas -/

def protocolVersionSchema : JsSchema :=
  .object [("major", false, .integer 1 none), ("minor", false, .integer 0 none)]

def limitsSchema : JsSchema :=
  .object [
    ("maxFrameBytes", true, .integer minAnnouncedFrameBytes (some maxAnnouncedFrameBytes)),
    ("maxInFlight", true, .integer minAnnouncedInFlight (some maxAnnouncedInFlight))]

def closeCodeSchema : JsSchema := .integer 4000 (some 4999)

section Schemas

variable (count : JsString → Nat)

def peerFieldSchema : JsSchema := .string (lengthWithin count 1 peerFieldMaxLength)

def roleSchema : JsSchema :=
  .string fun text => lengthWithin count 1 roleMaxLength text && matchesRole text

def peerInfoSchema : JsSchema :=
  .object [("name", false, peerFieldSchema count), ("version", false, peerFieldSchema count),
    ("role", false, roleSchema count)]

def errorCodeSchema : JsSchema :=
  .string fun text => lengthWithin count 1 errorCodeMaxLength text && matchesErrorCode text

def errorPayloadSchema : JsSchema :=
  .object [("code", false, errorCodeSchema count),
    ("message", false, .string fun text => 1 ≤ count text), ("details", true, .openObject)]

def idSchema : JsSchema := .string (isId count)

def methodSchema : JsSchema := .string (isMethod count)

def closeReasonSchema : JsSchema := .string fun text => count text ≤ closeReasonMaxLength

def frameMembers : List (String × List (String × Bool × JsSchema)) :=
  [("hello", [("protocol", false, protocolVersionSchema), ("peer", false, peerInfoSchema count),
      ("capabilities", false, .openObject), ("limits", true, limitsSchema)]),
    ("req", [("id", false, idSchema count), ("method", false, methodSchema count),
      ("params", false, .unknown)]),
    ("res", [("id", false, idSchema count), ("result", false, .unknown)]),
    ("err", [("id", false, idSchema count), ("error", false, errorPayloadSchema count)]),
    ("evt", [("topic", false, methodSchema count), ("seq", false, .integer 0 none),
      ("streamId", true, idSchema count), ("payload", false, .unknown),
      ("end", true, .literalTrue)]),
    ("cancel", [("id", false, idSchema count)]),
    ("ping", []),
    ("pong", []),
    ("close", [("code", false, closeCodeSchema), ("reason", true, closeReasonSchema count)])]

end Schemas

def frameSchema (type : String) (members : List (String × Bool × JsSchema)) : JsSchema :=
  .object (("type", false, .string (· == js type)) :: members)

/-- The value passes `Value.Check` against the schema of one of the types. -/
def isFrame (count : JsString → Nat) (value : JsAny) : Bool :=
  (frameMembers count).any fun entry => (frameSchema entry.1 entry.2).check value

def frameTypeOf (value : JsAny) : Option JsString :=
  (value.member (js "type")).bind JsAny.asString

/-! ### The codec -/

/-- The language and TypeBox: `JSON.stringify`, which returns `undefined` for a value it leaves out,
`JSON.parse`, the length that `Value.Check` counts, and the message for a value that does not
match. -/
structure Runtime where
  count : JsString → Nat
  stringify : JsAny → Except String (Option String)
  parse : String → Except String JsAny
  describeSchemaFailure : JsAny → String

/-- What ECMAScript says of `JSON`. -/
structure Runtime.Documented (runtime : Runtime) : Prop where
  text : ∀ value text, runtime.stringify value = .ok (some text) →
    ∃ json, value.project = some json ∧ runtime.parse text = .ok json
  omitted : ∀ value, runtime.stringify value = .ok none → value.project = none
  /-- The text has no blank at its ends. -/
  compact : ∀ value text, runtime.stringify value = .ok (some text) →
    blankLine text = false ∧ (utf8 text).getLast? ≠ some carriageReturn
  undefined : ∀ json, runtime.parse "undefined" ≠ .ok json

section Codec

variable (runtime : Runtime)

def assertFrame (value : JsAny) : Except CodecError Unit :=
  if isFrame runtime.count value then .ok ()
  else
    let type := (frameTypeOf value).map fun text => decodeText (JsString.encode text)
    match frameTypeOf value with
    | some text =>
      if (frameMembers runtime.count).any fun entry => js entry.1 == text then
        .error ⟨.schema, runtime.describeSchemaFailure value, type⟩
      else
        .error ⟨.schema, "unknown frame type " ++ decodeText (JsString.quoted text) ++
          "; expected one of " ++ ", ".intercalate ((frameMembers runtime.count).map Prod.fst),
          type⟩
    | none => .error ⟨.schema, runtime.describeSchemaFailure value, type⟩

def serialise (frame : JsAny) : Except CodecError (Option String) :=
  match runtime.stringify frame with
  | .ok text => .ok text
  | .error reason => .error ⟨.schema, "frame is not JSON-serialisable: " ++ reason ++
      "; expected a frame of plain JSON values", none⟩

/-- The text and its bytes.  A `TextEncoder` encodes `undefined` as nothing. -/
def encodeChecked (frame : JsAny) (limit : Nat) :
    Except CodecError (Option String × List UInt8) := do
  assertFrame runtime frame
  let text ← serialise runtime frame
  let bytes := (text.map utf8).getD []
  if limit < bytes.length then
    throw ⟨.tooLarge, "frame is " ++ bytes.length.repr ++ " bytes; expected at most " ++ limit.repr,
      none⟩
  return (text, bytes)

def encodeLine (frame : JsAny) (maxFrameBytes : Option Nat) : Except Thrown String := do
  let limit ← resolveFrameLimit maxFrameBytes
  let checked ← (encodeChecked runtime frame limit).mapError .codecError
  return checked.1.getD "undefined" ++ "\n"

def parseRecord (text : String) (byteLength : Nat) : Except CodecError JsAny :=
  match runtime.parse text with
  | .error reason => .error ⟨.invalidJson, "line is not JSON: " ++ reason ++
      "; expected one JSON object of " ++ byteLength.repr ++ " bytes to parse", none⟩
  | .ok value => (assertFrame runtime value).map fun _ => value

/-- A line without its last character. -/
def withoutTerminator (line : String) : String := String.ofList line.toList.dropLast

def Decodes (line : String) (maxFrameBytes : Option Nat) : Prop :=
  ∃ limit frame, resolveFrameLimit maxFrameBytes = .ok limit ∧
    decodeLine (parseRecord runtime) (utf8 (withoutTerminator line)) limit = .ok frame

end Codec

/-! ### What the wire carries -/

def openMember (type : JsString) : Option JsString :=
  if type = js "req" then some (js "params")
  else if type = js "res" then some (js "result")
  else if type = js "evt" then some (js "payload")
  else none

/-- The frame's open member is `undefined`, a function or a symbol, or converts itself to one. -/
def leavesOut (frame : JsAny) : Bool :=
  ((frameTypeOf frame).bind openMember).any fun key => (frame.member key).any JsAny.omitted

/-- `JSON.stringify` finds what the check read, wherever the frame's schema looks. -/
def steadyFrame (count : JsString → Nat) (frame : JsAny) : Bool :=
  (frameMembers count).all fun entry =>
    !(frameSchema entry.1 entry.2).check frame || (frameSchema entry.1 entry.2).steady frame

/-- The frame survives the wire: it keeps its open member, or it converts itself to a frame. -/
def Carried (count : JsString → Nat) (frame : JsAny) : Prop :=
  if steadyFrame count frame then leavesOut frame = false
  else ∃ json, frame.project = some json ∧ isFrame count json = true

variable {count : JsString → Nat}

theorem frameTypes_nodup :
    ((frameMembers count).map fun entry => js entry.1).Nodup := by
  have ht : (frameMembers count).map (fun entry => js entry.1) =
      ["hello", "req", "res", "err", "evt", "cancel", "ping", "pong", "close"].map
        js := rfl
  rw [ht]
  decide

section Schema

variable {type : String} {members : List (String × Bool × JsSchema)} {frame : JsAny}

theorem member_type (h : (frameSchema type members).check frame = true) :
    ∃ found, frame.member (js "type") = some found ∧
      found.asString = some (js type) := by
  have hm := (Bool.and_eq_true _ _).mp h |>.1
  split at hm
  next => cases hm
  next found hf => simp_all [Bool.false_and, Bool.false_or, JsSchema.check, Option.any_eq_true]

theorem frameTypeOf_of_check (h : (frameSchema type members).check frame = true) :
    frameTypeOf frame = some (js type) := by
  obtain ⟨found, hf, hs⟩ := member_type h
  rw [frameTypeOf, hf, Option.bind_some, hs]

theorem frameTypeOf_project {json : JsAny} (h : (frameSchema type members).check frame = true)
    (hst : (frameSchema type members).steady frame = true)
    (hpr : frame.project = some json) :
    frameTypeOf json = some (js type) := by
  obtain ⟨found, hf, hs⟩ := member_type h
  have hp := (Bool.and_eq_true _ _).mp ((Bool.and_eq_true _ _).mp hst).1
  have hpl : found.isConverted = false := by
    have hm := hp.2
    rw [hf] at hm
    simpa [JsSchema.steady] using hm
  have hfo : found = .string (js type) := by
    cases found with
    | string text =>
      cases hs
      rfl
    | converted => cases hpl
    | undefined | null | bool | number | symbol | function | array | object => cases hs
  have hfr : frame.isConverted = false := by simpa using hp.1
  rw [frameTypeOf, JsAny.member_project hfr hpr, hf, hfo]
  rfl

end Schema

section Frames

variable {entry : String × List (String × Bool × JsSchema)} {frame json : JsAny}

theorem frame_unique {other : String × List (String × Bool × JsSchema)}
    (he : entry ∈ frameMembers count) (ho : other ∈ frameMembers count)
    (h : (frameSchema other.1 other.2).check frame = true)
    (ht : frameTypeOf frame = some (js entry.1)) : other = entry := by
  have heq : js other.1 = js entry.1 :=
    Option.some.inj ((frameTypeOf_of_check h).symm.trans ht)
  exact List.inj_on_of_nodup_map frameTypes_nodup ho he heq

theorem kept_closed (hc : (frameSchema entry.1 entry.2).closed = true)
    (ho : openMember (js entry.1) = none)
    (h : (frameSchema entry.1 entry.2).check frame = true) :
    (frameSchema entry.1 entry.2).kept frame = !leavesOut frame := by
  rw [JsSchema.kept_of_closed hc, leavesOut, frameTypeOf_of_check h, Option.bind_some, ho]
  rfl

theorem kept_open (key : String) (ho : openMember (js entry.1) =
      some (js key))
    (hk : ∀ value, (frameSchema entry.1 entry.2).kept value =
      (value.member (js key)).all fun found => !found.omitted)
    (h : (frameSchema entry.1 entry.2).check frame = true) :
    (frameSchema entry.1 entry.2).kept frame = !leavesOut frame := by
  rw [hk, leavesOut, frameTypeOf_of_check h, Option.bind_some, ho, Option.any_some]
  cases frame.member (js key) <;> rfl

theorem kept_frame (he : entry ∈ frameMembers count)
    (h : (frameSchema entry.1 entry.2).check frame = true) :
    (frameSchema entry.1 entry.2).kept frame = !leavesOut frame := by
  simp only [frameMembers, List.mem_cons, List.not_mem_nil, or_false] at he
  rcases he with rfl | rfl | rfl | rfl | rfl | rfl | rfl | rfl | rfl
  · exact kept_closed rfl (by dsimp only; decide) h
  · refine kept_open "params" (by dsimp only; decide) (fun value => ?_) h
    simp [frameSchema, JsSchema.kept_object, JsSchema.closed, idSchema, methodSchema, JsSchema.kept]
  · refine kept_open "result" (by dsimp only; decide) (fun value => ?_) h
    simp [frameSchema, JsSchema.kept_object, JsSchema.closed, idSchema, JsSchema.kept]
  · exact kept_closed rfl (by dsimp only; decide) h
  · refine kept_open "payload" (by dsimp only; decide) (fun value => ?_) h
    simp [frameSchema, JsSchema.kept_object, JsSchema.closed, idSchema, methodSchema, JsSchema.kept]
  · exact kept_closed rfl (by dsimp only; decide) h
  · exact kept_closed rfl (by dsimp only; decide) h
  · exact kept_closed rfl (by dsimp only; decide) h
  · exact kept_closed rfl (by dsimp only; decide) h

theorem any_isFrame_project (hf : isFrame count frame = true)
    (hs : steadyFrame count frame = true) :
    frame.project.any (isFrame count) = !leavesOut frame := by
  obtain ⟨entry, he, hc⟩ := List.any_eq_true.mp hf
  have hent : (frameSchema entry.1 entry.2).steady frame = true := by
    have hei := List.all_eq_true.mp hs entry he
    rw [hc] at hei
    exact hei
  rw [← kept_frame he hc, ← JsSchema.check_project _ hc hent]
  cases hp : frame.project with
  | none => rfl
  | some json =>
    rw [Option.any_some, Option.any_some, Bool.eq_iff_iff]
    constructor
    · intro hj
      obtain ⟨other, hot, ho⟩ := List.any_eq_true.mp hj
      have ht := frameTypeOf_project hc hent hp
      cases frame_unique he hot ho ht
      exact ho
    · exact fun hj => List.any_eq_true.mpr ⟨entry, he, hj⟩

theorem carried_iff (hf : isFrame count frame = true) :
    Carried count frame ↔ frame.project.any (isFrame count) = true := by
  unfold Carried
  split
  next hs =>
    rw [any_isFrame_project hf hs]
    simp
  next => rw [Option.any_eq_true]

end Frames

/-! ### Lines -/

section Lines

variable {runtime : Runtime} {frame : JsAny} {maxFrameBytes : Option Nat} {limit : Nat}

variable {text line : String} {value : JsAny}

theorem assertFrame_ok : assertFrame runtime value = .ok () ↔
    isFrame runtime.count value = true := by
  unfold assertFrame
  split
  next hf => exact ⟨fun _ => hf, fun _ => rfl⟩
  next hf => grind

theorem encodeLine_ok (h : encodeLine runtime frame maxFrameBytes = .ok line) :
    ∃ limit text, resolveFrameLimit maxFrameBytes = .ok limit ∧ isFrame runtime.count frame = true ∧
      runtime.stringify frame = .ok text ∧ ((text.map utf8).getD []).length ≤ limit ∧
      line = text.getD "undefined" ++ "\n" := by
  unfold encodeLine at h
  cases hl : resolveFrameLimit maxFrameBytes with
  | error thrown =>
    rw [hl] at h
    cases h
  | ok limit =>
    rw [hl] at h
    cases ha : assertFrame runtime frame with
    | error refusal => simp [encodeChecked, ha, bind, Except.bind, Except.mapError] at h
    | ok done =>
      cases hs : runtime.stringify frame with
      | error reason => simp_all [encodeChecked, serialise, bind, Except.bind, Except.mapError]
      | ok text =>
        refine ⟨limit, text, rfl, assertFrame_ok.mp ha, rfl, ?_⟩
        by_cases hf : limit < ((text.map utf8).getD []).length
        · simp [encodeChecked, serialise, ha, hs, hf, bind, Except.bind,
            Except.mapError, throw, throwThe, MonadExceptOf.throw] at h
        · simp only [encodeChecked, serialise, ha, hs, hf, bind, Except.bind,
            Except.mapError, pure, Except.pure, if_false] at h
          exact ⟨Nat.not_lt.mp hf, (Except.ok.inj h).symm⟩

theorem withoutTerminator_append (text : String) : withoutTerminator (text ++ "\n") = text := by
  simp [withoutTerminator]

theorem decodeLine_text {parse : String → Nat → Except CodecError JsAny}
    (hf : (utf8 text).length ≤ limit) (hb : blankLine text = false)
    (hl : (utf8 text).getLast? ≠ some carriageReturn) :
    decodeLine parse (utf8 text) limit = parse text (utf8 text).length := by
  have hs : stripCarriageReturn (utf8 text) = utf8 text := if_neg hl
  have hd : decodeText (utf8 text) = text := fromUtf8Lossy_utf8 text
  simp only [decodeLine, decodeRecord, hs, hd, hb, if_neg (Nat.not_lt.mpr hf),
    Bool.false_eq_true, if_false]

theorem parseRecord_ok {length : Nat} :
    parseRecord runtime text length = .ok value ↔
      runtime.parse text = .ok value ∧ isFrame runtime.count value = true := by
  unfold parseRecord
  cases hp : runtime.parse text with
  | error reason => simp
  | ok json =>
    by_cases hf : isFrame runtime.count json = true
    · grind [assertFrame_ok, Except.map, Except.ok.injEq]
    · cases ha : assertFrame runtime json with
      | error refusal =>
        simp only [ha, Except.map, Except.ok.injEq, reduceCtorEq, false_iff]
        rintro ⟨rfl, hv⟩
        exact hf hv
      | ok done => exact absurd (assertFrame_ok.mp ha) hf

theorem decodes_iff (hl : resolveFrameLimit maxFrameBytes = .ok limit)
    (hf : (utf8 text).length ≤ limit) (hb : blankLine text = false)
    (hla : (utf8 text).getLast? ≠ some carriageReturn) :
    Decodes runtime (text ++ "\n") maxFrameBytes ↔
      ∃ json, runtime.parse text = .ok json ∧ isFrame runtime.count json = true := by
  unfold Decodes
  rw [withoutTerminator_append]
  constructor
  · rintro ⟨other, value, ho, hd⟩
    cases hl.symm.trans ho
    rw [decodeLine_text hf hb hla] at hd
    exact ⟨value, parseRecord_ok.mp hd⟩
  · rintro ⟨value, hv⟩
    refine ⟨limit, value, hl, ?_⟩
    rw [decodeLine_text hf hb hla]
    exact parseRecord_ok.mpr hv

theorem decodes_iff_carried (documented : runtime.Documented)
    (h : encodeLine runtime frame maxFrameBytes = .ok line) :
    Decodes runtime line maxFrameBytes ↔ Carried runtime.count frame := by
  obtain ⟨limit, text, hl, hf, hs, hfi, rfl⟩ := encodeLine_ok h
  rw [carried_iff hf]
  cases text with
  | none =>
    -- The line reads `undefined`, which is not JSON.
    have hlo : 4096 ≤ limit := (resolveIntegerAtLeast_ok hl).2
    have hsh : (utf8 "undefined").length ≤ 4096 := by decide
    rw [documented.omitted frame hs, Option.getD_none,
      decodes_iff hl (hsh.trans hlo) (by decide) (by decide)]
    simp only [Option.any_none, Bool.false_eq_true, iff_false]
    rintro ⟨json, hp, -⟩
    exact documented.undefined json hp
  | some text =>
    obtain ⟨json, hpr, hp⟩ := documented.text frame text hs
    obtain ⟨hb, hla⟩ := documented.compact frame text hs
    rw [hpr, Option.getD_some, decodes_iff hl hfi hb hla, hp]
    simp

end Lines

/-! ### The frames of the session -/

/-- The frame of `Session.request`. -/
def requestFrame (id method : JsString) (params : JsAny) : JsAny :=
  .ofMembers [(js "type", .string (js "req")),
    (js "id", .string id), (js "method", .string method),
    (js "params", params)]

/-- The frame of `Session.emit`. -/
def eventFrame (topic : JsString) (seq : Nat) (streamId : Option JsString) (payload : JsAny)
    (ends : Bool) : JsAny :=
  .ofMembers ([(js "type", .string (js "evt")),
    (js "topic", .string topic),
    (js "seq", .number (.finite seq))] ++
    streamId.toList.map (fun id => (js "streamId", .string id)) ++
    [(js "payload", payload)] ++
    if ends then [(js "end", .bool true)] else [])

variable {frame json : JsAny} {text : String}

theorem steadyFrame_of_type {entry : String × List (String × Bool × JsSchema)}
    (he : entry ∈ frameMembers count) (ht : frameTypeOf frame = some (js entry.1))
    (hs : (frameSchema entry.1 entry.2).steady frame = true) : steadyFrame count frame = true := by
  refine List.all_eq_true.mpr fun other ho => ?_
  cases hc : (frameSchema other.1 other.2).check frame with
  | false => rfl
  | true =>
    cases frame_unique he ho hc ht
    exact hs

theorem carried_of_type (type key : String) {found : JsAny} (hs : steadyFrame count frame = true)
    (ht : frameTypeOf frame = some (js type))
    (ho : openMember (js type) = some (js key))
    (hf : frame.member (js key) = some found) :
    Carried count frame ↔ found.omitted = false := by
  rw [Carried, if_pos hs, leavesOut, ht, Option.bind_some, ho, Option.any_some, hf,
    Option.any_some]

theorem carried_requestFrame (id method : JsString) (params : JsAny) :
    Carried count (requestFrame id method params) ↔ params.omitted = false := by
  have he : (frameMembers count)[1]? = some _ := rfl
  have ht : frameTypeOf (requestFrame id method params) = some (js "req") := rfl
  have hs : steadyFrame count (requestFrame id method params) = true :=
    steadyFrame_of_type (List.mem_of_getElem? he) ht rfl
  exact carried_of_type "req" "params" hs ht (by decide) rfl

theorem carried_eventFrame (topic : JsString) (seq : Nat) (streamId : Option JsString)
    (payload : JsAny) (ends : Bool) :
    Carried count (eventFrame topic seq streamId payload ends) ↔ payload.omitted = false := by
  have he : (frameMembers count)[4]? = some _ := rfl
  have ht : frameTypeOf (eventFrame topic seq streamId payload ends) =
      some (js "evt") := rfl
  have hp : (eventFrame topic seq streamId payload ends).member
      (js "payload") = some payload := by
    cases streamId <;> cases ends <;> rfl
  have hs : steadyFrame count (eventFrame topic seq streamId payload ends) = true := by
    refine steadyFrame_of_type (List.mem_of_getElem? he) ht ?_
    cases streamId <;> cases ends <;> rfl
  exact carried_of_type "evt" "payload" hs ht (by decide) hp

/-! ### Round trips -/

/-- The encoder's own decoder takes a line back exactly when the frame it was made from keeps what
the check saw.  A request or an event of the session does unless its `params` or `payload` is left
out. -/
theorem encodeLine_decodes_iff {runtime : Runtime} (documented : runtime.Documented)
    (maxFrameBytes : Option Nat) :
    (∀ frame line, encodeLine runtime frame maxFrameBytes = .ok line →
      (Decodes runtime line maxFrameBytes ↔ Carried runtime.count frame)) ∧
    (∀ id method params line,
      encodeLine runtime (requestFrame id method params) maxFrameBytes = .ok line →
      (Decodes runtime line maxFrameBytes ↔ params.omitted = false)) ∧
    ∀ topic seq streamId payload ends line,
      encodeLine runtime (eventFrame topic seq streamId payload ends) maxFrameBytes = .ok line →
      (Decodes runtime line maxFrameBytes ↔ payload.omitted = false) := by
  refine ⟨fun frame line h => decodes_iff_carried documented h,
    fun id method params line h => ?_, fun topic seq streamId payload ends line h => ?_⟩
  · rw [decodes_iff_carried documented h, carried_requestFrame]
  · rw [decodes_iff_carried documented h, carried_eventFrame]

open Classical in
noncomputable def Runtime.ofDocument (json : JsAny) (text : String) : Runtime where
  count := schemaLength
  stringify value :=
    if value.project = some json then .ok (some text)
    else if value.project = none then .ok none
    else .error "another document"
  parse other := if other = text then .ok json else .error "another text"
  describeSchemaFailure _ := "frame does not match the wire schema"

theorem documented_ofDocument (hb : blankLine text = false)
    (hl : (utf8 text).getLast? ≠ some carriageReturn) (hne : "undefined" ≠ text) :
    (Runtime.ofDocument json text).Documented where
  text value other h := by
    simp only [Runtime.ofDocument] at h ⊢
    split at h
    next hp =>
      cases h
      exact ⟨json, hp, if_pos rfl⟩
    next => split at h <;> cases h
  omitted value h := by grind [Runtime.ofDocument]
  compact value other h := by grind [Runtime.ofDocument]
  undefined other h := by
    simp only [Runtime.ofDocument, if_neg hne] at h
    cases h

theorem encodeLine_ofDocument (hp : frame.project = some json)
    (hf : isFrame schemaLength frame = true)
    (hfi : (utf8 text).length ≤ defaultMaxFrameBytes) :
    encodeLine (Runtime.ofDocument json text) frame none = .ok (text ++ "\n") := by
  have hl : resolveFrameLimit none = .ok defaultMaxFrameBytes := rfl
  have ha : assertFrame (Runtime.ofDocument json text) frame = .ok () :=
    assertFrame_ok.mpr hf
  have hs : (Runtime.ofDocument json text).stringify frame = .ok (some text) :=
    if_pos hp
  simp [encodeLine, encodeChecked, serialise, hl, ha, hs, Nat.not_lt.mpr hfi,
    bind, Except.bind, Except.mapError, pure, Except.pure]

def sampleText (rest : String) : String :=
  "\x7b\"type\":\"req\",\"id\":\"a-1\",\"method\":\"fs.read\"" ++ rest ++ "\x7d"

def sampleRequest (params : JsAny) : JsAny :=
  requestFrame (js "a-1") (js "fs.read") params

/-- A runtime for that request. -/
noncomputable def sampleRuntime (params : JsAny) (text : String) : Runtime :=
  .ofDocument ((sampleRequest params).project.getD .undefined) text

/-- A request with `null` for its params goes through. -/
theorem encodeLine_decodes_null :
    ∃ runtime line, Runtime.Documented runtime ∧
      encodeLine runtime (sampleRequest .null) none = .ok line ∧ Decodes runtime line none := by
  have documented : (sampleRuntime .null (sampleText ",\"params\":null")).Documented :=
    documented_ofDocument (by decide +kernel) (by decide +kernel) (by decide +kernel)
  have he : encodeLine (sampleRuntime .null (sampleText ",\"params\":null"))
      (sampleRequest .null) none = .ok (sampleText ",\"params\":null" ++ "\n") :=
    encodeLine_ofDocument rfl (by decide +kernel) (by decide +kernel)
  exact ⟨_, _, documented, he,
    ((encodeLine_decodes_iff documented none).2.1 _ _ _ _ he).mpr rfl⟩

/-- `session.request('fs.read', undefined)` writes a line that every peer refuses. -/
theorem undefined_params_refused :
    ∃ runtime, Runtime.Documented runtime ∧
      encodeLine runtime (sampleRequest .undefined) none = .ok (sampleText "" ++ "\n") ∧
      ¬Decodes runtime (sampleText "" ++ "\n") none := by
  have documented : (sampleRuntime .undefined (sampleText "")).Documented :=
    documented_ofDocument (by decide +kernel) (by decide +kernel) (by decide +kernel)
  have he : encodeLine (sampleRuntime .undefined (sampleText "")) (sampleRequest .undefined)
      none = .ok (sampleText "" ++ "\n") :=
    encodeLine_ofDocument rfl (by decide +kernel) (by decide +kernel)
  refine ⟨_, documented, he, ?_⟩
  rw [decodes_iff_carried documented he, sampleRequest, carried_requestFrame]
  exact Bool.noConfusion

end MangoProtocol.TypeScript
