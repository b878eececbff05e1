import MangoProtocol.TypeScript.CatalogSchema
import MangoProtocol.TypeScript.FrameProjection

/-! The TypeBox schemas of the package stand in three forms: the check of a typed frame, the check
of any value of the language, and the schemas of the catalog over its documents.  A typed frame
passes exactly when its object does, and where two schemas are one, a document passes exactly when
the value that `JSON.parse` makes of it does. -/

namespace MangoProtocol.TypeScript

variable {count : JsString → Nat} {frame : JsAny}

/-! ### The typed frames -/

/-- The object with those of the members that are there. -/
def record (members : List (String × Option JsAny)) : JsAny :=
  .ofMembers (members.filterMap fun entry => entry.2.map (js entry.1, ·))

def natural (value : Nat) : JsAny := .number (.finite value)

/-- The members of a typed frame in memory; `value` is what its open members hold. -/
def Frame.values (value : JsValue → JsAny) : Frame → List (String × Option JsAny)
  | .hello frame =>
    [("protocol", record [("major", natural frame.protocol.major),
        ("minor", natural frame.protocol.minor)]),
      ("peer", record [("name", JsAny.string frame.peer.name),
        ("version", JsAny.string frame.peer.version), ("role", JsAny.string frame.peer.role)]),
      ("capabilities", value frame.capabilities),
      ("limits", frame.limits.map fun limits =>
        record [("maxFrameBytes", limits.maxFrameBytes.map natural),
          ("maxInFlight", limits.maxInFlight.map natural)])]
  | .req id method params =>
    [("id", JsAny.string id), ("method", JsAny.string method), ("params", value params)]
  | .res id result => [("id", JsAny.string id), ("result", value result)]
  | .err id error =>
    [("id", JsAny.string id),
      ("error", record [("code", JsAny.string error.code), ("message", JsAny.string error.message),
        ("details", error.details.map value)])]
  | .evt topic seq streamId payload ends =>
    [("topic", JsAny.string topic), ("seq", natural seq), ("streamId", streamId.map .string),
      ("payload", value payload), ("end", if ends then some (.bool true) else none)]
  | .cancel id => [("id", JsAny.string id)]
  | .ping | .pong => []
  | .close code reason => [("code", natural code), ("reason", reason.map .string)]

/-- The typed frame in memory. -/
def Frame.object (value : JsValue → JsAny) (self : Frame) : JsAny :=
  record (("type", JsAny.string (js self.type)) :: self.values value)

/-- The members whose schema is an open object hold one. -/
def Frame.opens (value : JsValue → JsAny) : Frame → Bool
  | .hello frame => (value frame.capabilities).isObject
  | .err _ error =>
    error.details.all fun details => (value details).isUndefined || (value details).isObject
  | _ => true

namespace JsSchema

def fits (optional : Bool) (schema : JsSchema) : Option JsAny → Bool
  | none => optional
  | some found => optional && found.isUndefined || schema.check found

theorem check_object (members : List (String × Bool × JsSchema)) (value : JsAny) :
    (object members).check value = (members.all (fun entry =>
      entry.2.2.fits entry.2.1 (value.member (js entry.1))) && value.isObject) := by
  induction members with
  | nil => rfl
  | cons entry members ih =>
    rw [List.all_cons, Bool.and_assoc, ← ih]
    rfl

end JsSchema

theorem JsAny.member_ofMembers_cons (name key : JsString) (found : JsAny)
    (members : List (JsString × JsAny)) :
    (ofMembers ((name, found) :: members)).member key =
      if name = key then some found else (ofMembers members).member key := by
  by_cases h : name = key
  · simp [ofMembers, member, seen, h]
  · have hk : (name == key) = false := beq_false_of_ne h
    simp only [ofMembers, member, seen, List.any_cons, List.find?_cons, hk, Bool.false_or, if_neg h]

@[simp] theorem member_record_cons (name key : String) (held : Option JsAny)
    (members : List (String × Option JsAny)) :
    (record ((name, held) :: members)).member (js key) =
      if name = key then held.or ((record members).member (js key))
      else (record members).member (js key) := by
  cases held with
  | none => simp [record]
  | some found =>
    simp [record, JsAny.member_ofMembers_cons, JsString.js_injective.eq_iff]

@[simp] theorem member_record_nil (key : JsString) : (record []).member key = none := rfl

@[simp] theorem isObject_record (members : List (String × Option JsAny)) :
    (record members).isObject = true := rfl

@[simp] theorem isUndefined_record (members : List (String × Option JsAny)) :
    (record members).isUndefined = false := rfl

@[simp] theorem check_natural {low : Nat} {high : Option Nat} (value : Nat) :
    (JsSchema.integer low high).check (natural value) =
      (decide (low ≤ value) && high.all fun most => decide (value ≤ most)) := by
  cases high <;> simp [JsSchema.check, natural, JsAny.asNumber, JsAny.seen, JsNumber.value?]

@[simp] theorem isUndefined_natural (value : Nat) : (natural value).isUndefined = false := rfl

@[simp] theorem check_string (test : JsString → Bool) (text : JsString) :
    (JsSchema.string test).check (.string text) = test text := rfl

@[simp]
theorem isUndefined_string (text : JsString) : (JsAny.string text).isUndefined = false := rfl

theorem isFrame_eq_check {entry : String × List (String × Bool × JsSchema)}
    (he : entry ∈ frameMembers count) (ht : frameTypeOf frame = some (js entry.1)) :
    isFrame count frame = (frameSchema entry.1 entry.2).check frame := by
  rw [Bool.eq_iff_iff]
  constructor
  · intro hf
    obtain ⟨other, ho, hc⟩ := List.any_eq_true.mp hf
    cases frame_unique he ho hc ht
    exact hc
  · exact fun hc => List.any_eq_true.mpr ⟨entry, he, hc⟩

theorem frameTypeOf_object (value : JsValue → JsAny) (frame : Frame) :
    frameTypeOf (frame.object value) = some (js frame.type) := by
  rw [frameTypeOf, Frame.object, member_record_cons]
  rfl

namespace JsSchema

variable {schema : JsSchema}

@[simp] theorem fits_required (found : JsAny) :
    schema.fits false (some found) = schema.check found := rfl

@[simp] theorem fits_optional {α : Type} (held : Option α) (write : α → JsAny) :
    schema.fits true (held.map write) =
      held.all fun given => (write given).isUndefined || schema.check (write given) := by
  cases held <;> rfl

@[simp] theorem check_unknown (value : JsAny) : unknown.check value = true := rfl

@[simp] theorem check_openObject (value : JsAny) : openObject.check value = value.isObject := rfl

@[simp] theorem fits_absent : schema.fits true none = true := rfl

end JsSchema

theorem isFrame_typed (value : JsValue → JsAny) (frame : Frame) (index : Nat)
    {entry : String × List (String × Bool × JsSchema)}
    (he : (frameMembers count)[index]? = some entry) (ht : entry.1 = frame.type) :
    isFrame count (frame.object value) = entry.2.all fun member => member.2.2.fits member.2.1
      ((frame.object value).member (js member.1)) := by
  have hf := frameTypeOf_object value frame
  rw [← ht] at hf
  rw [isFrame_eq_check (List.mem_of_getElem? he) hf, frameSchema, JsSchema.check_object,
    List.all_cons]
  simp [Frame.object, ht]

/-- `Value.Check` of a frame in memory is the check of the typed frame, where its open objects are
objects. -/
theorem isFrame_object (value : JsValue → JsAny) (frame : Frame) :
    isFrame count (frame.object value) = (frame.isFrame count && frame.opens value) := by
  cases frame with
  | hello frame =>
    have hl (limits : Limits) : limitsSchema.check (record
        [("maxFrameBytes", limits.maxFrameBytes.map natural),
          ("maxInFlight", limits.maxInFlight.map natural)]) = limits.isValid := by
      simp [limitsSchema, JsSchema.check_object, Limits.isValid]
    rw [isFrame_typed value _ 0 rfl rfl]
    simp [Frame.object, protocolVersionSchema, peerInfoSchema, JsSchema.check_object, Frame.values,
      Frame.isFrame, Frame.opens, peerFieldSchema, roleSchema, PeerInfo.isValid, hl, Bool.and_assoc,
      Bool.and_comm (value frame.capabilities).isObject]
  | req id method params =>
    rw [isFrame_typed value _ 1 rfl rfl]
    simp [Frame.object, Frame.values, idSchema, methodSchema, Frame.isFrame, Frame.opens]
  | res id result =>
    rw [isFrame_typed value _ 2 rfl rfl]
    simp [Frame.object, Frame.values, idSchema, Frame.isFrame, Frame.opens]
  | err id error =>
    rw [isFrame_typed value _ 3 rfl rfl]
    simp [Frame.object, Frame.values, idSchema, Frame.isFrame, Frame.opens, errorPayloadSchema,
      errorCodeSchema, ErrorPayload.isValid, JsSchema.check_object, Bool.and_assoc]
  | evt topic seq streamId payload ends =>
    have hb : JsSchema.literalTrue.fits true (some (.bool true)) = true := rfl
    rw [isFrame_typed value _ 4 rfl rfl]
    cases ends <;>
      simp [Frame.object, Frame.values, idSchema, methodSchema, Frame.isFrame, Frame.opens, hb]
  | cancel id =>
    rw [isFrame_typed value _ 5 rfl rfl]
    simp [Frame.object, Frame.values, idSchema, Frame.isFrame, Frame.opens]
  | ping => exact isFrame_typed value _ 6 rfl rfl
  | pong => exact isFrame_typed value _ 7 rfl rfl
  | close code reason =>
    have hc : closeCodeSchema.check (natural code) = isCloseCode code := check_natural code
    rw [isFrame_typed value _ 8 rfl rfl]
    simp [Frame.object, Frame.values, closeReasonSchema, Frame.isFrame, Frame.opens, hc]

/-! ### Documents -/

/-- The value that `JSON.parse` makes of a document of the catalog. -/
inductive Parsed : Json → JsAny → Prop where
  | null : Parsed .null .null
  | bool (value : Bool) : Parsed (.bool value) (.bool value)
  | integer (value : UInt64) :
      Parsed (.number (.posInt value)) (.number (.finite (value.toNat : ℚ)))
  | string (text : String) : Parsed (.string text) (.string (js text))
  | array {items : List Json} {get : Nat → JsAny}
      (held : ∀ index item, items[index]? = some item → Parsed item (get index)) :
      Parsed (.array items) (.array items.length get)
  | object {members : List (String × Json)} {has : JsString → Bool} {get : JsString → JsAny}
      (listed : ∀ key, has (js key) = (DocumentSchema.lookup members key).isSome)
      (held : ∀ key found, DocumentSchema.lookup members key = some found →
        Parsed found (get (js key))) :
      Parsed (.object members) (.object has get)

/-- One schema, as the catalog and as the frames have it. -/
inductive OneSchema : DocumentSchema → JsSchema → Prop where
  | string {schema : StringSchema} {test : JsString → Bool}
      (h : ∀ text, schema.Accepts text ↔ test (js text) = true) :
      OneSchema (.string schema) (.string test)
  | integer (low : Nat) (high : Option Nat) : OneSchema (.integer ⟨low, high⟩) (.integer low high)
  | openObject : OneSchema .openObject .openObject
  | member (key : String) (optional : Bool) {schema rest : DocumentSchema} {check others : JsSchema}
      (hs : OneSchema schema check) (hr : OneSchema rest others) :
      OneSchema (.member key optional schema rest)
        (.member (js key) optional check others)

variable {schema : DocumentSchema} {check : JsSchema} {document : Json} {value : JsAny}

theorem Parsed.isUndefined (h : Parsed document value) : value.isUndefined = false := by
  cases h <;> rfl

/-- A member of the document is a member of the value. -/
theorem Parsed.member (h : Parsed document value) (key : String) :
    match DocumentSchema.find key document with
    | none => value.member (js key) = none
    | some found =>
      ∃ held, value.member (js key) = some held ∧ Parsed found held := by
  cases h with
  | @object members _ _ listed held =>
    change match DocumentSchema.lookup members key with | none => _ | some found => _
    have hl := listed key
    cases hf : DocumentSchema.lookup members key with
    | none =>
      rw [hf] at hl
      exact if_neg (by rw [hl]; exact Bool.false_ne_true)
    | some found =>
      rw [hf] at hl
      exact ⟨_, if_pos hl, held key found hf⟩
  | null | bool | integer | string | array => rfl

/-- One schema accepts a document exactly when it accepts the value that is parsed from it. -/
theorem OneSchema.accepts_iff (hs : OneSchema schema check) (hp : Parsed document value) :
    schema.Accepts document ↔ check.check value = true := by
  induction hs generalizing document value with
  | string h =>
    cases hp with
    | string text => exact h text
    | null | bool | integer | array | object => exact ⟨False.elim, fun h => by cases h⟩
  | integer low high =>
    cases hp with
    | integer number =>
      have hc : (JsSchema.integer low high).check (.number (.finite (number.toNat : ℚ))) =
        _ := check_natural number.toNat
      rw [hc, Bool.and_eq_true, decide_eq_true_eq]
      refine ⟨fun h => ⟨h.minimum, ?_⟩, fun h => ⟨h.1, fun most hm => ?_⟩⟩
      · cases high with
        | none => rfl
        | some most => exact decide_eq_true (h.maximum most rfl)
      · cases hm
        exact of_decide_eq_true h.2
    | null | bool | string | array | object => exact ⟨False.elim, fun h => by cases h⟩
  | openObject =>
    cases hp with
    | object => exact ⟨fun _ => rfl, fun _ => trivial⟩
    | null | bool | integer | string | array => exact ⟨False.elim, fun h => by cases h⟩
  | member key optional _ _ ihs ihr =>
    have hm := hp.member key
    rw [JsSchema.check, Bool.and_eq_true, ← ihr hp]
    change (match DocumentSchema.find key document with
      | none => optional = true
      | some found => _) ∧ _ ↔ _
    refine and_congr_left fun _ => ?_
    cases hf : DocumentSchema.find key document with
    | none =>
      rw [hf] at hm
      simp [show value.member (js key) = none from hm]
    | some found =>
      rw [hf] at hm
      obtain ⟨held, hh, hpa⟩ := hm
      simp [hh, hpa.isUndefined, ihs hpa]

theorem protocolVersion_oneSchema : OneSchema protocolVersionDocument protocolVersionSchema :=
  .member "major" false (.integer 1 none) (.member "minor" false (.integer 0 none) .openObject)

theorem peerField_oneSchema :
    OneSchema (.string ⟨1, some peerFieldMaxLength, none⟩) (peerFieldSchema schemaLength) := by
  refine .string fun text => ?_
  rw [StringSchema.accepts_bounds, lengthWithin, schemaLength_js, Bool.and_eq_true,
    decide_eq_true_eq, decide_eq_true_eq]

/-- The catalog reads a protocol version and a name as the frames do. -/
theorem shared_accepts_iff (h : Parsed document value) :
    (protocolVersionDocument.Accepts document ↔ protocolVersionSchema.check value = true) ∧
      ((DocumentSchema.string ⟨1, some peerFieldMaxLength, none⟩).Accepts document ↔
        (peerFieldSchema schemaLength).check value = true) :=
  ⟨protocolVersion_oneSchema.accepts_iff h, peerField_oneSchema.accepts_iff h⟩

end MangoProtocol.TypeScript
