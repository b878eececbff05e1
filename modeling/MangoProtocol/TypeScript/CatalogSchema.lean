import MangoProtocol.Catalog
import MangoProtocol.Schema
import MangoProtocol.TypeScript.Frames

/-! The catalog schema of the TypeScript package, and the documents that it accepts among those the
crate writes.  A catalog that passes `Catalog::validate` is written as such a document, unless it
names a protocol version of major zero: the schema has a minimum there and the validator no rule. -/

namespace MangoProtocol.TypeScript

/-! ### Schemas -/

/-- The TypeBox schemas of the catalog, by the keywords they list.  An object with declared members
is the object with one member less, and one more. -/
inductive DocumentSchema where
  | string (schema : StringSchema)
  | integer (schema : IntegerSchema)
  | boolean
  | openObject
  | array (items : DocumentSchema) (uniqueItems : Bool)
  | member (key : String) (optional : Bool) (schema rest : DocumentSchema)

namespace DocumentSchema

/-- `Type.Object`. -/
def object (members : List (String × Bool × DocumentSchema)) : DocumentSchema :=
  members.foldr (fun (key, optional, schema) rest => .member key optional schema rest) .openObject

/-- The value of a member, if it is there. -/
def lookup (members : List (String × Json)) (key : String) : Option Json :=
  (members.find? (·.1 == key)).map Prod.snd

def find (key : String) : Json → Option Json
  | .object members => lookup members key
  | _ => none

/-- The document satisfies every keyword.  No number of a catalog is negative or a double. -/
def Accepts : DocumentSchema → Json → Prop
  | .string schema, .string value => schema.Accepts value
  | .integer schema, .number (.posInt value) => schema.Accepts value.toNat
  | .boolean, .bool _ => True
  | .openObject, .object _ => True
  | .array items uniqueItems, .array values =>
    (∀ value ∈ values, items.Accepts value) ∧ (uniqueItems = true → values.Nodup)
  | .member key optional schema rest, document =>
    (match find key document with
      | none => optional = true
      | some found => schema.Accepts found) ∧ rest.Accepts document
  | _, _ => False

end DocumentSchema

/-- The source of `METHOD_PATTERN`. -/
def methodPattern : String :=
  "^[a-z](?:[a-z0-9-]*[a-z0-9])?(?:\\.[a-z](?:[a-z0-9-]*[a-z0-9])?)+$"

/-- `MethodSchema` and `TopicSchema`. -/
def methodDocument : DocumentSchema :=
  .string ⟨methodMinLength, some methodMaxLength, some methodPattern⟩

def descriptionDocument : DocumentSchema := .string ⟨0, none, none⟩

def catalogMethodSchema : DocumentSchema :=
  .object [("name", false, methodDocument), ("description", true, descriptionDocument),
    ("params", false, .openObject), ("result", false, .openObject),
    ("capabilities", true, .array (.string ⟨1, none, none⟩) true), ("deprecated", true, .boolean)]

def catalogEventSchema : DocumentSchema :=
  .object [("topic", false, methodDocument), ("description", true, descriptionDocument),
    ("payload", false, .openObject), ("stream", true, .boolean)]

def protocolVersionDocument : DocumentSchema :=
  .object [("major", false, .integer ⟨1, none⟩), ("minor", false, .integer ⟨0, none⟩)]

def catalogSchema : DocumentSchema :=
  .object [("name", false, .string ⟨1, some peerFieldMaxLength, none⟩),
    ("version", false, .string ⟨1, some peerFieldMaxLength, none⟩),
    ("description", true, descriptionDocument), ("protocol", true, protocolVersionDocument),
    ("methods", false, .array catalogMethodSchema false),
    ("events", true, .array catalogEventSchema false), ("capabilities", true, .openObject)]

/-! ### Members of a written document -/

namespace DocumentSchema

/-- A member of an object, as it was found. -/
def Fits (optional : Bool) (schema : DocumentSchema) : Option Json → Prop
  | none => optional = true
  | some found => schema.Accepts found

@[simp] theorem fits_some {schema : DocumentSchema} {optional : Bool} {found : Json} :
    schema.Fits optional (some found) ↔ schema.Accepts found :=
  Iff.rfl

@[simp] theorem fits_map {α : Type} {schema : DocumentSchema} {value : Option α}
    {write : α → Json} :
    schema.Fits true (value.map write) ↔ ∀ given ∈ value, schema.Accepts (write given) := by
  cases value <;> simp [Fits]

theorem object_accepts {schemas : List (String × Bool × DocumentSchema)}
    {members : List (String × Json)} :
    (object schemas).Accepts (.object members) ↔
      ∀ entry ∈ schemas, entry.2.2.Fits entry.2.1 (lookup members entry.1) := by
  induction schemas with
  | nil => simp [object, Accepts]
  | cons entry schemas ih =>
    rw [List.forall_mem_cons, ← ih]
    change (match lookup members entry.1 with
      | none => entry.2.1 = true
      | some found => entry.2.2.Accepts found) ∧ _ ↔ _
    cases lookup members entry.1 <;> rfl

@[simp] theorem lookup_cons (name key : String) (value : Json) (members : List (String × Json)) :
    lookup ((name, value) :: members) key =
      if name == key then some value else lookup members key := by
  by_cases h : name == key <;> simp [lookup, h]

@[simp] theorem lookup_append (first second : List (String × Json)) (key : String) :
    lookup (first ++ second) key = (lookup first key).or (lookup second key) := by
  rw [lookup, List.find?_append, Option.map_or]
  rfl

@[simp] theorem lookup_optional {α : Type} (name key : String) (value : Option α)
    (write : α → Json) :
    lookup (optional name value write) key = if name == key then value.map write else none := by
  cases value with
  | none => simp [optional, lookup]
  | some value => by_cases h : name == key <;> simp [optional, lookup, h]

end DocumentSchema

/-! ### What the crate writes -/

open DocumentSchema

theorem methodDocument_accepts {name : String} (h : isValidMethodName name = true) :
    methodDocument.Accepts (.string name) :=
  (isValidMethodName_iff name).mp h

theorem descriptionDocument_accepts (text : String) : descriptionDocument.Accepts (.string text) :=
  StringSchema.accepts_least.mpr (Nat.zero_le _)

theorem openObject_accepts {document : Value} (h : document.isObject = true) :
    DocumentSchema.openObject.Accepts document.json := by
  obtain ⟨json, canonical⟩ := document
  cases json with
  | object members => trivial
  | null | bool | number | string | array => cases h

theorem capabilities_accepts {names : List String} (hn : ∀ name ∈ names, name ≠ "")
    (hd : names.Nodup) :
    (DocumentSchema.array (.string ⟨1, none, none⟩) true).Accepts (.array (names.map .string)) := by
  have hi : Function.Injective Json.string := fun _ _ h => Json.string.inj h
  refine ⟨fun value hv => ?_, fun _ => hd.map hi⟩
  obtain ⟨name, hna, rfl⟩ := List.mem_map.mp hv
  refine StringSchema.accepts_least.mpr (Nat.pos_of_ne_zero fun hl => ?_)
  exact hn name hna (String.length_eq_zero_iff.mp hl)

theorem mem_unlessEmpty {α : Type} {items found : List α} (h : found ∈ unlessEmpty items) :
    found = items := by
  obtain ⟨-, heq⟩ := Option.ite_none_left_eq_some.mp h
  exact (Option.some.inj heq).symm

theorem catalogMethod_accepts {method : CatalogMethod} (h : method.Valid) :
    catalogMethodSchema.Accepts method.serialize := by
  have hm : catalogMethodSchema.Accepts method.serialize ↔
      methodDocument.Accepts (.string method.name) ∧
        (∀ text ∈ method.description, descriptionDocument.Accepts (.string text)) ∧
        DocumentSchema.openObject.Accepts method.params.json ∧
        DocumentSchema.openObject.Accepts method.result.json ∧
        (∀ names ∈ unlessEmpty method.capabilities,
          (DocumentSchema.array (.string ⟨1, none, none⟩) true).Accepts
            (.array (names.map .string))) ∧
        ∀ flag ∈ unlessDefault method.deprecated, DocumentSchema.boolean.Accepts (.bool flag) := by
    simp [catalogMethodSchema, CatalogMethod.serialize, object_accepts]
  refine hm.mpr ⟨methodDocument_accepts h.name, fun text _ => descriptionDocument_accepts text,
    openObject_accepts h.params, openObject_accepts h.result, fun names hn => ?_,
    fun _ _ => trivial⟩
  rw [mem_unlessEmpty hn]
  exact capabilities_accepts h.named h.distinct

theorem catalogEvent_accepts {event : CatalogEvent} (h : event.Valid) :
    catalogEventSchema.Accepts event.serialize := by
  have hm : catalogEventSchema.Accepts event.serialize ↔
      methodDocument.Accepts (.string event.topic) ∧
        (∀ text ∈ event.description, descriptionDocument.Accepts (.string text)) ∧
        DocumentSchema.openObject.Accepts event.payload.json ∧
        ∀ flag ∈ unlessDefault event.stream, DocumentSchema.boolean.Accepts (.bool flag) := by
    simp [catalogEventSchema, CatalogEvent.serialize, object_accepts]
  exact hm.mpr ⟨methodDocument_accepts h.topic, fun text _ => descriptionDocument_accepts text,
    openObject_accepts h.payload, fun _ _ => trivial⟩

theorem protocolVersion_accepts_iff {version : MangoProtocol.ProtocolVersion} :
    protocolVersionDocument.Accepts version.serialize ↔ 1 ≤ version.major.toNat := by
  have hm : protocolVersionDocument.Accepts version.serialize ↔
      (DocumentSchema.integer ⟨1, none⟩).Accepts (.u64 version.major.toUInt64) ∧
        (DocumentSchema.integer ⟨0, none⟩).Accepts (.u64 version.minor.toUInt64) := by
    simp [protocolVersionDocument, MangoProtocol.ProtocolVersion.serialize, object_accepts]
  have hma : (DocumentSchema.integer ⟨1, none⟩).Accepts (.u64 version.major.toUInt64) ↔
      1 ≤ version.major.toUInt64.toNat := IntegerSchema.accepts_least
  have hmi : (DocumentSchema.integer ⟨0, none⟩).Accepts (.u64 version.minor.toUInt64) :=
    IntegerSchema.accepts_least.mpr (Nat.zero_le _)
  rw [hm, hma, UInt32.toNat_toUInt64, and_iff_left hmi]

theorem catalogSchema_members (catalog : Catalog) :
    catalogSchema.Accepts catalog.serialize ↔
      (DocumentSchema.string ⟨1, some peerFieldMaxLength, none⟩).Accepts (.string catalog.name) ∧
        (DocumentSchema.string ⟨1, some peerFieldMaxLength, none⟩).Accepts
          (.string catalog.version) ∧
        (∀ text ∈ catalog.description, descriptionDocument.Accepts (.string text)) ∧
        (∀ version ∈ catalog.protocol, protocolVersionDocument.Accepts version.serialize) ∧
        (DocumentSchema.array catalogMethodSchema false).Accepts
          (.array (catalog.methods.map CatalogMethod.serialize)) ∧
        (∀ events ∈ unlessEmpty catalog.events,
          (DocumentSchema.array catalogEventSchema false).Accepts
            (.array (events.map CatalogEvent.serialize))) ∧
        ∀ document ∈ catalog.capabilities, DocumentSchema.openObject.Accepts document.json := by
  simp [catalogSchema, Catalog.serialize, object_accepts]

/-- A catalog that `Catalog::validate` passes is written as a document that the TypeScript schema
accepts, exactly when it names no protocol version of major zero. -/
theorem catalog_accepts_iff {platform : Platform} {catalog : Catalog}
    (h : catalog.validate platform = .ok ()) :
    catalogSchema.Accepts catalog.serialize ↔
      ∀ version ∈ catalog.protocol, 1 ≤ version.major.toNat := by
  have hv := Catalog.validate_eq_ok.mp h
  have hl : ∀ text : String, (1 ≤ text.length ∧ text.length ≤ maxNameChars) →
      (DocumentSchema.string ⟨1, some peerFieldMaxLength, none⟩).Accepts (.string text) :=
    fun text hle => StringSchema.accepts_bounds.mpr hle
  have hm : (DocumentSchema.array catalogMethodSchema false).Accepts
      (.array (catalog.methods.map CatalogMethod.serialize)) := by
    refine ⟨fun document hd => ?_, fun hu => by cases hu⟩
    obtain ⟨method, hme, rfl⟩ := List.mem_map.mp hd
    exact catalogMethod_accepts (hv.methods method hme)
  have he : (DocumentSchema.array catalogEventSchema false).Accepts
      (.array (catalog.events.map CatalogEvent.serialize)) := by
    refine ⟨fun document hd => ?_, fun hu => by cases hu⟩
    obtain ⟨event, hev, rfl⟩ := List.mem_map.mp hd
    exact catalogEvent_accepts (hv.events event hev)
  rw [catalogSchema_members]
  constructor
  · rintro ⟨-, -, -, hp, -⟩ version hve
    exact protocolVersion_accepts_iff.mp (hp version hve)
  · intro hp
    refine ⟨hl _ hv.name, hl _ hv.version,
      fun text _ => descriptionDocument_accepts text,
      fun version hve => protocolVersion_accepts_iff.mpr (hp version hve),
      hm, fun events hf => ?_,
      fun document hd => openObject_accepts (hv.capabilities document hd)⟩
    rw [mem_unlessEmpty hf]
    exact he

/-- A contract with one method and one event. -/
def fixtureContract (protocol : MangoProtocol.ProtocolVersion) : Catalog where
  name := "fixture-contract"
  version := "1.0.0"
  description := none
  protocol := some protocol
  methods := [⟨"text.echo", none, .ofJson (.object []), .ofJson (.object []), ["echo"], false⟩]
  events := [⟨"text.stream", none, .ofJson (.object []), true⟩]
  capabilities := none

theorem fixtureContract_valid (protocol : MangoProtocol.ProtocolVersion) :
    (fixtureContract protocol).Valid := by
  have hn : 1 ≤ "fixture-contract".length ∧ "fixture-contract".length ≤ maxNameChars := by
    decide +kernel
  have hv : 1 ≤ "1.0.0".length ∧ "1.0.0".length ≤ maxNameChars := by decide +kernel
  refine ⟨hn, hv, ?_, ?_, fun document hd => by cases hd⟩
  · refine List.forall_mem_singleton.mpr ⟨by decide +kernel, rfl, rfl, ?_, List.nodup_singleton _⟩
    exact List.forall_mem_singleton.mpr (by decide)
  · exact List.forall_mem_singleton.mpr ⟨by decide +kernel, rfl⟩

theorem catalog_accepts_iff_fixture :
    (fixtureContract ⟨1, 0⟩).validate (tablePlatform []) = .ok () ∧
      catalogSchema.Accepts (fixtureContract ⟨1, 0⟩).serialize := by
  have hv : (fixtureContract ⟨1, 0⟩).validate (tablePlatform []) = .ok () :=
    Catalog.validate_eq_ok.mpr (fixtureContract_valid ⟨1, 0⟩)
  refine ⟨hv, (catalog_accepts_iff hv).mpr fun version hve => ?_⟩
  cases hve
  decide

/-- The same contract with version 0.0 passes the validator, and the schema refuses it. -/
theorem version_zero_refused :
    (fixtureContract ⟨0, 0⟩).validate (tablePlatform []) = .ok () ∧
      ¬catalogSchema.Accepts (fixtureContract ⟨0, 0⟩).serialize := by
  refine ⟨Catalog.validate_eq_ok.mpr (fixtureContract_valid ⟨0, 0⟩), fun ha => ?_⟩
  obtain ⟨-, -, -, hp, -⟩ := (catalogSchema_members _).mp ha
  exact absurd (protocolVersion_accepts_iff.mp (hp ⟨0, 0⟩ rfl)) (by decide)

end MangoProtocol.TypeScript
