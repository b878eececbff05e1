import MangoProtocol.Validate

/-! The catalog of an application: its methods, events and capabilities, the document it is written
as, and the rules that `Catalog::validate` applies to it. -/

namespace MangoProtocol

structure CatalogMethod where
  name : String
  description : Option String
  params : Value
  result : Value
  capabilities : List String
  deprecated : Bool

structure CatalogEvent where
  topic : String
  description : Option String
  payload : Value
  stream : Bool

structure Catalog where
  name : String
  version : String
  description : Option String
  protocol : Option ProtocolVersion
  methods : List CatalogMethod
  events : List CatalogEvent
  capabilities : Option Value

/-! ### The document -/

def unlessEmpty {α : Type} (items : List α) : Option (List α) :=
  if items.isEmpty then none else some items

def isDefaultFlag (flag : Bool) : Bool := !flag

/-- A flag, unless it is at the value that the document leaves out. -/
def unlessDefault (flag : Bool) : Option Bool := if isDefaultFlag flag then none else some flag

def CatalogMethod.serialize (self : CatalogMethod) : Json :=
  .object ([("name", .string self.name)] ++ optional "description" self.description .string ++
    [("params", self.params.json), ("result", self.result.json)] ++
    optional "capabilities" (unlessEmpty self.capabilities)
      (fun names => .array (names.map .string)) ++
    optional "deprecated" (unlessDefault self.deprecated) .bool)

def CatalogEvent.serialize (self : CatalogEvent) : Json :=
  .object ([("topic", .string self.topic)] ++ optional "description" self.description .string ++
    [("payload", self.payload.json)] ++ optional "stream" (unlessDefault self.stream) .bool)

def Catalog.serialize (self : Catalog) : Json :=
  .object ([("name", .string self.name), ("version", .string self.version)] ++
    optional "description" self.description .string ++
    optional "protocol" self.protocol ProtocolVersion.serialize ++
    [("methods", .array (self.methods.map CatalogMethod.serialize))] ++
    optional "events" (unlessEmpty self.events)
      (fun events => .array (events.map CatalogEvent.serialize)) ++
    optional "capabilities" self.capabilities Value.json)

/-! ### The rules -/

/-- `Display` of a number. -/
def Number.toText : Number → String
  | .posInt value => value.toNat.repr
  | .negInt value _ _ => "-" ++ value.natAbs.repr
  | .float text _ => text

/-- The type of a value, for an error message. -/
def describeJson (value : Value) : String :=
  match value.json with
  | .null => "null"
  | .bool value => "the boolean " ++ (if value then "true" else "false")
  | .number value => "the number " ++ value.toText
  | .string _ => "a string"
  | .array values => "an array of " ++ values.length.repr ++ " items"
  | .object _ => "an object"

def Value.isObject (self : Value) : Bool :=
  match self.json with
  | .object _ => true
  | _ => false

def checkName (field value : String) : Except ValidationError Unit :=
  require (decide (1 ≤ value.length ∧ value.length ≤ maxNameChars))
    ⟨field, "a string of " ++ value.length.repr ++ " characters",
      "a string of 1 to " ++ maxNameChars.repr ++ " characters"⟩

def checkDocument (field : String) (document : Value) : Except ValidationError Unit :=
  require document.isObject
    ⟨field, describeJson document,
      "a JSON Schema 2020-12 document, which catalog.json requires to be an object"⟩

/-- A loop over the items from an index on, up to the first that breaks a rule. -/
def checkEach {α : Type} (check : Nat → α → Except ValidationError Unit) :
    Nat → List α → Except ValidationError Unit
  | _, [] => .ok ()
  | index, item :: items => do
    check index item
    checkEach check (index + 1) items

/-- The field of an entry of a list. -/
def entryField (field : String) (index : Nat) : String := field ++ "[" ++ index.repr ++ "]"

section Platform

variable (platform : Platform)

/-- One turn of the loop over the required capabilities: the name is not empty, and it differs from
those before it. -/
def checkCapability (field : String) (names : List String) (index : Nat) (name : String) :
    Except ValidationError Unit := do
  require (!name.isEmpty)
    ⟨entryField field index, "an empty string", "a capability name of at least one character"⟩
  require (!(names.take index).contains name)
    ⟨entryField field index,
      debugText platform.printable name ++ ", already named earlier in the list",
      "a capability name distinct from every other in the list"⟩

def checkCapabilities (field : String) (names : List String) : Except ValidationError Unit :=
  checkEach (checkCapability platform field names) 0 names

def checkGrammar (field value : String) : Except ValidationError Unit :=
  require (isValidMethodName value)
    ⟨field, debugText platform.printable value,
      "at least two dot-separated lowercase segments, at most " ++ maxNameChars.repr ++
        " characters"⟩

/-- One turn of the loop over the methods. -/
def checkMethod (index : Nat) (method : CatalogMethod) : Except ValidationError Unit := do
  let field := entryField "catalog.methods" index
  checkGrammar platform (field ++ ".name") method.name
  checkDocument (field ++ ".params") method.params
  checkDocument (field ++ ".result") method.result
  checkCapabilities platform (field ++ ".capabilities") method.capabilities

/-- One turn of the loop over the events. -/
def checkEvent (index : Nat) (event : CatalogEvent) : Except ValidationError Unit := do
  let field := entryField "catalog.events" index
  checkGrammar platform (field ++ ".topic") event.topic
  checkDocument (field ++ ".payload") event.payload

/-- The rules of the catalog schema that the types cannot express. -/
def Catalog.validate (self : Catalog) : Except ValidationError Unit := do
  checkName "catalog.name" self.name
  checkName "catalog.version" self.version
  checkEach (checkMethod platform) 0 self.methods
  checkEach (checkEvent platform) 0 self.events
  match self.capabilities with
  | some capabilities => checkDocument "catalog.capabilities" capabilities
  | none => .ok ()

end Platform

/-! ### What passes -/

variable {field value : String} {names : List String} {index : Nat}

theorem checkEach_eq_ok {α : Type} {check : Nat → α → Except ValidationError Unit} {fit : α → Prop}
    (hc : ∀ index item, check index item = .ok () ↔ fit item) {items : List α} :
    checkEach check index items = .ok () ↔ ∀ item ∈ items, fit item := by
  induction items generalizing index with
  | nil => simp [checkEach]
  | cons item items ih =>
    rw [checkEach, check_bind_eq_ok, hc, ih, List.forall_mem_cons]

variable {platform : Platform}

theorem checkName_eq_ok :
    checkName field value = .ok () ↔ 1 ≤ value.length ∧ value.length ≤ maxNameChars := by
  simp [checkName]

theorem checkDocument_eq_ok {document : Value} :
    checkDocument field document = .ok () ↔ document.isObject = true :=
  require_eq_ok

theorem checkGrammar_eq_ok :
    checkGrammar platform field value = .ok () ↔ isValidMethodName value = true :=
  require_eq_ok

theorem checkCapability_eq_ok {name : String} :
    checkCapability platform field names index name = .ok () ↔
      name ≠ "" ∧ name ∉ names.take index := by
  rw [checkCapability, check_bind_eq_ok, require_eq_ok, require_eq_ok]
  simp

theorem checkCapabilities_from {before : List String} (h : before.Nodup) :
    checkEach (checkCapability platform field (before ++ names)) before.length names = .ok () ↔
      (∀ name ∈ names, name ≠ "") ∧ (before ++ names).Nodup := by
  induction names generalizing before with
  | nil => simp [checkEach, h]
  | cons name names ih =>
    have ha : before ++ name :: names = before ++ [name] ++ names := by simp
    have hl : before.length + 1 = (before ++ [name]).length := by simp
    have ht : (before ++ name :: names).take before.length = before := List.take_left
    rw [checkEach, check_bind_eq_ok, checkCapability_eq_ok, ht]
    by_cases hm : name ∈ before
    · grind
    · have hn : (before ++ [name]).Nodup := by
        refine List.nodup_append.mpr ⟨h, List.nodup_singleton name, ?_⟩
        intro other ho same hs heq
        rw [List.mem_singleton.mp hs] at heq
        exact hm (heq ▸ ho)
      rw [ha, hl, ih hn, List.forall_mem_cons]
      simp [hm, and_assoc]

theorem checkCapabilities_eq_ok :
    checkCapabilities platform field names = .ok () ↔
      (∀ name ∈ names, name ≠ "") ∧ names.Nodup :=
  checkCapabilities_from List.nodup_nil

/-- The rules on a method. -/
structure CatalogMethod.Valid (method : CatalogMethod) : Prop where
  name : isValidMethodName method.name = true
  params : method.params.isObject = true
  result : method.result.isObject = true
  named : ∀ name ∈ method.capabilities, name ≠ ""
  distinct : method.capabilities.Nodup

structure CatalogEvent.Valid (event : CatalogEvent) : Prop where
  topic : isValidMethodName event.topic = true
  payload : event.payload.isObject = true

/-- The rules on a catalog.  The protocol version has none. -/
structure Catalog.Valid (catalog : Catalog) : Prop where
  name : 1 ≤ catalog.name.length ∧ catalog.name.length ≤ maxNameChars
  version : 1 ≤ catalog.version.length ∧ catalog.version.length ≤ maxNameChars
  methods : ∀ method ∈ catalog.methods, method.Valid
  events : ∀ event ∈ catalog.events, event.Valid
  capabilities : ∀ capabilities ∈ catalog.capabilities, capabilities.isObject = true

theorem checkMethod_eq_ok (index : Nat) (method : CatalogMethod) :
    checkMethod platform index method = .ok () ↔ method.Valid := by
  simp only [checkMethod, check_bind_eq_ok, checkGrammar_eq_ok, checkDocument_eq_ok,
    checkCapabilities_eq_ok]
  exact ⟨fun h => ⟨h.1, h.2.1, h.2.2.1, h.2.2.2.1, h.2.2.2.2⟩,
    fun h => ⟨h.name, h.params, h.result, h.named, h.distinct⟩⟩

theorem checkEvent_eq_ok (index : Nat) (event : CatalogEvent) :
    checkEvent platform index event = .ok () ↔ event.Valid := by
  simp only [checkEvent, check_bind_eq_ok, checkGrammar_eq_ok, checkDocument_eq_ok]
  exact ⟨fun h => ⟨h.1, h.2⟩, fun h => ⟨h.topic, h.payload⟩⟩

theorem Catalog.validate_eq_ok {catalog : Catalog} :
    catalog.validate platform = .ok () ↔ catalog.Valid := by
  obtain ⟨name, version, description, protocol, methods, events, capabilities⟩ := catalog
  have hc : (match capabilities with
      | some capabilities => checkDocument "catalog.capabilities" capabilities
      | none => .ok ()) = .ok () ↔
      ∀ document ∈ capabilities, document.isObject = true := by
    cases capabilities with
    | none => simp
    | some capabilities => simp [checkDocument_eq_ok]
  simp only [Catalog.validate, check_bind_eq_ok, checkName_eq_ok,
    checkEach_eq_ok checkMethod_eq_ok, checkEach_eq_ok checkEvent_eq_ok]
  exact ⟨fun h => ⟨h.1, h.2.1, h.2.2.1, h.2.2.2.1, hc.mp h.2.2.2.2⟩,
    fun h => ⟨h.name, h.version, h.methods, h.events, hc.mpr h.capabilities⟩⟩

end MangoProtocol
