import MangoProtocol.ProofKit.Fallible
import MangoProtocol.TypeScript.JsonValue

/-! `normalizeSchema`: a JSON Schema brought into the form in which two emitters are compared.  At
each object it strips the `null` alternative, inlines a reference and starts over, and otherwise
normalises the members, in the order of their names. -/

namespace MangoProtocol.TypeScript.JsonValue

open ProofKit

/-! ### The rules -/

def droppedKeys : List JsString :=
  ["$schema", "$id", "title", "description", "$comment", "examples", "format"].map js

def schemaMapKeys : List JsString :=
  ["properties", "patternProperties", "dependentSchemas", "$defs", "definitions"].map
    js

def typeKey : JsString := js "type"

def anyOfKey : JsString := js "anyOf"

def oneOfKey : JsString := js "oneOf"

def refKey : JsString := js "$ref"

def additionalKey : JsString := js "additionalProperties"

def isString (value : JsonValue) (text : String) : Bool :=
  match value with
  | .string found => found == js text
  | _ => false

def isObject : JsonValue → Bool
  | .object _ => true
  | _ => false

/-- The members of an object. -/
def members? : JsonValue → Option JsonMembers
  | .object members => some members
  | _ => none

def tagOf (branch : JsonValue) : Option JsString := do
  let schema ← branch.members?
  let properties ← (Members.find schema (js "properties")).bind members?
  let tag ← (Members.find properties typeKey).bind members?
  match Members.find tag (js "const") with
  | some (.string text) => some text
  | _ => none

/-- The loop of `isConstTaggedUnion`: the tags seen, if every branch has one and no two share it. -/
def tagsFrom (tags : List JsString) : List JsonValue → Option (List JsString)
  | [] => some tags
  | branch :: branches =>
    match tagOf branch with
    | none => none
    | some tag => if tag ∈ tags then none else tagsFrom (tags ++ [tag]) branches

def isConstTaggedUnion (branches : List JsonValue) : Bool :=
  match tagsFrom [] branches with
  | none => false
  | some tags => decide (0 < tags.length)

def isNullBranch (branch : JsonValue) : Bool :=
  match branch with
  | .object schema => ((Members.find schema typeKey).map (isString · "null")).getD false
  | _ => false

/-- Removes the `null` alternative. -/
def stripNullAlternative (schema : JsonMembers) : JsonMembers :=
  match Members.find schema typeKey with
  | some (.array entries) =>
    match entries.filter (!isString · "null") with
    | [only] => Members.assign schema typeKey only
    | types => Members.assign schema typeKey (.array types)
  | _ =>
    match Members.find schema anyOfKey with
    | some (.array [first, second]) =>
      match [first, second].filter (!isNullBranch ·) with
      | [.object only] => Members.merge (Members.without schema anyOfKey) only
      | _ => schema
    | _ => schema

/-! ### References -/

inductive DefinitionRead where
  | nullish
  | value (value : JsonValue)
  | function

/-- `definitions[name]`.  Where there is no member of that name, `__proto__` gives the prototype of
all objects, which lists no members. -/
def readDefinition (definitions : JsonMembers) (name : JsString) : DefinitionRead :=
  match Members.find definitions name with
  | some .null => .nullish
  | some value => .value value
  | none =>
    if name = protoName then .value (.object [])
    else if name ∈ inheritedNames then .function
    else .nullish

/-- `ref.replace(/^#\/\$defs\//, '')`. -/
def localName (ref : JsString) : JsString :=
  let front := js "#/$defs/"
  if front <+: ref then ref.drop front.length else ref

def DefinitionRead.members? : DefinitionRead → Option JsonMembers
  | .value held => held.members?
  | .nullish | .function => none

def referenced (definitions : JsonMembers) (ref : JsString) : Option JsonMembers :=
  match readDefinition definitions ref with
  | .nullish => (readDefinition definitions (localName ref)).members?
  | found => found.members?

inductive NormalizeError where
  | unresolvable (message : JsString)
  | callStack
  deriving DecidableEq

def inlineReference (schema : JsonMembers) (ref : JsString) (definitions : JsonMembers) :
    Except NormalizeError JsonMembers :=
  match referenced definitions ref with
  | none => .error (.unresolvable (js "unresolvable $ref " ++ ref ++
      js "; expected a #/$defs entry or a merged cross-file key"))
  | some target => .ok (Members.merge target (Members.without schema refKey))

/-- The reference of a schema. -/
def reference? (schema : JsonMembers) : Option JsString :=
  match Members.find schema refKey with
  | some (.string ref) => some ref
  | _ => none

/-! ### The pass -/

/-- The members as `Object.keys(…).sort()` lists them: by the code units of their names. -/
def sorted (members : JsonMembers) : JsonMembers :=
  members.insertionSort fun first second => first.1 ≤ second.1

/-- The object after assignments in order.  An assignment to `__proto__` makes no member. -/
def collect (assigned : List (Option (JsString × JsonValue))) : JsonMembers :=
  Members.merge [] ((assigned.filterMap id).filter (·.1 ≠ protoName))

section Pass

variable (normalize : JsonValue → Except NormalizeError JsonValue)

def normalizeSchemaMap (map : JsonMembers) : Except NormalizeError JsonMembers := do
  let assigned ← (sorted map).mapM fun member => do return (member.1, ← normalize member.2)
  return collect (assigned.map some)

/-- One turn of the loop over the members: the assignment that it makes, if any. -/
def normalizeMember (member : JsString × JsonValue) :
    Except NormalizeError (Option (JsString × JsonValue)) :=
  if member.1 ∈ droppedKeys then return none
  else
    match member.2 with
    | .bool true =>
      if member.1 = additionalKey then return none
      else do return some (member.1, ← normalize (.bool true))
    | .array entries =>
      if member.1 = anyOfKey && isConstTaggedUnion entries then
        do return some (oneOfKey, ← normalize (.array entries))
      else do return some (member.1, ← normalize (.array entries))
    | .object map =>
      if member.1 ∈ schemaMapKeys then
        do return some (member.1, .object (← normalizeSchemaMap normalize map))
      else do return some (member.1, ← normalize (.object map))
    | value => do return some (member.1, ← normalize value)

end Pass

def normalizeSchema (definitions : JsonMembers) : Nat → JsonValue → Except NormalizeError JsonValue
  | 0, _ => .error .callStack
  | depth + 1, .array entries => do
    return .array (← entries.mapM (normalizeSchema definitions depth))
  | depth + 1, .object schema =>
    let stripped := stripNullAlternative schema
    match reference? stripped with
    | some ref => do
      normalizeSchema definitions depth (.object (← inlineReference stripped ref definitions))
    | none => do
      let assigned ← (sorted stripped).mapM (normalizeMember (normalizeSchema definitions depth))
      return .object (collect assigned)
  | _ + 1, schema => return schema

end MangoProtocol.TypeScript.JsonValue
