import MangoProtocol.TypeScript.JsString

/-! Values of the language, what `JSON.stringify` makes of them, and the TypeBox schemas of the
package.  `Value.Check` reads the value in memory and the wire carries its projection: where the
two readings agree, a schema that accepts a value accepts its projection unless a member of an
unknown type is left out of it. -/

namespace MangoProtocol.TypeScript

inductive JsNumber where
  | finite (value : ℚ)
  | negativeZero
  | notFinite

/-- The number, where it is one. -/
def JsNumber.value? : JsNumber → Option ℚ
  | .finite value => some value
  | .negativeZero => some 0
  | .notFinite => none

/-- A value as a reader finds it.  A value that holds a `bigint` or itself is left out:
`JSON.stringify` throws for it. -/
inductive JsAny where
  | undefined
  | null
  | bool (value : Bool)
  | number (value : JsNumber)
  | string (text : JsString)
  | symbol
  | function
  | array (length : Nat) (get : Nat → JsAny)
  | object (has : JsString → Bool) (get : JsString → JsAny)
  /-- A value that `JSON.stringify` finds something else in than a reader does: one with a
  `toJSON`, a boxed primitive, an accessor, a proxy, members that are inherited. -/
  | converted (seen found : JsAny)

namespace JsAny

/-- The plain object with these members. -/
def ofMembers (members : List (JsString × JsAny)) : JsAny :=
  .object (fun key => members.any (·.1 == key))
    fun key => ((members.find? (·.1 == key)).map Prod.snd).getD .undefined

/-- What a reader finds. -/
def seen : JsAny → JsAny
  | .converted value _ => value.seen
  | value => value

def isConverted : JsAny → Bool
  | .converted _ _ => true
  | _ => false

def isUndefined (value : JsAny) : Bool :=
  match value.seen with
  | .undefined => true
  | _ => false

/-- `typeof value === 'object'`, and neither `null` nor an array. -/
def isObject (value : JsAny) : Bool :=
  match value.seen with
  | .object _ _ => true
  | _ => false

def asString (value : JsAny) : Option JsString :=
  match value.seen with
  | .string text => some text
  | _ => none

def asNumber (value : JsAny) : Option ℚ :=
  match value.seen with
  | .number held => held.value?
  | _ => none

def isTrue (value : JsAny) : Bool :=
  match value.seen with
  | .bool true => true
  | _ => false

/-- The member of an object, if it is there. -/
def member (value : JsAny) (key : JsString) : Option JsAny :=
  match value.seen with
  | .object has get => if has key then some (get key) else none
  | _ => none

/-! ### The projection -/

/-- `JSON.parse` of the text that `JSON.stringify` writes, or none where it leaves the value out. -/
def project : JsAny → Option JsAny
  | .undefined | .symbol | .function => none
  | .null => some .null
  | .bool value => some (.bool value)
  | .number held => some (held.value?.elim .null fun value => .number (.finite value))
  | .string text => some (.string text)
  | .array length get =>
    some (.array length fun index => if index < length then (get index).project.getD .null
      else .undefined)
  | .object has get =>
    some (.object (fun key => has key && (get key).project.isSome)
      fun key => if has key then (get key).project.getD .undefined else .undefined)
  | .converted _ found => found.project

def omitted : JsAny → Bool
  | .undefined | .symbol | .function => true
  | .converted _ found => found.omitted
  | _ => false

theorem isNone_project (value : JsAny) : value.project.isNone = value.omitted := by
  induction value with
  | converted seen found _ ih => exact ih
  | undefined | null | bool | number | string | symbol | function | array | object => rfl

theorem project_plain {value json : JsAny} (h : value.project = some json) :
    json.isConverted = false ∧ json.isUndefined = false := by
  induction value with
  | converted seen found _ ih => exact ih h
  | undefined | symbol | function => cases h
  | number held =>
    cases h
    cases held with
    | finite value => exact ⟨rfl, rfl⟩
    | negativeZero => exact ⟨rfl, rfl⟩
    | notFinite => exact ⟨rfl, rfl⟩
  | null | bool | string | array | object =>
    cases h
    exact ⟨rfl, rfl⟩

theorem member_project {value json : JsAny} (hp : value.isConverted = false)
    (h : value.project = some json) (key : JsString) :
    json.member key = (value.member key).bind project := by
  cases value with
  | converted seen found => cases hp
  | undefined | symbol | function => cases h
  | number held =>
    cases h
    cases held with
    | finite value => rfl
    | negativeZero => rfl
    | notFinite => rfl
  | null | bool | string | array =>
    cases h
    rfl
  | object ha get =>
    cases h
    cases hh : ha key with
    | false => simp [member, seen, hh]
    | true =>
      cases hg : (get key).project with
      | none => simp [member, seen, hh, hg]
      | some found => simp [member, seen, hh, hg]

end JsAny

/-! ### Schemas -/

/-- The schemas of TypeBox that the frames use.  An object with declared members is the object with
one member less, and one more. -/
inductive JsSchema where
  | unknown
  | openObject
  | string (test : JsString → Bool)
  | integer (minimum : Nat) (maximum : Option Nat)
  | literalTrue
  | member (key : JsString) (optional : Bool) (schema rest : JsSchema)

namespace JsSchema

/-- `Type.Object`. -/
def object (members : List (String × Bool × JsSchema)) : JsSchema :=
  members.foldr (fun (key, optional, schema) rest =>
    .member (js key) optional schema rest) .openObject

/-- `Value.Check`.  A required member has to be there, and an optional one may be `undefined`. -/
def check : JsSchema → JsAny → Bool
  | .unknown, _ => true
  | .openObject, value => value.isObject
  | .string test, value => value.asString.any test
  | .integer minimum maximum, value =>
    value.asNumber.any fun number => number.den == 1 && decide ((minimum : Int) ≤ number.num) &&
      maximum.all fun most => decide (number.num ≤ (most : Int))
  | .literalTrue, value => value.isTrue
  | .member key optional schema rest, value =>
    (match value.member key with
      | none => optional
      | some found => optional && found.isUndefined || schema.check found) && rest.check value

/-- `JSON.stringify` finds what the check reads, wherever it looks. -/
def steady : JsSchema → JsAny → Bool
  | .unknown, _ => true
  | .openObject, value | .string _, value | .integer _ _, value | .literalTrue, value =>
    !value.isConverted
  | .member key _ schema rest, value =>
    !value.isConverted && (value.member key).all schema.steady && rest.steady value

def kept : JsSchema → JsAny → Bool
  | .unknown, value => !value.omitted
  | .openObject, _ | .string _, _ | .integer _ _, _ | .literalTrue, _ => true
  | .member key optional schema rest, value =>
    (value.member key).all (fun found => optional && found.omitted || schema.kept found) &&
      rest.kept value

def closed : JsSchema → Bool
  | .unknown => false
  | .openObject | .string _ | .integer _ _ | .literalTrue => true
  | .member _ _ schema rest => schema.closed && rest.closed

theorem kept_of_closed {schema : JsSchema} (h : schema.closed = true) (value : JsAny) :
    schema.kept value = true := by
  induction schema generalizing value with
  | unknown => cases h
  | openObject | string | integer | literalTrue => rfl
  | member key optional schema rest ihSchema ihRest =>
    obtain ⟨hs, hr⟩ := (Bool.and_eq_true _ _).mp h
    simp only [kept, ihRest hr, Bool.and_true, ihSchema hs, Bool.or_true]
    cases value.member key <;> rfl

theorem kept_object (members : List (String × Bool × JsSchema)) (value : JsAny) :
    (object members).kept value = members.all fun entry =>
      entry.2.2.closed || (value.member (js entry.1)).all fun found =>
        entry.2.1 && found.omitted || entry.2.2.kept found := by
  induction members with
  | nil => rfl
  | cons entry members ih =>
    rw [List.all_cons, ← ih]
    change ((value.member _).all _ && (object members).kept value) = _
    congr 1
    cases hc : entry.2.2.closed with
    | false => rfl
    | true =>
      simp only [kept_of_closed hc, Bool.or_true]
      cases value.member (js entry.1) <;> rfl

theorem project_of_isUndefined {schema : JsSchema} {value : JsAny} (h : value.isUndefined = true)
    (hs : schema.steady value = true) : schema.check value = true ∨ value.project = none := by
  have hp : schema.check value = true ∨ value.isConverted = false := by
    cases schema with
    | unknown => exact .inl rfl
    | openObject | string | integer | literalTrue => exact .inr (by simpa [steady] using hs)
    | member key optional schema rest =>
      simp only [steady, Bool.and_eq_true, Bool.not_eq_true'] at hs
      exact .inr hs.1.1
  refine hp.imp id fun hp => ?_
  cases value with
  | undefined => rfl
  | converted => cases hp
  | null | bool | number | string | symbol | function | array | object => cases h

theorem check_member {schema : JsSchema} {optional : Bool} {found : JsAny}
    (ih : schema.check found = true → schema.steady found = true →
      found.project.any schema.check = schema.kept found)
    (hm : (optional && found.isUndefined || schema.check found) = true)
    (hs : schema.steady found = true) :
    (match found.project with
      | none => optional
      | some json => optional && json.isUndefined || schema.check json) =
      (optional && found.omitted || schema.kept found) := by
  rw [← JsAny.isNone_project]
  cases hp : found.project with
  | none => grind
  | some json =>
    have hc : schema.check found = true := by
      simp only [Bool.or_eq_true, Bool.and_eq_true] at hm
      rcases hm with ⟨-, hu⟩ | hc
      · refine (project_of_isUndefined hu hs).resolve_right ?_
        rw [hp]
        exact Option.some_ne_none json
      · exact hc
    have hk := ih hc hs
    rw [hp] at hk
    simpa [(JsAny.project_plain hp).2] using hk

/-- A value that a schema accepts and `JSON.stringify` reads alike: the projection is accepted
exactly when nothing that is required is left out. -/
theorem check_project (schema : JsSchema) : ∀ {value : JsAny}, schema.check value = true →
    schema.steady value = true → value.project.any schema.check = schema.kept value := by
  induction schema with
  | unknown =>
    intro value _ _
    simp only [kept, ← JsAny.isNone_project]
    cases value.project <;> rfl
  | openObject =>
    intro value hc hs
    cases value with
    | converted => cases hs
    | object ha get => rfl
    | undefined | null | bool | number | string | symbol | function | array => cases hc
  | string test =>
    intro value hc hs
    cases value with
    | converted => cases hs
    | string text => exact hc
    | undefined | null | bool | number | symbol | function | array | object => cases hc
  | integer minimum maximum =>
    intro value hc hs
    cases value with
    | converted => cases hs
    | number held =>
      cases held with
      | finite number => exact hc
      | negativeZero => exact hc
      | notFinite => cases hc
    | undefined | null | bool | string | symbol | function | array | object => cases hc
  | literalTrue =>
    intro value hc hs
    cases value with
    | converted => cases hs
    | bool value => exact hc
    | undefined | null | number | string | symbol | function | array | object => cases hc
  | member key optional schema rest ihSchema ihRest =>
    intro value hc hs
    simp only [check, Bool.and_eq_true] at hc
    simp only [steady, Bool.and_eq_true, Bool.not_eq_true'] at hs
    obtain ⟨hm, hre⟩ := hc
    obtain ⟨⟨hpl, hst⟩, hste⟩ := hs
    have hr := ihRest hre hste
    cases hp : value.project with
    | none =>
      rw [hp] at hr
      simp [kept, ← hr]
    | some json =>
      rw [hp] at hr
      simp only [Option.any_some] at hr ⊢
      simp only [check, kept, hr, JsAny.member_project hpl hp]
      congr 1
      cases hf : value.member key with
      | none =>
        rw [hf] at hm
        exact hm
      | some found =>
        rw [hf] at hm hst
        exact check_member ihSchema hm hst

end JsSchema

end MangoProtocol.TypeScript
