import MangoProtocol.ProofKit.Members
import MangoProtocol.TypeScript.JsString

/-! JSON values as the TypeScript package holds them.  An object keeps its members in an order, and
two values are the same JSON whatever that order is.  A read of a member also finds what every
object inherits. -/

namespace MangoProtocol.TypeScript

open ProofKit

/-- The type `Json`.  No number is a negative zero. -/
inductive JsonValue where
  | null
  | bool (value : Bool)
  | number (value : ℚ)
  | string (text : JsString)
  | array (entries : List JsonValue)
  | object (members : List (JsString × JsonValue))

/-- The type `JsonObject`. -/
abbrev JsonMembers := List (JsString × JsonValue)

namespace JsonValue

/-- The names of the functions that every object inherits.  A read of one of them gives the
function unless the object has a member of that name. -/
def inheritedNames : List JsString :=
  ["constructor", "hasOwnProperty", "isPrototypeOf", "propertyIsEnumerable", "toLocaleString",
    "toString", "valueOf", "__defineGetter__", "__defineSetter__", "__lookupGetter__",
    "__lookupSetter__"].map js

def protoName : JsString := js "__proto__"

/-! ### Weights and induction -/

section Weight

variable (heavy : JsString → Nat)

mutual

/-- How many values there are inside a value, itself among them, with the members weighed by their
names. -/
def weight : JsonValue → Nat
  | .array entries => 1 + entriesWeight entries
  | .object members => 1 + membersWeight members
  | _ => 1

def entriesWeight : List JsonValue → Nat
  | [] => 0
  | entry :: entries => weight entry + entriesWeight entries

def membersWeight : JsonMembers → Nat
  | [] => 0
  | (name, value) :: members => heavy name + weight value + membersWeight members

end

theorem weight_array (entries : List JsonValue) :
    weight heavy (.array entries) = 1 + (entries.map (weight heavy)).sum := by
  have he : entriesWeight heavy entries = (entries.map (weight heavy)).sum := by
    induction entries with
    | nil => rfl
    | cons entry entries ih => rw [entriesWeight, ih, List.map_cons, List.sum_cons]
  rw [weight, he]

theorem weight_object (members : JsonMembers) :
    weight heavy (.object members) =
      1 + (members.map fun member => heavy member.1 + weight heavy member.2).sum := by
  have hm : membersWeight heavy members =
      (members.map fun member => heavy member.1 + weight heavy member.2).sum := by
    induction members with
    | nil => rfl
    | cons member members ih => rw [membersWeight, ih, List.map_cons, List.sum_cons]
  rw [weight, hm]

variable {heavy}

theorem weight_pos (value : JsonValue) : 0 < weight heavy value := by
  cases value <;> simp [weight]

end Weight

/-! ### The same JSON -/

inductive Plain : JsonValue → Prop
  | null : Plain .null
  | bool (value : Bool) : Plain (.bool value)
  | number (value : ℚ) : Plain (.number value)
  | string (text : JsString) : Plain (.string text)
  | array {entries : List JsonValue} (inside : ∀ entry ∈ entries, Plain entry) :
    Plain (.array entries)
  | object {members : JsonMembers} (distinct : (Members.names members).Nodup)
    (unprototyped : protoName ∉ Members.names members)
    (inside : ∀ member ∈ members, Plain member.2) : Plain (.object members)

inductive Same : JsonValue → JsonValue → Prop
  | null : Same .null .null
  | bool (value : Bool) : Same (.bool value) (.bool value)
  | number (value : ℚ) : Same (.number value) (.number value)
  | string (text : JsString) : Same (.string text) (.string text)
  | array {entries others : List JsonValue} (length : entries.length = others.length)
    (entry : ∀ (index : Nat) entry other, entries[index]? = some entry →
      others[index]? = some other → Same entry other) : Same (.array entries) (.array others)
  | object {members others : JsonMembers}
    (names : ∀ name, name ∈ Members.names members ↔ name ∈ Members.names others)
    (member : ∀ name value other, (name, value) ∈ members → (name, other) ∈ others →
      Same value other) : Same (.object members) (.object others)

theorem Plain.refl {value : JsonValue} (h : value.Plain) : Same value value := by
  induction h with
  | null => exact .null
  | bool value => exact .bool value
  | number value => exact .number value
  | string text => exact .string text
  | array _ ih =>
    refine .array rfl fun index entry other he ho => ?_
    cases he.symm.trans ho
    exact ih entry (List.mem_of_getElem? he)
  | object hd _ _ ih =>
    refine .object (fun _ => Iff.rfl) fun name value other hv ho => ?_
    cases (Members.find_of_mem hd hv).symm.trans
      (Members.find_of_mem hd ho)
    exact ih _ hv

theorem Plain.same_of_perm {members others : JsonMembers} (h : Plain (.object members))
    (hp : members.Perm others) : Same (.object members) (.object others) := by
  cases h.refl with
  | object _ hm =>
    refine .object (fun name => (hp.map _).mem_iff) fun name value other hv ho => ?_
    exact hm name value other hv (hp.mem_iff.mpr ho)

theorem Same.weight_eq {heavy : JsString → Nat} {value other : JsonValue} (h : Same value other)
    (hv : value.Plain) (ho : other.Plain) : weight heavy value = weight heavy other := by
  induction h with
  | null => rfl
  | bool value => rfl
  | number value => rfl
  | string text => rfl
  | @array entries others hl _ ih =>
    cases hv with
    | array hent =>
      cases ho with
      | array hot =>
        have hs : entries.map (weight heavy) = others.map (weight heavy) := by
          refine List.ext_getElem? fun index => ?_
          rw [List.getElem?_map, List.getElem?_map]
          by_cases hi : index < entries.length
          · have he := List.getElem?_eq_getElem hi
            have hf := List.getElem?_eq_getElem (hl ▸ hi)
            rw [he, hf, Option.map_some, Option.map_some, ih index _ _ he hf
              (hent _ (List.mem_of_getElem? he)) (hot _ (List.mem_of_getElem? hf))]
          · rw [List.getElem?_eq_none (Nat.not_lt.mp hi),
              List.getElem?_eq_none (hl ▸ Nat.not_lt.mp hi)]
        rw [weight_array, weight_array, hs]
  | object hn _ ih =>
    cases hv with
    | object hd _ hins =>
      cases ho with
      | object hd' _ hi' =>
        rw [weight_object, weight_object, Members.sum_eq _ hd hd' hn]
        intro name value other hv ho
        rw [ih name value other hv ho (hins _ hv) (hi' _ ho)]

end JsonValue

end MangoProtocol.TypeScript
