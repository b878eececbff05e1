import Mathlib.Data.String.Basic
import Mathlib.Tactic

/-! JSON as the crate meets it through `serde_json`: documents with their members in the order of
the text, the compact text `to_vec` writes for a document, and `Value` and `Map`, whose objects are
`BTreeMap`s and so hold each key once, in ascending order.  The parser of `serde_json` is not
defined here: the codec takes it as a parameter. -/

namespace MangoProtocol

/-- The UTF-8 bytes of a string. -/
def utf8 (s : String) : List UInt8 := s.toList.flatMap String.utf8EncodeChar

/-- The decimal digits of a number, in ASCII. -/
def decimal (n : Nat) : List UInt8 := utf8 n.repr

def isNumeral (c : Char) : Bool := c.isDigit || c == '-' || c == '+' || c == '.' || c == 'e'

/-- A number of `serde_json`.  A finite double is given by the text the writer prints for it. -/
inductive Number where
  | posInt (value : UInt64)
  | negInt (value : Int) (negative : value < 0) (inRange : -2 ^ 63 ≤ value)
  | float (text : String) (numerals : text.toList.all isNumeral = true)

inductive Json where
  | null
  | bool (value : Bool)
  | number (value : Number)
  | string (value : String)
  | array (items : List Json)
  | object (members : List (String × Json))

/-! ### The compact text -/

/-- A lowercase hexadecimal digit, in ASCII. -/
def hexDigit (n : Nat) : UInt8 := if n < 10 then UInt8.ofNat (48 + n) else UInt8.ofNat (87 + n)

/-- One character of a string, escaped as `serde_json` escapes it: the quote, the backslash and
the control characters below U+0020, and nothing else. -/
def escapeChar (c : Char) : List UInt8 :=
  if c.toNat = 34 then [92, 34]
  else if c.toNat = 92 then [92, 92]
  else if c.toNat = 8 then [92, 98]
  else if c.toNat = 12 then [92, 102]
  else if c.toNat = 10 then [92, 110]
  else if c.toNat = 13 then [92, 114]
  else if c.toNat = 9 then [92, 116]
  else if c.toNat < 32 then
    [92, 117, 48, 48, hexDigit (c.toNat / 16), hexDigit (c.toNat % 16)]
  else String.utf8EncodeChar c

/-- The text of a string between its quotes. -/
def escape (s : String) : List UInt8 := s.toList.flatMap escapeChar

/-- A string with its quotes. -/
def quoted (s : String) : List UInt8 := 34 :: (escape s ++ [34])

def Number.toVec : Number → List UInt8
  | .posInt value => decimal value.toNat
  | .negInt value _ _ => 45 :: decimal value.natAbs
  | .float text _ => utf8 text

mutual

def Json.toVec : Json → List UInt8
  | .null => utf8 "null"
  | .bool true => utf8 "true"
  | .bool false => utf8 "false"
  | .number value => value.toVec
  | .string value => quoted value
  | .array [] => [91, 93]
  | .array (item :: items) => 91 :: (item.toVec ++ Json.restItems items)
  | .object [] => [123, 125]
  | .object ((key, value) :: members) =>
    123 :: (quoted key ++ 58 :: (value.toVec ++ Json.restMembers members))

/-- The items after the first, each behind its comma, and the bracket that closes the array. -/
def Json.restItems : List Json → List UInt8
  | [] => [93]
  | item :: items => 44 :: (item.toVec ++ Json.restItems items)

/-- The members after the first, each behind its comma, and the brace that closes the object. -/
def Json.restMembers : List (String × Json) → List UInt8
  | [] => [125]
  | (key, value) :: members =>
    44 :: (quoted key ++ 58 :: (value.toVec ++ Json.restMembers members))

end

variable {members : List (String × Json)} {key : String} {value : Json} {c : Char}

theorem utf8EncodeChar_ge (h : 32 ≤ c.toNat) : ∀ b ∈ String.utf8EncodeChar c, 32 ≤ b.toNat := by
  intro b hb
  have hc : c.val.toNat = c.toNat := rfl
  simp only [String.utf8EncodeChar, hc] at hb
  split at hb
  · simp only [List.mem_cons, List.not_mem_nil, or_false] at hb
    subst hb
    simp; omega
  split at hb
  · simp only [List.mem_cons, List.not_mem_nil, or_false] at hb
    rcases hb with rfl | rfl <;> simp <;> omega
  split at hb
  · simp only [List.mem_cons, List.not_mem_nil, or_false] at hb
    rcases hb with rfl | rfl | rfl <;> simp <;> omega
  · simp only [List.mem_cons, List.not_mem_nil, or_false] at hb
    rcases hb with rfl | rfl | rfl | rfl <;> simp <;> omega

theorem hexDigit_ge (n : Nat) (h : n < 16) : 32 ≤ (hexDigit n).toNat := by
  unfold hexDigit
  split <;> simp <;> omega

theorem escapeChar_ge (c : Char) : ∀ b ∈ escapeChar c, 32 ≤ b.toNat := by
  unfold escapeChar
  repeat' split
  · simp
  · simp
  · simp
  · simp
  · simp
  · simp
  · simp
  · have h1 := hexDigit_ge (c.toNat / 16) (by omega)
    have h2 := hexDigit_ge (c.toNat % 16) (by omega)
    simp [h1, h2]
  · exact utf8EncodeChar_ge (by omega)

theorem escapeChar_length (c : Char) : 1 ≤ (escapeChar c).length ∧ (escapeChar c).length ≤ 6 := by
  unfold escapeChar
  repeat' split
  all_goals simp
  have := c.utf8Size_pos
  have := c.utf8Size_le_four
  omega

theorem utf8_ge {s : String} (h : ∀ c ∈ s.toList, 32 ≤ c.toNat) : ∀ b ∈ utf8 s, 32 ≤ b.toNat := by
  intro b hb
  obtain ⟨c, hc, hcb⟩ := List.mem_flatMap.mp hb
  exact utf8EncodeChar_ge (h c hc) b hcb

theorem isDigit_ge (h : c.isDigit = true) : 32 ≤ c.toNat := by
  simp only [Char.isDigit, ge_iff_le, Bool.and_eq_true, decide_eq_true_eq,
    UInt32.le_iff_toNat_le] at h
  have : c.val.toNat = c.toNat := rfl
  simp at h
  omega

theorem isNumeral_ge (h : isNumeral c = true) : 32 ≤ c.toNat := by
  simp only [isNumeral, Bool.or_eq_true, beq_iff_eq] at h
  rcases h with (((h | rfl) | rfl) | rfl) | rfl
  · exact isDigit_ge h
  all_goals decide

theorem decimal_ge (n : Nat) : ∀ b ∈ decimal n, 32 ≤ b.toNat := by
  apply utf8_ge
  intro c hc
  rw [Nat.toList_repr] at hc
  exact isDigit_ge (Nat.isDigit_of_mem_toDigits (by decide) (by decide) hc)

theorem Number.toVec_ge (n : Number) : ∀ b ∈ n.toVec, 32 ≤ b.toNat := by
  cases n with
  | posInt value => exact decimal_ge _
  | negInt value _ _ =>
    intro b hb
    rcases List.mem_cons.mp hb with rfl | hb
    · decide
    · exact decimal_ge _ b hb
  | float text numerals =>
    exact utf8_ge fun c hc => isNumeral_ge (List.all_eq_true.mp numerals c hc)

theorem quoted_ge (s : String) : ∀ b ∈ quoted s, 32 ≤ b.toNat := by
  intro b hb
  simp only [quoted, escape, List.mem_cons, List.mem_append, List.mem_flatMap,
    List.not_mem_nil, or_false] at hb
  rcases hb with rfl | ⟨c, -, hc⟩ | rfl
  · decide
  · exact escapeChar_ge c b hc
  · decide

mutual

theorem Json.toVec_ge : ∀ j : Json, ∀ b ∈ j.toVec, 32 ≤ b.toNat
  | .null | .bool true | .bool false => by
    simp only [Json.toVec]
    apply utf8_ge
    simp
  | .number value => by simpa only [Json.toVec] using value.toVec_ge
  | .string value => by simpa only [Json.toVec] using quoted_ge value
  | .array [] | .object [] => by simp [Json.toVec]
  | .array (item :: items) => by
    intro b hb
    simp only [Json.toVec, List.mem_cons, List.mem_append] at hb
    rcases hb with rfl | hb | hb
    · decide
    · exact item.toVec_ge b hb
    · exact Json.restItems_ge items b hb
  | .object ((key, value) :: members) => by
    intro b hb
    simp only [Json.toVec, List.mem_cons, List.mem_append] at hb
    rcases hb with rfl | hb | rfl | hb | hb
    · decide
    · exact quoted_ge key b hb
    · decide
    · exact value.toVec_ge b hb
    · exact Json.restMembers_ge members b hb

theorem Json.restItems_ge : ∀ items : List Json, ∀ b ∈ Json.restItems items, 32 ≤ b.toNat
  | [] => by simp [Json.restItems]
  | item :: items => by
    intro b hb
    simp only [Json.restItems, List.mem_cons, List.mem_append] at hb
    rcases hb with rfl | hb | hb
    · decide
    · exact item.toVec_ge b hb
    · exact Json.restItems_ge items b hb

theorem Json.restMembers_ge :
    ∀ members : List (String × Json), ∀ b ∈ Json.restMembers members, 32 ≤ b.toNat
  | [] => by simp [Json.restMembers]
  | (key, value) :: members => by
    intro b hb
    simp only [Json.restMembers, List.mem_cons, List.mem_append] at hb
    rcases hb with rfl | hb | rfl | hb | hb
    · decide
    · exact quoted_ge key b hb
    · decide
    · exact value.toVec_ge b hb
    · exact Json.restMembers_ge members b hb

end

/-! ### Values -/

/-- Members in strictly ascending order of their keys, as a `BTreeMap` holds them. -/
def Ascending (members : List (String × Json)) : Prop :=
  members.Pairwise fun first second => first.1 < second.1

mutual

def Json.Canonical : Json → Prop
  | .null | .bool _ | .number _ | .string _ => True
  | .array items => Json.CanonicalItems items
  | .object members => Ascending members ∧ Json.CanonicalMembers members

def Json.CanonicalItems : List Json → Prop
  | [] => True
  | item :: items => item.Canonical ∧ Json.CanonicalItems items

def Json.CanonicalMembers : List (String × Json) → Prop
  | [] => True
  | (_, value) :: members => value.Canonical ∧ Json.CanonicalMembers members

end

/-- `BTreeMap::insert`: `key` takes `value`, in place of the value it had. -/
def insertMember (key : String) (value : Json) : List (String × Json) → List (String × Json)
  | [] => [(key, value)]
  | (k, v) :: members =>
    if key < k then (key, value) :: (k, v) :: members
    else if key = k then (key, value) :: members
    else (k, v) :: insertMember key value members

mutual

/-- What `serde_json` reads a document into: each object becomes a `BTreeMap`, in which the last of
several members of one name stays. -/
def Json.normalize : Json → Json
  | .null => .null
  | .bool value => .bool value
  | .number value => .number value
  | .string value => .string value
  | .array items => .array (Json.normalizeItems items)
  | .object members => .object (Json.collect members [])

def Json.normalizeItems : List Json → List Json
  | [] => []
  | item :: items => item.normalize :: Json.normalizeItems items

def Json.collect : List (String × Json) → List (String × Json) → List (String × Json)
  | [], collected => collected
  | (key, value) :: members, collected =>
    Json.collect members (insertMember key value.normalize collected)

end

theorem mem_insertMember {member : String × Json} (h : member ∈ insertMember key value members) :
    member = (key, value) ∨ member ∈ members := by
  induction members with
  | nil => simpa [insertMember] using h
  | cons head members ih => grind [insertMember]

theorem insertMember_ascending (h : Ascending members) :
    Ascending (insertMember key value members) := by
  induction members with
  | nil => simp [insertMember, Ascending]
  | cons head members ih =>
    obtain ⟨k, v⟩ := head
    obtain ⟨hHead, hTail⟩ := List.pairwise_cons.mp h
    simp only [insertMember]
    split
    · rename_i hlt
      refine List.pairwise_cons.mpr ⟨fun member hm => ?_, h⟩
      rcases List.mem_cons.mp hm with rfl | hm
      · exact hlt
      · exact lt_trans hlt (hHead member hm)
    split
    · rename_i heq
      subst heq
      exact List.pairwise_cons.mpr ⟨hHead, hTail⟩
    · rename_i hn hne
      refine List.pairwise_cons.mpr ⟨fun member hm => ?_, ih hTail⟩
      rcases mem_insertMember hm with rfl | hm
      · exact lt_of_le_of_ne (not_lt.mp hn) (Ne.symm hne)
      · exact hHead member hm

theorem canonicalMembers_iff :
    Json.CanonicalMembers members ↔ ∀ member ∈ members, member.2.Canonical := by
  induction members with
  | nil => simp [Json.CanonicalMembers]
  | cons head members ih =>
    obtain ⟨k, v⟩ := head
    simp [Json.CanonicalMembers, ih]

theorem insertMember_canonical (hv : value.Canonical) (h : Json.CanonicalMembers members) :
    Json.CanonicalMembers (insertMember key value members) := by
  rw [canonicalMembers_iff] at h ⊢
  intro member hm
  rcases mem_insertMember hm with rfl | hm
  · exact hv
  · exact h member hm

theorem insertMember_append (h : ∀ member ∈ members, member.1 < key) :
    insertMember key value members = members ++ [(key, value)] := by
  induction members with
  | nil => rfl
  | cons head members ih => grind [insertMember]

mutual

theorem Json.normalize_canonical : ∀ j : Json, j.normalize.Canonical
  | .null | .bool _ | .number _ | .string _ => by simp only [Json.normalize, Json.Canonical]
  | .array items => by
    simpa only [Json.normalize, Json.Canonical] using Json.normalizeItems_canonical items
  | .object members => by
    simpa only [Json.normalize, Json.Canonical] using Json.collect_canonical members []
      ⟨List.Pairwise.nil, by simp only [Json.CanonicalMembers]⟩

theorem Json.normalizeItems_canonical :
    ∀ items : List Json, Json.CanonicalItems (Json.normalizeItems items)
  | [] => by simp only [Json.normalizeItems, Json.CanonicalItems]
  | item :: items => by
    simp only [Json.normalizeItems, Json.CanonicalItems]
    exact ⟨item.normalize_canonical, Json.normalizeItems_canonical items⟩

theorem Json.collect_canonical : ∀ members collected : List (String × Json),
    Ascending collected ∧ Json.CanonicalMembers collected →
    Ascending (Json.collect members collected) ∧
      Json.CanonicalMembers (Json.collect members collected)
  | [], collected, h => by simpa only [Json.collect] using h
  | (key, value) :: members, collected, h => by
    simp only [Json.collect]
    exact Json.collect_canonical members _ ⟨insertMember_ascending h.1,
      insertMember_canonical value.normalize_canonical h.2⟩

end

mutual

theorem Json.normalize_eq : ∀ j : Json, j.Canonical → j.normalize = j
  | .null, _ | .bool _, _ | .number _, _ | .string _, _ => by simp only [Json.normalize]
  | .array items, h => by
    simp only [Json.Canonical] at h
    rw [Json.normalize, Json.normalizeItems_eq items h]
  | .object members, h => by
    simp only [Json.Canonical] at h
    rw [Json.normalize, Json.collect_eq members [] h.1 h.2 (by simp), List.nil_append]

theorem Json.normalizeItems_eq :
    ∀ items : List Json, Json.CanonicalItems items → Json.normalizeItems items = items
  | [], _ => by simp only [Json.normalizeItems]
  | item :: items, h => by
    simp only [Json.CanonicalItems] at h
    rw [Json.normalizeItems, item.normalize_eq h.1, Json.normalizeItems_eq items h.2]

theorem Json.collect_eq : ∀ members collected : List (String × Json), Ascending members →
    Json.CanonicalMembers members →
    (∀ before ∈ collected, ∀ member ∈ members, before.1 < member.1) →
    Json.collect members collected = collected ++ members
  | [], collected, _, _, _ => by simp only [Json.collect, List.append_nil]
  | (key, value) :: members, collected, hAsc, hCan, hBelow => by
    obtain ⟨hHead, hTail⟩ := List.pairwise_cons.mp hAsc
    simp only [Json.CanonicalMembers] at hCan
    rw [Json.collect, value.normalize_eq hCan.1,
      insertMember_append fun before hb => hBelow before hb (key, value) (by simp),
      Json.collect_eq members _ hTail hCan.2, List.append_assoc, List.singleton_append]
    intro before hb member hm
    rcases List.mem_append.mp hb with hb | hb
    · exact hBelow before hb member (by simp [hm])
    · rw [List.mem_singleton.mp hb]
      exact hHead member hm

end

/-- A `serde_json::Value`. -/
structure Value where
  json : Json
  canonical : json.Canonical

/-- A `serde_json::Map`. -/
structure Map where
  members : List (String × Json)
  ascending : Ascending members
  canonical : Json.CanonicalMembers members

@[ext] theorem Value.ext {a b : Value} (h : a.json = b.json) : a = b := by
  cases a; cases b; simp_all

@[ext] theorem Map.ext {a b : Map} (h : a.members = b.members) : a = b := by
  cases a; cases b; simp_all

/-- The value a document is read into. -/
def Value.ofJson (j : Json) : Value := ⟨j.normalize, j.normalize_canonical⟩

@[simp] theorem Value.ofJson_json (v : Value) : Value.ofJson v.json = v :=
  Value.ext (v.json.normalize_eq v.canonical)

def Value.string (s : String) : Value := ⟨.string s, by simp only [Json.Canonical]⟩

def Value.u64 (n : UInt64) : Value :=
  ⟨.number (.posInt n), by simp only [Json.Canonical]⟩

/-- `Map::new`. -/
def Map.empty : Map := ⟨[], List.Pairwise.nil, by simp only [Json.CanonicalMembers]⟩

/-- `Map::insert`. -/
def Map.insert (m : Map) (key : String) (value : Value) : Map :=
  ⟨insertMember key value.json m.members, insertMember_ascending m.ascending,
    insertMember_canonical value.canonical m.canonical⟩

def Map.ofMembers (members : List (String × Json)) : Map :=
  have h := Json.collect_canonical members []
    ⟨List.Pairwise.nil, by simp only [Json.CanonicalMembers]⟩
  ⟨Json.collect members [], h.1, h.2⟩

@[simp] theorem Map.ofMembers_members (m : Map) : Map.ofMembers m.members = m :=
  Map.ext (by
    simp only [Map.ofMembers]
    rw [Json.collect_eq _ _ m.ascending m.canonical (by simp), List.nil_append])

end MangoProtocol
