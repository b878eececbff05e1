import MangoProtocol.TypeScript.SchemaNormalForm

/-! What stands at the positions of a schema once its references are inlined.  A second pass of
`normalizeSchema` changes the result of the first where inlining makes a rule apply that did not
apply before.  The conditions here are about the schema and its definitions, and a pass is compared
with them one schema at a time. -/

namespace MangoProtocol.TypeScript.JsonValue

open ProofKit

variable {definitions schema head left : JsonMembers} {value result : JsonValue} {depth : Nat}
  {member out : JsString × JsonValue} {name : JsString}

/-! ### Inlined schemas -/

/-- The members that a schema is read as: its `null` alternative is stripped and its reference is
inlined, until there is no reference. -/
inductive Inlines (definitions : JsonMembers) : JsonMembers → JsonMembers → Prop where
  | last {schema : JsonMembers} (hnone : reference? (stripNullAlternative schema) = none) :
    Inlines definitions schema (stripNullAlternative schema)
  | next {schema target head : JsonMembers} {ref : JsString}
    (href : reference? (stripNullAlternative schema) = some ref)
    (htarget : referenced definitions ref = some target)
    (hrest : Inlines definitions
      (Members.merge target (Members.without (stripNullAlternative schema) refKey)) head) :
    Inlines definitions schema head

theorem Inlines.unique {other : JsonMembers} (h : Inlines definitions schema head)
    (ho : Inlines definitions schema other) : head = other := by
  induction h with
  | last hn =>
    cases ho with
    | last => rfl
    | next hr => cases hn.symm.trans hr
  | next hr ht _ ih =>
    cases ho with
    | last hn => cases hn.symm.trans hr
    | next hr' ht' hi =>
      cases hr.symm.trans hr'
      cases ht.symm.trans ht'
      exact ih hi

def propertiesKey : JsString := js "properties"

def constKey : JsString := js "const"

/-- A branch that says `null` once its references are inlined. -/
def InlinedNull (definitions : JsonMembers) (branch : JsonValue) : Prop :=
  ∃ schema head, branch = .object schema ∧ Inlines definitions schema head ∧
    Members.find head typeKey = some (.string (js "null"))

/-- The tag that a branch has once its references are inlined. -/
def InlinedTag (definitions : JsonMembers) (branch : JsonValue) (tag : JsString) : Prop :=
  ∃ schema head properties inner tagged, branch = .object schema ∧
    Inlines definitions schema head ∧
    Members.find head propertiesKey = some (.object properties) ∧
    Members.find properties typeKey = some (.object inner) ∧
    Inlines definitions inner tagged ∧ Members.find tagged constKey = some (.string tag)

/-- Branches that all have a tag of their own once their references are inlined. -/
def InlinedUnion (definitions : JsonMembers) (branches : List JsonValue) : Prop :=
  ∃ tags, List.Forall₂ (InlinedTag definitions) branches tags ∧ tags.Nodup ∧ tags ≠ []

/-- Two schemas of which just one says `null`. -/
def OneNull (null : JsonValue → Prop) (branches : List JsonValue) : Prop :=
  ∃ first second, branches = [first, second] ∧ first.isObject = true ∧ second.isObject = true ∧
    ¬(null first ↔ null second)

/-- There is a type to take away, or just one in the list. -/
def Strippable (types : List JsonValue) : Prop :=
  types.length = 1 ∨ ∃ entry ∈ types, isString entry "null" = true

/-- No rule applies again to a schema that is read as `head`: it has no type to strip, and a union
that was not tagged has no `null` alternative and no tags once its branches are inlined. -/
structure RulesSpent (definitions head : JsonMembers) : Prop where
  types : ∀ entries, Members.find head typeKey = some (.array entries) → ¬Strippable entries
  alternative : (∀ entries, Members.find head typeKey ≠ some (.array entries)) →
    ∀ branches, Members.find head anyOfKey = some (.array branches) →
      isConstTaggedUnion branches = false → ¬OneNull (InlinedNull definitions) branches
  union : ∀ branches, Members.find head anyOfKey = some (.array branches) →
    isConstTaggedUnion branches = false → ¬InlinedUnion definitions branches

/-! ### Positions -/

/-- A tagged `anyOf` beside a `oneOf`: the pass assigns `oneOf` twice, and the union is lost. -/
structure Overwritten (head : JsonMembers) (member : JsString × JsonValue) : Prop where
  union : ∃ branches, member = (anyOfKey, .array branches) ∧ isConstTaggedUnion branches = true
  again : oneOfKey ∈ Members.names head

/-- The values of a member that are read as schemas. -/
def memberValues (member : JsString × JsonValue) : List JsonValue :=
  if member.1 ∈ droppedKeys then []
  else
    match member.2 with
    | .object map => if member.1 ∈ schemaMapKeys then map.map Prod.snd else [.object map]
    | value => [value]

/-- Somewhere in a value stands a schema that is read as `head`. -/
inductive Reads (definitions : JsonMembers) : JsonValue → JsonMembers → Prop where
  | entry {entries : List JsonValue} {entry : JsonValue} {head : JsonMembers}
    (hentry : entry ∈ entries) (h : Reads definitions entry head) :
    Reads definitions (.array entries) head
  | here {schema head : JsonMembers} (h : Inlines definitions schema head) :
    Reads definitions (.object schema) head
  | inside {schema outer head : JsonMembers} {member : JsString × JsonValue} {value : JsonValue}
    (houter : Inlines definitions schema outer) (hmember : member ∈ outer)
    (hkept : ¬Overwritten outer member) (hvalue : value ∈ memberValues member)
    (h : Reads definitions value head) : Reads definitions (.object schema) head

/-- No rule applies again at any position of a value. -/
def Spent (definitions : JsonMembers) (value : JsonValue) : Prop :=
  ∀ head, Reads definitions value head → RulesSpent definitions head

theorem spent_array {entries : List JsonValue} :
    Spent definitions (.array entries) ↔ ∀ entry ∈ entries, Spent definitions entry := by
  constructor
  · exact fun h entry he head hr => h head (.entry he hr)
  · intro h head hr
    cases hr with
    | entry he hr => exact h _ he head hr

theorem spent_object (h : Inlines definitions schema head) :
    Spent definitions (.object schema) ↔ RulesSpent definitions head ∧
      ∀ member ∈ head, ¬Overwritten head member →
        ∀ value ∈ memberValues member, Spent definitions value := by
  constructor
  · refine fun hs => ⟨hs head (.here h), fun member hm hk value hv inner hr => ?_⟩
    exact hs inner (.inside h hm hk hv hr)
  · rintro ⟨hh, hi⟩ inner hr
    cases hr with
    | here ho => exact h.unique ho ▸ hh
    | inside ho hm hk hv hr =>
      cases h.unique ho
      exact hi _ hm hk _ hv inner hr

/-! ### What a pass leaves of one schema -/

theorem sorted_pairwise (members : JsonMembers) :
    (sorted members).Pairwise fun first second => first.1 ≤ second.1 := by
  have : Std.Total fun first second : JsString × JsonValue => first.1 ≤ second.1 :=
    ⟨fun first second => List.le_total first.1 second.1⟩
  have : IsTrans (JsString × JsonValue) fun first second => first.1 ≤ second.1 :=
    ⟨fun _ _ _ => List.le_trans⟩
  exact List.pairwise_insertionSort _ _

/-- The members that a pass reads a schema as, and those it leaves. -/
structure Leaves (normalize : JsonValue → Except NormalizeError JsonValue)
    (head left : JsonMembers) : Prop where
  plain : Plain (.object head)
  distinct : (Members.names left).Nodup
  returns : ∀ member ∈ head, ∃ out, normalizeMember normalize member = .ok out
  mem_iff : ∀ out, out ∈ left ↔ ∃ member ∈ head, ¬Overwritten head member ∧
    normalizeMember normalize member = .ok (some out)

section Left

variable {normalize : JsonValue → Except NormalizeError JsonValue}
  {assigned : List (Option (JsString × JsonValue))}

theorem normalizeMember_name (h : normalizeMember normalize member = .ok (some out)) :
    out.1 = member.1 ∨ out.1 = oneOfKey ∧
      ∃ branches, member = (anyOfKey, .array branches) ∧ isConstTaggedUnion branches = true := by
  cases normalizeMember_eq_ok.mp h with
  | tagged ht => exact .inr ⟨rfl, _, rfl, ht⟩
  | named | ordinary => exact .inl rfl

/-- A member that keeps its name is a map of schemas, or it is normalised as a schema. -/
theorem normalizeMember_kept (h : normalizeMember normalize member = .ok (some out))
    (hn : out.1 ≠ oneOfKey) : out.1 = member.1 ∧
      (Ordinary member.1 member.2 ∧ normalize member.2 = .ok out.2 ∨
        member.1 ∈ schemaMapKeys ∧ ∃ map results, member.2 = .object map ∧
          out.2 = .object results ∧ normalizeSchemaMap normalize map = .ok results) := by
  cases normalizeMember_eq_ok.mp h with
  | tagged => exact absurd rfl hn
  | named hm hr =>
    exact ⟨rfl, .inr ⟨hm, _, _, rfl, rfl, normalizeSchemaMap_eq_ok.mpr ⟨_, hr, rfl⟩⟩⟩
  | ordinary hor hr => exact ⟨rfl, .inl ⟨hor, hr⟩⟩

theorem ordinary_eq_ok {assigned : Option (JsString × JsonValue)} (hor : Ordinary name value)
    (h : normalizeMember normalize (name, value) = .ok assigned) :
    ∃ result, normalize value = .ok result ∧ assigned = some (name, result) :=
  wrap_eq_ok.mp ((normalizeMember_ordinary hor).symm.trans h)

/-- What the turn of a member assigns, where it returns. -/
def assignment (normalize : JsonValue → Except NormalizeError JsonValue)
    (member : JsString × JsonValue) : Option (JsString × JsonValue) :=
  (normalizeMember normalize member).toOption.join

theorem assignment_eq_some :
    assignment normalize member = some out ↔ normalizeMember normalize member = .ok (some out) := by
  unfold assignment
  cases normalizeMember normalize member with
  | error => simp [Except.toOption]
  | ok found => simp [Except.toOption]

theorem collect_eq (h : List.Forall₂ (Assigns fun value result => normalize value = .ok result)
      (sorted head) assigned) :
    collect assigned = Members.merge []
      (((sorted head).filterMap (assignment normalize)).filter (·.1 ≠ protoName)) := by
  have ha : assigned = (sorted head).map (assignment normalize) := by
    generalize sorted head = members at h
    induction h with
    | nil => rfl
    | cons hf _ ih =>
      rw [List.map_cons, ← ih, assignment, normalizeMember_eq_ok.mpr hf]
      rfl
  rw [collect, ha, List.filterMap_map, Function.id_comp]

theorem sorted_later {front rest : JsonMembers} {other : JsString × JsonValue}
    (hd : (Members.names head).Nodup) (hsp : sorted head = front ++ member :: rest)
    (hr : other ∈ rest) :
    other ∈ head ∧ other.1 ≠ member.1 ∧ member.1 ≤ other.1 := by
  have hs := sorted_perm head
  have hn : (Members.names (sorted head)).Nodup := (hs.map Prod.fst).nodup_iff.mpr hd
  have hle := sorted_pairwise head
  rw [hsp] at hn hle
  refine ⟨hs.mem_iff.mp (by simp [hsp, hr]), fun hsa => ?_, ?_⟩
  · rw [Members.names, List.map_append, List.map_cons] at hn
    have hc := (List.nodup_cons.mp (List.nodup_append.mp hn).2.1).1
    exact hc (List.mem_map.mpr ⟨other, hr, hsa⟩)
  · exact (List.pairwise_cons.mp (List.pairwise_append.mp hle).2.1).1 other hr

/-- A member that is not overwritten is found in what is left. -/
theorem find_collect (hp : Plain (.object head))
    (h : List.Forall₂ (Assigns fun value result => normalize value = .ok result) (sorted head)
      assigned) (hm : member ∈ head) (hk : ¬Overwritten head member)
    (ho : normalizeMember normalize member = .ok (some out)) :
    Members.find (collect assigned) out.1 = some out.2 := by
  obtain ⟨hd, hpr, -⟩ := plain_object.mp hp
  obtain ⟨front, rest, hsp⟩ := List.append_of_mem ((sorted_perm head).mem_iff.mpr hm)
  have hno : out.1 ∉ Members.names
      ((rest.filterMap (assignment normalize)).filter (·.1 ≠ protoName)) := by
    intro hi
    obtain ⟨later, hl, hsa⟩ := List.mem_map.mp hi
    obtain ⟨other, hr, hla⟩ := List.mem_filterMap.mp (List.mem_of_mem_filter hl)
    obtain ⟨hh, hne, hmo⟩ := sorted_later hd hsp hr
    -- only `oneOf` can be assigned twice, and then its own member comes last
    rcases normalizeMember_name ho with hou | ⟨hou, hu⟩ <;>
      rcases normalizeMember_name (assignment_eq_some.mp hla) with hlat | ⟨hlat, hv⟩
    · exact hne (hlat.symm.trans (hsa.trans hou))
    · obtain ⟨branches, rfl, -⟩ := hv
      have hlo : oneOfKey ≤ anyOfKey := by rwa [← hou, ← hsa, hlat] at hmo
      exact absurd hlo (by decide)
    · exact hk ⟨hu, List.mem_map.mpr ⟨other, hh, hlat.symm.trans (hsa.trans hou)⟩⟩
    · obtain ⟨_, rfl, -⟩ := hu
      obtain ⟨_, rfl, -⟩ := hv
      exact hne rfl
  have hpro : out.1 ≠ protoName := by
    rcases normalizeMember_name ho with hou | ⟨hou, -⟩
    · rw [hou]
      exact fun hsa => hpr (hsa ▸ List.mem_map_of_mem hm)
    · rw [hou]
      decide
  rw [collect_eq h, hsp, List.filterMap_append, List.filterMap_cons,
    assignment_eq_some.mpr ho, List.filter_append, List.filter_cons_of_pos (by simpa using hpro)]
  exact Members.find_merge_last hno

/-- A keyword that is neither dropped nor renamed, and whose value is a schema. -/
structure Keyword (name : JsString) : Prop where
  kept : name ∉ droppedKeys
  closed : name ≠ additionalKey
  schema : name ∉ schemaMapKeys
  single : name ≠ anyOfKey ∧ name ≠ oneOfKey

theorem Keyword.ordinary (h : Keyword name) (value : JsonValue) : Ordinary name value :=
  ⟨h.kept, fun hc => h.closed hc.1, fun _ hc => absurd hc h.single.1, fun hc => absurd hc h.schema⟩

theorem oneOf_ordinary (value : JsonValue) : Ordinary oneOfKey value := by
  refine ⟨oneOf_keyword.1, fun h => absurd h.1 (by decide), fun _ h => ?_, fun h => ?_⟩
  · exact absurd h (by decide)
  · exact absurd h oneOf_keyword.2

theorem collect_leaves (hp : Plain (.object head))
    (h : List.Forall₂ (Assigns fun value result => normalize value = .ok result) (sorted head)
      assigned) : Leaves normalize head (collect assigned) := by
  have hd : (Members.names (collect assigned)).Nodup := Members.nodup_merge List.nodup_nil
  have hs := sorted_perm head
  have hr : ∀ member ∈ head, ∃ out, normalizeMember normalize member = .ok out := by
    intro member hm
    obtain ⟨out, -, ho⟩ := mem_paired h.flip (hs.mem_iff.mpr hm)
    exact ⟨out, normalizeMember_eq_ok.mpr ho⟩
  refine ⟨hp, hd, hr, fun out => ⟨fun ho => ?_, ?_⟩⟩
  · obtain ⟨member, hm, ha⟩ := mem_paired h (mem_collect ho).1
    by_cases hk : Overwritten head member
    -- the value of `oneOf` that is left is that of the member `oneOf`
    · obtain ⟨⟨branches, rfl, ht⟩, hon⟩ := hk
      obtain ⟨union, -, hou⟩ := wrap_eq_ok.mp
        ((normalizeMember_tagged ht).symm.trans (normalizeMember_eq_ok.mpr ha))
      cases hou
      obtain ⟨value, hv⟩ := Members.exists_find hon
      have hw : ¬Overwritten head (oneOfKey, value) := by
        rintro ⟨⟨_, hsa, -⟩, -⟩
        exact absurd (Prod.mk.inj hsa).1 (by decide)
      obtain ⟨found, hf⟩ := hr _ (Members.mem_of_find hv)
      obtain ⟨result, -, rfl⟩ := ordinary_eq_ok (oneOf_ordinary value) hf
      have hfi := find_collect hp h (Members.mem_of_find hv) hw hf
      cases (Members.find_of_mem hd ho).symm.trans hfi
      exact ⟨_, Members.mem_of_find hv, hw, hf⟩
    · exact ⟨member, hs.mem_iff.mp hm, hk, normalizeMember_eq_ok.mpr ha⟩
  · rintro ⟨member, hm, hk, ho⟩
    exact Members.mem_of_find (find_collect hp h hm hk ho)

theorem Leaves.find_iff (h : Leaves normalize head left) :
    Members.find left name = some result ↔ ∃ member ∈ head, ¬Overwritten head member ∧
      normalizeMember normalize member = .ok (some (name, result)) := by
  rw [← h.mem_iff]
  exact ⟨Members.mem_of_find, Members.find_of_mem h.distinct⟩

theorem Leaves.find_head (h : Leaves normalize head left) (hn : name ≠ oneOfKey)
    (hl : Members.find left name = some result) : ∃ value,
    Members.find head name = some value ∧ (Ordinary name value ∧ normalize value = .ok result ∨
      name ∈ schemaMapKeys ∧ ∃ map results, value = .object map ∧ result = .object results ∧
        normalizeSchemaMap normalize map = .ok results) := by
  obtain ⟨⟨other, value⟩, hm, -, ho⟩ := h.find_iff.mp hl
  obtain ⟨hs, hk⟩ := normalizeMember_kept ho hn
  cases hs
  exact ⟨value, Members.find_of_mem (plain_object.mp h.plain).1 hm, hk⟩

theorem Leaves.find_of_ordinary (h : Leaves normalize head left) (hor : Ordinary name value)
    (hv : Members.find head name = some value) :
    ∃ result, normalize value = .ok result ∧ Members.find left name = some result := by
  obtain ⟨out, ho⟩ := h.returns _ (Members.mem_of_find hv)
  obtain ⟨result, hr, rfl⟩ := ordinary_eq_ok hor ho
  refine ⟨result, hr, h.find_iff.mpr ⟨_, Members.mem_of_find hv, fun hov => ?_, ho⟩⟩
  obtain ⟨branches, hs, ht⟩ := hov.union
  cases ht.symm.trans (hor.untagged branches (Prod.mk.inj hs).1 (Prod.mk.inj hs).2)

theorem Leaves.find_keyword (h : Leaves normalize head left) (hn : Keyword name)
    (hl : Members.find left name = some result) :
    ∃ value, Members.find head name = some value ∧ normalize value = .ok result := by
  obtain ⟨value, hv, ⟨-, hr⟩ | ⟨hm, -⟩⟩ := h.find_head hn.single.2 hl
  · exact ⟨value, hv, hr⟩
  · exact absurd hm hn.schema

theorem anyOf_ordinary {branches : List JsonValue} (h : isConstTaggedUnion branches = false) :
    Ordinary anyOfKey (.array branches) := by
  refine ⟨anyOf_keyword.1, fun hc => ?_, fun entries _ he => ?_, fun hm => ?_⟩
  · cases hc.2
  · cases he
    exact h
  · exact absurd hm anyOf_keyword.2

theorem Leaves.find_anyOf (h : Leaves normalize head left)
    (hl : Members.find left anyOfKey = some result) : ∃ value,
      Members.find head anyOfKey = some value ∧ Ordinary anyOfKey value ∧
        normalize value = .ok result := by
  obtain ⟨value, hv, hr | ⟨hm, -⟩⟩ := h.find_head (by decide) hl
  · exact ⟨value, hv, hr⟩
  · exact absurd hm anyOf_keyword.2

theorem properties_named : propertiesKey ∈ schemaMapKeys := by decide

theorem Leaves.find_properties {results : JsonMembers} (h : Leaves normalize head left)
    (hs : ∀ value, normalize value = .ok (.object results) → value.isObject = true)
    (hl : Members.find left propertiesKey = some (.object results)) :
    ∃ map, Members.find head propertiesKey = some (.object map) ∧
      normalizeSchemaMap normalize map = .ok results := by
  obtain ⟨value, hv, ⟨hor, hr⟩ | ⟨-, map, found, rfl, hf, hr⟩⟩ := h.find_head (by decide) hl
  · cases (hor.schema properties_named).symm.trans (hs value hr)
  · cases hf
    exact ⟨map, hv, hr⟩

theorem Leaves.properties_left {map : JsonMembers} (h : Leaves normalize head left)
    (hv : Members.find head propertiesKey = some (.object map)) :
    ∃ results, normalizeSchemaMap normalize map = .ok results ∧
      Members.find left propertiesKey = some (.object results) := by
  obtain ⟨out, ho⟩ := h.returns _ (Members.mem_of_find hv)
  obtain ⟨results, hr, rfl⟩ :=
    wrap_eq_ok.mp ((normalizeMember_named properties_named).symm.trans ho)
  refine ⟨results, hr, h.find_iff.mpr ⟨_, Members.mem_of_find hv, fun hov => ?_, ho⟩⟩
  obtain ⟨_, hn, -⟩ := hov.union
  cases (Prod.mk.inj hn).2

theorem find_normalizeSchemaMap {map results : JsonMembers} (hp : Plain (.object map))
    (h : normalizeSchemaMap normalize map = .ok results) :
    Members.find results name = some result ↔
      ∃ value, Members.find map name = some value ∧ normalize value = .ok result := by
  obtain ⟨outs, hf, rfl⟩ := normalizeSchemaMap_eq_ok.mp h
  have hn := paired_names (hf.imp fun _ _ h => h.1)
  have hs := sorted_perm map
  have hd := (plain_object.mp hp).1
  have hdo : (Members.names outs).Nodup := hn ▸ (hs.map Prod.fst).nodup_iff.mpr hd
  rw [collect_names hn hp]
  constructor
  · intro hr
    obtain ⟨named, hm, hna, hno⟩ := mem_paired hf (Members.mem_of_find hr)
    cases hna
    exact ⟨named.2, Members.find_of_mem hd (hs.mem_iff.mp hm), hno⟩
  · rintro ⟨value, hv, hr⟩
    obtain ⟨out, ho, hna, hno⟩ := mem_paired hf.flip (hs.mem_iff.mpr (Members.mem_of_find hv))
    cases hna
    cases hr.symm.trans hno
    exact Members.find_of_mem hdo ho

end Left

theorem normalizeSchema_leaves (hd : ∀ member ∈ definitions, Plain member.2)
    (hp : Plain (.object schema))
    (h : normalizeSchema definitions depth (.object schema) = .ok result) :
    ∃ less head left, less < depth ∧ Inlines definitions schema head ∧
      Leaves (normalizeSchema definitions less) head left ∧ result = .object left := by
  induction depth generalizing schema with
  | zero => cases h
  | succ depth ih =>
    have hs := (strips schema).plain hp
    cases hr : reference? (stripNullAlternative schema) with
    | some ref =>
      obtain ⟨target, ht, hn⟩ := (normalizeSchema_reference hr).mp h
      obtain ⟨less, head, left, hl, hi, hre⟩ :=
        ih (plain_merge (referenced_plain hd ht) (plain_without hs refKey)) hn
      exact ⟨less, head, left, hl.trans (Nat.lt_succ_self _), .next hr ht hi, hre⟩
    | none =>
      obtain ⟨assigned, ha, rfl⟩ := (normalizeSchema_object hr).mp h
      exact ⟨depth, _, _, Nat.lt_succ_self _, .last hr, collect_leaves hs ha, rfl⟩

/-! ### Arrays and strings -/

theorem normalizeSchema_entries {results : List JsonValue}
    (h : normalizeSchema definitions depth value = .ok (.array results)) :
    ∃ less entries, value = .array entries ∧ List.Forall₂ (fun entry result =>
      normalizeSchema definitions less entry = .ok result) entries results := by
  have ho := (normalizeSchema_shaped h).object
  cases depth with
  | zero => cases h
  | succ less =>
    cases value with
    | array entries =>
      obtain ⟨_, hr, hs⟩ := normalizeSchema_array.mp h
      cases hs
      exact ⟨less, entries, rfl, hr⟩
    | object => cases ho
    | _ => cases h

theorem normalizeSchema_results {entries : List JsonValue}
    (h : normalizeSchema definitions depth (.array entries) = .ok result) :
    ∃ less results, less < depth ∧ result = .array results ∧ List.Forall₂ (fun entry result =>
      normalizeSchema definitions less entry = .ok result) entries results := by
  cases depth with
  | zero => cases h
  | succ less =>
    obtain ⟨results, hr, hs⟩ := normalizeSchema_array.mp h
    exact ⟨less, results, Nat.lt_succ_self less, hs, hr⟩

theorem normalizeSchema_string_iff {text : JsString}
    (h : normalizeSchema definitions depth value = .ok result) :
    result = .string text ↔ value = .string text := by
  constructor
  · exact (normalizeSchema_shaped h).string text
  · rintro rfl
    cases depth with
    | zero => cases h
    | succ => exact (Except.ok.inj h).symm

theorem Leaves.find_string {text : JsString}
    (h : Leaves (normalizeSchema definitions depth) head left) (hn : Keyword name) :
    Members.find left name = some (.string text) ↔
      Members.find head name = some (.string text) := by
  constructor
  · intro hl
    obtain ⟨value, hv, hr⟩ := h.find_keyword hn hl
    rwa [(normalizeSchema_string_iff hr).mp rfl] at hv
  · intro hv
    obtain ⟨result, hr, hl⟩ := h.find_of_ordinary (hn.ordinary _) hv
    rwa [(normalizeSchema_string_iff hr).mpr rfl] at hl

theorem type_single : Keyword typeKey :=
  ⟨by decide, by decide, by decide, by decide⟩

theorem const_single : Keyword constKey :=
  ⟨by decide, by decide, by decide, by decide⟩

/-! ### Branches after a pass -/

theorem isNullBranch_object {members : JsonMembers} : isNullBranch (.object members) = true ↔
    Members.find members typeKey = some (.string (js "null")) := by
  rw [isNullBranch]
  cases Members.find members typeKey with
  | none => simp
  | some value => cases value <;> simp [isString]

theorem isObject_of_isNullBranch (h : isNullBranch value = true) : value.isObject = true := by
  cases value with
  | object => rfl
  | _ => cases h

theorem isNullBranch_iff (hd : ∀ member ∈ definitions, Plain member.2) (hp : value.Plain)
    (h : normalizeSchema definitions depth value = .ok result) :
    isNullBranch result = true ↔ InlinedNull definitions value := by
  have ho := (normalizeSchema_shaped h).object
  cases value with
  | object schema =>
    obtain ⟨less, head, left, -, hi, hl, rfl⟩ := normalizeSchema_leaves hd hp h
    rw [isNullBranch_object, hl.find_string type_single]
    constructor
    · exact fun hn => ⟨schema, head, rfl, hi, hn⟩
    · rintro ⟨_, other, hs, hot, hn⟩
      cases hs
      rwa [hi.unique hot]
  | _ =>
    refine iff_of_false (fun hn => ?_) ?_
    · cases (isObject_of_isNullBranch hn).symm.trans ho
    · rintro ⟨_, _, hs, -⟩
      cases hs

theorem tagOf_eq_some {tag : JsString} : tagOf value = some tag ↔ ∃ members properties inner,
    value = .object members ∧ Members.find members propertiesKey = some (.object properties) ∧
      Members.find properties typeKey = some (.object inner) ∧
      Members.find inner constKey = some (.string tag) := by
  have hf : ∀ {found : Option JsonValue} {members : JsonMembers},
      found.bind members? = some members ↔ found = some (.object members) := by
    intro found members
    cases found with
    | none => simp
    | some held => cases held <;> simp [members?]
  have hv : ∀ {members : JsonMembers}, value.members? = some members ↔ value = .object members := by
    cases value <;> simp [members?]
  simp only [tagOf, Option.bind_eq_bind, Option.bind_eq_some_iff, hf, hv]
  constructor
  · rintro ⟨members, hm, properties, hp, inner, hi, ht⟩
    split at ht
    · rename_i text hc
      cases ht
      exact ⟨members, properties, inner, hm, hp, hi, hc⟩
    · cases ht
  · rintro ⟨members, properties, inner, hm, hp, hi, hc⟩
    refine ⟨members, hm, properties, hp, inner, hi, ?_⟩
    have hc : Members.find inner (js "const") = _ := hc
    rw [hc]

theorem isObject_of_normalizes {members : JsonMembers}
    (h : normalizeSchema definitions depth value = .ok (.object members)) :
    value.isObject = true := (normalizeSchema_shaped h).object.symm

theorem tagOf_iff {tag : JsString} (hd : ∀ member ∈ definitions, Plain member.2) (hp : value.Plain)
    (h : normalizeSchema definitions depth value = .ok result) :
    tagOf result = some tag ↔ InlinedTag definitions value tag := by
  rw [tagOf_eq_some]
  constructor
  · rintro ⟨_, properties, inner, rfl, hpr, hin, hc⟩
    have ho := isObject_of_normalizes h
    cases value with
    | object schema =>
      obtain ⟨_, head, left, -, hi, hl, hs⟩ := normalizeSchema_leaves hd hp h
      cases hs
      obtain ⟨map, hm, hma⟩ := hl.find_properties (fun _ => isObject_of_normalizes) hpr
      have hpm := hl.plain.of_find hm
      obtain ⟨value, ht, hta⟩ := (find_normalizeSchemaMap hpm hma).mp hin
      have hot := isObject_of_normalizes hta
      cases value with
      | object tagSchema =>
        obtain ⟨_, tagged, _, -, hti, htl, hs⟩ := normalizeSchema_leaves hd (hpm.of_find ht) hta
        cases hs
        exact ⟨schema, head, map, tagSchema, tagged, rfl, hi, hm, ht, hti,
          (htl.find_string const_single).mp hc⟩
      | _ => cases hot
    | _ => cases ho
  · rintro ⟨schema, head, map, tagSchema, tagged, rfl, hi, hm, ht, hti, hc⟩
    obtain ⟨_, other, left, -, ho, hl, rfl⟩ := normalizeSchema_leaves hd hp h
    cases hi.unique ho
    have hpm := hl.plain.of_find hm
    obtain ⟨properties, hma, hpr⟩ := hl.properties_left hm
    obtain ⟨results, hf, -⟩ := normalizeSchemaMap_eq_ok.mp hma
    obtain ⟨_, -, -, hta⟩ :=
      mem_paired hf.flip ((sorted_perm map).mem_iff.mpr (Members.mem_of_find ht))
    obtain ⟨_, other, tagLeft, -, ho, htl, hs⟩ :=
      normalizeSchema_leaves hd (hpm.of_find ht) hta
    cases hti.unique ho
    refine ⟨left, properties, tagLeft, rfl, hpr, ?_, (htl.find_string const_single).mpr hc⟩
    exact (find_normalizeSchemaMap hpm hma).mpr ⟨_, ht, hs ▸ hta⟩

theorem tagsFrom_eq_some {seen tags : List JsString} {branches : List JsonValue}
    (hs : seen.Nodup) : tagsFrom seen branches = some tags ↔ ∃ found, tags = seen ++ found ∧
      List.Forall₂ (fun branch tag => tagOf branch = some tag) branches found ∧ tags.Nodup := by
  induction branches generalizing seen with
  | nil =>
    rw [tagsFrom]
    constructor
    · rintro ⟨⟩
      exact ⟨[], (List.append_nil _).symm, .nil, hs⟩
    · rintro ⟨found, rfl, hf, -⟩
      cases hf
      rw [List.append_nil]
  | cons branch branches ih =>
    rw [tagsFrom]
    cases ht : tagOf branch with
    | none =>
      refine ⟨fun h => (by cases h), ?_⟩
      rintro ⟨found, -, hf, -⟩
      cases hf with | cons hb => cases ht.symm.trans hb
    | some tag =>
      dsimp only
      by_cases hi : tag ∈ seen
      · rw [if_pos hi]
        refine ⟨fun h => (by cases h), ?_⟩
        rintro ⟨found, rfl, hf, hn⟩
        cases hf with | cons hb =>
        cases ht.symm.trans hb
        exact absurd hi (List.disjoint_right.mp (List.nodup_append'.mp hn).2.2 List.mem_cons_self)
      · rw [if_neg hi, ih (List.nodup_append_comm.mp (List.nodup_cons.mpr ⟨hi, hs⟩))]
        constructor
        · rintro ⟨found, rfl, hf, hn⟩
          exact ⟨tag :: found, by simp, .cons ht hf, hn⟩
        · rintro ⟨found, rfl, hf, hn⟩
          cases hf with | cons hb hr =>
          cases ht.symm.trans hb
          exact ⟨_, by simp, hr, hn⟩

theorem isConstTaggedUnion_iff {branches : List JsonValue} :
    isConstTaggedUnion branches = true ↔ ∃ tags,
      List.Forall₂ (fun branch tag => tagOf branch = some tag) branches tags ∧ tags.Nodup ∧
        tags ≠ [] := by
  unfold isConstTaggedUnion
  constructor
  · intro h
    split at h
    · cases h
    · rename_i tags ht
      obtain ⟨_, rfl, hf, hn⟩ := (tagsFrom_eq_some List.nodup_nil).mp ht
      exact ⟨_, hf, hn, List.ne_nil_of_length_pos (of_decide_eq_true h)⟩
  · rintro ⟨tags, hf, hn, hne⟩
    rw [(tagsFrom_eq_some List.nodup_nil).mpr ⟨tags, rfl, hf, hn⟩]
    exact decide_eq_true (List.length_pos_iff.mpr hne)

section Paired

variable {branches results : List JsonValue} (hp : ∀ branch ∈ branches, branch.Plain)
  (hd : ∀ member ∈ definitions, Plain member.2)
  (h : List.Forall₂ (fun branch result => normalizeSchema definitions depth branch = .ok result)
    branches results)

include hp hd h

theorem inlinedUnion_iff : isConstTaggedUnion results = true ↔
    InlinedUnion definitions branches := by
  have ht : ∀ tags, List.Forall₂ (fun branch tag => tagOf branch = some tag) results tags ↔
      List.Forall₂ (InlinedTag definitions) branches tags := by
    induction h with
    | nil => simp
    | cons hf _ ih =>
      have ih := ih fun branch hb => hp branch (List.mem_cons_of_mem _ hb)
      intro tags
      cases tags with
      | nil => simp
      | cons tag tags =>
        rw [List.forall₂_cons, List.forall₂_cons, ih, tagOf_iff hd (hp _ List.mem_cons_self) hf]
  simp only [isConstTaggedUnion_iff, InlinedUnion, ht]

theorem oneNull_iff : OneNull (isNullBranch · = true) results ↔
    OneNull (InlinedNull definitions) branches := by
  have hs : ∀ {branch result}, branch ∈ branches →
      normalizeSchema definitions depth branch = .ok result →
      result.isObject = branch.isObject ∧
        (isNullBranch result = true ↔ InlinedNull definitions branch) := fun hb hr =>
    ⟨(normalizeSchema_shaped hr).object, isNullBranch_iff hd (hp _ hb) hr⟩
  constructor
  · rintro ⟨_, _, rfl, ho, hot, hn⟩
    cases h with | cons hf hre =>
    cases hre with | cons hg hni =>
    cases hni
    obtain ⟨hof, hnf⟩ := hs (by simp) hf
    obtain ⟨hog, hng⟩ := hs (by simp) hg
    exact ⟨_, _, rfl, hof ▸ ho, hog ▸ hot, fun hi => hn (hnf.trans (hi.trans hng.symm))⟩
  · rintro ⟨_, _, rfl, ho, hot, hn⟩
    cases h with | cons hf hre =>
    cases hre with | cons hg hni =>
    cases hni
    obtain ⟨hof, hnf⟩ := hs (by simp) hf
    obtain ⟨hog, hng⟩ := hs (by simp) hg
    exact ⟨_, _, rfl, hof ▸ ho, hog ▸ hot, fun hi => hn (hnf.symm.trans (hi.trans hng))⟩

end Paired

theorem isString_iff {text : String} : isString value text = true ↔
    value = .string (js text) := by
  cases value <;> simp [isString]

theorem strippable_iff {entries results : List JsonValue}
    (h : List.Forall₂ (fun entry result => normalizeSchema definitions depth entry = .ok result)
      entries results) : Strippable results ↔ Strippable entries := by
  have hs : ∀ {entry result}, normalizeSchema definitions depth entry = .ok result →
      (isString result "null" = true ↔ isString entry "null" = true) := by
    intro entry result hr
    rw [isString_iff, isString_iff, normalizeSchema_string_iff hr]
  rw [Strippable, Strippable, h.length_eq]
  refine or_congr_right ⟨?_, ?_⟩
  · rintro ⟨result, hm, hn⟩
    obtain ⟨entry, he, hr⟩ := mem_paired h hm
    exact ⟨entry, he, (hs hr).mp hn⟩
  · rintro ⟨entry, he, hn⟩
    obtain ⟨result, hm, hr⟩ := mem_paired h.flip he
    exact ⟨result, hm, (hs hr).mpr hn⟩

/-! ### The rules after a pass -/

theorem strip_oneBranch {first second : JsonValue} {only : JsonMembers}
    (ht : ∀ entries, Members.find schema typeKey ≠ some (.array entries))
    (ha : Members.find schema anyOfKey = some (.array [first, second]))
    (hk : [first, second].filter (!isNullBranch ·) = [.object only]) :
    stripNullAlternative schema = Members.merge (Members.without schema anyOfKey) only := by
  unfold stripNullAlternative
  split
  · exact absurd ‹_› (ht _)
  · rw [ha]
    dsimp only
    rw [hk]

theorem mem_of_filter_eq {items : List JsonValue} {keep : JsonValue → Bool} {only : JsonValue}
    (h : items.filter keep = [only]) : only ∈ items :=
  List.mem_of_mem_filter (h ▸ List.mem_singleton_self only)

theorem not_strippable (h : stripNullAlternative schema = schema) {entries : List JsonValue}
    (he : Members.find schema typeKey = some (.array entries)) : ¬Strippable entries := by
  have hk : ∀ {kept}, Members.assign schema typeKey kept = schema → kept = .array entries := by
    intro kept hs
    rw [← hs, Members.find_assign, if_pos rfl] at he
    exact Option.some.inj he
  simp only [stripNullAlternative, he] at h
  split at h
  · rename_i only ho
    have hl : expanded (fun _ => 0) only < _ := expanded_entry (mem_of_filter_eq ho)
    rw [hk h] at hl
    exact absurd hl (Nat.lt_irrefl _)
  · rename_i hon
    have ha := JsonValue.array.inj (hk h)
    rw [ha] at hon
    rintro (hl | ⟨entry, hm, hn⟩)
    · obtain ⟨only, rfl⟩ := List.length_eq_one_iff.mp hl
      exact hon only rfl
    · have hke := List.filter_eq_self.mp ha entry hm
      rw [hn] at hke
      cases hke

theorem not_oneNull (hp : Plain (.object schema)) (h : stripNullAlternative schema = schema)
    (ht : ∀ entries, Members.find schema typeKey ≠ some (.array entries))
    {branches : List JsonValue} (ha : Members.find schema anyOfKey = some (.array branches)) :
    ¬OneNull (isNullBranch · = true) branches := by
  rintro ⟨first, second, rfl, hf, hs, hn⟩
  have hno : ∀ only, [first, second].filter (!isNullBranch ·) ≠ [.object only] := by
    intro only hk
    have hl : expanded (fun _ => 0) _ < _ := expanded_oneBranch_lt hp ha (mem_of_filter_eq hk)
    rw [← strip_oneBranch ht ha hk, h] at hl
    exact absurd hl (Nat.lt_irrefl _)
  cases first with
  | object one =>
    cases second with
    | object other =>
      have hon := hno one
      have ho := hno other
      simp only [List.filter_cons, List.filter_nil] at hon ho
      grind
    | _ => cases hs
  | _ => cases hf

/-- Stripping leaves a schema alone exactly when it has no type and no branch to take away. -/
theorem strip_eq_iff (hp : Plain (.object schema)) : stripNullAlternative schema = schema ↔
    (∀ entries, Members.find schema typeKey = some (.array entries) → ¬Strippable entries) ∧
    ((∀ entries, Members.find schema typeKey ≠ some (.array entries)) →
      ∀ branches, Members.find schema anyOfKey = some (.array branches) →
        ¬OneNull (isNullBranch · = true) branches) := by
  constructor
  · intro h
    exact ⟨fun entries => not_strippable h, fun ht branches => not_oneNull hp h ht⟩
  · rintro ⟨ht, ha⟩
    unfold stripNullAlternative
    split
    · rename_i entries he
      obtain ⟨hl, hn⟩ := not_or.mp (ht entries he)
      have hk : entries.filter (!isString · "null") = entries :=
        List.filter_eq_self.mpr fun entry hm => by
          simpa using fun hnu => hn ⟨entry, hm, hnu⟩
      rw [hk]
      split
      · exact absurd rfl hl
      · exact Members.assign_self he
    · rename_i hno
      split
      · rename_i first second hfo
        split
        · rename_i only ho
          have hf := @isObject_of_isNullBranch first
          have hs := @isObject_of_isNullBranch second
          have hnot := ha hno _ hfo
          simp only [List.filter_cons, List.filter_nil] at ho
          refine absurd ⟨first, second, rfl, ?_⟩ hnot
          grind [isObject]
        · rfl
      · rfl

section Rules

variable (h : Leaves (normalizeSchema definitions depth) head left)

include h

theorem Leaves.types_iff {holds : List JsonValue → Prop}
    (hs : ∀ {less entries results}, List.Forall₂ (fun entry result =>
      normalizeSchema definitions less entry = .ok result) entries results →
      (holds results ↔ holds entries)) :
    (∀ results, Members.find left typeKey = some (.array results) → holds results) ↔
      ∀ entries, Members.find head typeKey = some (.array entries) → holds entries := by
  constructor
  · intro hl entries he
    obtain ⟨result, hr, hf⟩ := h.find_of_ordinary (type_single.ordinary _) he
    obtain ⟨_, results, -, rfl, hp⟩ := normalizeSchema_results hr
    exact (hs hp).mp (hl results hf)
  · intro hh results hf
    obtain ⟨value, hv, hr⟩ := h.find_keyword type_single hf
    obtain ⟨_, entries, rfl, hp⟩ := normalizeSchema_entries hr
    exact (hs hp).mpr (hh entries hv)

theorem Leaves.branches_iff {holds after : List JsonValue → Prop}
    (hs : ∀ {less branches results}, (∀ branch ∈ branches, branch.Plain) →
      List.Forall₂ (fun branch result => normalizeSchema definitions less branch = .ok result)
        branches results → (after results ↔ holds branches)) :
    (∀ results, Members.find left anyOfKey = some (.array results) → after results) ↔
      ∀ branches, Members.find head anyOfKey = some (.array branches) →
        isConstTaggedUnion branches = false → holds branches := by
  constructor
  · intro hl branches hb ht
    obtain ⟨result, hr, hf⟩ := h.find_of_ordinary (anyOf_ordinary ht) hb
    obtain ⟨_, results, -, rfl, hp⟩ := normalizeSchema_results hr
    exact (hs (plain_array.mp (h.plain.of_find hb)) hp).mp (hl results hf)
  · intro hh results hf
    obtain ⟨value, hv, hor, hr⟩ := h.find_anyOf hf
    obtain ⟨_, branches, rfl, hp⟩ := normalizeSchema_entries hr
    refine (hs (plain_array.mp (h.plain.of_find hv)) hp).mpr (hh branches hv ?_)
    exact hor.untagged branches rfl rfl

theorem Leaves.normalSchema_iff (hd : ∀ member ∈ definitions, Plain member.2)
    (hp : Plain (.object left)) : NormalSchema left ↔ RulesSpent definitions head := by
  have ht := h.types_iff fun hpa => not_congr (strippable_iff hpa)
  have hnon : _ ↔ ∀ entries, Members.find head typeKey = some (.array entries) → False :=
    h.types_iff fun _ => Iff.rfl
  have ha := h.branches_iff fun hpl hpa => not_congr (oneNull_iff hpl hd hpa)
  have hu := h.branches_iff fun hpl hpa =>
    Bool.eq_false_iff.trans (not_congr (inlinedUnion_iff hpl hd hpa))
  constructor
  · rintro ⟨hs, hun⟩
    obtain ⟨hty, hn⟩ := (strip_eq_iff hp).mp hs
    exact ⟨ht.mp hty, fun hno => ha.mp (hn (hnon.mpr hno)), hu.mp hun⟩
  · rintro ⟨hty, hn, huni⟩
    refine ⟨(strip_eq_iff hp).mpr ⟨ht.mpr hty, fun hno => ?_⟩, hu.mpr huni⟩
    exact ha.mpr (hn (hnon.mp hno))

end Rules

theorem Ordinary.memberValues_eq (h : Ordinary name value) :
    memberValues (name, value) = [value] := by
  rw [memberValues, if_neg h.kept]
  cases value with
  | object => exact if_neg fun hm => by cases h.schema hm
  | _ => rfl

theorem memberValues_named {map : JsonMembers} (h : name ∈ schemaMapKeys) :
    memberValues (name, .object map) = map.map Prod.snd := by
  rw [memberValues, if_neg (schemaMapKeys_not_dropped h)]
  exact if_pos h

theorem withinMember_iff {good : JsonValue → Prop} (hp : member.2.Plain)
    (h : normalizeMember (normalizeSchema definitions depth) member = .ok (some out))
    (ih : ∀ {value result}, value.Plain → normalizeSchema definitions depth value = .ok result →
      (Normal result ↔ good value)) :
    WithinMember NormalSchema out ↔ ∀ value ∈ memberValues member, good value := by
  cases normalizeMember_eq_ok.mp h with
  | @tagged entries _ _ hr =>
    have hv : memberValues (anyOfKey, .array entries) = [.array entries] :=
      if_neg anyOf_keyword.1
    rw [withinMember_schema oneOf_keyword.1 fun hm => absurd hm oneOf_keyword.2, hv,
      List.forall_mem_singleton]
    exact ih hp hr
  | @named name map results hm hr =>
    have hn := paired_names (hr.imp fun _ _ h => h.1)
    rw [withinMember_map hm, collect_names hn hp, memberValues_named hm, List.forall_mem_map]
    have hi := (plain_object.mp hp).2.2
    have hs := sorted_perm map
    constructor
    · intro ha named hna
      obtain ⟨out, ho, -, hno⟩ := mem_paired hr.flip (hs.mem_iff.mpr hna)
      exact (ih (hi named hna) hno).mp (ha out ho)
    · intro ha out ho
      obtain ⟨named, hna, -, hno⟩ := mem_paired hr ho
      have hna := hs.mem_iff.mp hna
      exact (ih (hi named hna) hno).mpr (ha named hna)
  | ordinary hor hr =>
    rw [hor.memberValues_eq, List.forall_mem_singleton, withinMember_schema hor.kept fun hm =>
      (normalizeSchema_shaped hr).object.trans (hor.schema hm)]
    exact ih hp hr

theorem spent_none (h : normalizeMember (normalizeSchema definitions depth) member = .ok none) :
    ∀ value ∈ memberValues member, Spent definitions value := by
  cases normalizeMember_eq_ok.mp h with
  | dropped hd =>
    intro value hv
    rw [memberValues, if_pos hd] at hv
    cases hv
  | unbounded =>
    have hv : memberValues (additionalKey, .bool true) = [.bool true] :=
      if_neg (by decide)
    rw [hv, List.forall_mem_singleton]
    exact fun head hr => by cases hr

/-- No rule applies to the result of a pass, exactly when none applies again to the schema. -/
theorem normal_iff (hd : ∀ member ∈ definitions, Plain member.2) (hp : value.Plain)
    (h : normalizeSchema definitions depth value = .ok result) :
    Normal result ↔ Spent definitions value := by
  induction depth using Nat.strong_induction_on generalizing value result with
  | _ depth ih =>
    cases value with
    | array entries =>
      obtain ⟨less, results, hl, rfl, hr⟩ := normalizeSchema_results h
      have hi := plain_array.mp hp
      rw [Normal, everywhere_array, spent_array]
      constructor
      · intro ha entry he
        obtain ⟨result, hm, hn⟩ := mem_paired hr.flip he
        exact (ih less hl (hi entry he) hn).mp (ha result hm)
      · intro ha result hm
        obtain ⟨entry, he, hn⟩ := mem_paired hr hm
        exact (ih less hl (hi entry he) hn).mpr (ha entry he)
    | object schema =>
      have hc := (normalizeSchema_clean hd hp h).1
      obtain ⟨less, head, left, hl, hi, hle, rfl⟩ := normalizeSchema_leaves hd hp h
      have hin := (plain_object.mp hle.plain).2.2
      have hm : ∀ {member out}, member ∈ head →
          normalizeMember (normalizeSchema definitions less) member = .ok (some out) →
          (WithinMember NormalSchema out ↔
            ∀ value ∈ memberValues member, Spent definitions value) := fun hm ho =>
        withinMember_iff (hin _ hm) ho fun hv hr => ih less hl hv hr
      rw [Normal, everywhere_object, spent_object hi, hle.normalSchema_iff hd hc]
      refine and_congr_right fun _ => ⟨fun ha member hme hk => ?_, fun ha out ho => ?_⟩
      · obtain ⟨_ | out, ho⟩ := hle.returns member hme
        · exact spent_none ho
        · exact (hm hme ho).mp (ha out ((hle.mem_iff out).mpr ⟨_, hme, hk, ho⟩))
      · obtain ⟨member, hme, hk, hno⟩ := (hle.mem_iff out).mp ho
        exact (hm hme hno).mpr (ha member hme hk)
    | _ =>
      cases depth with
      | zero => cases h
      | succ =>
        cases h
        exact iff_of_true (fun _ hs => absurd hs List.not_mem_nil) fun _ hr => by cases hr

/-- A second pass over a schema changes nothing, exactly when at no position a rule applies again:
inlining leaves no type to strip, no `null` alternative and no tags in a union without them. -/
theorem normalizeSchema_again_iff (hdefinitions : ∀ member ∈ definitions, Plain member.2)
    (hplain : value.Plain) (hresolves : Resolves definitions value) :
    ∃ depth result again, ∀ more, depth ≤ more →
      normalizeSchema definitions more value = .ok result ∧
      normalizeSchema definitions more result = .ok again ∧
      (Same again result ↔
        ∀ head, Reads definitions value head → RulesSpent definitions head) := by
  obtain ⟨depth, result, again, h⟩ := normalizes_twice hdefinitions hplain hresolves
  have hn := normal_iff hdefinitions hplain (h depth (Nat.le_refl depth)).1
  refine ⟨depth, result, again, fun more hm => ?_⟩
  obtain ⟨hf, hs, hsa⟩ := h more hm
  exact ⟨hf, hs, hsa.trans hn⟩

theorem resolves_of_flat (h : ∀ ref ∈ references value, ∃ target,
      referenced definitions ref = some target ∧ references (.object target) = []) :
    Resolves definitions value := by
  have hl : ∀ ref ∈ references value, ∀ following, ¬Refers definitions ref following := by
    rintro ref hr following ⟨target, ht, hf⟩
    obtain ⟨found, hfo, hfl⟩ := h ref hr
    cases hfo.symm.trans ht
    rw [hfl] at hf
    cases hf
  have hfi : ∀ ref, Reaches definitions value ref → ref ∈ references value := by
    rintro ref ⟨first, hr, hp⟩
    rcases Relation.ReflTransGen.cases_head hp with rfl | ⟨following, hre, -⟩
    · exact hr
    · exact absurd hre (hl first hr following)
  refine ⟨fun ref hrea => ?_, fun ref hrea hc => ?_⟩
  · grind
  · obtain ⟨following, hre, -⟩ := Relation.TransGen.head'_iff.mp hc
    exact hl ref (hfi ref hrea) following hre

theorem plain_single (hn : name ≠ protoName) (hp : value.Plain) :
    Plain (.object [(name, value)]) :=
  .object (List.nodup_singleton name) (fun h => hn (List.mem_singleton.mp h).symm)
    (List.forall_mem_singleton.mpr hp)

theorem plain_pair {first second : JsString} {other : JsonValue} (hd : first ≠ second)
    (hf : first ≠ protoName) (hs : second ≠ protoName) (hv : value.Plain)
    (ho : other.Plain) : Plain (.object [(first, value), (second, other)]) := by
  refine .object ?_ ?_ ?_
  · simpa [Members.names] using hd
  · simpa [Members.names] using ⟨hf.symm, hs.symm⟩
  · exact List.forall_mem_cons.mpr ⟨hv, List.forall_mem_singleton.mpr ho⟩

def identifierDefinitions : JsonMembers :=
  [(js "id", .object [(typeKey, .string (js "string"))])]

/-- A reference with a description. -/
def identifierReference : JsonValue :=
  .object [(refKey, .string (js "#/$defs/id")),
    (js "description", .string (js "x"))]

theorem identifier_resolves : Resolves identifierDefinitions identifierReference := by
  have hre : references identifierReference = [js "#/$defs/id"] := rfl
  refine resolves_of_flat fun ref hr => ?_
  rw [hre] at hr
  cases List.mem_singleton.mp hr
  exact ⟨_, rfl, rfl⟩

theorem normalizeSchema_again_iff_identifier :
    Resolves identifierDefinitions identifierReference ∧
      ∃ depth result again, ∀ more, depth ≤ more →
        normalizeSchema identifierDefinitions more identifierReference = .ok result ∧
        normalizeSchema identifierDefinitions more result = .ok again ∧
        (Same again result ↔ ∀ head, Reads identifierDefinitions identifierReference head →
          RulesSpent identifierDefinitions head) := by
  refine ⟨identifier_resolves, normalizeSchema_again_iff ?_ ?_ identifier_resolves⟩
  · exact List.forall_mem_singleton.mpr (plain_single (by decide) (.string _))
  · exact plain_pair (by decide) (by decide) (by decide) (.string _)
      (.string _)

/-! ### A union that a second pass renames -/

def tagProperties (tag : String) : JsonValue :=
  .object [(typeKey, .object [(constKey, .string (js tag))])]

def tagDefinition (tag : String) : JsonValue :=
  .object [(typeKey, .string (js "object")), (propertiesKey, tagProperties tag)]

def tagDefinitions : JsonMembers :=
  [(js "ping", tagDefinition "ping"),
    (js "pong", tagDefinition "pong")]

def tagReferences : JsonValue :=
  .object [(anyOfKey, .array
    [.object [(refKey, .string (js "#/$defs/ping"))],
      .object [(refKey, .string (js "#/$defs/pong"))]])]

def tagUnion (keyword : JsString) : JsonValue :=
  .object [(keyword, .array
    [.object [(propertiesKey, tagProperties "ping"),
        (typeKey, .string (js "object"))],
      .object [(propertiesKey, tagProperties "pong"),
        (typeKey, .string (js "object"))]])]

theorem tagDefinition_plain (tag : String) : Plain (tagDefinition tag) := by
  refine plain_pair (by decide) (by decide) (by decide) (.string _) ?_
  exact plain_single (by decide) (plain_single (by decide) (.string _))

theorem tagReferences_plain : Plain tagReferences := by
  refine plain_single (by decide) (plain_array.mpr (List.forall_mem_cons.mpr ⟨?_, ?_⟩))
  · exact plain_single (by decide) (.string _)
  · exact List.forall_mem_singleton.mpr (plain_single (by decide) (.string _))

theorem tagReferences_resolves : Resolves tagDefinitions tagReferences := by
  have hre : references tagReferences =
      [js "#/$defs/ping", js "#/$defs/pong"] := rfl
  refine resolves_of_flat fun ref hr => ?_
  rw [hre] at hr
  rcases List.mem_pair.mp hr with rfl | rfl
  · exact ⟨_, rfl, rfl⟩
  · exact ⟨_, rfl, rfl⟩

/-- The references are inlined under `anyOf`, where a second pass finds the tags. -/
theorem tagged_union_renamed :
    (∀ member ∈ tagDefinitions, Plain member.2) ∧ Plain tagReferences ∧
      Resolves tagDefinitions tagReferences ∧
      normalizeSchema tagDefinitions 9 tagReferences = .ok (tagUnion anyOfKey) ∧
      normalizeSchema tagDefinitions 9 (tagUnion anyOfKey) = .ok (tagUnion oneOfKey) ∧
      ¬Same (tagUnion oneOfKey) (tagUnion anyOfKey) := by
  refine ⟨?_, tagReferences_plain, tagReferences_resolves, rfl, rfl, fun hs => ?_⟩
  · exact List.forall_mem_cons.mpr
      ⟨tagDefinition_plain "ping", List.forall_mem_singleton.mpr (tagDefinition_plain "pong")⟩
  · cases hs with
    | object hn =>
      have ha := (hn anyOfKey).mpr (List.mem_singleton_self _)
      exact absurd (List.mem_singleton.mp ha) (by decide)

end MangoProtocol.TypeScript.JsonValue
