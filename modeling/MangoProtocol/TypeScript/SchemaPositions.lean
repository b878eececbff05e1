import MangoProtocol.TypeScript.NormalizeSchema

/-! The objects that `normalizeSchema` reads as schemas, and what the rules do to them.  Stripping a
`null` alternative leaves a schema alone or makes it lighter. -/

namespace MangoProtocol.TypeScript.JsonValue

open ProofKit

/-! ### Positions -/

mutual

/-- The objects at the positions of schemas.  A keyword that is dropped has none, and the names of a
map are no keywords. -/
def schemas : JsonValue → List JsonMembers
  | .array entries => entriesSchemas entries
  | .object members => members :: membersSchemas members
  | _ => []

def namedSchemas : JsonValue → List JsonMembers
  | .array entries => entriesSchemas entries
  | .object members => valuesSchemas members
  | _ => []

def entriesSchemas : List JsonValue → List JsonMembers
  | [] => []
  | entry :: entries => schemas entry ++ entriesSchemas entries

def membersSchemas : JsonMembers → List JsonMembers
  | [] => []
  | (name, value) :: members =>
    (if name ∈ droppedKeys then []
      else if name ∈ schemaMapKeys then namedSchemas value else schemas value) ++
      membersSchemas members

def valuesSchemas : JsonMembers → List JsonMembers
  | [] => []
  | (_, value) :: members => schemas value ++ valuesSchemas members

end

def memberSchemas (member : JsString × JsonValue) : List JsonMembers :=
  if member.1 ∈ droppedKeys then []
  else if member.1 ∈ schemaMapKeys then namedSchemas member.2 else schemas member.2

theorem schemas_array (entries : List JsonValue) :
    schemas (.array entries) = entries.flatMap schemas := by
  rw [schemas]
  induction entries with
  | nil => rfl
  | cons entry entries ih => rw [entriesSchemas, ih, List.flatMap_cons]

theorem schemas_object (members : JsonMembers) :
    schemas (.object members) = members :: members.flatMap memberSchemas := by
  have hm : membersSchemas members = members.flatMap memberSchemas := by
    induction members with
    | nil => rfl
    | cons member members ih => rw [membersSchemas, ih, List.flatMap_cons, memberSchemas]
  rw [schemas, hm]

theorem namedSchemas_object (members : JsonMembers) :
    namedSchemas (.object members) = members.flatMap fun member => schemas member.2 := by
  rw [namedSchemas]
  induction members with
  | nil => rfl
  | cons member members ih => rw [valuesSchemas, ih, List.flatMap_cons]

theorem namedSchemas_of_not_object {value : JsonValue} (h : value.isObject = false) :
    namedSchemas value = schemas value := by
  cases value with
  | object members => cases h
  | _ => rfl

/-! ### What holds of every schema -/

def Everywhere (good : JsonMembers → Prop) (value : JsonValue) : Prop :=
  ∀ schema ∈ schemas value, good schema

def WithinMember (good : JsonMembers → Prop) (member : JsString × JsonValue) : Prop :=
  ∀ schema ∈ memberSchemas member, good schema

variable {good : JsonMembers → Prop} {name : JsString} {value : JsonValue}
  {members schema : JsonMembers}

variable {entries : List JsonValue}

theorem everywhere_array :
    Everywhere good (.array entries) ↔ ∀ entry ∈ entries, Everywhere good entry := by
  simp only [Everywhere, schemas_array, List.mem_flatMap]
  constructor
  · exact fun h entry he schema hs => h schema ⟨entry, he, hs⟩
  · rintro h schema ⟨entry, he, hs⟩
    exact h entry he schema hs

theorem everywhere_object :
    Everywhere good (.object members) ↔
      good members ∧ ∀ member ∈ members, WithinMember good member := by
  simp only [Everywhere, WithinMember, schemas_object, List.mem_cons, List.mem_flatMap]
  constructor
  · grind
  · grind

theorem withinMember_schema (hd : name ∉ droppedKeys)
    (hm : name ∈ schemaMapKeys → value.isObject = false) :
    WithinMember good (name, value) ↔ Everywhere good value := by
  rw [WithinMember, memberSchemas, if_neg hd]
  split
  · rename_i hn
    rw [namedSchemas_of_not_object (hm hn)]
    rfl
  · rfl

theorem keywords_apart : (∀ name ∈ schemaMapKeys, name ∉ droppedKeys) ∧
    (∀ name ∈ [typeKey, anyOfKey, oneOfKey], name ∉ droppedKeys ∧ name ∉ schemaMapKeys) ∧
    refKey ≠ typeKey ∧ refKey ≠ anyOfKey := by
  decide +kernel

theorem schemaMapKeys_not_dropped (h : name ∈ schemaMapKeys) : name ∉ droppedKeys :=
  keywords_apart.1 name h

theorem withinMember_map (hm : name ∈ schemaMapKeys) :
    WithinMember good (name, .object members) ↔
      ∀ named ∈ members, Everywhere good named.2 := by
  rw [WithinMember, memberSchemas, if_neg (schemaMapKeys_not_dropped hm), if_pos hm,
    namedSchemas_object]
  simp only [List.mem_flatMap, Everywhere]
  constructor
  · exact fun h named hn schema hs => h schema ⟨named, hn, hs⟩
  · rintro h schema ⟨named, hn, hs⟩
    exact h named hn schema hs

theorem type_keyword : typeKey ∉ droppedKeys ∧ typeKey ∉ schemaMapKeys :=
  keywords_apart.2.1 _ (by simp)

theorem anyOf_keyword : anyOfKey ∉ droppedKeys ∧ anyOfKey ∉ schemaMapKeys :=
  keywords_apart.2.1 _ (by simp)

theorem oneOf_keyword : oneOfKey ∉ droppedKeys ∧ oneOfKey ∉ schemaMapKeys :=
  keywords_apart.2.1 _ (by simp)

/-- Every member of every schema is good. -/
def EachMember (good : JsString × JsonValue → Prop) (value : JsonValue) : Prop :=
  Everywhere (fun schema => ∀ member ∈ schema, good member) value

def FitMember (good : JsString × JsonValue → Prop) (member : JsString × JsonValue) : Prop :=
  good member ∧ WithinMember (fun schema => ∀ member ∈ schema, good member) member

theorem eachMember_object {good : JsString × JsonValue → Prop} :
    EachMember good (.object members) ↔ ∀ member ∈ members, FitMember good member := by
  rw [EachMember, everywhere_object]
  exact forall₂_and.symm

/-! ### Plain schemas -/

theorem plain_object :
    Plain (.object members) ↔ (Members.names members).Nodup ∧
      protoName ∉ Members.names members ∧ ∀ member ∈ members, Plain member.2 := by
  constructor
  · intro h
    cases h with
    | object hd hp hi => exact ⟨hd, hp, hi⟩
  · rintro ⟨hd, hp, hi⟩
    exact .object hd hp hi

theorem plain_merge {base later : JsonMembers} (hb : Plain (.object base))
    (hl : Plain (.object later)) : Plain (.object (Members.merge base later)) := by
  obtain ⟨hd, hp, hi⟩ := plain_object.mp hb
  obtain ⟨-, hp', hi'⟩ := plain_object.mp hl
  refine .object (Members.nodup_merge hd) (fun hn => ?_) fun member hm => ?_
  · obtain ⟨member, hm, hs⟩ := List.mem_map.mp hn
    rcases Members.mem_merge hm with hm | hm
    · exact hp (List.mem_map.mpr ⟨member, hm, hs⟩)
    · exact hp' (List.mem_map.mpr ⟨member, hm, hs⟩)
  · exact (Members.mem_merge hm).elim (hi member) (hi' member)

theorem plain_without (h : Plain (.object members)) (name : JsString) :
    Plain (.object (Members.without members name)) := by
  obtain ⟨hd, hp, hi⟩ := plain_object.mp h
  refine .object (Members.nodup_without hd) (fun hn => ?_) fun member hm => ?_
  · obtain ⟨member, hm, hs⟩ := List.mem_map.mp hn
    exact hp (List.mem_map.mpr ⟨member, (Members.mem_without.mp hm).1, hs⟩)
  · exact hi member (Members.mem_without.mp hm).1

theorem plain_assign {found : JsonValue} (h : Plain (.object members))
    (hf : Members.find members name = some found) (hv : value.Plain) :
    Plain (.object (Members.assign members name value)) := by
  obtain ⟨hd, hp, hi⟩ := plain_object.mp h
  have hn : name ∈ Members.names members :=
    List.mem_map.mpr ⟨_, Members.mem_of_find hf, rfl⟩
  refine .object (Members.nodup_assign hd) ?_ fun member hm => ?_
  · rw [Members.names_assign, if_pos hn]
    exact hp
  · rcases Members.mem_assign hm with rfl | hm
    · exact hv
    · exact hi member hm

theorem plain_array : Plain (.array entries) ↔ ∀ entry ∈ entries, Plain entry := by
  constructor
  · intro h
    cases h with
    | array hi => exact hi
  · exact .array

theorem Plain.of_find (h : Plain (.object members))
    (hf : Members.find members name = some value) : value.Plain :=
  (plain_object.mp h).2.2 _ (Members.mem_of_find hf)

/-! ### The `null` alternative -/

/-- What stripping the `null` alternative does to a schema: nothing, one type in the place of
several, fewer types, or the members of one branch in the place of the union. -/
inductive Strips (schema : JsonMembers) : JsonMembers → Prop where
  | same : Strips schema schema
  | oneType {entries : List JsonValue} {only : JsonValue}
    (found : Members.find schema typeKey = some (.array entries)) (one : only ∈ entries) :
    Strips schema (Members.assign schema typeKey only)
  | fewerTypes {entries types : List JsonValue}
    (found : Members.find schema typeKey = some (.array entries)) (kept : types.Sublist entries)
    (fewer : types.length < entries.length) :
    Strips schema (Members.assign schema typeKey (.array types))
  | oneBranch {branches : List JsonValue} {only : JsonMembers}
    (found : Members.find schema anyOfKey = some (.array branches))
    (one : .object only ∈ branches) :
    Strips schema (Members.merge (Members.without schema anyOfKey) only)

theorem strips (schema : JsonMembers) : Strips schema (stripNullAlternative schema) := by
  unfold stripNullAlternative
  split
  · rename_i entries hf
    have hk : (entries.filter (!isString · "null")).Sublist entries := List.filter_sublist
    split
    · rename_i only ho
      rw [ho] at hk
      exact .oneType hf (List.singleton_sublist.mp hk)
    · generalize entries.filter (!isString · "null") = types at hk ⊢
      rcases Nat.lt_or_ge types.length entries.length with hfe | ha
      · exact .fewerTypes hf hk hfe
      · rw [hk.eq_of_length_le ha, Members.assign_self hf]
        exact .same
  · split
    · rename_i first second hf
      split
      · rename_i only ho
        have hm : JsonValue.object only ∈ [first, second].filter (!isNullBranch ·) := by
          rw [ho]
          exact List.mem_singleton_self _
        exact .oneBranch hf (List.mem_of_mem_filter hm)
      · exact .same
    · exact .same

variable {stripped : JsonMembers}

theorem Strips.plain (h : Strips schema stripped) (hs : Plain (.object schema)) :
    Plain (.object stripped) := by
  cases h with
  | same => exact hs
  | oneType hf ho =>
    exact plain_assign hs hf (plain_array.mp (hs.of_find hf) _ ho)
  | fewerTypes hf hk =>
    refine plain_assign hs hf (plain_array.mpr fun entry he => ?_)
    exact plain_array.mp (hs.of_find hf) entry (hk.mem he)
  | oneBranch hf ho =>
    exact plain_merge (plain_without hs anyOfKey)
      (plain_array.mp (hs.of_find hf) _ ho)

theorem Strips.eachMember {good : JsString × JsonValue → Prop} (h : Strips schema stripped)
    (ht : ∀ value, good (typeKey, value)) (hs : EachMember good (.object schema)) :
    EachMember good (.object stripped) := by
  have hme := eachMember_object.mp hs
  have hv : ∀ {name value}, name ∉ droppedKeys ∧ name ∉ schemaMapKeys →
      Members.find schema name = some value → EachMember good value := fun hn hf =>
    (withinMember_schema hn.1 fun hma => absurd hma hn.2).mp
      (hme _ (Members.mem_of_find hf)).2
  have ha : ∀ {value}, EachMember good value →
      EachMember good (.object (Members.assign schema typeKey value)) := by
    intro value hva
    refine eachMember_object.mpr fun member hm => ?_
    rcases Members.mem_assign hm with rfl | hm
    · exact ⟨ht value, (withinMember_schema type_keyword.1
        fun hma => absurd hma type_keyword.2).mpr hva⟩
    · exact hme member hm
  cases h with
  | same => exact hs
  | oneType hf ho =>
    exact ha (everywhere_array.mp (hv type_keyword hf) _ ho)
  | fewerTypes hf hk =>
    refine ha (everywhere_array.mpr fun entry he => ?_)
    exact everywhere_array.mp (hv type_keyword hf) entry (hk.mem he)
  | oneBranch hf ho =>
    have hb := eachMember_object.mp
      (everywhere_array.mp (hv anyOf_keyword hf) _ ho)
    refine eachMember_object.mpr fun member hm => ?_
    rcases Members.mem_merge hm with hm | hm
    · exact hme member (Members.mem_without.mp hm).1
    · exact hb member hm

/-! ### Sizes -/

def keyWeight (name : JsString) : Nat := if name = anyOfKey then 2 else 1

theorem keyWeight_pos (name : JsString) : 0 < keyWeight name := by
  unfold keyWeight
  split <;> decide

section Expanded

/-! The size of a schema in which every reference counts as much as `cost` says. -/

variable (cost : JsString → Nat)

def referenceCost (schema : JsonMembers) : Nat := (reference? schema).elim 0 cost

def expanded (value : JsonValue) : Nat :=
  weight keyWeight value + ((schemas value).map (referenceCost cost)).sum

def memberExpanded (member : JsString × JsonValue) : Nat :=
  keyWeight member.1 + weight keyWeight member.2 +
    ((memberSchemas member).map (referenceCost cost)).sum

variable {α : Type}

theorem sum_flatMap (items : List α) (size : α → Nat) (inside : α → List JsonMembers) :
    (items.map size).sum + ((items.flatMap inside).map (referenceCost cost)).sum =
      (items.map fun item => size item + ((inside item).map (referenceCost cost)).sum).sum := by
  induction items with
  | nil => rfl
  | cons item items ih =>
    simp only [List.map_cons, List.sum_cons, List.flatMap_cons, List.map_append, List.sum_append]
    omega

theorem expanded_array (entries : List JsonValue) :
    expanded cost (.array entries) = 1 + (entries.map (expanded cost)).sum := by
  rw [expanded, weight_array, schemas_array, Nat.add_assoc, sum_flatMap]
  rfl

theorem expanded_object (members : JsonMembers) :
    expanded cost (.object members) =
      1 + referenceCost cost members + (members.map (memberExpanded cost)).sum := by
  have hs := sum_flatMap cost members
    (fun member => keyWeight member.1 + weight keyWeight member.2) memberSchemas
  have hm : (members.map (memberExpanded cost)).sum = _ := hs.symm
  rw [expanded, weight_object, schemas_object, List.map_cons, List.sum_cons, hm]
  omega

theorem memberExpanded_schema (hd : name ∉ droppedKeys)
    (hm : name ∈ schemaMapKeys → value.isObject = false) :
    memberExpanded cost (name, value) = keyWeight name + expanded cost value := by
  have hs : memberSchemas (name, value) = schemas value := by
    grind [memberSchemas, namedSchemas_of_not_object]
  rw [memberExpanded, hs, expanded, Nat.add_assoc]

theorem memberExpanded_map (hm : name ∈ schemaMapKeys) :
    memberExpanded cost (name, .object members) =
      keyWeight name + 1 +
        (members.map fun named => keyWeight named.1 + expanded cost named.2).sum := by
  have hs := sum_flatMap cost members
    (fun named => keyWeight named.1 + weight keyWeight named.2) fun named => schemas named.2
  simp only [Nat.add_assoc] at hs
  rw [memberExpanded, memberSchemas, if_neg (schemaMapKeys_not_dropped hm), if_pos hm,
    namedSchemas_object, weight_object]
  simp only [expanded, ← hs]
  omega

variable {cost}

theorem expanded_entry {entries : List JsonValue} {entry : JsonValue} (h : entry ∈ entries) :
    expanded cost entry < expanded cost (.array entries) := by
  have hle : expanded cost entry ≤ (entries.map (expanded cost)).sum :=
    List.single_le_sum (fun _ _ => Nat.zero_le _) _ (List.mem_map_of_mem h)
  rw [expanded_array]
  omega

theorem memberExpanded_lt {member : JsString × JsonValue} (h : member ∈ members) :
    memberExpanded cost member < expanded cost (.object members) := by
  have hle : memberExpanded cost member ≤ (members.map (memberExpanded cost)).sum :=
    List.single_le_sum (fun _ _ => Nat.zero_le _) _ (List.mem_map_of_mem h)
  rw [expanded_object]
  omega

theorem expanded_member (h : (name, value) ∈ members) (hd : name ∉ droppedKeys)
    (hm : name ∈ schemaMapKeys → value.isObject = false) :
    expanded cost value < expanded cost (.object members) := by
  have hlt : memberExpanded cost _ < expanded cost (.object members) := memberExpanded_lt h
  rw [memberExpanded_schema cost hd hm] at hlt
  omega

theorem expanded_named {map : JsonMembers} {named : JsString × JsonValue}
    (h : (name, .object map) ∈ members) (hm : name ∈ schemaMapKeys) (hn : named ∈ map) :
    expanded cost named.2 < expanded cost (.object members) := by
  have hle : keyWeight named.1 + expanded cost named.2 ≤
      (map.map fun named => keyWeight named.1 + expanded cost named.2).sum :=
    List.single_le_sum (fun _ _ => Nat.zero_le _) _ (List.mem_map_of_mem hn)
  have hlt : memberExpanded cost _ < expanded cost (.object members) := memberExpanded_lt h
  rw [memberExpanded_map cost hm] at hlt
  omega

theorem expanded_pos (value : JsonValue) : 0 < expanded cost value :=
  Nat.add_pos_left (weight_pos value) _

/-! ### The rules make schemas smaller -/

theorem sum_sublist {size : α → Nat} (hp : ∀ item, 0 < size item) {items fewer : List α}
    (h : fewer.Sublist items) :
    (fewer.map size).sum + items.length ≤ (items.map size).sum + fewer.length := by
  induction h with
  | slnil => exact Nat.le_refl _
  | cons item _ ih =>
    have hi := hp item
    simp only [List.map_cons, List.sum_cons, List.length_cons]
    omega
  | cons_cons item _ ih =>
    simp only [List.map_cons, List.sum_cons, List.length_cons]
    omega

theorem reference_of_find {other : JsonMembers}
    (h : Members.find schema refKey = Members.find other refKey) :
    reference? schema = reference? other := by
  rw [reference?, h, reference?]

theorem expanded_assign_lt {found : JsonValue}
    (hf : Members.find schema typeKey = some found)
    (hl : expanded cost value < expanded cost found) :
    expanded cost (.object (Members.assign schema typeKey value)) <
      expanded cost (.object schema) := by
  have ht : ∀ value, memberExpanded cost (typeKey, value) =
      keyWeight typeKey + expanded cost value := fun value =>
    memberExpanded_schema cost type_keyword.1 fun hm => absurd hm type_keyword.2
  have hr : reference? (Members.assign schema typeKey value) = reference? schema := by
    refine reference_of_find ?_
    rw [Members.find_assign, if_neg keywords_apart.2.2.1]
  have hs : ((Members.assign schema typeKey value).map (memberExpanded cost)).sum +
      memberExpanded cost (typeKey, found) = _ :=
    Members.sum_assign_of_find (memberExpanded cost) hf
  rw [ht, ht] at hs
  rw [expanded_object, expanded_object, referenceCost, hr, ← referenceCost]
  omega

theorem expanded_oneBranch_lt {branches : List JsonValue} {only : JsonMembers}
    (hs : Plain (.object schema)) (hf : Members.find schema anyOfKey = some (.array branches))
    (ho : .object only ∈ branches) :
    expanded cost (.object (Members.merge (Members.without schema anyOfKey) only)) <
      expanded cost (.object schema) := by
  have ha : memberExpanded cost (anyOfKey, .array branches) =
      keyWeight anyOfKey + expanded cost (.array branches) :=
    memberExpanded_schema cost anyOf_keyword.1 fun hm => absurd hm anyOf_keyword.2
  have hb : expanded cost (.object only) < expanded cost (.array branches) :=
    expanded_entry ho
  have hw := Members.sum_without (memberExpanded cost) (plain_object.mp hs).1 hf
  have hme : ((Members.merge (Members.without schema anyOfKey) only).map
      (memberExpanded cost)).sum ≤ _ := Members.sum_merge_le (memberExpanded cost)
  have hr : referenceCost cost (Members.merge (Members.without schema anyOfKey) only) ≤
      referenceCost cost only + referenceCost cost schema := by
    have hon : Plain (.object only) := plain_array.mp (hs.of_find hf) _ ho
    have hfi : Members.find (Members.merge (Members.without schema anyOfKey) only) refKey =
        _ := Members.find_merge (plain_object.mp hon).1
    rw [Members.find_without keywords_apart.2.2.2] at hfi
    cases hn : Members.find only refKey with
    | none =>
      rw [hn, Option.none_or] at hfi
      rw [referenceCost, reference_of_find hfi]
      exact Nat.le_add_left _ _
    | some held =>
      rw [hn, Option.some_or, ← hn] at hfi
      rw [referenceCost, reference_of_find hfi]
      exact Nat.le_add_right _ _
  rw [expanded_object] at hb
  rw [expanded_object, expanded_object]
  omega

theorem Strips.expanded_lt (h : Strips schema stripped) (hs : Plain (.object schema)) :
    stripped = schema ∨ expanded cost (.object stripped) < expanded cost (.object schema) := by
  cases h with
  | same => exact .inl rfl
  | oneType hf ho => exact .inr (expanded_assign_lt hf (expanded_entry ho))
  | @fewerTypes entries types hf hk hfe =>
    refine .inr (expanded_assign_lt hf ?_)
    have hp : ∀ entry, 0 < expanded cost entry := expanded_pos
    have hsu := sum_sublist hp hk
    rw [expanded_array, expanded_array]
    omega
  | oneBranch hf ho => exact .inr (expanded_oneBranch_lt hs hf ho)

theorem expanded_inline {target : JsonMembers} {ref : JsString} (hs : Plain (.object schema))
    (hre : reference? schema = some ref)
    (ht : expanded cost (.object target) ≤ cost ref) :
    expanded cost (.object (Members.merge target (Members.without schema refKey))) <
      expanded cost (.object schema) := by
  have hf : Members.find schema refKey = some (.string ref) := by grind [reference?]
  have hw := Members.sum_without (memberExpanded cost) (plain_object.mp hs).1 hf
  have hm : ((Members.merge target (Members.without schema refKey)).map
      (memberExpanded cost)).sum ≤ _ := Members.sum_merge_le (memberExpanded cost)
  have hr : reference? (Members.merge target (Members.without schema refKey)) =
      reference? target := by
    refine reference_of_find ?_
    rw [Members.find_merge (plain_object.mp (plain_without hs refKey)).1,
      Members.find_without_self, Option.none_or]
  have hc : referenceCost cost schema = cost ref := by rw [referenceCost, hre]; rfl
  have hp : 0 < memberExpanded cost (refKey, .string ref) :=
    Nat.add_pos_left (Nat.add_pos_left (keyWeight_pos refKey) _) _
  rw [expanded_object] at ht
  rw [expanded_object, expanded_object, hc, referenceCost, hr, ← referenceCost]
  omega

end Expanded

end MangoProtocol.TypeScript.JsonValue
