import MangoProtocol.ProofKit.Acyclic
import MangoProtocol.ProofKit.Lists
import MangoProtocol.TypeScript.SchemaPositions

/-! Passes of `normalizeSchema`, whatever call stack they take.  A pass over a schema whose
references resolve without cycles has a result. -/

namespace MangoProtocol.TypeScript.JsonValue

open ProofKit

/-! ### One member -/

/-- A member whose value is normalised as a schema, and under its own name. -/
structure Ordinary (name : JsString) (value : JsonValue) : Prop where
  kept : name ∉ droppedKeys
  closed : ¬(name = additionalKey ∧ value = .bool true)
  untagged : ∀ entries, name = anyOfKey → value = .array entries →
    isConstTaggedUnion entries = false
  schema : name ∈ schemaMapKeys → value.isObject = false

/-- The kinds of members that the loop tells apart. -/
inductive MemberKind : JsString → JsonValue → Prop where
  | dropped {name : JsString} {value : JsonValue} (dropped : name ∈ droppedKeys) :
    MemberKind name value
  | unbounded : MemberKind additionalKey (.bool true)
  | tagged {entries : List JsonValue} (tagged : isConstTaggedUnion entries = true) :
    MemberKind anyOfKey (.array entries)
  | named {name : JsString} {map : JsonMembers} (keyword : name ∈ schemaMapKeys) :
    MemberKind name (.object map)
  | ordinary {name : JsString} {value : JsonValue} (ordinary : Ordinary name value) :
    MemberKind name value

theorem memberKind (name : JsString) (value : JsonValue) : MemberKind name value := by
  by_cases hd : name ∈ droppedKeys
  · exact .dropped hd
  by_cases hu : name = additionalKey ∧ value = .bool true
  · obtain ⟨rfl, rfl⟩ := hu
    exact .unbounded
  by_cases hna : ∃ map, name ∈ schemaMapKeys ∧ value = .object map
  · obtain ⟨map, hn, rfl⟩ := hna
    exact .named hn
  by_cases ht : ∃ entries, name = anyOfKey ∧ value = .array entries ∧
      isConstTaggedUnion entries = true
  · obtain ⟨entries, rfl, rfl, hta⟩ := ht
    exact .tagged hta
  refine .ordinary ⟨hd, hu, fun entries hn hv => ?_, fun hn => ?_⟩
  · grind
  · cases value with
    | object map => exact absurd ⟨map, hn, rfl⟩ hna
    | _ => rfl

/-- What a turn of the loop over the members assigns, where `normal` relates values to what they are
normalised to. -/
inductive Assigns (normal : JsonValue → JsonValue → Prop) :
    JsString × JsonValue → Option (JsString × JsonValue) → Prop where
  | dropped {name : JsString} {value : JsonValue} (dropped : name ∈ droppedKeys) :
    Assigns normal (name, value) none
  | unbounded : Assigns normal (additionalKey, .bool true) none
  | tagged {entries : List JsonValue} {result : JsonValue}
    (tagged : isConstTaggedUnion entries = true) (normalized : normal (.array entries) result) :
    Assigns normal (anyOfKey, .array entries) (some (oneOfKey, result))
  | named {name : JsString} {map results : JsonMembers} (keyword : name ∈ schemaMapKeys)
    (normalized : List.Forall₂ (fun named result => result.1 = named.1 ∧ normal named.2 result.2)
      (sorted map) results) :
    Assigns normal (name, .object map) (some (name, .object (collect (results.map some))))
  | ordinary {name : JsString} {value result : JsonValue} (ordinary : Ordinary name value)
    (normalized : normal value result) : Assigns normal (name, value) (some (name, result))

variable {normal other : JsonValue → JsonValue → Prop} {name : JsString} {value : JsonValue}
  {member : JsString × JsonValue} {assigned : Option (JsString × JsonValue)}

theorem Assigns.mono (h : Assigns normal member assigned)
    (him : ∀ {value result}, normal value result → other value result) :
    Assigns other member assigned := by
  cases h with
  | dropped hd => exact .dropped hd
  | unbounded => exact .unbounded
  | tagged ht hn => exact .tagged ht (him hn)
  | named hm hn => exact .named hm (hn.imp fun _ _ h => ⟨h.1, him h.2⟩)
  | ordinary ho hn => exact .ordinary ho (him hn)

theorem exists_assigns
    (hs : name ∉ droppedKeys → (name ∈ schemaMapKeys → value.isObject = false) →
      ∃ result, normal value result)
    (hn : ∀ map, name ∈ schemaMapKeys → value = .object map → ∀ named ∈ map,
      ∃ result, normal named.2 result) :
    ∃ assigned, Assigns normal (name, value) assigned := by
  cases memberKind name value with
  | dropped hd => exact ⟨none, .dropped hd⟩
  | unbounded => exact ⟨none, .unbounded⟩
  | tagged ht =>
    obtain ⟨result, hr⟩ := hs anyOf_keyword.1 fun hm => absurd hm anyOf_keyword.2
    exact ⟨_, .tagged ht hr⟩
  | @named _ map hm =>
    have hp : ∀ named ∈ sorted map, ∃ result : JsString × JsonValue,
        result.1 = named.1 ∧ normal named.2 result.2 := by
      intro named hme
      obtain ⟨result, hr⟩ := hn map hm rfl named ((List.mem_insertionSort _).mp hme)
      exact ⟨(named.1, result), rfl, hr⟩
    obtain ⟨results, hre⟩ := exists_paired hp
    exact ⟨_, .named hm hre⟩
  | ordinary ho =>
    obtain ⟨result, hr⟩ := hs ho.kept ho.schema
    exact ⟨_, .ordinary ho hr⟩

section Computed

variable {normalize : JsonValue → Except NormalizeError JsonValue}

theorem normalizeMember_dropped (h : name ∈ droppedKeys) :
    normalizeMember normalize (name, value) = .ok none := if_pos h

theorem normalizeMember_unbounded :
    normalizeMember normalize (additionalKey, .bool true) = .ok none := by
  rw [normalizeMember, if_neg (by decide +kernel)]
  rfl

theorem normalizeMember_tagged {entries : List JsonValue}
    (h : isConstTaggedUnion entries = true) :
    normalizeMember normalize (anyOfKey, .array entries) =
      (do return some (oneOfKey, ← normalize (.array entries))) := by
  rw [normalizeMember, if_neg anyOf_keyword.1]
  dsimp only
  rw [if_pos (by rw [h]; rfl)]

variable {map : JsonMembers}

theorem normalizeMember_named (h : name ∈ schemaMapKeys) :
    normalizeMember normalize (name, .object map) =
      (do return some (name, .object (← normalizeSchemaMap normalize map))) := by
  rw [normalizeMember, if_neg (schemaMapKeys_not_dropped h)]
  exact if_pos h

theorem normalizeMember_ordinary (h : Ordinary name value) :
    normalizeMember normalize (name, value) = (do return some (name, ← normalize value)) := by
  rw [normalizeMember, if_neg h.kept]
  cases value with
  | bool held =>
    cases held with
    | false => rfl
    | true => exact if_neg fun hn => h.closed ⟨hn, rfl⟩
  | array entries =>
    dsimp only
    rw [if_neg]
    intro hta
    obtain ⟨hn, ht⟩ := Bool.and_eq_true_iff.mp hta
    rw [h.untagged entries (of_decide_eq_true hn) rfl] at ht
    cases ht
  | object map =>
    refine if_neg fun hn => ?_
    cases h.schema hn
  | _ => rfl

theorem wrap_eq_ok {α β : Type} {answer : Except NormalizeError α} {wrap : α → β} {result : β} :
    (do return wrap (← answer) : Except NormalizeError β) = .ok result ↔
      ∃ found, answer = .ok found ∧ result = wrap found := by
  rw [bind_eq_ok_iff]
  constructor
  · rintro ⟨found, hf, hr⟩
    cases hr
    exact ⟨found, hf, rfl⟩
  · rintro ⟨found, hf, rfl⟩
    exact ⟨found, hf, rfl⟩

theorem normalizeSchemaMap_eq_ok {result : JsonMembers} :
    normalizeSchemaMap normalize map = .ok result ↔ ∃ results : JsonMembers,
      List.Forall₂ (fun named result => result.1 = named.1 ∧ normalize named.2 = .ok result.2)
        (sorted map) results ∧ result = collect (results.map some) := by
  have hn : ∀ named result : JsString × JsonValue,
      (do return (named.1, ← normalize named.2) : Except NormalizeError _) = .ok result ↔
        result.1 = named.1 ∧ normalize named.2 = .ok result.2 := by
    intro named result
    rw [wrap_eq_ok]
    constructor
    · grind
    · grind
  rw [normalizeSchemaMap, wrap_eq_ok]
  simp only [list_mapM_eq_ok, hn]

theorem normalizeMember_eq_ok :
    normalizeMember normalize member = .ok assigned ↔
      Assigns (fun value result => normalize value = .ok result) member assigned := by
  obtain ⟨name, value⟩ := member
  constructor
  · intro h
    cases memberKind name value with
    | dropped hd =>
      cases (normalizeMember_dropped hd).symm.trans h
      exact .dropped hd
    | unbounded =>
      cases normalizeMember_unbounded.symm.trans h
      exact .unbounded
    | tagged ht =>
      obtain ⟨result, hr, rfl⟩ := wrap_eq_ok.mp ((normalizeMember_tagged ht).symm.trans h)
      exact .tagged ht hr
    | named hm =>
      obtain ⟨result, hr, rfl⟩ := wrap_eq_ok.mp ((normalizeMember_named hm).symm.trans h)
      obtain ⟨results, hre, rfl⟩ := normalizeSchemaMap_eq_ok.mp hr
      exact .named hm hre
    | ordinary ho =>
      obtain ⟨result, hr, rfl⟩ :=
        wrap_eq_ok.mp ((normalizeMember_ordinary ho).symm.trans h)
      exact .ordinary ho hr
  · intro h
    cases h with
    | dropped hd => exact normalizeMember_dropped hd
    | unbounded => exact normalizeMember_unbounded
    | tagged ht hr =>
      exact (normalizeMember_tagged ht).trans (wrap_eq_ok.mpr ⟨_, hr, rfl⟩)
    | named hm hre =>
      refine (normalizeMember_named hm).trans (wrap_eq_ok.mpr ⟨_, ?_, rfl⟩)
      exact normalizeSchemaMap_eq_ok.mpr ⟨_, hre, rfl⟩
    | ordinary ho hr =>
      exact (normalizeMember_ordinary ho).trans (wrap_eq_ok.mpr ⟨_, hr, rfl⟩)

end Computed

/-! ### Whole passes -/

variable {definitions schema : JsonMembers} {low high depth : Nat} {result : JsonValue}

variable {ref : JsString} {target : JsonMembers} {entries : List JsonValue}

theorem normalizeSchema_array :
    normalizeSchema definitions (depth + 1) (.array entries) = .ok result ↔
      ∃ results, List.Forall₂ (fun entry result =>
        normalizeSchema definitions depth entry = .ok result) entries results ∧
        result = .array results := by
  rw [normalizeSchema, wrap_eq_ok]
  simp only [list_mapM_eq_ok]

theorem normalizeSchema_object (hn : reference? (stripNullAlternative schema) = none) :
    normalizeSchema definitions (depth + 1) (.object schema) = .ok result ↔
      ∃ assigned, List.Forall₂
        (Assigns fun value result => normalizeSchema definitions depth value = .ok result)
        (sorted (stripNullAlternative schema)) assigned ∧ result = .object (collect assigned) := by
  rw [normalizeSchema]
  simp only [hn]
  rw [wrap_eq_ok]
  simp only [list_mapM_eq_ok, normalizeMember_eq_ok]

theorem normalizeSchema_reference (hr : reference? (stripNullAlternative schema) = some ref) :
    normalizeSchema definitions (depth + 1) (.object schema) = .ok result ↔
      ∃ target, referenced definitions ref = some target ∧
        normalizeSchema definitions depth (.object (Members.merge target
          (Members.without (stripNullAlternative schema) refKey))) = .ok result := by
  rw [normalizeSchema]
  simp only [hr, inlineReference]
  cases referenced definitions ref with
  | none => simp [bind, Except.bind]
  | some target => simp [bind, Except.bind]

theorem normalizeSchema_mono (h : normalizeSchema definitions low value = .ok result)
    (hle : low ≤ high) : normalizeSchema definitions high value = .ok result := by
  induction low generalizing value result high with
  | zero => cases h
  | succ low ih =>
    obtain ⟨high, rfl⟩ := Nat.exists_eq_add_of_le' hle
    rw [← Nat.add_assoc] at hle ⊢
    have hl : low ≤ high + low := Nat.le_add_left ..
    cases value with
    | array entries =>
      obtain ⟨results, hre, rfl⟩ := normalizeSchema_array.mp h
      exact normalizeSchema_array.mpr ⟨results, hre.imp fun _ _ h => ih h hl, rfl⟩
    | object schema =>
      cases hr : reference? (stripNullAlternative schema) with
      | some ref =>
        obtain ⟨target, ht, hres⟩ := (normalizeSchema_reference hr).mp h
        exact (normalizeSchema_reference hr).mpr ⟨target, ht, ih hres hl⟩
      | none =>
        obtain ⟨assigned, ha, rfl⟩ := (normalizeSchema_object hr).mp h
        refine (normalizeSchema_object hr).mpr ⟨assigned, ha.imp fun _ _ h => ?_, rfl⟩
        exact h.mono fun h => ih h hl
    | _ => exact h

/-- A pass over a value has a result. -/
def Normalizes (definitions : JsonMembers) (value result : JsonValue) : Prop :=
  ∃ depth, normalizeSchema definitions depth value = .ok result

theorem Normalizes.array {results : List JsonValue}
    (h : List.Forall₂ (Normalizes definitions) entries results) :
    Normalizes definitions (.array entries) (.array results) := by
  obtain ⟨depth, hd⟩ := paired_uniform
    (fun depth value result => normalizeSchema definitions depth value = .ok result)
    (fun hle h => normalizeSchema_mono h hle) h
  exact ⟨depth + 1, normalizeSchema_array.mpr ⟨results, hd, rfl⟩⟩

theorem Assigns.uniform (h : Assigns (Normalizes definitions) member assigned) :
    ∃ depth, Assigns (fun value result => normalizeSchema definitions depth value = .ok result)
      member assigned := by
  cases h with
  | dropped hdr => exact ⟨0, .dropped hdr⟩
  | unbounded => exact ⟨0, .unbounded⟩
  | tagged ht hr =>
    obtain ⟨depth, hd⟩ := hr
    exact ⟨depth, .tagged ht hd⟩
  | named hm hre =>
    have hb := hre.imp fun _ _ h => exists_and_left.mpr h
    obtain ⟨depth, hd⟩ := paired_uniform
      (fun depth (named result : JsString × JsonValue) => result.1 = named.1 ∧
        normalizeSchema definitions depth named.2 = .ok result.2)
      (fun hle h => ⟨h.1, normalizeSchema_mono h.2 hle⟩) hb
    exact ⟨depth, .named hm hd⟩
  | ordinary ho hr =>
    obtain ⟨depth, hd⟩ := hr
    exact ⟨depth, .ordinary ho hd⟩

theorem Normalizes.object {assigned : List (Option (JsString × JsonValue))}
    (hn : reference? (stripNullAlternative schema) = none)
    (h : List.Forall₂ (Assigns (Normalizes definitions)) (sorted (stripNullAlternative schema))
      assigned) :
    Normalizes definitions (.object schema) (.object (collect assigned)) := by
  obtain ⟨depth, hd⟩ := paired_uniform
    (fun depth => Assigns fun value result => normalizeSchema definitions depth value = .ok result)
    (fun hle h => h.mono fun h => normalizeSchema_mono h hle) (h.imp fun _ _ h => h.uniform)
  exact ⟨depth + 1, (normalizeSchema_object hn).mpr ⟨assigned, hd, rfl⟩⟩

theorem Normalizes.reference (hr : reference? (stripNullAlternative schema) = some ref)
    (ht : referenced definitions ref = some target)
    (h : Normalizes definitions (.object (Members.merge target
      (Members.without (stripNullAlternative schema) refKey))) result) :
    Normalizes definitions (.object schema) result := by
  obtain ⟨depth, hd⟩ := h
  exact ⟨depth + 1, (normalizeSchema_reference hr).mpr ⟨target, ht, hd⟩⟩

/-! ### References that resolve -/

theorem readDefinition_members (h : (readDefinition definitions name).members? = some target) :
    target = [] ∨ ∃ member ∈ definitions, member.2 = .object target := by
  unfold readDefinition at h
  split at h
  · cases h
  · rename_i held _ hf
    cases held with
    | object members =>
      cases h
      exact .inr ⟨_, Members.mem_of_find hf, rfl⟩
    | _ => cases h
  · split at h
    · cases h
      exact .inl rfl
    · split at h <;> cases h

theorem referenced_members (h : referenced definitions ref = some target) :
    target = [] ∨ ∃ member ∈ definitions, member.2 = .object target := by
  unfold referenced at h
  split at h
  · exact readDefinition_members h
  · exact readDefinition_members h

theorem referenced_plain (hd : ∀ member ∈ definitions, Plain member.2)
    (h : referenced definitions ref = some target) : Plain (.object target) := by
  rcases referenced_members h with rfl | ⟨member, hm, ht⟩
  · exact .object List.nodup_nil List.not_mem_nil fun _ h => absurd h List.not_mem_nil
  · exact ht ▸ hd member hm

def RefersWithin (reached : JsString → Prop) (member : JsString × JsonValue) : Prop :=
  ∀ ref, member = (refKey, .string ref) → reached ref

theorem mem_of_reference (h : reference? schema = some ref) : (refKey, .string ref) ∈ schema := by
  rw [reference?] at h
  split at h
  · rename_i held hf
    cases h
    exact Members.mem_of_find hf
  · cases h

theorem exists_normalizes (cost : JsString → Nat) (reached : JsString → Prop)
    (hde : ∀ member ∈ definitions, Plain member.2)
    (hc : ∀ ref, reached ref → ∃ target, referenced definitions ref = some target ∧
      EachMember (RefersWithin reached) (.object target) ∧
      expanded cost (.object target) ≤ cost ref)
    (hp : value.Plain) (hre : EachMember (RefersWithin reached) value) :
    ∃ result, Normalizes definitions value result := by
  induction hsi : expanded cost value using Nat.strong_induction_on generalizing value with
  | _ size ih =>
    subst hsi
    cases value with
    | array entries =>
      have hent : ∀ entry ∈ entries, ∃ result, Normalizes definitions entry result :=
        fun entry he => ih _ (expanded_entry he) (plain_array.mp hp entry he)
          (everywhere_array.mp hre entry he) rfl
      obtain ⟨results, hres⟩ := exists_paired hent
      exact ⟨_, .array hres⟩
    | object schema =>
      have hst := strips schema
      have hs := hst.plain hp
      have hme := hst.eachMember
        (fun _ ref hr => absurd (Prod.mk.inj hr).1 (by decide +kernel)) hre
      have hle : expanded cost (.object (stripNullAlternative schema)) ≤
          expanded cost (.object schema) := by
        rcases hst.expanded_lt hp with hsa | hl
        · rw [hsa]
        · exact hl.le
      generalize hstr : stripNullAlternative schema = stripped at *
      have hf := eachMember_object.mp hme
      cases hr : reference? stripped with
      | some ref =>
        obtain ⟨target, ht, hw, hco⟩ :=
          hc ref ((hf _ (mem_of_reference hr)).1 ref rfl)
        have hl := expanded_inline hs hr hco
        obtain ⟨result, hresu⟩ := ih _ (hl.trans_le hle)
          (plain_merge (referenced_plain hde ht) (plain_without hs refKey))
          (eachMember_object.mpr fun member hm => (Members.mem_merge hm).elim
            (eachMember_object.mp hw member)
            fun hm => hf member (Members.mem_without.mp hm).1) rfl
        subst hstr
        exact ⟨result, .reference hr ht hresu⟩
      | none =>
        have has : ∀ member ∈ sorted stripped,
            ∃ assigned, Assigns (Normalizes definitions) member assigned := by
          rintro ⟨name, value⟩ hso
          have hm := (List.mem_insertionSort _).mp hso
          have hv := (plain_object.mp hs).2.2 _ hm
          have hi := (hf _ hm).2
          refine exists_assigns (fun hd hma => ?_) fun map hma ho named hn => ?_
          · exact ih _ ((expanded_member hm hd hma).trans_le hle) hv
              ((withinMember_schema hd hma).mp hi) rfl
          · subst ho
            exact ih _ ((expanded_named hm hma hn).trans_le hle)
              ((plain_object.mp hv).2.2 named hn)
              ((withinMember_map hma).mp hi named hn) rfl
        obtain ⟨assigned, ha⟩ := exists_paired has
        subst hstr
        exact ⟨_, .object hr ha⟩
    | null => exact ⟨.null, 1, rfl⟩
    | bool held => exact ⟨.bool held, 1, rfl⟩
    | number held => exact ⟨.number held, 1, rfl⟩
    | string text => exact ⟨.string text, 1, rfl⟩

/-! ### References without cycles -/

def references (value : JsonValue) : List JsString := (schemas value).filterMap reference?

def Refers (definitions : JsonMembers) (ref other : JsString) : Prop :=
  ∃ target, referenced definitions ref = some target ∧ other ∈ references (.object target)

def Reaches (definitions : JsonMembers) (value : JsonValue) (ref : JsString) : Prop :=
  ∃ first ∈ references value, Relation.ReflTransGen (Refers definitions) first ref

/-- The references of a value resolve, and none leads back to itself. -/
structure Resolves (definitions : JsonMembers) (value : JsonValue) : Prop where
  found : ∀ ref, Reaches definitions value ref → (referenced definitions ref).isSome
  acyclic : ∀ ref, Reaches definitions value ref →
    ¬Relation.TransGen (Refers definitions) ref ref

theorem Reaches.next {following : JsString} (h : Reaches definitions value ref)
    (hr : Refers definitions ref following) : Reaches definitions value following := by
  obtain ⟨first, hf, hp⟩ := h
  exact ⟨first, hf, hp.tail hr⟩

theorem Reaches.mem (h : Reaches definitions value ref) :
    ref ∈ references value ++ definitions.flatMap fun member => references member.2 := by
  obtain ⟨first, hf, hp⟩ := h
  rcases Relation.ReflTransGen.cases_tail hp with rfl | ⟨last, -, target, ht, hm⟩
  · exact List.mem_append_left _ hf
  · refine List.mem_append_right _ (List.mem_flatMap.mpr ?_)
    rcases referenced_members ht with rfl | ⟨member, hme, ho⟩
    · cases hm
    · exact ⟨member, hme, ho ▸ hm⟩

theorem expanded_congr {cost cost' : JsString → Nat}
    (h : ∀ ref ∈ references value, cost ref = cost' ref) :
    expanded cost value = expanded cost' value := by
  have hsa : (schemas value).map (referenceCost cost) =
      (schemas value).map (referenceCost cost') := by
    refine List.map_congr_left fun schema hs => ?_
    unfold referenceCost
    cases hr : reference? schema with
    | none => rfl
    | some ref => exact h ref (List.mem_filterMap.mpr ⟨schema, hs, hr⟩)
  rw [expanded, hsa, expanded]

theorem Resolves.exists_cost (h : Resolves definitions value) :
    ∃ cost : JsString → Nat, ∀ ref target, Reaches definitions value ref →
      referenced definitions ref = some target → expanded cost (.object target) ≤ cost ref := by
  obtain ⟨rank, hbo, hra⟩ := exists_rank (fun _ hr => Reaches.mem hr)
    (fun _ _ => Reaches.next) h.acyclic
  -- the costs of the references of one rank come from those of smaller ranks
  have hb : ∀ bound, ∃ cost : JsString → Nat, ∀ ref target, Reaches definitions value ref →
      rank ref < bound → referenced definitions ref = some target →
      expanded cost (.object target) ≤ cost ref := by
    intro bound
    induction bound with
    | zero => exact ⟨fun _ => 0, fun _ _ _ hl => absurd hl (Nat.not_lt_zero _)⟩
    | succ bound ih =>
      obtain ⟨cost, hc⟩ := ih
      let extended : JsString → Nat := fun ref =>
        if rank ref < bound then cost ref
        else expanded cost (.object ((referenced definitions ref).getD []))
      refine ⟨extended, fun ref target hr hl ht => ?_⟩
      have hi : expanded extended (.object target) = expanded cost (.object target) := by
        refine expanded_congr fun following hf => if_pos ?_
        have hle := hra ref following hr ⟨target, ht, hf⟩
        omega
      grind
  obtain ⟨cost, hc⟩ := hb _
  refine ⟨cost, fun ref target hr => ?_⟩
  exact hc ref target hr (Nat.lt_succ_of_le (hbo ref))

theorem Plain.distinct (h : value.Plain) :
    (∀ schema ∈ schemas value, (Members.names schema).Nodup) ∧
      ∀ schema ∈ namedSchemas value, (Members.names schema).Nodup := by
  induction h with
  | @array entries _ ih =>
    have he : ∀ schema ∈ schemas (.array entries), (Members.names schema).Nodup := by
      grind [schemas_array]
    exact ⟨he, he⟩
  | @object members hd _ _ ih =>
    constructor
    · intro schema hs
      rw [schemas_object] at hs
      rcases List.mem_cons.mp hs with rfl | hs
      · exact hd
      obtain ⟨member, hm, hs⟩ := List.mem_flatMap.mp hs
      grind [memberSchemas]
    · intro schema hs
      rw [namedSchemas_object] at hs
      obtain ⟨member, hm, hs⟩ := List.mem_flatMap.mp hs
      exact (ih member hm).1 schema hs
  | _ => exact ⟨fun _ h => absurd h List.not_mem_nil, fun _ h => absurd h List.not_mem_nil⟩

theorem Plain.refersWithin {reached : JsString → Prop} (h : value.Plain)
    (hr : ∀ ref ∈ references value, reached ref) :
    EachMember (RefersWithin reached) value := by
  rintro schema hs member hm ref rfl
  refine hr ref (List.mem_filterMap.mpr ⟨schema, hs, ?_⟩)
  rw [reference?, Members.find_of_mem (h.distinct.1 schema hs) hm]

theorem Resolves.exists_normalizes (h : Resolves definitions value)
    (hd : ∀ member ∈ definitions, Plain member.2) (hp : value.Plain) :
    ∃ result, Normalizes definitions value result := by
  obtain ⟨cost, hc⟩ := h.exists_cost
  refine JsonValue.exists_normalizes cost (Reaches definitions value) hd
    (fun ref hr => ?_) hp (hp.refersWithin fun ref hre => ⟨ref, hre, .refl⟩)
  obtain ⟨target, ht⟩ := Option.isSome_iff_exists.mp (h.found ref hr)
  refine ⟨target, ht, ?_, hc ref target hr ht⟩
  refine (referenced_plain hd ht).refersWithin fun following hf => ?_
  exact hr.next ⟨target, ht, hf⟩

end MangoProtocol.TypeScript.JsonValue
