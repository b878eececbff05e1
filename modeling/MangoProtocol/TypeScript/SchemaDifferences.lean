import MangoProtocol.TypeScript.JsonValue

/-! `schemaDifferences`: the paths at which two JSON values differ, with what was expected there and
what was found.  There is none exactly when the values are the same JSON. -/

namespace MangoProtocol.TypeScript

open ProofKit

namespace JsonValue

/-- The names of two objects, each once, as `sort` orders them: by code units. -/
def sortedNames (members others : JsonMembers) : List JsString :=
  (Members.names members ++ Members.names others).dedup.insertionSort (· ≤ ·)

theorem mem_sortedNames {members others : JsonMembers} {name : JsString} :
    name ∈ sortedNames members others ↔
      name ∈ Members.names members ∨ name ∈ Members.names others := by
  rw [sortedNames, List.mem_insertionSort, List.mem_dedup, List.mem_append]

/-- `Object.is` of two values that are no arrays and not both objects. -/
def objectIs : JsonValue → JsonValue → Bool
  | .null, .null => true
  | .bool value, .bool other => value == other
  | .number value, .number other => value == other
  | .string text, .string other => text == other
  | _, _ => false

section Differences

/-! `stringify` is `JSON.stringify`; of a function it gives `undefined`. -/

variable (stringify : JsonValue → JsString)

def undefinedText : JsString := js "undefined"

def difference (path expected actual : JsString) : JsString :=
  (if path = [] then js "/" else path) ++ js ": expected " ++
    expected ++ js ", got " ++ actual

def pointerTo (path name : JsString) : JsString := path ++ js "/" ++ name

mutual

/-- Every path at which two values differ. -/
def schemaDifferences : JsonValue → JsonValue → JsString → List JsString
  | .array entries, actual, path =>
    match actual with
    | .array others =>
      if entries.length ≠ others.length then
        [difference path (stringify (.array entries)) (stringify actual)]
      else entryDifferences entries others 0 path
    | _ => [difference path (stringify (.array entries)) (stringify actual)]
  | .object members, actual, path =>
    match actual with
    | .object others => (sortedNames members others).flatMap fun name =>
      let pointer := pointerTo path name
      match memberDifferences members name, Members.find others name with
      | some compare, some other => compare other pointer
      | some _, none =>
        if name ∈ inheritedNames then
          [difference pointer ((Members.find members name).elim undefinedText stringify)
            undefinedText]
        else
          [pointer ++ js ": missing, expected " ++
            (Members.find members name).elim undefinedText stringify]
      | none, found =>
        if name ∈ inheritedNames then
          found.elim [] fun other => [difference pointer undefinedText (stringify other)]
        else
          [pointer ++ js ": unexpected " ++ found.elim undefinedText stringify]
    | _ => [difference path (stringify (.object members)) (stringify actual)]
  | expected, actual, path =>
    if objectIs expected actual then []
    else [difference path (stringify expected) (stringify actual)]

/-- The entries from an index on. -/
def entryDifferences : List JsonValue → List JsonValue → Nat → JsString → List JsString
  | [], _, _, _ => []
  | entry :: entries, others, index, path =>
    schemaDifferences entry (others[index]?.getD .null)
        (pointerTo path (js index.repr)) ++
      entryDifferences entries others (index + 1) path

def memberDifferences : JsonMembers → JsString → Option (JsonValue → JsString → List JsString)
  | [], _ => none
  | (name, value) :: members, wanted =>
    if wanted = name then some fun actual path => schemaDifferences value actual path
    else memberDifferences members wanted

end

variable {stringify}

theorem memberDifferences_eq (members : JsonMembers) (name : JsString) :
    memberDifferences stringify members name =
      (Members.find members name).map (schemaDifferences stringify) := by
  induction members with
  | nil => rfl
  | cons member members ih =>
    rw [memberDifferences]
    by_cases hn : name = member.1
    · rw [if_pos hn, hn, Members.find_cons_self]
      rfl
    · rw [if_neg hn, Members.find_cons_of_ne hn]
      exact ih

theorem entryDifferences_eq_nil (entries others : List JsonValue) (index : Nat) (path : JsString) :
    entryDifferences stringify entries others index path = [] ↔
      ∀ (offset : Nat) entry, entries[offset]? = some entry →
        schemaDifferences stringify entry (others[index + offset]?.getD .null)
          (pointerTo path (js (index + offset).repr)) = [] := by
  induction entries generalizing index with
  | nil => simp [entryDifferences]
  | cons entry entries ih =>
    rw [entryDifferences, List.append_eq_nil_iff, ih]
    constructor
    · grind
    · intro h
      refine ⟨h 0 entry rfl, fun offset found hf => ?_⟩
      rw [Nat.add_assoc, Nat.add_comm 1 offset]
      exact h (offset + 1) found hf

theorem memberDifferences_eq_nil (members others : JsonMembers) (path : JsString) :
    schemaDifferences stringify (.object members) (.object others) path = [] ↔
      (∀ name, name ∈ Members.names members ↔ name ∈ Members.names others) ∧
      ∀ name value other, Members.find members name = some value →
        Members.find others name = some other →
        schemaDifferences stringify value other (pointerTo path name) = [] := by
  rw [schemaDifferences, List.flatMap_eq_nil_iff]
  simp only [memberDifferences_eq]
  constructor
  · intro h
    have hna : ∀ name, name ∈ Members.names members ↔ name ∈ Members.names others := by
      intro name
      constructor
      · intro hn
        by_contra hmi
        have hm := h name (mem_sortedNames.mpr (.inl hn))
        obtain ⟨value, hv⟩ := Members.exists_find hn
        rw [hv, Members.find_eq_none.mpr hmi] at hm
        dsimp only [Option.map_some] at hm
        split at hm <;> cases hm
      · intro hn
        by_contra hu
        have hm := h name (mem_sortedNames.mpr (.inr hn))
        obtain ⟨other, ho⟩ := Members.exists_find hn
        rw [ho, Members.find_eq_none.mpr hu] at hm
        dsimp only [Option.map_none] at hm
        split at hm <;> cases hm
    refine ⟨hna, fun name value other hv ho => ?_⟩
    have hn : name ∈ Members.names members :=
      List.mem_map.mpr ⟨_, Members.mem_of_find hv, rfl⟩
    have hm := h name (mem_sortedNames.mpr (.inl hn))
    rw [hv, ho] at hm
    exact hm
  · rintro ⟨hna, hme⟩ name hn
    have hb := (mem_sortedNames.mp hn).elim id (hna name).mpr
    obtain ⟨value, hv⟩ := Members.exists_find hb
    obtain ⟨other, ho⟩ := Members.exists_find ((hna name).mp hb)
    rw [hv, ho]
    exact hme name value other hv ho

theorem objectIs_iff {expected actual : JsonValue} (ha : ∀ entries, expected ≠ .array entries)
    (ho : ∀ members, expected ≠ .object members) :
    objectIs expected actual = true ↔ Same expected actual := by
  constructor
  · intro h
    cases expected with
    | array entries => exact absurd rfl (ha entries)
    | object members => exact absurd rfl (ho members)
    | null =>
      cases actual with
      | null => exact .null
      | _ => cases h
    | bool value =>
      cases actual with
      | bool other =>
        cases beq_iff_eq.mp h
        exact .bool value
      | _ => cases h
    | number value =>
      cases actual with
      | number other =>
        cases beq_iff_eq.mp h
        exact .number value
      | _ => cases h
    | string text =>
      cases actual with
      | string other =>
        cases beq_iff_eq.mp h
        exact .string text
      | _ => cases h
  · intro h
    cases h with
    | null => rfl
    | bool value => exact beq_self_eq_true value
    | number value => exact beq_self_eq_true value
    | string text => exact beq_self_eq_true text
    | array => exact absurd rfl (ha _)
    | object => exact absurd rfl (ho _)

theorem scalarDifferences_eq_nil {expected actual : JsonValue} {path : JsString}
    (ha : ∀ entries, expected ≠ .array entries)
    (ho : ∀ members, expected ≠ .object members) :
    schemaDifferences stringify expected actual path = [] ↔ Same expected actual := by
  have hs : schemaDifferences stringify expected actual path =
      if objectIs expected actual then []
      else [difference path (stringify expected) (stringify actual)] := by
    cases expected with
    | array entries => exact absurd rfl (ha entries)
    | object members => exact absurd rfl (ho members)
    | _ => rfl
  rw [hs, ← objectIs_iff ha ho]
  split
  · rename_i hi
    exact iff_of_true rfl hi
  · rename_i hi
    exact iff_of_false (List.cons_ne_nil _ _) hi

theorem arrayDifferences_eq_nil (entries others : List JsonValue) (path : JsString) :
    schemaDifferences stringify (.array entries) (.array others) path = [] ↔
      entries.length = others.length ∧ ∀ (index : Nat) entry other, entries[index]? = some entry →
        others[index]? = some other → schemaDifferences stringify entry other
          (pointerTo path (js index.repr)) = [] := by
  rw [schemaDifferences]
  by_cases hl : entries.length = others.length
  · rw [if_neg (not_not.mpr hl), entryDifferences_eq_nil]
    simp only [Nat.zero_add, hl, true_and]
    constructor
    · grind
    · grind
  · rw [if_pos hl]
    exact iff_of_false (List.cons_ne_nil _ _) fun h => hl h.1

/-- Two values do not differ exactly when they are the same JSON. -/
theorem schemaDifferences_eq_nil_iff (stringify : JsonValue → JsString)
    {expected actual : JsonValue} (hexpected : expected.Plain) (hactual : actual.Plain)
    (path : JsString) :
    schemaDifferences stringify expected actual path = [] ↔ Same expected actual := by
  induction hexpected generalizing actual path with
  | null => exact scalarDifferences_eq_nil (by simp) (by simp)
  | bool value => exact scalarDifferences_eq_nil (by simp) (by simp)
  | number value => exact scalarDifferences_eq_nil (by simp) (by simp)
  | string text => exact scalarDifferences_eq_nil (by simp) (by simp)
  | array _ ih =>
    cases hactual with
    | array hot =>
      rw [arrayDifferences_eq_nil]
      constructor
      · rintro ⟨hl, hen⟩
        refine .array hl fun index entry other he ho => ?_
        exact (ih entry (List.mem_of_getElem? he)
          (hot other (List.mem_of_getElem? ho)) _).mp
          (hen index entry other he ho)
      · intro h
        cases h with
        | array hl hen =>
          refine ⟨hl, fun index entry other he ho => ?_⟩
          exact (ih entry (List.mem_of_getElem? he)
            (hot other (List.mem_of_getElem? ho)) _).mpr
            (hen index entry other he ho)
    | _ => exact iff_of_false (List.cons_ne_nil _ _) fun h => (by cases h)
  | object hd _ _ ih =>
    cases hactual with
    | object hd' _ hot =>
      rw [memberDifferences_eq_nil]
      constructor
      · rintro ⟨hn, hm⟩
        refine .object hn fun name value other hv ho => ?_
        exact (ih _ hv (hot _ ho) _).mp (hm name value other
          (Members.find_of_mem hd hv) (Members.find_of_mem hd' ho))
      · intro h
        cases h with
        | object hn hm =>
          refine ⟨hn, fun name value other hv ho => ?_⟩
          have hme := Members.mem_of_find hv
          have hm' := Members.mem_of_find ho
          exact (ih _ hme (hot _ hm') _).mpr
            (hm name value other hme hm')
    | _ => exact iff_of_false (List.cons_ne_nil _ _) fun h => (by cases h)

def sampleSchemas : JsonValue × JsonValue :=
  let kind : JsString × JsonValue :=
    (js "type", .string (js "integer"))
  let least : JsString × JsonValue := (js "minimum", .number 1)
  (.object [kind, least], .object [least, kind])

theorem schemaDifferences_eq_nil_iff_reordered :
    sampleSchemas.1.Plain ∧ sampleSchemas.2.Plain ∧
      schemaDifferences (fun _ => []) sampleSchemas.1 sampleSchemas.2 [] = [] := by
  have hp : sampleSchemas.1.Plain := by
    refine .object (by decide) (by decide) ?_
    exact List.forall_mem_cons.mpr ⟨.string _, List.forall_mem_singleton.mpr (.number 1)⟩
  have hp' : sampleSchemas.2.Plain := by
    refine .object (by decide) (by decide) ?_
    exact List.forall_mem_cons.mpr ⟨.number 1, List.forall_mem_singleton.mpr (.string _)⟩
  have hs : Same sampleSchemas.1 sampleSchemas.2 := hp.same_of_perm (List.Perm.swap ..)
  exact ⟨hp, hp', (schemaDifferences_eq_nil_iff _ hp hp' []).mpr hs⟩

end Differences

end JsonValue

end MangoProtocol.TypeScript
