import MangoProtocol.TypeScript.SchemaPasses

/-! A second pass of `normalizeSchema`.  The result of a pass has no references and nothing that is
dropped, so a second pass finds only what the rules left each other: a `null` alternative that a
branch held, and a union whose branches were tagged once their references were inlined.  It changes
nothing exactly when neither is there, and where they come from is said in `SchemaInlining`. -/

namespace MangoProtocol.TypeScript.JsonValue

open ProofKit

variable {definitions schema : JsonMembers} {value result : JsonValue} {depth : Nat}
  {assigned : List (Option (JsString × JsonValue))} {member : JsString × JsonValue}

/-! ### What a pass leaves -/

structure CleanMember (member : JsString × JsonValue) : Prop where
  kept : member.1 ∉ droppedKeys
  closed : member ≠ (additionalKey, .bool true)
  inlined : ∀ ref, member ≠ (refKey, .string ref)

/-- A pass turns objects into objects, and leaves scalars alone. -/
structure Shaped (value result : JsonValue) : Prop where
  object : result.isObject = value.isObject
  bool : ∀ held, result = .bool held → value = .bool held
  string : ∀ text, result = .string text → value = .string text

theorem normalizeSchema_shaped (h : normalizeSchema definitions depth value = .ok result) :
    Shaped value result := by
  induction depth generalizing value with
  | zero => cases h
  | succ depth ih =>
    cases value with
    | array entries =>
      obtain ⟨results, -, rfl⟩ := normalizeSchema_array.mp h
      exact ⟨rfl, fun _ h => (by cases h), fun _ h => (by cases h)⟩
    | object schema =>
      cases hr : reference? (stripNullAlternative schema) with
      | some ref =>
        obtain ⟨target, -, hre⟩ := (normalizeSchema_reference hr).mp h
        obtain ⟨ho, hb, hs⟩ := ih hre
        refine ⟨ho, fun held hh => ?_, fun text ht => ?_⟩
        · cases hb held hh
        · cases hs text ht
      | none =>
        obtain ⟨assigned, -, rfl⟩ := (normalizeSchema_object hr).mp h
        exact ⟨rfl, fun _ h => (by cases h), fun _ h => (by cases h)⟩
    | _ =>
      cases h
      exact ⟨rfl, fun _ h => h, fun _ h => h⟩

theorem mem_collect (h : member ∈ collect assigned) :
    some member ∈ assigned ∧ member.1 ≠ protoName := by
  rcases Members.mem_merge h with h | h
  · cases h
  · grind

theorem collect_plain (h : ∀ member, some member ∈ assigned → member.2.Plain) :
    Plain (.object (collect assigned)) := by
  refine .object (Members.nodup_merge List.nodup_nil) (fun hn => ?_) fun member hm => ?_
  · obtain ⟨member, hm, hs⟩ := List.mem_map.mp hn
    exact (mem_collect hm).2 hs
  · exact h member (mem_collect hm).1

def Clean (value : JsonValue) : Prop := value.Plain ∧ EachMember CleanMember value

variable {out : JsString × JsonValue} {name : JsString}

theorem Assigns.clean {normal : JsonValue → JsonValue → Prop} (h : Assigns normal member (some out))
    (hme : member.2.Plain) (href : ∀ ref, member ≠ (refKey, .string ref))
    (hn : ∀ value result, value.Plain → normal value result →
      Clean result ∧ Shaped value result) : out.2.Plain ∧ FitMember CleanMember out := by
  cases h with
  | tagged _ hr =>
    obtain ⟨⟨hp, hc⟩, -⟩ := hn _ _ hme hr
    refine ⟨hp, ⟨oneOf_keyword.1, ?_, fun ref => ?_⟩, ?_⟩
    · exact fun hs => absurd (Prod.mk.inj hs).1 (by decide +kernel)
    · exact fun hs => absurd (Prod.mk.inj hs).1 (by decide +kernel)
    · exact (withinMember_schema oneOf_keyword.1 fun hm => absurd hm oneOf_keyword.2).mpr hc
  | @named name map results hm hre =>
    have hi : ∀ result, some result ∈ results.map some → Clean result.2 := by
      intro result hr
      obtain ⟨found, hf, hs⟩ := List.mem_map.mp hr
      cases hs
      obtain ⟨named, hna, -, hno⟩ := mem_paired hre hf
      have hp := (plain_object.mp hme).2.2 named ((List.mem_insertionSort _).mp hna)
      exact (hn _ _ hp hno).1
    refine ⟨collect_plain fun result hr => (hi result hr).1,
      ⟨schemaMapKeys_not_dropped hm, ?_, fun ref => ?_⟩, ?_⟩
    · exact fun hs => absurd (Prod.mk.inj hs).2 (by simp)
    · exact fun hs => absurd (Prod.mk.inj hs).2 (by simp)
    · exact (withinMember_map hm).mpr fun named hna =>
        (hi named (mem_collect hna).1).2
  | @ordinary name value result ho hr =>
    obtain ⟨⟨hp, hc⟩, hob, hb, hst⟩ := hn _ _ hme hr
    refine ⟨hp, ⟨ho.kept, fun hs => ?_, fun ref hs => ?_⟩, ?_⟩
    · obtain ⟨hnam, hv⟩ := Prod.mk.inj hs
      exact ho.closed ⟨hnam, hb true hv⟩
    · grind
    · refine (withinMember_schema ho.kept fun hm => ?_).mpr hc
      exact hob.trans (ho.schema hm)

theorem normalizeSchema_clean (hd : ∀ member ∈ definitions, Plain member.2)
    (hp : value.Plain) (h : normalizeSchema definitions depth value = .ok result) :
    Clean result := by
  induction depth generalizing value result with
  | zero => cases h
  | succ depth ih =>
    cases value with
    | array entries =>
      obtain ⟨results, hres, rfl⟩ := normalizeSchema_array.mp h
      have hc : ∀ result ∈ results, Clean result := by
        intro result hr
        obtain ⟨entry, he, hn⟩ := mem_paired hres hr
        exact ih (plain_array.mp hp entry he) hn
      exact ⟨plain_array.mpr fun result hr => (hc result hr).1,
        everywhere_array.mpr fun result hr => (hc result hr).2⟩
    | object schema =>
      have hs := (strips schema).plain hp
      cases hre : reference? (stripNullAlternative schema) with
      | some ref =>
        obtain ⟨target, ht, hr⟩ := (normalizeSchema_reference hre).mp h
        exact ih (plain_merge (referenced_plain hd ht)
          (plain_without hs refKey)) hr
      | none =>
        obtain ⟨assigned, ha, rfl⟩ := (normalizeSchema_object hre).mp h
        obtain ⟨hdi, -, hi⟩ := plain_object.mp hs
        have hc : ∀ out, some out ∈ assigned → out.2.Plain ∧ FitMember CleanMember out := by
          intro out ho
          obtain ⟨member, hme, has⟩ := mem_paired ha ho
          have hm := (List.mem_insertionSort _).mp hme
          refine has.clean (hi member hm) (fun ref hsa => ?_)
            fun value result hv hr => ⟨ih hv hr, normalizeSchema_shaped hr⟩
          subst hsa
          rw [reference?, Members.find_of_mem hdi hm] at hre
          cases hre
        exact ⟨collect_plain fun out ho => (hc out ho).1,
          eachMember_object.mpr fun out ho => (hc out (mem_collect ho).1).2⟩
    | null =>
      cases h
      exact ⟨.null, fun _ h => absurd h List.not_mem_nil⟩
    | bool held =>
      cases h
      exact ⟨.bool held, fun _ h => absurd h List.not_mem_nil⟩
    | number held =>
      cases h
      exact ⟨.number held, fun _ h => absurd h List.not_mem_nil⟩
    | string text =>
      cases h
      exact ⟨.string text, fun _ h => absurd h List.not_mem_nil⟩

/-! ### Members that are assigned again -/

def memberWeight (member : JsString × JsonValue) : Nat :=
  keyWeight member.1 + weight keyWeight member.2

/-- A value and what a pass makes of it: nothing heavier, and the same exactly where the value is
fine. -/
structure Settles (fine : Prop) (value result : JsonValue) : Prop where
  lighter : weight keyWeight result ≤ weight keyWeight value
  unchanged : weight keyWeight value ≤ weight keyWeight result → fine
  same : fine → Same result value

structure Turns (fine : JsString × JsonValue → Prop) (member out : JsString × JsonValue) :
    Prop where
  lighter : memberWeight out ≤ memberWeight member
  unchanged : memberWeight member ≤ memberWeight out → fine member
  same : fine member → out.1 = member.1 ∧ Same out.2 member.2

theorem Settles.turns {fine : JsString × JsonValue → Prop}
    (h : Settles (fine member) member.2 out.2) (hn : out.1 = member.1) :
    Turns fine member out := by
  have hk : keyWeight out.1 = keyWeight member.1 := congrArg keyWeight hn
  have hl := h.lighter
  refine ⟨?_, fun hh => h.unchanged ?_, fun hf => ⟨hn, h.same hf⟩⟩
  · simp only [memberWeight]
    omega
  · simp only [memberWeight] at hh
    omega

theorem sorted_perm (members : JsonMembers) : (sorted members).Perm members :=
  List.perm_insertionSort _ members

theorem collect_weight_le (outs : JsonMembers) :
    weight keyWeight (.object (collect (outs.map some))) ≤ 1 + (outs.map memberWeight).sum := by
  have hm : ((collect (outs.map some)).map memberWeight).sum ≤ _ :=
    Members.sum_merge_le memberWeight
  have hf : (((outs.map some).filterMap id).filter (·.1 ≠ protoName)).Sublist outs := by
    rw [List.filterMap_map, Function.id_comp, List.filterMap_some]
    exact List.filter_sublist
  have hs := (hf.map memberWeight).sum_le_sum fun _ _ => Nat.zero_le _
  rw [weight_object]
  rw [List.map_nil, List.sum_nil, Nat.zero_add] at hm
  exact Nat.add_le_add_left (hm.trans hs) 1

section Collected

variable {fine : JsString × JsonValue → Prop} {members outs : JsonMembers}

theorem collect_names (hn : Members.names outs = Members.names (sorted members))
    (hpl : Plain (.object members)) : collect (outs.map some) = outs := by
  obtain ⟨hd, hpr, -⟩ := plain_object.mp hpl
  have hp := (sorted_perm members).map Prod.fst
  have hk : ((outs.map some).filterMap id).filter (·.1 ≠ protoName) = outs := by
    rw [List.filterMap_map, Function.id_comp, List.filterMap_some, List.filter_eq_self]
    intro out ho
    have hna : out.1 ∈ Members.names outs := List.mem_map_of_mem ho
    rw [hn] at hna
    exact decide_eq_true fun hs => hpr (hs ▸ hp.mem_iff.mp hna)
  rw [collect, hk]
  refine (Members.merge_new ?_).trans (List.nil_append outs)
  rw [List.nil_append, hn]
  exact hp.nodup_iff.mpr hd

theorem paired_names (h : List.Forall₂ (fun member out => out.1 = member.1) members outs) :
    Members.names outs = Members.names members := by
  induction h with
  | nil => rfl
  | cons hf _ ih => exact List.cons_eq_cons.mpr ⟨hf, ih⟩

theorem collect_same (hp : Plain (.object members))
    (h : List.Forall₂ (fun member out => out.1 = member.1 ∧ Same out.2 member.2) (sorted members)
      outs) : Same (.object (collect (outs.map some))) (.object members) := by
  have hn := paired_names (h.imp fun _ _ h => h.1)
  have hd := (plain_object.mp hp).1
  have hpe := sorted_perm members
  rw [collect_names hn hp]
  refine .object (fun name => ?_) fun name value other hv ho => ?_
  · rw [hn]
    exact (hpe.map Prod.fst).mem_iff
  · obtain ⟨member, hm, hna, hs⟩ := mem_paired h hv
    have hf := Members.find_of_mem hd (hpe.mem_iff.mp hm)
    rw [← hna, Members.find_of_mem hd ho] at hf
    cases hf
    exact hs

theorem collect_settles (hpl : Plain (.object members))
    (h : List.Forall₂ (Turns fine) (sorted members) outs) :
    Settles (∀ member ∈ members, fine member) (.object members)
      (.object (collect (outs.map some))) := by
  have hp := sorted_perm members
  have hc := collect_weight_le outs
  have hsu := paired_sum_le (h.imp fun _ _ h => h.lighter)
  have hs : ((sorted members).map memberWeight).sum = (members.map memberWeight).sum :=
    (hp.map memberWeight).sum_eq
  have hme : weight keyWeight (.object members) = 1 + (members.map memberWeight).sum :=
    weight_object keyWeight members
  refine ⟨by omega, fun hh member hm => ?_, fun hf => ?_⟩
  · exact paired_of_sum_le (h.imp fun _ _ h => ⟨h.lighter, h.unchanged⟩) (by omega) member
      (hp.mem_iff.mpr hm)
  · have ha := (List.forall₂_and_left _ _).mpr
      ⟨fun member hm => hf member (hp.mem_iff.mp hm), h⟩
    exact collect_same hpl (ha.imp fun _ _ h => h.2.same h.1)

end Collected

/-! ### The second pass -/

structure NormalSchema (schema : JsonMembers) : Prop where
  stripped : stripNullAlternative schema = schema
  untagged : ∀ branches, Members.find schema anyOfKey = some (.array branches) →
    isConstTaggedUnion branches = false

/-- No rule applies anywhere. -/
def Normal (value : JsonValue) : Prop := Everywhere NormalSchema value

/-- A member that a second pass leaves alone. -/
structure FineMember (member : JsString × JsonValue) : Prop where
  within : WithinMember NormalSchema member
  untagged : ∀ branches, member = (anyOfKey, .array branches) →
    isConstTaggedUnion branches = false

def Again (value result : JsonValue) : Prop :=
  Clean value → Settles (Normal value) value result

theorem Ordinary.fine_iff (h : Ordinary name value) : FineMember (name, value) ↔ Normal value := by
  have hw : WithinMember NormalSchema (name, value) ↔ Normal value :=
    withinMember_schema h.kept h.schema
  constructor
  · exact fun hf => hw.mp hf.within
  · intro hn
    refine ⟨hw.mpr hn, fun branches hs => ?_⟩
    obtain ⟨hna, hv⟩ := Prod.mk.inj hs
    exact h.untagged branches hna hv

theorem fineMember_map {map : JsonMembers} (hm : name ∈ schemaMapKeys) :
    FineMember (name, .object map) ↔ ∀ named ∈ map, Normal named.2 := by
  constructor
  · exact fun hf => (withinMember_map hm).mp hf.within
  · refine fun hn => ⟨(withinMember_map hm).mpr hn, fun branches hs => ?_⟩
    cases (Prod.mk.inj hs).2

theorem Assigns.turns {assigned : Option (JsString × JsonValue)}
    (h : Assigns Again member assigned) (hp : member.2.Plain)
    (hc : FitMember CleanMember member) :
    ∃ out, assigned = some out ∧ Turns FineMember member out := by
  obtain ⟨hme, hi⟩ := hc
  cases h with
  | dropped hd => exact absurd hd hme.kept
  | unbounded => exact absurd rfl hme.closed
  | @tagged entries result ht ha =>
    have he := (withinMember_schema anyOf_keyword.1
      fun hm => absurd hm anyOf_keyword.2).mp hi
    have hl : memberWeight (oneOfKey, result) < memberWeight (anyOfKey, .array entries) := by
      have han : keyWeight anyOfKey = 2 := if_pos rfl
      have hon : keyWeight oneOfKey = 1 := if_neg (by decide +kernel)
      have hli := (ha ⟨hp, he⟩).lighter
      simp only [memberWeight, han, hon]
      omega
    refine ⟨_, rfl, hl.le, fun hle => absurd hle (Nat.not_le.mpr hl), fun hf => ?_⟩
    cases ht.symm.trans (hf.untagged entries rfl)
  | @named name map results hm hr =>
    have hn : ∀ named ∈ sorted map, Clean named.2 := by
      intro named hso
      have hmem := (List.mem_insertionSort _).mp hso
      exact ⟨(plain_object.mp hp).2.2 named hmem, (withinMember_map hm).mp hi named hmem⟩
    have htu : List.Forall₂ (Turns fun named => Normal named.2) (sorted map) results := by
      refine ((List.forall₂_and_left _ _).mpr ⟨hn, hr⟩).imp fun _ _ h => ?_
      exact Settles.turns (h.2.2 h.1) h.2.1
    have hs := collect_settles hp htu
    rw [← fineMember_map hm] at hs
    exact ⟨_, rfl, hs.turns rfl⟩
  | @ordinary name value result ho ha =>
    have hs := ha
      ⟨hp, (withinMember_schema ho.kept ho.schema).mp hi⟩
    rw [← ho.fine_iff] at hs
    exact ⟨_, rfl, hs.turns rfl⟩

theorem array_settles {entries results : List JsonValue}
    (h : List.Forall₂ (fun entry result => Settles (Normal entry) entry result) entries results) :
    Settles (Normal (.array entries)) (.array entries) (.array results) := by
  have hsu := paired_sum_le (h.imp fun _ _ h => h.lighter)
  refine ⟨?_, fun hh => ?_, fun hn => ?_⟩
  · rw [weight_array, weight_array]
    exact Nat.add_le_add_left hsu 1
  · rw [weight_array, weight_array] at hh
    exact everywhere_array.mpr (paired_of_sum_le (h.imp fun _ _ h => ⟨h.lighter, h.unchanged⟩)
      (Nat.le_of_add_le_add_left hh))
  · have ha := (List.forall₂_and_left _ _).mpr ⟨everywhere_array.mp hn, h⟩
    obtain ⟨hl, hp⟩ := List.forall₂_iff_get.mp ha
    refine .array hl.symm fun index result entry hr he => ?_
    obtain ⟨hb, rfl⟩ := List.getElem?_eq_some_iff.mp hr
    obtain ⟨hb', rfl⟩ := List.getElem?_eq_some_iff.mp he
    obtain ⟨hf, hs⟩ := hp index hb' hb
    exact hs.same hf

theorem normalSchema_iff (hp : Plain (.object schema))
    (hs : stripNullAlternative schema = schema) :
    Normal (.object schema) ↔ ∀ member ∈ schema, FineMember member := by
  have hd := (plain_object.mp hp).1
  rw [Normal, everywhere_object]
  constructor
  · rintro ⟨hn, hi⟩ member hm
    refine ⟨hi member hm, fun branches hsa => ?_⟩
    subst hsa
    exact hn.untagged branches (Members.find_of_mem hd hm)
  · intro hf
    refine ⟨⟨hs, fun branches hfo => ?_⟩, fun member hm => ?_⟩
    · exact (hf _ (Members.mem_of_find hfo)).untagged branches rfl
    · exact (hf member hm).within

theorem expanded_free (value : JsonValue) :
    expanded (fun _ => 0) value = weight keyWeight value := by
  have hf : referenceCost (fun _ => 0) = fun _ => 0 := by
    funext schema
    unfold referenceCost
    cases reference? schema <;> rfl
  rw [expanded, hf, List.map_const', List.sum_replicate, smul_zero, Nat.add_zero]

theorem strip_settles (hp : Plain (.object schema))
    (h : Settles (∀ member ∈ stripNullAlternative schema, FineMember member)
      (.object (stripNullAlternative schema)) result) :
    Settles (Normal (.object schema)) (.object schema) result := by
  have hli := h.lighter
  have hst : _ ∨ expanded (fun _ => 0) _ < _ := (strips schema).expanded_lt hp
  rcases hst with hs | hl
  · rw [hs, ← normalSchema_iff hp hs] at h
    exact h
  · simp only [expanded_free] at hl
    refine ⟨by omega, fun hh => absurd hh (by omega), fun hn => ?_⟩
    rw [(everywhere_object.mp hn).1.stripped] at hl
    exact absurd hl (Nat.lt_irrefl _)

theorem cleanMember_type (value : JsonValue) : CleanMember (typeKey, value) :=
  ⟨type_keyword.1, fun hs => absurd (Prod.mk.inj hs).1 (by decide +kernel),
    fun _ hs => absurd (Prod.mk.inj hs).1 (by decide +kernel)⟩

theorem scalar_settles (hsc : schemas value = []) (hsa : Same value value) :
    Settles (Normal value) value value := by
  refine ⟨Nat.le_refl _, fun _ schema hs => ?_, fun _ => hsa⟩
  rw [hsc] at hs
  cases hs

theorem normalizeSchema_settles (hc : Clean value)
    (h : normalizeSchema definitions depth value = .ok result) :
    Settles (Normal value) value result := by
  induction depth generalizing value result with
  | zero => cases h
  | succ depth ih =>
    obtain ⟨hp, hm⟩ := hc
    cases value with
    | array entries =>
      obtain ⟨results, hr, rfl⟩ := normalizeSchema_array.mp h
      have hent : ∀ entry ∈ entries, Clean entry := fun entry he =>
        ⟨plain_array.mp hp entry he, everywhere_array.mp hm entry he⟩
      have ha := (List.forall₂_and_left _ _).mpr ⟨hent, hr⟩
      exact array_settles (ha.imp fun _ _ h => ih h.1 h.2)
    | object schema =>
      have hs := (strips schema).plain hp
      have hf := eachMember_object.mp ((strips schema).eachMember cleanMember_type hm)
      have hn : reference? (stripNullAlternative schema) = none := by
        cases href : reference? (stripNullAlternative schema) with
        | none => rfl
        | some ref => exact absurd rfl ((hf _ (mem_of_reference href)).1.inlined ref)
      obtain ⟨assigned, has, rfl⟩ := (normalizeSchema_object hn).mp h
      have hc : ∀ member ∈ sorted (stripNullAlternative schema),
          member.2.Plain ∧ FitMember CleanMember member := by
        intro member hso
        have hme := (List.mem_insertionSort _).mp hso
        exact ⟨(plain_object.mp hs).2.2 member hme, hf member hme⟩
      have ha := (List.forall₂_and_left _ _).mpr ⟨hc, has⟩
      have ht := ha.imp fun _ _ h =>
        (h.2.mono fun hre hc => ih hc hre).turns h.1.1 h.1.2
      obtain ⟨outs, rfl, ho⟩ := paired_some ht
      exact strip_settles hp (collect_settles hs ho)
    | null =>
      cases h
      exact scalar_settles rfl .null
    | bool held =>
      cases h
      exact scalar_settles rfl (.bool held)
    | number held =>
      cases h
      exact scalar_settles rfl (.number held)
    | string text =>
      cases h
      exact scalar_settles rfl (.string text)

theorem Clean.exists_normalizes (h : Clean value)
    (hd : ∀ member ∈ definitions, Plain member.2) :
    ∃ again, Normalizes definitions value again := by
  refine JsonValue.exists_normalizes (fun _ => 0) (fun _ => False) hd
    (fun _ hr => hr.elim) h.1 fun schema hs member hm ref hsa => ?_
  exact (h.2 schema hs member hm).inlined ref hsa

/-- A second pass over a schema changes nothing, exactly when no rule applies to the result of the
first. -/
theorem normalizes_twice (hd : ∀ member ∈ definitions, Plain member.2) (hp : value.Plain)
    (hr : Resolves definitions value) :
    ∃ depth result again, ∀ more, depth ≤ more →
      normalizeSchema definitions more value = .ok result ∧
      normalizeSchema definitions more result = .ok again ∧
      (Same again result ↔ Normal result) := by
  obtain ⟨result, low, hf⟩ := hr.exists_normalizes hd hp
  have hc := normalizeSchema_clean hd hp hf
  obtain ⟨again, high, hs⟩ := hc.exists_normalizes hd
  have ha := normalizeSchema_clean hd hc.1 hs
  have hse := normalizeSchema_settles hc hs
  refine ⟨max low high, result, again, fun more hm => ⟨?_, ?_, ?_, hse.same⟩⟩
  · exact normalizeSchema_mono hf ((Nat.le_max_left ..).trans hm)
  · exact normalizeSchema_mono hs ((Nat.le_max_right ..).trans hm)
  · intro hsa
    exact hse.unchanged (hsa.weight_eq ha.1 hc.1).ge

end MangoProtocol.TypeScript.JsonValue
