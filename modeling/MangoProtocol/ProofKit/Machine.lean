import Mathlib.Tactic

/-! Runs of a machine with labelled steps, any of which may be disabled in a state. -/

namespace ProofKit.Machine

variable {σ ℓ : Type} (step : σ → ℓ → Option σ)

/-- The state after the labels in order, if each step is enabled where it is taken. -/
def run : σ → List ℓ → Option σ
  | state, [] => some state
  | state, label :: labels => (step state label).bind fun next => run next labels

variable {step} {init state final : σ} {label : ℓ} {labels more : List ℓ}

theorem run_cons :
    run step state (label :: labels) = some final ↔
      ∃ next, step state label = some next ∧ run step next labels = some final := by
  simp [run, Option.bind_eq_some_iff]

theorem run_append :
    run step state (labels ++ more) = some final ↔
      ∃ between, run step state labels = some between ∧ run step between more = some final := by
  induction labels generalizing state with
  | nil => simp [run]
  | cons label labels ih => grind [run_cons]

variable {meets : σ → ℓ → Prop} {holds : σ → Prop}

theorem exists_run [DecidablePred holds]
    (h : (run step init labels).any (fun state => holds state) = true) :
    ∃ final, run step init labels = some final ∧ holds final := by
  cases hr : run step init labels with
  | none =>
    rw [hr] at h
    cases h
  | some final =>
    rw [hr] at h
    exact ⟨final, rfl, of_decide_eq_true h⟩

theorem exists_run_step {ends : σ → Prop} [DecidablePred holds] [DecidablePred ends]
    (h : (run step init labels).any (fun state =>
      holds state ∧ (step state label).any (fun next => ends next)) = true) :
    ∃ state next, run step init labels = some state ∧ holds state ∧
      step state label = some next ∧ ends next := by
  obtain ⟨state, hr, hh, he⟩ := exists_run h
  obtain ⟨next, hs, hn⟩ := (Option.any_eq_true _ _).mp he
  exact ⟨state, next, hr, hh, hs, of_decide_eq_true hn⟩

theorem run_invariant (holds : σ → Prop)
    (preserved : ∀ state label next, holds state → step state label = some next → holds next)
    (start : holds init) (h : run step init labels = some final) : holds final := by
  induction labels generalizing init with
  | nil =>
    cases h
    exact start
  | cons label labels ih =>
    obtain ⟨next, hs, hr⟩ := run_cons.mp h
    exact ih (preserved init label next start hs) hr

theorem run_cause (holds : σ → Prop) (start : ¬holds init)
    (h : run step init labels = some final) (hf : holds final) :
    ∃ before label after state next, labels = before ++ label :: after ∧
      run step init before = some state ∧ step state label = some next ∧
      run step next after = some final ∧ ¬holds state ∧ holds next := by
  induction labels generalizing init with
  | nil =>
    cases h
    exact absurd hf start
  | cons label labels ih =>
    obtain ⟨next, hs, hr⟩ := run_cons.mp h
    by_cases hn : holds next
    · exact ⟨[], label, labels, init, next, rfl, rfl, hs, hr, start, hn⟩
    · obtain ⟨before, cause, after, state, state', rfl, hb, rest⟩ := ih hn hr
      exact ⟨label :: before, cause, after, state, state', rfl,
        run_cons.mpr ⟨next, hs, hb⟩, rest⟩

theorem run_since (holds : σ → Prop) (start : ¬holds init)
    (h : run step init labels = some final) (hf : holds final) :
    ∃ before label after state next, labels = before ++ label :: after ∧
      run step init before = some state ∧ step state label = some next ∧ ¬holds state ∧
      ∀ first rest middle, after = first ++ rest → run step next first = some middle →
        holds middle := by
  induction labels using List.reverseRecOn generalizing final with
  | nil =>
    cases h
    exact absurd hf start
  | append_singleton front last ih =>
    obtain ⟨between, hfr, hla⟩ := run_append.mp h
    obtain ⟨_, hste, he⟩ := run_cons.mp hla
    cases he
    by_cases hb : holds between
    · obtain ⟨before, label, after, state, next, rfl, hbe, hl, hst, ha⟩ :=
        ih hfr hb
      refine ⟨before, label, after ++ [last], state, next, by simp, hbe, hl, hst, ?_⟩
      intro first rest middle hs hm
      rcases List.eq_nil_or_concat rest with rfl | ⟨rest, label', rfl⟩
      · have hal : run step init ((before ++ label :: after) ++ [last]) = some middle := by
          rw [List.append_nil] at hs
          rw [List.append_assoc, List.cons_append, hs]
          exact run_append.mpr ⟨state, hbe, run_cons.mpr ⟨next, hl, hm⟩⟩
        cases h.symm.trans hal
        exact hf
      · rw [List.concat_eq_append, ← List.append_assoc] at hs
        exact ha first rest middle (List.append_inj' hs rfl).1 hm
    · refine ⟨front, last, [], between, final, rfl, hfr, hste, hb, ?_⟩
      intro first rest middle hs hm
      obtain ⟨rfl, -⟩ := List.nil_eq_append_iff.mp hs
      cases hm
      exact hf

/-! ### Runs that meet a condition -/

def Every (step : σ → ℓ → Option σ) (meets : σ → ℓ → Prop) : σ → List ℓ → Prop
  | _, [] => True
  | state, label :: labels =>
    meets state label ∧ (step state label).elim True fun next => Every step meets next labels

instance decidableElim {α : Type} {holds : α → Prop} [DecidablePred holds] :
    (value : Option α) → Decidable (value.elim True holds)
  | none => isTrue trivial
  | some value => inferInstanceAs (Decidable (holds value))

instance decidableEvery {meets : σ → ℓ → Prop} [∀ state label, Decidable (meets state label)] :
    (state : σ) → (labels : List ℓ) → Decidable (Every step meets state labels)
  | _, [] => isTrue trivial
  | state, label :: labels =>
    have : DecidablePred fun next => Every step meets next labels :=
      fun next => decidableEvery next labels
    inferInstanceAs (Decidable (meets state label ∧
      (step state label).elim True fun next => Every step meets next labels))

theorem Every.of_forall {meets : ℓ → Prop} (h : ∀ label ∈ labels, meets label) :
    Every step (fun _ label => meets label) init labels := by
  induction labels generalizing init with
  | nil => trivial
  | cons label labels ih =>
    refine ⟨h label List.mem_cons_self, ?_⟩
    cases step init label with
    | none => trivial
    | some next => exact ih fun other ho => h other (List.mem_cons_of_mem label ho)

theorem Every.and {also : σ → ℓ → Prop} (h : Every step meets init labels)
    (hal : Every step also init labels) :
    Every step (fun state label => meets state label ∧ also state label) init labels := by
  induction labels generalizing init with
  | nil => trivial
  | cons label labels ih =>
    refine ⟨⟨h.1, hal.1⟩, ?_⟩
    have hr := h.2
    have ha := hal.2
    cases hs : step init label with
    | none => trivial
    | some next =>
      rw [hs] at hr ha
      exact ih hr ha

theorem Every.append_left (h : Every step meets init (labels ++ more)) :
    Every step meets init labels := by
  induction labels generalizing init with
  | nil => trivial
  | cons label labels ih =>
    obtain ⟨hm, hr⟩ := h
    refine ⟨hm, ?_⟩
    cases hs : step init label with
    | none => trivial
    | some next =>
      rw [hs] at hr
      exact ih hr

theorem Every.of_runs (h : ∀ front label rest state, labels = front ++ label :: rest →
      run step init front = some state → meets state label) : Every step meets init labels := by
  induction labels generalizing init with
  | nil => trivial
  | cons label labels ih =>
    refine ⟨h [] label labels init rfl rfl, ?_⟩
    cases hs : step init label with
    | none => trivial
    | some next =>
      refine ih fun front other rest state hl hr => ?_
      exact h (label :: front) other rest state (by rw [hl]; rfl)
        (run_cons.mpr ⟨next, hs, hr⟩)

theorem Every.run_invariant (holds : σ → Prop)
    (preserved : ∀ state label next, holds state → meets state label →
      step state label = some next → holds next) (start : holds init)
    (every : Every step meets init labels) (h : run step init labels = some final) :
    holds final := by
  induction labels generalizing init with
  | nil =>
    cases h
    exact start
  | cons label labels ih =>
    obtain ⟨next, hs, hru⟩ := run_cons.mp h
    obtain ⟨hm, hr⟩ := every
    rw [hs] at hr
    exact ih (preserved init label next start hm hs) hr hru

theorem every_of_run (holds spoiled : σ → Prop)
    (preserved : ∀ state label next, holds state → step state label = some next → holds next)
    (absorbing : ∀ state label next, spoiled state → step state label = some next → spoiled next)
    (spoils : ∀ state label next, holds state → ¬meets state label →
      step state label = some next → spoiled next) (start : holds init)
    (h : run step init labels = some final) (hf : ¬spoiled final) :
    Every step meets init labels := by
  induction labels generalizing init with
  | nil => trivial
  | cons label labels ih =>
    obtain ⟨next, hs, hr⟩ := run_cons.mp h
    refine ⟨?_, ?_⟩
    · by_contra hm
      have hsp := spoils init label next start hm hs
      exact hf (Machine.run_invariant spoiled absorbing hsp hr)
    · rw [hs]
      exact ih (preserved init label next start hs) hr

theorem Every.run_account (dead holds : σ → Prop) (account : σ → Nat) (counts : ℓ → Bool)
    (absorbing : ∀ state label next, dead state → step state label = some next → dead next)
    (kept : ∀ state label next, holds state → meets state label → step state label = some next →
      dead next ∨ holds next ∧ account next = account state + (counts label).toNat)
    (start : holds init) (every : Every step meets init labels)
    (h : run step init labels = some final) :
    dead final ∨ account final = account init + labels.countP counts := by
  induction labels generalizing init with
  | nil =>
    cases h
    exact .inr rfl
  | cons label labels ih =>
    obtain ⟨next, hs, hru⟩ := run_cons.mp h
    obtain ⟨hm, hr⟩ := every
    rw [hs] at hr
    rcases kept init label next start hm hs with hd | ⟨hn, ha⟩
    · exact .inl (Machine.run_invariant dead absorbing hd hru)
    · grind

/-! ### Outputs -/

def outputs {β : Type} (step : σ → ℓ → Option σ) (emit : σ → ℓ → Option β) : σ → List ℓ → List β
  | _, [] => []
  | state, label :: labels =>
    match step state label with
    | none => []
    | some next => (emit state label).toList ++ outputs step emit next labels

section Outputs

variable {β : Type} {emit : σ → ℓ → Option β}

theorem outputs_cons (h : step state label = some final) :
    outputs step emit state (label :: labels) =
      (emit state label).toList ++ outputs step emit final labels := by
  simp only [outputs, h]

theorem mem_outputs (holds : σ → Prop) (allowed : β → Prop)
    (preserved : ∀ state label next, holds state → step state label = some next → holds next)
    (good : ∀ state label next, holds state → step state label = some next →
      ∀ value, emit state label = some value → allowed value)
    (start : holds init) : ∀ value ∈ outputs step emit init labels, allowed value := by
  induction labels generalizing init with
  | nil => exact fun _ hv => absurd hv List.not_mem_nil
  | cons label labels ih => grind [outputs]

theorem outputs_append (h : run step init labels = some final) :
    outputs step emit init (labels ++ more) =
      outputs step emit init labels ++ outputs step emit final more := by
  induction labels generalizing init with
  | nil =>
    cases h
    rfl
  | cons label labels ih =>
    obtain ⟨next, hs, hr⟩ := run_cons.mp h
    rw [List.cons_append, outputs_cons hs, outputs_cons hs, ih hr, List.append_assoc]

theorem Every.run_outputs {meets : σ → ℓ → Prop} (related : σ → List β → Prop) {made : List β}
    (preserved : ∀ state label next made, related state made → meets state label →
      step state label = some next → related next (made ++ (emit state label).toList))
    (start : related init made) (every : Every step meets init labels)
    (h : run step init labels = some final) :
    related final (made ++ outputs step emit init labels) := by
  induction labels generalizing init made with
  | nil =>
    cases h
    rw [outputs, List.append_nil]
    exact start
  | cons label labels ih =>
    obtain ⟨next, hs, hru⟩ := run_cons.mp h
    obtain ⟨hm, hr⟩ := every
    rw [hs] at hr
    rw [outputs_cons hs, ← List.append_assoc]
    exact ih (preserved init label next made start hm hs) hr hru

end Outputs

end ProofKit.Machine
