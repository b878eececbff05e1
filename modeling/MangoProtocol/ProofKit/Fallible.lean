import Mathlib.Tactic

/-! Computations that may refuse: when a sequence of checks passes, and what is left of an answer
when the refusal does not matter. -/

namespace ProofKit

variable {ε α β : Type}

theorem refuse_eq_ok {unfit : Prop} [Decidable unfit] {refusal : ε} {value found : α} :
    (if unfit then .error refusal else .ok value : Except ε α) = .ok found ↔
      ¬unfit ∧ found = value := by
  by_cases hu : unfit
  · simp [hu]
  · simp [hu, eq_comm]

theorem bind_eq_ok_iff {first : Except ε α} {next : α → Except ε β} {result : β} :
    first >>= next = .ok result ↔ ∃ value, first = .ok value ∧ next value = .ok result := by
  cases first with
  | error error => simp [bind, Except.bind]
  | ok value => simp [bind, Except.bind]

theorem mapM_eq_ok {check : α → Except ε α} {fit : α → Prop}
    (hc : ∀ value found, check value = .ok found ↔ fit value ∧ found = value)
    {value found : Option α} :
    value.mapM check = .ok found ↔ (∀ given ∈ value, fit given) ∧ found = value := by
  cases value with
  | none => simp [Option.mapM_none, pure, Except.pure, eq_comm]
  | some given =>
    cases hg : check given with
    | error error =>
      have hu : ¬fit given := fun hf => by
        cases hg.symm.trans ((hc given given).mpr ⟨hf, rfl⟩)
      simp [Option.mapM_some, hg, hu, Functor.map, Except.map]
    | ok result =>
      obtain ⟨hf, rfl⟩ := (hc given result).mp hg
      simp [Option.mapM_some, hg, hf, Functor.map, Except.map, eq_comm]

theorem list_mapM_eq_ok {compute : α → Except ε β} {items : List α} {results : List β} :
    items.mapM compute = .ok results ↔
      List.Forall₂ (fun item result => compute item = .ok result) items results := by
  induction items generalizing results with
  | nil =>
    rw [List.mapM_nil]
    constructor
    · intro h
      cases h
      exact .nil
    · intro h
      cases h
      rfl
  | cons item items ih =>
    rw [List.mapM_cons, bind_eq_ok_iff]
    constructor
    · rintro ⟨first, hf, hr⟩
      obtain ⟨rest, hm, hre⟩ := bind_eq_ok_iff.mp hr
      cases hre
      exact .cons hf (ih.mp hm)
    · intro h
      cases h with
      | cons hf hr => exact ⟨_, hf, bind_eq_ok_iff.mpr ⟨_, ih.mpr hr, rfl⟩⟩

/-! ### Answers without their refusals -/

theorem toOption_map (answer : Except ε α) (f : α → β) :
    (answer.map f).toOption = answer.toOption.map f := by
  cases answer <;> rfl

theorem ok_of_toOption {answer : Except ε α} {value : α} (h : answer.toOption = some value) :
    answer = .ok value := by
  cases answer with
  | error error => cases h
  | ok found =>
    cases h
    rfl

theorem eq_of_map_toOption {answers : List (Except ε α)} {values : List α}
    (h : answers.map Except.toOption = values.map some) : answers = values.map .ok := by
  induction answers generalizing values with
  | nil =>
    cases values with
    | nil => rfl
    | cons value values => cases h
  | cons answer answers ih =>
    cases values with
    | nil => cases h
    | cons value values => grind [List.cons.inj, ok_of_toOption]

end ProofKit
