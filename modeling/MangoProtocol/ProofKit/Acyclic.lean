import Mathlib.Tactic
import Mathlib.Logic.Relation

/-! Relations without cycles on finitely many items. -/

namespace ProofKit

variable {α : Type} {related : α → α → Prop} {reached : α → Prop} {items : List α}

open Classical in
theorem exists_rank (hfi : ∀ item, reached item → item ∈ items)
    (hn : ∀ item following, reached item → related item following → reached following)
    (ha : ∀ item, reached item → ¬Relation.TransGen related item item) :
    ∃ rank : α → Nat, (∀ item, rank item ≤ items.length) ∧
      ∀ item following, reached item → related item following → rank following < rank item := by
  refine ⟨fun item => (items.toFinset.filter (Relation.TransGen related item)).card,
    fun item => (Finset.card_filter_le _ _).trans (List.toFinset_card_le items), ?_⟩
  intro item following hre hr
  have hf := hn item following hre hr
  refine Finset.card_lt_card (Finset.ssubset_iff_subset_ne.mpr ⟨fun other ho => ?_, ?_⟩)
  · obtain ⟨hm, hp⟩ := Finset.mem_filter.mp ho
    exact Finset.mem_filter.mpr ⟨hm, .head hr hp⟩
  · intro hs
    have hm : following ∈ items.toFinset.filter (Relation.TransGen related item) :=
      Finset.mem_filter.mpr ⟨List.mem_toFinset.mpr (hfi following hf), .single hr⟩
    rw [← hs] at hm
    exact ha following hf (Finset.mem_filter.mp hm).2

end ProofKit
