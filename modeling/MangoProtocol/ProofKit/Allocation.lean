import Mathlib.Tactic

/-! Names that are given out by counting.  Each owner may hold any number of names; a name is the
name of a number that has been reached, and it never has two owners. -/

namespace ProofKit

structure Allocated {ι ν : Type} (name : Nat → ν) (count : Nat) (owns : ι → ν → Prop) : Prop where
  number : ∀ index id, owns index id → ∃ number, number ≤ count ∧ id = name number
  owner : ∀ index other id, owns index id → owns other id → index = other

namespace Allocated

variable {ι ν : Type} {name : Nat → ν} {count : Nat} {owns owns' : ι → ν → Prop}

theorem mono (h : Allocated name count owns)
    (ho : ∀ {index id}, owns' index id → owns index id) : Allocated name count owns' where
  number index id hid := h.number index id (ho hid)
  owner index other id hi hot := h.owner index other id (ho hi) (ho hot)

theorem skip (h : Allocated name count owns) : Allocated name (count + 1) owns where
  number index id hid := by
    obtain ⟨number, hn, hna⟩ := h.number index id hid
    exact ⟨number, Nat.le_succ_of_le hn, hna⟩
  owner := h.owner

theorem fresh (h : Allocated name count owns) (injective : Function.Injective name) (index : ι) :
    ¬owns index (name (count + 1)) := by
  intro ho
  obtain ⟨number, hnu, hn⟩ := h.number index _ ho
  have hne : count + 1 = number := injective hn
  omega

theorem assign {index : ι} (h : Allocated name count owns) (injective : Function.Injective name)
    (how : ∀ {position id}, owns' position id →
      position = index ∧ id = name (count + 1) ∨ owns position id) :
    Allocated name (count + 1) owns' where
  number position id hid := by
    rcases how hid with ⟨-, rfl⟩ | hid
    · exact ⟨count + 1, le_rfl, rfl⟩
    · obtain ⟨number, hn, rfl⟩ := h.number position id hid
      exact ⟨number, Nat.le_succ_of_le hn, rfl⟩
  owner position other id hp ho := by
    rcases how hp with ⟨rfl, rfl⟩ | hp
    · rcases how ho with ⟨rfl, -⟩ | ho
      · rfl
      · exact absurd ho (h.fresh injective other)
    · rcases how ho with ⟨-, rfl⟩ | ho
      · exact absurd hp (h.fresh injective position)
      · exact h.owner position other id hp ho

end Allocated

end ProofKit
