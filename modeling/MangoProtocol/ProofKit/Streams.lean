import Mathlib.Tactic

/-! Numbered streams.  Each item of a list belongs to the stream of its key.  The items of a stream
are numbered from zero, and after an item that ends its stream the numbers start again. -/

namespace ProofKit

/-- How items are read: the key of their stream, whether they end it, and which numbers they carry.
-/
structure StreamRule (α κ : Type) where
  key : α → κ
  ends : α → Bool
  numbered : α → Nat → Prop

namespace StreamRule

variable {α κ : Type} [DecidableEq κ] (rule : StreamRule α κ)

/-- The number of the next item on a key. -/
def position (items : List α) (key : κ) : Nat :=
  items.foldl (fun next item =>
    if rule.key item = key then if rule.ends item then 0 else next + 1 else next) 0

def InSequence (items : List α) : Prop :=
  ∀ before item after, items = before ++ item :: after →
    rule.numbered item (rule.position before (rule.key item))

variable {rule} {items more : List α} {item : α}

@[simp] theorem position_nil (key : κ) : rule.position [] key = 0 := rfl

theorem position_concat (key : κ) :
    rule.position (items ++ [item]) key =
      if rule.key item = key then if rule.ends item then 0 else rule.position items key + 1
      else rule.position items key := by
  simp [position]

theorem InSequence.nil : rule.InSequence [] := by
  intro before item after h
  simp at h

theorem InSequence.concat (h : rule.InSequence items)
    (hite : rule.numbered item (rule.position items (rule.key item))) :
    rule.InSequence (items ++ [item]) := by
  intro before other after heq
  rcases List.append_eq_append_iff.mp heq with ⟨rest, hb, hr⟩ | ⟨rest, hi, hr⟩
  · grind [List.singleton_eq_append_iff]
  · match rest with
    | [] =>
      cases hr
      rw [List.append_nil] at hi
      rw [← hi]
      exact hite
    | first :: rest =>
      cases hr
      exact h before other rest hi

theorem InSequence.of_append (h : rule.InSequence (items ++ more)) : rule.InSequence items := by
  intro before item after heq
  refine h before item (after ++ more) ?_
  rw [heq, List.append_assoc, List.cons_append]

end StreamRule

end ProofKit
