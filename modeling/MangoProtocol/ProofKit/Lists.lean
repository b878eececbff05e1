import Mathlib.Tactic

/-! Lists: one item more, one match at most, two lists that a relation holds between at each index,
and two lists that are paired item by item. -/

namespace ProofKit

variable {α : Type} {related other : α → α → Prop} {first second third : List α}

variable {items : List α} {index position : Nat} {κ : Type} {item found : α}

theorem getElem?_concat (h : (items ++ [item])[index]? = some found) :
    items[index]? = some found ∨ index = items.length ∧ found = item := by
  rcases Nat.lt_trichotomy index items.length with hlt | rfl | hgt
  · rw [List.getElem?_append_left hlt] at h
    exact .inl h
  · rw [List.getElem?_concat_length] at h
    exact .inr ⟨rfl, (Option.some.inj h).symm⟩
  · rw [List.getElem?_eq_none (by simp; omega)] at h
    cases h

theorem getElem?_modify_eq_some {change : α → α}
    (h : (items.modify index change)[position]? = some item) :
    (position = index ∧ ∃ earlier, items[index]? = some earlier ∧ item = change earlier) ∨
      position ≠ index ∧ items[position]? = some item := by
  rw [List.getElem?_modify] at h
  obtain ⟨earlier, hea, heq⟩ := Option.map_eq_some_iff.mp h
  split at heq
  · rename_i hp
    subst hp heq
    exact .inl ⟨rfl, earlier, hea, rfl⟩
  · rename_i hp
    subst heq
    exact .inr ⟨Ne.symm hp, hea⟩

theorem getElem?_set_eq_some (h : (items.set index item)[position]? = some found) :
    (position = index ∧ found = item) ∨ position ≠ index ∧ items[position]? = some found := by
  by_cases hp : index = position
  · grind
  · rw [List.getElem?_set_ne hp] at h
    exact .inr ⟨Ne.symm hp, h⟩

theorem sum_map_set {earlier : α} (weight : α → Nat) (h : items[index]? = some earlier) :
    ((items.set index item).map weight).sum + weight earlier =
      (items.map weight).sum + weight item := by
  induction items generalizing index with
  | nil => cases h
  | cons first items ih =>
    cases index with
    | zero =>
      cases h
      simp only [List.set_cons_zero, List.map_cons, List.sum_cons]
      omega
    | succ index =>
      have hr := ih h
      simp only [List.set_cons_succ, List.map_cons, List.sum_cons]
      omega

theorem modify_concat (items : List α) (item : α) (change : α → α) :
    (items ++ [item]).modify items.length change = items ++ [change item] := by
  induction items with
  | nil => rfl
  | cons first items ih => simpa using ih

theorem concat_eq_append_cons {before after : List α} {last : α} :
    items ++ [last] = before ++ item :: after ↔
      (before = items ∧ item = last ∧ after = []) ∨
        ∃ middle, after = middle ++ [last] ∧ items = before ++ item :: middle := by
  constructor
  · intro h
    rcases List.eq_nil_or_concat after with rfl | ⟨middle, final, rfl⟩
    · grind [List.append_inj', List.cons.inj]
    · grind [List.append_assoc, List.append_inj']
  · rintro (⟨rfl, rfl, rfl⟩ | ⟨middle, rfl, rfl⟩)
    · rfl
    · simp

theorem filter_eq_singleton {holds : α → Bool} (hi : item ∈ items) (hh : holds item = true)
    (hc : items.countP holds ≤ 1) : items.filter holds = [item] := by
  have hm : item ∈ items.filter holds := List.mem_filter.mpr ⟨hi, hh⟩
  rw [List.countP_eq_length_filter] at hc
  match hf : items.filter holds with
  | [] =>
    rw [hf] at hm
    cases hm
  | [only] =>
    rw [hf] at hm
    rw [List.mem_singleton.mp hm]
  | _ :: _ :: _ =>
    rw [hf] at hc
    simp at hc

theorem countP_eraseP_key [BEq κ] [LawfulBEq κ] (key : α → κ) (h : item ∈ items) (wanted : κ) :
    items.countP (key · == wanted) =
      (items.eraseP (key · == key item)).countP (key · == wanted) + (key item == wanted).toNat := by
  obtain ⟨found, front, back, -, hf, hi, he⟩ :=
    List.exists_of_eraseP (p := (key · == key item)) h (beq_self_eq_true _)
  rw [he, hi, List.countP_append, List.countP_append, List.countP_cons, eq_of_beq hf]
  cases key item == wanted <;> simp [Nat.add_assoc]

theorem countP_key_le_one [DecidableEq κ] {key : α → κ} (h : (items.map key).Nodup) (wanted : κ) :
    items.countP (fun item => key item = wanted) ≤ 1 := by
  have hc := List.nodup_iff_count_le_one.mp h wanted
  rw [List.count_eq_countP, List.countP_map] at hc
  exact hc

structure Pointwise (related : α → α → Prop) (before after : List α) : Prop where
  length : after.length = before.length
  related : ∀ (index : Nat) (item : α), after[index]? = some item →
    ∃ earlier, before[index]? = some earlier ∧ related earlier item

namespace Pointwise

theorem refl (h : ∀ item, related item item) (items : List α) : Pointwise related items items :=
  ⟨rfl, fun _ item hi => ⟨item, hi, h item⟩⟩

theorem trans (h : ∀ {a b c}, related a b → related b c → related a c)
    (hf : Pointwise related first second) (hs : Pointwise related second third) :
    Pointwise related first third := by
  refine ⟨hs.length.trans hf.length, fun index item hi => ?_⟩
  obtain ⟨between, hb, hr⟩ := hs.related index item hi
  obtain ⟨earlier, hea, hr'⟩ := hf.related index between hb
  exact ⟨earlier, hea, h hr' hr⟩

theorem mono (h : ∀ a b, related a b → other a b) (hp : Pointwise related first second) :
    Pointwise other first second := by
  refine ⟨hp.length, fun index item hi => ?_⟩
  obtain ⟨earlier, hea, hr⟩ := hp.related index item hi
  exact ⟨earlier, hea, h _ _ hr⟩

theorem modify (h : ∀ item, related item item) (items : List α) (index : Nat) {change : α → α}
    (hc : ∀ item, items[index]? = some item → related item (change item)) :
    Pointwise related items (items.modify index change) := by
  refine ⟨List.length_modify .., fun position item hi => ?_⟩
  rcases getElem?_modify_eq_some hi with ⟨rfl, earlier, hea, rfl⟩ | ⟨-, hi⟩
  · exact ⟨earlier, hea, hc earlier hea⟩
  · exact ⟨item, hi, h item⟩

end Pointwise

/-! ### Lists paired item by item -/

section Paired

variable {β : Type} {paired : α → β → Prop} {items : List α} {partners : List β}

theorem exists_paired (h : ∀ item ∈ items, ∃ partner, paired item partner) :
    ∃ partners, List.Forall₂ paired items partners := by
  induction items with
  | nil => exact ⟨[], .nil⟩
  | cons item items ih =>
    obtain ⟨partner, hpa⟩ := h item List.mem_cons_self
    obtain ⟨partners, hp⟩ := ih fun other ho => h other (List.mem_cons_of_mem _ ho)
    exact ⟨partner :: partners, .cons hpa hp⟩

theorem mem_paired (h : List.Forall₂ paired items partners) {partner : β}
    (hp : partner ∈ partners) : ∃ item ∈ items, paired item partner := by
  induction h with
  | nil => cases hp
  | cons hf _ ih => grind

theorem paired_some {answers : List (Option β)}
    (h : List.Forall₂ (fun item answer => ∃ partner, answer = some partner ∧ paired item partner)
      items answers) :
    ∃ partners : List β, answers = partners.map some ∧ List.Forall₂ paired items partners := by
  induction h with
  | nil => exact ⟨[], rfl, .nil⟩
  | cons hf _ ih =>
    obtain ⟨partner, rfl, hp⟩ := hf
    obtain ⟨partners, rfl, hr⟩ := ih
    exact ⟨partner :: partners, rfl, .cons hp hr⟩

theorem paired_uniform (within : Nat → α → β → Prop)
    (mono : ∀ {low high item partner}, low ≤ high → within low item partner →
      within high item partner)
    (h : List.Forall₂ (fun item partner => ∃ bound, within bound item partner) items partners) :
    ∃ bound, List.Forall₂ (within bound) items partners := by
  induction h with
  | nil => exact ⟨0, .nil⟩
  | cons hf _ ih =>
    obtain ⟨first, hf⟩ := hf
    obtain ⟨rest, hr⟩ := ih
    exact ⟨max first rest, .cons (mono (Nat.le_max_left ..) hf)
      (hr.imp fun _ _ => mono (Nat.le_max_right ..))⟩

variable {size : α → Nat} {size' : β → Nat}

theorem paired_sum_le
    (h : List.Forall₂ (fun item partner => size' partner ≤ size item) items partners) :
    (partners.map size').sum ≤ (items.map size).sum := by
  induction h with
  | nil => exact Nat.le_refl 0
  | cons hf _ ih =>
    simp only [List.map_cons, List.sum_cons]
    omega

theorem paired_of_sum_le {fine : α → Prop}
    (h : List.Forall₂ (fun item partner => size' partner ≤ size item ∧
      (size item ≤ size' partner → fine item)) items partners)
    (hs : (items.map size).sum ≤ (partners.map size').sum) : ∀ item ∈ items, fine item := by
  induction h with
  | nil => exact fun _ h => absurd h List.not_mem_nil
  | cons hf hr ih =>
    have hl := hf.1
    have hle := paired_sum_le (hr.imp fun _ _ h => h.1)
    simp only [List.map_cons, List.sum_cons] at hs
    exact List.forall_mem_cons.mpr ⟨hf.2 (by omega), ih (by omega)⟩

end Paired

end ProofKit
