import Mathlib.Tactic

/-! Named members in the order in which their names were given.  Assigning a name that is there
replaces its value where it stands; any other name comes last. -/

namespace ProofKit.Members

variable {κ α : Type} [DecidableEq κ]

def names (members : List (κ × α)) : List κ := members.map Prod.fst

/-- The value of a name. -/
def find : List (κ × α) → κ → Option α
  | [], _ => none
  | member :: members, name => if name = member.1 then some member.2 else find members name

def assign : List (κ × α) → κ → α → List (κ × α)
  | [], name, value => [(name, value)]
  | member :: members, name, value =>
    if member.1 = name then (name, value) :: members else member :: assign members name value

def merge (base later : List (κ × α)) : List (κ × α) :=
  later.foldl (fun members member => assign members member.1 member.2) base

def without (members : List (κ × α)) (name : κ) : List (κ × α) :=
  members.filter (·.1 ≠ name)

variable {members base later : List (κ × α)} {member : κ × α} {name other : κ} {value found : α}

/-! ### Lookups -/

@[simp] theorem find_nil : find ([] : List (κ × α)) name = none := rfl

theorem find_cons_self : find (member :: members) member.1 = some member.2 := if_pos rfl

theorem find_cons_of_ne (h : name ≠ member.1) : find (member :: members) name = find members name :=
  if_neg h

theorem mem_of_find (h : find members name = some value) : (name, value) ∈ members := by
  induction members with
  | nil => cases h
  | cons first members ih =>
    by_cases hn : name = first.1
    · subst hn
      cases find_cons_self.symm.trans h
      exact List.mem_cons_self
    · exact List.mem_cons_of_mem _ (ih ((find_cons_of_ne hn).symm.trans h))

theorem find_eq_none : find members name = none ↔ name ∉ names members := by
  induction members with
  | nil => simp [names]
  | cons first members ih => grind [find_cons_self, names, find_cons_of_ne]

theorem exists_find (h : name ∈ names members) : ∃ value, find members name = some value :=
  Option.ne_none_iff_exists'.mp fun hn => find_eq_none.mp hn h

theorem find_of_mem (hn : (names members).Nodup) (h : (name, value) ∈ members) :
    find members name = some value := by
  induction members with
  | nil => cases h
  | cons first members ih =>
    obtain ⟨hf, hr⟩ := List.nodup_cons.mp hn
    rcases List.mem_cons.mp h with rfl | hm
    · exact find_cons_self
    · have hne : name ≠ first.1 := by
        rintro rfl
        exact hf (List.mem_map.mpr ⟨_, hm, rfl⟩)
      rw [find_cons_of_ne hne]
      exact ih hr hm

theorem find_assign :
    find (assign members name value) other =
      if other = name then some value else find members other := by
  induction members with
  | nil => rfl
  | cons first members ih =>
    rw [assign]
    by_cases hn : first.1 = name
    · subst hn
      rw [if_pos rfl]
      by_cases ho : other = first.1
      · rw [if_pos ho, ho]
        exact find_cons_self
      · rw [if_neg ho, find_cons_of_ne ho]
        exact find_cons_of_ne ho
    · rw [if_neg hn]
      by_cases ho : other = first.1
      · subst ho
        rw [if_neg hn, find_cons_self, find_cons_self]
      · rw [find_cons_of_ne ho, find_cons_of_ne ho, ih]

theorem find_merge (hno : (names later).Nodup) :
    find (merge base later) name = (find later name).or (find base name) := by
  induction later generalizing base with
  | nil => rfl
  | cons first later ih =>
    obtain ⟨hf, hr⟩ := List.nodup_cons.mp hno
    have hs : merge base (first :: later) = merge (assign base first.1 first.2) later := rfl
    rw [hs, ih hr, find_assign]
    by_cases hn : name = first.1
    · rw [if_pos hn, hn, find_eq_none.mpr hf, find_cons_self]
      rfl
    · rw [if_neg hn, find_cons_of_ne hn]

theorem find_merge_of_not_mem (h : name ∉ names later) :
    find (merge base later) name = find base name := by
  induction later generalizing base with
  | nil => rfl
  | cons first later ih =>
    obtain ⟨hn, hr⟩ := not_or.mp (mt List.mem_cons.mpr h)
    have hs : merge base (first :: later) = merge (assign base first.1 first.2) later := rfl
    rw [hs, ih hr, find_assign, if_neg hn]

/-- The last assignment to a name is the one that stays. -/
theorem find_merge_last {front : List (κ × α)} (h : name ∉ names later) :
    find (merge base (front ++ (name, value) :: later)) name = some value := by
  rw [merge, List.foldl_append, List.foldl_cons]
  exact (find_merge_of_not_mem h).trans (find_assign.trans (if_pos rfl))

theorem find_without (h : other ≠ name) :
    find (without members name) other = find members other := by
  induction members with
  | nil => rfl
  | cons first members ih =>
    by_cases hn : first.1 = name
    · have hs : without (first :: members) name = without members name :=
        List.filter_cons_of_neg (by simp [hn])
      rw [hs, ih, find_cons_of_ne (hn ▸ h)]
    · have hk : without (first :: members) name = first :: without members name :=
        List.filter_cons_of_pos (by simp [hn])
      rw [hk]
      by_cases ho : other = first.1
      · rw [ho, find_cons_self, find_cons_self]
      · rw [find_cons_of_ne ho, find_cons_of_ne ho, ih]

theorem find_without_self : find (without members name) name = none := by
  rw [find_eq_none, names, without]
  simp

/-! ### What is a member -/

theorem mem_assign (h : member ∈ assign members name value) :
    member = (name, value) ∨ member ∈ members := by
  induction members with
  | nil => exact .inl (List.mem_singleton.mp h)
  | cons first members ih => grind [assign]

theorem mem_merge (h : member ∈ merge base later) : member ∈ base ∨ member ∈ later := by
  induction later generalizing base with
  | nil => exact .inl h
  | cons first later ih =>
    rcases ih h with hb | hl
    · grind [mem_assign, List.mem_cons_self]
    · exact .inr (List.mem_cons_of_mem _ hl)

theorem mem_without : member ∈ without members name ↔ member ∈ members ∧ member.1 ≠ name := by
  simp [without]

theorem names_assign :
    names (assign members name value) =
      if name ∈ names members then names members else names members ++ [name] := by
  induction members with
  | nil => simp [assign, names]
  | cons first members ih => grind [assign, names]

theorem assign_new (h : name ∉ names members) :
    assign members name value = members ++ [(name, value)] := by
  induction members with
  | nil => rfl
  | cons first members ih =>
    obtain ⟨hne, hm⟩ := not_or.mp (mt List.mem_cons.mpr h)
    rw [assign, if_neg (Ne.symm hne), ih hm]
    rfl

theorem assign_self (h : find members name = some value) : assign members name value = members := by
  induction members with
  | nil => cases h
  | cons first members ih =>
    rw [assign]
    by_cases hn : name = first.1
    · subst hn
      cases find_cons_self.symm.trans h
      rw [if_pos rfl]
    · rw [if_neg (Ne.symm hn), ih ((find_cons_of_ne hn).symm.trans h)]

/-! ### Distinct names -/

theorem nodup_assign (h : (names members).Nodup) : (names (assign members name value)).Nodup := by
  rw [names_assign]
  split
  · exact h
  · grind

theorem nodup_merge (h : (names base).Nodup) : (names (merge base later)).Nodup := by
  induction later generalizing base with
  | nil => exact h
  | cons first later ih => exact ih (nodup_assign h)

theorem nodup_without (h : (names members).Nodup) : (names (without members name)).Nodup :=
  h.sublist (List.filter_sublist.map _)

theorem merge_new (hn : (names (base ++ later)).Nodup) : merge base later = base ++ later := by
  induction later generalizing base with
  | nil => exact (List.append_nil base).symm
  | cons first later ih =>
    have hs : base ++ first :: later = (base ++ [first]) ++ later := by simp
    have hne : first.1 ∉ names base := by grind [names, List.nodup_append]
    have hst : merge base (first :: later) = merge (assign base first.1 first.2) later := rfl
    rw [hst, assign_new hne]
    rw [hs] at hn ⊢
    exact ih hn

/-! ### Sums -/

theorem sum_assign_le (weight : κ × α → Nat) :
    ((assign members name value).map weight).sum ≤
      (members.map weight).sum + weight (name, value) := by
  induction members with
  | nil => simp [assign]
  | cons first members ih => grind [assign]

theorem sum_assign_of_find (weight : κ × α → Nat) (h : find members name = some found) :
    ((assign members name value).map weight).sum + weight (name, found) =
      (members.map weight).sum + weight (name, value) := by
  induction members with
  | nil => cases h
  | cons first members ih =>
    rw [assign]
    by_cases hn : name = first.1
    · subst hn
      cases find_cons_self.symm.trans h
      simp only [if_true, List.map_cons, List.sum_cons, Prod.mk.eta]
      omega
    · grind [find_cons_of_ne]

theorem sum_merge_le (weight : κ × α → Nat) :
    ((merge base later).map weight).sum ≤ (base.map weight).sum + (later.map weight).sum := by
  induction later generalizing base with
  | nil => simp [merge]
  | cons first later ih =>
    have hr : ((merge base (first :: later)).map weight).sum ≤
        ((assign base first.1 first.2).map weight).sum + (later.map weight).sum := ih
    have hf : ((assign base first.1 first.2).map weight).sum ≤
        (base.map weight).sum + weight first := sum_assign_le weight
    rw [List.map_cons, List.sum_cons]
    omega

theorem sum_eq (weight : κ × α → Nat) {others : List (κ × α)} (hm : (names members).Nodup)
    (ho : (names others).Nodup) (hn : ∀ name, name ∈ names members ↔ name ∈ names others)
    (h : ∀ name value other, (name, value) ∈ members → (name, other) ∈ others →
      weight (name, value) = weight (name, other)) :
    (members.map weight).sum = (others.map weight).sum := by
  have hf : ∀ {members : List (κ × α)}, (names members).Nodup →
      members.map weight = (names members).map fun name =>
        (find members name).elim 0 fun value => weight (name, value) := by
    intro members hno
    rw [names, List.map_map]
    refine List.map_congr_left fun member hme => ?_
    rw [Function.comp_apply, find_of_mem hno hme]
    rfl
  have hp := (List.perm_ext_iff_of_nodup hm ho).mpr hn
  rw [hf hm, hf ho, ← (hp.map _).sum_eq]
  refine congrArg List.sum (List.map_congr_left fun name hna => ?_)
  obtain ⟨⟨_, value⟩, hv, rfl⟩ := List.mem_map.mp hna
  obtain ⟨⟨_, other⟩, hot, hs⟩ := List.mem_map.mp ((hn _).mp hna)
  dsimp only at hs
  subst hs
  rw [find_of_mem hm hv, find_of_mem ho hot]
  exact h _ value other hv hot

theorem sum_without (weight : κ × α → Nat) (hno : (names members).Nodup)
    (h : find members name = some value) :
    ((without members name).map weight).sum + weight (name, value) = (members.map weight).sum := by
  induction members with
  | nil => cases h
  | cons first members ih =>
    obtain ⟨hf, hr⟩ := List.nodup_cons.mp hno
    by_cases hn : name = first.1
    · have hv : value = first.2 := by
        rw [hn, find_cons_self] at h
        exact (Option.some.inj h).symm
      have hk : without (first :: members) name = members := by
        rw [without, List.filter_cons_of_neg (by simp [hn]), List.filter_eq_self]
        intro member hm
        have hne : member.1 ≠ name := fun heq =>
          hf (hn ▸ heq ▸ List.mem_map_of_mem hm)
        simp [hne]
      rw [hk, hn, hv, List.map_cons, List.sum_cons, Nat.add_comm]
    · rw [find_cons_of_ne hn] at h
      have hk : without (first :: members) name = first :: without members name :=
        List.filter_cons_of_pos (by simpa using Ne.symm hn)
      have hs := ih hr h
      rw [hk, List.map_cons, List.map_cons, List.sum_cons, List.sum_cons]
      omega

end ProofKit.Members
