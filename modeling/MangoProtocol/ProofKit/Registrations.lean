import Mathlib.Tactic

/-! Registrations under keys, judged by the history of what was done.  A registration replaces what
its key held, and it may be released.  The one in force under a key is the latest that was put
there, unless it has been released. -/

namespace ProofKit.Registrations

variable {κ ι : Type} [DecidableEq κ] [DecidableEq ι]

inductive Act (κ ι : Type) where
  | put (key : κ) (registration : ι)
  | release (registration : ι)
  deriving DecidableEq

def Act.putUnder (key : κ) : Act κ ι → Option ι
  | .put other registration => if other = key then some registration else none
  | .release _ => none

def latest (history : List (Act κ ι)) (key : κ) : Option ι :=
  (history.filterMap (Act.putUnder key)).getLast?

/-- The registration in force under a key. -/
def inForce (history : List (Act κ ι)) (key : κ) : Option ι :=
  (latest history key).filter fun registration => .release registration ∉ history

variable {history : List (Act κ ι)} {key other : κ} {registration : ι}

omit [DecidableEq ι] in
theorem latest_put :
    latest (history ++ [.put key registration]) other =
      if other = key then some registration else latest history other := by
  by_cases hk : other = key
  · subst hk
    simp [latest, Act.putUnder]
  · simp [latest, Act.putUnder, hk, Ne.symm hk]

omit [DecidableEq ι] in
theorem latest_release : latest (history ++ [.release registration]) key = latest history key := by
  simp [latest, Act.putUnder]

theorem inForce_put (hn : .release registration ∉ history) :
    inForce (history ++ [.put key registration]) other =
      if other = key then some registration else inForce history other := by
  rw [inForce, latest_put]
  by_cases hk : other = key
  · simp [hk, Option.filter, hn]
  · simp [hk, inForce]

theorem inForce_release :
    inForce (history ++ [.release registration]) key =
      (inForce history key).filter (· ≠ registration) := by
  rw [inForce, latest_release, inForce, Option.filter_filter]
  congr 1
  funext found
  simp [Bool.and_comm]

theorem latest_of_inForce (h : inForce history key = some registration) :
    latest history key = some registration :=
  (Option.filter_eq_some_iff.mp h).1

theorem inForce_release_replaced (h : latest history key ≠ some registration) :
    inForce (history ++ [.release registration]) key = inForce history key := by
  rw [inForce_release]
  cases hf : inForce history key with
  | none => rfl
  | some found =>
    have hne : found ≠ registration := by
      rintro rfl
      exact h (latest_of_inForce hf)
    simp [Option.filter, hne]

end ProofKit.Registrations
