import Mathlib.Tactic

/-! A timer that ticks at the multiples of a period and skips those it missed. -/

namespace ProofKit

structure Interval where
  period : Nat
  deadline : Nat
  positive : 0 < period

namespace Interval

def startingAt (deadline period : Nat) (positive : 0 < period) : Interval :=
  ⟨period, deadline, positive⟩

def Due (self : Interval) (now : Nat) : Prop := self.deadline ≤ now

instance (self : Interval) (now : Nat) : Decidable (self.Due now) :=
  inferInstanceAs (Decidable (self.deadline ≤ now))

/-- The timer after a tick was taken: the next deadline is the first multiple of the period, counted
from the last, that is still to come. -/
def tick (self : Interval) (now : Nat) : Interval :=
  { self with deadline := self.deadline + ((now - self.deadline) / self.period + 1) * self.period }

theorem not_due_tick (self : Interval) (now : Nat) : ¬(self.tick now).Due now := by
  have hm := Nat.lt_div_mul_add self.positive (a := now - self.deadline)
  simp only [Due, tick, Nat.add_mul, Nat.one_mul]
  omega

end Interval

end ProofKit
