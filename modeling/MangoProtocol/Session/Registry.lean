import MangoProtocol.Session.Shared
import MangoProtocol.ProofKit.Machine
import MangoProtocol.ProofKit.Registrations
import MangoProtocol.ProofKit.Tables

/-! The registry of handlers.  A call of `handle` draws its generation before it takes the lock of
the registry, so the numbers of several calls and their inserts may come in different orders.  A
guard that is dropped removes the handler only under its own generation. -/

namespace MangoProtocol

open ProofKit
open ProofKit.Registrations (Act latest inForce)

/-- A guard that is still armed. -/
structure HandlerGuard where
  method : String
  generation : Nat
  deriving DecidableEq

namespace Shared

variable {H : Type} (self : Shared H)

/-- The handler of a method. -/
def handler (method : String) : Option H := (self.handlers.lookup method).map Prod.snd

/-- `Session::handle`. -/
def handle (method : String) (handler : H) : Shared H × HandlerGuard :=
  (self.registerHandler method handler, ⟨method, self.nextGeneration⟩)

def drawGeneration : Shared H := { self with nextGeneration := self.nextGeneration + 1 }

def insertHandler (guard : HandlerGuard) (handler : H) : Shared H :=
  { self with handlers := self.handlers.insert guard.method (guard.generation, handler) }

theorem lookup_dropGuard (guard : HandlerGuard) (method : String) :
    (self.dropGuard guard.method guard.generation).handlers.lookup method =
      (self.handlers.lookup method).filter fun entry => ⟨method, entry.1⟩ ≠ guard := by
  obtain ⟨guarded, generation⟩ := guard
  unfold Shared.dropGuard
  dsimp only
  by_cases hm : method = guarded
  · grind [Tables.lookup_erase_eq, Option.filter]
  · have hk : (self.handlers.lookup method).filter (fun entry =>
        decide ((⟨method, entry.1⟩ : HandlerGuard) ≠ ⟨guarded, generation⟩)) =
          self.handlers.lookup method := by
      cases self.handlers.lookup method with
      | none => rfl
      | some entry => simp [hm]
    rw [hk]
    split
    · split
      · rw [Tables.lookup_erase_eq, if_neg hm]
      · rfl
    · rfl

@[simp] theorem dropGuard_nextGeneration (method : String) (generation : Nat) :
    (self.dropGuard method generation).nextGeneration = self.nextGeneration := by
  unfold dropGuard
  split
  · split <;> rfl
  · rfl

theorem dropGuard_other {guard : HandlerGuard}
    (h : ∀ entry, self.handlers.lookup guard.method = some entry → entry.1 ≠ guard.generation) :
    self.dropGuard guard.method guard.generation = self := by
  unfold dropGuard
  split
  · rename_i current handler he
    exact if_neg (h _ he)
  · rfl

end Shared

/-! ### Calls of several threads -/

/-- How far a call of `handle` and its guard are. -/
inductive GuardStage where
  | drawn
  | armed
  | dropped
  | persisted
  deriving DecidableEq

/-- One call of `handle`. -/
structure Registration (H : Type) where
  guard : HandlerGuard
  handler : H
  stage : GuardStage

/-- The registry of a session, with the calls of `handle` in the order of their generations. -/
structure Registry (H : Type) where
  shared : Shared H
  registrations : List (Registration H)

/-- A step of a thread.  All but the first name the call by its index. -/
inductive RegistryLabel (H : Type) where
  | draw (method : String) (handler : H)
  | insert (index : Nat)
  | dropGuard (index : Nat)
  | persist (index : Nat)

namespace Registry

variable {H : Type}

def start : Registry H := ⟨Shared.initial [], []⟩

def advance (self : Registry H) (index : Nat) (before after : GuardStage)
    (act : Registration H → Shared H) : Option (Registry H) :=
  self.registrations[index]?.bind fun registration =>
    if registration.stage = before then
      some ⟨act registration,
        self.registrations.set index { registration with stage := after }⟩
    else none

def step (self : Registry H) : RegistryLabel H → Option (Registry H)
  | .draw method handler =>
    some ⟨self.shared.drawGeneration,
      self.registrations ++ [⟨⟨method, self.shared.nextGeneration⟩, handler, .drawn⟩]⟩
  | .insert index => self.advance index .drawn .armed fun registration =>
      self.shared.insertHandler registration.guard registration.handler
  | .dropGuard index => self.advance index .armed .dropped fun registration =>
      self.shared.dropGuard registration.guard.method registration.guard.generation
  | .persist index => self.advance index .armed .persisted fun _ => self.shared

/-- What a step does to the registrations of the session: an insert puts the call under its method,
and a guard that is dropped unpersisted releases it. -/
def acted (self : Registry H) : RegistryLabel H → Option (Act String Nat)
  | .insert index => self.registrations[index]?.map fun registration =>
      .put registration.guard.method index
  | .dropGuard index => some (.release index)
  | .draw _ _ | .persist _ => none

def history (labels : List (RegistryLabel H)) : List (Act String Nat) :=
  Machine.outputs step acted start labels

def call (self : Registry H) (index : Nat) : Option (HandlerGuard × H) :=
  self.registrations[index]?.map fun registration => (registration.guard, registration.handler)

variable {self next : Registry H} {index : Nat} {before after : GuardStage}
  {act : Registration H → Shared H}

theorem advance_eq_some (h : self.advance index before after act = some next) :
    ∃ registration, self.registrations[index]? = some registration ∧
      registration.stage = before ∧ next.shared = act registration ∧
      next.registrations = self.registrations.set index { registration with stage := after } := by
  obtain ⟨registration, hf, hn⟩ := Option.bind_eq_some_iff.mp h
  split at hn
  · rename_i hs
    cases hn
    exact ⟨registration, hf, hs, rfl, rfl⟩
  · cases hn

theorem call_of_getElem {registration : Registration H}
    (h : self.registrations[index]? = some registration) :
    self.call index = some (registration.guard, registration.handler) := by
  rw [call, h]
  rfl

theorem advance_call (h : self.advance index before after act = some next) (other : Nat) :
    next.call other = self.call other := by
  obtain ⟨registration, hf, -, -, hn⟩ := advance_eq_some h
  rw [call, call, hn, List.getElem?_set]
  split
  · grind
  · rfl

/-! ### The law of the registry -/

/-- The registry agrees with what was done to it. -/
structure Lawful (registry : Registry H) (history : List (Act String Nat)) : Prop where
  drawn : registry.shared.nextGeneration = registry.registrations.length
  numbered : ∀ index guard handler, registry.call index = some (guard, handler) →
    guard.generation = index
  placed : ∀ method index, latest history method = some index →
    ∃ guard handler, registry.call index = some (guard, handler) ∧ guard.method = method
  released : ∀ index, .release index ∈ history →
    ∃ registration, registry.registrations[index]? = some registration ∧
      registration.stage = .dropped
  held : ∀ method, registry.shared.handlers.lookup method =
    (inForce history method).bind fun index =>
      (registry.call index).map fun call => (call.1.generation, call.2)

variable {made : List (Act String Nat)}

theorem Lawful.draw (h : self.Lawful made) (method : String) (handler : H) :
    Lawful ⟨self.shared.drawGeneration,
      self.registrations ++ [⟨⟨method, self.shared.nextGeneration⟩, handler, .drawn⟩]⟩ made := by
  have hc : ∀ index, self.call index ≠ none → Registry.call ⟨self.shared.drawGeneration,
      self.registrations ++ [⟨⟨method, self.shared.nextGeneration⟩, handler, .drawn⟩]⟩ index =
        self.call index := by
    intro index hso
    have hlt : index < self.registrations.length := by
      by_contra hge
      exact hso (by rw [call, List.getElem?_eq_none (Nat.not_lt.mp hge)]; rfl)
    rw [call, call, List.getElem?_append_left hlt]
  constructor
  case drawn =>
    rw [List.length_append, List.length_singleton, ← h.drawn]
    rfl
  case numbered =>
    intro index guard found hf
    by_cases hn : self.call index = none
    · have hge : self.registrations.length ≤ index :=
        List.getElem?_eq_none_iff.mp (Option.map_eq_none_iff.mp hn)
      rw [call, List.getElem?_append_right hge, List.getElem?_singleton] at hf
      split at hf
      · rename_i hi
        cases hf
        have hle := h.drawn
        dsimp only
        omega
      · cases hf
    · rw [hc index hn] at hf
      exact h.numbered index guard found hf
  case placed =>
    intro other index hl
    obtain ⟨guard, found, hf, hm⟩ := h.placed other index hl
    exact ⟨guard, found, (hc index (by simp [hf])).trans hf, hm⟩
  case released =>
    intro index hr
    obtain ⟨registration, hf, hs⟩ := h.released index hr
    obtain ⟨hlt, -⟩ := List.getElem?_eq_some_iff.mp hf
    exact ⟨registration, (List.getElem?_append_left hlt).trans hf, hs⟩
  case held =>
    intro other
    refine (h.held other).trans ?_
    cases hfo : inForce made other with
    | none => rfl
    | some index =>
      obtain ⟨guard, found, hf, -⟩ :=
        h.placed other index (Registrations.latest_of_inForce hfo)
      rw [Option.bind_some, Option.bind_some, hc index (by simp [hf])]

theorem Lawful.advance {later : List (Act String Nat)} (h : self.Lawful made)
    (hn : self.advance index before after act = some next) (hb : before ≠ .dropped)
    (hco : next.shared.nextGeneration = self.shared.nextGeneration)
    (hp : ∀ method found, latest later method = some found →
      latest made method = some found ∨
        found = index ∧ ∃ guard handler, self.call index = some (guard, handler) ∧
          guard.method = method)
    (hre : ∀ other, .release other ∈ later →
      .release other ∈ made ∨ other = index ∧ after = .dropped)
    (hh : ∀ method, next.shared.handlers.lookup method =
      (inForce later method).bind fun index =>
        (self.call index).map fun call => (call.1.generation, call.2)) : next.Lawful later := by
  obtain ⟨registration, hf, hs, -, hr⟩ := advance_eq_some hn
  obtain ⟨hlt, -⟩ := List.getElem?_eq_some_iff.mp hf
  have hc := advance_call hn
  constructor
  case drawn => rw [hco, h.drawn, hr, List.length_set]
  case numbered =>
    intro other guard handler ho
    exact h.numbered other guard handler ((hc other).symm.trans ho)
  case placed =>
    intro method found hl
    rw [hc found]
    rcases hp method found hl with hold | ⟨rfl, hse⟩
    · exact h.placed method found hold
    · exact hse
  case released =>
    intro other ho
    rw [hr]
    rcases hre other ho with hold | ⟨rfl, rfl⟩
    · obtain ⟨dropped, hd, hdr⟩ := h.released other hold
      refine ⟨dropped, ?_, hdr⟩
      rw [List.getElem?_set_ne, hd]
      rintro rfl
      rw [hf] at hd
      cases hd
      exact hb (hs.symm.trans hdr)
    · exact ⟨_, List.getElem?_set_self hlt, rfl⟩
  case held =>
    intro method
    simp only [hc]
    exact hh method

theorem Lawful.insert (h : self.Lawful made) (hn : self.step (.insert index) = some next) :
    next.Lawful (made ++ (self.acted (.insert index)).toList) := by
  obtain ⟨registration, hf, hst, hs, -⟩ := advance_eq_some hn
  have hse := call_of_getElem hf
  have ha : (self.acted (.insert index)).toList =
      [.put registration.guard.method index] := by
    rw [acted, hf]
    rfl
  -- The call has only drawn its generation, so its guard is still to come.
  have hne : .release index ∉ made := by
    intro hr
    obtain ⟨dropped, hdr, hd⟩ := h.released index hr
    rw [hf] at hdr
    cases hdr
    rw [hst] at hd
    cases hd
  rw [ha]
  refine h.advance hn (by decide) (by rw [hs]; rfl) ?_ ?_ ?_
  · grind [Registrations.latest_put]
  · intro other ho
    exact .inl (by simpa using ho)
  · intro method
    rw [hs, Shared.insertHandler, Tables.lookup_insert_eq, Registrations.inForce_put hne]
    split
    · rw [Option.bind_some, hse]
      rfl
    · exact h.held method

theorem Lawful.dropGuard (h : self.Lawful made)
    (hn : self.step (.dropGuard index) = some next) :
    next.Lawful (made ++ (self.acted (.dropGuard index)).toList) := by
  obtain ⟨registration, hfo, -, hs, -⟩ := advance_eq_some hn
  have hse := call_of_getElem hfo
  change next.Lawful (made ++ [.release index])
  refine h.advance hn (by decide) (by rw [hs, Shared.dropGuard_nextGeneration]) ?_ ?_ ?_
  · intro method found hl
    exact .inl (Registrations.latest_release.symm.trans hl)
  · grind
  · intro method
    rw [hs, Shared.lookup_dropGuard, h.held method, Registrations.inForce_release]
    cases hf : inForce made method with
    | none => rfl
    | some found =>
      obtain ⟨guard, handler, hg, hm⟩ :=
        h.placed method found (Registrations.latest_of_inForce hf)
      have hnu := h.numbered found guard handler hg
      -- One generation is drawn by one call.
      have hsa : (⟨method, guard.generation⟩ : HandlerGuard) = registration.guard ↔
          found = index := by
        constructor
        · intro heq
          rw [← hnu, ← h.numbered index _ _ hse, ← heq]
        · rintro rfl
          rw [hse] at hg
          cases hg
          rw [← hm]
      rw [Option.bind_some, hg]
      by_cases hi : found = index
      · simp [Option.filter, hsa, hi]
      · simp [Option.filter, hsa, hi, hg]

theorem Lawful.persist (h : self.Lawful made)
    (hn : self.step (.persist index) = some next) : next.Lawful made := by
  obtain ⟨registration, -, -, hs, -⟩ := advance_eq_some hn
  refine h.advance hn (by decide) (by rw [hs]) ?_ ?_ ?_
  · exact fun method found hl => .inl hl
  · exact fun other ho => .inl ho
  · intro method
    rw [hs]
    exact h.held method

theorem Lawful.step (label : RegistryLabel H) (h : self.Lawful made)
    (hn : self.step label = some next) :
    next.Lawful (made ++ (self.acted label).toList) := by
  cases label with
  | draw method handler =>
    cases hn
    exact (List.append_nil made).symm ▸ h.draw method handler
  | insert index => exact h.insert hn
  | dropGuard index => exact h.dropGuard hn
  | persist index => exact (List.append_nil made).symm ▸ h.persist hn

theorem Lawful.start : (start : Registry H).Lawful [] where
  drawn := rfl
  numbered _ _ _ hc := by cases hc
  placed _ _ hl := by cases hl
  released _ hr := by cases hr
  held _ := rfl

theorem run_lawful {labels : List (RegistryLabel H)}
    (h : Machine.run Registry.step start labels = some self) : self.Lawful (history labels) :=
  have every : Machine.Every Registry.step (fun _ _ => True) start labels :=
    Machine.Every.of_forall fun _ _ => trivial
  every.run_outputs Lawful (fun _ label _ _ hl _ hn => hl.step label hn)
    Lawful.start h

/-- The registrations of `Session::open`, from the index of its first call on. -/
def opening (index : Nat) : List (String × H) → List (RegistryLabel H)
  | [] => []
  | (method, handler) :: handlers =>
    .draw method handler :: .insert index :: opening (index + 1) handlers

theorem run_opening (handlers : List (String × H)) :
    ∃ self, Machine.run Registry.step start (opening 0 handlers) = some self ∧
      self.shared = Shared.initial handlers := by
  suffices h : ∀ (registry : Registry H) (index : Nat), registry.registrations.length = index →
      ∃ self, Machine.run Registry.step registry (opening index handlers) = some self ∧
        self.shared = handlers.foldl
          (fun shared entry => shared.registerHandler entry.1 entry.2) registry.shared from
    h start 0 rfl
  induction handlers with
  | nil => exact fun registry _ _ => ⟨registry, rfl, rfl⟩
  | cons entry handlers ih =>
    obtain ⟨method, handler⟩ := entry
    rintro ⟨shared, registrations⟩ index rfl
    obtain ⟨self, hr, hs⟩ :=
      ih ⟨(shared.handle method handler).1, registrations ++
        [⟨(shared.handle method handler).2, handler, .armed⟩]⟩ (registrations.length + 1) (by simp)
    refine ⟨self, ?_, hs⟩
    rw [opening, Machine.run_cons]
    refine ⟨_, rfl, Machine.run_cons.mpr ⟨_, ?_, hr⟩⟩
    simp [step, advance, Shared.handle, Shared.insertHandler, Shared.drawGeneration,
      Shared.registerHandler]

/-- At every moment the handler of a method is that of the insert that came last, unless the guard
of this registration was dropped unpersisted; and a guard of a replaced registration that is
dropped changes nothing. -/
theorem run_handler_law {labels : List (RegistryLabel H)}
    (h : Machine.run Registry.step start labels = some self) :
    (∀ method, latest (history labels) method = none → self.shared.handler method = none) ∧
    (∀ method index, latest (history labels) method = some index →
      ∃ guard handler, self.call index = some (guard, handler) ∧ guard.method = method ∧
        self.shared.handler method =
          if .release index ∈ history labels then none else some handler) ∧
    ∀ index guard handler next, self.call index = some (guard, handler) →
      latest (history labels) guard.method ≠ some index →
        self.step (.dropGuard index) = some next → next.shared = self.shared := by
  have hl := run_lawful h
  refine ⟨?_, ?_, ?_⟩
  · intro method hla
    rw [Shared.handler, hl.held, inForce, hla]
    rfl
  · intro method index hla
    obtain ⟨guard, handler, hc, hm⟩ := hl.placed method index hla
    refine ⟨guard, handler, hc, hm, ?_⟩
    rw [Shared.handler, hl.held, inForce, hla]
    by_cases hr : .release index ∈ history labels
    · simp [Option.filter, hr]
    · simp [Option.filter, hr, hc]
  · intro index guard handler next hc hre hn
    obtain ⟨registration, hf, -, hs, -⟩ := advance_eq_some hn
    cases (call_of_getElem hf).symm.trans hc
    rw [hs]
    refine Shared.dropGuard_other _ fun entry he heq => hre ?_
    rw [hl.held] at he
    obtain ⟨found, hfo, he⟩ := Option.bind_eq_some_iff.mp he
    obtain ⟨⟨other, _⟩, ho, rfl⟩ := Option.map_eq_some_iff.mp he
    have hi : found = index :=
      (hl.numbered found other _ ho).symm.trans
        (Eq.trans heq (hl.numbered index _ _ (call_of_getElem hf)))
    exact hi ▸ Registrations.latest_of_inForce hfo

/-- Two calls whose inserts come in the other order than their generations, and the guard of the
first insert dropped. -/
theorem run_handler_law_crossed :
    ∃ self : Registry Nat, Machine.run Registry.step start
        [.draw "text.echo" 0, .draw "text.echo" 1, .insert 1, .insert 0, .dropGuard 1] =
          some self ∧ self.shared.handler "text.echo" = some 0 := by
  obtain ⟨self, hr⟩ : ∃ self : Registry Nat, Machine.run Registry.step start
      [.draw "text.echo" 0, .draw "text.echo" 1, .insert 1, .insert 0, .dropGuard 1] =
        some self := ⟨_, rfl⟩
  obtain ⟨guard, handler, hc, -, hh⟩ :=
    (run_handler_law hr).2.1 "text.echo" 0 (by rfl)
  cases hr
  cases hc
  exact ⟨_, rfl, hh⟩

end Registry

end MangoProtocol
