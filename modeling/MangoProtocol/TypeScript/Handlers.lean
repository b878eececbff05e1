import MangoProtocol.Session.Registry
import MangoProtocol.TypeScript.JsString

/-! The handlers of a TypeScript session.  A remover compares the function in force with the one it
was made for, not the registration, so it also removes a later registration of the same function. -/

namespace MangoProtocol.TypeScript

open ProofKit
open ProofKit.Registrations (Act latest inForce)

/-- The handlers in force, and the calls of `handle` in order.  A call is what its remover closes
over; functions are compared by identity. -/
structure Handlers (F : Type) where
  handlers : Table JsString F
  registrations : List (JsString × F)

/-- A call of `handle`, or of the remover that the call at an index returned. -/
inductive HandlersLabel (F : Type) where
  | handle (method : JsString) (handler : F)
  | remove (index : Nat)

namespace Handlers

variable {F : Type} [DecidableEq F]

def start : Handlers F := ⟨∅, []⟩

def handle (self : Handlers F) (method : JsString) (handler : F) : Handlers F :=
  ⟨self.handlers.insert method handler, self.registrations ++ [(method, handler)]⟩

/-- The function that `handle` returns. -/
def remove (self : Handlers F) (method : JsString) (handler : F) : Handlers F :=
  if self.handlers.lookup method = some handler then
    { self with handlers := self.handlers.erase method }
  else self

def step (self : Handlers F) : HandlersLabel F → Option (Handlers F)
  | .handle method handler => some (self.handle method handler)
  | .remove index => self.registrations[index]?.map fun call => self.remove call.1 call.2

def acted (self : Handlers F) : HandlersLabel F → Option (Act JsString Nat)
  | .handle method _ => some (.put method self.registrations.length)
  | .remove index => some (.release index)

/-- The registrations and the calls of removers of a run, in order. -/
def history (labels : List (HandlersLabel F)) : List (Act JsString Nat) :=
  Machine.outputs step acted start labels

def Lawful (self : Handlers F) (history : List (Act JsString Nat)) : Prop :=
  ∀ method, self.handlers.lookup method =
    (inForce history method).bind fun index => (self.registrations[index]?).map Prod.snd

/-- A remover that finds its function in force belongs to the last registration of its method. -/
def OwnRemoval (self : Handlers F) : HandlersLabel F → Prop
  | .handle _ _ => True
  | .remove index => ∀ call ∈ self.registrations[index]?,
      self.handlers.lookup call.1 = some call.2 →
        call.1 ∉ (self.registrations.drop (index + 1)).map Prod.fst

/-! ### The registrations of a run -/

/-- What holds of the calls in every run. -/
structure Recorded (handlers : Handlers F) (history : List (Act JsString Nat)) : Prop where
  placed : ∀ method index, latest history method = some index →
    ∃ handler, handlers.registrations[index]? = some (method, handler) ∧
      method ∉ (handlers.registrations.drop (index + 1)).map Prod.fst
  released : ∀ index, .release index ∈ history → index < handlers.registrations.length

variable {self next : Handlers F} {made : List (Act JsString Nat)} {label : HandlersLabel F}

@[simp] theorem remove_registrations (self : Handlers F) (method : JsString) (handler : F) :
    (self.remove method handler).registrations = self.registrations := by
  unfold remove
  split <;> rfl

theorem Recorded.step (h : self.Recorded made) (hn : self.step label = some next) :
    next.Recorded (made ++ (self.acted label).toList) := by
  cases label with
  | handle method handler =>
    cases hn
    change Recorded _ (made ++ [.put method self.registrations.length])
    constructor
    case placed =>
      intro other index hl
      rw [Registrations.latest_put] at hl
      split at hl
      · rename_i hm
        cases hl
        exact ⟨handler, by simp [handle, hm], by simp [handle]⟩
      · rename_i hm
        obtain ⟨found, hf, hla⟩ := h.placed other index hl
        obtain ⟨hlt, -⟩ := List.getElem?_eq_some_iff.mp hf
        refine ⟨found, (List.getElem?_append_left hlt).trans hf, ?_⟩
        rw [handle, List.drop_append_of_le_length hlt, List.map_append, List.mem_append]
        rintro (hb | hne)
        · exact hla hb
        · exact hm (List.mem_singleton.mp hne)
    case released =>
      intro index hi
      have hold := h.released index (by simpa using hi)
      rw [handle, List.length_append]
      omega
  | remove index =>
    obtain ⟨call, hc, rfl⟩ := Option.map_eq_some_iff.mp hn
    obtain ⟨hlt, -⟩ := List.getElem?_eq_some_iff.mp hc
    change Recorded _ (made ++ [.release index])
    constructor
    case placed =>
      intro method found hl
      rw [remove_registrations]
      rw [Registrations.latest_release] at hl
      exact h.placed method found hl
    case released =>
      intro other ho
      rw [remove_registrations]
      rcases List.mem_append.mp ho with hb | hla
      · exact h.released other hb
      · cases List.mem_singleton.mp hla
        exact hlt

omit [DecidableEq F] in
theorem Recorded.start : (start : Handlers F).Recorded [] where
  placed _ _ hl := by cases hl
  released _ hr := by cases hr

theorem run_recorded {labels : List (HandlersLabel F)}
    (h : Machine.run Handlers.step start labels = some self) : self.Recorded (history labels) :=
  have every : Machine.Every Handlers.step (fun _ _ => True) start labels :=
    Machine.Every.of_forall fun _ _ => trivial
  every.run_outputs Recorded (fun _ _ _ _ hr _ hn => hr.step hn)
    Recorded.start h

/-! ### The law of the handlers -/

omit [DecidableEq F] in
theorem Lawful.handle (h : self.Lawful made) (hr : self.Recorded made) (method : JsString)
    (handler : F) :
    (self.handle method handler).Lawful (made ++ [.put method self.registrations.length]) := by
  have hn : .release self.registrations.length ∉ made := by
    intro hre
    exact Nat.lt_irrefl _ (hr.released _ hre)
  intro other
  rw [Handlers.handle, Tables.lookup_insert_eq, Registrations.inForce_put hn]
  split
  · simp
  · rw [h other]
    cases hf : inForce made other with
    | none => rfl
    | some index =>
      obtain ⟨found, hfo, -⟩ :=
        hr.placed other index (Registrations.latest_of_inForce hf)
      obtain ⟨hlt, -⟩ := List.getElem?_eq_some_iff.mp hfo
      rw [Option.bind_some, Option.bind_some, List.getElem?_append_left hlt]

variable {method : JsString} {call : JsString × F} {index : Nat} {handler : F}

omit [DecidableEq F] in
theorem Lawful.inForce_eq (h : self.Lawful made) (hr : self.Recorded made)
    (hh : self.handlers.lookup method = some handler) :
    ∃ index, inForce made method = some index ∧
      self.registrations[index]? = some (method, handler) := by
  rw [h method] at hh
  obtain ⟨index, hf, hc⟩ := Option.bind_eq_some_iff.mp hh
  obtain ⟨found, hfo, -⟩ :=
    hr.placed method index (Registrations.latest_of_inForce hf)
  rw [hfo] at hc
  cases hc
  exact ⟨index, hf, hfo⟩

omit [DecidableEq F] in
theorem le_of_last {registrations : List (JsString × F)} {i j : Nat}
    (hj : registrations[j]? = some (method, handler))
    (hl : method ∉ (registrations.drop (i + 1)).map Prod.fst) : j ≤ i := by
  by_contra hlt
  refine hl (List.mem_map.mpr ⟨(method, handler), ?_, rfl⟩)
  refine List.mem_of_getElem? (i := j - (i + 1)) ?_
  rw [List.getElem?_drop, Nat.add_sub_cancel' (by omega), hj]

omit [DecidableEq F] in
theorem inForce_release_other (hr : self.Recorded made)
    (hc : self.registrations[index]? = some call) (hne : method ≠ call.1) :
    inForce (made ++ [.release index]) method = inForce made method := by
  refine Registrations.inForce_release_replaced fun hl => hne ?_
  obtain ⟨handler, hf, -⟩ := hr.placed method index hl
  rw [hc] at hf
  cases hf
  rfl

theorem Lawful.remove_iff (h : self.Lawful made) (hr : self.Recorded made)
    (hc : self.registrations[index]? = some call) :
    (self.remove call.1 call.2).Lawful (made ++ [.release index]) ↔
      (self.handlers.lookup call.1 = some call.2 →
        call.1 ∉ (self.registrations.drop (index + 1)).map Prod.fst) := by
  obtain ⟨method, handler⟩ := call
  by_cases hfu : self.handlers.lookup method = some handler
  · obtain ⟨found, hfo, hf⟩ := h.inForce_eq hr hfu
    obtain ⟨-, -, hl⟩ := hr.placed method found (Registrations.latest_of_inForce hfo)
    have hre : self.remove method handler =
        { self with handlers := self.handlers.erase method } := if_pos hfu
    constructor
    · intro hla _
      have hi : found = index := by
        by_contra hne
        have hg := hla method
        rw [hre, Registrations.inForce_release, hfo] at hg
        simp [Option.filter, hne, hf] at hg
      exact hi ▸ hl
    · intro how other
      have hi : found = index :=
        Nat.le_antisymm (le_of_last hf (how hfu)) (le_of_last hc hl)
      rw [hre, Tables.lookup_erase_eq]
      split
      · grind [Registrations.inForce_release, Option.filter]
      · rename_i ho
        rw [inForce_release_other hr hc ho]
        exact h other
  · refine iff_of_true ?_ fun hf => absurd hf hfu
    have hre : self.remove method handler = self := if_neg hfu
    intro other
    rw [hre, Registrations.inForce_release, h other]
    cases hfo : inForce made other with
    | none => rfl
    | some found =>
      obtain ⟨function, hf, -⟩ :=
        hr.placed other found (Registrations.latest_of_inForce hfo)
      have hne : found ≠ index := by
        rintro rfl
        cases hc.symm.trans hf
        refine hfu ?_
        rw [h, hfo, Option.bind_some, hf]
        rfl
      simp [Option.filter, hne]

omit [DecidableEq F] in
theorem Lawful.start : (start : Handlers F).Lawful [] := fun _ => rfl

theorem Lawful.step_iff (h : self.Lawful made) (hr : self.Recorded made)
    (hn : self.step label = some next) :
    next.Lawful (made ++ (self.acted label).toList) ↔ self.OwnRemoval label := by
  cases label with
  | handle method handler =>
    cases hn
    exact iff_of_true (h.handle hr method handler) trivial
  | remove index =>
    obtain ⟨call, hc, rfl⟩ := Option.map_eq_some_iff.mp hn
    refine (h.remove_iff hr hc).trans ?_
    rw [OwnRemoval, hc]
    simp

/-- At every moment of a run the handler of a method is that of its last registration, unless the
remover of this registration was called, if and only if no remover finds the function of a later
registration in force. -/
theorem run_lawful_iff {labels : List (HandlersLabel F)}
    (h : Machine.run Handlers.step start labels = some self) :
    (∀ front rest state, labels = front ++ rest →
      Machine.run Handlers.step start front = some state → state.Lawful (history front)) ↔
        Machine.Every Handlers.step OwnRemoval start labels := by
  constructor
  · intro hla
    refine Machine.Every.of_runs fun front label rest state hl hf => ?_
    rw [hl] at h
    obtain ⟨_, hf', hr⟩ := Machine.run_append.mp h
    cases hf.symm.trans hf'
    obtain ⟨next, hn, -⟩ := Machine.run_cons.mp hr
    have ho : Machine.run Handlers.step state [label] = some next :=
      Machine.run_cons.mpr ⟨next, hn, rfl⟩
    have ha := hla (front ++ [label]) rest next (by rw [hl]; simp)
      (Machine.run_append.mpr ⟨state, hf, ho⟩)
    have hh : history (front ++ [label]) =
        history front ++ (state.acted label).toList := by
      rw [history, Machine.outputs_append hf, Machine.outputs_cons hn]
      simp [history, Machine.outputs]
    rw [hh] at ha
    have hb := hla front (label :: rest) state hl hf
    exact (hb.step_iff (run_recorded hf) hn).mp ha
  · rintro every front rest state rfl hf
    have hbo : state.Lawful (history front) ∧ state.Recorded (history front) :=
      every.append_left.run_outputs (fun state made => state.Lawful made ∧ state.Recorded made)
        (fun _ _ _ _ hs how hn =>
          ⟨(hs.1.step_iff hs.2 hn).mpr how, hs.2.step hn⟩)
        ⟨Lawful.start, Recorded.start⟩ hf
    exact hbo.1

def textEcho : JsString := js "text.echo"

/-- The remover of a registration that another function has replaced is called. -/
def replacedRun : List (HandlersLabel Nat) :=
  [.handle textEcho 0, .handle textEcho 1, .remove 0]

theorem run_lawful_iff_replaced :
    ∃ self, Machine.run Handlers.step start replacedRun = some self ∧
      self.Lawful (history replacedRun) := by
  obtain ⟨self, hr⟩ : ∃ self, Machine.run Handlers.step start replacedRun = some self :=
    ⟨_, rfl⟩
  refine ⟨self, hr, (run_lawful_iff hr).mpr ?_ _ [] self (List.append_nil _).symm hr⟩
  refine ⟨trivial, trivial, fun call hc hf => ?_, trivial⟩
  cases hc
  exact absurd hf (by decide +kernel)

/-- The remover of the first of two registrations of one function is called. -/
def sharedRun : List (HandlersLabel Nat) :=
  [.handle textEcho 0, .handle textEcho 0, .remove 0]

/-- It removes the second, whose own remover was not called. -/
theorem shared_function_removed :
    ∃ self, Machine.run Handlers.step start sharedRun = some self ∧
      latest (history sharedRun) textEcho = some 1 ∧ .release 1 ∉ history sharedRun ∧
      self.handlers.lookup textEcho = none := by
  exact ⟨_, rfl, by decide +kernel, by decide +kernel, by decide +kernel⟩

end Handlers

end MangoProtocol.TypeScript
