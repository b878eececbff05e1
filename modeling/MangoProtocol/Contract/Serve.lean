import MangoProtocol.Session.Registry

/-! Serving a contract: its handlers are registered on a session one after another, and the guards
of those already registered are dropped when one of them is refused.  A guard removes the handler
that it stands for and knows nothing of the one that the handler replaced. -/

namespace MangoProtocol

open ProofKit

structure CompiledMethod (V : Type) where
  name : String
  params : V
  result : V
  capabilities : List String

/-- A contract.  `catalogValue` is what `serde_json::to_value` makes of its catalog. -/
structure Contract (V : Type) where
  name : String
  methods : List (CompiledMethod V)
  catalogValue : Except String Value

def Contract.method {V : Type} (self : Contract V) (name : String) : Option (CompiledMethod V) :=
  self.methods.find? fun method => method.name == name

/-- What a request to a method needs beyond the wire value. -/
structure MethodPolicy (V G : Type) where
  paramsValidator : V
  resultValidator : V
  capabilities : List String
  guard : Option G
  validateResults : Bool

structure ServeOptions (G : Type) where
  guard : Option G := none
  validateResults : Bool := false
  discover : Bool := true

/-- The handlers that serving a contract registers. -/
inductive ServedHandler (V G E : Type) where
  | discover (catalog : Value)
  | method (name : String) (erased : E) (policy : MethodPolicy V G)

section Serve

variable {V G E H : Type} (wrap : ServedHandler V G E → H)

def Shared.dropGuards (self : Shared H) (guards : List HandlerGuard) : Shared H :=
  guards.foldl (fun shared guard => shared.dropGuard guard.method guard.generation) self

def undeclaredMethod (contract : Contract V) (method : String) : ValidationError :=
  ⟨"handlers", method, "a method declared by contract \"" ++ contract.name ++ "\""⟩

def unserialisableCatalog (error : String) : ValidationError :=
  ⟨"catalog", error, "a catalog that serialises to JSON"⟩

def methodPolicy (options : ServeOptions G) (compiled : CompiledMethod V) : MethodPolicy V G :=
  ⟨compiled.params, compiled.result, compiled.capabilities, options.guard,
    options.validateResults⟩

/-- The loop of `serve` over its handlers, with the guards so far.  They are dropped where it
returns an error. -/
def serveHandlers (contract : Contract V) (options : ServeOptions G) (shared : Shared H)
    (guards : List HandlerGuard) :
    List (String × E) → Shared H × Except ValidationError (List HandlerGuard)
  | [] => (shared, .ok guards)
  | (method, erased) :: handlers =>
    match contract.method method with
    | none => (shared.dropGuards guards, .error (undeclaredMethod contract method))
    | some compiled =>
      let (shared, guard) :=
        shared.handle method (wrap (.method method erased (methodPolicy options compiled)))
      serveHandlers contract options shared (guards ++ [guard]) handlers

def Contract.serve (self : Contract V) (shared : Shared H) (handlers : List (String × E))
    (options : ServeOptions G) : Shared H × Except ValidationError (List HandlerGuard) :=
  if options.discover then
    match self.catalogValue with
    | .error error => (shared, .error (unserialisableCatalog error))
    | .ok catalog =>
      let (shared, guard) := shared.handle rpcDiscover (wrap (.discover catalog))
      serveHandlers wrap self options shared [guard] handlers
  else serveHandlers wrap self options shared [] handlers

/-! ### What a refusal leaves -/

theorem Shared.lookup_dropGuards (self : Shared H) (guards : List HandlerGuard) (method : String) :
    (self.dropGuards guards).handlers.lookup method =
      (self.handlers.lookup method).filter fun entry => ⟨method, entry.1⟩ ∉ guards := by
  induction guards generalizing self with
  | nil =>
    cases he : self.handlers.lookup method with
    | none => simp [Shared.dropGuards, he]
    | some entry => simp [Shared.dropGuards, he, Option.filter]
  | cons guard guards ih =>
    simp_all [Shared.dropGuards, List.foldl_cons, Shared.lookup_dropGuard, Option.filter_filter,
      List.mem_cons]

/-- The registry while a contract is served: the guards stand for the handlers in force under their
methods, and the rest of it is as it was. -/
structure Serving (before shared : Shared H) (guards : List HandlerGuard) : Prop where
  kept : ∀ method, (∀ guard ∈ guards, guard.method ≠ method) →
    shared.handlers.lookup method = before.handlers.lookup method
  held : ∀ guard ∈ guards, ∃ entry, shared.handlers.lookup guard.method = some entry ∧
    ⟨guard.method, entry.1⟩ ∈ guards

theorem Serving.start (shared : Shared H) : Serving shared shared [] :=
  ⟨fun _ _ => rfl, fun _ h => absurd h List.not_mem_nil⟩

variable {guards : List HandlerGuard} {handlers : List (String × E)}
  {shared before after : Shared H} {error : ValidationError} {options : ServeOptions G}
  {contract : Contract V}

theorem Serving.handle (h : Serving before shared guards) (method : String) (handler : H) :
    Serving before (shared.handle method handler).1
      (guards ++ [(shared.handle method handler).2]) where
  kept other ho := by
    have hne : other ≠ method := by
      rintro rfl
      exact ho ⟨other, shared.nextGeneration⟩ (by simp [Shared.handle]) rfl
    rw [← h.kept other fun guard hg => ho guard (List.mem_append_left _ hg)]
    change (shared.handlers.insert method (shared.nextGeneration, handler)).lookup other = _
    rw [Tables.lookup_insert_eq, if_neg hne]
  held guard hg := by
    change ∃ entry, (shared.handlers.insert method (shared.nextGeneration, handler)).lookup
      guard.method = some entry ∧ _
    rw [Tables.lookup_insert_eq]
    split
    · rename_i hm
      exact ⟨_, rfl, List.mem_append_right _ (by simp [Shared.handle, hm])⟩
    · rename_i hm
      rcases List.mem_append.mp hg with hold | hn
      · obtain ⟨entry, he, hme⟩ := h.held guard hold
        exact ⟨entry, he, List.mem_append_left _ hme⟩
      · rw [List.mem_singleton.mp hn] at hm
        exact absurd rfl hm

theorem Serving.undone (h : Serving before shared guards) (method : String) :
    (shared.dropGuards guards).handlers.lookup method =
      if method ∈ guards.map HandlerGuard.method then none
      else before.handlers.lookup method := by
  rw [Shared.lookup_dropGuards]
  split
  · rename_i hm
    obtain ⟨guard, hg, rfl⟩ := List.mem_map.mp hm
    obtain ⟨entry, he, hi⟩ := h.held guard hg
    rw [he]
    simp [hi]
  · rename_i hn
    have ho : ∀ guard ∈ guards, guard.method ≠ method := fun guard hg heq =>
      hn (List.mem_map.mpr ⟨guard, hg, heq⟩)
    rw [h.kept method ho]
    cases he : before.handlers.lookup method with
    | none => rfl
    | some entry => grind

def Contract.declaredFront (self : Contract V) (handlers : List (String × E)) : List String :=
  (handlers.map Prod.fst).takeWhile fun method => (self.method method).isSome

def Contract.attempted (self : Contract V) (handlers : List (String × E))
    (options : ServeOptions G) : List String :=
  if options.discover then
    match self.catalogValue with
    | .error _ => []
    | .ok _ => rpcDiscover :: self.declaredFront handlers
  else self.declaredFront handlers

theorem serveHandlers_error (h : Serving before shared guards)
    (hs : serveHandlers wrap contract options shared guards handlers = (after, .error error))
    (method : String) :
    after.handlers.lookup method =
      if method ∈ guards.map HandlerGuard.method ++ contract.declaredFront handlers then none
      else before.handlers.lookup method := by
  induction handlers generalizing shared guards with
  | nil => cases hs
  | cons entry handlers ih =>
    obtain ⟨name, erased⟩ := entry
    rw [serveHandlers] at hs
    cases hc : contract.method name with
    | none =>
      rw [hc] at hs
      cases hs
      have hf : contract.declaredFront ((name, erased) :: handlers) = [] := by
        simp [Contract.declaredFront, hc]
      rw [hf, List.append_nil]
      exact h.undone method
    | some compiled =>
      rw [hc] at hs
      have hf : contract.declaredFront ((name, erased) :: handlers) =
          name :: contract.declaredFront handlers := by
        simp [Contract.declaredFront, hc]
      rw [ih (h.handle name _) hs, hf, List.map_append, List.append_assoc]
      rfl

theorem Contract.serve_error
    (h : contract.serve wrap shared handlers options = (after, .error error)) (method : String) :
    after.handlers.lookup method =
      if method ∈ contract.attempted handlers options then none
      else shared.handlers.lookup method := by
  unfold Contract.serve at h
  unfold Contract.attempted
  by_cases hd : options.discover = true
  · rw [if_pos hd] at h ⊢
    cases hc : contract.catalogValue with
    | error refusal =>
      rw [hc] at h
      cases h
      rfl
    | ok catalog =>
      rw [hc] at h
      exact serveHandlers_error wrap ((Serving.start shared).handle rpcDiscover _) h method
  · rw [if_neg hd] at h ⊢
    exact serveHandlers_error wrap (Serving.start shared) h method

/-- A refusal leaves no trace in the registry if and only if none of the methods that were
registered before it had a handler. -/
theorem Contract.serve_traceless_iff {contract : Contract V} {options : ServeOptions G}
    {shared after : Shared H} {handlers : List (String × E)} {error : ValidationError}
    (h : contract.serve wrap shared handlers options = (after, .error error)) :
    (∀ method, after.handler method = shared.handler method) ↔
      ∀ method ∈ contract.attempted handlers options, shared.handler method = none := by
  have ha : ∀ method, after.handler method =
      if method ∈ contract.attempted handlers options then none else shared.handler method := by
    intro method
    rw [Shared.handler, Contract.serve_error wrap h method]
    split <;> rfl
  constructor
  · intro hs method hm
    rw [← hs method, ha method, if_pos hm]
  · intro hn method
    rw [ha method]
    split
    · rename_i hm
      exact (hn method hm).symm
    · rfl

end Serve

/-! ### Two registries -/

/-- A contract that declares one method. -/
def echoContract : Contract Unit := ⟨"example", [⟨"text.echo", (), (), []⟩], .ok (.ofJson .null)⟩

def mixedHandlers : List (String × Unit) := [("text.echo", ()), ("text.reverse", ())]

/-- Handlers are told apart by a number; what a contract registers is 0. -/
def serveEcho (shared : Shared Nat) : Shared Nat × Except ValidationError (List HandlerGuard) :=
  echoContract.serve (fun _ : ServedHandler Unit Unit Unit => 0) shared mixedHandlers {}

theorem Contract.serve_traceless_iff_fresh :
    (∀ method, (serveEcho (Shared.initial [])).1.handler method =
        (Shared.initial ([] : List (String × Nat))).handler method) ↔
      ∀ method ∈ echoContract.attempted mixedHandlers ({} : ServeOptions Unit),
        (Shared.initial ([] : List (String × Nat))).handler method = none := by
  have hr : serveEcho (Shared.initial []) = ((serveEcho (Shared.initial [])).1,
      .error (undeclaredMethod echoContract "text.reverse")) := by rfl
  exact Contract.serve_traceless_iff _ hr

/-- A session that answers `text.echo` no longer does after the refusal. -/
theorem serve_drops_handler :
    (serveEcho (Shared.initial [("text.echo", 7)])).2 =
        .error (undeclaredMethod echoContract "text.reverse") ∧
      (Shared.initial [("text.echo", 7)]).handler "text.echo" = some 7 ∧
      (serveEcho (Shared.initial [("text.echo", 7)])).1.handler "text.echo" = none := by
  decide +kernel

end MangoProtocol
