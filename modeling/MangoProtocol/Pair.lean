import MangoProtocol.Session.Correlation
import MangoProtocol.Session.Port
import MangoProtocol.Session.Responses

/-! Two sessions joined by a lossless first-in first-out port.  A frame that one side's port took is
held by the other side's receive half; either side's port may also close at any time. -/

namespace MangoProtocol

open ProofKit

variable {H : Type}

inductive Side where
  | left
  | right
  deriving DecidableEq

def Side.other : Side → Side
  | .left => .right
  | .right => .left

theorem Side.eq_or_eq_other (side first : Side) : side = first ∨ side = first.other := by
  cases side <;> cases first <;> simp [other]

theorem Side.other_other (side : Side) : side.other.other = side := by
  cases side <;> rfl

theorem Side.other_ne (side : Side) : side.other ≠ side := by
  cases side <;> simp [other]

/-! ### Pairs -/

/-- The two sessions. -/
abbrev Pair (H : Type) := Side → Session H

namespace Pair

variable {configs : Side → Config} {handlers : Side → List (String × H)}
  {pair next : Pair H} {side : Side} {label : Label H} {labels : List (Side × Label H)}

def initial (handlers : Side → List (String × H)) : Pair H :=
  fun side => .initial (handlers side)

/-- One side takes a step.  Frames come from the other side only. -/
def step (configs : Side → Config) (pair : Pair H) : Side × Label H → Option (Pair H)
  | (_, .port (.arrive (some (.frame _)))) => none
  | (side, label) =>
    ((pair side).step (configs side) label).map fun next =>
      Function.update (Function.update pair side next) side.other
        ((pair side.other).accept ((pair side).delivers (configs side) label))

theorem step_eq_some (h : step configs pair (side, label) = some next) :
    (pair side).step (configs side) label = some (next side) ∧
      next side.other = (pair side.other).accept ((pair side).delivers (configs side) label) ∧
      ∀ frame, label ≠ .port (.arrive (some (.frame frame))) := by
  unfold step at h
  split at h
  · cases h
  · rename_i hl heq
    cases heq
    obtain ⟨stepped, hs, rfl⟩ := Option.map_eq_some_iff.mp h
    refine ⟨?_, Function.update_self .., fun frame hf => hl frame (by rw [hf])⟩
    rw [Function.update_of_ne side.other_ne.symm, Function.update_self]
    exact hs

theorem accept_step (config : Config) (session : Session H) (frame : Option Frame) :
    session.accept frame = session ∨
      ∃ label, session.step config label = some (session.accept frame) := by
  cases frame with
  | none => exact .inl rfl
  | some frame => exact .inr ⟨.port (.arrive (some (.frame frame))), rfl⟩

theorem step_side {first : Side × Label H} (h : step configs pair first = some next) (side : Side) :
    next side = pair side ∨
      ∃ label, (pair side).step (configs side) label = some (next side) := by
  obtain ⟨mover, label⟩ := first
  obtain ⟨hs, ha, -⟩ := step_eq_some h
  rcases side.eq_or_eq_other mover with rfl | rfl
  · exact .inr ⟨label, hs⟩
  · rw [ha]
    exact accept_step _ _ _

theorem run_reachable (hr : Machine.run (step configs) (initial handlers) labels = some pair)
    (side : Side) : (pair side).Reachable (configs side) := by
  refine Machine.run_invariant (fun pair => (pair side).Reachable (configs side)) ?_ ?_ hr
  · intro pair label next hp hs
    rcases step_side hs side with heq | ⟨own, ho⟩
    · rw [heq]
      exact hp
    · exact hp.step ho
  · exact ⟨handlers side, [], rfl⟩

/-! ### What crosses the port -/

section Link

variable {β : Type} {project : Frame → Option β}

/-- What a received item carries. -/
def carried (project : Frame → Option β) (item : Option Inbound) : Option β :=
  (frameOf item).bind project

theorem accept_writer (session : Session H) (frame : Option Frame) :
    (session.accept frame).writer = session.writer := by
  cases frame <;> rfl

theorem accept_carried (session : Session H) (frame : Option Frame) :
    (session.accept frame).inbound.sent.filterMap (carried project) =
      session.inbound.sent.filterMap (carried project) ++ (frame.bind project).toList := by
  cases frame with
  | none => simp [Session.accept]
  | some frame => grind [Session.accept, Channel.sent_send, carried, frameOf]

theorem step_carried {config : Config} {session after : Session H}
    (h : session.step config label = some after)
    (hl : ∀ frame, label ≠ .port (.arrive (some (.frame frame)))) :
    after.inbound.sent.filterMap (carried project) =
      session.inbound.sent.filterMap (carried project) := by
  cases label with
  | api step => rw [(Session.step_samePort h fun _ => nofun).arrived]
  | driver step => rw [(Session.step_samePort h fun _ => nofun).arrived]
  | port step =>
    cases Session.step_move h with
    | transmit => rfl
    | arrive item =>
      have hi : carried project item = none := by
        rcases item with _ | ⟨frame | closure⟩
        · rfl
        · exact absurd rfl (hl frame)
        · rfl
      simp [List.filterMap_append, hi]

theorem run_linked (hh : ∀ hello, project (.hello hello) = none)
    (hr : Machine.run (step configs) (initial handlers) labels = some pair) (side : Side) :
    ((pair side.other).inbound.sent.filterMap (carried project)).Sublist
      ((pair side).writer.received.filterMap project) := by
  refine Machine.run_invariant (fun pair : Pair H =>
    ((pair side.other).inbound.sent.filterMap (carried project)).Sublist
      ((pair side).writer.received.filterMap project)) ?_ ?_ hr
  rotate_left
  · exact List.nil_sublist _
  rintro pair ⟨mover, label⟩ next hp hs
  obtain ⟨hm, ha, hl⟩ := step_eq_some hs
  rcases side.eq_or_eq_other mover with rfl | rfl
  · rw [ha, accept_carried]
    exact (hp.append (List.Sublist.refl _)).trans (Session.delivers_sublist hh hm)
  · rw [Side.other_other] at hp ⊢
    rw [step_carried hm hl, ha, accept_writer]
    exact hp

end Link

theorem run_requests (hr : Machine.run (step configs) (initial handlers) labels = some pair)
    (side : Side) :
    (pair side.other).answerer.requests.Sublist (pair side).caller.requested :=
  ((Channel.received_sublist_sent _).filterMap _).trans
    ((run_linked (fun _ => rfl) hr side).trans
      ((Channel.received_sublist_sent _).filterMap _))

theorem run_answers (hr : Machine.run (step configs) (initial handlers) labels = some pair)
    (side : Side) :
    (pair side).caller.answered.Sublist (pair side.other).answerer.answers := by
  have hl : ((pair side.other.other).inbound.sent.filterMap (carried Frame.answer)).Sublist
      ((pair side.other).writer.received.filterMap Frame.answer) :=
    run_linked (fun _ => rfl) hr side.other
  rw [Side.other_other] at hl
  exact ((Channel.received_sublist_sent _).filterMap _).trans
    (hl.trans ((Channel.received_sublist_sent _).filterMap _))

/-! ### What a call returns -/

def Dispatched (configs : Side → Config) (handlers : Side → List (String × H))
    (labels : List (Side × Label H)) (side : Side) (method : String) (invocation : Invocation H) :
    Prop :=
  ∃ before label after earlier later generation, labels = before ++ label :: after ∧
    Machine.run (step configs) (initial handlers) before = some earlier ∧
    step configs earlier label = some later ∧
    invocation ∉ (earlier side).started ∧ invocation ∈ (later side).started ∧
    (earlier side).shared.handlers.lookup method = some (generation, invocation.handler)

theorem run_dispatched (hru : Machine.run (step configs) (initial handlers) labels = some pair)
    {invocation : Invocation H} (hst : invocation ∈ (pair side).started) :
    Dispatched configs handlers labels side invocation.method invocation := by
  obtain ⟨before, label, after, earlier, later, hla, hb, hs, -, hn, hl⟩ :=
    Machine.run_cause (fun pair : Pair H => invocation ∈ (pair side).started)
      List.not_mem_nil hru hst
  rcases step_side hs side with heq | ⟨own, ho⟩
  · rw [heq] at hl
    exact absurd hl hn
  · have hr := run_reachable hb side
    have ha := hr.accounts_traced.1
    obtain ⟨generation, hre⟩ :=
      (Session.step_answerer hr.legal ha.inStep ho).registered hn hl
    exact ⟨before, label, after, earlier, later, generation, hla, hb, hs, hn, hl,
      hre⟩

theorem request_once (hr : Machine.run (step configs) (initial handlers) labels = some pair)
    (side : Side) (id : String) : (pair side.other).answerer.requestCount id ≤ 1 := by
  obtain ⟨numbered, routed⟩ := (run_reachable hr side).numbered_routed
  exact countP_key_le_one
    ((numbered.requested_nodup routed).sublist ((run_requests hr side).map _)) id

/-- A call that returns a value was answered by one invocation on the other side: of the handler
that was registered for its method when its request was dispatched, with its params, returning that
value.  A call that returns an error of the other side returns what was produced there for its id.
-/
theorem run_call (hrun : Machine.run (step configs) (initial handlers) labels = some pair)
    {index : Nat} {call : Call} {id : String} {result : Except RemoteError Value}
    (hcall : (pair side).calls[index]? = some call)
    (hdone : call.stage = .done (.replied id (.wire result))) :
    (∀ value, result = .ok value → ∃ invocation,
      (pair side.other).started.filter (·.id = id) = [invocation] ∧
      Dispatched configs handlers labels side.other call.method invocation ∧
      invocation.method = call.method ∧ invocation.params = call.params ∧
      (invocation, .returned (.ok value)) ∈ (pair side.other).finished) ∧
    ∀ error, result = .error error →
      (pair side.other).produced.filter (·.1 = id) = [(id, .error error)] := by
  obtain ⟨numbered, routed⟩ := (run_reachable hrun side).numbered_routed
  obtain ⟨accounts, traced⟩ := (run_reachable hrun side.other).accounts_traced
  have hp : (id, result) ∈ (pair side.other).answerer.produced := by
    rw [← traced.answers]
    exact (run_answers hrun side).mem (routed.replied index call id result hcall hdone)
  constructor
  · rintro value rfl
    obtain ⟨invocation, hid, hf⟩ := traced.results id value hp
    have hs := traced.finished _ hf
    have hr : invocation.request = call.request id := by
      refine numbered.sent_request routed hcall (by rw [hdone]; rfl) ?_ hid
      exact (run_requests hrun side).mem (traced.started.mem (List.mem_map_of_mem hs))
    have hm : invocation.method = call.method := congrArg Request.method hr
    refine ⟨invocation, ?_, hm ▸ run_dispatched hrun hs, hm,
      congrArg Request.params hr, hf⟩
    refine filter_eq_singleton hs (decide_eq_true hid) ?_
    have hc := traced.started.countP_le (p := fun request => request.id = id)
    rw [List.countP_map] at hc
    exact hc.trans (request_once hrun side id)
  · rintro error rfl
    refine filter_eq_singleton hp (decide_eq_true rfl) ?_
    have hc := accounts.solvent id
    have ho := request_once hrun side id
    rw [Answerer.answerCount, traced.answers] at hc
    exact (Nat.le_add_right _ _).trans (hc.trans ho)

/-! ### One call -/

def clockLabels : List (Side × Label Unit) :=
  [(.left, .driver (.greet .sent)), (.right, .driver (.greet .sent)),
    (.left, .driver (.inbound (.future 0))), (.right, .driver (.inbound (.future 0))),
    (.left, .api (.startCall "clock.read" (.ofJson .null) ⟨false, none⟩)),
    (.left, .api (.advanceCall 0)), (.left, .api (.advanceCall 0)), (.left, .api (.advanceCall 0)),
    (.left, .api (.advanceCall 0)), (.left, .api (.advanceCall 0)),
    (.left, .driver .command), (.left, .port (.transmit .sent)),
    (.right, .driver (.inbound (.future 0))),
    (.right, .driver (.settled 0 (.returned (.ok (.u64 12))))), (.right, .port (.transmit .sent)),
    (.left, .driver (.inbound (.future 0))), (.left, .api (.takeReply 0))]

def clockHandlers : Side → List (String × Unit)
  | .left => []
  | .right => [("clock.read", ())]

def firstReturned (session : Session Unit) : Bool :=
  match session.calls with
  | [call] =>
    match call.stage with
    | .done (.replied _ (.wire (.ok _))) => true
    | _ => false
  | _ => false

theorem firstReturned_eq_true {session : Session Unit} (h : firstReturned session = true) :
    ∃ call id value, session.calls[0]? = some call ∧
      call.stage = .done (.replied id (.wire (.ok value))) := by
  unfold firstReturned at h
  split at h
  · grind
  · cases h

theorem run_call_clock :
    ∃ (pair : Pair Unit) (call : Call) (id : String) (value : Value) (invocation : Invocation Unit),
      Machine.run (step fun _ => sampleConfig []) (initial clockHandlers) clockLabels = some pair ∧
      (pair .left).calls[0]? = some call ∧
      call.stage = .done (.replied id (.wire (.ok value))) ∧
      (pair .right).started.filter (·.id = id) = [invocation] ∧
      (invocation, .returned (.ok value)) ∈ (pair .right).finished := by
  obtain ⟨pair, hr, hre⟩ : ∃ pair, Machine.run (step fun _ => sampleConfig [])
      (initial clockHandlers) clockLabels = some pair ∧ firstReturned (pair .left) = true :=
    Machine.exists_run (by decide +kernel)
  obtain ⟨call, id, value, hc, hd⟩ := firstReturned_eq_true hre
  obtain ⟨invocation, hs, -, -, -, hf⟩ := (run_call hr hc hd).1 value rfl
  exact ⟨pair, call, id, value, invocation, hr, hc, hd, hs, hf⟩

end Pair

end MangoProtocol
