import MangoProtocol.Session.Calls
import MangoProtocol.ProofKit.Lists

/-! What one step of a session can do.  `ApiMove` and `DriverMove` list the moves of the callers and
of the driver; every step is one of them. -/

namespace MangoProtocol

open ProofKit

variable {H : Type} {config : Config}

/-! ### What frames carry -/

/-- The frame that a received item holds. -/
def frameOf : Option Inbound → Option Frame
  | some (.frame frame) => some frame
  | _ => none

/-- The request that a frame carries. -/
def Frame.request : Frame → Option Request
  | .req request => some request
  | _ => none

def Frame.event : Frame → Option Event
  | .evt event => some event
  | _ => none

def Frame.answer : Frame → Option (String × Except RemoteError Value)
  | .res response => some (response.id, .ok response.result)
  | .err error => some (error.id, .error (Session.errorOf error.error))
  | _ => none

theorem answer_errorFrame (id : String) (error : RemoteError) :
    (errorFrame id error).answer = some (id, .error error) := by
  obtain ⟨code, message, details⟩ := error
  cases details <;> rfl

/-! ### Callers -/

/-- A caller's step keeps everything the driver counts on; it may add a subscriber. -/
structure Shared.SameCounts (before after : Shared H) : Prop where
  state : after.state = before.state
  remote : after.remote = before.remote
  ready : after.ready = before.ready
  requestSequence : after.requestSequence = before.requestSequence
  inFlight : after.inFlight = before.inFlight
  subscribers : after.eventSubscribers = before.eventSubscribers ∨
    after.eventSubscribers = before.eventSubscribers ++ [[]]

def Command.Quiet : Command → Prop
  | .close _ _ | .cancel _ _ | .send (.evt _) | .send .ping => True
  | .request _ _ | .send _ => False

/-- A command that sends no answer. -/
def Command.Legal : Command → Prop
  | .request frame _ => ∃ request, frame = .req request
  | command => command.Quiet

theorem Command.Quiet.legal {command : Command} (h : command.Quiet) : command.Legal := by
  cases command with
  | request => cases h
  | close | cancel | send => exact h

def Posted (before after : Channel Command) : Prop :=
  after = before ∨ ∃ command, command.Quiet ∧ after = before.send command

/-- The stages that may follow the stage of a call, where the step neither numbers the call nor
sends its request. -/
inductive Call.Follows (call : Call) : CallStage → Prop
  | failed (error : RemoteError) : Follows call (.done (.failed error))
  | dropped : Follows call .dropped
  | resumed (remote : RemotePeer) (h : call.stage = .awaitingReady) : Follows call (.resumed remote)
  | checked (remote : RemotePeer) (h : call.stage = .resumed remote) : Follows call .checked
  | fitted (id : String) (h : call.stage = .numbered id) : Follows call (.fitted id)
  | polled (id : String) (cancelSent : Bool) (h : call.stage = .waiting id cancelSent) :
    Follows call (.polled id cancelSent)
  | parked (id : String) (cancelSent sent : Bool) (h : call.stage = .polled id cancelSent) :
    Follows call (.waiting id sent)
  | replied (id : String) (cancelSent : Bool) (reply : Reply)
    (h : call.stage = .waiting id cancelSent) (hreply : call.reply = some reply) :
    Follows call (.done (.replied id reply))

/-- A teardown may have failed the call. -/
def Call.Failed (before after : Call) : Prop :=
  after = before ∨ ∃ error, error.code = codes.unavailable ∧
    after = { before with reply := some (.teardown error) }

theorem Call.Failed.refl (call : Call) : call.Failed call := .inl rfl

theorem Call.Failed.trans {first second third : Call} (h : first.Failed second)
    (h' : second.Failed third) : first.Failed third := by
  rcases h' with rfl | ⟨error, hc, rfl⟩
  · exact h
  · rcases h with rfl | ⟨other, -, rfl⟩ <;> exact .inr ⟨error, hc, rfl⟩

namespace Session

variable {self next : Session H}

/-- The moves of the callers. -/
inductive ApiMove (config : Config) (session : Session H) : Session H → Prop
  | post (shared : Shared H) (commands : Channel Command)
    (hshared : session.shared.SameCounts shared) (hposted : Posted session.commands commands) :
    ApiMove config session { session with shared, commands }
  | start (call : Call) (hreply : call.reply = none)
    (hstage : call.stage = .awaitingReady ∨ ∃ error, call.stage = .done (.failed error)) :
    ApiMove config session { session with calls := session.calls ++ [call] }
  | follow (index : Nat) (call : Call) (stage : CallStage) (commands : Channel Command)
    (hcall : session.calls[index]? = some call) (hstage : call.Follows stage)
    (hposted : Posted session.commands commands) :
    ApiMove config session ({ session with commands }.setStage index stage)
  | number (index : Nat) (call : Call) (hcall : session.calls[index]? = some call)
    (hstage : call.stage = .checked) :
    ApiMove config session (Session.setStage
      { session with shared := { session.shared with
          requestSequence := session.shared.requestSequence + 1 } }
      index (.numbered (session.shared.nextRequestId config)))
  | request (index : Nat) (call : Call) (id : String) (hcall : session.calls[index]? = some call)
    (hstage : call.stage = .fitted id) :
    ApiMove config session (Session.setStage
      { session with
        commands := session.commands.send (.request (.req (call.request id)) index) }
      index (.waiting id false))

theorem command_eq (self : Session H) (command : Command) (hq : command.Quiet) :
    ∃ commands, Posted self.commands commands ∧
      self.command command = { self with commands } := by
  unfold Session.command
  split
  · exact ⟨_, .inr ⟨command, hq, rfl⟩, rfl⟩
  · exact ⟨_, .inl rfl, rfl⟩

theorem ApiMove.posted {index : Nat} {call : Call} {stage : CallStage} {command : Command}
    (hc : self.calls[index]? = some call) (hs : call.Follows stage)
    (hq : command.Quiet) :
    ApiMove config self ((self.command command).setStage index stage) := by
  obtain ⟨commands, hp, heq⟩ := self.command_eq command hq
  rw [heq]
  exact .follow index call stage commands hc hs hp

theorem CallMove.apiMove {index : Nat} {call : Call} (hc : self.calls[index]? = some call)
    (h : CallMove config self index call next) : ApiMove config self next := by
  have quiet {stage : CallStage} (hs : call.Follows stage) :
      ApiMove config self (self.setStage index stage) :=
    .follow index call stage self.commands hc hs (.inl rfl)
  cases h with
  | silent stage h => cases h <;> exact quiet (by grind [Call.Follows])
  | number h => exact .number index call hc h
  | request id h ho =>
    rw [Session.command, if_pos ho]
    exact .request index call id hc h
  | cancel id h => exact .posted hc (.parked id _ true h) trivial
  | timeout => exact .posted hc (.failed _) trivial
  | drop => exact .posted hc .dropped trivial

theorem emitLocked_move (event : EventInput) :
    ApiMove config self (self.emitLocked config event).1 := by
  have unchanged : ApiMove config self self :=
    .post self.shared self.commands ⟨rfl, rfl, rfl, rfl, rfl, .inl rfl⟩ (.inl rfl)
  unfold emitLocked
  split
  · exact unchanged
  · split
    · obtain ⟨commands, hp, heq⟩ :=
        self.command_eq (.send (.evt (event.numbered _))) trivial
      rw [heq]
      exact .post _ commands ⟨rfl, rfl, rfl, rfl, rfl, .inl rfl⟩ hp
    · exact unchanged

theorem apiStep_move {step : ApiStep H} (h : self.apiStep config step = some next) :
    ApiMove config self next := by
  have same {shared : Shared H} : shared.SameCounts shared := ⟨rfl, rfl, rfl, rfl, rfl, .inl rfl⟩
  have shared (shared : Shared H) (hs : self.shared.SameCounts shared) :
      ApiMove config self { self with shared } :=
    .post shared self.commands hs (.inl rfl)
  have posted (command : Command) (hq : command.Quiet) :
      ApiMove config self (self.command command) := by
    obtain ⟨commands, hp, heq⟩ := self.command_eq command hq
    rw [heq]
    exact .post self.shared commands same hp
  cases step with
  | startCall method params options =>
    cases h
    exact .start _ rfl (by grind)
  | advanceCall | takeReply | abandonCall | pollCall | parkCall | cancelCall | timeoutCall
  | dropCall =>
    obtain ⟨call, hc, move⟩ := apiStep_callMove rfl h
    exact move.apiMove hc
  | emit event =>
    cases h
    unfold emit
    split
    · exact shared _ same
    · exact emitLocked_move event
  | emitLocked event =>
    obtain ⟨-, ⟨⟩⟩ := Option.ite_none_right_eq_some.mp h
    exact emitLocked_move event
  | ping =>
    cases h
    exact posted (.send .ping) trivial
  | closeNow code reason =>
    cases h
    exact posted (.close code reason) trivial
  | dropGuard method generation =>
    cases h
    exact shared _ (by constructor <;> grind [Shared.dropGuard])
  | handle | pongs =>
    cases h
    exact shared _ ⟨rfl, rfl, rfl, rfl, rfl, .inl rfl⟩
  | events =>
    cases h
    exact shared _ ⟨rfl, rfl, rfl, rfl, rfl, .inr rfl⟩

/-! ### The driver -/

/-- A task that was joined leaves the set. -/
def joined (self : Session H) (task : TaskId) (invocation : Invocation H) (settled : Settled) :
    Session H :=
  { self with
    tracking := { self.tracking with tasks := self.tracking.tasks.erase task }
    finished := self.finished ++ [(invocation, settled)] }

theorem joinTask_eq_some {task : TaskId} {settled : Settled} :
    self.joinTask task settled = some next ↔
      ∃ invocation, self.tracking.tasks.lookup task = some invocation ∧
        next = self.joined task invocation settled := by
  unfold joinTask joined
  cases self.tracking.tasks.lookup task with
  | none => simp
  | some invocation => simp [eq_comm]

theorem failPending_eq (self : Session H) (reason : Teardown) :
    ∃ calls, Pointwise Call.Failed self.calls calls ∧
      (∀ index : Nat,
        (∀ id request, self.pending.lookup id = some request → request.reply ≠ index) →
        calls[index]? = self.calls[index]?) ∧
      self.failPending reason = { self with calls, pending := ∅ } := by
  suffices h : ∀ (entries : List (Sigma fun _ : String => PendingRequest)) (session : Session H),
      ∃ calls, Pointwise Call.Failed session.calls calls ∧
        (∀ index : Nat, (∀ entry ∈ entries, entry.2.reply ≠ index) →
          calls[index]? = session.calls[index]?) ∧
        entries.foldl (fun session entry => session.sendReply entry.2.reply
          (.teardown (reason.pendingFailure entry.1 entry.2.method))) session =
          { session with calls } by
    obtain ⟨calls, hc, hk, heq⟩ := h self.pending.entries { self with pending := ∅ }
    refine ⟨calls, hc, fun index hi => hk index ?_, heq⟩
    exact fun entry he => hi entry.1 entry.2 (AList.mem_lookup_iff.mpr he)
  intro entries
  induction entries with
  | nil => exact fun session => ⟨session.calls, .refl Call.Failed.refl _, fun _ _ => rfl, rfl⟩
  | cons entry entries ih =>
    intro session
    obtain ⟨calls, hc, hk, heq⟩ := ih (session.sendReply entry.2.reply
      (.teardown (reason.pendingFailure entry.1 entry.2.method)))
    refine ⟨calls, .trans Call.Failed.trans (.modify Call.Failed.refl _ _ ?_) hc, ?_, heq⟩
    · exact fun _ _ => .inr ⟨_, rfl, rfl⟩
    · intro index hi
      rw [hk index fun other ho => hi other (List.mem_cons_of_mem _ ho)]
      exact List.getElem?_modify_ne _ _ (hi entry List.mem_cons_self)

/-- A step of the teardown. -/
inductive TeardownMove (session : Session H) (reason : Teardown) : TeardownStage → Session H → Prop
  | marking : TeardownMove session reason .marking { session with
      shared := { session.shared with state := .closed }
      phase := .closing reason .flushing }
  | flushing :
    TeardownMove session reason .flushing { session with phase := .closing reason .settling }
  | settling : TeardownMove session reason .settling { session with
      shared := session.shared.settleReady (.error reason.readyFailure)
      phase := .closing reason .failing }
  | failing (calls : List Call) (hcalls : Pointwise Call.Failed session.calls calls)
    (hkept : ∀ index : Nat,
      (∀ id request, session.pending.lookup id = some request → request.reply ≠ index) →
        calls[index]? = session.calls[index]?) :
    TeardownMove session reason .failing { session with
      calls
      pending := ∅
      tracking := { session.tracking with active := ∅ }
      shared := { session.shared with
        eventSequences := ∅, eventSubscribers := [], pongSubscribers := [] }
      phase := .closing reason .draining }

theorem advanceTeardown_move {reason : Teardown} {stage : TeardownStage}
    (h : self.advanceTeardown reason stage = some next) : TeardownMove self reason stage next := by
  cases stage with
  | marking | settling =>
    cases h
    constructor
  | flushing =>
    obtain ⟨-, ⟨⟩⟩ := Option.ite_none_right_eq_some.mp h
    exact .flushing
  | failing =>
    obtain ⟨calls, hc, hk, heq⟩ := self.failPending_eq reason
    cases h
    rw [heq]
    exact .failing calls hc hk
  | draining => cases h

/-- The moves of the driver. -/
inductive DriverMove (config : Config) (session : Session H) : DriverStep → Session H → Prop
  | greet (outcome : SendOutcome) (hphase : session.phase = .greeting) :
    DriverMove config session (.greet outcome) (session.greet config outcome)
  | sendFailed (outcome : SendOutcome) (hphase : session.phase = .running)
    (hfailure : session.sendFailure = some outcome) :
    DriverMove config session .sendFailed (session.breakLoop (onSendFailure (some outcome)))
  | handshakeTimeout (hphase : session.phase = .running)
    (hstate : session.shared.state = .handshaking) :
    DriverMove config session .handshakeTimeout (session.onHandshakeTimeout config)
  | livenessTick (hphase : session.phase = .running) (hstate : session.shared.state = .ready) :
    DriverMove config session .livenessTick session.onLivenessTick
  | settled (task : TaskId) (settled : Settled) (invocation : Invocation H)
    (hphase : session.phase = .running)
    (htask : session.tracking.tasks.lookup task = some invocation) :
    DriverMove config session (.settled task settled)
      ((session.joined task invocation settled).onHandlerSettled config task settled)
  | command (command : Command) (commands : Channel Command) (hphase : session.phase = .running)
    (hrecv : session.commands.recv = some (command, commands)) :
    DriverMove config session .command ({ session with commands }.onCommand command)
  | inbound (call : HandlerCall) (item : Option Inbound) (inbound : Channel (Option Inbound))
    (hphase : session.phase = .running) (hfresh : session.freshCall call = true)
    (hrecv : session.inbound.recv = some (item, inbound)) :
    DriverMove config session (.inbound call) ({ session with inbound }.onInbound config item call)
  | teardown (reason : Teardown) (stage : TeardownStage) (next : Session H)
    (hphase : session.phase = .closing reason stage)
    (hnext : session.advanceTeardown reason stage = some next) :
    DriverMove config session .teardown next
  | drain (task : TaskId) (settled : Settled) (invocation : Invocation H) (reason : Teardown)
    (hphase : session.phase = .closing reason .draining)
    (htask : session.tracking.tasks.lookup task = some invocation) :
    DriverMove config session (.drain task settled) (session.joined task invocation settled)
  | finish (reason : Teardown) (hphase : session.phase = .closing reason .draining) :
    DriverMove config session .finish (session.finish reason)

theorem driverStep_running (hp : self.phase = .running) (step : DriverStep) :
    self.driverStep config step = self.loopStep config step := by
  unfold driverStep
  rw [hp]

theorem step_inbound {call : HandlerCall} {item : Option Inbound}
    {inbound : Channel (Option Inbound)} (hp : self.phase = .running)
    (hf : self.freshCall call = true) (hr : self.inbound.recv = some (item, inbound)) :
    self.step config (.driver (.inbound call)) =
      some ({ self with inbound }.onInbound config item call) := by
  rw [Session.step, driverStep_running hp, loopStep, if_pos hf, hr]
  rfl

theorem loopStep_move {step : DriverStep} (hp : self.phase = .running)
    (h : self.loopStep config step = some next) : DriverMove config self step next := by
  cases step with
  | sendFailed =>
    obtain ⟨outcome, hf, rfl⟩ := Option.map_eq_some_iff.mp h
    exact .sendFailed outcome hp hf
  | settled task settled =>
    obtain ⟨joined, hj, rfl⟩ := Option.map_eq_some_iff.mp h
    obtain ⟨invocation, ht, rfl⟩ := joinTask_eq_some.mp hj
    exact .settled task settled invocation hp ht
  | command =>
    obtain ⟨⟨command, commands⟩, hr, rfl⟩ := Option.map_eq_some_iff.mp h
    exact .command command commands hp hr
  | inbound call =>
    obtain ⟨hfr, h⟩ := Option.ite_none_right_eq_some.mp h
    obtain ⟨⟨item, inbound⟩, hr, rfl⟩ := Option.map_eq_some_iff.mp h
    exact .inbound call item inbound hp hfr hr
  | _ =>
    simp only [loopStep] at h
    grind [DriverMove]

theorem driverStep_move {step : DriverStep} (h : self.driverStep config step = some next) :
    DriverMove config self step next := by
  unfold driverStep at h
  split at h
  case h_1 hp =>
    split at h
    · cases h
      exact .greet _ hp
    · cases h
  case h_2 hp => exact loopStep_move hp h
  case h_3 reason stage hp =>
    split at h
    · exact .teardown reason stage next hp h
    · obtain ⟨rfl, h⟩ := Option.ite_none_right_eq_some.mp h
      obtain ⟨invocation, ht, rfl⟩ := joinTask_eq_some.mp h
      exact .drain _ _ invocation reason hp ht
    · obtain ⟨rfl, h⟩ := Option.ite_none_right_eq_some.mp h
      cases h
      exact .finish reason hp
    · cases h
  case h_4 => cases h
  case h_5 => cases h

/-! ### All steps -/

/-- The moves of a session. -/
inductive Move (config : Config) (session : Session H) : Label H → Session H → Prop
  | api (step : ApiStep H) (next : Session H) (move : ApiMove config session next) :
    Move config session (.api step) next
  | arrive (item : Option Inbound) :
    Move config session (.port (.arrive item))
      { session with inbound := session.inbound.send item }
  | transmit (outcome : SendOutcome) (frame : Frame) (writer : Channel Frame)
    (sendFailure : Option SendOutcome) (hrecv : session.writer.recv = some (frame, writer)) :
    Move config session (.port (.transmit outcome)) { session with writer, sendFailure }
  | driver (step : DriverStep) (next : Session H) (move : DriverMove config session step next) :
    Move config session (.driver step) next

theorem step_move {label : Label H} (h : self.step config label = some next) :
    Move config self label next := by
  cases label with
  | api step => exact .api step next (apiStep_move h)
  | driver step => exact .driver step next (driverStep_move h)
  | port step =>
    cases step with
    | arrive item =>
      cases h
      exact .arrive item
    | transmit outcome =>
      simp only [step, portStep, transmit] at h
      split at h
      · cases h
      · cases h
        exact .transmit outcome _ _ _ ‹_›

theorem Reachable.invariant (holds : Session H → Prop)
    (start : ∀ handlers, holds (initial handlers))
    (kept : ∀ session label next, holds session → session.step config label = some next →
      holds next)
    (h : self.Reachable config) : holds self := by
  obtain ⟨handlers, labels, hr⟩ := h
  exact Machine.run_invariant holds kept (start handlers) hr

theorem Reachable.step {label : Label H} (h : self.Reachable config)
    (hs : self.step config label = some next) : next.Reachable config := by
  obtain ⟨handlers, labels, hr⟩ := h
  exact ⟨handlers, labels ++ [label],
    Machine.run_append.mpr ⟨self, hr, Machine.run_cons.mpr ⟨next, hs, rfl⟩⟩⟩

theorem Reachable.run_invariant {final : Session H} {labels : List (Label H)}
    (holds : Session H → Prop)
    (kept : ∀ session label next, session.Reachable config → holds session →
      session.step config label = some next → holds next)
    (h : self.Reachable config) (hse : holds self)
    (hru : Machine.run (Session.step config) self labels = some final) : holds final := by
  refine (Machine.run_invariant (fun session => session.Reachable config ∧ holds session) ?_
    ⟨h, hse⟩ hru).2
  rintro session label next ⟨hr, hh⟩ hs
  exact ⟨hr.step hs, kept session label next hr hh hs⟩

end Session

end MangoProtocol
