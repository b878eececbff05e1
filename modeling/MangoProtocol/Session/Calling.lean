import MangoProtocol.Session.Moves
import MangoProtocol.ProofKit.Tables

/-! A session as the peer that calls.  `Caller` is the part of a session that its own requests
concern: the calls, their commands, the requests that wait for an answer, and the answers that
came.  Every step of a session is a `Caller.Step`. -/

namespace MangoProtocol

open ProofKit ProofKit.Tables

variable {H : Type} {config : Config}

/-- The answer that a received item carries. -/
def answerOf (item : Option Inbound) : Option (String × Except RemoteError Value) :=
  (frameOf item).bind Frame.answer

/-- The id of the request with a number. -/
def requestId (config : Config) (number : Nat) : String :=
  config.requestIdPrefix ++ "-" ++ number.repr

theorem requestId_injective : Function.Injective (requestId config) := by
  intro first second h
  have hr : first.repr = second.repr := (String.append_right_inj _).mp h
  have hd := congrArg (fun text : String => Nat.ofDigitChars 10 text.toList 0) hr
  simpa using hd

structure Caller where
  calls : List Call
  commands : Channel Command
  pending : Table String PendingRequest
  sequence : Nat
  requested : List Request
  answered : List (String × Except RemoteError Value)

/-- The calling part of a session. -/
def Session.caller (self : Session H) : Caller where
  calls := self.calls
  commands := self.commands
  pending := self.pending
  sequence := self.shared.requestSequence
  requested := self.writer.sent.filterMap Frame.request
  answered := self.inbound.received.filterMap answerOf

/-! ### The steps of a caller -/

namespace Caller

/-- Moves a call on. -/
def setStage (self : Caller) (index : Nat) (stage : CallStage) : Caller :=
  { self with calls := self.calls.modify index fun call => { call with stage } }

def reply (self : Caller) (index : Nat) (result : Except RemoteError Value) : Caller :=
  { self with calls := self.calls.modify index fun call =>
      { call with reply := some (.wire result) } }

/-- What a caller can do. -/
inductive Step (config : Config) (self : Caller) : Caller → Prop
  | idle : Step config self self
  | post (commands : Channel Command) (hposted : Posted self.commands commands) :
    Step config self { self with commands }
  | start (call : Call) (hreply : call.reply = none)
    (hstage : call.stage = .awaitingReady ∨ ∃ error, call.stage = .done (.failed error)) :
    Step config self { self with calls := self.calls ++ [call] }
  | follow (index : Nat) (call : Call) (stage : CallStage) (commands : Channel Command)
    (hcall : self.calls[index]? = some call) (hstage : call.Follows stage)
    (hposted : Posted self.commands commands) :
    Step config self ({ self with commands }.setStage index stage)
  | number (index : Nat) (call : Call) (hcall : self.calls[index]? = some call)
    (hstage : call.stage = .checked) :
    Step config self ({ self with sequence := self.sequence + 1 }.setStage index
      (.numbered (requestId config (self.sequence + 1))))
  | request (index : Nat) (call : Call) (id : String) (hcall : self.calls[index]? = some call)
    (hstage : call.stage = .fitted id) :
    Step config self (setStage
      { self with commands := self.commands.send (.request (.req (call.request id)) index) }
      index (.waiting id false))
  | issue (request : Request) (index : Nat) (commands : Channel Command)
    (hrecv : self.commands.recv = some (.request (.req request) index, commands)) :
    Step config self { self with
      commands
      pending := self.pending.insert request.id ⟨request.method, index⟩
      requested := self.requested ++ [request] }
  | take (command : Command) (commands : Channel Command) (pending : Table String PendingRequest)
    (hrecv : self.commands.recv = some (command, commands)) (hquiet : command.Quiet)
    (hpending : ∀ id request, pending.lookup id = some request →
      self.pending.lookup id = some request) :
    Step config self { self with commands, pending }
  | ignore (id : String) (result : Except RemoteError Value) :
    Step config self { self with answered := self.answered ++ [(id, result)] }
  | settle (id : String) (result : Except RemoteError Value) (request : PendingRequest)
    (hpending : self.pending.lookup id = some request) :
    Step config self (reply
      { self with
        pending := self.pending.erase id
        answered := self.answered ++ [(id, result)] }
      request.reply result)
  | fail (calls : List Call) (hcalls : Pointwise Call.Failed self.calls calls) :
    Step config self { self with calls, pending := ∅ }

theorem Step.of_eq {self next : Caller} (h : next = self) : Step config self next := by
  rw [h]
  exact .idle

end Caller

/-! ### Steps of a session that do not concern its calls -/

namespace Session

variable {self : Session H}

theorem caller_control (shared : Shared H) (phase : Phase)
    (hs : shared.requestSequence = self.shared.requestSequence) :
    { self with shared, phase }.caller = self.caller := by
  simp only [caller, hs]

theorem enqueue_caller {frame : Frame} (hf : frame.request = none) :
    (self.enqueue frame).caller = self.caller := by
  simp [caller, enqueue, List.filterMap_append, hf]

theorem greet_caller (outcome : SendOutcome) :
    (self.greet config outcome).caller = self.caller := by
  unfold greet
  dsimp only
  split
  · exact caller_control _ _ (Shared.settleReady_requestSequence _ _)
  · rfl

theorem onLivenessTick_caller : self.onLivenessTick.caller = self.caller := by
  unfold onLivenessTick
  split
  · rfl
  · exact (enqueue_caller rfl : (self.enqueue .ping).caller = self.caller)

theorem onHello_caller (hello : Hello) : (self.onHello config hello).caller = self.caller := by
  unfold onHello
  split
  · rfl
  · split
    · exact caller_control _ _ (Shared.settleReady_requestSequence _ _)
    · exact caller_control _ _ (Shared.settleReady_requestSequence _ _)

theorem respondError_caller (id : String) (error : RemoteError) :
    (self.respondError id error).caller = self.caller :=
  (enqueue_caller rfl : (self.enqueue (errorFrame id error)).caller = self.caller)

theorem respondResult_caller (method id : String) (value : Value) :
    (self.respondResult config method id value).caller = self.caller := by
  unfold respondResult
  dsimp only
  split
  · exact (enqueue_caller rfl : (self.enqueue (.res ⟨id, value⟩)).caller = self.caller)
  · exact respondError_caller id _

theorem onRequest_caller (request : Request) (call : HandlerCall) :
    (self.onRequest config request call).caller = self.caller := by
  unfold onRequest
  split
  · exact respondError_caller _ _
  · cases call <;> rfl

theorem onCancel_caller (id : String) : (self.onCancel id).caller = self.caller := by
  unfold onCancel
  split <;> rfl

theorem onHandlerSettled_caller (task : TaskId) (settled : Settled) :
    (self.onHandlerSettled config task settled).caller = self.caller := by
  unfold onHandlerSettled
  dsimp only
  split
  · rfl
  · split
    · rfl
    · split
      · exact respondResult_caller _ _ _
      · exact respondError_caller _ _

/-! ### Steps of a session that concern its calls -/

variable {inbound : Channel (Option Inbound)} {item : Option Inbound}
  {result : Except RemoteError Value} {call : HandlerCall} {next : Session H} {id : String}

theorem advanceTeardown_caller {reason : Teardown} {stage : TeardownStage}
    (h : self.advanceTeardown reason stage = some next) : self.caller.Step config next.caller := by
  cases advanceTeardown_move h with
  | marking => exact .of_eq (caller_control _ _ rfl)
  | flushing => exact .of_eq rfl
  | settling => exact .of_eq (caller_control _ _ (Shared.settleReady_requestSequence _ _))
  | failing calls hc => exact .fail calls hc

theorem onCommand_caller {command : Command} {commands : Channel Command}
    (hr : self.commands.recv = some (command, commands)) (hl : command.Legal) :
    self.caller.Step config ({ self with commands }.onCommand command).caller := by
  cases command with
  | close code reason => exact .take _ commands self.pending hr trivial fun _ _ h => h
  | request frame reply =>
    obtain ⟨request, rfl⟩ := hl
    have hi : ({ self with commands }.onCommand (.request (.req request) reply)).caller =
        { self.caller with
          commands
          pending := self.pending.insert request.id ⟨request.method, reply⟩
          requested := self.caller.requested ++ [request] } := by
      simp only [caller, onCommand, enqueue, Channel.sent_send, List.filterMap_append]
      rfl
    rw [hi]
    exact .issue request reply commands hr
  | cancel id forget =>
    unfold onCommand
    dsimp only
    rw [enqueue_caller rfl]
    cases forget
    · exact .take _ commands _ hr trivial fun other request h => lookup_of_erase h
    · exact .take _ commands self.pending hr trivial fun _ _ h => h
  | send frame =>
    have hq : (Command.send frame).Quiet := hl
    have hf : frame.request = none := by
      cases frame with
      | req => cases hq
      | _ => rfl
    rw [onCommand, enqueue_caller hf]
    exact .take _ commands self.pending hr hq fun _ _ h => h

theorem received_caller (hr : self.inbound.recv = some (item, inbound))
    (hi : answerOf item = none) : { self with inbound }.caller = self.caller := by
  simp [caller, Channel.recv_received hr, List.filterMap_append, hi]

theorem onResponse_caller (hr : self.inbound.recv = some (item, inbound))
    (hi : answerOf item = some (id, result)) :
    self.caller.Step config ({ self with inbound }.onResponse id result).caller := by
  have hre : { self with inbound }.caller =
      { self.caller with answered := self.caller.answered ++ [(id, result)] } := by
    simp [caller, Channel.recv_received hr, List.filterMap_append, hi]
  unfold onResponse
  split
  · rename_i request hp
    have hs : ({ self with inbound, pending := self.pending.erase id }.sendReply
        request.reply (.wire result)).caller =
        Caller.reply { self.caller with
          pending := self.pending.erase id
          answered := self.caller.answered ++ [(id, result)] } request.reply result := by
      simp [caller, sendReply, Caller.reply, Channel.recv_received hr, List.filterMap_append,
        hi]
    rw [hs]
    exact .settle id result request hp
  · rw [hre]
    exact .ignore id result

theorem onInbound_caller_eq (hr : self.inbound.recv = some (item, inbound))
    (hi : answerOf item = none) :
    ({ self with inbound }.onInbound config item call).caller = self.caller := by
  have same {next : Session H} (hn : next.caller = { self with inbound }.caller) :
      next.caller = self.caller := hn.trans (received_caller hr hi)
  rcases item with _ | ⟨frame | closure⟩
  · exact same rfl
  · cases frame with
    | hello hello => exact same (onHello_caller hello)
    | req request => exact same (onRequest_caller request call)
    | evt event => exact same (caller_control _ _ (Shared.fanOutEvent_requestSequence _ _))
    | cancel cancel => exact same (onCancel_caller cancel.id)
    | ping => exact same (enqueue_caller rfl)
    | close | pong => exact same rfl
    | res | err => cases hi
  · exact same rfl

theorem onInbound_answer (hi : answerOf item = some (id, result)) :
    self.onInbound config item call = self.onResponse id result := by
  rcases item with _ | ⟨frame | closure⟩
  · cases hi
  · cases frame with
    | res | err =>
      cases hi
      rfl
    | _ => cases hi
  · cases hi

theorem onInbound_caller (hr : self.inbound.recv = some (item, inbound)) :
    self.caller.Step config ({ self with inbound }.onInbound config item call).caller := by
  cases hi : answerOf item with
  | none => exact .of_eq (onInbound_caller_eq hr hi)
  | some answer =>
    rw [onInbound_answer hi]
    exact onResponse_caller hr hi

theorem step_caller {label : Label H} (hl : ∀ command ∈ self.commands.sent, command.Legal)
    (h : self.step config label = some next) : self.caller.Step config next.caller := by
  cases step_move h with
  | api step next move =>
    cases move with
    | post shared commands hsh hp =>
      have heq : { self with shared, commands }.caller = { self.caller with commands } := by
        simp only [caller, hsh.requestSequence]
      rw [heq]
      exact .post commands hp
    | start call hre hs => exact .start call hre hs
    | follow index call stage commands hc hs hp =>
      exact .follow index call stage commands hc hs hp
    | number index call hc hs => exact .number index call hc hs
    | request index call id hc hs => exact .request index call id hc hs
  | arrive item => exact .of_eq (by simp [caller])
  | transmit outcome frame writer sendFailure hr =>
    exact .of_eq (by simp [caller, Channel.recv_sent hr])
  | driver step next move =>
    cases move with
    | greet outcome => exact .of_eq (greet_caller outcome)
    | sendFailed => exact .of_eq rfl
    | handshakeTimeout =>
      exact .of_eq (caller_control _ _ (Shared.settleReady_requestSequence _ _))
    | livenessTick => exact .of_eq onLivenessTick_caller
    | settled task settled => exact .of_eq (onHandlerSettled_caller task settled)
    | command command commands _ hr =>
      exact onCommand_caller hr (hl command (Channel.mem_sent_of_recv hr))
    | inbound call item inbound _ _ hr => exact onInbound_caller hr
    | teardown reason stage next _ hn => exact advanceTeardown_caller hn
    | drain => exact .of_eq rfl
    | finish reason => exact .of_eq (caller_control _ _ rfl)

end Session

/-! ### No command sends an answer -/

theorem Posted.legal {before after : Channel Command} (h : Posted before after)
    (hl : ∀ command ∈ before.sent, command.Legal) : ∀ command ∈ after.sent, command.Legal := by
  rcases h with rfl | ⟨command, hq, rfl⟩
  · exact hl
  · intro other ho
    rcases List.mem_append.mp ho with ho | ho
    · exact hl other ho
    · rw [List.mem_singleton.mp ho]
      exact hq.legal

theorem Caller.Step.legal {self next : Caller} (h : self.Step config next)
    (hl : ∀ command ∈ self.commands.sent, command.Legal) :
    ∀ command ∈ next.commands.sent, command.Legal := by
  cases h with
  | post commands hp => exact hp.legal hl
  | follow _ _ _ commands _ _ hp => exact hp.legal hl
  | request index call id =>
    intro other ho
    rcases List.mem_append.mp ho with ho | ho
    · exact hl other ho
    · rw [List.mem_singleton.mp ho]
      exact ⟨_, rfl⟩
  | issue _ _ _ hr | take _ _ _ hr =>
    intro other ho
    exact hl other (Channel.recv_sent hr ▸ ho)
  | idle | start | number | ignore | settle | fail => exact hl

theorem Session.Reachable.legal {self : Session H} (h : self.Reachable config) :
    ∀ command ∈ self.commands.sent, command.Legal :=
  h.invariant (fun session => ∀ command ∈ session.commands.sent, command.Legal)
    (fun _ _ hc => absurd hc List.not_mem_nil)
    fun _ _ _ hl hs => (step_caller hl hs).legal hl

end MangoProtocol
