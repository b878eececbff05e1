import MangoProtocol.Session.Answering
import MangoProtocol.Session.Correlation
import MangoProtocol.Session.Effects

/-! What a step does to the requests of a session: to the calls, to the orders that they give the
driver, and to the map of the requests that wait for an answer.  `Requests` is that part of a
session, and every step of a session that was reached is a `Requests.Step`. -/

namespace MangoProtocol

open ProofKit ProofKit.Tables

variable {H : Type} {config : Config}

/-- What a call orders of the driver. -/
inductive Order where
  | issue (request : Request) (index : Nat)
  | cancel (id : String) (forget : Bool)

def Command.order : Command → Option Order
  | .request (.req body) index => some (.issue body index)
  | .cancel id forget => some (.cancel id forget)
  | _ => none

/-- The frame that an order puts on the wire. -/
def Order.frame : Order → Frame
  | .issue request _ => .req request
  | .cancel id _ => .cancel ⟨id⟩

def Frame.ordered : Frame → Bool
  | .req _ | .cancel _ => true
  | _ => false

theorem Frame.Served.ordered {frame : Frame} (h : frame.Served) : frame.ordered = false := by
  cases frame with
  | req | cancel => cases h
  | _ => rfl

/-- The orders that a list of commands holds. -/
def ordersOf (commands : List Command) : List Order := commands.filterMap Command.order

theorem ordersOf_append (first second : List Command) :
    ordersOf (first ++ second) = ordersOf first ++ ordersOf second :=
  List.filterMap_append

theorem mem_ordersOf_issue {commands : List Command} {request : Request} {index : Nat} :
    .issue request index ∈ ordersOf commands ↔
      (request, index) ∈ commands.filterMap Command.posting := by
  simp only [ordersOf, List.mem_filterMap]
  refine exists_congr fun command => and_congr_right fun _ => ?_
  cases command with
  | request frame reply => cases frame <;> simp [Command.order, Command.posting]
  | close | cancel | send => simp [Command.order, Command.posting]

structure Requests where
  calls : List Call
  pending : Table String PendingRequest
  orders : List Order
  taken : List Order
  written : List Frame
  answered : List (String × Except RemoteError Value)
  isOpen : Bool
  serving : Bool

/-- The requesting part of a session. -/
def Session.requests (self : Session H) : Requests where
  calls := self.calls
  pending := self.pending
  orders := ordersOf self.commands.sent
  taken := ordersOf self.commands.received
  written := self.writer.sent.filter Frame.ordered
  answered := self.inbound.received.filterMap answerOf
  isOpen := self.commandsOpen
  serving := self.phase.serving

/-! ### The steps -/

/-- The stages that a call moves on to by itself. -/
inductive Call.Moves (isOpen : Bool) (call : Call) : CallStage → Prop
  | refused (error : RemoteError) (h : call.stage.unsent = true) :
    Moves isOpen call (.done (.failed error))
  | advanced (stage : CallStage) (h : call.stage.unsent = true) (hstage : stage.unsent = true) :
    Moves isOpen call stage
  | dropped (h : call.stage.unsent = true) : Moves isOpen call .dropped
  | replied (id : String) (cancelSent : Bool) (reply : Reply)
    (h : call.stage = .waiting id cancelSent) (hreply : call.reply = some reply) :
    Moves isOpen call (.done (.replied id reply))
  | abandoned (id : String) (cancelSent : Bool) (error : RemoteError)
    (h : call.stage = .waiting id cancelSent) (hreply : call.reply = none)
    (hclosed : isOpen = false) (hcode : error.code = codes.unavailable) :
    Moves isOpen call (.done (.failed error))
  | polled (id : String) (cancelSent : Bool) (h : call.stage = .waiting id cancelSent)
    (hreply : call.reply = none) : Moves isOpen call (.polled id cancelSent)
  | parked (id : String) (cancelSent : Bool) (h : call.stage = .polled id cancelSent) :
    Moves isOpen call (.waiting id cancelSent)

/-- How a call gives its request up. -/
inductive Call.Leaves (call : Call) (id : String) : CallStage → Prop
  | timeout (cancelSent : Bool) (timeout : Nat) (h : call.stage = .polled id cancelSent)
    (htimeout : call.options.timeout = some timeout) :
    Leaves call id (.done (.failed (timeoutError call.method timeout)))
  | dropped (cancelSent : Bool) (h : call.stage = .waiting id cancelSent) : Leaves call id .dropped

namespace Requests

/-- Moves a call on. -/
def setStage (self : Requests) (index : Nat) (stage : CallStage) : Requests :=
  { self with calls := self.calls.modify index fun call => { call with stage } }

/-- Gives the driver an order, which is lost once the driver is gone. -/
def order (self : Requests) (order : Order) : Requests :=
  { self with orders := self.orders ++ if self.isOpen then [order] else [] }

def take (self : Requests) (order : Order) : Requests :=
  { self with taken := self.taken ++ [order], written := self.written ++ [order.frame] }

/-- What a step may do to the requests. -/
inductive Step (self : Requests) : Requests → Prop
  | idle (isOpen serving : Bool) (hopen : isOpen = true → self.isOpen = true)
    (hserving : serving = true → self.serving = true) : Step self { self with isOpen, serving }
  | start (call : Call) (hreply : call.reply = none)
    (hstage : call.stage = .awaitingReady ∨ ∃ error, call.stage = .done (.failed error)) :
    Step self { self with calls := self.calls ++ [call] }
  | move (index : Nat) (call : Call) (stage : CallStage) (hcall : self.calls[index]? = some call)
    (hstage : call.Moves self.isOpen stage) : Step self (self.setStage index stage)
  | request (index : Nat) (call : Call) (id : String) (hcall : self.calls[index]? = some call)
    (hstage : call.stage = .fitted id) (hopen : self.isOpen = true) :
    Step self ((self.order (.issue (call.request id) index)).setStage index (.waiting id false))
  | cancel (index : Nat) (call : Call) (id : String) (hcall : self.calls[index]? = some call)
    (hstage : call.stage = .polled id false) :
    Step self ((self.order (.cancel id true)).setStage index (.waiting id true))
  | leave (index : Nat) (call : Call) (id : String) (stage : CallStage)
    (hcall : self.calls[index]? = some call) (hstage : call.Leaves id stage) :
    Step self ((self.order (.cancel id false)).setStage index stage)
  | issue (request : Request) (index : Nat) (hserving : self.serving = true)
    (hfresh : ∀ other position, .issue other position ∈ self.taken → other.id ≠ request.id) :
    Step self { self.take (.issue request index) with
      pending := self.pending.insert request.id ⟨request.method, index⟩ }
  | dismiss (id : String) (forget : Bool) :
    Step self { self.take (.cancel id forget) with
      pending := if forget then self.pending else self.pending.erase id }
  | ignore (id : String) (result : Except RemoteError Value) (hpending : id ∉ self.pending) :
    Step self { self with answered := self.answered ++ [(id, result)] }
  | settle (id : String) (result : Except RemoteError Value) (request : PendingRequest)
    (hserving : self.serving = true) (hpending : self.pending.lookup id = some request) :
    Step self { self with
      pending := self.pending.erase id
      calls := self.calls.modify request.reply fun call =>
        { call with reply := some (.wire result) }
      answered := self.answered ++ [(id, result)] }
  | fail (calls : List Call) (hserving : self.serving = true)
    (hcalls : Pointwise Call.Failed self.calls calls)
    (hkept : ∀ index, (∀ id request, self.pending.lookup id = some request →
      request.reply ≠ index) → calls[index]? = self.calls[index]?) :
    Step self { self with calls, pending := ∅, serving := false }

theorem Step.of_eq {self next : Requests} (h : next = self) : Step self next := by
  rw [h]
  exact .idle self.isOpen self.serving (fun h => h) fun h => h

end Requests

/-! ### Every step is one of them -/

namespace Session

variable {self next : Session H}

theorem commandsOpen_of_serving (h : self.phase.serving = true) : self.commandsOpen = true := by
  unfold commandsOpen
  split
  · simp_all [Phase.serving]
  · simp_all [Phase.serving]
  · rfl

variable {commands : Channel Command} {command : Command} {request : Request} {index : Nat}
  {order : Order}

theorem command_order (h : command.order = some order) :
    (self.command command).requests = self.requests.order order := by
  unfold Session.command Requests.order
  by_cases ho : self.commandsOpen = true
  · have hi : self.requests.isOpen = true := ho
    have hs : ordersOf (self.commands.send command).sent = self.requests.orders ++ [order] := by
      simp [requests, ordersOf, h]
    rw [if_pos ho, if_pos hi, ← hs]
    simp only [requests, Channel.received_send]
    rfl
  · have hc : ¬self.requests.isOpen = true := ho
    rw [if_neg ho, if_neg hc, List.append_nil]

theorem command_step {stage : CallStage} (h : command.order = some order)
    (step : self.requests.Step ((self.requests.order order).setStage index stage)) :
    self.requests.Step ((self.command command).setStage index stage).requests := by
  rw [← command_order h] at step
  exact step

theorem command_unordered (h : command.order = none) :
    (self.command command).requests = self.requests := by
  unfold Session.command
  split
  · simp [requests, ordersOf, h, commandsOpen]
  · rfl

theorem CallMove.requests {call : Call} (hc : self.calls[index]? = some call)
    (h : CallMove config self index call next) : self.requests.Step next.requests := by
  have moved {stage : CallStage} (hs : call.Moves self.commandsOpen stage) :
      self.requests.Step (self.setStage index stage).requests :=
    .move index call stage hc hs
  cases h with
  | silent stage h =>
    have hco : (self.shared.unavailable call.method).code = codes.unavailable := by
      unfold Shared.unavailable
      split <;> rfl
    exact moved (by cases h <;> grind [Call.Moves, CallStage.unsent])
  | number h => exact moved (.advanced _ (by rw [h]; rfl) rfl)
  | request id h ho => exact command_step rfl (.request index call id hc h ho)
  | cancel id h => exact command_step rfl (.cancel index call id hc h)
  | timeout id cancelSent timeout h ht =>
    exact command_step rfl (.leave index call id _ hc (.timeout cancelSent timeout h ht))
  | drop id cancelSent h =>
    exact command_step rfl (.leave index call id _ hc (.dropped cancelSent h))

theorem emitLocked_requests (event : EventInput) :
    (self.emitLocked config event).1.requests = self.requests := by
  unfold emitLocked
  split
  · rfl
  · split
    · exact command_unordered rfl
    · rfl

theorem apiStep_requests {step : ApiStep H} (h : self.apiStep config step = some next) :
    self.requests.Step next.requests := by
  cases step with
  | startCall method params options =>
    cases h
    exact .start _ rfl (by grind)
  | advanceCall | takeReply | abandonCall | pollCall | parkCall | cancelCall | timeoutCall
  | dropCall =>
    obtain ⟨call, hc, move⟩ := apiStep_callMove rfl h
    exact move.requests hc
  | emit event =>
    cases h
    exact .of_eq (by grind [emit, emitLocked_requests])
  | emitLocked event =>
    obtain ⟨-, ⟨⟩⟩ := Option.ite_none_right_eq_some.mp h
    exact .of_eq (emitLocked_requests event)
  | ping | closeNow =>
    cases h
    exact .of_eq (command_unordered rfl)
  | handle | dropGuard | events | pongs =>
    cases h
    exact .of_eq rfl

theorem Serves.requests (h : Serves self next) (hc : next.caller = self.caller)
    (ho : next.commandsOpen = true → self.commandsOpen = true)
    (hs : next.phase.serving = true → self.phase.serving = true) :
    self.requests.Step next.requests := by
  obtain ⟨frames, hse, hco, -, hsen⟩ := h
  have hno : frames.filter Frame.ordered = [] :=
    List.filter_eq_nil_iff.mpr fun frame hf =>
      Bool.eq_false_iff.mp (hse frame hf).ordered
  have hn : next.requests = { self.requests with
      isOpen := next.commandsOpen, serving := next.phase.serving } := by
    have hca : next.calls = self.calls := congrArg Caller.calls hc
    have hp : next.pending = self.pending := congrArg Caller.pending hc
    have ha : next.inbound.received.filterMap answerOf =
        self.inbound.received.filterMap answerOf := congrArg Caller.answered hc
    simp only [Session.requests, hca, hp, ha, hco, hsen,
      List.filter_append, hno, List.append_nil]
  rw [hn]
  exact .idle _ _ ho hs

theorem taken_issue (numbered : self.caller.Routed) (h : .issue request index ∈ self.requests.taken)
    : request ∈ self.caller.requested := by
  rw [numbered.requested]
  exact List.mem_map.mpr ⟨(request, index), mem_ordersOf_issue.mp h, rfl⟩

theorem issue_fresh (hr : self.Reachable config) (hp : self.phase = .running)
    (hrec : self.commands.recv = some (.request (.req request) index, commands)) {other : Request}
    {position : Nat} (h : .issue other position ∈ self.requests.taken) : other.id ≠ request.id := by
  have hs : self.step config (.driver .command) =
      some ({ self with commands }.onCommand (.request (.req request) index)) := by
    rw [Session.step, driverStep_running hp, loopStep, hrec]
    rfl
  obtain ⟨numbered, routed⟩ := (hr.step hs).numbered_routed
  have hn := numbered.requested_nodup routed
  have hre : ({ self with commands }.onCommand
      (.request (.req request) index)).caller.requested = self.caller.requested ++ [request] := by
    simp [caller, onCommand, enqueue, Frame.request]
  rw [hre, List.map_append, List.nodup_append] at hn
  exact hn.2.2 other.id
    (List.mem_map_of_mem (taken_issue hr.numbered_routed.2 h)) request.id
    (List.mem_singleton_self _)

theorem recv_requests (hr : self.commands.recv = some (command, commands)) :
    { self with commands }.requests =
      { self.requests with taken := self.requests.taken ++ ordersOf [command] } := by
  simp only [requests, Channel.recv_sent hr, Channel.recv_received hr, ordersOf_append]
  rfl

theorem enqueue_requests (frame : Frame) : (self.enqueue frame).requests =
    { self.requests with written := self.requests.written ++ [frame].filter Frame.ordered } := by
  simp only [requests, enqueue, Channel.sent_send, List.filter_append]
  rfl

theorem onCommand_requests (hre : self.Reachable config) (hp : self.phase = .running)
    (hr : self.commands.recv = some (command, commands)) :
    self.requests.Step ({ self with commands }.onCommand command).requests := by
  have hs : self.requests.serving = true := by rw [requests, hp]; rfl
  have ho : self.requests.isOpen = true := commandsOpen_of_serving hs
  have ht := recv_requests hr
  cases command with
  | close code reason =>
    have hn : ({ self with commands }.onCommand (.close code reason)).requests =
        { { self with commands }.requests with isOpen := true, serving := true } := rfl
    rw [hn, ht]
    simp only [ordersOf, List.filterMap_cons, Command.order, List.filterMap_nil, List.append_nil]
    exact .idle true true (fun _ => ho) fun _ => hs
  | request frame reply =>
    obtain ⟨request, rfl⟩ := hre.legal _ (Channel.mem_sent_of_recv hr)
    have hn : ({ self with commands }.onCommand (.request (.req request) reply)).requests =
        { { self with commands }.requests with
          pending := self.pending.insert request.id ⟨request.method, reply⟩
          written := self.requests.written ++ [.req request] } := enqueue_requests _
    rw [hn, ht]
    exact .issue request reply hs fun _ _ h => issue_fresh hre hp hr h
  | cancel id forget =>
    have hn : ({ self with commands }.onCommand (.cancel id forget)).requests =
        { { self with commands }.requests with
          pending := if forget then self.pending else self.pending.erase id
          written := self.requests.written ++ [.cancel ⟨id⟩] } := by
      rw [onCommand, enqueue_requests]
      cases forget <;> rfl
    rw [hn, ht]
    exact .dismiss id forget
  | send frame =>
    have hl := hre.legal _ (Channel.mem_sent_of_recv hr)
    have hf : [frame].filter Frame.ordered = [] := by
      cases frame with
      | req | cancel => cases hl
      | _ => rfl
    rw [onCommand, enqueue_requests, ht, hf, List.append_nil]
    exact .of_eq (congrArg (fun taken => { self.requests with taken }) (List.append_nil _))

theorem onInbound_requests {call : HandlerCall} {item : Option Inbound}
    {inbound : Channel (Option Inbound)} (hph : self.phase = .running)
    (hr : self.inbound.recv = some (item, inbound)) :
    self.requests.Step ({ self with inbound }.onInbound config item call).requests := by
  have hs : self.phase.serving = true := by rw [hph]; rfl
  cases hi : answerOf item with
  | none =>
    refine Serves.requests ?_ (onInbound_caller_eq hr hi)
      (fun _ => commandsOpen_of_serving hs) fun _ => hs
    obtain ⟨frames, hser, hc, hse, hsen⟩ := onInbound_serves item call
    exact ⟨frames, hser, hc, hse, hsen⟩
  | some answer =>
    obtain ⟨id, result⟩ := answer
    have ha : { self with inbound }.requests =
        { self.requests with answered := self.requests.answered ++ [(id, result)] } := by
      simp only [requests, Channel.recv_received hr, List.filterMap_append,
        List.filterMap_cons, hi, List.filterMap_nil]
      rfl
    rw [onInbound_answer hi, onResponse]
    split
    · rename_i request hp
      have hn : ({ self with inbound, pending := self.pending.erase id }.sendReply request.reply
          (.wire result)).requests = { { self with inbound }.requests with
            pending := self.pending.erase id
            calls := self.calls.modify request.reply fun call =>
              { call with reply := some (.wire result) } } := rfl
      rw [hn, ha]
      exact .settle id result request hs hp
    · rename_i hp
      rw [ha]
      exact .ignore id result (AList.lookup_eq_none.mp hp)

theorem advanceTeardown_requests {reason : Teardown} {stage : TeardownStage}
    (hp : self.phase = .closing reason stage)
    (h : self.advanceTeardown reason stage = some next) :
    self.requests.Step next.requests := by
  have ho : self.commandsOpen = true := by rw [commandsOpen, hp]
  cases advanceTeardown_move h with
  | failing calls hc hk =>
    have hn : self.requests.Step { self.requests with calls, pending := ∅, serving := false } :=
      .fail calls (by rw [requests, hp]; rfl) hc hk
    have hi : self.requests = { self.requests with isOpen := true } := by
      rw [← ho]
      rfl
    rw [hi] at hn ⊢
    exact hn
  | _ => exact .idle _ _ (fun _ => ho) fun _ => by rw [requests, hp]; rfl

theorem step_requests {label : Label H} (hre : self.Reachable config)
    (h : self.step config label = some next) : self.requests.Step next.requests := by
  cases step_move h with
  | api step next => exact apiStep_requests h
  | arrive item => exact .of_eq (by simp only [requests, Channel.received_send]; rfl)
  | transmit outcome frame writer sendFailure hr =>
    exact .of_eq (by simp only [requests, Channel.recv_sent hr]; rfl)
  | driver step next move =>
    have served (hc : step ≠ .command) (ht : step ≠ .teardown)
        (hca : next.caller = self.caller) (hs : self.phase.serving = true) :
        self.requests.Step next.requests :=
      (move.serves hc ht).requests hca
        (fun _ => commandsOpen_of_serving hs) fun _ => hs
    cases move with
    | greet outcome hp =>
      exact served nofun nofun (greet_caller outcome) (by rw [hp]; rfl)
    | sendFailed _ hp => exact served nofun nofun rfl (by rw [hp]; rfl)
    | handshakeTimeout hp =>
      exact served nofun nofun (caller_control _ _ (Shared.settleReady_requestSequence _ _))
        (by rw [hp]; rfl)
    | livenessTick hp =>
      exact served nofun nofun onLivenessTick_caller (by rw [hp]; rfl)
    | settled task settled _ hp =>
      exact served nofun nofun (onHandlerSettled_caller task settled) (by rw [hp]; rfl)
    | command command commands hp hr => exact onCommand_requests hre hp hr
    | inbound call item inbound hp _ hr => exact onInbound_requests hp hr
    | teardown reason stage next hp hn => exact advanceTeardown_requests hp hn
    | drain => exact .idle _ _ (fun h => h) fun h => h
    | finish reason hp =>
      exact .idle false false nofun nofun

end Session

end MangoProtocol
