import MangoProtocol.TypeScript.Requests
import MangoProtocol.TypeScript.SessionClosing

/-! A TypeScript session as the peer that calls: the requests of `Requests` over the session and its
port.  A step runs to completion, as a task of the event loop does.  The port may report its closure
from within a send, which tears the session down in the middle of `request`. -/

namespace MangoProtocol.TypeScript

open ProofKit

/-! ### Steps -/

structure Requester (π : Type) where
  run : SessionRun π
  requestIdPrefix : JsString
  requests : Requests

def isValidMethodName (value : JsString) : Bool :=
  value.length ≤ methodMaxLength && matchesMethod value

/-- What can happen to a session and its requests. -/
inductive RequesterLabel (π : Type) where
  /-- A step of the session itself, which sends neither requests nor cancellations. -/
  | session (label : SessionLabel π)
  | request (method : JsString) (params : JsValue) (options : RequestOptions)
  /-- A call goes on after `ready` settled; its signal may be aborted by then. -/
  | resume (index : Nat) (aborted : Bool)
  | timeout (index : Nat)
  | abort (index : Nat)

/-- The id that a frame answers, and how. -/
def answer {π : Type} : SessionLabel π → Option (JsString × Settlement)
  | .frame (.res id result) => some (id, .answered result)
  | .frame (.err id error) => some (id, .failed error)
  | _ => none

def sendsRequest {π : Type} : SessionLabel π → Bool
  | .submit (.req ..) | .submit (.cancel _) => true
  | _ => false

namespace Requester

variable {π : Type}

/-- The requester after a step of the session: a step that closed it has flushed the requests. -/
def lift (self : Requester π) (run : SessionRun π) : Requester π :=
  if self.run.session.state ≠ .closed ∧ run.session.state = .closed then
    { self with run, requests := self.requests.flush run.session.closure }
  else { self with run }

def answered (self : Requester π) (label : SessionLabel π) : Requester π :=
  match answer label with
  | none => self
  | some (id, settlement) => { self with requests := self.requests.settle id settlement }

/-- `request` up to its first `await`. -/
def request (self : Requester π) (method : JsString) (params : JsValue)
    (options : RequestOptions) : Requester π :=
  let invalid := ¬isValidMethodName method ∨
    isReservedMethodName method ∧ ¬isDefinedReservedMethod method protocolVersion.minor
  let stage : RequestStage :=
    if invalid then .settled (.refused (.remote (invalidMethodName method))) else .waiting
  { self with requests := { self.requests with
      calls := self.requests.calls ++ [⟨method, params, options, none, stage, false, false⟩] } }

/-- The call throws before it is registered. -/
def refuse (self : Requester π) (index : Nat) (error : Rejection) : Requester π :=
  { self with requests := self.requests.settleAt index (.refused error) }

def skip (self : Requester π) : Requester π :=
  { self with requests := { self.requests with sequence := self.requests.sequence + 1 } }

section Port

variable (api : PortApi π)

/-- The executor of the promise: the request is registered and sent. -/
def transmit (self : Requester π) (index : Nat) (call : RequestCall) (aborted : Bool) :
    Requester π :=
  let id := requestId self.requestIdPrefix (self.requests.sequence + 1)
  let registered :=
    { self with requests := self.requests.register self.requestIdPrefix index }
  let sent := self.run.send api (.req id call.method call.params.next)
  let told := registered.lift sent.1
  match sent.2 with
  | some thrown =>
    { told with
      requests := (told.requests.release id index).settleAt index
        (.sendFailed (sendFailure call.method thrown)) }
  | none =>
    if call.options.signal && aborted then told.lift (told.run.trySend api (.cancel id)) else told

/-- `request` after `ready` resolved. -/
def resume (self : Requester π) (index : Nat) (call : RequestCall) (remote : RemotePeer)
    (aborted : Bool) : Requester π :=
  if isReservedMethodName call.method ∧
      ¬isDefinedReservedMethod call.method remote.effectiveMinor then
    self.refuse index (.remote (undefinedMethod call.method remote.effectiveMinor))
  else if self.run.session.state = .closed then
    self.refuse index (.remote (unavailable call.method self.run.session.closure none))
  else
    let id := requestId self.requestIdPrefix (self.requests.sequence + 1)
    match measureFrameBytes (.req id call.method call.params) with
    | .error message => self.skip.refuse index (.codec message)
    | .ok bytes =>
      let limit := self.run.session.sendLimitBytes
      if limit < bytes then
        self.skip.refuse index (.remote (requestTooLarge call.method bytes limit))
      else self.transmit api index call aborted

/-- The callback of a request's timer. -/
def expire (self : Requester π) (index : Nat) (call : RequestCall) (id : JsString) : Requester π :=
  match self.requests.pending.lookup id with
  | none => { self with requests := self.requests.update index ({ · with timer := false }) }
  | some entry =>
    let released := { self with requests := self.requests.release id entry }
    let told := released.lift (released.run.trySend api (.cancel id))
    { told with
      requests := told.requests.settleAt index
        (.timedOut (requestTimedOut call.method (call.options.timeoutMs.getD 0))) }

def cancel (self : Requester π) (index : Nat) (id : JsString) : Requester π :=
  let heard := { self with requests := self.requests.update index ({ · with listener := false }) }
  heard.lift (heard.run.trySend api (.cancel id))

/-- One step.  A call goes on once `ready` has settled, and a timer or a listener is called while it
is set. -/
def step (self : Requester π) : RequesterLabel π → Option (Requester π)
  | .session label =>
    if sendsRequest label then none
    else (self.run.step api label).map fun run => (self.lift run).answered label
  | .request method params options => some (self.request method params options)
  | .resume index aborted =>
    match self.requests.calls[index]? with
    | none => none
    | some call =>
      match call.stage, self.run.session.ready with
      | .waiting, some (.ok remote) => some (self.resume api index call remote aborted)
      | .waiting, some (.error error) =>
        some (self.refuse index (.remote ⟨error.1, error.2, none⟩))
      | _, _ => none
  | .timeout index =>
    match self.requests.calls[index]? with
    | none => none
    | some call => if call.timer then call.id.map (self.expire api index call) else none
  | .abort index =>
    match self.requests.calls[index]? with
    | none => none
    | some call => if call.listener then call.id.map (self.cancel api index) else none

/-- The constructor. -/
def new (port : π) (options : SessionOptions) (requestIdPrefix : Option JsString) :
    Except Thrown (Requester π) :=
  (SessionRun.new api port options).map fun run => ⟨run, requestIdPrefix.getD (js "r"), {}⟩

end Port

end Requester

end MangoProtocol.TypeScript
