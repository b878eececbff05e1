import MangoProtocol.TypeScript.Frames
import MangoProtocol.ProofKit.Machine

/-! The session of the TypeScript package over any port: its handshake, its answers to requests, its
liveness and its end.  A port is a type of states with the operations of the interface `Port`.  A
port may report its closure from within a call of `send` or of `close`, as the ports of the package
do when a write fails.  The requests and events of this side are calls of `send` here. -/

namespace MangoProtocol.TypeScript

open ProofKit

/-! ### Ports -/

/-- What a call of `send` throws: a `RemoteError`, or anything else in the words of `describe`. -/
inductive SendThrown where
  | remote (error : ErrorPayload)
  | other (words : JsString)

def SendThrown.describe : SendThrown → JsString
  | .remote error => error.message
  | .other words => words

/-- What a call of `send` did: the port after it, what it threw, and the closure that the port
reported on the way. -/
structure SendResult (π : Type) where
  port : π
  thrown : Option SendThrown
  reported : Option PortClosure

/-- The interface `Port`, for the one listener that a session adds for frames and for the closure,
and what `assertFrame` passes of the frames that it delivers. -/
structure PortApi (π : Type) where
  check : Frame → Bool
  maxFrameBytes : π → Option Nat
  send : π → Frame → SendResult π
  close : π → Nat → Option JsString → π × Option PortClosure
  onFrame : π → π
  onClosed : π → π
  detachFrames : π → π
  detachClosed : π → π

/-! ### The state of a session -/

namespace reservedErrorCodes

def unavailable : JsString := js "UNAVAILABLE"
def invalidRequest : JsString := js "INVALID_REQUEST"
def methodUnsupported : JsString := js "METHOD_UNSUPPORTED"
def cancelled : JsString := js "CANCELLED"
def frameTooLarge : JsString := js "FRAME_TOO_LARGE"
def protocolMismatch : JsString := js "PROTOCOL_MISMATCH"
def internal : JsString := js "INTERNAL"

end reservedErrorCodes

inductive SessionState where
  | handshaking
  | ready
  | closed
  deriving DecidableEq, Repr

/-- Why the session ended. -/
structure SessionClosure where
  code : Nat
  reason : Option JsString
  fatal : Bool
  error : Option CodecError
  deriving DecidableEq, Repr

/-- What the far peer announced that the session uses, and the negotiated minor. -/
structure RemotePeer where
  limits : Option Limits
  effectiveMinor : Nat
  deriving DecidableEq, Repr

/-- A handler that has not settled. -/
structure Dispatch where
  id : JsString
  method : JsString
  aborted : Bool
  deriving DecidableEq, Repr

structure SessionOptions where
  peer : PeerInfo
  capabilities : JsValue
  protocol : Option ProtocolVersion
  maxFrameBytes : Option Nat
  maxInFlight : Option Nat
  handshakeTimeoutMs : Option Nat
  /-- False when `livenessIntervalMs` is `false`. -/
  liveness : Bool
  handlers : List JsString

def protocolVersion : ProtocolVersion := ⟨1, 1⟩

def defaultHandshakeTimeoutMs : Nat := 15000

def defaultMaxInFlight : Nat := 256

structure Session where
  options : SessionOptions
  localProtocol : ProtocolVersion
  localMaxFrameBytes : Nat
  maxInFlight : Nat
  handlers : List JsString
  active : List JsString
  dispatches : List Dispatch
  /-- How `ready` settled: a code and a message when it was rejected. -/
  ready : Option (Except (JsString × JsString) RemotePeer)
  state : SessionState
  remote : Option RemotePeer
  closure : Option SessionClosure
  announcedClose : Option (Nat × Option JsString)
  handshakeTimer : Bool
  livenessTimer : Bool
  awaitingPong : Bool

namespace Session

/-- A session before its handshake. -/
def initial (options : SessionOptions) (localMaxFrameBytes maxInFlight : Nat) : Session where
  options := options
  localProtocol := options.protocol.getD protocolVersion
  localMaxFrameBytes := localMaxFrameBytes
  maxInFlight := maxInFlight
  handlers := options.handlers
  active := []
  dispatches := []
  ready := none
  state := .handshaking
  remote := none
  closure := none
  announcedClose := none
  handshakeTimer := false
  livenessTimer := false
  awaitingPong := false

/-- A promise settles once. -/
def settleReady (self : Session) (outcome : Except (JsString × JsString) RemotePeer) : Session :=
  { self with ready := self.ready.or (some outcome) }

/-- The frame ceiling for what this side sends: the lower of both announced limits. -/
def sendLimitBytes (self : Session) : Nat :=
  min self.localMaxFrameBytes
    ((self.remote.bind fun remote => remote.limits.bind Limits.maxFrameBytes).getD
      defaultMaxFrameBytes)

/-- Aborts the controllers of some requests. -/
def abort (self : Session) (ids : List JsString) : Session :=
  { self with dispatches := self.dispatches.map fun dispatch =>
      if ids.contains dispatch.id then { dispatch with aborted := true } else dispatch }

/-- The state after `#teardown`. -/
def tornDown (self : Session) (closure : SessionClosure) : Session :=
  let ended := { self.abort self.active with
    state := .closed
    closure := some closure
    handshakeTimer := false
    livenessTimer := false
    active := [] }
  ended.settleReady (.error
    (if closure.code = closeCodes.protocolMismatch then reservedErrorCodes.protocolMismatch
      else reservedErrorCodes.unavailable,
    js ("The session closed before the handshake completed (" ++ closure.code.repr) ++
      (match closure.reason with
        | none | some [] => []
        | some reason => js ": " ++ reason) ++ js ")."))

end Session

/-- The ceiling that this side announces: the lower of what the session asked for and what the port
can decode. -/
def localFrameCeiling (requested portCeiling : Option Nat) : Except Thrown Nat := do
  let ceiling ← match portCeiling with
    | none => pure none
    | some _ =>
      (resolveIntegerAtLeast "port maxFrameBytes" portCeiling defaultMaxFrameBytes
        minMaxFrameBytes).map some
  match requested with
  | none => return ceiling.getD defaultMaxFrameBytes
  | some _ =>
    let floored ← resolveIntegerAtLeast "maxFrameBytes" requested defaultMaxFrameBytes
      minMaxFrameBytes
    return min floored (ceiling.getD floored)

/-- The lower minor when the majors match. -/
def negotiate (localVersion remote : ProtocolVersion) : Option Nat :=
  if localVersion.major ≠ remote.major then none else some (min localVersion.minor remote.minor)

/-- The `hello` of `#startHandshake`. -/
def Session.hello (self : Session) : Frame :=
  let limits : Limits :=
    ⟨if self.localMaxFrameBytes < defaultMaxFrameBytes then some self.localMaxFrameBytes else none,
      if self.maxInFlight ≠ defaultMaxInFlight then some self.maxInFlight else none⟩
  .hello {
    protocol := self.localProtocol
    peer := self.options.peer
    capabilities := self.options.capabilities
    limits := if limits = ⟨none, none⟩ then none else some limits }

/-! ### Answers to a request -/

/-- The `details` of an error, which the session copies member by member: whether the copy succeeds,
and the copy. -/
structure Details where
  copies : Bool
  copy : JsValue

/-- What a handler throws: a `RemoteError`, another `Error`, an error whose code or message is not a
string and not skipped as empty, or anything else. -/
inductive HandlerThrown where
  | remote (code message : JsString) (details : Option Details)
  | error (name message : JsString)
  | mistyped
  | other

/-- How a handler settles; `undefined` is no value. -/
inductive HandlerOutcome where
  | returned (value : Option JsValue)
  | thrown (thrown : HandlerThrown)

def HandlerThrown.messageOr (self : HandlerThrown) (sentence : String) : JsString :=
  match self with
  | .error _ (unit :: units) => unit :: units
  | _ => js sentence

def isAbortError : HandlerThrown → Bool
  | .error name _ => name == js "AbortError"
  | _ => false

/-- Maps what a handler threw onto the payload.  Nothing when the copy of the details throws, and
nothing that a port accepts when a member is not of its type. -/
def errorPayloadFor (thrown : HandlerThrown) (aborted : Bool) : Option ErrorPayload :=
  match thrown with
  | .mistyped => none
  | .remote code message none => some ⟨code, message, none⟩
  | .remote code message (some details) =>
    if details.copies then some ⟨code, message, some details.copy⟩ else none
  | _ =>
    if isAbortError thrown ∨ aborted then
      some ⟨reservedErrorCodes.cancelled, thrown.messageOr "The request was cancelled.", none⟩
    else some ⟨reservedErrorCodes.internal, thrown.messageOr "The handler failed.", none⟩

def rpcReservedStart : JsString := js "rpc."

def isReservedMethodName (value : JsString) : Bool := value.take 4 == rpcReservedStart

def rpcDiscover : JsString := js "rpc.discover"

def isDefinedReservedMethod (value : JsString) (effectiveMinor : Nat) : Bool :=
  value == rpcDiscover && 1 ≤ effectiveMinor

/-- A plain object of the session's own. -/
def plainObject (members : List (String × Visit)) : JsValue := ⟨fun _ => .object members⟩

namespace ErrorPayload

def notReady : ErrorPayload :=
  ⟨reservedErrorCodes.unavailable, js ("The session handshake has not completed; requests are " ++
    "refused until both hellos have crossed."), none⟩

def inFlightLimit (limit : Nat) (method : JsString) : ErrorPayload :=
  ⟨reservedErrorCodes.unavailable,
    js ("This peer is already answering " ++ limit.repr ++ " requests; retry \"") ++ method ++
      js "\" once one of yours has settled.",
    some (plainObject [("kind", .string (js "in_flight_limit")), ("limit", .number limit),
      ("method", .string method)])⟩

def duplicateId (id : JsString) : ErrorPayload :=
  ⟨reservedErrorCodes.invalidRequest,
    js "Request id \"" ++ id ++ js ("\" is already in flight; expected an id unique among the " ++
      "sender's pending requests."),
    some (plainObject [("id", .string id)])⟩

def reservedMethod (method : JsString) (effectiveMinor : Nat) : ErrorPayload :=
  ⟨reservedErrorCodes.invalidRequest,
    js "Method \"" ++ method ++
      js ("\" is reserved; the rpc. segment belongs to the protocol and " ++
        "defines no such method at wire minor " ++ effectiveMinor.repr ++ "."),
    some (plainObject [("method", .string method), ("effectiveMinor", .number effectiveMinor)])⟩

def noHandler (method : JsString) : ErrorPayload :=
  ⟨reservedErrorCodes.methodUnsupported,
    js "Method \"" ++ method ++ js "\" has no handler on this peer.",
    some (plainObject [("method", .string method)])⟩

def frameTooLarge (method : JsString) (bytes limit : Nat) : ErrorPayload :=
  ⟨reservedErrorCodes.frameTooLarge,
    js "The result of \"" ++ method ++ js ("\" encodes to " ++ bytes.repr ++
      " bytes; the session limit is " ++ limit.repr ++ " bytes."),
    some (plainObject [("method", .string method), ("bytes", .number bytes),
      ("limit", .number limit)])⟩

end ErrorPayload

/-- What `#dispatch` does with a request before it calls a handler: the refusal, or none. -/
def Session.refusal (self : Session) (id method : JsString) : Option ErrorPayload :=
  let effectiveMinor := (self.remote.map RemotePeer.effectiveMinor).getD 0
  if self.state ≠ .ready then some .notReady
  else if self.maxInFlight ≤ self.active.length then some (.inFlightLimit self.maxInFlight method)
  else if self.active.contains id then some (.duplicateId id)
  else if isReservedMethodName method ∧ ¬isDefinedReservedMethod method effectiveMinor then
    some (.reservedMethod method effectiveMinor)
  else if ¬self.handlers.contains method then some (.noHandler method)
  else none

/-! ### A session and its port -/

inductive PortEvent where
  | sent (frame : Frame) (accepted : Bool)
  | closed (code : Nat) (reason : Option JsString)
  | reported (closure : PortClosure)

structure SessionRun (π : Type) where
  session : Session
  port : π
  events : List PortEvent

namespace SessionRun

variable {π : Type}

/-- The run after a step of the session alone. -/
def withSession (self : SessionRun π) (session : Session) : SessionRun π := { self with session }

section Port

variable (api : PortApi π)

def teardown (self : SessionRun π) (closure : SessionClosure) : SessionRun π :=
  if self.session.state = .closed then self
  else
    { self with
      session := self.session.tornDown closure
      port := api.detachClosed (api.detachFrames self.port) }

def handlePortClosed (self : SessionRun π) (closure : PortClosure) : SessionRun π :=
  let heard := { self with events := self.events ++ [PortEvent.reported closure] }
  match closure with
  | .protocolError error code =>
    heard.teardown api ⟨code, some (js error.message), isFatalCloseCode code, some error⟩
  | .closed code reason =>
    let announced := self.session.announcedClose
    let code := (code.or (announced.map Prod.fst)).getD closeCodes.released
    heard.teardown api ⟨code, reason.or (announced.bind Prod.snd), isFatalCloseCode code, none⟩

/-- What the port reports from within a call. -/
def hear (self : SessionRun π) : Option PortClosure → SessionRun π
  | none => self
  | some closure => self.handlePortClosed api closure

def send (self : SessionRun π) (frame : Frame) : SessionRun π × Option SendThrown :=
  let result := api.send self.port frame
  let sent := { self with
    port := result.port
    events := self.events ++ [PortEvent.sent frame result.thrown.isNone] }
  (sent.hear api result.reported, result.thrown)

def trySend (self : SessionRun π) (frame : Frame) : SessionRun π :=
  if self.session.state = .closed then self else (self.send api frame).1

def closeNow (self : SessionRun π) (code : Nat) (reason : Option JsString) : SessionRun π :=
  if self.session.state = .closed then self
  else
    let result := api.close self.port code reason
    let told :=
      { self with port := result.1, events := self.events ++ [PortEvent.closed code reason] }
    (told.hear api result.2).teardown api ⟨code, reason, isFatalCloseCode code, none⟩

def failHandshake (self : SessionRun π) (error : JsString × JsString) (code : Nat)
    (reason : String) : SessionRun π :=
  (self.withSession (self.session.settleReady (.error error))).closeNow api code (some (js reason))

def startHandshake (self : SessionRun π) : SessionRun π :=
  let sent := self.send api self.session.hello
  match sent.2 with
  | some thrown =>
    sent.1.failHandshake api
      (reservedErrorCodes.unavailable, js "The transport refused the hello: " ++ thrown.describe)
      closeCodes.released "hello could not be sent"
  | none => sent.1.withSession { sent.1.session with handshakeTimer := true }

def handshakeTimeoutReason : String := "handshake timeout"

/-- The callback of the handshake timer. -/
def handshakeTimeout (self : SessionRun π) : SessionRun π :=
  let fired := self.withSession { self.session with handshakeTimer := false }
  if self.session.state ≠ .handshaking then fired
  else
    let timeoutMs := self.session.options.handshakeTimeoutMs.getD defaultHandshakeTimeoutMs
    fired.failHandshake api (reservedErrorCodes.unavailable,
      js ("The peer did not send hello within " ++ timeoutMs.repr ++ "ms."))
      closeCodes.protocolError handshakeTimeoutReason

/-- The callback of the liveness interval. -/
def livenessTick (self : SessionRun π) : SessionRun π :=
  if self.session.state ≠ .ready then self
  else if self.session.awaitingPong then
    self.closeNow api closeCodes.released (some (js "liveness timeout"))
  else (self.withSession { self.session with awaitingPong := true }).trySend api .ping

def receiveHello (self : SessionRun π) (frame : HelloFrame) : SessionRun π :=
  if self.session.state ≠ .handshaking then
    self.closeNow api closeCodes.protocolError (some (js "duplicate hello"))
  else
    match negotiate self.session.localProtocol frame.protocol with
    | none =>
      self.failHandshake api (reservedErrorCodes.protocolMismatch,
        js "Peer \"" ++ frame.peer.name ++ js ("\" speaks wire major " ++
          frame.protocol.major.repr ++ "; this session speaks major " ++
          self.session.localProtocol.major.repr ++ "."))
        closeCodes.protocolMismatch "protocol version unsupported"
    | some effectiveMinor =>
      let remote : RemotePeer := ⟨frame.limits, effectiveMinor⟩
      let introduced := { self.session with
        remote := some remote
        handshakeTimer := false
        state := .ready
        livenessTimer := self.session.options.liveness }
      self.withSession (introduced.settleReady (.ok remote))

/-! ### Requests of the peer -/

def respondError (self : SessionRun π) (id : JsString) (error : ErrorPayload) : SessionRun π :=
  self.trySend api (.err id error)

/-- `#dispatch` up to the call of the handler. -/
def dispatch (self : SessionRun π) (id method : JsString) : SessionRun π :=
  match self.session.refusal id method with
  | some error => self.respondError api id error
  | none => self.withSession { self.session with
      active := self.session.active ++ [id]
      dispatches := self.session.dispatches ++ [⟨id, method, false⟩] }

/-- The `catch` of `#dispatch`.  Without a payload that a port accepts nothing is sent. -/
def respondThrown (self : SessionRun π) (id : JsString) (thrown : HandlerThrown) (aborted : Bool) :
    SessionRun π :=
  match errorPayloadFor thrown aborted with
  | none => self
  | some error => self.respondError api id error

/-- `#respondResult`, with the `catch` that a throw of it reaches. -/
def respondResult (self : SessionRun π) (dispatch : Dispatch) (result : JsValue) : SessionRun π :=
  match measureFrameBytes (.res dispatch.id result) with
  | .error message =>
    self.respondThrown api dispatch.id (.error (js "CodecError") message) dispatch.aborted
  | .ok bytes =>
    let limit := self.session.sendLimitBytes
    if limit < bytes then
      self.respondError api dispatch.id (.frameTooLarge dispatch.method bytes limit)
    else self.trySend api (.res dispatch.id result.next)

def settle (self : SessionRun π) (dispatch : Dispatch) (outcome : HandlerOutcome) : SessionRun π :=
  let answered :=
    match outcome with
    | .returned value => self.respondResult api dispatch (value.getD .null)
    | .thrown thrown => self.respondThrown api dispatch.id thrown dispatch.aborted
  answered.withSession { answered.session with
    active := answered.session.active.erase dispatch.id
    dispatches := answered.session.dispatches.eraseP (·.id == dispatch.id) }

/-- One frame from the port. -/
def receive (self : SessionRun π) : Frame → SessionRun π
  | .hello frame => self.receiveHello api frame
  | .req id method _ => self.dispatch api id method
  | .res _ _ | .err _ _ | .evt .. => self
  | .cancel id =>
    if self.session.active.contains id then self.withSession (self.session.abort [id]) else self
  | .ping => self.trySend api .pong
  | .pong => self.withSession { self.session with awaitingPong := false }
  | .close code reason =>
    let announced := self.withSession { self.session with announcedClose := some (code, reason) }
    announced.teardown api ⟨code, reason, isFatalCloseCode code, none⟩

/-- The constructor. -/
def new (port : π) (options : SessionOptions) : Except Thrown (SessionRun π) := do
  let localMaxFrameBytes ← localFrameCeiling options.maxFrameBytes (api.maxFrameBytes port)
  let maxInFlight ← resolveIntegerAtLeast "maxInFlight" options.maxInFlight defaultMaxInFlight
    minAnnouncedInFlight
  let session := Session.initial options localMaxFrameBytes maxInFlight
  return startHandshake api ⟨session, api.onClosed (api.onFrame port), []⟩

end Port

end SessionRun

namespace SessionRun

theorem new_eq {π : Type} {api : PortApi π} {port : π} {options : SessionOptions}
    {self : SessionRun π} (hn : new api port options = .ok self) :
    ∃ ceiling limit,
      localFrameCeiling options.maxFrameBytes (api.maxFrameBytes port) = .ok ceiling ∧
      resolveIntegerAtLeast "maxInFlight" options.maxInFlight defaultMaxInFlight
        minAnnouncedInFlight = .ok limit ∧
      self = startHandshake api
        ⟨.initial options ceiling limit, api.onClosed (api.onFrame port), []⟩ := by
  unfold new at hn
  cases hc : localFrameCeiling options.maxFrameBytes (api.maxFrameBytes port) with
  | error thrown =>
    rw [hc] at hn
    cases hn
  | ok ceiling =>
    rw [hc] at hn
    cases hl : resolveIntegerAtLeast "maxInFlight" options.maxInFlight defaultMaxInFlight
        minAnnouncedInFlight with
    | error thrown =>
      rw [hl] at hn
      cases hn
    | ok limit =>
      rw [hl] at hn
      cases hn
      exact ⟨ceiling, limit, rfl, rfl, rfl⟩

end SessionRun

/-! ### Runs -/

/-- What can happen to a session: a frame or a closure from its port, a step of the port on its own,
the sends of `request`, `emit` and `ping`, a handler that settles, the timers, and the calls of the
owner. -/
inductive SessionLabel (π : Type) where
  | frame (frame : Frame)
  | portClosed (closure : PortClosure)
  | port (port : π)
  | submit (frame : Frame)
  | settle (id : JsString) (outcome : HandlerOutcome)
  | handshakeTimeout
  | livenessTick
  | handle (method : JsString)
  | unhandle (method : JsString)
  | closeNow (code : Nat) (reason : Option JsString)

namespace SessionRun

variable {π : Type} (api : PortApi π)

def submits : Frame → Bool
  | .req .. | .evt .. | .cancel _ | .ping => true
  | _ => false

/-- One step.  A port delivers only what `assertFrame` passes, a timer fires only while it is set,
and a handler settles only once. -/
def step (self : SessionRun π) : SessionLabel π → Option (SessionRun π)
  | .frame frame => if api.check frame then some (self.receive api frame) else none
  | .portClosed closure => some (self.handlePortClosed api closure)
  | .port port => some { self with port }
  | .submit frame => if submits frame then some (self.send api frame).1 else none
  | .settle id outcome =>
    (self.session.dispatches.find? (·.id == id)).map fun dispatch =>
      self.settle api dispatch outcome
  | .handshakeTimeout =>
    if self.session.handshakeTimer then some (self.handshakeTimeout api) else none
  | .livenessTick => if self.session.livenessTimer then some (self.livenessTick api) else none
  | .handle method =>
    some (self.withSession { self.session with
      handlers := self.session.handlers.filter (· != method) ++ [method] })
  | .unhandle method =>
    some (self.withSession { self.session with
      handlers := self.session.handlers.filter (· != method) })
  | .closeNow code reason => some (self.closeNow api code reason)

end SessionRun

end MangoProtocol.TypeScript
