import MangoProtocol.Session.Handle
import MangoProtocol.Codec.RoundTrip
import MangoProtocol.ProofKit.Machine

/-! One session as a machine.  Its steps are those of the callers that hold a handle, of the port
and its writer task, and of the driver; a label names the step and what the outside world decides
in it.  Any enabled step may come next, so a run of the machine is any schedule, of which the
schedules that the `biased` order of the driver allows are some. -/

namespace MangoProtocol

open ProofKit

/-- A step of a caller. -/
inductive ApiStep (H : Type) where
  | startCall (method : String) (params : Value) (options : RequestOptions)
  | advanceCall (index : Nat)
  | takeReply (index : Nat)
  | abandonCall (index : Nat)
  | pollCall (index : Nat)
  | parkCall (index : Nat)
  | cancelCall (index : Nat)
  | timeoutCall (index : Nat)
  | dropCall (index : Nat)
  | emit (event : Session.EventInput)
  /-- The rest of an `emit` that read the state while the session was ready. -/
  | emitLocked (event : Session.EventInput)
  | ping
  | closeNow (code : UInt16) (reason : Option String)
  | handle (method : String) (handler : H)
  | dropGuard (method : String) (generation : Nat)
  | events
  | pongs

/-- A step of the port: its receive half holds one more item, or its send half took a frame from
the writer. -/
inductive PortStep where
  | arrive (item : Option Inbound)
  | transmit (outcome : SendOutcome)

/-- A step of the driver. -/
inductive DriverStep where
  | greet (outcome : SendOutcome)
  | sendFailed
  | handshakeTimeout
  | livenessTick
  | settled (task : TaskId) (settled : Settled)
  | command
  | inbound (call : HandlerCall)
  | teardown
  | drain (task : TaskId) (settled : Settled)
  | finish

inductive Label (H : Type) where
  | api (step : ApiStep H)
  | port (step : PortStep)
  | driver (step : DriverStep)

namespace Session

variable {H : Type}

/-- A step of the call at an index. -/
def withCall (self : Session H) (index : Nat) (act : Nat → Call → Option (Session H)) :
    Option (Session H) :=
  self.calls[index]?.bind (act index)

def apiStep (config : Config) (self : Session H) : ApiStep H → Option (Session H)
  | .startCall method params options => some (self.startCall method params options)
  | .advanceCall index => self.withCall index (self.advanceCall config)
  | .takeReply index => self.withCall index self.takeReply
  | .abandonCall index => self.withCall index self.abandonCall
  | .pollCall index => self.withCall index self.pollCall
  | .parkCall index => self.withCall index self.parkCall
  | .cancelCall index => self.withCall index self.cancelCall
  | .timeoutCall index => self.withCall index self.timeoutCall
  | .dropCall index => self.withCall index self.dropCall
  | .emit event => some (self.emit config event).1
  | .emitLocked event =>
    if self.shared.remote.isSome then some (self.emitLocked config event).1 else none
  | .ping => some self.ping
  | .closeNow code reason => some (self.closeNow code reason)
  | .handle method handler =>
    some { self with shared := self.shared.registerHandler method handler }
  | .dropGuard method generation =>
    some { self with shared := self.shared.dropGuard method generation }
  | .events => some { self with shared := { self.shared with
      eventSubscribers := self.shared.eventSubscribers ++ [[]] } }
  | .pongs => some { self with shared := { self.shared with
      pongSubscribers := self.shared.pongSubscribers ++ [0] } }

/-- The writer hands its oldest frame to the port, and reports the first that was not sent. -/
def transmit (self : Session H) (outcome : SendOutcome) : Option (Session H) :=
  match self.writer.recv with
  | none => none
  | some (_, writer) => some { self with
      writer
      sendFailure :=
        if outcome = .sent then self.sendFailure else self.sendFailure.or (some outcome) }

def portStep (self : Session H) : PortStep → Option (Session H)
  | .arrive item => some { self with inbound := self.inbound.send item }
  | .transmit outcome => self.transmit outcome

def freshCall (self : Session H) : HandlerCall → Bool
  | .future task => task ∉ self.tracking.tasks
  | .panic => true

/-- A branch of the main loop. -/
def loopStep (config : Config) (self : Session H) : DriverStep → Option (Session H)
  | .sendFailed => self.sendFailure.map fun outcome => self.breakLoop (onSendFailure (some outcome))
  | .handshakeTimeout =>
    if self.shared.state = .handshaking then some (self.onHandshakeTimeout config) else none
  | .livenessTick =>
    if self.shared.state = .ready ∧ config.livenessInterval.isSome then some self.onLivenessTick
    else none
  | .settled task settled =>
    (self.joinTask task settled).map fun joined => joined.onHandlerSettled config task settled
  | .command =>
    self.commands.recv.map fun (command, commands) =>
      { self with commands }.onCommand command
  | .inbound call =>
    if self.freshCall call then
      self.inbound.recv.map fun (item, inbound) =>
        { self with inbound }.onInbound config item call
    else none
  | _ => none

def driverStep (config : Config) (self : Session H) (step : DriverStep) : Option (Session H) :=
  match self.phase with
  | .greeting =>
    match step with
    | .greet outcome => some (self.greet config outcome)
    | _ => none
  | .running => self.loopStep config step
  | .closing reason stage =>
    match step with
    | .teardown => self.advanceTeardown reason stage
    | .drain task settled => if stage = .draining then self.joinTask task settled else none
    | .finish => if stage = .draining then some (self.finish reason) else none
    | _ => none
  | .finished _ | .crashed => none

/-- One step of a session. -/
def step (config : Config) (self : Session H) : Label H → Option (Session H)
  | .api step => self.apiStep config step
  | .port step => self.portStep step
  | .driver step => self.driverStep config step

/-- The states a session can reach from the one it was opened in. -/
def Reachable (config : Config) (self : Session H) : Prop :=
  ∃ handlers labels, Machine.run (Session.step config) (initial handlers) labels = some self

end Session

/-! ### A small session -/

/-- The configuration of a session whose port takes frames of 4096 bytes. -/
def sampleConfig (frames : List Frame) : Config where
  platform := tablePlatform frames
  localPeer := ⟨"clock", "1.0.0", "runtime"⟩
  localProtocol := protocolVersion
  localCapabilities := .empty
  localMaxFrameBytes := 4096
  maxInFlight := defaultMaxInFlight
  maxStreamKeys := defaultMaxStreamKeys
  requestIdPrefix := defaultRequestIdPrefix
  handshakeTimeout := 15000
  livenessInterval := some 20000
  frameFloor := by decide
  frameWord := by decide
  inFlightFloor := by decide
  inFlightWord := by decide
  streamKeysFloor := by decide

def sampleHello : Hello := ⟨protocolVersion, ⟨"caller", "1.0.0", "runtime"⟩, .empty, none⟩

/-- A request to read the clock. -/
def clockRequest (id : String) : Request := ⟨id, "clock.read", .ofJson .null⟩

/-- The steps that make a session ready. -/
def greetingLabels : List (Label Unit) :=
  [.driver (.greet .sent), .port (.arrive (some (.frame (.hello sampleHello)))),
    .driver (.inbound (.future 0))]

example : ((Machine.run (Session.step (sampleConfig [])) (.initial []) greetingLabels).map
    fun session => session.shared.state) = some .ready := by decide +kernel

end MangoProtocol
