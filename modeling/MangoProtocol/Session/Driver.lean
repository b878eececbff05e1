import MangoProtocol.Session.Dispatch

/-! The driver: what each branch of its main loop does, the greeting before the loop and the
teardown after it. -/

namespace MangoProtocol

variable {H : Type}

/-- A code as a detail of an error. -/
def Value.code (code : UInt16) : Value := .u64 code.toUInt64

/-! ### The greeting -/

def buildHello (config : Config) : Hello where
  protocol := config.localProtocol
  peer := config.localPeer
  capabilities := config.localCapabilities
  limits :=
    let limits : Limits := {
      maxFrameBytes :=
        if config.localMaxFrameBytes < defaultMaxFrameBytes then
          some (UInt64.ofNat config.localMaxFrameBytes)
        else none
      maxInFlight :=
        if config.maxInFlight ≠ defaultMaxInFlight then some (UInt64.ofNat config.maxInFlight)
        else none }
    if limits = ⟨none, none⟩ then none else some limits

/-- Why the hello never reached the peer, or none when it went out. -/
def refusedHello : SendOutcome → Option RemoteError
  | .sent => none
  | .refused error =>
    some (.new codes.unavailable ("The transport refused the hello: " ++ error.toText))
  | .closed =>
    some (.new codes.unavailable "The transport refused the hello: the port is already closed")

namespace Session

/-- The start of `run`: the hello takes the preflight of every frame and is sent, with the outcome
that the port gives it. -/
def greet (config : Config) (self : Session H) (outcome : SendOutcome) : Session H :=
  let refusal :=
    match self.shared.assertFits config (.hello (buildHello config)) "The hello" with
    | .error error => some error
    | .ok () => refusedHello outcome
  match refusal with
  | some error =>
    { self with shared := self.shared.settleReady (.error error) }.breakLoop
      (.localClose closeCodes.released (some "hello could not be sent"))
  | none => { self with phase := .running }

/-! ### Branches of the main loop -/

/-- The writer reported a frame that never reached the peer; none is a writer that went away. -/
def onSendFailure (outcome : Option SendOutcome) : Teardown :=
  .localClose closeCodes.released (some (match outcome with
    | some (.refused error) => "the transport refused a frame: " ++ error.toText
    | some _ => "the transport is gone"
    | none => "the writer task ended"))

def onHandshakeTimeout (config : Config) (self : Session H) : Session H :=
  let millis := u64Saturating config.handshakeTimeout
  { self with shared := self.shared.settleReady (.error ((RemoteError.new codes.unavailable
      ("The peer did not send hello within " ++ millis.toNat.repr ++ "ms.")).withDetail
        "timeout_ms" (.u64 millis))) }.breakLoop
    (.localClose closeCodes.protocolError (some handshakeTimeoutReason))

/-- One liveness interval elapsed. -/
def onLivenessTick (self : Session H) : Session H :=
  if self.awaitingPong then
    self.breakLoop (.localClose closeCodes.released (some "liveness timeout"))
  else { self.enqueue .ping with awaitingPong := true }

def onHello (config : Config) (self : Session H) (hello : Hello) : Session H :=
  if self.shared.state ≠ .handshaking then
    self.breakLoop (.localClose closeCodes.protocolError (some "duplicate hello"))
  else
    match negotiate config.localProtocol hello.protocol with
    | .mismatch closeCode =>
      { self with shared := self.shared.settleReady (.error ((((RemoteError.new
          codes.protocolMismatch ("Peer \"" ++ hello.peer.name ++ "\" speaks wire major " ++
            hello.protocol.major.toNat.repr ++ "; this session speaks major " ++
            config.localProtocol.major.toNat.repr ++ ".")).withDetail
            "local_major" (.u64 config.localProtocol.major.toUInt64)).withDetail
            "remote_major" (.u64 hello.protocol.major.toUInt64)).withDetail
            "close_code" (.code closeCode))) }.breakLoop
        (.localClose closeCode (some "protocol version unsupported"))
    | .compatible effectiveMinor =>
      let remote : RemotePeer :=
        ⟨hello.peer, hello.protocol, hello.capabilities, hello.limits, effectiveMinor⟩
      let shared := { self.shared with state := .ready, remote := some remote }
      { self with shared := shared.settleReady (.ok remote) }

def sendReply (self : Session H) (index : Nat) (reply : Reply) : Session H :=
  { self with calls := self.calls.modify index fun call => { call with reply := some reply } }

/-- Settles an outbound request; an answer nobody waits for is ignored. -/
def onResponse (self : Session H) (id : String) (result : Except RemoteError Value) : Session H :=
  match self.pending.lookup id with
  | some request =>
    { self with pending := self.pending.erase id }.sendReply request.reply (.wire result)
  | none => self

/-- The error that an `err` frame carries. -/
def errorOf (payload : ErrorPayload) : RemoteError :=
  match payload.details with
  | some details => (RemoteError.new payload.code payload.message).withDetails details
  | none => .new payload.code payload.message

/-- Routes one inbound frame. -/
def onFrame (config : Config) (self : Session H) (frame : Frame) (call : HandlerCall) :
    Session H :=
  match frame with
  | .hello hello => self.onHello config hello
  | .close close => self.breakLoop (.peerFrame close.code close.reason)
  | .req request => self.onRequest config request call
  | .res response => self.onResponse response.id (.ok response.result)
  | .err error => self.onResponse error.id (.error (errorOf error.error))
  | .evt event => { self with shared := self.shared.fanOutEvent event }
  | .cancel cancel => self.onCancel cancel.id
  | .ping => self.enqueue .pong
  | .pong => { self with shared := self.shared.fanOutPong, awaitingPong := false }

/-- What `recv` returned: a frame, the closure of the port, or the end of its stream. -/
def onInbound (config : Config) (self : Session H) (item : Option Inbound) (call : HandlerCall) :
    Session H :=
  match item with
  | some (.frame frame) => self.onFrame config frame call
  | some (.closed closure) => self.breakLoop (.port closure)
  | none => self.breakLoop (.port (.closed none none))

def onCommand (self : Session H) : Command → Session H
  | .close code reason => self.breakLoop (.localClose code reason)
  | .request frame reply =>
    match frame with
    | .req request =>
      { self with pending := self.pending.insert request.id ⟨request.method, reply⟩ }.enqueue frame
    | _ => self.enqueue frame
  | .cancel id forget =>
    let kept := if forget then self else { self with pending := self.pending.erase id }
    kept.enqueue (.cancel ⟨id⟩)
  | .send frame => self.enqueue frame

end Session

end MangoProtocol
