import MangoProtocol.TypeScript.Chunk
import MangoProtocol.TypeScript.Port
import MangoProtocol.ProofKit.Machine

/-! The WebSocket port of the TypeScript package: a queue of messages that moves while the socket
takes them, a reassembler, frames and a closure held for a listener that comes late, and the
microtasks that deliver them.  Each function gives the port after it and what it did to the socket
and to the listeners, in order. -/

namespace MangoProtocol.TypeScript

open ProofKit

/-- What a socket did with one message. -/
inductive SendOutcome where
  | sent
  | buffered
  | dropped
  deriving DecidableEq, Repr

/-- The answers of a sink to the messages that one call hands it, in order.  A sink that answers
nothing sent the message. -/
abbrev Verdicts := List (Option SendOutcome)

def Verdicts.next (verdicts : Verdicts) : SendOutcome := verdicts.head?.join.getD .sent

/-- What the package does with a frame: its `type`, `assertFrame` and the bytes of
`JSON.stringify`, `JSON.parse` and `assertFrame` of a text and its length, and the `close` frame of
a code and a reason. -/
structure FrameFormat (φ : Type) where
  typeOf : φ → String
  serialise : φ → Except CodecError (List UInt8)
  parse : String → Nat → Except CodecError φ
  closeFrame : Nat → Option JsString → φ

structure AcceptOptions where
  origin : Option String
  allowedOrigins : List String

structure WebSocketPortOptions where
  maxFrameBytes : Option Nat := none
  maxMessageBytes : Option Nat := none
  sendCloseFrame : Option Bool := none
  accept : Option AcceptOptions := none

/-- The lowest limits that a port takes. -/
def smallOptions : WebSocketPortOptions where
  maxFrameBytes := some 4096
  maxMessageBytes := some 2048

def isOriginAllowed (origin : Option String) (allowed : List String) : Bool :=
  match origin with
  | none => true
  | some origin => allowed.contains origin

/-- An incoming message. -/
inductive WebSocketMessage where
  | text (text : JsString)
  | binary (bytes : List UInt8)

/-- What the port does to the outside: `sink.send`, `sink.close`, and the calls of the listeners. -/
inductive PortAction (φ : Type) where
  | handed (message : List UInt8)
  | hangUp (code : Nat) (reason : Option JsString)
  | frame (frame : φ)
  | closure (closure : PortClosure)

def maxCloseReasonBytes : Nat := 123

def dropToFit (text : JsString) : JsString :=
  if 0 < text.length ∧ maxCloseReasonBytes < (JsString.encode text).length then
    dropToFit text.dropLast
  else text
termination_by text.length
decreasing_by
  rw [List.length_dropLast]
  omega

/-- Cuts a close reason down to the bytes that a close frame of the socket carries. -/
def clampCloseReason (reason : Option JsString) : Option JsString :=
  reason.map fun reason =>
    if (JsString.encode reason).length ≤ maxCloseReasonBytes then reason
    else dropToFit (reason.take maxCloseReasonBytes)

/-- One connection's port.  It has one listener for frames and one for its closure at most. -/
structure WebSocketPort (φ : Type) where
  maxFrameBytes : Nat
  maxMessageBytes : Option Nat
  sendCloseFrame : Bool
  reassembler : ChunkReassembler
  frames : Bool
  closed : Bool
  queue : List (List UInt8)
  queuedBytes : Nat
  arrivals : List φ
  flushScheduled : Bool
  paused : Bool
  isOpen : Bool
  ownerClosed : Bool
  reported : Bool
  pendingClosure : Option PortClosure
  closureScheduled : Bool
  closeCode : Option Nat

theorem le_of_resolveFrameLimit {requested : Option Nat} {limit : Nat}
    (h : resolveFrameLimit requested = .ok limit) : minMaxFrameBytes ≤ limit :=
  (resolveIntegerAtLeast_ok h).2

namespace WebSocketPort

variable {φ : Type}

/-- The ceiling of a message. -/
def ceiling (self : WebSocketPort φ) : Nat := self.maxMessageBytes.getD defaultMaxMessageBytes

/-- The options of the constructor; a frame limit below the floor throws. -/
def new (options : WebSocketPortOptions) : Except Thrown (WebSocketPort φ) :=
  match h : resolveFrameLimit options.maxFrameBytes with
  | .error thrown => .error thrown
  | .ok limit => .ok {
      maxFrameBytes := limit
      maxMessageBytes := options.maxMessageBytes
      sendCloseFrame := options.sendCloseFrame.getD true
      reassembler := .new limit (le_of_resolveFrameLimit h)
      frames := false
      closed := false
      queue := []
      queuedBytes := 0
      arrivals := []
      flushScheduled := false
      paused := false
      isOpen := true
      ownerClosed := false
      reported := false
      pendingClosure := none
      closureScheduled := false
      closeCode := none }

def chunkOptions (self : WebSocketPort φ) : ChunkOptions :=
  ⟨self.maxMessageBytes, some self.maxFrameBytes⟩

def state (self : WebSocketPort φ) : String :=
  if self.isOpen then "open"
  else
    match self.closeCode with
    | none => "closed"
    | some code => "closed with code " ++ code.repr

/-! ### The end of the port -/

def shutdown (self : WebSocketPort φ) (code : Option Nat) : WebSocketPort φ :=
  if ¬self.isOpen then self
  else
    { self with
      isOpen := false, paused := false, queue := [], queuedBytes := 0, arrivals := [],
      closeCode := code, reassembler := self.reassembler.reset, frames := false }

/-- At most one closure, and none for a close that this side asked for.  A closure that nobody
listens to is held. -/
def report (self : WebSocketPort φ) (closure : PortClosure) :
    WebSocketPort φ × List (PortAction φ) :=
  if self.reported ∨ self.ownerClosed then (self, [])
  else if ¬self.closed then
    ({ self with pendingClosure := self.pendingClosure.or (some closure) }, [])
  else
    ({ self with reported := true, pendingClosure := none, closed := false }, [.closure closure])

def scheduleClosure (self : WebSocketPort φ) : WebSocketPort φ :=
  if self.closureScheduled ∨ self.pendingClosure = none ∨ ¬self.closed then self
  else { self with closureScheduled := true }

def deliverClosure (self : WebSocketPort φ) : WebSocketPort φ × List (PortAction φ) :=
  let started := { self with closureScheduled := false }
  match self.pendingClosure with
  | none => (started, [])
  | some closure => { started with pendingClosure := none }.report closure

def failSend (self : WebSocketPort φ) (reason : JsString) :
    WebSocketPort φ × List (PortAction φ) :=
  let reported := (self.shutdown (some closeCodes.protocolError)).report
    (.closed (some closeCodes.protocolError) (some reason))
  (reported.1,
    reported.2 ++ [.hangUp closeCodes.protocolError (clampCloseReason (some reason))])

/-- A record that the decoder refused. -/
def failReceive (self : WebSocketPort φ) (error : CodecError) :
    WebSocketPort φ × List (PortAction φ) :=
  let code := closeCodeForCodecError error
  let reported := (self.shutdown (some code)).report (.protocolError error code)
  (reported.1,
    reported.2 ++ [.hangUp code (clampCloseReason (some (js error.message)))])

def originNotAllowed : JsString := js "origin not allowed"

/-- Refuses the port before it sends anything. -/
def refuseOrigin (self : WebSocketPort φ) : WebSocketPort φ × List (PortAction φ) :=
  let reported := (self.shutdown (some closeCodes.forbidden)).report
    (.closed (some closeCodes.forbidden) (some originNotAllowed))
  (reported.1, .hangUp closeCodes.forbidden (some originNotAllowed) :: reported.2)

/-! ### The queue -/

/-- Where the loop of `#flush` stopped: the queue ran empty, the socket buffered a message, or it
dropped one. -/
inductive Stop where
  | empty
  | buffered
  | dropped (message : List UInt8)
  deriving DecidableEq, Repr

/-- What the loop of `#flush` handed to the socket and left in the queue. -/
structure Pumped where
  handed : List (List UInt8)
  queue : List (List UInt8)
  queuedBytes : Nat
  stop : Stop
  deriving DecidableEq, Repr

/-- The loop of `#flush`. -/
def pump (queuedBytes : Nat) : List (List UInt8) → Verdicts → Pumped
  | [], _ => ⟨[], [], queuedBytes, .empty⟩
  | message :: queue, verdicts =>
    match verdicts.next with
    | .dropped => ⟨[message], message :: queue, queuedBytes, .dropped message⟩
    | .buffered => ⟨[message], queue, queuedBytes - message.length, .buffered⟩
    | .sent =>
      let after := pump (queuedBytes - message.length) queue verdicts.tail
      { after with handed := message :: after.handed }

def droppedReason (message : List UInt8) : JsString :=
  js ("the socket dropped a " ++ message.length.repr ++
    "-byte chunk; expected it to be sent or buffered")

def stalledReason (queuedBytes maxFrameBytes : Nat) : JsString :=
  js ("the send queue holds " ++ queuedBytes.repr ++
    " bytes while the socket is not draining; expected at most " ++ maxFrameBytes.repr)

/-- What `#flush` does after its loop. -/
def checkStalled (self : WebSocketPort φ) : WebSocketPort φ × List (PortAction φ) :=
  if self.paused ∧ self.maxFrameBytes < self.queuedBytes then
    self.failSend (stalledReason self.queuedBytes self.maxFrameBytes)
  else (self, [])

def flush (self : WebSocketPort φ) (verdicts : Verdicts) : WebSocketPort φ × List (PortAction φ) :=
  if self.isOpen ∧ ¬self.paused then
    let pumped := pump self.queuedBytes self.queue verdicts
    let moved := { self with queue := pumped.queue, queuedBytes := pumped.queuedBytes }
    let after :=
      match pumped.stop with
      | .empty => (moved, [])
      | .dropped message => moved.failSend (droppedReason message)
      | .buffered => { moved with paused := true }.checkStalled
    (after.1, pumped.handed.map .handed ++ after.2)
  else self.checkStalled

/-- Appends the messages of one frame and hands the socket as many as it takes. -/
def enqueue (self : WebSocketPort φ) (messages : List (List UInt8)) (verdicts : Verdicts) :
    WebSocketPort φ × List (PortAction φ) :=
  { self with
    queue := self.queue ++ messages
    queuedBytes := self.queuedBytes + (messages.map List.length).sum
  }.flush verdicts

def receiveDrain (self : WebSocketPort φ) (verdicts : Verdicts) :
    WebSocketPort φ × List (PortAction φ) :=
  if ¬self.isOpen ∨ ¬self.paused then (self, [])
  else { self with paused := false }.flush verdicts

/-! ### Frames for the listener -/

def scheduleArrivals (self : WebSocketPort φ) : WebSocketPort φ :=
  if self.flushScheduled ∨ ¬self.frames ∨ self.arrivals.length = 0 then self
  else { self with flushScheduled := true }

def deliver (self : WebSocketPort φ) (frame : φ) : WebSocketPort φ × List (PortAction φ) :=
  if self.frames ∧ self.arrivals.length = 0 then (self, [.frame frame])
  else ({ self with arrivals := self.arrivals ++ [frame] }.scheduleArrivals, [])

def startArrivals (self : WebSocketPort φ) : WebSocketPort φ :=
  { self with flushScheduled := false }

/-- One turn of the loop of that microtask; nothing when the loop ends. -/
def nextArrival (self : WebSocketPort φ) : Option (WebSocketPort φ × List (PortAction φ)) :=
  if ¬self.frames then none
  else
    match self.arrivals with
    | [] => none
    | frame :: arrivals => some ({ self with arrivals }, [.frame frame])

def onFrame (self : WebSocketPort φ) : WebSocketPort φ :=
  { self with frames := true }.scheduleArrivals

def onClosed (self : WebSocketPort φ) : WebSocketPort φ :=
  { self with closed := true }.scheduleClosure

def detachFrames (self : WebSocketPort φ) : WebSocketPort φ := { self with frames := false }

def detachClosed (self : WebSocketPort φ) : WebSocketPort φ := { self with closed := false }

/-! ### Calls -/

section Format

variable (format : FrameFormat φ)

/-- The messages of a frame. -/
def encode (self : WebSocketPort φ) (frame : φ) : Except Thrown (List (List UInt8)) :=
  encodeChunks format.serialise frame self.chunkOptions

def send (self : WebSocketPort φ) (frame : φ) (verdicts : Verdicts) :
    Except PortThrown (WebSocketPort φ × List (PortAction φ)) :=
  if ¬self.isOpen then
    .error (.closed (js ("WebSocket port is " ++ self.state ++
      "; expected an open port to send a " ++ format.typeOf frame ++ " frame.")))
  else
    match self.encode format frame with
    | .error thrown => .error (.encode thrown)
    | .ok messages => .ok (self.enqueue messages verdicts)

def farewell (self : WebSocketPort φ) (code : Nat) (reason : Option JsString) :
    Option (List (List UInt8)) :=
  if ¬isCloseCode code then none
  else (self.encode format (format.closeFrame code reason)).toOption

def sendFarewell (self : WebSocketPort φ) (code : Nat) (reason : Option JsString)
    (verdicts : Verdicts) : WebSocketPort φ × List (PortAction φ) :=
  match self.farewell format code reason with
  | none => (self, [])
  | some messages => self.enqueue messages verdicts

def takeLeave (self : WebSocketPort φ) (code : Nat) (reason : Option JsString)
    (verdicts : Verdicts) : WebSocketPort φ × List (PortAction φ) :=
  let owned := { self with ownerClosed := true }
  if self.sendCloseFrame then owned.sendFarewell format code reason verdicts else (owned, [])

def close (self : WebSocketPort φ) (code : Nat) (reason : Option JsString) (verdicts : Verdicts) :
    WebSocketPort φ × List (PortAction φ) :=
  if ¬self.isOpen then (self, [])
  else
    let parted := self.takeLeave format code reason verdicts
    if ¬parted.1.isOpen then parted
    else (parted.1.shutdown (some code), parted.2 ++ [.hangUp code (clampCloseReason reason)])

def textRefusal (text : JsString) : CodecError :=
  ⟨.schema, "message is text of " ++ text.length.repr ++
    " characters; expected a binary message, the only kind mango.v1 carries", none⟩

def receiveMessage (self : WebSocketPort φ) (message : WebSocketMessage) :
    WebSocketPort φ × List (PortAction φ) :=
  if ¬self.isOpen then (self, [])
  else
    match message with
    | .text text => self.failReceive (textRefusal text)
    | .binary bytes =>
      let pushed := self.reassembler.push (decodeLine format.parse) bytes
      let fed := { self with reassembler := pushed.1 }
      match pushed.2 with
      | .error error => fed.failReceive error
      | .ok none => (fed, [])
      | .ok (some frame) => fed.deliver frame

end Format

def receiveClose (self : WebSocketPort φ) (code : Nat) (reason : Option JsString) :
    WebSocketPort φ × List (PortAction φ) :=
  let ended := self.shutdown (some code)
  if ¬isCloseCode code then ended.report (.closed none none)
  else ended.report (.closed (some code) (if reason = some [] then none else reason))

/-- The socket failed. -/
def receiveError (self : WebSocketPort φ) (message : JsString) :
    WebSocketPort φ × List (PortAction φ) :=
  (self.shutdown none).report (.closed none (some message))

end WebSocketPort

/-- Builds a port, which closes at once when its acceptor does not admit the origin. -/
def createWebSocketPort {φ : Type} (options : WebSocketPortOptions) :
    Except Thrown (WebSocketPort φ × List (PortAction φ)) := do
  let port ← WebSocketPort.new options
  match options.accept with
  | none => return (port, [])
  | some accept =>
    if ¬isOriginAllowed accept.origin accept.allowedOrigins then return port.refuseOrigin
    else return (port, [])

end MangoProtocol.TypeScript
