import MangoProtocol.Session.Shared
import MangoProtocol.ProofKit.Channel

/-! The state of one session: what it shares with its handles, the driver's own maps and queues, the
port, and the calls of `request_with` that are under way.  The last three fields are histories that
no step reads. -/

namespace MangoProtocol

open ProofKit

/-! ### The port -/

inductive PortClosure where
  | closed (code : Option UInt16) (reason : Option String)
  | protocolError (error : CodecError) (code : UInt16)
  deriving DecidableEq

/-- What the receive half of a port yields. -/
inductive Inbound where
  | frame (frame : Frame)
  | closed (closure : PortClosure)

inductive SendOutcome where
  | sent
  | closed
  | refused (error : CodecError)
  deriving DecidableEq

/-! ### Answering requests -/

/-- The id of a spawned task, unique among the tasks that have not been joined. -/
abbrev TaskId := Nat

/-- One request this session is answering; `cancelled` is the state of its token. -/
structure ActiveRequest where
  cancelled : Bool
  method : String

/-- One call of a handler. -/
structure Invocation (H : Type) where
  task : TaskId
  id : String
  method : String
  params : Value
  handler : H

inductive PanicPayload where
  | str (message : String)
  | string (message : String)
  | other

/-- What a joined task produced: what its handler returned, or why it did not return. -/
inductive Settled where
  | returned (outcome : Except RemoteError Value)
  | panicked (payload : PanicPayload)
  | aborted

inductive HandlerCall where
  | future (task : TaskId)
  | panic
  deriving DecidableEq

/-- The bookkeeping of the requests being answered. -/
structure RequestTracking (H : Type) where
  tasks : Table TaskId (Invocation H)
  active : Table String ActiveRequest
  byTaskId : Table TaskId String

/-! ### Sending requests -/

/-- An outbound request that waits for its answer; `reply` names the call that waits. -/
structure PendingRequest where
  method : String
  reply : Nat

inductive Command where
  | close (code : UInt16) (reason : Option String)
  | request (frame : Frame) (reply : Nat)
  | cancel (id : String) (forget : Bool)
  | send (frame : Frame)

structure RequestOptions where
  cancel : Bool
  timeout : Option Nat

/-- What is sent on the reply channel of a call: an answer of the peer, or the failure that a
teardown puts in its place. -/
inductive Reply where
  | wire (result : Except RemoteError Value)
  | teardown (error : RemoteError)

/-- How a call ended: with what it was sent, or with an error it made itself. -/
inductive CallResult where
  | replied (id : String) (reply : Reply)
  | failed (error : RemoteError)

/-- Where a call of `request_with` is.  Each constructor is the state between two accesses to
something shared. -/
inductive CallStage where
  | awaitingReady
  | resumed (remote : RemotePeer)
  | checked
  | numbered (id : String)
  | fitted (id : String)
  | waiting (id : String) (cancelSent : Bool)
  /-- The reply channel was polled and found empty; the later branches of the same poll follow. -/
  | polled (id : String) (cancelSent : Bool)
  | done (result : CallResult)
  | dropped

structure Call where
  method : String
  params : Value
  options : RequestOptions
  stage : CallStage
  reply : Option Reply

/-! ### The driver -/

/-- Why the main loop ended. -/
inductive Teardown where
  | localClose (code : UInt16) (reason : Option String)
  | peerFrame (code : UInt16) (reason : Option String)
  | port (closure : PortClosure)
  deriving DecidableEq

/-- The steps of a teardown that other tasks can observe between. -/
inductive TeardownStage where
  | marking
  | flushing
  | settling
  | failing
  | draining
  deriving DecidableEq

/-- Where `SessionDriver::run` is. -/
inductive Phase where
  | greeting
  | running
  | closing (reason : Teardown) (stage : TeardownStage)
  | finished (closure : SessionClosure)
  | crashed
  deriving DecidableEq

structure Session (H : Type) where
  shared : Shared H
  commands : Channel Command
  pending : Table String PendingRequest
  tracking : RequestTracking H
  awaitingPong : Bool
  writer : Channel Frame
  sendFailure : Option SendOutcome
  inbound : Channel (Option Inbound)
  phase : Phase
  calls : List Call
  started : List (Invocation H)
  finished : List (Invocation H × Settled)
  produced : List (String × Except RemoteError Value)

namespace Session

variable {H : Type}

/-- A session as it was opened, over a port that has delivered nothing yet. -/
def initial (handlers : List (String × H)) : Session H where
  shared := .initial handlers
  commands := .empty
  pending := ∅
  tracking := ⟨∅, ∅, ∅⟩
  awaitingPong := false
  writer := .empty
  sendFailure := none
  inbound := .empty
  phase := .greeting
  calls := []
  started := []
  finished := []
  produced := []

/-- Queues a frame for the writer. -/
def enqueue (self : Session H) (frame : Frame) : Session H :=
  { self with writer := self.writer.send frame }

/-- Ends the main loop. -/
def breakLoop (self : Session H) (reason : Teardown) : Session H :=
  { self with phase := .closing reason .marking }

def commandsOpen (self : Session H) : Bool :=
  match self.phase with
  | .finished _ | .crashed => false
  | _ => true

def command (self : Session H) (command : Command) : Session H :=
  if self.commandsOpen then { self with commands := self.commands.send command } else self

end Session

end MangoProtocol
