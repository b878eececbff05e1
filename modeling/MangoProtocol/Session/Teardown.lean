import MangoProtocol.Session.Driver

/-! The teardown that every path of the driver ends in. -/

namespace MangoProtocol

open ProofKit

variable {H : Type}

namespace Teardown

def code : Teardown → UInt16
  | .localClose code _ | .peerFrame code _ | .port (.protocolError _ code) => code
  | .port (.closed code _) => code.getD closeCodes.released

def reasonText : Teardown → Option String
  | .localClose _ reason | .peerFrame _ reason | .port (.closed _ reason) => reason
  | .port (.protocolError error _) => some error.toText

def error : Teardown → Option CodecError
  | .port (.protocolError error _) => some error
  | _ => none

def why (self : Teardown) : String :=
  self.code.toNat.repr ++ (match self.reasonText with
    | some text => ": " ++ text
    | none => "")

def readyFailure (self : Teardown) : RemoteError :=
  let readyCode :=
    if self.code = closeCodes.protocolMismatch then codes.protocolMismatch else codes.unavailable
  (RemoteError.new readyCode ("The session closed before the handshake completed (" ++ self.why ++
    ").")).withDetail "close_code" (.code self.code)

def pendingFailure (self : Teardown) (id method : String) : RemoteError :=
  (((RemoteError.new codes.unavailable ("Request \"" ++ method ++
    "\" cannot complete: the session is closed (" ++ self.why ++ ").")).withDetail
      "method" (.string method)).withDetail
      "id" (.string id)).withDetail
      "close_code" (.code self.code)

def closure (self : Teardown) (unfinishedHandlers : Nat) : SessionClosure where
  code := self.code
  reason := self.reasonText
  fatal := isFatalCloseCode self.code
  error := self.error
  unfinishedHandlers := unfinishedHandlers

end Teardown

namespace Session

/-- Fails every pending request. -/
def failPending (self : Session H) (reason : Teardown) : Session H :=
  self.pending.entries.foldl
    (fun session entry => session.sendReply entry.2.reply
      (.teardown (reason.pendingFailure entry.1 entry.2.method)))
    { self with pending := ∅ }

/-- One step of the teardown before it waits for the handlers.  Flushing ends when the writer has
nothing left to send. -/
def advanceTeardown (self : Session H) (reason : Teardown) : TeardownStage → Option (Session H)
  | .marking => some { self with
      shared := { self.shared with state := .closed }
      phase := .closing reason .flushing }
  | .flushing =>
    if self.writer.waiting.isEmpty then some { self with phase := .closing reason .settling }
    else none
  | .settling => some { self with
      shared := self.shared.settleReady (.error reason.readyFailure)
      phase := .closing reason .failing }
  | .failing =>
    let failed := self.failPending reason
    some { failed with
      tracking := { failed.tracking with active := ∅ }
      shared := { failed.shared with
        eventSequences := ∅, eventSubscribers := [], pongSubscribers := [] }
      phase := .closing reason .draining }
  | .draining => none

/-- The end of the teardown: every handler has settled, or the grace is over. -/
def finish (self : Session H) (reason : Teardown) : Session H :=
  let closure := reason.closure self.tracking.tasks.entries.length
  { self with shared := { self.shared with closure := some closure }, phase := .finished closure }

end Session

end MangoProtocol
