import MangoProtocol.Session.Teardown

/-! What a caller does through a handle: requests, events, pings, closing, and the registration of
handlers.  A call of `request_with` takes one step for each access to something shared. -/

namespace MangoProtocol

open ProofKit

variable {H : Type}

/-! ### Errors of a call -/

def invalidMethodError (method : String) : RemoteError :=
  .new codes.invalidRequest ("Method \"" ++ method ++
    "\" is not a valid, unreserved method name; expected two or more dot-separated lowercase " ++
    "segments outside rpc.")

def undefinedMethodError (method : String) (effectiveMinor : UInt32) : RemoteError :=
  ((RemoteError.new codes.invalidRequest ("Method \"" ++ method ++
    "\" is defined from wire minor " ++ rpcDiscoverMinor.toNat.repr ++
    "; this session negotiated minor " ++ effectiveMinor.toNat.repr ++ ".")).withDetail
      "method" (.string method)).withDetail
      "effectiveMinor" (.u64 effectiveMinor.toUInt64)

def driverGoneError (method : String) : RemoteError :=
  .new codes.unavailable ("Request \"" ++ method ++
    "\" could not be sent: the session driver is gone.")

def timeoutError (method : String) (timeout : Nat) : RemoteError :=
  ((RemoteError.new codes.timeout ("Request \"" ++ method ++ "\" timed out after " ++
    timeout.repr ++ "ms.")).withDetail
      "method" (.string method)).withDetail
      "timeout_ms" (.u64 (u64Saturating timeout))

/-- The error of a call on a closed session. -/
def Shared.unavailable (self : Shared H) (method : String) : RemoteError :=
  let why := match self.closure with
    | some closure => " (closed with " ++ closure.code.toNat.repr ++ (match closure.reason with
        | some reason => ": " ++ reason
        | none => "") ++ ")"
    | none => ""
  let error := (RemoteError.new codes.unavailable ("Request \"" ++ method ++
    "\" cannot complete: the session is closed" ++ why ++ ".")).withDetail
      "method" (.string method)
  match self.closure with
  | some closure => error.withDetail "close_code" (.code closure.code)
  | none => error

/-- The request that a call sends under an id. -/
def Call.request (call : Call) (id : String) : Request := ⟨id, call.method, call.params⟩

namespace Session

/-! ### Requests -/

/-- Moves a call on. -/
def setStage (self : Session H) (index : Nat) (stage : CallStage) : Session H :=
  { self with calls := self.calls.modify index fun call => { call with stage } }

def startCall (self : Session H) (method : String) (params : Value) (options : RequestOptions) :
    Session H :=
  let refused := !isValidMethodName method ||
    (isReservedMethodName method && !isDefinedReservedMethod method protocolVersion.minor)
  let stage : CallStage :=
    if refused then .done (.failed (invalidMethodError method)) else .awaitingReady
  { self with calls := self.calls ++ [⟨method, params, options, stage, none⟩] }

/-- The next step of a call up to the point where it waits for its reply. -/
def advanceCall (config : Config) (self : Session H) (index : Nat) (call : Call) :
    Option (Session H) :=
  match call.stage with
  | .awaitingReady =>
    match self.shared.ready with
    | none => none
    | some (.error error) => some (self.setStage index (.done (.failed error)))
    | some (.ok remote) => some (self.setStage index (.resumed remote))
  | .resumed remote =>
    if isReservedMethodName call.method ∧
        ¬isDefinedReservedMethod call.method remote.effectiveMinor then
      some (self.setStage index
        (.done (.failed (undefinedMethodError call.method remote.effectiveMinor))))
    else if self.shared.state = .closed then
      some (self.setStage index (.done (.failed (self.shared.unavailable call.method))))
    else some (self.setStage index .checked)
  | .checked =>
    let counted := { self with
      shared := { self.shared with requestSequence := self.shared.requestSequence + 1 } }
    some (counted.setStage index (.numbered (self.shared.nextRequestId config)))
  | .numbered id =>
    match self.shared.assertFits config (.req (call.request id))
        ("Request \"" ++ call.method ++ "\"") with
    | .ok () => some (self.setStage index (.fitted id))
    | .error error => some (self.setStage index (.done (.failed error)))
  | .fitted id =>
    if self.commandsOpen then
      some ((self.command (.request (.req (call.request id)) index)).setStage index
        (.waiting id false))
    else some (self.setStage index (.done (.failed (driverGoneError call.method))))
  | _ => none

/-- A call that waits takes its reply. -/
def takeReply (self : Session H) (index : Nat) (call : Call) : Option (Session H) :=
  match call.stage, call.reply with
  | .waiting id _, some reply => some (self.setStage index (.done (.replied id reply)))
  | _, _ => none

/-- A call whose reply can no longer come: the driver is gone and took its commands with it. -/
def abandonCall (self : Session H) (index : Nat) (call : Call) : Option (Session H) :=
  match call.stage, call.reply with
  | .waiting _ _, none =>
    if self.commandsOpen then none
    else some (self.setStage index (.done (.failed (self.shared.unavailable call.method))))
  | _, _ => none

def pollCall (self : Session H) (index : Nat) (call : Call) : Option (Session H) :=
  match call.stage, call.reply with
  | .waiting id cancelSent, none =>
    if self.commandsOpen then some (self.setStage index (.polled id cancelSent)) else none
  | _, _ => none

def parkCall (self : Session H) (index : Nat) (call : Call) : Option (Session H) :=
  match call.stage with
  | .polled id cancelSent => some (self.setStage index (.waiting id cancelSent))
  | _ => none

/-- The cancel token of a call fires: the peer is told, once, and the call waits on. -/
def cancelCall (self : Session H) (index : Nat) (call : Call) : Option (Session H) :=
  match call.stage with
  | .polled id false =>
    if call.options.cancel then
      some ((self.command (.cancel id true)).setStage index (.waiting id true))
    else none
  | _ => none

/-- The deadline of a call passes. -/
def timeoutCall (self : Session H) (index : Nat) (call : Call) : Option (Session H) :=
  match call.stage, call.options.timeout with
  | .polled id _, some timeout =>
    some ((self.command (.cancel id false)).setStage index
      (.done (.failed (timeoutError call.method timeout))))
  | _, _ => none

def dropCall (self : Session H) (index : Nat) (call : Call) : Option (Session H) :=
  match call.stage with
  | .awaitingReady => some (self.setStage index .dropped)
  | .waiting id _ => some ((self.command (.cancel id false)).setStage index .dropped)
  | _ => none

/-! ### Events -/

structure EventInput where
  topic : String
  payload : Value
  streamId : Option String
  ends : Bool

/-- The stream key of an event. -/
def EventInput.key (self : EventInput) : String := self.streamId.getD self.topic

def EventInput.numbered (self : EventInput) (seq : Nat) : Event :=
  ⟨self.topic, UInt64.ofNat seq, self.streamId, self.payload,
    if self.ends then some End.mk else none⟩

/-- The error of a key past the limit. -/
def streamKeyLimitError (limit : Nat) (key : String) : RemoteError :=
  (((RemoteError.new codes.unavailable ("Stream key \"" ++ key ++
    "\" would be one past the " ++ limit.repr ++
    " this session emits on at once. End a stream before starting another.")).withDetail
      "kind" (.string streamKeyLimitKind)).withDetail
      "key" (.string key)).withDetail
      "limit" (.u64 (u64Saturating limit))

def measureEvent (config : Config) (self : Session H) (event : EventInput) :
    Except RemoteError Nat :=
  let sequences := self.shared.eventSequences
  if event.key ∉ sequences ∧ config.maxStreamKeys ≤ sequences.entries.length then
    .error (streamKeyLimitError config.maxStreamKeys event.key)
  else
    let seq := (sequences.lookup event.key).getD 0
    match self.shared.assertFits config (.evt (event.numbered seq))
        ("Event \"" ++ event.topic ++ "\"") with
    | .error error => .error error
    | .ok () => .ok seq

def EventInput.commit (event : EventInput) (seq : Nat) (sequences : Table String Nat) :
    Table String Nat :=
  if event.ends then sequences.erase event.key else sequences.insert event.key (seq + 1)

def commitEvent (self : Session H) (event : EventInput) (seq : Nat) : Session H :=
  { self with shared := { self.shared with
      eventSequences := event.commit seq self.shared.eventSequences } }

/-- The part of `emit` that runs under the lock of the sequences, after the state was read. -/
def emitLocked (config : Config) (self : Session H) (event : EventInput) :
    Session H × Except RemoteError Bool :=
  match self.measureEvent config event with
  | .error error => (self, .error error)
  | .ok seq =>
    if self.commandsOpen then
      ((self.command (.send (.evt (event.numbered seq)))).commitEvent event seq, .ok true)
    else (self, .ok false)

def emit (config : Config) (self : Session H) (event : EventInput) :
    Session H × Except RemoteError Bool :=
  if self.shared.state ≠ .ready then (self, .ok false) else self.emitLocked config event

def ping (self : Session H) : Session H := self.command (.send .ping)

def closeNow (self : Session H) (code : UInt16) (reason : Option String) : Session H :=
  self.command (.close code reason)

end Session

end MangoProtocol
