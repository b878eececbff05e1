import MangoProtocol.Session.State

/-! Inbound requests: the five refusal checks, spawning a handler, and turning what it produced into
a frame. -/

namespace MangoProtocol

variable {H : Type}

def errorFrame (id : String) (error : RemoteError) : Frame :=
  .err ⟨id, ⟨error.code, error.message, error.details⟩⟩

/-! ### Refusals -/

def notReadyRefusal : RemoteError :=
  .new codes.unavailable ("The session handshake has not completed; requests are refused until " ++
    "both hellos have crossed.")

def inFlightRefusal (limit : Nat) (method : String) : RemoteError :=
  (((RemoteError.new codes.unavailable ("This peer is already answering " ++ limit.repr ++
    " requests; retry \"" ++ method ++ "\" once one of yours has settled.")).withDetail
      "kind" (.string inFlightLimitKind)).withDetail
      "limit" (.u64 (u64Saturating limit))).withDetail
      "method" (.string method)

def duplicateRefusal (id : String) : RemoteError :=
  (RemoteError.new codes.invalidRequest ("Request id \"" ++ id ++
    "\" is already in flight; expected an id unique among the sender's pending requests.")
    ).withDetail "id" (.string id)

def reservedRefusal (method : String) (effectiveMinor : UInt32) : RemoteError :=
  ((RemoteError.new codes.invalidRequest ("Method \"" ++ method ++
    "\" is reserved; the rpc. segment belongs to the protocol and defines no such method at " ++
    "wire minor " ++ effectiveMinor.toNat.repr ++ ".")).withDetail
      "method" (.string method)).withDetail
      "effectiveMinor" (.u64 effectiveMinor.toUInt64)

def unsupportedRefusal (method : String) : RemoteError :=
  (RemoteError.new codes.methodUnsupported ("Method \"" ++ method ++
    "\" has no handler on this peer.")).withDetail "method" (.string method)

/-- What the checks on an inbound request decide. -/
inductive Verdict (H : Type) where
  | refuse (error : RemoteError)
  | accept (handler : H)

/-- The peer of a ready session. -/
def Shared.readyRemote (self : Shared H) : Option RemotePeer :=
  if self.state = .ready then self.remote else none

namespace Session

def judgeRequest (config : Config) (self : Session H) (request : Request) : Verdict H :=
  match self.shared.readyRemote with
  | none => .refuse notReadyRefusal
  | some remote =>
    if config.maxInFlight ≤ self.tracking.active.entries.length then
      .refuse (inFlightRefusal config.maxInFlight request.method)
    else if request.id ∈ self.tracking.active then .refuse (duplicateRefusal request.id)
    else if isReservedMethodName request.method ∧
        ¬isDefinedReservedMethod request.method remote.effectiveMinor then
      .refuse (reservedRefusal request.method remote.effectiveMinor)
    else
      match self.shared.handlers.lookup request.method with
      | some (_, handler) => .accept handler
      | none => .refuse (unsupportedRefusal request.method)

/-! ### Answers -/

/-- Answers a request with an error.  The frame goes to the writer as it is. -/
def respondError (self : Session H) (id : String) (error : RemoteError) : Session H :=
  { self.enqueue (errorFrame id error) with produced := self.produced ++ [(id, .error error)] }

def respondResult (config : Config) (self : Session H) (method id : String) (value : Value) :
    Session H :=
  let frame : Frame := .res ⟨id, value⟩
  match self.shared.assertFits config frame ("The result of \"" ++ method ++ "\"") with
  | .ok () => { self.enqueue frame with produced := self.produced ++ [(id, .ok value)] }
  | .error error => self.respondError id error

/-! ### A request arrives -/

/-- Counts the request, calls the handler and spawns its future.  A handler that panics before it
returns a future unwinds the driver from here, with the request counted and in neither map. -/
def spawnHandler (self : Session H) (request : Request) (handler : H) (call : HandlerCall) :
    Session H :=
  let counted := { self with shared := { self.shared with inFlight := self.shared.inFlight + 1 } }
  match call with
  | .panic => { counted with phase := .crashed }
  | .future task =>
    let invocation : Invocation H := ⟨task, request.id, request.method, request.params, handler⟩
    { counted with
      tracking := {
        tasks := self.tracking.tasks.insert task invocation
        active := self.tracking.active.insert request.id ⟨false, request.method⟩
        byTaskId := self.tracking.byTaskId.insert task request.id }
      started := self.started ++ [invocation] }

def onRequest (config : Config) (self : Session H) (request : Request) (call : HandlerCall) :
    Session H :=
  match self.judgeRequest config request with
  | .refuse error => self.respondError request.id error
  | .accept handler => self.spawnHandler request handler call

def onCancel (self : Session H) (id : String) : Session H :=
  match self.tracking.active.lookup id with
  | some request =>
    { self with tracking := { self.tracking with
        active := self.tracking.active.replace id { request with cancelled := true } } }
  | none => self

/-! ### A handler settles -/

def panicMessage : PanicPayload → String
  | .str message | .string message => message
  | .other => "The handler panicked."

/-- The outcome of a joined task. -/
def outcomeOf : Settled → Except RemoteError Value
  | .returned outcome => outcome
  | .panicked payload => .error (.new codes.internal (panicMessage payload))
  | .aborted =>
    .error (.new codes.internal "The handler task was aborted before it could settle.")

/-- `fetch_sub(1)` on a `usize`. -/
def fetchSub (n : Nat) : Nat := if n = 0 then usizeMax else n - 1

def onHandlerSettled (config : Config) (self : Session H) (task : TaskId) (settled : Settled) :
    Session H :=
  let counted := { self with
    shared := { self.shared with inFlight := fetchSub self.shared.inFlight } }
  match self.tracking.byTaskId.lookup task with
  | none => counted
  | some id =>
    let released := { counted with tracking := { counted.tracking with
      byTaskId := self.tracking.byTaskId.erase task } }
    match self.tracking.active.lookup id with
    | none => released
    | some request =>
      let cleared := { released with tracking := { released.tracking with
        active := self.tracking.active.erase id } }
      match outcomeOf settled with
      | .ok value => cleared.respondResult config request.method id value
      | .error error => cleared.respondError id error

/-- The session once the request of a joined task is no longer counted and in neither map. -/
def release (self : Session H) (task : TaskId) (id : String) : Session H :=
  { self with
    shared := { self.shared with inFlight := fetchSub self.shared.inFlight }
    tracking := { self.tracking with
      active := self.tracking.active.erase id
      byTaskId := self.tracking.byTaskId.erase task } }

theorem onHandlerSettled_eq (self : Session H) (config : Config) {task : TaskId} {id : String}
    {request : ActiveRequest} (settled : Settled)
    (ht : self.tracking.byTaskId.lookup task = some id)
    (ha : self.tracking.active.lookup id = some request) :
    self.onHandlerSettled config task settled =
      match outcomeOf settled with
      | .ok value => (self.release task id).respondResult config request.method id value
      | .error error => (self.release task id).respondError id error := by
  simp only [onHandlerSettled, ht, ha]
  rfl

/-- `join_next_with_id` yields a task, which leaves the set before it is handled. -/
def joinTask (self : Session H) (task : TaskId) (settled : Settled) : Option (Session H) :=
  match self.tracking.tasks.lookup task with
  | none => none
  | some invocation => some { self with
      tracking := { self.tracking with tasks := self.tracking.tasks.erase task }
      finished := self.finished ++ [(invocation, settled)] }

end Session

end MangoProtocol
