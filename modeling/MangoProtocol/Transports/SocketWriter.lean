import MangoProtocol.Codec.CharBoundary
import MangoProtocol.Codec.Chunk
import MangoProtocol.ProofKit.Channel
import MangoProtocol.ProofKit.Machine
import MangoProtocol.Session.State
import MangoProtocol.Transports.SharedWriter

/-! The send half of a WebSocket port: the calls that queue frames and closes, and the writer task
that owns the socket.  They share a queue, a counter and three flags, and a step is one access to
one of these, or one answer of the socket. -/

namespace MangoProtocol

open ProofKit

def stalledQueueReason : String :=
  "the send queue outgrew one frame limit while the socket was not draining"

def maxCloseReasonBytes : Nat := 123

structure WebSocketOptions where
  maxFrameBytes : Nat
  maxMessageBytes : Nat
  sendCloseFrame : Bool

/-- Cuts the reason of a native close down to what RFC 6455 allows, on a character boundary. -/
def clampCloseReason (reason : String) : String :=
  if (utf8 reason).length ≤ maxCloseReasonBytes then reason
  else
    let stop := boundaryBelow (utf8 reason) maxCloseReasonBytes
    -- A slice that ends on a boundary is a text.
    (fromUtf8 ((utf8 reason).take stop)).getD ""

theorem clampCloseReason_longest (reason : String) :
    LongestFit maxCloseReasonBytes reason (clampCloseReason reason) := by
  unfold clampCloseReason
  split
  · rename_i hfi
    exact .whole hfi
  · obtain ⟨front, hf, hl⟩ := fromUtf8_boundaryBelow maxCloseReasonBytes reason
    dsimp only
    rw [hf]
    exact hl

/-! ### Runs of chunks -/

structure FrameRun (platform : Platform) (options : WebSocketOptions) where
  frame : Frame
  messages : List (List UInt8)
  encoded : encodeChunks platform frame options.maxMessageBytes options.maxFrameBytes = .ok messages

section Runs

variable (platform : Platform) (options : WebSocketOptions)

def FrameRun.encode (frame : Frame) : Except CodecError (FrameRun platform options) :=
  match h : encodeChunks platform frame options.maxMessageBytes options.maxFrameBytes with
  | .ok messages => .ok ⟨frame, messages, h⟩
  | .error error => .error error

variable {platform options} in
theorem FrameRun.encode_frame {frame : Frame} {run : FrameRun platform options}
    (h : FrameRun.encode platform options frame = .ok run) : run.frame = frame := by
  unfold FrameRun.encode at h
  split at h
  · cases h
    rfl
  · cases h

def farewellMessages (code : UInt16) (reason : Option String) :
    Option (FrameRun platform options) :=
  match FrameRun.encode platform options (.close ⟨code, reason.map clampReason⟩) with
  | .ok run => some run
  | .error _ => (FrameRun.encode platform options (.close ⟨code, none⟩)).toOption

/-- The farewell that the writer task says to a peer that does not read. -/
def stalledFarewell : Option (FrameRun platform options) :=
  if options.sendCloseFrame then
    farewellMessages platform options closeCodes.protocolError (some stalledQueueReason)
  else none

end Runs

/-- The bytes of the messages. -/
def FrameRun.bytes {platform : Platform} {options : WebSocketOptions}
    (run : FrameRun platform options) : Nat :=
  (run.messages.map List.length).sum

/-- One item for the writer task. -/
inductive WriteCommand (platform : Platform) (options : WebSocketOptions) where
  | chunks (run : FrameRun platform options)
  | close (code : UInt16) (reason : Option String)

/-- A message on the socket. -/
inductive SocketMessage where
  | binary (bytes : List UInt8)
  | close (frame : Option (UInt16 × String))
  deriving DecidableEq

/-! ### What the calls and the task share -/

/-- The queue and whether its receiver is closed, the counter of the bytes in it, and the flags. -/
structure SocketShared (platform : Platform) (options : WebSocketOptions) where
  commands : Channel (WriteCommand platform options)
  closed : Bool
  queuedBytes : Nat
  isOpen : Bool
  paused : Bool
  gaveUp : Bool

/-- A call of `close`, and what is returned after it if a `send_frame` makes it. -/
structure CloseRequest where
  code : UInt16
  reason : Option String
  sendCloseFrame : Bool
  outcome : Option SendOutcome

/-- Where a call of `send_frame` or `close` is. -/
inductive SocketCall (platform : Platform) (options : WebSocketOptions) where
  /-- `send_frame` found the port open. -/
  | checked (run : FrameRun platform options)
  /-- It counted its bytes, and knows what was waiting before. -/
  | counted (run : FrameRun platform options) (waiting : Nat)
  | queued (waiting : Nat)
  /-- The writer task is gone. -/
  | unqueued (run : FrameRun platform options)
  | uncounted
  /-- At the head of `close`. -/
  | closing (request : CloseRequest)
  /-- Past the swap of `open`. -/
  | lowered (request : CloseRequest)
  /-- The farewell is counted. -/
  | parting (request : CloseRequest) (run : FrameRun platform options)
  /-- The close command is next. -/
  | leaving (request : CloseRequest)
  | done (outcome : Option SendOutcome)

section Calls

variable {platform : Platform} {options : WebSocketOptions}

def stalledRequest : CloseRequest :=
  ⟨closeCodes.protocolError, some stalledQueueReason, true, some .closed⟩

def SocketCall.step (shared : SocketShared platform options) :
    SocketCall platform options →
      Option (SocketShared platform options × SocketCall platform options)
  | .checked run =>
    some ({ shared with queuedBytes := shared.queuedBytes + run.bytes },
      .counted run shared.queuedBytes)
  | .counted run waiting =>
    if shared.closed then some (shared, .unqueued run)
    else some ({ shared with commands := shared.commands.send (.chunks run) }, .queued waiting)
  | .queued waiting =>
    if options.maxFrameBytes < waiting ∧ shared.paused then some (shared, .closing stalledRequest)
    else some (shared, .done (some .sent))
  | .unqueued run =>
    some ({ shared with queuedBytes := shared.queuedBytes - run.bytes }, .uncounted)
  | .uncounted => some ({ shared with isOpen := false }, .done (some .closed))
  | .closing request =>
    if shared.isOpen then some ({ shared with isOpen := false }, .lowered request)
    else some (shared, .done request.outcome)
  | .lowered request =>
    match request.sendCloseFrame, farewellMessages platform options request.code request.reason with
    | true, some run =>
      some ({ shared with queuedBytes := shared.queuedBytes + run.bytes }, .parting request run)
    | _, _ => some (shared, .leaving request)
  | .parting request run =>
    if shared.closed then some (shared, .leaving request)
    else some ({ shared with commands := shared.commands.send (.chunks run) }, .leaving request)
  | .leaving request =>
    if shared.closed then some (shared, .done request.outcome)
    else some ({ shared with
      commands := shared.commands.send (.close request.code request.reason) },
      .done request.outcome)
  | .done _ => none

/-- The steps of a call. -/
inductive SocketCall.Turn (shared : SocketShared platform options) :
    SocketCall platform options → SocketShared platform options →
      SocketCall platform options → Prop
  | count (run : FrameRun platform options) :
    Turn shared (.checked run) { shared with queuedBytes := shared.queuedBytes + run.bytes }
      (.counted run shared.queuedBytes)
  | queue (run : FrameRun platform options) (waiting : Nat) (hopen : shared.closed = false) :
    Turn shared (.counted run waiting)
      { shared with commands := shared.commands.send (.chunks run) } (.queued waiting)
  | unqueue (run : FrameRun platform options) (waiting : Nat) (hclosed : shared.closed = true) :
    Turn shared (.counted run waiting) shared (.unqueued run)
  | stall (waiting : Nat) (hwaiting : options.maxFrameBytes < waiting)
    (hpaused : shared.paused = true) :
    Turn shared (.queued waiting) shared (.closing stalledRequest)
  | sent (waiting : Nat) : Turn shared (.queued waiting) shared (.done (some .sent))
  | uncount (run : FrameRun platform options) :
    Turn shared (.unqueued run) { shared with queuedBytes := shared.queuedBytes - run.bytes }
      .uncounted
  | lost : Turn shared .uncounted { shared with isOpen := false } (.done (some .closed))
  | lower (request : CloseRequest) (hopen : shared.isOpen = true) :
    Turn shared (.closing request) { shared with isOpen := false } (.lowered request)
  | late (request : CloseRequest) (hopen : shared.isOpen = false) :
    Turn shared (.closing request) shared (.done request.outcome)
  | part (request : CloseRequest) (run : FrameRun platform options)
    (hfarewell : farewellMessages platform options request.code request.reason = some run) :
    Turn shared (.lowered request) { shared with queuedBytes := shared.queuedBytes + run.bytes }
      (.parting request run)
  | bare (request : CloseRequest) : Turn shared (.lowered request) shared (.leaving request)
  | bid (request : CloseRequest) (run : FrameRun platform options)
    (hopen : shared.closed = false) :
    Turn shared (.parting request run)
      { shared with commands := shared.commands.send (.chunks run) } (.leaving request)
  | unheard (request : CloseRequest) (run : FrameRun platform options)
    (hclosed : shared.closed = true) :
    Turn shared (.parting request run) shared (.leaving request)
  | leave (request : CloseRequest) (hopen : shared.closed = false) :
    Turn shared (.leaving request)
      { shared with commands := shared.commands.send (.close request.code request.reason) }
      (.done request.outcome)
  | gone (request : CloseRequest) (hclosed : shared.closed = true) :
    Turn shared (.leaving request) shared (.done request.outcome)

theorem SocketCall.step_turn {shared after : SocketShared platform options}
    {call next : SocketCall platform options} (h : call.step shared = some (after, next)) :
    Turn shared call after next := by
  cases call <;> simp only [SocketCall.step] at h <;> grind [Turn]

end Calls

/-! ### The writer task -/

/-- Where `drive` is. -/
inductive DriveStage (platform : Platform) (options : WebSocketOptions) where
  | receiving
  /-- A run is taken from the queue, and its bytes are still counted. -/
  | taken (run : FrameRun platform options)
  /-- Inside the poll of `write_chunks`, with these messages to go. -/
  | writing (rest : List (List UInt8)) (giveUp : Bool)
  /-- The poll answered `Pending`, and the counter is read next. -/
  | stalled (rest : List (List UInt8)) (giveUp : Bool)
  /-- The queue is over the limit: `open` is lowered next. -/
  | lowering (rest : List (List UInt8))
  /-- `gave_up` is raised next. -/
  | raising (rest : List (List UInt8))
  /-- The run is written. -/
  | wrote (giveUp : Bool)
  /-- The socket refused a message. -/
  | refused
  /-- Inside `close_stalled_peer`, with these messages of the farewell to go. -/
  | parting (rest : List (List UInt8))
  /-- The native close is next. -/
  | closing (code : UInt16) (reason : Option String)
  /-- Out of the loop. -/
  | ended
  | draining
  /-- The drain took a run, and its bytes are still counted. -/
  | releasing (run : FrameRun platform options)
  | shutting
  | done

inductive SocketAnswer where
  | ready
  | pending
  | refused

/-- The send half of a port.  `refusal` is a history: whether the socket ever refused a message. -/
structure SocketWriter (platform : Platform) (options : WebSocketOptions) where
  shared : SocketShared platform options
  drive : DriveStage platform options
  written : List SocketMessage
  refusal : Bool
  calls : List (SocketCall platform options)

inductive SocketLabel where
  | sendFrame (frame : Frame)
  | close (code : UInt16) (reason : Option String) (sendCloseFrame : Bool)
  | markClosed
  | advance (call : Nat)
  | task
  | socket (answer : SocketAnswer)

namespace SocketWriter

variable {platform : Platform} {options : WebSocketOptions}

def new : SocketWriter platform options :=
  ⟨⟨.empty, false, 0, true, false, false⟩, .receiving, [], false, []⟩

def sendFrame (self : SocketWriter platform options) (frame : Frame) :
    SocketWriter platform options :=
  let call : SocketCall platform options :=
    if self.shared.isOpen then
      match FrameRun.encode platform options frame with
      | .ok run => .checked run
      | .error error => .done (some (.refused error))
    else .done (some .closed)
  { self with calls := self.calls ++ [call] }

def close (self : SocketWriter platform options) (code : UInt16) (reason : Option String)
    (sendCloseFrame : Bool) : SocketWriter platform options :=
  { self with calls := self.calls ++ [.closing ⟨code, reason, sendCloseFrame, none⟩] }

/-- The receive half found the socket gone. -/
def markClosed (self : SocketWriter platform options) : SocketWriter platform options :=
  { self with shared := { self.shared with isOpen := false } }

def advance (self : SocketWriter platform options) (index : Nat) :
    Option (SocketWriter platform options) :=
  self.calls[index]?.bind fun call =>
    (call.step self.shared).map fun (shared, call) =>
      { self with shared, calls := self.calls.set index call }

def closeStalledPeer : DriveStage platform options :=
  match stalledFarewell platform options with
  | some run => .parting run.messages
  | none => .closing closeCodes.protocolError (some stalledQueueReason)

/-- A step that the task takes by itself. -/
def task (self : SocketWriter platform options) : Option (SocketWriter platform options) :=
  match self.drive with
  | .receiving =>
    self.shared.commands.recv.map fun (command, commands) =>
      { self with
        shared := { self.shared with commands }
        drive := match command with
          | .chunks run => .taken run
          | .close code reason => .closing code reason }
  | .taken run => some { self with
      shared := { self.shared with queuedBytes := self.shared.queuedBytes - run.bytes }
      drive := .writing run.messages false }
  | .stalled rest giveUp => some { self with
      drive :=
        if options.maxFrameBytes < self.shared.queuedBytes then .lowering rest
        else .writing rest giveUp }
  | .lowering rest => some { self with
      shared := { self.shared with isOpen := false }, drive := .raising rest }
  | .raising rest => some { self with
      shared := { self.shared with gaveUp := true }, drive := .writing rest true }
  | .wrote giveUp => some { self with drive := if giveUp then closeStalledPeer else .receiving }
  | .refused => some { self with shared := { self.shared with isOpen := false }, drive := .ended }
  | .ended => some { self with shared := { self.shared with closed := true }, drive := .draining }
  | .draining =>
    match self.shared.commands.recv with
    | some (.chunks run, commands) =>
      some { self with shared := { self.shared with commands }, drive := .releasing run }
    | some (.close _ _, commands) => some { self with shared := { self.shared with commands } }
    | none => some { self with drive := .shutting }
  | .releasing run => some { self with
      shared := { self.shared with queuedBytes := self.shared.queuedBytes - run.bytes }
      drive := .draining }
  | _ => none

/-- The socket answers the task. -/
def socket (self : SocketWriter platform options) (answer : SocketAnswer) :
    Option (SocketWriter platform options) :=
  match self.drive, answer with
  | .writing (message :: rest) giveUp, .ready =>
    some { self with written := self.written ++ [.binary message], drive := .writing rest giveUp }
  | .writing [] giveUp, .ready =>
    some { self with shared := { self.shared with paused := false }, drive := .wrote giveUp }
  | .writing rest giveUp, .pending =>
    some { self with shared := { self.shared with paused := true }, drive := .stalled rest giveUp }
  | .writing _ _, .refused => some { self with
      shared := { self.shared with paused := false }, refusal := true, drive := .refused }
  | .parting (message :: rest), .ready =>
    some { self with written := self.written ++ [.binary message], drive := .parting rest }
  | .parting [], .ready =>
    some { self with drive := .closing closeCodes.protocolError (some stalledQueueReason) }
  | .parting _, .refused => some { self with
      refusal := true
      drive := .closing closeCodes.protocolError (some stalledQueueReason) }
  | .closing code reason, .ready => some { self with
      written := self.written ++ [.close (some (code, clampCloseReason (reason.getD "")))]
      drive := .ended }
  | .closing _ _, .refused => some { self with refusal := true, drive := .ended }
  -- `sink.close` may write a close of its own.
  | .shutting, .ready =>
    some { self with written := self.written ++ [.close none], drive := .done }
  | .shutting, .refused => some { self with drive := .done }
  | _, _ => none

def step (self : SocketWriter platform options) :
    SocketLabel → Option (SocketWriter platform options)
  | .sendFrame frame => some (self.sendFrame frame)
  | .close code reason sendCloseFrame => some (self.close code reason sendCloseFrame)
  | .markClosed => some self.markClosed
  | .advance index => self.advance index
  | .task => self.task
  | .socket answer => self.socket answer

/-! ### What a step can do -/

/-- The steps of the writer task. -/
inductive Shift (writer : SocketWriter platform options) :
    SocketLabel → SocketWriter platform options → Prop
  | take (run : FrameRun platform options) (commands : Channel (WriteCommand platform options))
    (hdrive : writer.drive = .receiving)
    (hrecv : writer.shared.commands.recv = some (.chunks run, commands)) :
    Shift writer .task { writer with
      shared := { writer.shared with commands }, drive := .taken run }
  | takeClose (code : UInt16) (reason : Option String)
    (commands : Channel (WriteCommand platform options)) (hdrive : writer.drive = .receiving)
    (hrecv : writer.shared.commands.recv = some (.close code reason, commands)) :
    Shift writer .task { writer with
      shared := { writer.shared with commands }, drive := .closing code reason }
  | release (run : FrameRun platform options) (hdrive : writer.drive = .taken run) :
    Shift writer .task { writer with
      shared := { writer.shared with queuedBytes := writer.shared.queuedBytes - run.bytes }
      drive := .writing run.messages false }
  | fits (rest : List (List UInt8)) (giveUp : Bool) (hdrive : writer.drive = .stalled rest giveUp) :
    Shift writer .task { writer with drive := .writing rest giveUp }
  | outgrown (rest : List (List UInt8)) (giveUp : Bool)
    (hdrive : writer.drive = .stalled rest giveUp)
    (hbytes : options.maxFrameBytes < writer.shared.queuedBytes) :
    Shift writer .task { writer with drive := .lowering rest }
  | lower (rest : List (List UInt8)) (hdrive : writer.drive = .lowering rest) :
    Shift writer .task { writer with
      shared := { writer.shared with isOpen := false }, drive := .raising rest }
  | raise (rest : List (List UInt8)) (hdrive : writer.drive = .raising rest) :
    Shift writer .task { writer with
      shared := { writer.shared with gaveUp := true }, drive := .writing rest true }
  | again (hdrive : writer.drive = .wrote false) :
    Shift writer .task { writer with drive := .receiving }
  | part (hdrive : writer.drive = .wrote true) :
    Shift writer .task { writer with drive := closeStalledPeer }
  | broken (hdrive : writer.drive = .refused) :
    Shift writer .task { writer with
      shared := { writer.shared with isOpen := false }, drive := .ended }
  | hangUp (hdrive : writer.drive = .ended) :
    Shift writer .task { writer with
      shared := { writer.shared with closed := true }, drive := .draining }
  | drain (run : FrameRun platform options) (commands : Channel (WriteCommand platform options))
    (hdrive : writer.drive = .draining)
    (hrecv : writer.shared.commands.recv = some (.chunks run, commands)) :
    Shift writer .task { writer with
      shared := { writer.shared with commands }, drive := .releasing run }
  | discard (code : UInt16) (reason : Option String)
    (commands : Channel (WriteCommand platform options)) (hdrive : writer.drive = .draining)
    (hrecv : writer.shared.commands.recv = some (.close code reason, commands)) :
    Shift writer .task { writer with shared := { writer.shared with commands } }
  | reclaim (run : FrameRun platform options) (hdrive : writer.drive = .releasing run) :
    Shift writer .task { writer with
      shared := { writer.shared with queuedBytes := writer.shared.queuedBytes - run.bytes }
      drive := .draining }
  | drained (hdrive : writer.drive = .draining) (hempty : writer.shared.commands.recv = none) :
    Shift writer .task { writer with drive := .shutting }
  | write (message : List UInt8) (rest : List (List UInt8)) (giveUp : Bool)
    (hdrive : writer.drive = .writing (message :: rest) giveUp) :
    Shift writer (.socket .ready) { writer with
      written := writer.written ++ [.binary message], drive := .writing rest giveUp }
  | flush (giveUp : Bool) (hdrive : writer.drive = .writing [] giveUp) :
    Shift writer (.socket .ready) { writer with
      shared := { writer.shared with paused := false }, drive := .wrote giveUp }
  | pend (rest : List (List UInt8)) (giveUp : Bool) (hdrive : writer.drive = .writing rest giveUp) :
    Shift writer (.socket .pending) { writer with
      shared := { writer.shared with paused := true }, drive := .stalled rest giveUp }
  | refuse (rest : List (List UInt8)) (giveUp : Bool)
    (hdrive : writer.drive = .writing rest giveUp) :
    Shift writer (.socket .refused) { writer with
      shared := { writer.shared with paused := false }, refusal := true, drive := .refused }
  | bid (message : List UInt8) (rest : List (List UInt8))
    (hdrive : writer.drive = .parting (message :: rest)) :
    Shift writer (.socket .ready) { writer with
      written := writer.written ++ [.binary message], drive := .parting rest }
  | parted (hdrive : writer.drive = .parting []) :
    Shift writer (.socket .ready) { writer with
      drive := .closing closeCodes.protocolError (some stalledQueueReason) }
  | unheard (rest : List (List UInt8)) (hdrive : writer.drive = .parting rest) :
    Shift writer (.socket .refused) { writer with
      refusal := true, drive := .closing closeCodes.protocolError (some stalledQueueReason) }
  | close (code : UInt16) (reason : Option String) (hdrive : writer.drive = .closing code reason) :
    Shift writer (.socket .ready) { writer with
      written := writer.written ++ [.close (some (code, clampCloseReason (reason.getD "")))]
      drive := .ended }
  | unclosed (code : UInt16) (reason : Option String)
    (hdrive : writer.drive = .closing code reason) :
    Shift writer (.socket .refused) { writer with refusal := true, drive := .ended }
  | shut (hdrive : writer.drive = .shutting) :
    Shift writer (.socket .ready) { writer with
      written := writer.written ++ [.close none], drive := .done }
  | finish (hdrive : writer.drive = .shutting) :
    Shift writer (.socket .refused) { writer with drive := .done }

variable {self next : SocketWriter platform options}

theorem task_shift (h : self.task = some next) : Shift self .task next := by
  unfold task at h
  split at h
  case h_1 hd =>
    obtain ⟨⟨command, commands⟩, hr, rfl⟩ := Option.map_eq_some_iff.mp h
    cases command with
    | chunks run => exact .take run commands hd hr
    | close code reason => exact .takeClose code reason commands hd hr
  all_goals grind [Shift]

theorem socket_shift {answer : SocketAnswer} (h : self.socket answer = some next) :
    Shift self (.socket answer) next := by
  unfold socket at h
  split at h <;> rename_i hd <;> cases h
  · exact .write _ _ _ hd
  · exact .flush _ hd
  · exact .pend _ _ hd
  · exact .refuse _ _ hd
  · exact .bid _ _ hd
  · exact .parted hd
  · exact .unheard _ hd
  · exact .close _ _ hd
  · exact .unclosed _ _ hd
  · exact .shut hd
  · exact .finish hd

/-- The steps of the send half. -/
inductive Move (writer : SocketWriter platform options) :
    SocketLabel → SocketWriter platform options → Prop
  | send (frame : Frame) (run : FrameRun platform options) (hframe : run.frame = frame)
    (hopen : writer.shared.isOpen = true) :
    Move writer (.sendFrame frame) { writer with calls := writer.calls ++ [.checked run] }
  | unsent (frame : Frame) (outcome : SendOutcome) :
    Move writer (.sendFrame frame) { writer with calls := writer.calls ++ [.done (some outcome)] }
  | close (code : UInt16) (reason : Option String) (sendCloseFrame : Bool) :
    Move writer (.close code reason sendCloseFrame) { writer with
      calls := writer.calls ++ [.closing ⟨code, reason, sendCloseFrame, none⟩] }
  | markClosed :
    Move writer .markClosed { writer with shared := { writer.shared with isOpen := false } }
  | turn (index : Nat) (call after : SocketCall platform options)
    (shared : SocketShared platform options) (hcall : writer.calls[index]? = some call)
    (hturn : SocketCall.Turn writer.shared call shared after) :
    Move writer (.advance index) { writer with shared, calls := writer.calls.set index after }
  | task (label : SocketLabel) (after : SocketWriter platform options)
    (hshift : Shift writer label after) : Move writer label after

theorem step_move {label : SocketLabel} (h : self.step label = some next) :
    Move self label next := by
  cases label with
  | sendFrame frame =>
    cases h
    unfold sendFrame
    dsimp only
    split
    · rename_i ho
      split
      · rename_i run hr
        exact .send frame run (FrameRun.encode_frame hr) ho
      · exact .unsent frame _
    · exact .unsent frame _
  | close code reason sendCloseFrame =>
    cases h
    exact .close code reason sendCloseFrame
  | markClosed =>
    cases h
    exact .markClosed
  | advance index =>
    obtain ⟨call, hc, h⟩ := Option.bind_eq_some_iff.mp h
    obtain ⟨⟨shared, after⟩, hs, rfl⟩ := Option.map_eq_some_iff.mp h
    exact .turn index call after shared hc (SocketCall.step_turn hs)
  | task => exact .task _ next (task_shift h)
  | socket answer => exact .task _ next (socket_shift h)

end SocketWriter

end MangoProtocol
