import MangoProtocol.TypeScript.WebSocketPort

/-! Runs of a WebSocket port: the calls of its owner and of its socket and its microtasks, in any
order.  A run keeps what the port did, the frames that `send` accepted, the farewell, and the frames
that arrived. -/

namespace MangoProtocol.TypeScript

open ProofKit

variable {φ : Type}

namespace PortAction

def message? : PortAction φ → Option (List UInt8)
  | .handed message => some message
  | _ => none

def frame? : PortAction φ → Option φ
  | .frame value => some value
  | _ => none

def closure? : PortAction φ → Option PortClosure
  | .closure value => some value
  | _ => none

end PortAction

def handedOf (actions : List (PortAction φ)) : List (List UInt8) :=
  actions.filterMap PortAction.message?

/-- The frames that some actions deliver. -/
def framesOf (actions : List (PortAction φ)) : List φ := actions.filterMap PortAction.frame?

/-- The closures that some actions deliver. -/
def closuresOf (actions : List (PortAction φ)) : List PortClosure :=
  actions.filterMap PortAction.closure?

/-- A call of the port, or a step of a microtask.  The loop that delivers the arrivals takes a step
for each of them, because the listener may call the port from within it. -/
inductive PortLabel (φ : Type) where
  | send (frame : φ) (verdicts : Verdicts)
  | drain (verdicts : Verdicts)
  | message (message : WebSocketMessage)
  | socketClosed (code : Nat) (reason : Option JsString)
  | socketFailed (message : JsString)
  | close (code : Nat) (reason : Option JsString) (verdicts : Verdicts)
  | onFrame
  | detachFrames
  | onClosed
  | detachClosed
  | startArrivals
  | nextArrival
  | deliverClosure

/-- A port and its history.  `draining` says that the loop of the arrivals is running. -/
structure PortRun (φ : Type) where
  port : WebSocketPort φ
  actions : List (PortAction φ)
  accepted : List φ
  farewell : List (List UInt8)
  arrived : List φ
  draining : Bool

namespace PortRun

def start (created : WebSocketPort φ × List (PortAction φ)) : PortRun φ :=
  ⟨created.1, created.2, [], [], [], false⟩

/-- The run after a call of the port. -/
def record (self : PortRun φ) (result : WebSocketPort φ × List (PortAction φ)) : PortRun φ :=
  { self with port := result.1, actions := self.actions ++ result.2 }

def handed (self : PortRun φ) : List (List UInt8) := handedOf self.actions

def delivered (self : PortRun φ) : List φ := framesOf self.actions

def closures (self : PortRun φ) : List PortClosure := closuresOf self.actions

section Format

variable (format : FrameFormat φ)

def arrival (self : PortRun φ) : WebSocketMessage → Option φ
  | .text _ => none
  | .binary bytes =>
    if ¬self.port.isOpen then none
    else (self.port.reassembler.push (decodeLine format.parse) bytes).2.toOption.join

def parting (self : PortRun φ) (code : Nat) (reason : Option JsString) : List (List UInt8) :=
  if self.port.sendCloseFrame then (self.port.farewell format code reason).getD [] else []

def promised (self : PortRun φ) : List (List UInt8) :=
  self.accepted.flatMap fun frame => (self.port.encode format frame).toOption.getD []

/-- One call or one step of a microtask.  A second listener and a microtask that was not queued are
not enabled. -/
def step (self : PortRun φ) : PortLabel φ → Option (PortRun φ)
  | .send frame verdicts =>
    match self.port.send format frame verdicts with
    | .error _ => some self
    | .ok result => some { self.record result with accepted := self.accepted ++ [frame] }
  | .drain verdicts => some (self.record (self.port.receiveDrain verdicts))
  | .message message =>
    some { self.record (self.port.receiveMessage format message) with
      arrived := self.arrived ++ (self.arrival format message).toList }
  | .socketClosed code reason => some (self.record (self.port.receiveClose code reason))
  | .socketFailed message => some (self.record (self.port.receiveError message))
  | .close code reason verdicts =>
    some { self.record (self.port.close format code reason verdicts) with
      farewell := if self.port.isOpen then self.parting format code reason else self.farewell }
  | .onFrame => if self.port.frames then none else some { self with port := self.port.onFrame }
  | .detachFrames => some { self with port := self.port.detachFrames }
  | .onClosed => if self.port.closed then none else some { self with port := self.port.onClosed }
  | .detachClosed => some { self with port := self.port.detachClosed }
  | .startArrivals =>
    if self.port.flushScheduled then
      some { self with port := self.port.startArrivals, draining := true }
    else none
  | .nextArrival =>
    if self.draining then
      match self.port.nextArrival with
      | none => some { self with draining := false }
      | some result => some (self.record result)
    else none
  | .deliverClosure =>
    if self.port.closureScheduled then some (self.record self.port.deliverClosure) else none

end Format

end PortRun

/-! ### What the actions hold -/

section Actions

variable (actions more : List (PortAction φ)) (messages : List (List UInt8))

theorem handedOf_append : handedOf (actions ++ more) = handedOf actions ++ handedOf more :=
  List.filterMap_append

theorem framesOf_append : framesOf (actions ++ more) = framesOf actions ++ framesOf more :=
  List.filterMap_append

theorem closuresOf_append : closuresOf (actions ++ more) = closuresOf actions ++ closuresOf more :=
  List.filterMap_append

theorem handedOf_map :
    handedOf (messages.map .handed : List (PortAction φ)) = messages := by
  simp [handedOf, List.filterMap_map, Function.comp_def, PortAction.message?]

theorem framesOf_map : framesOf (messages.map .handed : List (PortAction φ)) = [] := by
  simp [framesOf, Function.comp_def, PortAction.frame?]

theorem closuresOf_map : closuresOf (messages.map .handed : List (PortAction φ)) = [] := by
  simp [closuresOf, Function.comp_def, PortAction.closure?]

end Actions

namespace WebSocketPort

variable {self port : WebSocketPort φ} {result : WebSocketPort φ × List (PortAction φ)}
  {messages : List (List UInt8)}

/-- A closed port holds nothing. -/
def Cleared (self : WebSocketPort φ) : Prop :=
  self.isOpen = false → self.queue = [] ∧ self.queuedBytes = 0 ∧ self.arrivals = []

/-- What `#report` does: nothing, or it delivers the one closure. -/
def Reports (self : WebSocketPort φ) (result : WebSocketPort φ × List (PortAction φ)) : Prop :=
  (result.1.reported = self.reported ∧ closuresOf result.2 = []) ∨
  (self.reported = false ∧ self.ownerClosed = false ∧ result.1.reported = true ∧
    (closuresOf result.2).length = 1)

structure Ended (before : WebSocketPort φ) (messages : List (List UInt8))
    (result : WebSocketPort φ × List (PortAction φ)) : Prop where
  isOpen : result.1.isOpen = false
  queue : result.1.queue = []
  queuedBytes : result.1.queuedBytes = 0
  arrivals : result.1.arrivals = []
  options : result.1.chunkOptions = before.chunkOptions
  ownerClosed : result.1.ownerClosed = before.ownerClosed
  handed : handedOf result.2 = messages
  frames : framesOf result.2 = []
  reports : before.Reports result

/-- What a call that leaves the port open does not touch. -/
structure Stays (before : WebSocketPort φ) (result : WebSocketPort φ × List (PortAction φ)) :
    Prop where
  isOpen : result.1.isOpen = before.isOpen
  options : result.1.chunkOptions = before.chunkOptions
  ownerClosed : result.1.ownerClosed = before.ownerClosed
  reported : result.1.reported = before.reported
  pendingClosure : result.1.pendingClosure = before.pendingClosure
  quiet : closuresOf result.2 = []

theorem shutdown_reported (code : Option Nat) : (self.shutdown code).reported = self.reported := by
  unfold shutdown
  split <;> rfl

theorem shutdown_ended (h : self.Cleared) (code : Option Nat) :
    self.Ended [] (self.shutdown code, []) := by
  unfold shutdown
  split
  case isTrue hc =>
    have hf : self.isOpen = false := by simpa using hc
    obtain ⟨hq, hb, ha⟩ := h hf
    exact ⟨hf, hq, hb, ha, rfl, rfl, rfl, rfl, .inl ⟨rfl, rfl⟩⟩
  case isFalse => exact ⟨rfl, rfl, rfl, rfl, rfl, rfl, rfl, rfl, .inl ⟨rfl, rfl⟩⟩

theorem report_reports (closure : PortClosure) : self.Reports (self.report closure) := by
  unfold report
  split
  case isTrue => exact .inl ⟨rfl, rfl⟩
  case isFalse hn =>
    split
    · exact .inl ⟨rfl, rfl⟩
    · exact .inr ⟨by simp_all, by simp_all, rfl, rfl⟩

theorem report_ended (h : self.Ended [] (port, [])) (hre : port.reported = self.reported)
    (closure : PortClosure) : self.Ended [] (port.report closure) := by
  have ho : port.ownerClosed = self.ownerClosed := h.ownerClosed
  have hr := port.report_reports closure
  unfold Reports at hr
  rw [ho, hre] at hr
  have hs : (port.report closure).1.isOpen = port.isOpen ∧
      (port.report closure).1.queue = port.queue ∧
      (port.report closure).1.queuedBytes = port.queuedBytes ∧
      (port.report closure).1.arrivals = port.arrivals ∧
      (port.report closure).1.chunkOptions = port.chunkOptions ∧
      (port.report closure).1.ownerClosed = port.ownerClosed ∧
      handedOf (port.report closure).2 = [] ∧ framesOf (port.report closure).2 = [] := by
    unfold report
    split
    · exact ⟨rfl, rfl, rfl, rfl, rfl, rfl, rfl, rfl⟩
    · split <;> exact ⟨rfl, rfl, rfl, rfl, rfl, rfl, rfl, rfl⟩
  obtain ⟨hope, hq, hb, ha, hop, how, hh, hf⟩ := hs
  exact ⟨hope.trans h.isOpen, hq.trans h.queue, hb.trans h.queuedBytes,
    ha.trans h.arrivals, hop.trans h.options, how.trans ho, hh, hf,
    hr⟩

theorem shutdown_report_ended (h : self.Cleared) (code : Option Nat) (closure : PortClosure) :
    self.Ended [] ((self.shutdown code).report closure) :=
  report_ended (shutdown_ended h code) (shutdown_reported code) closure

theorem Ended.hangUp (h : self.Ended messages result) (code : Nat) (reason : Option JsString) :
    self.Ended messages (result.1, result.2 ++ [.hangUp code reason]) := by
  have hc : closuresOf (result.2 ++ [.hangUp code reason]) = closuresOf result.2 := by
    rw [closuresOf_append]
    exact List.append_nil _
  refine { h with handed := ?_, frames := ?_, reports := ?_ }
  · rw [handedOf_append, h.handed]
    exact List.append_nil _
  · rw [framesOf_append, h.frames]
    rfl
  · simpa only [Reports, hc] using h.reports

theorem failSend_ended (h : self.Cleared) (reason : JsString) :
    self.Ended [] (self.failSend reason) :=
  (shutdown_report_ended h _ _).hangUp _ _

theorem failReceive_ended (h : self.Cleared) (error : CodecError) :
    self.Ended [] (self.failReceive error) :=
  (shutdown_report_ended h _ _).hangUp _ _

theorem refuseOrigin_ended (h : self.Cleared) : self.Ended [] self.refuseOrigin :=
  { shutdown_report_ended h _ _ with }

theorem receiveClose_ended (h : self.Cleared) (code : Nat) (reason : Option JsString) :
    self.Ended [] (self.receiveClose code reason) := by
  unfold receiveClose
  dsimp only
  split
  · exact shutdown_report_ended h _ _
  · exact shutdown_report_ended h _ _

theorem deliverClosure_ended (h : self.Cleared) (hc : self.isOpen = false) :
    self.Ended [] self.deliverClosure := by
  obtain ⟨hq, hb, ha⟩ := h hc
  have hs (pending : Option PortClosure) : self.Ended []
      ({ self with closureScheduled := false, pendingClosure := pending }, []) :=
    ⟨hc, hq, hb, ha, rfl, rfl, rfl, rfl, .inl ⟨rfl, rfl⟩⟩
  unfold deliverClosure
  dsimp only
  split
  · exact hs _
  · exact report_ended (hs none) rfl _

theorem Ended.after (h : self.Ended [] result) (messages : List (List UInt8)) :
    self.Ended messages (result.1, messages.map .handed ++ result.2) := by
  have hc : closuresOf (messages.map .handed ++ result.2) = closuresOf result.2 := by
    rw [closuresOf_append, closuresOf_map]
    rfl
  refine { h with handed := ?_, frames := ?_, reports := ?_ }
  · rw [handedOf_append, handedOf_map, h.handed, List.append_nil]
  · rw [framesOf_append, framesOf_map, h.frames]
    rfl
  · simpa only [Reports, hc] using h.reports

theorem Ended.congr (h : port.Ended messages result)
    (hop : self.chunkOptions = port.chunkOptions)
    (ho : self.ownerClosed = port.ownerClosed) (hr : self.reported = port.reported) :
    self.Ended messages result := by
  refine { h with options := ?_, ownerClosed := ?_, reports := ?_ }
  · rw [h.options, hop]
  · rw [h.ownerClosed, ho]
  · rw [Reports, hr, ho]
    exact h.reports

/-! ### The loop of the queue -/

theorem pump_spec (queue : List (List UInt8)) (verdicts : Verdicts) :
    let pumped := pump (queue.map List.length).sum queue verdicts
    pumped.queuedBytes = (pumped.queue.map List.length).sum ∧
    (∀ message, pumped.stop = .dropped message → pumped.handed <+: queue) ∧
    ((∀ message, pumped.stop ≠ .dropped message) → pumped.handed ++ pumped.queue = queue) := by
  induction queue generalizing verdicts with
  | nil => exact ⟨rfl, nofun, fun _ => rfl⟩
  | cons message queue ih =>
    obtain ⟨hb, hd, hm⟩ := ih verdicts.tail
    have hr : ((message :: queue).map List.length).sum - message.length =
        (queue.map List.length).sum := by simp
    simp only [pump]
    rw [hr]
    cases verdicts.next with
    | dropped => exact ⟨rfl, fun _ _ => ⟨queue, rfl⟩, fun h => absurd rfl (h message)⟩
    | buffered => exact ⟨rfl, nofun, fun _ => rfl⟩
    | sent => grind

/-! ### A close of the owner -/

theorem failSend_ownerClosed (reason : JsString) :
    (self.failSend reason).1.ownerClosed = self.ownerClosed := by
  have hs (code : Option Nat) : (self.shutdown code).ownerClosed = self.ownerClosed := by
    unfold shutdown
    split <;> rfl
  have hr (port : WebSocketPort φ) (closure : PortClosure) :
      (port.report closure).1.ownerClosed = port.ownerClosed := by
    unfold report
    split
    · rfl
    · split <;> rfl
  exact (hr _ _).trans (hs _)

theorem checkStalled_ownerClosed : self.checkStalled.1.ownerClosed = self.ownerClosed := by
  unfold checkStalled
  split
  · exact failSend_ownerClosed _
  · rfl

theorem flush_ownerClosed (verdicts : Verdicts) :
    (self.flush verdicts).1.ownerClosed = self.ownerClosed := by
  unfold flush
  split
  · grind [failSend_ownerClosed, checkStalled_ownerClosed]
  · exact checkStalled_ownerClosed

theorem close_ownerClosed {format : FrameFormat φ} (ho : self.isOpen = true) (code : Nat)
    (reason : Option JsString) (verdicts : Verdicts) :
    (self.close format code reason verdicts).1.ownerClosed = true := by
  have hs (port : WebSocketPort φ) :
      (port.shutdown (some code)).ownerClosed = port.ownerClosed := by
    unfold shutdown
    split <;> rfl
  have hp : (self.takeLeave format code reason verdicts).1.ownerClosed = true := by
    unfold takeLeave
    dsimp only
    split
    · unfold sendFarewell
      split
      · rfl
      · exact flush_ownerClosed verdicts
    · rfl
  unfold close
  rw [if_neg (not_not_intro ho)]
  dsimp only
  split
  · exact hp
  · exact (hs _).trans hp

/-- What the account of a run depends on. -/
def core (self : WebSocketPort φ) :=
  (self.isOpen, self.queue, self.queuedBytes, self.arrivals, self.chunkOptions, self.ownerClosed,
    self.reported, self.pendingClosure)

theorem core_scheduleArrivals : self.scheduleArrivals.core = self.core := by
  unfold scheduleArrivals
  split <;> rfl

theorem core_scheduleClosure : self.scheduleClosure.core = self.core := by
  unfold scheduleClosure
  split <;> rfl

theorem core_onFrame : self.onFrame.core = self.core := core_scheduleArrivals

theorem core_onClosed : self.onClosed.core = self.core := core_scheduleClosure

end WebSocketPort

end MangoProtocol.TypeScript
