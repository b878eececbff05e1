import MangoProtocol.Transports.SocketGoodbye

/-! A WebSocket port that is to send no `close` frame.  Its `close` and its writer task go by the
option; a refused message and a sender that finds the queue stalled ask for the farewell all the
same. -/

namespace MangoProtocol

open ProofKit

variable {platform : Platform} {options : WebSocketOptions}

/-! ### The port -/

/-- A step of a port: a call on one of its halves, a message that the receive half refuses, a socket
that it finds gone, or a step of the send half. -/
inductive WebSocketLabel where
  | send (frame : Frame)
  | close (code : UInt16) (reason : Option String)
  | refuse (error : CodecError)
  | gone
  | advance (call : Nat)
  | task
  | socket (answer : SocketAnswer)

/-- What the step asks of the send half. -/
def WebSocketLabel.asked (options : WebSocketOptions) : WebSocketLabel → SocketLabel
  | .send frame => .sendFrame frame
  | .close code reason => .close code reason options.sendCloseFrame
  | .refuse error => .close (closeCodeForCodecError error) (some error.toText) true
  | .gone => .markClosed
  | .advance call => .advance call
  | .task => .task
  | .socket answer => .socket answer

namespace SocketWriter

def portStep (self : SocketWriter platform options) (label : WebSocketLabel) :
    Option (SocketWriter platform options) :=
  self.step (label.asked options)

/-- The run that a `send_frame` queues. -/
def sentRun (self : SocketWriter platform options) :
    WebSocketLabel → Option (FrameRun platform options)
  | .advance index =>
    match self.calls[index]? with
    | some (.counted run _) => if self.shared.closed then none else some run
    | _ => none
  | _ => none

def farewellRun (self : SocketWriter platform options) :
    WebSocketLabel → Option (FrameRun platform options)
  | .advance index =>
    match self.calls[index]? with
    | some (.parting _ run) => if self.shared.closed then none else some run
    | _ => none
  | .task =>
    match self.drive with
    | .wrote true => stalledFarewell platform options
    | _ => none
  | _ => none

section Runs

variable (platform options) (labels : List WebSocketLabel)

/-- The runs that were sent. -/
def sentRuns : List (FrameRun platform options) := Machine.outputs portStep sentRun new labels

def farewellRuns : List (FrameRun platform options) :=
  Machine.outputs portStep farewellRun new labels

end Runs

def unannounced (self : SocketWriter platform options) : WebSocketLabel → Bool
  | .advance index =>
    match self.calls[index]? with
    | some (.closing request) => !(self.shared.isOpen && request.sendCloseFrame)
    | _ => true
  | _ => true

end SocketWriter

/-- A call that will queue no farewell, unless it has yet to find the port open. -/
def SocketCall.hushed : SocketCall platform options → Bool
  | .lowered request => !request.sendCloseFrame
  | .parting _ _ => false
  | _ => true

def DriveStage.isParting : DriveStage platform options → Bool
  | .parting _ => true
  | _ => false

namespace SocketWriter

variable {self next : SocketWriter platform options} {made : List (FrameRun platform options)}

/-- No farewell is under way, and what is queued, in the hands of the task or written is of the runs
that were sent. -/
structure Hushed (sent : List (FrameRun platform options))
    (writer : SocketWriter platform options) : Prop where
  calls : ∀ call ∈ writer.calls, call.hushed = true
  queued : ∀ run ∈ writer.shared.queuedRuns, run ∈ sent
  stage : writer.drive.isParting = false
  rest : ∀ message ∈ writer.drive.rest, ∃ run ∈ sent, message ∈ run.messages
  written : ∀ message, .binary message ∈ writer.written → ∃ run ∈ sent, message ∈ run.messages

theorem Hushed.mono {more : List (FrameRun platform options)} (h : self.Hushed made)
    (hs : made ⊆ more) : self.Hushed more := by
  obtain ⟨hc, hq, hst, hr, hw⟩ := h
  constructor <;> grind

variable {call other : SocketCall platform options} {shared after : SocketShared platform options}
  {label : SocketLabel}

theorem Hushed.enter (h : self.Hushed made) (hca : call.hushed = true) :
    { self with calls := self.calls ++ [call] }.Hushed made := by
  obtain ⟨hc, hq, hs, hr, hw⟩ := h
  constructor <;> grind

theorem hushed_step (h : call.step shared = some (after, other)) (hh : call.hushed = true)
    (ha : ∀ request, call = .closing request → shared.isOpen = true →
      request.sendCloseFrame = false) : other.hushed = true := by
  have ht := SocketCall.step_turn h
  cases ht with
  | part request run => grind [SocketCall.hushed, SocketCall.step]
  | _ => grind [SocketCall.hushed]

theorem queuedRuns_step (h : call.step shared = some (after, other)) (hh : call.hushed = true) :
    after.queuedRuns = shared.queuedRuns ∨
      ∃ run waiting, call = .counted run waiting ∧ shared.closed = false ∧
        after.queuedRuns = shared.queuedRuns ++ [run] := by
  have ht := SocketCall.step_turn h
  cases ht with
  | queue | leave => simp_all [SocketShared.queuedRuns, WriteCommand.run]
  | bid | unheard => cases hh
  | _ => exact .inl rfl

theorem Hushed.advance {index : Nat} (h : self.Hushed made)
    (hqu : self.unannounced (.advance index) = true) (hn : self.advance index = some next) :
    next.Hushed (made ++ (self.sentRun (.advance index)).toList) := by
  obtain ⟨call, hc, hma⟩ := Option.bind_eq_some_iff.mp hn
  obtain ⟨⟨shared, after⟩, hs, rfl⟩ := Option.map_eq_some_iff.mp hma
  have hh := h.calls call (List.mem_of_getElem? hc)
  have ha := hushed_step hs hh
  have hq := queuedRuns_step hs hh
  have hm := h.mono (List.subset_append_left made (self.sentRun (.advance index)).toList)
  have hca := h.calls
  have hold := h.queued
  refine ⟨?_, ?_, hm.stage, hm.rest, hm.written⟩
  · grind [List.mem_or_eq_of_mem_set, unannounced]
  · grind [sentRun]

theorem closeStalledPeer_eq (ho : options.sendCloseFrame = false) :
    (closeStalledPeer : DriveStage platform options) =
      .closing closeCodes.protocolError (some stalledQueueReason) := by
  rw [closeStalledPeer, stalledFarewell, ho]
  rfl

theorem Hushed.shifted (h : self.Hushed made) (hc : next.calls = self.calls)
    (hq : next.shared.queuedRuns = self.shared.queuedRuns)
    (hs : next.drive.isParting = false)
    (hr : ∀ message ∈ next.drive.rest,
      message ∈ self.drive.rest ∨ ∃ run ∈ self.shared.queuedRuns, message ∈ run.messages)
    (hw : ∀ message, .binary message ∈ next.written →
      .binary message ∈ self.written ∨ message ∈ self.drive.rest) : next.Hushed made := by
  obtain ⟨hc', hq', hs', hr', hw'⟩ := h
  constructor <;> grind

theorem Hushed.shift (h : self.Hushed made) (ho : options.sendCloseFrame = false)
    (hs : Shift self label next) : next.Hushed made := by
  obtain ⟨hc, hse, -⟩ := hs.keeps
  have hq : next.shared.queuedRuns = self.shared.queuedRuns := by
    rw [SocketShared.queuedRuns, SocketShared.queuedRuns, hse]
  have hst := h.stage
  have hp : (closeStalledPeer : DriveStage platform options) = _ := closeStalledPeer_eq ho
  cases hs with
  | take run commands hd hr =>
    refine h.shifted hc hq rfl (fun message hm => .inr ⟨run, ?_, hm⟩)
      fun _ => .inl
    exact List.mem_filterMap.mpr ⟨_, Channel.mem_sent_of_recv hr, rfl⟩
  | _ => apply h.shifted hc hq <;> grind [DriveStage.rest, DriveStage.isParting]

theorem Hushed.move (h : self.Hushed made) (ho : options.sendCloseFrame = false)
    (hl : ∀ index, label ≠ .advance index) (hm : Move self label next) :
    next.Hushed made := by
  cases hm with
  | send | unsent | close => exact h.enter rfl
  | markClosed => exact ⟨h.calls, h.queued, h.stage, h.rest, h.written⟩
  | turn index => exact absurd rfl (hl index)
  | task _ _ hs => exact h.shift ho hs

theorem Hushed.step {label : WebSocketLabel} (h : self.Hushed made)
    (ho : options.sendCloseFrame = false) (hq : self.unannounced label = true)
    (hn : self.portStep label = some next) :
    next.Hushed (made ++ (self.sentRun label).toList) := by
  cases label with
  | advance index => exact h.advance hq hn
  | send | close | refuse | gone | task | socket =>
    have hk : next.Hushed made :=
      h.move ho (fun index hl => by cases hl) (step_move hn)
    exact (List.append_nil made).symm ▸ hk

theorem new_hushed : (new : SocketWriter platform options).Hushed [] where
  calls _ hc := by cases hc
  queued _ hr := by cases hr
  stage := rfl
  rest _ hm := by cases hm
  written _ hm := by cases hm

theorem Hushed.farewellRun_eq (h : self.Hushed made) (ho : options.sendCloseFrame = false)
    (label : WebSocketLabel) : self.farewellRun label = none := by
  have hc := h.calls
  cases label with
  | advance index =>
    simp only [farewellRun]
    split
    · cases hc _ (List.mem_of_getElem? ‹_›)
    · rfl
  | task => grind [farewellRun, stalledFarewell]
  | _ => rfl

/-- A port without close frames hands over no run of a farewell, and every chunk message that it
writes is of a frame that was sent, in every run in which no close that asks for a farewell finds
the port open. -/
theorem run_without_close_frame (hoption : options.sendCloseFrame = false)
    {labels : List WebSocketLabel}
    (hquiet : Machine.Every portStep
      (fun (writer : SocketWriter platform options) label => writer.unannounced label = true)
      new labels)
    (hrun : Machine.run portStep new labels = some self) :
    farewellRuns platform options labels = [] ∧
      ∀ message, .binary message ∈ self.written →
        ∃ run ∈ sentRuns platform options labels, message ∈ run.messages := by
  constructor
  · have hno : (∃ made, self.Hushed made) ∧ farewellRuns platform options labels = [] := by
      refine hquiet.run_outputs (fun writer farewells => (∃ made, writer.Hushed made) ∧
        farewells = []) ?_ ⟨⟨[], new_hushed⟩, rfl⟩ hrun
      rintro writer label next _ ⟨⟨made, hh⟩, rfl⟩ hl hn
      refine ⟨⟨_, hh.step hoption hl hn⟩, ?_⟩
      rw [hh.farewellRun_eq hoption]
      rfl
    exact hno.2
  · have hh : self.Hushed (sentRuns platform options labels) :=
      hquiet.run_outputs (fun writer made => writer.Hushed made)
        (fun writer label next made hh hl hn => hh.step hoption hl hn)
        new_hushed hrun
    exact hh.written

/-! ### Two runs -/

def silentOptions : WebSocketOptions := ⟨4096, 2048, false⟩

def silentLabels : List WebSocketLabel :=
  [.send .ping, .advance 0, .advance 0, .advance 0, .task, .task, .socket .ready, .socket .ready,
    .task, .close closeCodes.released none, .advance 1, .advance 1, .advance 1, .task,
    .socket .ready]

theorem run_without_close_frame_closed :
    ∃ writer : SocketWriter (tablePlatform []) silentOptions,
      Machine.run portStep new silentLabels = some writer ∧
      writer.written.map SocketMessage.isNative = [false, true] ∧
      farewellRuns (tablePlatform []) silentOptions silentLabels = [] := by
  obtain ⟨writer, hr, hw⟩ : ∃ writer : SocketWriter (tablePlatform []) silentOptions,
      Machine.run portStep new silentLabels = some writer ∧
        writer.written.map SocketMessage.isNative = [false, true] :=
    Machine.exists_run (by decide +kernel)
  have hq : Machine.Every portStep
      (fun (writer : SocketWriter (tablePlatform []) silentOptions) label =>
        writer.unannounced label = true) new silentLabels := by decide +kernel
  exact ⟨writer, hr, hw, (run_without_close_frame rfl hq hr).1⟩

def refusedLabels : List WebSocketLabel :=
  [.refuse (.new .schema "received a text message"), .advance 0, .advance 0, .advance 0,
    .advance 0, .task, .task, .socket .ready, .socket .ready, .task, .task, .socket .ready]

/-- The port writes the chunk of a close frame, and no frame was sent. -/
theorem refusal_announced :
    silentOptions.sendCloseFrame = false ∧
    (∃ writer : SocketWriter (tablePlatform []) silentOptions,
      Machine.run portStep new refusedLabels = some writer ∧
      writer.written.map SocketMessage.isNative = [false, true]) ∧
    (sentRuns (tablePlatform []) silentOptions refusedLabels).length = 0 ∧
    (farewellRuns (tablePlatform []) silentOptions refusedLabels).map
      (fun run => run.frame.isClose) = [true] :=
  ⟨rfl, Machine.exists_run (by decide +kernel), by decide +kernel, by decide +kernel⟩

end SocketWriter

end MangoProtocol
