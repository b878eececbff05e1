import MangoProtocol.Session.Answering
import MangoProtocol.Session.Emission
import MangoProtocol.ProofKit.Streams
import MangoProtocol.ProofKit.Tables

/-! The sequence numbers of events.  Whoever holds the lock of the sequences is the only one to read
a counter, to send under it and to move it on, so the events come to the driver in the order of
their numbers, and the driver keeps that order. -/

namespace MangoProtocol

open ProofKit ProofKit.Tables

variable {H : Type} {config : Config}

/-- The event that a command sends. -/
def Command.event (command : Command) : Option Event := command.frame.bind Frame.event

def eventStreams : StreamRule Event String where
  key event := event.streamId.getD event.topic
  ends event := event.end_.isSome
  numbered event number := event.seq = UInt64.ofNat number

theorem Frame.Served.event {frame : Frame} (h : frame.Served) : frame.event = none := by
  cases frame with
  | evt => cases h
  | _ => rfl

namespace Session

variable {self next : Session H}

/-! ### The events of a session -/

/-- The events that were sent to the driver. -/
def postedEvents (self : Session H) : List Event := self.commands.sent.filterMap Command.event

/-- Those that the driver has taken. -/
def takenEvents (self : Session H) : List Event := self.commands.received.filterMap Command.event

def writtenEvents (self : Session H) : List Event := self.writer.sent.filterMap Frame.event

theorem takenEvents_append (self : Session H) :
    self.postedEvents = self.takenEvents ++ self.commands.waiting.filterMap Command.event := by
  rw [postedEvents, takenEvents, ← List.filterMap_append, Channel.received, Channel.waiting,
    List.take_append_drop]

structure SameEvents (before after : Session H) : Prop where
  posted : after.postedEvents = before.postedEvents
  taken : after.takenEvents = before.takenEvents
  written : after.writtenEvents = before.writtenEvents
  sequences : after.shared.eventSequences = before.shared.eventSequences

theorem SameEvents.of_eq (hc : next.commands = self.commands)
    (hw : next.writer = self.writer)
    (hs : next.shared.eventSequences = self.shared.eventSequences) :
    SameEvents self next :=
  ⟨by rw [postedEvents, hc, postedEvents], by rw [takenEvents, hc, takenEvents],
    by rw [writtenEvents, hw, writtenEvents], hs⟩

theorem SameEvents.setStage (h : SameEvents self next) (index : Nat) (stage : CallStage) :
    SameEvents self (next.setStage index stage) :=
  ⟨h.posted, h.taken, h.written, h.sequences⟩

theorem command_sameEvents {command : Command} (h : command.event = none) :
    SameEvents self (self.command command) := by
  unfold Session.command
  split
  · exact ⟨by simp [postedEvents, h], by simp [takenEvents], rfl, rfl⟩
  · exact .of_eq rfl rfl rfl

/-! ### Steps of callers that are no `emit` -/

theorem CallMove.sameEvents {index : Nat} {call : Call}
    (h : CallMove config self index call next) : SameEvents self next := by
  cases h with
  | silent | number => exact .of_eq rfl rfl rfl
  | request | cancel | timeout | drop => exact (command_sameEvents rfl).setStage _ _

theorem apiStep_sameEvents {step : ApiStep H} (he : (Label.api step).emits = false)
    (h : self.apiStep config step = some next) : SameEvents self next := by
  have called {index : Nat} (hi : step.callIndex = some index) : SameEvents self next := by
    obtain ⟨call, -, move⟩ := apiStep_callMove hi h
    exact move.sameEvents
  cases step with
  | emit | emitLocked => cases he
  | startCall | handle | events | pongs =>
    cases h
    exact .of_eq rfl rfl rfl
  | dropGuard method generation =>
    cases h
    refine .of_eq rfl rfl ?_
    simp only [Shared.dropGuard]
    split
    · split <;> rfl
    · rfl
  | ping | closeNow =>
    cases h
    exact command_sameEvents rfl
  | advanceCall | takeReply | abandonCall | pollCall | parkCall | cancelCall | timeoutCall
  | dropCall =>
    exact called rfl

/-! ### All other steps -/

/-- What a step that is no `emit` does to the events: nothing, or the driver hands one on, or the
teardown forgets the counters. -/
inductive EventMove (before : Session H) (label : Label H) (after : Session H) : Prop
  | same (h : SameEvents before after)
    (hserving : after.phase.serving = true → before.phase.serving = true)
  | take (event : Event) (hposted : after.postedEvents = before.postedEvents)
    (htaken : after.takenEvents = before.takenEvents ++ [event])
    (hwritten : after.writtenEvents = before.writtenEvents ++ [event])
    (hsequences : after.shared.eventSequences = before.shared.eventSequences)
    (hserving : before.phase.serving = true)
  | forget (hposted : after.postedEvents = before.postedEvents)
    (htaken : after.takenEvents = before.takenEvents)
    (hwritten : after.writtenEvents = before.writtenEvents)
    (hsequences : after.shared.eventSequences = ∅) (hforgets : before.forgets label = true)
    (hserving : after.phase.serving = false)

theorem Serves.sameEvents (h : Serves self next) : SameEvents self next := by
  obtain ⟨frames, hse, hc, hs, hsen⟩ := h
  refine ⟨by rw [postedEvents, hc, postedEvents], by rw [takenEvents, hc, takenEvents],
    ?_, hs⟩
  have hn : frames.filterMap Frame.event = [] :=
    List.filterMap_eq_nil_iff.mpr fun frame hf => (hse frame hf).event
  rw [writtenEvents, hsen, List.filterMap_append, hn, List.append_nil, writtenEvents]

theorem onCommand_eventMove {command : Command} {commands : Channel Command}
    (hph : self.phase = .running) (hr : self.commands.recv = some (command, commands)) :
    EventMove self (.driver .command) ({ self with commands }.onCommand command) := by
  have hse : self.phase.serving = true := by rw [hph]; rfl
  obtain ⟨hc, hs, hsen⟩ := onCommand_writes { self with commands } command
  have hp : ({ self with commands }.onCommand command).postedEvents = self.postedEvents := by
    simp only [postedEvents, hc, Channel.recv_sent hr]
  have ht : ({ self with commands }.onCommand command).takenEvents =
      self.takenEvents ++ command.event.toList := by
    simp only [takenEvents, hc, Channel.recv_received hr, List.filterMap_append]
    cases hev : command.event <;> simp [hev]
  have hw : ({ self with commands }.onCommand command).writtenEvents =
      self.writtenEvents ++ command.event.toList := by
    simp only [writtenEvents, hsen, List.filterMap_append, Command.event]
    cases hf : command.frame with
    | none => simp
    | some frame => cases hev : frame.event <;> simp [hev]
  cases hev : command.event with
  | none =>
    rw [hev, Option.toList_none, List.append_nil] at ht hw
    exact .same ⟨hp, ht, hw, hs⟩ fun _ => hse
  | some event =>
    rw [hev] at ht hw
    exact .take event hp ht hw hs hse

theorem advanceTeardown_eventMove {reason : Teardown} {stage : TeardownStage}
    (hp : self.phase = .closing reason stage)
    (h : self.advanceTeardown reason stage = some next) :
    EventMove self (.driver .teardown) next := by
  obtain ⟨hc, hw, ⟨hst, hs⟩ | ⟨rfl, hs, hd⟩⟩ :=
    advanceTeardown_writes h
  · refine .same (.of_eq hc hw hs) fun _ => ?_
    have hn : stage ≠ .draining := by
      rintro rfl
      cases h
    rw [hp]
    exact decide_eq_true hn
  · refine .forget ?_ ?_ ?_ hs ?_ ?_
    · rw [postedEvents, hc, postedEvents]
    · rw [takenEvents, hc, takenEvents]
    · rw [writtenEvents, hw, writtenEvents]
    · simp only [forgets, hp]
    · rw [hd]
      rfl

theorem step_eventMove {label : Label H} (he : label.emits = false)
    (h : self.step config label = some next) : EventMove self label next := by
  cases step_move h with
  | api step next move =>
    refine .same (apiStep_sameEvents he h) fun hs => ?_
    cases move <;> exact hs
  | arrive item => exact .same (.of_eq rfl rfl rfl) id
  | transmit outcome frame writer sendFailure hr =>
    refine .same ⟨rfl, rfl, ?_, rfl⟩ id
    simp only [writtenEvents, Channel.recv_sent hr]
  | driver step next move =>
    have served (hc : step ≠ .command) (ht : step ≠ .teardown)
        (hs : next.phase.serving = true → self.phase.serving = true) :
        EventMove self (.driver step) next :=
      .same (move.serves hc ht).sameEvents hs
    cases move with
    | greet _ hp => exact served nofun nofun fun _ => by rw [hp]; rfl
    | sendFailed _ hp => exact served nofun nofun fun _ => by rw [hp]; rfl
    | handshakeTimeout hp => exact served nofun nofun fun _ => by rw [hp]; rfl
    | livenessTick hp => exact served nofun nofun fun _ => by rw [hp]; rfl
    | settled _ _ _ hp => exact served nofun nofun fun _ => by rw [hp]; rfl
    | inbound _ _ _ hp => exact served nofun nofun fun _ => by rw [hp]; rfl
    | command command commands hp hr => exact onCommand_eventMove hp hr
    | teardown reason stage _ hp hn => exact advanceTeardown_eventMove hp hn
    | drain => exact served nofun nofun id
    | finish => exact served nofun nofun nofun

end Session

end MangoProtocol
