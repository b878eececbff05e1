import MangoProtocol.Session.Moves

/-! What the branches of the driver queue for the writer, and what they leave alone.  Commands and
the teardown apart, a branch queues answers, pings and pongs only, and it touches neither the
commands nor the sequences of events. -/

namespace MangoProtocol

open ProofKit

variable {H : Type} {config : Config}

def Frame.Served : Frame → Prop
  | .res _ | .err _ | .ping | .pong => True
  | _ => False

def Command.frame : Command → Option Frame
  | .close _ _ => none
  | .request frame _ | .send frame => some frame
  | .cancel id _ => some (.cancel ⟨id⟩)

theorem errorFrame_served (id : String) (error : RemoteError) : (errorFrame id error).Served :=
  trivial

namespace Session

variable {self next : Session H}

/-- The frames are queued, in order; commands and sequences stay as they were. -/
structure Writes (before after : Session H) (frames : List Frame) : Prop where
  commands : after.commands = before.commands
  sequences : after.shared.eventSequences = before.shared.eventSequences
  sent : after.writer.sent = before.writer.sent ++ frames

theorem Writes.none (hc : next.commands = self.commands)
    (hs : next.shared.eventSequences = self.shared.eventSequences)
    (hw : next.writer = self.writer) : Writes self next [] :=
  ⟨hc, hs, by rw [hw, List.append_nil]⟩

def Serves (before after : Session H) : Prop :=
  ∃ frames, (∀ frame ∈ frames, frame.Served) ∧ Writes before after frames

theorem Serves.none (hc : next.commands = self.commands)
    (hs : next.shared.eventSequences = self.shared.eventSequences)
    (hw : next.writer = self.writer) : Serves self next :=
  ⟨[], fun _ hf => absurd hf List.not_mem_nil, .none hc hs hw⟩

theorem Serves.one (frame : Frame) (hs : frame.Served) (h : Writes self next [frame]) :
    Serves self next :=
  ⟨[frame], fun _ hf => by rw [List.mem_singleton.mp hf]; exact hs, h⟩

/-! ### Branches -/

theorem greet_serves (outcome : SendOutcome) : Serves self (self.greet config outcome) := by
  unfold greet
  dsimp only
  split
  · exact .none rfl (Shared.settleReady_eventSequences _ _) rfl
  · exact .none rfl rfl rfl

theorem onLivenessTick_serves : Serves self self.onLivenessTick := by
  unfold onLivenessTick
  split
  · exact .none rfl rfl rfl
  · exact .one .ping trivial ⟨rfl, rfl, rfl⟩

theorem respondError_writes (id : String) (error : RemoteError) :
    Writes self (self.respondError id error) [errorFrame id error] :=
  ⟨rfl, rfl, rfl⟩

theorem respondResult_serves (method id : String) (value : Value) :
    Serves self (self.respondResult config method id value) := by
  unfold respondResult
  dsimp only
  split
  · exact .one (.res ⟨id, value⟩) trivial ⟨rfl, rfl, rfl⟩
  · exact .one _ (errorFrame_served _ _) (respondError_writes id _)

theorem onRequest_serves (request : Request) (call : HandlerCall) :
    Serves self (self.onRequest config request call) := by
  unfold onRequest
  split
  · exact .one _ (errorFrame_served _ _) (respondError_writes _ _)
  · cases call <;> exact .none rfl rfl rfl

theorem onHandlerSettled_serves (task : TaskId) (settled : Settled) :
    Serves self (self.onHandlerSettled config task settled) := by
  unfold onHandlerSettled
  dsimp only
  split
  · exact .none rfl rfl rfl
  · split
    · exact .none rfl rfl rfl
    · split
      · obtain ⟨frames, hse, hc, hs, hsen⟩ := respondResult_serves _ _ _
        exact ⟨frames, hse, hc, hs, hsen⟩
      · exact .one (errorFrame _ _) trivial ⟨rfl, rfl, rfl⟩

theorem onHello_serves (hello : Hello) : Serves self (self.onHello config hello) := by
  unfold onHello
  split
  · exact .none rfl rfl rfl
  · split
    · exact .none rfl (Shared.settleReady_eventSequences _ _) rfl
    · exact .none rfl (Shared.settleReady_eventSequences _ _) rfl

theorem onFrame_serves (frame : Frame) (call : HandlerCall) :
    Serves self (self.onFrame config frame call) := by
  cases frame with
  | hello hello => exact onHello_serves hello
  | req request => exact onRequest_serves request call
  | res | err =>
    unfold onFrame onResponse
    dsimp only
    split <;> exact .none rfl rfl rfl
  | evt event =>
    refine .none rfl ?_ rfl
    simp only [onFrame, Shared.fanOutEvent]
    split <;> rfl
  | cancel cancel =>
    unfold onFrame onCancel
    dsimp only
    split <;> exact .none rfl rfl rfl
  | ping => exact .one .pong trivial ⟨rfl, rfl, rfl⟩
  | close | pong => exact .none rfl rfl rfl

theorem onInbound_serves (item : Option Inbound) (call : HandlerCall) :
    Serves self (self.onInbound config item call) := by
  rcases item with _ | ⟨frame | closure⟩
  · exact .none rfl rfl rfl
  · exact onFrame_serves frame call
  · exact .none rfl rfl rfl

theorem DriverMove.serves {step : DriverStep} (h : DriverMove config self step next)
    (hco : step ≠ .command) (ht : step ≠ .teardown) : Serves self next := by
  cases h with
  | greet outcome => exact greet_serves outcome
  | handshakeTimeout => exact .none rfl (Shared.settleReady_eventSequences _ _) rfl
  | livenessTick => exact onLivenessTick_serves
  | settled task settled invocation =>
    obtain ⟨frames, hse, hc, hs, hsen⟩ := onHandlerSettled_serves task settled
    exact ⟨frames, hse, hc, hs, hsen⟩
  | inbound call item inbound =>
    obtain ⟨frames, hse, hc, hs, hsen⟩ := onInbound_serves item call
    exact ⟨frames, hse, hc, hs, hsen⟩
  | command => exact absurd rfl hco
  | teardown => exact absurd rfl ht
  | sendFailed | drain | finish => exact .none rfl rfl rfl

/-! ### Commands and the teardown -/

theorem onCommand_writes (self : Session H) (command : Command) :
    Writes self (self.onCommand command) command.frame.toList := by
  cases command with
  | close => exact .none rfl rfl rfl
  | request frame reply => cases frame <;> exact ⟨rfl, rfl, rfl⟩
  | cancel id forget => cases forget <;> exact ⟨rfl, rfl, rfl⟩
  | send frame => exact ⟨rfl, rfl, rfl⟩

theorem advanceTeardown_writes {reason : Teardown} {stage : TeardownStage}
    (h : self.advanceTeardown reason stage = some next) :
    next.commands = self.commands ∧ next.writer = self.writer ∧
      (stage ≠ .failing ∧ next.shared.eventSequences = self.shared.eventSequences ∨
        stage = .failing ∧ next.shared.eventSequences = ∅ ∧
          next.phase = .closing reason .draining) := by
  cases advanceTeardown_move h with
  | marking | flushing => exact ⟨rfl, rfl, .inl ⟨nofun, rfl⟩⟩
  | settling => exact ⟨rfl, rfl, .inl ⟨nofun, Shared.settleReady_eventSequences _ _⟩⟩
  | failing => exact ⟨rfl, rfl, .inr ⟨rfl, rfl, rfl⟩⟩

theorem step_sent {label : Label H} (h : self.step config label = some next) :
    ∃ frames, next.writer.sent = self.writer.sent ++ frames ∧ ∀ frame ∈ frames,
      frame.Served ∨ ∃ command ∈ self.commands.sent, command.frame = some frame := by
  have none (hs : next.writer.sent = self.writer.sent) :
      ∃ frames, next.writer.sent = self.writer.sent ++ frames ∧ ∀ frame ∈ frames,
        frame.Served ∨ ∃ command ∈ self.commands.sent, command.frame = some frame :=
    ⟨[], by rw [hs, List.append_nil], fun _ hf => absurd hf List.not_mem_nil⟩
  cases step_move h with
  | api _ _ move =>
    cases move with
    | post | start | follow | number | request => exact none rfl
  | arrive => exact none rfl
  | transmit _ _ _ _ hr => exact none (Channel.recv_sent hr)
  | driver step next move =>
    by_cases hc : step = .command
    · subst hc
      cases move with | command command commands _ hr =>
      obtain ⟨-, -, hs⟩ := onCommand_writes { self with commands } command
      refine ⟨command.frame.toList, hs, fun frame hf => .inr ⟨command, ?_, ?_⟩⟩
      · exact Channel.mem_sent_of_recv hr
      · exact Option.mem_toList.mp hf
    · by_cases ht : step = .teardown
      · subst ht
        cases move with | teardown _ _ _ _ hn =>
        exact none (by rw [(advanceTeardown_writes hn).2.1])
      · obtain ⟨frames, hse, -, -, hs⟩ := move.serves hc ht
        exact ⟨frames, hs, fun frame hf => .inl (hse frame hf)⟩

end Session

end MangoProtocol
