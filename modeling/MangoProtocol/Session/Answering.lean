import MangoProtocol.Session.Moves

/-! A session as the peer that answers.  `Answerer` is the part of a session that answering
concerns: the requests it received, the answers it queued and the bookkeeping between them.
`Answerer.Step` says what can happen to that part, and every step of a session is such a step. -/

namespace MangoProtocol

open ProofKit

variable {H : Type} {config : Config}

/-- The request that a received item carries. -/
def requestOf (item : Option Inbound) : Option Request := (frameOf item).bind Frame.request

/-- The phases in which the driver keeps track of the requests it is answering. -/
def Phase.serving : Phase → Bool
  | .greeting | .running => true
  | .closing _ stage => stage ≠ .draining
  | .finished _ | .crashed => false

structure Answerer (H : Type) where
  requests : List Request
  answers : List (String × Except RemoteError Value)
  tracking : RequestTracking H
  inFlight : Nat
  started : List (Invocation H)
  finished : List (Invocation H × Settled)
  produced : List (String × Except RemoteError Value)
  serving : Bool

/-- The answering part of a session. -/
def Session.answerer (self : Session H) : Answerer H where
  requests := self.inbound.received.filterMap requestOf
  answers := self.writer.sent.filterMap Frame.answer
  tracking := self.tracking
  inFlight := self.shared.inFlight
  started := self.started
  finished := self.finished
  produced := self.produced
  serving := self.phase.serving

/-- The request that an invocation answers. -/
def Invocation.request (invocation : Invocation H) : Request :=
  ⟨invocation.id, invocation.method, invocation.params⟩

/-! ### The steps of an answerer -/

namespace Answerer

/-- Queues an answer. -/
def answer (self : Answerer H) (id : String) (outcome : Except RemoteError Value) : Answerer H :=
  { self with
    answers := self.answers ++ [(id, outcome)]
    produced := self.produced ++ [(id, outcome)] }

/-- Receives a request. -/
def receive (self : Answerer H) (request : Request) : Answerer H :=
  { self with requests := self.requests ++ [request] }

/-- Starts the handler of a request. -/
def start (self : Answerer H) (invocation : Invocation H) : Answerer H :=
  { self with
    tracking := {
      tasks := self.tracking.tasks.insert invocation.task invocation
      active := self.tracking.active.insert invocation.id ⟨false, invocation.method⟩
      byTaskId := self.tracking.byTaskId.insert invocation.task invocation.id }
    inFlight := self.inFlight + 1
    started := self.started ++ [invocation] }

/-- Joins the task of a handler. -/
def join (self : Answerer H) (invocation : Invocation H) (task : TaskId) (settled : Settled) :
    Answerer H :=
  { self with
    tracking := { self.tracking with tasks := self.tracking.tasks.erase task }
    finished := self.finished ++ [(invocation, settled)] }

/-- Forgets the request of a joined task. -/
def release (self : Answerer H) (task : TaskId) (id : String) : Answerer H :=
  { self with
    tracking := { self.tracking with
      active := self.tracking.active.erase id
      byTaskId := self.tracking.byTaskId.erase task }
    inFlight := Session.fetchSub self.inFlight }

/-- What an answerer can do.  The registry is that of the moment. -/
inductive Step (registry : Table String (Nat × H)) (self : Answerer H) : Answerer H → Prop
  | idle : Step registry self self
  | refuse (request : Request) (error : RemoteError) :
    Step registry self ((self.receive request).answer request.id (.error error))
  | dispatch (invocation : Invocation H) (generation : Nat) (hserving : self.serving = true)
    (hregistered : registry.lookup invocation.method = some (generation, invocation.handler))
    (hfresh : invocation.task ∉ self.tracking.tasks)
    (hinactive : invocation.id ∉ self.tracking.active) :
    Step registry self ((self.receive invocation.request).start invocation)
  | crash (request : Request) :
    Step registry self { self.receive request with inFlight := self.inFlight + 1, serving := false }
  | cancel (id : String) (request : ActiveRequest)
    (hactive : self.tracking.active.lookup id = some request) :
    Step registry self { self with tracking := { self.tracking with
      active := self.tracking.active.replace id { request with cancelled := true } } }
  | settle (task : TaskId) (invocation : Invocation H) (settled : Settled)
    (outcome : Except RemoteError Value) (hserving : self.serving = true)
    (htask : self.tracking.tasks.lookup task = some invocation)
    (houtcome : ∀ value, outcome = .ok value → settled = .returned (.ok value)) :
    Step registry self
      (((self.join invocation task settled).release task invocation.id).answer invocation.id
        outcome)
  | close :
    Step registry self { self with
      tracking := { self.tracking with active := ∅ }, serving := false }
  | drain (task : TaskId) (invocation : Invocation H) (settled : Settled)
    (hserving : self.serving = false)
    (htask : self.tracking.tasks.lookup task = some invocation) :
    Step registry self (self.join invocation task settled)

variable {self : Answerer H}

theorem Step.of_eq {registry : Table String (Nat × H)} {next : Answerer H} (h : next = self) :
    Step registry self next := by
  rw [h]
  exact .idle

/-- The three maps are in step, and the count is their size. -/
structure InStep (answerer : Answerer H) : Prop where
  task : ∀ task, answerer.tracking.byTaskId.lookup task =
    (answerer.tracking.tasks.lookup task).map Invocation.id
  active : ∀ id, id ∈ answerer.tracking.active ↔
    ∃ task, answerer.tracking.byTaskId.lookup task = some id
  unique : ∀ task other id, answerer.tracking.byTaskId.lookup task = some id →
    answerer.tracking.byTaskId.lookup other = some id → task = other
  inFlight : answerer.inFlight = answerer.tracking.active.entries.length

theorem InStep.lookup {task : TaskId} {invocation : Invocation H} (h : self.InStep)
    (ht : self.tracking.tasks.lookup task = some invocation) :
    self.tracking.byTaskId.lookup task = some invocation.id ∧
      ∃ request, self.tracking.active.lookup invocation.id = some request := by
  have hid : self.tracking.byTaskId.lookup task = some invocation.id := by
    rw [h.task, ht]
    rfl
  exact ⟨hid, Option.isSome_iff_exists.mp
    (AList.lookup_isSome.mpr ((h.active _).mpr ⟨task, hid⟩))⟩

end Answerer

/-! ### Steps of a session that do not concern answering -/

namespace Session

variable {self : Session H}

theorem answerer_control (shared : Shared H) (phase : Phase)
    (hs : shared.inFlight = self.shared.inFlight)
    (hp : phase.serving = self.phase.serving) :
    { self with shared, phase }.answerer = self.answerer := by
  simp only [answerer, hs, hp]

theorem breakLoop_answerer (reason : Teardown) (hp : self.phase = .running) :
    (self.breakLoop reason).answerer = self.answerer :=
  answerer_control self.shared _ rfl (by rw [hp]; rfl)

theorem enqueue_answerer {frame : Frame} (hf : frame.answer = none) :
    (self.enqueue frame).answerer = self.answerer := by
  simp [answerer, enqueue, List.filterMap_append, hf]

theorem greet_answerer (outcome : SendOutcome) (hp : self.phase = .greeting) :
    (self.greet config outcome).answerer = self.answerer := by
  unfold greet
  dsimp only
  split
  · exact answerer_control _ _ (Shared.settleReady_inFlight _ _) (by rw [hp]; rfl)
  · exact answerer_control self.shared _ rfl (by rw [hp]; rfl)

theorem onLivenessTick_answerer (hp : self.phase = .running) :
    self.onLivenessTick.answerer = self.answerer := by
  unfold onLivenessTick
  split
  · exact breakLoop_answerer _ hp
  · exact (enqueue_answerer rfl : (self.enqueue .ping).answerer = self.answerer)

theorem onCommand_answerer {command : Command} (hl : command.Legal)
    (hp : self.phase = .running) : (self.onCommand command).answerer = self.answerer := by
  cases command with
  | close code reason => exact breakLoop_answerer _ hp
  | request frame reply =>
    obtain ⟨request, rfl⟩ := hl
    exact enqueue_answerer rfl
  | cancel id forget =>
    unfold onCommand
    cases forget
    · exact enqueue_answerer rfl
    · exact enqueue_answerer rfl
  | send frame =>
    refine enqueue_answerer ?_
    cases frame with
    | evt | ping => rfl
    | _ => cases hl

theorem onHello_answerer (hello : Hello) (hp : self.phase = .running) :
    (self.onHello config hello).answerer = self.answerer := by
  unfold onHello
  split
  · exact breakLoop_answerer _ hp
  · split
    · exact answerer_control _ _ (Shared.settleReady_inFlight _ _) (by rw [hp]; rfl)
    · exact answerer_control _ self.phase (Shared.settleReady_inFlight _ _) rfl

theorem onResponse_answerer (id : String) (result : Except RemoteError Value) :
    (self.onResponse id result).answerer = self.answerer := by
  unfold onResponse
  split <;> rfl

/-! ### Steps of a session that answer -/

theorem respondError_answerer (id : String) (error : RemoteError) :
    (self.respondError id error).answerer = self.answerer.answer id (.error error) := by
  simp [answerer, Answerer.answer, respondError, enqueue, answer_errorFrame]

theorem respondResult_answerer (self : Session H) (config : Config) (method id : String)
    (value : Value) :
    ∃ outcome, (outcome = .ok value ∨ ∃ error, outcome = .error error) ∧
      (self.respondResult config method id value).answerer = self.answerer.answer id outcome := by
  unfold respondResult
  dsimp only
  split
  · refine ⟨.ok value, .inl rfl, ?_⟩
    simp [answerer, Answerer.answer, enqueue, Frame.answer]
  · exact ⟨_, .inr ⟨_, rfl⟩, respondError_answerer id _⟩

variable {inbound : Channel (Option Inbound)} {registry : Table String (Nat × H)}
  {item : Option Inbound} {call : HandlerCall} {request : Request} {next : Session H}

theorem judgeRequest_accept {handler : H} (h : self.judgeRequest config request = .accept handler) :
    request.id ∉ self.tracking.active ∧
      ∃ generation, self.shared.handlers.lookup request.method = some (generation, handler) := by
  unfold judgeRequest at h
  split at h
  · cases h
  split at h
  · cases h
  split at h
  · cases h
  split at h
  · cases h
  rename_i hi _
  split at h
  · rename_i generation _ hl
    cases h
    exact ⟨hi, generation, hl⟩
  · cases h

theorem onHandlerSettled_answerer {task : TaskId} {invocation : Invocation H} {settled : Settled}
    (hs : self.answerer.InStep) (ht : self.tracking.tasks.lookup task = some invocation) :
    ∃ outcome, (∀ value, outcome = .ok value → settled = .returned (.ok value)) ∧
      ((self.joined task invocation settled).onHandlerSettled config task settled).answerer =
        ((self.answerer.join invocation task settled).release task invocation.id).answer
          invocation.id outcome := by
  obtain ⟨hid, request, ha⟩ := hs.lookup ht
  have heq := (self.joined task invocation settled).onHandlerSettled_eq config settled hid ha
  rw [heq]
  cases ho : outcomeOf settled with
  | ok value =>
    have hr : settled = .returned (.ok value) := by
      cases settled with
      | returned outcome => rw [show outcome = .ok value from ho]
      | panicked payload => cases ho
      | aborted => cases ho
    obtain ⟨outcome, hre, heq⟩ :=
      ((self.joined task invocation settled).release task invocation.id).respondResult_answerer
        config request.method invocation.id value
    refine ⟨outcome, fun other hot => ?_, heq⟩
    rcases hre with rfl | ⟨error, rfl⟩
    · cases hot
      exact hr
    · cases hot
  | error error =>
    exact ⟨.error error, fun value h => (by cases h), respondError_answerer _ error⟩

theorem spawnHandler_panic_answerer (request : Request) (handler : H) :
    (self.spawnHandler request handler .panic).answerer =
      { self.answerer with inFlight := self.answerer.inFlight + 1, serving := false } := rfl

theorem spawnHandler_future_answerer (request : Request) (handler : H) (task : TaskId) :
    (self.spawnHandler request handler (.future task)).answerer =
      self.answerer.start ⟨task, request.id, request.method, request.params, handler⟩ := rfl

theorem onRequest_answerer {before : Answerer H} (hs : self.answerer = before.receive request)
    (hse : before.serving = true) (hf : self.freshCall call = true) :
    before.Step self.shared.handlers (self.onRequest config request call).answerer := by
  unfold onRequest
  split
  · rw [respondError_answerer, hs]
    exact .refuse request _
  · rename_i handler ha
    obtain ⟨hi, generation, hr⟩ := judgeRequest_accept ha
    have ht : self.tracking = before.tracking := congrArg Answerer.tracking hs
    cases call with
    | panic =>
      rw [spawnHandler_panic_answerer, hs]
      exact .crash request
    | future task =>
      have hf : task ∉ self.tracking.tasks := of_decide_eq_true hf
      rw [ht] at hi hf
      rw [spawnHandler_future_answerer, hs]
      exact .dispatch ⟨task, request.id, request.method, request.params, handler⟩ generation
        hse hr hf hi

theorem onCancel_answerer (id : String) :
    self.answerer.Step registry (self.onCancel id).answerer := by
  unfold onCancel
  split
  · exact .cancel id _ ‹_›
  · exact .idle

theorem received_answerer (hr : self.inbound.recv = some (item, inbound))
    (hi : requestOf item = none) : { self with inbound }.answerer = self.answerer := by
  simp [answerer, Channel.recv_received hr, List.filterMap_append, hi]

theorem received_request_answerer
    (hr : self.inbound.recv = some (some (.frame (.req request)), inbound)) :
    { self with inbound }.answerer = self.answerer.receive request := by
  simp only [answerer, Answerer.receive, Channel.recv_received hr, List.filterMap_append]
  rfl

theorem onInbound_answerer (hp : self.phase = .running) (hf : self.freshCall call = true)
    (hr : self.inbound.recv = some (item, inbound)) :
    self.answerer.Step self.shared.handlers
      ({ self with inbound }.onInbound config item call).answerer := by
  have hs : self.answerer.serving = true := by
    rw [answerer, hp]
    rfl
  have idle {next : Session H} (hi : requestOf item = none)
      (hn : next.answerer = { self with inbound }.answerer) :
      self.answerer.Step self.shared.handlers next.answerer :=
    .of_eq (hn.trans (received_answerer hr hi))
  rcases item with _ | ⟨frame | closure⟩
  · exact idle rfl (breakLoop_answerer _ hp)
  · cases frame with
    | hello hello => exact idle rfl (onHello_answerer hello hp)
    | close close => exact idle rfl (breakLoop_answerer _ hp)
    | req request => exact onRequest_answerer (received_request_answerer hr) hs hf
    | res response => exact idle rfl (onResponse_answerer _ _)
    | err error => exact idle rfl (onResponse_answerer _ _)
    | evt event => exact idle rfl (answerer_control _ _ (Shared.fanOutEvent_inFlight _ _) rfl)
    | cancel cancel =>
      rw [← received_answerer hr rfl]
      exact onCancel_answerer cancel.id
    | ping => exact idle rfl (enqueue_answerer rfl)
    | pong => exact idle rfl rfl
  · exact idle rfl (breakLoop_answerer _ hp)

theorem advanceTeardown_answerer {reason : Teardown} {stage : TeardownStage}
    (hp : self.phase = .closing reason stage)
    (h : self.advanceTeardown reason stage = some next) :
    self.answerer.Step registry next.answerer := by
  cases advanceTeardown_move h with
  | marking | flushing => exact .of_eq (answerer_control _ _ rfl (by rw [hp]; rfl))
  | settling =>
    exact .of_eq (answerer_control _ _ (Shared.settleReady_inFlight _ _) (by rw [hp]; rfl))
  | failing => exact .close

theorem step_answerer {label : Label H} (hl : ∀ command ∈ self.commands.sent, command.Legal)
    (hst : self.answerer.serving = true → self.answerer.InStep)
    (h : self.step config label = some next) :
    self.answerer.Step self.shared.handlers next.answerer := by
  have hs {phase : Phase} (hp : self.phase = phase) :
      self.answerer.serving = phase.serving := by rw [answerer, hp]
  cases step_move h with
  | api step next move =>
    refine .of_eq ?_
    cases move with
    | post shared commands hsh => exact answerer_control shared _ hsh.inFlight rfl
    | start | follow | number | request => rfl
  | arrive item => exact .of_eq (by simp [answerer])
  | transmit outcome frame writer sendFailure hr =>
    exact .of_eq (by simp [answerer, Channel.recv_sent hr])
  | driver step next move =>
    cases move with
    | greet outcome hp => exact .of_eq (greet_answerer outcome hp)
    | sendFailed outcome hp => exact .of_eq (breakLoop_answerer _ hp)
    | handshakeTimeout hp =>
      exact .of_eq (answerer_control _ _ (Shared.settleReady_inFlight _ _) (by rw [hp]; rfl))
    | livenessTick hp => exact .of_eq (onLivenessTick_answerer hp)
    | settled task settled invocation hp ht =>
      obtain ⟨outcome, ho, heq⟩ := onHandlerSettled_answerer (hst (hs hp)) ht
      rw [heq]
      exact .settle task invocation settled outcome (hs hp) ht ho
    | command command commands hp hr =>
      exact .of_eq (onCommand_answerer (hl command (Channel.mem_sent_of_recv hr)) hp)
    | inbound call item inbound hp hf hr => exact onInbound_answerer hp hf hr
    | teardown reason stage next hp hn => exact advanceTeardown_answerer hp hn
    | drain task settled invocation reason hp ht =>
      exact .drain task invocation settled (hs hp) ht
    | finish reason hp => exact .of_eq (answerer_control _ _ rfl (by rw [hp]; rfl))

end Session

end MangoProtocol
