import MangoProtocol.Session.Answering
import MangoProtocol.Session.Calling

/-! The response guarantee: every request that a session received was answered once or is still
active, and each answer comes from the request it is for. -/

namespace MangoProtocol

open ProofKit ProofKit.Tables

variable {H : Type} {config : Config}

namespace Answerer

variable {registry : Table String (Nat × H)} {self next : Answerer H} {id : String}

/-! ### The maps stay in step -/

theorem InStep.indexes (h : self.InStep) :
    Indexes self.tracking.byTaskId self.tracking.active := ⟨h.active, h.unique⟩

variable {invocation : Invocation H} {task : TaskId}

theorem InStep.start (h : self.InStep) (hf : invocation.task ∉ self.tracking.tasks)
    (hin : invocation.id ∉ self.tracking.active) : (self.start invocation).InStep := by
  have hu : self.tracking.byTaskId.lookup invocation.task = none := by
    rw [h.task, AList.lookup_eq_none.mpr hf]
    rfl
  have hi : Indexes (self.start invocation).tracking.byTaskId
      (self.start invocation).tracking.active := h.indexes.insert hu hin
  refine ⟨?_, hi.mem, hi.unique, ?_⟩
  · intro task
    simp only [Answerer.start, lookup_insert_eq]
    split
    · rfl
    · exact h.task task
  · simp only [Answerer.start, size_insert hin, h.inFlight]

theorem InStep.release {settled : Settled} (h : self.InStep)
    (ht : self.tracking.tasks.lookup task = some invocation) :
    ((self.join invocation task settled).release task invocation.id).InStep := by
  obtain ⟨hid, -⟩ := h.lookup ht
  have ha : invocation.id ∈ self.tracking.active := (h.active _).mpr ⟨task, hid⟩
  have hi := h.indexes.erase hid
  refine ⟨?_, hi.mem, hi.unique, ?_⟩
  · intro other
    simp only [join, Answerer.release, lookup_erase_eq]
    split
    · rfl
    · exact h.task other
  · have hp := size_pos ha
    simp only [join, Answerer.release, size_erase ha, Session.fetchSub, h.inFlight,
      if_neg hp.ne']

theorem InStep.cancel {request : ActiveRequest} (h : self.InStep) :
    InStep { self with tracking := { self.tracking with
      active := self.tracking.active.replace id request } } where
  task := h.task
  active := by simpa only [AList.mem_replace] using h.active
  unique := h.unique
  inFlight := by simpa only [size_replace] using h.inFlight

theorem Step.served (h : self.Step registry next) (hs : next.serving = true) :
    self.serving = true := by
  cases h with
  | crash | close => cases hs
  | _ => exact hs

theorem Step.inStep (h : self.Step registry next) (hst : self.serving = true → self.InStep)
    (hs : next.serving = true) : next.InStep := by
  cases h with
  | idle => exact hst hs
  | refuse request error =>
    obtain ⟨ht, ha, hu, hi⟩ := hst hs
    exact ⟨ht, ha, hu, hi⟩
  | dispatch invocation generation _ _ hf hina =>
    obtain ⟨ht, ha, hu, hi⟩ := hst hs
    exact InStep.start ⟨ht, ha, hu, hi⟩ hf hina
  | crash => cases hs
  | cancel => exact (hst hs).cancel
  | settle task invocation settled outcome _ ht =>
    obtain ⟨ht, ha, hu, hi⟩ := (hst hs).release ht
    exact ⟨ht, ha, hu, hi⟩
  | close => cases hs
  | drain _ _ _ hc => exact absurd (hc.symm.trans hs) Bool.false_ne_true

theorem Step.registered (h : self.Step registry next) (hb : invocation ∉ self.started)
    (ha : invocation ∈ next.started) :
    ∃ generation, registry.lookup invocation.method = some (generation, invocation.handler) := by
  cases h with
  | dispatch started generation _ hr =>
    rcases List.mem_append.mp ha with ha | ha
    · exact absurd ha hb
    · rw [List.mem_singleton.mp ha]
      exact ⟨generation, hr⟩
  | _ => exact absurd ha hb

/-! ### Counting -/

def requestCount (self : Answerer H) (id : String) : Nat :=
  self.requests.countP (·.id = id)

/-- How many answers to an id were queued. -/
def answerCount (self : Answerer H) (id : String) : Nat :=
  self.answers.countP (·.1 = id)

/-- How many requests with an id are active. -/
def activeCount (self : Answerer H) (id : String) : Nat :=
  if id ∈ self.tracking.active then 1 else 0

@[simp] theorem requestCount_receive (request : Request) :
    (self.receive request).requestCount id =
      self.requestCount id + if request.id = id then 1 else 0 := by
  simp [requestCount, receive, List.countP_append, List.countP_singleton]

@[simp] theorem answerCount_answer (other : String) (outcome : Except RemoteError Value) :
    (self.answer other outcome).answerCount id =
      self.answerCount id + if other = id then 1 else 0 := by
  simp [answerCount, answer, List.countP_append, List.countP_singleton]

theorem activeCount_start (hi : invocation.id ∉ self.tracking.active) :
    (self.start invocation).activeCount id =
      self.activeCount id + if invocation.id = id then 1 else 0 := by
  simp only [activeCount, start, AList.mem_insert]
  by_cases hid : invocation.id = id
  · subst hid
    simp [hi]
  · simp [hid, Ne.symm hid]

theorem activeCount_release {other : String} (task : TaskId)
    (ha : other ∈ self.tracking.active) :
    self.activeCount id =
      (self.release task other).activeCount id + if other = id then 1 else 0 := by
  simp only [activeCount, release, AList.mem_erase]
  by_cases hid : other = id
  · subst hid
    simp [ha]
  · simp [hid, Ne.symm hid]

theorem Step.counts (h : self.Step registry next) (hst : self.serving = true → self.InStep)
    (id : String) :
    (∃ more, next.requestCount id = self.requestCount id + more ∧
      next.answerCount id + next.activeCount id =
        self.answerCount id + self.activeCount id + more) ∨
    next.serving = false ∧ self.requestCount id ≤ next.requestCount id ∧
      next.answerCount id + next.activeCount id ≤ self.answerCount id + self.activeCount id := by
  cases h with
  | idle => exact .inl ⟨0, rfl, rfl⟩
  | refuse request error =>
    refine .inl ⟨if request.id = id then 1 else 0, requestCount_receive request, ?_⟩
    rw [answerCount_answer]
    exact Nat.add_right_comm _ _ _
  | dispatch invocation generation _ _ _ hi =>
    refine .inl ⟨if invocation.id = id then 1 else 0, requestCount_receive invocation.request, ?_⟩
    have ha : ((self.receive invocation.request).start invocation).activeCount id =
        self.activeCount id + if invocation.id = id then 1 else 0 := activeCount_start hi
    rw [ha]
    exact (Nat.add_assoc _ _ _).symm
  | crash request =>
    refine .inr ⟨rfl, ?_, le_rfl⟩
    exact (Nat.le_add_right _ _).trans (requestCount_receive request).ge
  | cancel other request =>
    refine .inl ⟨0, rfl, ?_⟩
    simp only [answerCount, activeCount, AList.mem_replace, Nat.add_zero]
  | settle task invocation settled outcome hs ht =>
    have ha : invocation.id ∈ self.tracking.active :=
      (((hst hs).active _).mpr ⟨task, ((hst hs).lookup ht).1⟩)
    refine .inl ⟨0, rfl, ?_⟩
    rw [answerCount_answer, activeCount_release task ha, Nat.add_right_comm, ← Nat.add_assoc]
    rfl
  | close =>
    refine .inr ⟨rfl, le_rfl, ?_⟩
    simp [answerCount, activeCount]
  | drain => exact .inl ⟨0, rfl, rfl⟩

/-- What the counts of an answerer keep to.  No request is answered twice, and while the session
serves every request is answered or active. -/
structure Accounts (answerer : Answerer H) : Prop where
  inStep : answerer.serving = true → answerer.InStep
  solvent : ∀ id,
    answerer.answerCount id + answerer.activeCount id ≤ answerer.requestCount id
  balanced : answerer.serving = true → ∀ id,
    answerer.requestCount id = answerer.answerCount id + answerer.activeCount id

theorem Step.accounts (h : self.Step registry next) (accounts : self.Accounts) :
    next.Accounts where
  inStep := h.inStep accounts.inStep
  solvent id := by
    have := accounts.solvent id
    rcases h.counts accounts.inStep id with ⟨more, hr, ha⟩ | ⟨-, hr, ha⟩
    · omega
    · omega
  balanced hs id := by
    have := accounts.balanced (h.served hs) id
    rcases h.counts accounts.inStep id with ⟨more, hr, ha⟩ | ⟨hc, -, -⟩
    · omega
    · exact absurd (hc.symm.trans hs) Bool.false_ne_true

/-! ### Where answers come from -/

/-- Every answer has a history. -/
structure Traced (answerer : Answerer H) : Prop where
  answers : answerer.answers = answerer.produced
  started : (answerer.started.map Invocation.request).Sublist answerer.requests
  tasks : ∀ task invocation, answerer.tracking.tasks.lookup task = some invocation →
    invocation ∈ answerer.started
  finished : ∀ entry ∈ answerer.finished, entry.1 ∈ answerer.started
  results : ∀ id value, (id, .ok value) ∈ answerer.produced →
    ∃ invocation, invocation.id = id ∧ (invocation, .returned (.ok value)) ∈ answerer.finished

theorem Traced.receive (request : Request) (h : self.Traced) : (self.receive request).Traced where
  answers := h.answers
  started := h.started.trans (List.sublist_append_left _ _)
  tasks := h.tasks
  finished := h.finished
  results := h.results

theorem Traced.answer {outcome : Except RemoteError Value} (h : self.Traced)
    (hou : ∀ value, outcome = .ok value →
      ∃ invocation, invocation.id = id ∧ (invocation, .returned (.ok value)) ∈ self.finished) :
    (self.answer id outcome).Traced where
  answers := congrArg (· ++ [(id, outcome)]) h.answers
  started := h.started
  tasks := h.tasks
  finished := h.finished
  results other value ho := by
    rcases List.mem_append.mp ho with ho | ho
    · exact h.results other value ho
    · cases List.mem_singleton.mp ho
      exact hou value rfl

theorem Traced.start (h : self.Traced) :
    ((self.receive invocation.request).start invocation).Traced where
  answers := h.answers
  started := by
    simp only [Answerer.start, Answerer.receive, List.map_append]
    exact h.started.append (List.Sublist.refl _)
  tasks task other ho := by
    simp only [Answerer.start, Answerer.receive, lookup_insert_eq] at ho
    split at ho
    · cases ho
      exact List.mem_append_right _ (List.mem_singleton_self _)
    · exact List.mem_append_left _ (h.tasks task other ho)
  finished entry he := List.mem_append_left _ (h.finished entry he)
  results := h.results

theorem Traced.join (settled : Settled) (h : self.Traced)
    (ht : self.tracking.tasks.lookup task = some invocation) :
    (self.join invocation task settled).Traced where
  answers := h.answers
  started := h.started
  tasks other invocation ho := h.tasks other invocation (lookup_of_erase ho)
  finished entry he := by
    rcases List.mem_append.mp he with he | he
    · exact h.finished entry he
    · cases List.mem_singleton.mp he
      exact h.tasks task invocation ht
  results id value hid := by
    obtain ⟨other, ho, hf⟩ := h.results id value hid
    exact ⟨other, ho, List.mem_append_left _ hf⟩

theorem Step.traced (h : self.Step registry next) (traced : self.Traced) : next.Traced := by
  cases h with
  | idle => exact traced
  | refuse request error => exact (traced.receive request).answer fun value hv => by cases hv
  | dispatch invocation => exact traced.start
  | crash request =>
    have received := traced.receive request
    exact ⟨received.answers, received.started, received.tasks, received.finished,
      received.results⟩
  | cancel | close =>
    exact ⟨traced.answers, traced.started, traced.tasks, traced.finished, traced.results⟩
  | settle task invocation settled outcome _ ht ho =>
    have joined := traced.join settled ht
    refine Traced.answer
      ⟨joined.answers, joined.started, joined.tasks, joined.finished, joined.results⟩ ?_
    intro value hv
    refine ⟨invocation, rfl, List.mem_append_right _ ?_⟩
    rw [ho value hv]
    exact List.mem_singleton_self _
  | drain task invocation settled _ ht => exact traced.join settled ht

end Answerer

/-! ### Every reachable session -/

namespace Session

variable {self : Session H}

theorem initial_accounts (handlers : List (String × H)) :
    (initial handlers).answerer.Accounts where
  inStep _ := {
    task := fun _ => rfl
    active := fun id => by simp [answerer, initial]
    unique := fun task other id ht => by cases ht
    inFlight := (Shared.initial_counts handlers).1 }
  solvent id := by simp [Answerer.answerCount, Answerer.activeCount, answerer, initial]
  balanced _ id := by
    simp [Answerer.requestCount, Answerer.answerCount, Answerer.activeCount, answerer, initial]

theorem initial_traced (handlers : List (String × H)) : (initial handlers).answerer.Traced where
  answers := rfl
  started := List.Sublist.slnil
  tasks task invocation ht := by cases ht
  finished entry he := by cases he
  results id value hid := by cases hid

theorem Reachable.accounts_traced (h : self.Reachable config) :
    self.answerer.Accounts ∧ self.answerer.Traced := by
  refine (h.invariant (fun session => (∀ command ∈ session.commands.sent, command.Legal) ∧
    session.answerer.Accounts ∧ session.answerer.Traced) ?_ ?_).2
  · exact fun handlers => ⟨fun _ hc => absurd hc List.not_mem_nil,
      initial_accounts handlers, initial_traced handlers⟩
  · rintro session label next ⟨hl, accounts, traced⟩ hs
    have step := step_answerer hl accounts.inStep hs
    exact ⟨(step_caller hl hs).legal hl, step.accounts accounts, step.traced traced⟩

theorem Reachable.active_running (h : self.Reachable config) (hse : self.phase.serving = true)
    {id : String} (hid : id ∈ self.tracking.active) :
    ∃ task invocation, self.tracking.tasks.lookup task = some invocation ∧ invocation.id = id := by
  have hs := h.accounts_traced.1.inStep hse
  obtain ⟨task, ht⟩ := (hs.active id).mp hid
  rw [hs.task] at ht
  obtain ⟨invocation, hi, heq⟩ := Option.map_eq_some_iff.mp ht
  exact ⟨task, invocation, hi, heq⟩

theorem onRequest_active {request : Request} (ha : request.id ∈ self.tracking.active)
    (call : HandlerCall) :
    ∃ error, self.onRequest config request call = self.respondError request.id error := by
  cases hj : self.judgeRequest config request with
  | refuse error => exact ⟨error, by rw [onRequest, hj]⟩
  | accept handler => exact absurd ha (judgeRequest_accept hj).1

/-- In every state of every run up to the point where a teardown releases the handlers, the requests
received with an id are as many as the answers queued for it and its active entries.  An active
request has a running handler, and a duplicate of it gets an error of its own. -/
theorem run_responses {handlers : List (String × H)} {labels : List (Label H)}
    (hrun : Machine.run (Session.step config) (initial handlers) labels = some self)
    (hserving : self.phase.serving = true) :
    (∀ id, (self.inbound.received.filterMap requestOf).countP (·.id = id) =
      (self.writer.sent.filterMap Frame.answer).countP (·.1 = id) +
        if id ∈ self.tracking.active then 1 else 0) ∧
    (∀ id ∈ self.tracking.active, ∃ task invocation,
      self.tracking.tasks.lookup task = some invocation ∧ invocation.id = id) ∧
    ∀ request call, request.id ∈ self.tracking.active →
      ∃ error, self.onRequest config request call = self.respondError request.id error := by
  have hr : self.Reachable config := ⟨handlers, labels, hrun⟩
  exact ⟨hr.accounts_traced.1.balanced hserving,
    fun id hid => hr.active_running hserving hid,
    fun request call ha => onRequest_active ha call⟩

/-- A request and its duplicate. -/
def duplicateLabels : List (Label Unit) :=
  greetingLabels ++ [
    .port (.arrive (some (.frame (.req (clockRequest "r-1"))))), .driver (.inbound (.future 0)),
    .port (.arrive (some (.frame (.req (clockRequest "r-1"))))), .driver (.inbound (.future 1))]

theorem run_responses_duplicate :
    ∃ state, Machine.run (Session.step (sampleConfig [])) (initial [("clock.read", ())])
        duplicateLabels = some state ∧
      (state.inbound.received.filterMap requestOf).countP (·.id = "r-1") =
        (state.writer.sent.filterMap Frame.answer).countP (·.1 = "r-1") +
          if "r-1" ∈ state.tracking.active then 1 else 0 := by
  obtain ⟨state, hr, hs⟩ : ∃ state, Machine.run (Session.step (sampleConfig []))
      (initial [("clock.read", ())]) duplicateLabels = some state ∧ state.phase.serving = true :=
    Option.map_eq_some_iff.mp (by decide +kernel)
  exact ⟨state, hr, (run_responses hr hs).1 "r-1"⟩

end Session

end MangoProtocol
