import MangoProtocol.Session.Responses

/-! Panics of handlers: one that a future raises while it is polled is contained, one that `call`
raises before it returns a future ends the driver. -/

namespace MangoProtocol

open ProofKit ProofKit.Tables

variable {H : Type} {config : Config}

namespace Session

variable {self next : Session H} {task : TaskId} {invocation : Invocation H}

def panicFrame (id : String) (payload : PanicPayload) : Frame :=
  errorFrame id (.new codes.internal (panicMessage payload))

/-- What is left of a handler that panicked while it ran: the loop goes on, its request was answered
with one error and is no longer tracked. -/
structure Answered (task : TaskId) (id : String) (payload : PanicPayload)
    (before after : Session H) : Prop where
  phase : after.phase = .running
  sent : after.writer.sent = before.writer.sent ++ [panicFrame id payload]
  active : after.tracking.active = before.tracking.active.erase id
  byTaskId : after.tracking.byTaskId = before.tracking.byTaskId.erase task
  inFlight : after.shared.inFlight + 1 = before.shared.inFlight

theorem Reachable.settled_panicked (h : self.Reachable config) (hp : self.phase = .running)
    (ht : self.tracking.tasks.lookup task = some invocation) (payload : PanicPayload) :
    ∃ final, self.step config (.driver (.settled task (.panicked payload))) = some final ∧
      Answered task invocation.id payload self final := by
  have hs := h.accounts_traced.1.inStep (show self.phase.serving = true by rw [hp]; rfl)
  obtain ⟨hid, request, ha⟩ := hs.lookup ht
  have hse : self.step config (.driver (.settled task (.panicked payload))) =
      some (((self.joined task invocation (.panicked payload)).release task
        invocation.id).respondError invocation.id
          (.new codes.internal (panicMessage payload))) := by
    rw [Session.step, driverStep_running hp, loopStep,
      joinTask_eq_some.mpr ⟨invocation, ht, rfl⟩]
    exact congrArg some
      ((self.joined task invocation (.panicked payload)).onHandlerSettled_eq config _ hid ha)
  refine ⟨_, hse, hp, rfl, rfl, rfl, ?_⟩
  have hc : self.shared.inFlight = self.tracking.active.entries.length := hs.inFlight
  have hpo : 0 < self.tracking.active.entries.length := size_pos (mem_of_lookup ha)
  change fetchSub self.shared.inFlight + 1 = self.shared.inFlight
  rw [fetchSub, if_neg (by omega)]
  omega

/-- A panic of the handler of `request` is contained.  The session `next` is the one that called the
handler, `self` the one before. -/
structure Contained (config : Config) (session : Session H) (request : Request)
    (payload : PanicPayload) (next : Session H) : Prop where
  running : next.phase = .running
  started : ∃ task invocation, invocation.id = request.id ∧
    next.tracking.tasks.lookup task = some invocation ∧
    (∃ final, next.step config (.driver (.settled task (.panicked payload))) = some final ∧
      final.phase = .running ∧
      final.writer.sent = session.writer.sent ++ [panicFrame request.id payload] ∧
      final.shared.inFlight = session.shared.inFlight ∧
      final.tracking.active = session.tracking.active ∧
      final.tracking.byTaskId = session.tracking.byTaskId) ∧
    ∀ labels later, Machine.run (Session.step config) next labels = some later →
      later.phase = .running → later.tracking.tasks.lookup task = some invocation →
      ∃ final, later.step config (.driver (.settled task (.panicked payload))) = some final ∧
        Answered task request.id payload later final

theorem Reachable.run {labels : List (Label H)} (h : self.Reachable config)
    (hr : Machine.run (Session.step config) self labels = some next) : next.Reachable config := by
  obtain ⟨handlers, before, hb⟩ := h
  exact ⟨handlers, before ++ labels, Machine.run_append.mpr ⟨self, hb, hr⟩⟩

theorem onInbound_accept {request : Request} {handler : H} {call : HandlerCall}
    (ha : self.judgeRequest config request = .accept handler) :
    self.onInbound config (some (.frame (.req request))) call =
      self.spawnHandler request handler call := by
  simp only [onInbound, onFrame, onRequest, ha]

theorem inbound_panic_crashes {request : Request} {inbound : Channel (Option Inbound)} {handler : H}
    (hp : self.phase = .running)
    (hr : self.inbound.recv = some (some (.frame (.req request)), inbound))
    (ha : { self with inbound }.judgeRequest config request = .accept handler) :
    ∃ next, self.step config (.driver (.inbound .panic)) = some next ∧ next.phase = .crashed ∧
      next.writer = self.writer ∧ next.shared.inFlight = self.shared.inFlight + 1 := by
  refine ⟨{ self with inbound }.spawnHandler request handler .panic, ?_, rfl, rfl, rfl⟩
  rw [step_inbound hp rfl hr, onInbound_accept ha]

/-- A panic of a registered handler is contained exactly when `call` returned a future, which raised
it while it was polled. -/
theorem inbound_panic_contained_iff {request : Request} {inbound : Channel (Option Inbound)}
    {handler : H} {call : HandlerCall} (h : self.Reachable config) (hphase : self.phase = .running)
    (hrecv : self.inbound.recv = some (some (.frame (.req request)), inbound))
    (haccept : { self with inbound }.judgeRequest config request = .accept handler)
    (hstep : self.step config (.driver (.inbound call)) = some next) (payload : PanicPayload) :
    Contained config self request payload next ↔ ∃ task, call = .future task := by
  have hin := h.accounts_traced.1.inStep (show self.phase.serving = true by rw [hphase]; rfl)
  have hr := h.step hstep
  cases step_move hstep with | driver _ _ move =>
  cases move with | inbound _ item taken _ hfr hr' =>
  rw [hrecv] at hr'
  cases hr'
  rw [onInbound_accept haccept] at hr ⊢
  cases call with
  | panic =>
    refine iff_of_false (fun contained => ?_) (fun ⟨task, ht⟩ => by cases ht)
    cases contained.running
  | future task =>
    refine iff_of_true ⟨hphase, task, _, rfl, AList.lookup_insert _, ?_, ?_⟩ ⟨task, rfl⟩
    · obtain ⟨final, hf, answered⟩ :=
        hr.settled_panicked hphase (AList.lookup_insert _) payload
      have hi := (judgeRequest_accept haccept).1
      have hu : task ∉ self.tracking.byTaskId := by
        rw [← AList.lookup_eq_none]
        exact (hin.task task).trans (by
          rw [AList.lookup_eq_none.mpr (show task ∉ self.answerer.tracking.tasks from
            of_decide_eq_true hfr)]
          rfl)
      refine ⟨final, hf, answered.phase, answered.sent, Nat.succ.inj answered.inFlight, ?_, ?_⟩
      · rw [answered.active]
        exact erase_insert hi
      · rw [answered.byTaskId]
        exact erase_insert hu
    · intro labels later hrun hru ht
      exact (hr.run hrun).settled_panicked hru ht payload

/-! ### One request -/

/-- A ready session with one request waiting. -/
def requestLabels : List (Label Unit) :=
  greetingLabels ++ [.port (.arrive (some (.frame (.req (clockRequest "r-1")))))]

def offersClock (config : Config) (self : Session Unit) : Bool :=
  match self.inbound.recv with
  | some (some (.frame (.req request)), inbound) =>
    match { self with inbound }.judgeRequest config request with
    | .accept _ => request.id = "r-1" ∧ request.method = "clock.read"
    | .refuse _ => false
  | _ => false

theorem offersClock_eq_true {self : Session Unit} (h : self.offersClock config = true) :
    ∃ request inbound, request.id = "r-1" ∧ request.method = "clock.read" ∧
      self.inbound.recv = some (some (.frame (.req request)), inbound) ∧
      { self with inbound }.judgeRequest config request = .accept () := by
  unfold offersClock at h
  split at h
  · grind
  · cases h

theorem requestLabels_run :
    ∃ session, Machine.run (Session.step (sampleConfig [])) (initial [("clock.read", ())])
        requestLabels = some session ∧
      session.phase = .running ∧ session.freshCall (.future 7) = true ∧
      session.offersClock (sampleConfig []) = true := by
  exact Machine.exists_run (by decide +kernel)

/-- The handler of the request panics before it returns a future. -/
theorem inbound_panic_not_contained :
    ∃ (session : Session Unit) (request : Request) (next : Session Unit),
      session.Reachable (sampleConfig []) ∧ session.phase = .running ∧ request.id = "r-1" ∧
      session.step (sampleConfig []) (.driver (.inbound .panic)) = some next ∧
      next.phase = .crashed ∧ next.writer = session.writer ∧
      next.shared.inFlight = session.shared.inFlight + 1 ∧
      ¬Contained (sampleConfig []) session request (.str "boom") next := by
  obtain ⟨session, hru, hp, -, ho⟩ := requestLabels_run
  obtain ⟨request, inbound, hid, -, hr, ha⟩ := offersClock_eq_true ho
  obtain ⟨next, hs, hc, hw, hi⟩ := inbound_panic_crashes hp hr ha
  refine ⟨session, request, next, ⟨_, _, hru⟩, hp, hid, hs, hc, hw, hi,
    fun contained => ?_⟩
  cases hc.symm.trans contained.running

/-- The handler of the request panics while its future is polled. -/
theorem inbound_panic_contained_iff_future :
    ∃ (session : Session Unit) (request : Request) (next : Session Unit),
      session.step (sampleConfig []) (.driver (.inbound (.future 7))) = some next ∧
      (Contained (sampleConfig []) session request (.str "boom") next ↔
        ∃ task, HandlerCall.future 7 = .future task) := by
  obtain ⟨session, hru, hp, hf, ho⟩ := requestLabels_run
  obtain ⟨request, inbound, -, -, hr, ha⟩ := offersClock_eq_true ho
  have hs : session.step (sampleConfig []) (.driver (.inbound (.future 7))) = some _ :=
    step_inbound hp hf hr
  exact ⟨session, request, _, hs,
    inbound_panic_contained_iff ⟨_, _, hru⟩ hp hr ha hs (.str "boom")⟩

end Session

end MangoProtocol
