import MangoProtocol.Session.Responses

/-! The bookkeeping of the requests that a session is answering.  The driver keeps three maps and a
counter under two keys, the id of a request and the id of the task that answers it.  In the main
loop they agree, and what they count stays within the limit that the session announced. -/

namespace MangoProtocol

open ProofKit ProofKit.Tables

variable {H : Type} {config : Config}

namespace Session

variable {self next : Session H}

/-! ### The limit -/

def underway (self : Session H) : Nat := self.tracking.active.entries.length

theorem underway_of_answerer (h : next.answerer = self.answerer) :
    next.underway = self.underway :=
  congrArg (fun answerer : Answerer H => answerer.tracking.active.entries.length) h

theorem judgeRequest_room {request : Request} {handler : H}
    (h : self.judgeRequest config request = .accept handler) :
    self.underway < config.maxInFlight := by
  unfold judgeRequest at h
  split at h
  · cases h
  split at h
  · cases h
  rename_i hr
  exact Nat.not_le.mp hr

theorem onRequest_underway (request : Request) (call : HandlerCall) :
    (self.onRequest config request call).underway ≤ max self.underway config.maxInFlight := by
  unfold onRequest
  split
  · exact le_max_left _ _
  · rename_i handler ha
    have hr := judgeRequest_room ha
    obtain ⟨hi, -⟩ := judgeRequest_accept ha
    cases call with
    | panic => exact le_max_left _ _
    | future task =>
      refine le_trans (le_of_eq ?_) (le_trans hr (le_max_right _ _))
      exact size_insert hi

theorem onCancel_underway (id : String) : (self.onCancel id).underway = self.underway := by
  unfold onCancel
  split
  · exact size_replace
  · rfl

theorem onInbound_underway {call : HandlerCall} {item : Option Inbound}
    (hp : self.phase = .running) :
    (self.onInbound config item call).underway ≤ max self.underway config.maxInFlight := by
  have idle {next : Session H} (h : next.answerer = self.answerer) :
      next.underway ≤ max self.underway config.maxInFlight :=
    (underway_of_answerer h).trans_le (le_max_left _ _)
  rcases item with _ | ⟨frame | closure⟩
  · exact idle (breakLoop_answerer _ hp)
  · cases frame with
    | hello hello => exact idle (onHello_answerer hello hp)
    | close close => exact idle (breakLoop_answerer _ hp)
    | req request => exact onRequest_underway request call
    | res response => exact idle (onResponse_answerer _ _)
    | err error => exact idle (onResponse_answerer _ _)
    | evt event => exact idle (answerer_control _ _ (Shared.fanOutEvent_inFlight _ _) rfl)
    | cancel cancel => exact (onCancel_underway cancel.id).trans_le (le_max_left _ _)
    | ping => exact idle (enqueue_answerer rfl)
    | pong => exact idle rfl
  · exact idle (breakLoop_answerer _ hp)

theorem respondResult_underway (method id : String) (value : Value) :
    (self.respondResult config method id value).underway = self.underway := by
  unfold respondResult
  dsimp only
  split <;> rfl

theorem onHandlerSettled_underway (task : TaskId) (settled : Settled) :
    (self.onHandlerSettled config task settled).underway ≤ self.underway := by
  unfold onHandlerSettled
  dsimp only
  split
  · exact le_rfl
  · split
    · exact le_rfl
    · split
      · rw [respondResult_underway]
        exact size_erase_le
      · exact size_erase_le

theorem step_underway {label : Label H} (hl : ∀ command ∈ self.commands.sent, command.Legal)
    (h : self.step config label = some next) :
    next.underway ≤ max self.underway config.maxInFlight := by
  have idle {next : Session H} (h : next.answerer = self.answerer) :
      next.underway ≤ max self.underway config.maxInFlight :=
    (underway_of_answerer h).trans_le (le_max_left _ _)
  cases step_move h with
  | api step next move =>
    cases move with
    | post | start | follow | number | request => exact le_max_left _ _
  | arrive | transmit => exact le_max_left _ _
  | driver step next move =>
    cases move with
    | greet outcome hp => exact idle (greet_answerer outcome hp)
    | sendFailed | handshakeTimeout | drain | finish => exact le_max_left _ _
    | livenessTick hp => exact idle (onLivenessTick_answerer hp)
    | settled task settled => exact (onHandlerSettled_underway task settled).trans (le_max_left _ _)
    | command command commands hp hr =>
      exact idle (onCommand_answerer (hl command (Channel.mem_sent_of_recv hr)) hp)
    | inbound call item inbound hp => exact onInbound_underway hp
    | teardown reason stage next hp hn =>
      cases stage with
      | flushing =>
        obtain ⟨-, hn⟩ := Option.ite_none_right_eq_some.mp hn
        cases hn
        exact le_max_left _ _
      | marking | settling =>
        cases hn
        exact le_max_left _ _
      | failing =>
        cases hn
        exact Nat.zero_le _
      | draining => cases hn

theorem Reachable.underway_le (h : self.Reachable config) :
    self.underway ≤ config.maxInFlight := by
  refine (h.invariant (fun session => (∀ command ∈ session.commands.sent, command.Legal) ∧
    session.underway ≤ config.maxInFlight) ?_ ?_).2
  · exact fun handlers => ⟨fun _ hc => absurd hc List.not_mem_nil, Nat.zero_le _⟩
  · rintro session label next ⟨hl, hr⟩ hs
    have hn := step_underway hl hs
    rw [max_eq_right hr] at hn
    exact ⟨(step_caller hl hs).legal hl, hn⟩

/-! ### The maps and the counter -/

/-- The maps and the counter agree, within the limit; and a task that is joined finds its request in
both maps and counted. -/
structure Booked (config : Config) (session : Session H) : Prop where
  values : (Tables.values session.tracking.byTaskId).Perm session.tracking.active.keys
  unrepeated : (Tables.values session.tracking.byTaskId).Nodup
  keys : session.tracking.byTaskId.keys.Perm session.tracking.tasks.keys
  inFlight : session.shared.inFlight = session.tracking.tasks.entries.length
  room : session.tracking.tasks.entries.length ≤ config.maxInFlight
  joined : ∀ task settled joined, session.joinTask task settled = some joined →
    joined.shared.inFlight ≠ 0 ∧ ∃ id request, joined.tracking.byTaskId.lookup task = some id ∧
      joined.tracking.active.lookup id = some request

/-- In every state that the main loop reaches. -/
theorem reachable_booked (h : self.Reachable config) (hphase : self.phase = .running) :
    self.Booked config := by
  have hse : self.answerer.serving = true := by
    rw [answerer, hphase]
    rfl
  have hs := h.accounts_traced.1.inStep hse
  have hv := hs.indexes.values_perm
  have hk : self.tracking.byTaskId.keys.Perm self.tracking.tasks.keys := by
    refine keys_perm fun task => ?_
    have ht : self.tracking.byTaskId.lookup task =
        (self.tracking.tasks.lookup task).map Invocation.id := hs.task task
    rw [← AList.lookup_isSome, ← AList.lookup_isSome, ht, Option.isSome_map]
  have hsi : self.tracking.tasks.entries.length = self.underway := by
    have hl : (Tables.values self.tracking.byTaskId).length =
        self.tracking.byTaskId.keys.length := by
      rw [Tables.values, List.length_map, size_keys]
    rw [underway, size_keys, size_keys, ← hk.length_eq, ← hl]
    exact hv.length_eq
  have hi : self.shared.inFlight = self.tracking.tasks.entries.length := by
    rw [hsi]
    exact hs.inFlight
  refine ⟨hv, hs.indexes.values_nodup, hk, hi, ?_, ?_⟩
  · rw [hsi]
    exact h.underway_le
  · intro task settled joined hj
    obtain ⟨invocation, ht, rfl⟩ := joinTask_eq_some.mp hj
    obtain ⟨hid, request, ha⟩ := hs.lookup ht
    refine ⟨?_, invocation.id, request, hid, ha⟩
    show self.shared.inFlight ≠ 0
    rw [hi]
    exact (size_pos (mem_of_lookup ht)).ne'

/-- A request is being answered, and its duplicate was refused. -/
theorem reachable_booked_duplicate :
    ∃ session : Session Unit, session.Reachable (sampleConfig []) ∧ session.phase = .running ∧
      session.shared.inFlight = 1 ∧ session.Booked (sampleConfig []) := by
  have he : ∃ session, Machine.run (Session.step (sampleConfig []))
      (initial [("clock.read", ())]) duplicateLabels = some session ∧
      session.phase = .running ∧ session.shared.inFlight = 1 :=
    Machine.exists_run (by decide +kernel)
  obtain ⟨session, hru, hp, hi⟩ := he
  have hr : session.Reachable (sampleConfig []) := ⟨_, _, hru⟩
  exact ⟨session, hr, hp, hi, reachable_booked hr hp⟩

end Session

end MangoProtocol
