import MangoProtocol.Session.Control
import MangoProtocol.Session.Replies

/-! The requests of a session over whole runs.  A call whose request was sent ends with the one
answer that was taken for it, with its timeout or with the end of the session; no answer reaches
another call; and the map of the driver holds what is still waited for. -/

namespace MangoProtocol

open ProofKit ProofKit.Tables

variable {H : Type} {config : Config}

def Phase.emptied : Phase → Bool
  | .closing _ .draining | .finished _ => true
  | _ => false

theorem Phase.Branched.emptied {phase : Phase} (h : phase.Branched) : phase.emptied = false := by
  cases h <;> rfl

def Call.failure (call : Call) : Option String :=
  match call.stage with
  | .done (.failed error) => some error.code
  | _ => none

/-- The call ended with what it was told. -/
def Call.isReplied (call : Call) : Bool :=
  match call.stage with
  | .done (.replied _ _) => true
  | _ => false

def Call.isTold (call : Call) : Bool :=
  match call.reply with
  | some (.wire _) => true
  | _ => false

theorem Call.isTold_iff {call : Call} :
    call.isTold = true ↔ ∃ result, call.reply = some (.wire result) := by
  unfold isTold
  grind

namespace Requests

variable {self next : Requests} {id : String}

def Spent (requests : Requests) (id : String) : Prop :=
  (∃ request index, .issue request index ∈ requests.taken ∧ request.id = id) ∧
    id ∉ requests.pending

theorem Step.spent (h : self.Step next) (spent : self.Spent id) : next.Spent id := by
  obtain ⟨⟨request, index, hi, hid⟩, hg⟩ := spent
  refine ⟨⟨request, index, h.taken_mono hi, hid⟩, ?_⟩
  cases h with
  | dismiss _ forget => cases forget <;> simp_all
  | _ => grind [AList.mem_insert, AList.mem_erase, AList.notMem_empty, setStage, order]

theorem Step.spent_cause (h : self.Step next) (hs : next.serving = true)
    (hn : ¬self.Spent id) (hsp : next.Spent id) : .cancel id false ∈ next.taken ∨
      (∃ request index, .issue request index ∈ self.taken ∧ request.id = id) ∧
        ∃ result, next.answered = self.answered ++ [(id, result)] := by
  obtain ⟨⟨request, index, hi, hid⟩, hg⟩ := hsp
  have hn (hi : .issue request index ∈ self.taken) : id ∈ self.pending := by
    by_contra hp
    exact hn ⟨⟨request, index, hi, hid⟩, hp⟩
  have he {other : String} (hp : id ∈ self.pending)
      (hg : id ∉ self.pending.erase other) : id = other := by
    by_contra hne
    exact hg (AList.mem_erase.mpr ⟨hne, hp⟩)
  cases h with
  | issue other position =>
    rw [AList.mem_insert, not_or] at hg
    rcases List.mem_append.mp hi with hi | hi
    all_goals grind
  | dismiss other forget =>
    have hp : id ∈ self.pending := by
      rcases List.mem_append.mp hi with hi | hi
      · exact hn hi
      · cases List.mem_singleton.mp hi
    cases forget with
    | true => exact absurd hp hg
    | false =>
      rw [he hp hg]
      exact .inl (List.mem_append_right _ (List.mem_singleton_self _))
  | settle other result entry =>
    have ho := he (hn hi) hg
    rw [ho]
    grind
  | fail => cases hs
  | idle | start | move | request | cancel | leave | ignore => exact absurd (hn hi) hg

/-- The call was sent the reply. -/
def Told (requests : Requests) (index : Nat) (reply : Reply) : Prop :=
  ∃ call, requests.calls[index]? = some call ∧ call.reply = some reply

theorem Step.told_kept {index : Nat} {reply : Reply} (h : self.Step next) (heard : self.Heard)
    (told : self.Told index reply) : next.Told index reply := by
  obtain ⟨call, hc, hr⟩ := told
  obtain ⟨later, hl⟩ := h.calls_mono hc
  have hu := heard.unheard
  cases h.call hl <;> grind [Told]

theorem Step.answer {result : Except RemoteError Value} (h : self.Step next) (sound : self.Sound)
    (kept : self.Kept) (ha : next.answered = self.answered ++ [(id, result)]) :
    id ∉ self.pending ∨ id ∉ next.pending ∧ ∃ request index,
      .issue request index ∈ next.taken ∧ request.id = id ∧ next.Told index (.wire result) := by
  have hm {order : Order} (ho : order ∈ self.taken) : order ∈ next.taken :=
    h.taken_mono ho
  cases h with
  | ignore other told hp => simp_all
  | settle other told entry _ hp =>
    cases List.append_cancel_left ha
    obtain ⟨request, hi, hid⟩ := kept.pending id entry hp
    obtain ⟨call, hc⟩ := sound.inCalls request entry.reply (sound.mem_of_taken hi)
    refine .inr ⟨fun hme => (AList.mem_erase.mp hme).1 rfl, request, entry.reply, hm hi,
      hid, { call with reply := some (.wire result) }, ?_, rfl⟩
    simp only [List.getElem?_modify_eq, hc]
    rfl
  | _ => exact absurd (List.self_eq_append_right.mp ha) (List.cons_ne_nil _ _)

end Requests

namespace Session

variable {handlers : List (String × H)} {labels before : List (Label H)} {state final : Session H}
  {id : String} {result : Except RemoteError Value}

/-! ### Answers in a run -/

theorem Reachable.run_orders {order : Order} (h : state.Reachable config)
    (ho : order ∈ state.requests.orders)
    (hru : Machine.run (Session.step config) state labels = some final) :
    order ∈ final.requests.orders :=
  h.run_invariant (fun session => order ∈ session.requests.orders)
    (fun _ _ _ hr ho hs => (step_requests hr hs).orders_mono ho)
    ho hru

def AnswerTaken (config : Config) (handlers : List (String × H)) (labels before : List (Label H))
    (state : Session H) (id : String) (result : Except RemoteError Value) : Prop :=
  ∃ label after next, labels = before ++ label :: after ∧
    Machine.run (Session.step config) (initial handlers) before = some state ∧
    state.step config label = some next ∧
    next.caller.answered = state.caller.answered ++ [(id, result)]

def AnsweredAt (config : Config) (handlers : List (String × H)) (labels before : List (Label H))
    (id : String) (result : Except RemoteError Value) : Prop :=
  ∃ state, AnswerTaken config handlers labels before state id result ∧ id ∈ state.pending

def Enqueued (session : Session H) (id : String) : Prop :=
  ∃ request, .req request ∈ session.writer.sent ∧ request.id = id

theorem Reachable.enqueued_iff (h : state.Reachable config) : state.Enqueued id ↔
    ∃ request index, .issue request index ∈ state.requests.taken ∧ request.id = id := by
  have hw : state.writer.sent.filter Frame.ordered = state.requests.taken.map Order.frame :=
    h.kept.written
  constructor
  · rintro ⟨request, hr, hid⟩
    have hm : .req request ∈ state.requests.taken.map Order.frame := by
      rw [← hw]
      exact List.mem_filter.mpr ⟨hr, rfl⟩
    obtain ⟨order, ho, hf⟩ := List.mem_map.mp hm
    cases order with
    | issue other index =>
      cases hf
      exact ⟨request, index, ho, hid⟩
    | cancel => cases hf
  · rintro ⟨request, index, hi, hid⟩
    have hm : .req request ∈ state.writer.sent.filter Frame.ordered := by
      rw [hw]
      exact List.mem_map.mpr ⟨_, hi, rfl⟩
    exact ⟨request, (List.mem_filter.mp hm).1, hid⟩

theorem AnswerTaken.spent (h : AnswerTaken config handlers labels before state id result)
    (hse : state.Enqueued id)
    (hru : Machine.run (Session.step config) (initial handlers) labels = some final) :
    final.requests.Spent id := by
  obtain ⟨label, after, next, rfl, hb, hs, ha⟩ := h
  obtain ⟨between, hst, hre⟩ := Machine.run_append.mp hru
  cases hb.symm.trans hst
  obtain ⟨_, hn, haf⟩ := Machine.run_cons.mp hre
  cases hs.symm.trans hn
  have hr : state.Reachable config := ⟨handlers, before, hb⟩
  have step := step_requests hr hs
  have hi := hr.enqueued_iff.mp hse
  have spent : next.requests.Spent id := by
    rcases step.answer hr.sound hr.kept ha with hp | ⟨hg, told⟩
    · exact step.spent ⟨hi, hp⟩
    · obtain ⟨request, index, hi, hid⟩ := hi
      exact ⟨⟨request, index, step.taken_mono hi, hid⟩, hg⟩
  refine (hr.step hs).run_invariant (fun session => session.requests.Spent id) ?_
    spent haf
  intro session label next hr spent hs
  exact (step_requests hr hs).spent spent

theorem AnsweredAt.enqueued (h : AnsweredAt config handlers labels before id result) :
    ∃ state, AnswerTaken config handlers labels before state id result ∧ state.Enqueued id := by
  obtain ⟨state, ht, hp⟩ := h
  obtain ⟨label, after, next, hl, hb, hre⟩ := ht
  have hr : state.Reachable config := ⟨handlers, before, hb⟩
  obtain ⟨entry, he⟩ := Option.isSome_iff_exists.mp (AList.lookup_isSome.mpr hp)
  obtain ⟨request, hi, hid⟩ := hr.kept.pending id entry he
  exact ⟨state, ⟨label, after, next, hl, hb, hre⟩,
    hr.enqueued_iff.mpr ⟨request, entry.reply, hi, hid⟩⟩

theorem AnsweredAt.told (h : AnsweredAt config handlers labels before id result)
    (hru : Machine.run (Session.step config) (initial handlers) labels = some final) :
    ∃ request index, .issue request index ∈ final.requests.orders ∧ request.id = id ∧
      final.requests.Told index (.wire result) := by
  obtain ⟨state, ⟨label, after, next, rfl, hb, hs, ha⟩, hp⟩ := h
  obtain ⟨between, hst, hres⟩ := Machine.run_append.mp hru
  cases hb.symm.trans hst
  obtain ⟨_, hn, haf⟩ := Machine.run_cons.mp hres
  cases hs.symm.trans hn
  have hr : state.Reachable config := ⟨handlers, before, hb⟩
  have hre := hr.step hs
  rcases (step_requests hr hs).answer hr.sound hr.kept ha with
    hg | ⟨-, request, index, hi, hid, told⟩
  · exact absurd hp hg
  · have kept := hre.run_invariant
      (fun session => .issue request index ∈ session.requests.orders ∧
        session.requests.Told index (.wire result))
      (fun session label next hr holds hs =>
        ⟨(step_requests hr hs).orders_mono holds.1,
          (step_requests hr hs).told_kept hr.heard holds.2⟩)
      ⟨hre.sound.mem_of_taken hi, told⟩ haf
    exact ⟨request, index, kept.1, hid, kept.2⟩

theorem AnsweredAt.not_later {rest : List (Label H)} {other : Except RemoteError Value}
    (h : AnsweredAt config handlers labels before id result)
    (h' : AnsweredAt config handlers labels (before ++ rest) id other) : rest = [] := by
  obtain ⟨state, ⟨label, after, next, hl, hb, hst, ha⟩, hs⟩ := h.enqueued
  obtain ⟨later, ⟨label', after', next', hl', hla, -⟩, hp⟩ := h'
  cases rest with
  | nil => rfl
  | cons first rest =>
    rw [hl, List.append_assoc, List.append_cancel_left_eq, List.cons_append] at hl'
    cases hl'
    have ht : AnswerTaken config handlers (before ++ label :: rest) before state id result :=
      ⟨label, rest, next, rfl, hb, hst, ha⟩
    exact absurd hp (ht.spent hs hla).2

theorem AnsweredAt.unique {other : List (Label H)} {told : Except RemoteError Value}
    (h : AnsweredAt config handlers labels before id result)
    (h' : AnsweredAt config handlers labels other id told) : other = before := by
  have hs : ∃ first second, before ++ first = other ++ second := by
    obtain ⟨-, ⟨label, after, -, hl, -⟩, -⟩ := h
    obtain ⟨-, ⟨label', after', -, hl', -⟩, -⟩ := h'
    exact ⟨_, _, hl.symm.trans hl'⟩
  obtain ⟨first, second, hs⟩ := hs
  rcases List.append_eq_append_iff.mp hs with ⟨rest, rfl, -⟩ | ⟨rest, rfl, -⟩
  · rw [h.not_later h', List.append_nil]
  · rw [h'.not_later h, List.append_nil]

variable {index timeout : Nat} {request : Request} {next : Session H} {label : Label H}
  {call : Call}

theorem told_answered
    (hru : Machine.run (Session.step config) (initial handlers) labels = some final)
    (told : final.requests.Told index (.wire result)) :
    ∃ request before, .issue request index ∈ final.requests.orders ∧
      AnsweredAt config handlers labels before request.id result := by
  have start : ¬(initial handlers).requests.Told index (.wire result) := by
    rintro ⟨call, hc, -⟩
    cases hc
  obtain ⟨before, label, after, state, next, rfl, hb, hs, haf, hn, told⟩ :=
    Machine.run_cause (fun session => session.requests.Told index (.wire result)) start hru told
  have hr : state.Reachable config := ⟨handlers, before, hb⟩
  have step := step_requests hr hs
  obtain ⟨call, hc, hre⟩ := told
  cases step.call hc with
  | told earlier id entry _ _ _ he hin hm ha =>
    subst hm hin
    cases hre
    obtain ⟨request, hi, rfl⟩ := hr.kept.pending id entry he
    have hi := step.orders_mono (hr.sound.mem_of_taken hi)
    exact ⟨request, before, (hr.step hs).run_orders hi haf, state,
      ⟨label, after, next, rfl, hb, hs, ha⟩, mem_of_lookup he⟩
  | _ => grind [Requests.Told]

/-! ### Timeouts in a run -/

def Polled (session : Session H) (index : Nat) : Prop :=
  ∃ call id cancelSent, session.calls[index]? = some call ∧ call.stage = .polled id cancelSent

def TimesOut (config : Config) (handlers : List (String × H)) (labels : List (Label H))
    (index : Nat) (before : List (Label H)) (state : Session H) : Prop :=
  ∃ poll rest timedOut call late timeout, labels = before ++ poll ++ rest ∧
    Machine.run (Session.step config) (initial handlers) before = some state ∧
    state.calls[index]? = some call ∧ call.reply = none ∧
    Machine.run (Session.step config) state poll = some timedOut ∧
    timedOut.calls[index]? = some late ∧
    late.stage = .done (.failed (timeoutError late.method timeout)) ∧
    ∀ inside outside middle, poll = inside ++ outside → inside ≠ [] → outside ≠ [] →
      Machine.run (Session.step config) state inside = some middle → middle.Polled index

theorem step_polled (hr : state.Reachable config)
    (hs : state.step config label = some next) (hn : ¬state.Polled index)
    (hp : next.Polled index) :
    ∃ call, state.calls[index]? = some call ∧ call.reply = none := by
  obtain ⟨call, id, cancelSent, hc, hst⟩ := hp
  cases (step_requests hr hs).call hc with
  | moved earlier stage h hm => cases hm <;> grind [CallStage.unsent, requests]
  | left _ _ _ _ hl => cases hl <;> grind
  | _ => grind [Polled, requests]

/-- The call sent the request and timed out. -/
def TimedOut (session : Session H) (request : Request) (index timeout : Nat) : Prop :=
  .issue request index ∈ session.requests.orders ∧ ∃ call, session.calls[index]? = some call ∧
    call.stage = .done (.failed (timeoutError call.method timeout))

theorem step_timedOut (hr : state.Reachable config)
    (hst : state.step config label = some next) (hn : ¬state.TimedOut request index timeout)
    (ht : next.TimedOut request index timeout) : state.Polled index := by
  have step := step_requests hr hst
  have sound := hr.sound
  obtain ⟨hi, call, hc, hs⟩ := ht
  have hi : .issue request index ∈ state.requests.orders := by
    rcases step.issued hi with hi | ⟨other, id, ho, hw⟩
    · exact hi
    · cases hc.symm.trans ho
      rw [hw] at hs
      cases hs
  cases step.call hc with
  | same h => exact absurd ⟨hi, call, h, hs⟩ hn
  | fresh hin =>
    obtain ⟨other, ho⟩ := sound.inCalls request index hi
    grind
  | moved earlier stage h hmo hm =>
    subst hm
    cases hmo with
    | refused _ hu => exact absurd hi (sound.unsent index earlier h hu request)
    | advanced _ hu => exact absurd hi (sound.unsent index earlier h hu request)
    | abandoned _ _ error _ _ _ hco =>
      have he : error = timeoutError earlier.method timeout :=
        CallResult.failed.inj (CallStage.done.inj hs)
      rw [he] at hco
      have hcod : codes.timeout = codes.unavailable := hco
      exact absurd hcod (by decide)
    | replied | dropped | polled | parked => cases hs
  | waits _ _ _ _ _ hm =>
    subst hm
    cases hs
  | left earlier id _ h hl hm =>
    subst hm
    cases hl with
    | timeout cancelSent _ hp => exact ⟨earlier, id, cancelSent, h, hp⟩
    | dropped => cases hs
  | told _ _ _ _ h _ _ _ hm | failed _ _ h _ hm =>
    subst hm
    exact absurd ⟨hi, _, h, hs⟩ hn

theorem timedOut_timesOut
    (hru : Machine.run (Session.step config) (initial handlers) labels = some final)
    (ht : final.TimedOut request index timeout) :
    ∃ before state, TimesOut config handlers labels index before state := by
  obtain ⟨front, last, rest, polled, timedOut, rfl, hf, hl, -, hno, ht⟩ :=
    Machine.run_cause (fun session => session.TimedOut request index timeout)
      (fun h => absurd h.1 List.not_mem_nil) hru ht
  have hpo : polled.Polled index := step_timedOut ⟨handlers, front, hf⟩ hl hno ht
  have start : ¬(initial handlers).Polled index := by
    rintro ⟨call, id, cancelSent, hc, -⟩
    cases hc
  obtain ⟨before, first, middle, state, next, rfl, hbe, hs, hq, hsi⟩ :=
    Machine.run_since (fun session => session.Polled index) start hf hpo
  obtain ⟨call, hc, hr⟩ := step_polled ⟨handlers, before, hbe⟩ hs hq
    (hsi [] middle next rfl rfl)
  obtain ⟨-, late, hla, hst⟩ := ht
  have hm : Machine.run (Session.step config) next middle = some polled := by
    obtain ⟨_, hsta, hre⟩ := Machine.run_append.mp hf
    cases hbe.symm.trans hsta
    obtain ⟨_, hn, hm⟩ := Machine.run_cons.mp hre
    cases hs.symm.trans hn
    exact hm
  refine ⟨before, state, first :: middle ++ [last], rest, timedOut, call, late, timeout,
    by simp, hbe, hc, hr, ?_, hla, hst, ?_⟩
  · exact Machine.run_cons.mpr ⟨next, hs, Machine.run_append.mpr
      ⟨polled, hm, Machine.run_cons.mpr ⟨timedOut, hl, rfl⟩⟩⟩
  · intro inside outside between hsp hi ho hb
    cases inside with
    | nil => exact absurd rfl hi
    | cons label inside =>
      rcases List.eq_nil_or_concat outside with rfl | ⟨outside, end', rfl⟩
      · exact absurd rfl ho
      · rw [List.concat_eq_append, ← List.append_assoc] at hsp
        have hp := (List.append_inj' hsp rfl).1
        rw [List.cons_append, List.cons.injEq] at hp
        obtain ⟨rfl, hmi⟩ := hp
        obtain ⟨_, hn, hb⟩ := Machine.run_cons.mp hb
        cases hs.symm.trans hn
        exact hsi inside outside between hmi hb

/-! ### The map of the driver -/

def Left (session : Session H) (id : String) : Prop :=
  ∃ request index call, (request, index) ∈ session.caller.posted ∧ request.id = id ∧
    session.calls[index]? = some call ∧ call.Gone

/-- The map of a driver that serves and has no command left: the requests that were queued, whose
answer has not been taken since and whose call has not given up. -/
theorem pending_iff (hru : Machine.run (Session.step config) (initial handlers) labels = some final)
    (hco : final.commands.waiting = []) (hser : final.phase.serving = true) :
    id ∈ final.pending ↔ final.Enqueued id ∧
      (¬∃ before state result, AnswerTaken config handlers labels before state id result ∧
        state.Enqueued id) ∧ ¬final.Left id := by
  have hr : final.Reachable config := ⟨handlers, labels, hru⟩
  have hk := hr.kept
  constructor
  · intro hp
    obtain ⟨entry, he⟩ := Option.isSome_iff_exists.mp (AList.lookup_isSome.mpr hp)
    obtain ⟨request, hi, hid⟩ := hk.pending id entry he
    refine ⟨hr.enqueued_iff.mpr ⟨request, entry.reply, hi, hid⟩, ?_, ?_⟩
    · rintro ⟨before, state, result, ht, hse⟩
      exact (ht.spent hse hru).2 hp
    · rintro ⟨request, index, call, hpo, rfl, hca, hg⟩
      have hc := hk.leaves (commandsOpen_of_serving hser) request index call
        (mem_ordersOf_issue.mpr hpo) hca hg
      -- With no command left, every order was taken.
      have ht : final.requests.taken = final.requests.orders := by
        grind [requests, ordersOf_append, Channel.received, Channel.waiting, List.take_append_drop]
      exact hk.gone request.id (ht ▸ hc) hp
  · rintro ⟨hse, hu, hsta⟩
    by_contra hg
    obtain ⟨before, label, after, state, next, rfl, hb, hs, ha, hno, hsp⟩ :=
      Machine.run_cause (fun session => session.requests.Spent id)
        (fun h => absurd h.1 (by rintro ⟨_, _, hi, _⟩; cases hi)) hru
        ⟨hr.enqueued_iff.mp hse, hg⟩
    have hst : state.Reachable config := ⟨handlers, before, hb⟩
    have hn := hst.step hs
    have hne : next.requests.serving = true := by
      by_contra hq
      refine hn.run_invariant (fun session => ¬session.requests.serving = true) ?_ hq
        ha hser
      intro session label next hr hq hs hn
      exact hq ((step_requests hr hs).serving hn)
    rcases (step_requests hst hs).spent_cause hne hno hsp with
      hc | ⟨hi, result, han⟩
    · have hf := hn.run_orders (hn.sound.mem_of_taken hc) ha
      obtain ⟨request, index, call, hi, hid, hca, hcal⟩ := hk.left id hf
      exact hsta ⟨request, index, call, mem_ordersOf_issue.mp hi, hid, hca, hcal⟩
    · exact hu ⟨before, state, result,
        ⟨label, after, next, rfl, hb, hs, han⟩, hst.enqueued_iff.mpr hi⟩

theorem Reachable.emptied (h : state.Reachable config) (hemp : state.phase.emptied = true) :
    state.pending = ∅ := by
  refine h.invariant (fun session => session.phase.emptied = true → session.pending = ∅) ?_ ?_
    hemp
  · exact fun handlers h => by cases h
  · intro session label next he hs hn
    have branched (h : next.phase.Branched) : next.pending = ∅ := by
      rw [h.emptied] at hn
      cases hn
    cases step_move hs with
    | api step next move => cases move <;> exact he hn
    | arrive | transmit => exact he hn
    | driver step next move =>
      cases move with
      | greet outcome => exact branched (session.greet_branched outcome)
      | sendFailed | handshakeTimeout => exact branched (.closing _)
      | livenessTick hp => exact branched (onLivenessTick_branched hp)
      | settled task settled invocation hp =>
        refine branched ?_
        rw [onHandlerSettled_phase]
        exact hp ▸ .running
      | command command commands hp =>
        exact branched (onCommand_branched { session with commands } command hp)
      | inbound call item inbound hp =>
        rcases onInbound_branched { session with inbound } item call hp with h | ⟨h, -⟩
        · exact branched h
        · rw [h] at hn
          cases hn
      | teardown reason stage next hp h =>
        obtain ⟨calls, -, -, heq⟩ := session.failPending_eq reason
        cases stage <;> grind [advanceTeardown, Phase.emptied]
      | drain => exact he hn
      | finish reason hp => exact he (by rw [hp]; rfl)

theorem Reachable.cancel_after {cancel : Cancel} {before after : List Frame}
    (h : state.Reachable config) (hs : state.writer.sent = before ++ .cancel cancel :: after) :
    ∃ request, .req request ∈ before ∧ request.id = cancel.id := by
  have hwr : state.writer.sent.filter Frame.ordered = state.requests.taken.map Order.frame :=
    h.kept.written
  rw [hs, List.filter_append, List.filter_cons_of_pos rfl] at hwr
  obtain ⟨first, rest, ht, hf, hr⟩ := List.map_eq_append_iff.mp hwr.symm
  obtain ⟨order, second, rfl, ho, -⟩ := List.map_eq_cons_iff.mp hr
  cases order with
  | issue => cases ho
  | cancel id forget =>
    cases ho
    obtain ⟨waiting, hw⟩ := h.sound.taken
    rw [ht, List.append_assoc, List.cons_append] at hw
    obtain ⟨request, index, hi, hid⟩ := h.kept.ordered first id forget _ hw
    have hm : .req request ∈ before.filter Frame.ordered := by
      rw [← hf]
      exact List.mem_map.mpr ⟨_, hi, rfl⟩
    exact ⟨request, (List.mem_filter.mp hm).1, hid⟩

/-! ### The requester -/

/-- How a call ends that sent its request. -/
inductive Settlement (config : Config) (handlers : List (String × H)) (labels : List (Label H))
    (request : Request) (index : Nat) (call : Call) : CallResult → Prop
  | answered (result : Except RemoteError Value) (before : List (Label H))
    (h : AnsweredAt config handlers labels before request.id result)
    (hfirst : ∀ other told, AnsweredAt config handlers labels other request.id told →
      other = before) :
    Settlement config handlers labels request index call (.replied request.id (.wire result))
  | failed (error : RemoteError) (hcode : error.code = codes.unavailable)
    (hnone : ∀ before result, ¬AnsweredAt config handlers labels before request.id result) :
    Settlement config handlers labels request index call (.replied request.id (.teardown error))
  | abandoned (error : RemoteError) (hcode : error.code = codes.unavailable)
    (hnone : ∀ before result, ¬AnsweredAt config handlers labels before request.id result) :
    Settlement config handlers labels request index call (.failed error)
  | timeout (timeout : Nat) (before : List (Label H)) (state : Session H)
    (htimeout : call.options.timeout = some timeout)
    (h : TimesOut config handlers labels index before state)
    (hnone : ∀ other result, ¬AnsweredAt config handlers before other request.id result) :
    Settlement config handlers labels request index call
      (.failed (timeoutError call.method timeout))

/-- What a run promises to its requests. -/
structure RequesterSafe (config : Config) (handlers : List (String × H)) (labels : List (Label H))
    (final : Session H) : Prop where
  settled : ∀ (request : Request) (index : Nat) (call : Call) (result : CallResult),
    (request, index) ∈ final.caller.posted → final.calls[index]? = some call →
      call.stage = .done result → Settlement config handlers labels request index call result
  delivered : ∀ (index : Nat) (call : Call) (result : Except RemoteError Value),
    final.calls[index]? = some call → call.reply = some (.wire result) →
      ∃ request before, (request, index) ∈ final.caller.posted ∧
        AnsweredAt config handlers labels before request.id result
  ids : ∀ (index other : Nat) (id : String), final.caller.Owns index id →
    final.caller.Owns other id → index = other
  cancelled : ∀ before cancel after, final.writer.sent = before ++ .cancel cancel :: after →
    ∃ request, .req request ∈ before ∧ request.id = cancel.id
  pending : final.commands.waiting = [] → final.phase.serving = true → ∀ id,
    id ∈ final.pending ↔ final.Enqueued id ∧
      (¬∃ before state result, AnswerTaken config handlers labels before state id result ∧
        state.Enqueued id) ∧ ¬final.Left id
  emptied : final.phase.emptied = true → final.pending = ∅

theorem not_answered
    (hr : Machine.run (Session.step config) (initial handlers) labels = some final)
    (ho : ∀ request position, .issue request position ∈ final.requests.orders →
      request.id = id → position = index)
    (hu : ∀ result, ¬final.requests.Told index (.wire result)) :
    ∀ before result, ¬AnsweredAt config handlers labels before id result := by
  intro before result h
  obtain ⟨request, position, hi, hid, told⟩ := h.told hr
  grind

theorem untold {reply : Option Reply} (hc : final.calls[index]? = some call)
    (hr : call.reply = reply) (hw : ∀ result, reply ≠ some (.wire result)) :
    ∀ result, ¬final.requests.Told index (.wire result) := by
  rintro result ⟨other, ho, ht⟩
  cases hc.symm.trans ho
  exact hw result (hr.symm.trans ht)

theorem run_settled {result : CallResult}
    (hru : Machine.run (Session.step config) (initial handlers) labels = some final)
    (hi : .issue request index ∈ final.requests.orders)
    (hc : final.calls[index]? = some call) (hs : call.stage = .done result) :
    Settlement config handlers labels request index call result := by
  have hre : final.Reachable config := ⟨handlers, labels, hru⟩
  have heard := hre.heard
  have how (other : Request) (position : Nat)
      (ho : .issue other position ∈ final.requests.orders) (hid : other.id = request.id) :
      position = index := hre.sound.owner other request position index ho hi hid
  cases hre.kept.outcome request index call result hi hc hs with
  | replied reply hco =>
    have hr := heard.replied index call _ reply hc hs
    cases reply with
    | wire result =>
      obtain ⟨sent, before, hse, h⟩ := told_answered hru ⟨call, hc, hr⟩
      cases hre.sound.unique sent request index hse hi
      exact .answered result before h fun other told h' => h.unique h'
    | teardown error =>
      exact .failed error (hco error rfl)
        (not_answered hru how (untold hc hr fun _ => nofun))
  | unavailable error hco =>
    have hr := (heard.abandoned request index call error hi hc hs hco).1
    exact .abandoned error hco
      (not_answered hru how (untold hc hr fun _ => nofun))
  | timeout timeout ht =>
    obtain ⟨before, state, h⟩ := timedOut_timesOut hru ⟨hi, call, hc, hs⟩
    refine .timeout timeout before state ht h ?_
    obtain ⟨poll, rest, _, earlier, _, _, rfl, hb, hea, hr, -⟩ := h
    refine not_answered hb ?_ (untold hea hr fun _ => nofun)
    intro other position ho hid
    obtain ⟨_, hst, hl⟩ := Machine.run_append.mp (List.append_assoc .. ▸ hru)
    cases hb.symm.trans hst
    have hst : state.Reachable config := ⟨handlers, before, hb⟩
    exact how other position (hst.run_orders ho hl) hid

/-- Whatever the callers, the port and the peer do, the requests of a session are safe. -/
theorem run_requester
    (hrun : Machine.run (Session.step config) (initial handlers) labels = some final) :
    RequesterSafe config handlers labels final := by
  have hr : final.Reachable config := ⟨handlers, labels, hrun⟩
  refine ⟨?_, ?_, ?_, ?_, ?_, ?_⟩
  · intro request index call result hp hc hst
    exact run_settled hrun (mem_ordersOf_issue.mpr hp) hc hst
  · intro index call result hc hre
    obtain ⟨request, before, hi, h⟩ := told_answered hrun ⟨call, hc, hre⟩
    exact ⟨request, before, mem_ordersOf_issue.mp hi, h⟩
  · exact hr.numbered_routed.1.owner
  · exact fun before cancel after hse => hr.cancel_after hse
  · exact fun hco hs id => pending_iff hrun hco hs
  · exact hr.emptied

/-! ### Two runs -/

def callingConfig : Config := sampleConfig [.req (clockRequest "r-1")]

/-- A session that is ready asks its peer for the time, for at most ten milliseconds. -/
def callingLabels : List (Label Unit) :=
  greetingLabels ++ [.api (.startCall "clock.read" (.ofJson .null) ⟨false, some 10⟩),
    .api (.advanceCall 0), .api (.advanceCall 0), .api (.advanceCall 0), .api (.advanceCall 0),
    .api (.advanceCall 0), .driver .command]

/-- The peer answers. -/
def answerLabels : List (Label Unit) :=
  [.port (.arrive (some (.frame (.res ⟨"r-1", .ofJson .null⟩)))), .driver (.inbound (.future 0))]

theorem run_requester_answered :
    ∃ final, Machine.run (Session.step callingConfig) (initial [])
        (callingLabels ++ answerLabels ++ [.api (.takeReply 0)]) = some final ∧
      final.calls.map Call.isReplied = [true] ∧ final.commands.waiting.length = 0 ∧
      RequesterSafe callingConfig [] (callingLabels ++ answerLabels ++ [.api (.takeReply 0)])
        final := by
  obtain ⟨final, hr, hca, hc⟩ : ∃ final,
      Machine.run (Session.step callingConfig) (initial [])
        (callingLabels ++ answerLabels ++ [.api (.takeReply 0)]) = some final ∧
      final.calls.map Call.isReplied = [true] ∧ final.commands.waiting.length = 0 :=
    Machine.exists_run (by decide +kernel)
  exact ⟨final, hr, hca, hc, run_requester hr⟩

/-- A call with a name that is no method never sends its request, and a call whose poll had found
nothing times out although its answer has come since. -/
theorem call_ends_otherwise :
    (∃ final, Machine.run (Session.step (sampleConfig [])) (initial ([] : List (String × Unit)))
        [.api (.startCall "clock" (.ofJson .null) ⟨false, none⟩)] = some final ∧
      final.calls.map Call.failure = [some codes.invalidRequest]) ∧
    ∃ answered final before request result,
      Machine.run (Session.step callingConfig) (initial [])
        (callingLabels ++ [.api (.pollCall 0)] ++ answerLabels) = some answered ∧
      AnsweredAt callingConfig [] (callingLabels ++ [.api (.pollCall 0)] ++ answerLabels) before
        request.id result ∧
      (request, 0) ∈ answered.caller.posted ∧
      answered.step callingConfig (.api (.timeoutCall 0)) = some final ∧
      final.calls.map Call.failure = [some codes.timeout] := by
  refine ⟨Machine.exists_run (by decide +kernel), ?_⟩
  obtain ⟨final, hru, hf⟩ : ∃ final, Machine.run (Session.step callingConfig) (initial [])
      ((callingLabels ++ [.api (.pollCall 0)] ++ answerLabels) ++ [.api (.timeoutCall 0)]) =
        some final ∧ final.calls.map Call.failure = [some codes.timeout] :=
    Machine.exists_run (by decide +kernel)
  obtain ⟨answered, ha, hl⟩ := Machine.run_append.mp hru
  obtain ⟨_, hs, he⟩ := Machine.run_cons.mp hl
  cases he
  have ht : answered.calls.map Call.isTold = [true] := by
    obtain ⟨other, ho, ht⟩ : ∃ other, Machine.run (Session.step callingConfig) (initial [])
        (callingLabels ++ [.api (.pollCall 0)] ++ answerLabels) = some other ∧
          other.calls.map Call.isTold = [true] := Machine.exists_run (by decide +kernel)
    cases ha.symm.trans ho
    exact ht
  obtain ⟨call, hc, hca⟩ := List.map_eq_singleton_iff.mp ht
  obtain ⟨result, hr⟩ := Call.isTold_iff.mp hca
  have told : answered.requests.Told 0 (.wire result) :=
    ⟨call, by simp [requests, hc], hr⟩
  obtain ⟨request, before, hi, h⟩ := told_answered ha told
  exact ⟨answered, final, before, request, result, ha, h, mem_ordersOf_issue.mp hi,
    hs, hf⟩

end Session

end MangoProtocol
