import MangoProtocol.ProofKit.Fallible
import MangoProtocol.TypeScript.Requester

/-! What holds of the requests of a TypeScript session in every run.  The pending map holds exactly
the requests that are registered and not settled, a settled one has neither timer nor listener, and
a closed session has none in flight.  A request in flight is settled by the first step that answers
it, lets its time run out or ends the session. -/

namespace MangoProtocol.TypeScript

open ProofKit

namespace Requester

variable {π : Type} {api : PortApi π}

/-! ### What is kept -/

/-- The calls and the pending map agree, and a session that has ended has nothing pending. -/
structure Kept (requester : Requester π) : Prop where
  requests : requester.requests.Kept requester.requestIdPrefix
  closed : requester.run.session.state = .closed → requester.requests.pending = ∅

def ending (self : Requester π) (call : RequestCall) : Option Settlement :=
  if self.run.session.state = .closed then
    some (.closed (unavailable call.method self.run.session.closure call.id))
  else none

def reached (settlement : Option Settlement) : RequestStage := settlement.elim .registered .settled

theorem reached_ne_waiting (settlement : Option Settlement) : reached settlement ≠ .waiting := by
  cases settlement <;> simp [reached]

/-- The call at an index is as it was, unless it was in flight and the session ended. -/
structure Carries (before after : Requester π) (index : Nat) : Prop where
  same : ∀ call, before.requests.calls[index]? = some call → call.stage ≠ .registered →
    after.requests.calls[index]? = some call
  flight : ∀ call, before.requests.calls[index]? = some call → call.stage = .registered →
    ∃ later, after.requests.calls[index]? = some later ∧ later.id = call.id ∧
      later.method = call.method ∧ later.stage = reached (after.ending call)

/-- A session that has ended stays ended. -/
def Later (before after : SessionRun π) : Prop :=
  before.session.state = .closed →
    after.session.state = .closed ∧ after.session.closure = before.session.closure

variable {self between next : Requester π} {index : Nat} {call : RequestCall} {id : JsString}

theorem Kept.open_of_registered (h : self.Kept) (hcall : self.requests.calls[index]? = some call)
    (hr : call.stage = .registered) : self.run.session.state ≠ .closed := by
  intro hc
  obtain ⟨id, hid⟩ := h.requests.named index call hcall hr
  have hl := (h.requests.pending id index).mpr ⟨call, hcall, hid, hr⟩
  rw [h.closed hc] at hl
  exact absurd hl (by simp)

theorem Kept.carries_same (h : self.Kept)
    (hcall : next.requests.calls[index]? = self.requests.calls[index]?)
    (hr : next.run = self.run) : self.Carries next index := by
  constructor <;> grind [ending, reached, Option.elim, h.open_of_registered]

theorem Carries.ended (h : between.Carries next index) (hl : Later between.run next.run)
    {later : RequestCall} (hcall : between.requests.calls[index]? = some later)
    (hid : later.id = call.id) (hm : later.method = call.method)
    (hs : later.stage = reached (between.ending call)) :
    ∃ last, next.requests.calls[index]? = some last ∧ last.id = call.id ∧
      last.method = call.method ∧ last.stage = reached (next.ending call) := by
  obtain ⟨hsa, hf⟩ := h
  grind [ending, reached, Option.elim, Later]

theorem Carries.trans (h : self.Carries between index) (hn : between.Carries next index)
    (hla : Later between.run next.run) : self.Carries next index where
  same call hcall hs := hn.same call (h.same call hcall hs) hs
  flight call hcall hr := by
    obtain ⟨later, hl, hid, hm, hs⟩ := h.flight call hcall hr
    exact hn.ended hla hl hid hm hs

/-! ### Steps of the session -/

theorem lift_run (self : Requester π) (run : SessionRun π) : (self.lift run).run = run := by
  unfold lift
  split <;> rfl

theorem Kept.lift (h : self.Kept) (run : SessionRun π) : (self.lift run).Kept := by
  have hr := h.requests
  have hc := h.closed
  unfold Requester.lift
  split
  next hcl => exact ⟨h.requests.flush _, fun _ => rfl⟩
  next hs => constructor <;> grind

theorem Kept.carries_lift (h : self.Kept) (run : SessionRun π) (index : Nat) :
    self.Carries (self.lift run) index := by
  have hopen {call : RequestCall} (hcall : self.requests.calls[index]? = some call) :=
    h.open_of_registered hcall
  unfold Requester.lift
  split
  next hc =>
    refine ⟨fun call hcall hs => h.requests.flush_other hcall hs _,
      fun call hcall hr => ?_⟩
    obtain ⟨id, hid⟩ := h.requests.named index call hcall hr
    refine ⟨_, h.requests.flush_registered hcall hid hr _, rfl, rfl, ?_⟩
    rw [ending, if_pos hc.2]
    rfl
  next hsa => constructor <;> grind [ending, reached, Option.elim]

theorem Carries.lift (h : self.Carries between index) (hk : between.Kept) {run : SessionRun π}
    (hl : Later between.run run) : self.Carries (between.lift run) index := by
  refine h.trans (hk.carries_lift run index) ?_
  rw [lift_run]
  exact hl

theorem later_send (run : SessionRun π) (frame : Frame) : Later run (run.send api frame).1 := by
  intro hc
  rw [SessionRun.send_closed hc]
  exact ⟨hc, rfl⟩

theorem later_trySend (run : SessionRun π) (frame : Frame) : Later run (run.trySend api frame) := by
  intro hc
  rw [SessionRun.trySend_closed hc]
  exact ⟨hc, rfl⟩

theorem step_answer {run after : SessionRun π} {label : SessionLabel π} {settlement : Settlement}
    (ha : answer label = some (id, settlement)) (hs : run.step api label = some after) :
    after = run := by
  unfold answer at ha
  split at ha
  next =>
    obtain ⟨-, hs⟩ := Option.ite_none_right_eq_some.mp hs
    exact (Option.some.inj hs).symm
  next =>
    obtain ⟨-, hs⟩ := Option.ite_none_right_eq_some.mp hs
    exact (Option.some.inj hs).symm
  next => cases ha

theorem lift_self (self : Requester π) : self.lift self.run = self :=
  if_neg fun hc => hc.1 hc.2

theorem lift_update {change : RequestCall → RequestCall}
    (hn : self.requests.pending.entries.find? (·.2 == index) = none) (run : SessionRun π) :
    lift { self with requests := self.requests.update index change } run =
      { self.lift run with requests := (self.lift run).requests.update index change } := by
  by_cases hc : self.run.session.state ≠ .closed ∧ run.session.state = .closed
  · simp only [lift, if_pos hc, Requests.flush_update hn]
  · simp only [lift, if_neg hc]

/-! ### Answers -/

theorem Kept.answered (h : self.Kept) (label : SessionLabel π) : (self.answered label).Kept := by
  unfold Requester.answered
  split
  next => exact h
  next id settlement ha =>
    refine ⟨h.requests.settle id settlement, fun hc => ?_⟩
    have he : self.requests.pending = ∅ := h.closed hc
    simp_all [Requests.settle]

/-! ### Timers and listeners -/

theorem Kept.registered_of_timer (h : self.Kept) (hcall : self.requests.calls[index]? = some call)
    (ht : call.timer = true ∨ call.listener = true) : call.stage = .registered := by
  have hid := h.requests.idle index call hcall
  grind

def timedOut (self : Requester π) (index : Nat) (call : RequestCall) (id : JsString) :
    Requester π :=
  { self with
    requests := (self.requests.release id index).settleAt index
      (.timedOut (requestTimedOut call.method (call.options.timeoutMs.getD 0))) }

theorem Kept.timedOut (h : self.Kept) (hcall : self.requests.calls[index]? = some call)
    (hid : call.id = some id) (hr : call.stage = .registered) :
    (self.timedOut index call id).Kept where
  requests := h.requests.finish
    ((h.requests.pending id index).mpr ⟨call, hcall, hid, hr⟩) _
  closed hc := absurd hc (h.open_of_registered hcall hr)

theorem Kept.expire_eq (h : self.Kept) (hcall : self.requests.calls[index]? = some call)
    (hid : call.id = some id) (hr : call.stage = .registered) :
    self.expire api index call id =
      (self.timedOut index call id).lift (self.run.trySend api (.cancel id)) := by
  have hl : self.requests.pending.lookup id = some index :=
    (h.requests.pending id index).mpr ⟨call, hcall, hid, hr⟩
  have hs : (self.timedOut index call id).requests.calls[index]? = some _ :=
    Requests.update_same (Requests.update_same hcall)
  have hn : (self.requests.release id index).pending.entries.find? (·.2 == index) = none := by
    refine (h.timedOut hcall hid hr).requests.find_other hs ?_
    have hc : call.cleanup.stage = .registered := hr
    rw [RequestCall.settle_of_unsettled (.inr hc)]
    exact fun hst => by cases hst
  simp only [expire, hl]
  exact (lift_update hn _).symm

theorem Kept.expire (h : self.Kept) (hcall : self.requests.calls[index]? = some call)
    (hid : call.id = some id) (hr : call.stage = .registered) :
    (self.expire api index call id).Kept := by
  rw [h.expire_eq hcall hid hr]
  exact (h.timedOut hcall hid hr).lift _

theorem Kept.carries_expire (h : self.Kept) (hcall : self.requests.calls[index]? = some call)
    (hid : call.id = some id) (hr : call.stage = .registered) {position : Nat}
    (hp : position ≠ index) :
    self.Carries (self.expire api index call id) position := by
  rw [h.expire_eq hcall hid hr]
  have hs : self.Carries (self.timedOut index call id) position :=
    h.carries_same ((Requests.update_other hp).trans (Requests.update_other hp)) rfl
  exact hs.lift (h.timedOut hcall hid hr) (later_trySend self.run _)

theorem Kept.expire_same (h : self.Kept) (hcall : self.requests.calls[index]? = some call)
    (hid : call.id = some id) (hr : call.stage = .registered) :
    (self.expire api index call id).requests.calls[index]? = some { call.cleanup with
      stage := .settled
        (.timedOut (requestTimedOut call.method (call.options.timeoutMs.getD 0))) } := by
  have hc : call.cleanup.stage = .registered := hr
  have hs : (self.timedOut index call id).requests.calls[index]? = some _ :=
    Requests.update_same (Requests.update_same hcall)
  rw [RequestCall.settle_of_unsettled (.inr hc)] at hs
  rw [h.expire_eq hcall hid hr]
  exact ((h.timedOut hcall hid hr).carries_lift _ index).same _ hs
    fun hst => by cases hst

def heard (self : Requester π) (index : Nat) : Requester π :=
  { self with requests := self.requests.update index ({ · with listener := false }) }

theorem Kept.heard (h : self.Kept) (index : Nat) : (self.heard index).Kept :=
  ⟨h.requests.update (fun _ => rfl) (fun _ _ => Iff.rfl) fun _ _ hid => ⟨hid.1, rfl⟩, h.closed⟩

theorem Kept.carries_cancel (h : self.Kept) (hcall : self.requests.calls[index]? = some call)
    (hr : call.stage = .registered) (position : Nat) :
    self.Carries (self.cancel api index id) position := by
  have hh : self.Carries (self.heard index) position := by
    by_cases hp : position = index
    · subst hp
      have hopen := h.open_of_registered hcall hr
      have hs : (self.heard position).requests.calls[position]? = some _ :=
        Requests.update_same hcall
      constructor <;> grind [ending, reached, Requester.heard, Option.elim]
    · exact h.carries_same (Requests.update_other hp) rfl
  exact hh.lift (h.heard index) (later_trySend self.run _)

/-! ### Registration -/

/-- The requester with a call registered. -/
def registered (self : Requester π) (index : Nat) : Requester π :=
  { self with requests := self.requests.register self.requestIdPrefix index }

theorem Kept.registered (h : self.Kept) (hcall : self.requests.calls[index]? = some call)
    (hwaiting : call.stage = .waiting) (hopen : self.run.session.state ≠ .closed) :
    (self.registered index).Kept :=
  ⟨h.requests.register hcall hwaiting, fun hc => absurd hc hopen⟩

/-- The next id. -/
def nextId (self : Requester π) : JsString :=
  requestId self.requestIdPrefix (self.requests.sequence + 1)

def sendCause (api : PortApi π) (self after : Requester π) (call : RequestCall) :
    Option Settlement :=
  let sent := self.run.send api (.req self.nextId call.method call.params.next)
  let named := { call with id := some self.nextId }
  if sent.1.session.state = .closed then after.ending named
  else
    match sent.2 with
    | some thrown => some (.sendFailed (sendFailure call.method thrown))
    | none => after.ending named

def told (api : PortApi π) (self : Requester π) (index : Nat) (call : RequestCall) : Requester π :=
  (self.registered index).lift (self.run.send api (.req self.nextId call.method call.params.next)).1

theorem Kept.told_call (h : self.Kept) (hcall : self.requests.calls[index]? = some call)
    (hwaiting : call.stage = .waiting) (hopen : self.run.session.state ≠ .closed)
    (api : PortApi π) :
    ∃ later, (self.told api index call).requests.calls[index]? = some later ∧
      later.id = some self.nextId ∧ later.method = call.method ∧
      later.stage = reached ((self.told api index call).ending
        { call with id := some self.nextId }) := by
  have hn : (self.registered index).requests.calls[index]? = some _ :=
    Requests.update_same hcall
  obtain ⟨later, hl, hid, hm, hs⟩ :=
    ((h.registered hcall hwaiting hopen).carries_lift
      (self.run.send api (.req self.nextId call.method call.params.next)).1 index).flight _
        hn rfl
  exact ⟨later, hl, hid, hm, hs⟩

theorem transmit_eq (self : Requester π) (index : Nat) (call : RequestCall) (aborted : Bool) :
    self.transmit api index call aborted =
      match (self.run.send api (.req self.nextId call.method call.params.next)).2 with
      | some thrown =>
        { self.told api index call with
          requests := ((self.told api index call).requests.release self.nextId index).settleAt index
            (.sendFailed (sendFailure call.method thrown)) }
      | none =>
        if call.options.signal && aborted then
          (self.told api index call).lift
            ((self.told api index call).run.trySend api (.cancel self.nextId))
        else self.told api index call := rfl

/-- What sending a request does. -/
structure Transmitted (api : PortApi π) (before after : Requester π) (index : Nat)
    (call : RequestCall) : Prop where
  kept : after.Kept
  others : ∀ position, position ≠ index → before.Carries after position
  sent : ∃ later, after.requests.calls[index]? = some later ∧ later.id = some before.nextId ∧
    later.stage = reached (sendCause api before after call)

section Transmit

variable (h : self.Kept) (hcall : self.requests.calls[index]? = some call)
  (hwaiting : call.stage = .waiting) (hopen : self.run.session.state ≠ .closed)

include h hcall hwaiting hopen

theorem Kept.told (api : PortApi π) : (self.told api index call).Kept :=
  (h.registered hcall hwaiting hopen).lift _

theorem Kept.carries_told (api : PortApi π) {position : Nat} (hp : position ≠ index) :
    self.Carries (self.told api index call) position := by
  have hs : self.Carries (self.registered index) position :=
    h.carries_same (Requests.update_other hp) rfl
  exact hs.lift (h.registered hcall hwaiting hopen) (later_send self.run _)

theorem Kept.transmit_thrown {thrown : SendThrown} (hth :
      (self.run.send api (.req self.nextId call.method call.params.next)).2 = some thrown)
    {settlement : Settlement}
    (hset : settlement = .sendFailed (sendFailure call.method thrown)) :
    Transmitted api self { self.told api index call with
      requests := ((self.told api index call).requests.release self.nextId index).settleAt index
        settlement } index call := by
  have ht := h.told hcall hwaiting hopen api
  obtain ⟨later, hl, hid, hm, hs⟩ := h.told_call hcall hwaiting hopen api
  have hr : (self.told api index call).run =
      (self.run.send api (.req self.nextId call.method call.params.next)).1 := lift_run _ _
  have hpa : ∀ found, (self.told api index call).requests.calls[index]? = some found →
      found.stage ≠ .waiting := by
    intro found hf
    cases hl.symm.trans hf
    rw [hs]
    exact reached_ne_waiting _
  refine ⟨⟨ht.requests.drop ⟨later, hl, hid⟩ settlement hpa, fun hc => ?_⟩,
    fun position hp => ?_, ?_⟩
  · change (self.told api index call).requests.pending.erase self.nextId = ∅
    rw [ht.closed hc]
    rfl
  · refine (h.carries_told hcall hwaiting hopen api hp).trans ?_ fun hc =>
      ⟨hc, rfl⟩
    exact ht.carries_same
      ((Requests.update_other hp).trans (Requests.update_other hp)) rfl
  · refine ⟨_, Requests.update_same (Requests.update_same hl),
      (RequestCall.settle_id settlement later.cleanup).trans hid, ?_⟩
    simp only [sendCause, hth, ← hr]
    by_cases hc : (self.told api index call).run.session.state = .closed
    · rw [if_pos hc]
      have hse : later.cleanup.stage = _ := hs
      rw [ending, if_pos hc] at hse
      rw [RequestCall.settle_of_settled hse]
      exact hs
    · rw [if_neg hc]
      have hcl : later.cleanup.stage = _ := hs
      rw [ending, if_neg hc] at hcl
      rw [RequestCall.settle_of_unsettled (.inr hcl), hset]
      rfl

theorem Kept.transmit_sent
    (hth : (self.run.send api (.req self.nextId call.method call.params.next)).2 = none)
    (run : SessionRun π) (hl : Later (self.told api index call).run run) :
    Transmitted api self ((self.told api index call).lift run) index call := by
  have ht := h.told hcall hwaiting hopen api
  obtain ⟨later, hla, hid, hm, hs⟩ :=
    h.told_call hcall hwaiting hopen api
  refine ⟨ht.lift _, fun position hp =>
    (h.carries_told hcall hwaiting hopen api hp).lift ht hl, ?_⟩
  have hr : Later (self.told api index call).run
      ((self.told api index call).lift run).run := by
    rw [lift_run]
    exact hl
  have hn : later.method = ({ call with id := some self.nextId } : RequestCall).method :=
    hm
  obtain ⟨last, hlast, hlastI, -, hlas⟩ :=
    (ht.carries_lift run index).ended hr hla hid hn hs
  grind [sendCause]

theorem Kept.transmit (aborted : Bool) :
    Transmitted api self (self.transmit api index call aborted) index call := by
  rw [transmit_eq]
  split
  next thrown ht => exact h.transmit_thrown hcall hwaiting hopen ht rfl
  next ht =>
    split
    next =>
      exact h.transmit_sent hcall hwaiting hopen ht _ (later_trySend _ _)
    next =>
      have hs := h.transmit_sent hcall hwaiting hopen ht
        (self.told api index call).run fun hc => ⟨hc, rfl⟩
      rwa [lift_self] at hs

end Transmit

/-! ### What settles a request -/

def cause (after : Requester π) (index : Nat) (call : RequestCall) :
    RequesterLabel π → Option Settlement
  | .session label =>
    match answer label with
    | none => after.ending call
    | some (id, settlement) => if call.id = some id then some settlement else after.ending call
  | .timeout position =>
    if position = index then
      some (.timedOut (requestTimedOut call.method (call.options.timeoutMs.getD 0)))
    else after.ending call
  | .request .. | .resume .. | .abort _ => after.ending call

/-- What a step does to the call at an index. -/
structure Advances (api : PortApi π) (before : Requester π) (label : RequesterLabel π)
    (after : Requester π) (index : Nat) : Prop where
  settled : ∀ call settlement, before.requests.calls[index]? = some call →
    call.stage = .settled settlement → after.requests.calls[index]? = some call
  registered : ∀ call, before.requests.calls[index]? = some call → call.stage = .registered →
    ∃ later, after.requests.calls[index]? = some later ∧ later.id = call.id ∧
      later.stage = reached (after.cause index call label)
  /-- A call that waits goes on waiting, is refused, or is registered and sent. -/
  waiting : ∀ call, before.requests.calls[index]? = some call → call.stage = .waiting →
    after.requests.calls[index]? = some call ∨
      ∃ later, after.requests.calls[index]? = some later ∧
        ((later.id = call.id ∧ ∃ error, later.stage = .settled (.refused error)) ∨
          later.id = some before.nextId ∧ later.stage = reached (sendCause api before after call))

variable {label : RequesterLabel π}

theorem Carries.advances (h : self.Carries next index)
    (hc : ∀ call, self.requests.calls[index]? = some call → call.stage = .registered →
      next.cause index call label = next.ending call) :
    Advances api self label next index := by
  obtain ⟨hs, hf⟩ := h
  constructor <;> grind

theorem advances_of_registered (hcall : self.requests.calls[index]? = some call)
    (hr : call.stage = .registered)
    (hl : ∃ later, next.requests.calls[index]? = some later ∧ later.id = call.id ∧
      later.stage = reached (next.cause index call label)) :
    Advances api self label next index := by
  constructor <;> grind

theorem advances_of_waiting (hcall : self.requests.calls[index]? = some call)
    (hwaiting : call.stage = .waiting)
    (hl : ∃ later, next.requests.calls[index]? = some later ∧
      ((later.id = call.id ∧ ∃ error, later.stage = .settled (.refused error)) ∨
        later.id = some self.nextId ∧ later.stage = reached (sendCause api self next call))) :
    Advances api self label next index := by
  constructor <;> grind

theorem Kept.advances_answered (h : self.Kept) {label : SessionLabel π} {settlement : Settlement}
    (ha : answer label = some (id, settlement)) (index : Nat) :
    Advances api self (.session label)
      { self with requests := self.requests.settle id settlement } index := by
  by_cases hl : self.requests.pending.lookup id = some index
  · obtain ⟨call, hcall, hid, hr⟩ := h.requests.entry hl
    have hcl : call.cleanup.stage = .registered := hr
    have hla := Requests.settle_same hl hcall settlement
    rw [RequestCall.settle_of_unsettled (.inr hcl)] at hla
    refine advances_of_registered hcall hr ⟨_, hla, rfl, ?_⟩
    simp only [cause, ha, if_pos hid]
    rfl
  · have hc : self.Carries
        { self with requests := self.requests.settle id settlement } index :=
      h.carries_same (Requests.settle_other hl settlement) rfl
    refine hc.advances fun found hfo hr => ?_
    have ho : found.id ≠ some id := fun hf =>
      hl ((h.requests.pending id index).mpr ⟨found, hfo, hf, hr⟩)
    simp only [cause, ha, if_neg ho]

theorem Kept.session (h : self.Kept) {label : SessionLabel π}
    (hs : self.step api (.session label) = some next) :
    next.Kept ∧ ∀ index, Advances api self (.session label) next index := by
  simp only [step] at hs
  split at hs
  next => cases hs
  next =>
    obtain ⟨run, hr, rfl⟩ := Option.map_eq_some_iff.mp hs
    refine ⟨(h.lift run).answered label, fun index => ?_⟩
    cases ha : answer label with
    | none =>
      simp only [Requester.answered, ha]
      refine (h.carries_lift run index).advances fun call _ _ => ?_
      simp only [cause, ha]
    | some entry =>
      cases step_answer ha hr
      rw [lift_self]
      simp only [Requester.answered, ha]
      exact h.advances_answered ha index

theorem Kept.request (h : self.Kept) (method : JsString) (params : JsValue)
    (options : RequestOptions) : (self.request method params options).Kept ∧ ∀ index,
      Advances api self (.request method params options)
        (self.request method params options) index := by
  refine ⟨⟨h.requests.append rfl ?_ ⟨rfl, rfl⟩, h.closed⟩, fun index => ?_⟩
  · dsimp only
    split <;> simp
  · by_cases hi : index < self.requests.calls.length
    · have hc : self.Carries (self.request method params options) index :=
        h.carries_same (List.getElem?_append_left hi) rfl
      exact hc.advances fun _ _ _ => rfl
    · constructor <;> grind

theorem Kept.refused (h : self.Kept) (hcall : self.requests.calls[index]? = some call)
    (hwaiting : call.stage = .waiting) (hne : next.Kept)
    (hc : next.requests.calls = self.requests.calls) (hr : next.run = self.run)
    (error : Rejection) (aborted : Bool) :
    (next.refuse index error).Kept ∧ ∀ position,
      Advances api self (.resume index aborted) (next.refuse index error) position := by
  have hn : next.requests.calls[index]? = some call := by rw [hc, hcall]
  refine ⟨⟨hne.requests.refuse hn hwaiting _, hne.closed⟩, fun position => ?_⟩
  by_cases hp : position = index
  · subst hp
    have hl : (next.refuse position error).requests.calls[position]? = some _ :=
      Requests.update_same hn
    rw [RequestCall.settle_of_unsettled (.inl hwaiting)] at hl
    exact advances_of_waiting hcall hwaiting ⟨_, hl, .inl ⟨rfl, error, rfl⟩⟩
  · have hs : (next.refuse index error).requests.calls[position]? =
        self.requests.calls[position]? := by
      rw [← hc]
      exact Requests.update_other hp
    exact (h.carries_same hs hr).advances fun _ _ _ => rfl

theorem Kept.skip (h : self.Kept) : self.skip.Kept := ⟨h.requests.skip, h.closed⟩

theorem Transmitted.advances (h : Transmitted api self next index call)
    (hcall : self.requests.calls[index]? = some call) (hwaiting : call.stage = .waiting)
    (aborted : Bool) (position : Nat) :
    Advances api self (.resume index aborted) next position := by
  by_cases hp : position = index
  · subst hp
    obtain ⟨later, hl, hid, hs⟩ := h.sent
    exact advances_of_waiting hcall hwaiting ⟨later, hl, .inr ⟨hid, hs⟩⟩
  · exact (h.others position hp).advances fun _ _ _ => rfl

theorem Kept.resume (h : self.Kept) (hcall : self.requests.calls[index]? = some call)
    (hwaiting : call.stage = .waiting) (remote : RemotePeer) (aborted : Bool) :
    (self.resume api index call remote aborted).Kept ∧ ∀ position,
      Advances api self (.resume index aborted) (self.resume api index call remote aborted)
        position := by
  unfold Requester.resume
  split
  next => exact h.refused hcall hwaiting h rfl rfl _ aborted
  next =>
    split
    next => exact h.refused hcall hwaiting h rfl rfl _ aborted
    next hopen =>
      dsimp only
      split
      next => exact h.refused hcall hwaiting h.skip rfl rfl _ aborted
      next =>
        split
        next => exact h.refused hcall hwaiting h.skip rfl rfl _ aborted
        next =>
          have hs : Transmitted api self _ index call :=
            h.transmit hcall hwaiting hopen aborted
          exact ⟨hs.kept, hs.advances hcall hwaiting aborted⟩

theorem Kept.timeout (h : self.Kept) (hcall : self.requests.calls[index]? = some call)
    (ht : call.timer = true) (hid : call.id = some id) :
    (self.expire api index call id).Kept ∧ ∀ position,
      Advances api self (.timeout index) (self.expire api index call id) position := by
  have hr := h.registered_of_timer hcall (.inl ht)
  refine ⟨h.expire hcall hid hr, fun position => ?_⟩
  by_cases hp : position = index
  · subst hp
    refine advances_of_registered hcall hr
      ⟨_, h.expire_same hcall hid hr, rfl, ?_⟩
    simp only [cause, if_true]
    rfl
  · exact (h.carries_expire hcall hid hr hp).advances fun _ _ _ =>
      if_neg (Ne.symm hp)

theorem Kept.step (h : self.Kept) (hs : self.step api label = some next) :
    next.Kept ∧ ∀ index, Advances api self label next index := by
  cases label with
  | session label => exact h.session hs
  | request method params options =>
    cases hs
    exact h.request method params options
  | resume index aborted =>
    simp only [Requester.step] at hs
    split at hs
    next => cases hs
    next call hcall =>
      split at hs
      next remote hwaiting _ =>
        cases hs
        exact h.resume hcall hwaiting remote aborted
      next error hwaiting _ =>
        cases hs
        exact h.refused hcall hwaiting h rfl rfl _ aborted
      next => cases hs
  | timeout index =>
    simp only [Requester.step] at hs
    split at hs
    next => cases hs
    next call hcall =>
      obtain ⟨ht, hs⟩ := Option.ite_none_right_eq_some.mp hs
      obtain ⟨id, hid, rfl⟩ := Option.map_eq_some_iff.mp hs
      exact h.timeout hcall ht hid
  | abort index =>
    simp only [Requester.step] at hs
    split at hs
    next => cases hs
    next call hcall =>
      obtain ⟨hl, hs⟩ := Option.ite_none_right_eq_some.mp hs
      obtain ⟨id, hid, rfl⟩ := Option.map_eq_some_iff.mp hs
      have hr := h.registered_of_timer hcall (.inr hl)
      exact ⟨(h.heard index).lift _, fun position =>
        (h.carries_cancel hcall hr position).advances fun _ _ _ => rfl⟩

/-! ### Runs -/

/-- The map, the promises, the timers and the listeners of a session agree. -/
structure Consistent (requester : Requester π) : Prop where
  /-- An id is pending exactly while its request is registered and its promise is not settled. -/
  pending : ∀ id index, requester.requests.pending.lookup id = some index ↔
    ∃ call, requester.requests.calls[index]? = some call ∧ call.id = some id ∧
      call.stage = .registered
  removed : ∀ call ∈ requester.requests.calls, ∀ settlement, call.stage = .settled settlement →
    call.timer = false ∧ call.listener = false
  /-- Whatever got past `ready` is settled in a closed session. -/
  closed : requester.run.session.state = .closed → requester.requests.pending = ∅ ∧
    ∀ call ∈ requester.requests.calls,
      call.stage = .waiting ∨ ∃ settlement, call.stage = .settled settlement

theorem Kept.consistent (h : self.Kept) : self.Consistent := by
  refine ⟨h.requests.pending, fun call hcall => ?_, fun hc => ⟨h.closed hc, fun call hcall => ?_⟩⟩
  all_goals obtain ⟨index, hi⟩ := List.mem_iff_getElem?.mp hcall
  · have hid := h.requests.idle index call hi
    grind
  · have hopen := h.open_of_registered hi
    cases hs : call.stage <;> grind

theorem kept_new {port : π} {options : SessionOptions} {requestIdPrefix : Option JsString}
    (hn : Requester.new api port options requestIdPrefix = .ok self) : self.Kept := by
  unfold Requester.new at hn
  cases hr : SessionRun.new api port options with
  | error thrown =>
    rw [hr] at hn
    cases hn
  | ok run =>
    rw [hr] at hn
    cases hn
    refine ⟨⟨?_, ⟨?_, ?_⟩, ?_, ?_⟩, fun _ => rfl⟩ <;> simp [Requests.Owns]

/-- In every run the requests of a session are consistent.  A step settles a request in flight by
its own answer, by its timeout or with the session, whichever comes first, and a request that is
sent is in flight unless the send ended the session or threw. -/
theorem run_consistent {port : π} {options : SessionOptions} {requestIdPrefix : Option JsString}
    {init state : Requester π} {labels : List (RequesterLabel π)}
    (hnew : Requester.new api port options requestIdPrefix = .ok init)
    (hrun : Machine.run (step api) init labels = some state) :
    state.Consistent ∧ ∀ label next, state.step api label = some next →
      ∀ index, Advances api state label next index := by
  have hk : state.Kept := Machine.run_invariant Kept
    (fun _ _ _ hb hs => (hb.step hs).1) (kept_new hnew) hrun
  exact ⟨hk.consistent, fun label next hs => (hk.step hs).2⟩

/-- The peer introduces itself, and one request is sent with a timeout and a signal. -/
def oneCall : List (RequesterLabel Unit) :=
  [.session (.frame (.hello ⟨protocolVersion, ⟨js "spoke", js "1.0.0", js "spoke"⟩, plainObject [],
      none⟩)),
    .request (js "fs.read-file") .null ⟨some 1000, true⟩, .resume 0 false]

theorem run_consistent_sent :
    ∃ init state,
      Requester.new SessionRun.acceptingApi () SessionRun.sampleOptions none = .ok init ∧
      Machine.run (step SessionRun.acceptingApi) init oneCall = some state ∧
      state.requests.pending.lookup (js "r-1") = some 0 ∧ state.Consistent := by
  have ha : (Requester.new SessionRun.acceptingApi () SessionRun.sampleOptions none).toOption.any
      (fun init => (Machine.run (step SessionRun.acceptingApi) init oneCall).any fun state =>
        decide (state.requests.pending.lookup (js "r-1") = some 0)) = true := by
    decide +kernel
  obtain ⟨init, hn, hru⟩ := (Option.any_eq_true _ _).mp ha
  obtain ⟨state, hr, hl⟩ := (Option.any_eq_true _ _).mp hru
  have hok := ok_of_toOption hn
  exact ⟨init, state, hok, hr, of_decide_eq_true hl, (run_consistent hok hr).1⟩

end Requester

end MangoProtocol.TypeScript
