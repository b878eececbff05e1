import MangoProtocol.Session.Control
import MangoProtocol.ProofKit.Interval

/-! The main loop of the driver with its clock.  `Timed` adds to a session the time, the deadline of
the handshake, the liveness timer and the branch that `select!` polls next.  The branches are polled
in their order.  Each is taken or passed: a timer that has run out is ready only once the runtime
has turned its time driver, and a task that has used up its budget finds nothing ready. -/

namespace MangoProtocol

open ProofKit

variable {H : Type} {config : Config}

/-- The branches of the main loop, in the order in which they are polled. -/
inductive Branch where
  | sendFailed
  | handshakeTimeout
  | livenessTick
  | settled
  | command
  | inbound
  deriving DecidableEq

/-- The branch that is polled after one that was not ready.  After the last the loop waits to be
woken, and is polled from the start. -/
def Branch.next : Branch → Branch
  | .sendFailed => .handshakeTimeout
  | .handshakeTimeout => .livenessTick
  | .livenessTick => .settled
  | .settled => .command
  | .command => .inbound
  | .inbound => .sendFailed

def DriverStep.branch : DriverStep → Option Branch
  | .sendFailed => some .sendFailed
  | .handshakeTimeout => some .handshakeTimeout
  | .livenessTick => some .livenessTick
  | .settled _ _ => some .settled
  | .command => some .command
  | .inbound _ => some .inbound
  | .greet _ | .teardown | .drain _ _ | .finish => none

structure Timed (H : Type) where
  session : Session H
  now : Nat
  handshakeDeadline : Nat
  liveness : Option Interval
  branch : Branch

inductive TimedLabel (H : Type) where
  /-- Time passes. -/
  | advance (elapsed : Nat)
  /-- A step outside the main loop. -/
  | outside (label : Label H)
  /-- The loop builds its liveness timer. -/
  | arm
  /-- The branch that is polled gives nothing. -/
  | pass
  /-- The branch that is polled is taken. -/
  | take (step : DriverStep)

/-- The step is one of the main loop. -/
def Label.inLoop : Label H → Bool
  | .driver step => step.branch.isSome
  | _ => false

namespace Timed

def initial (handlers : List (String × H)) : Timed H := ⟨.initial handlers, 0, 0, none, .sendFailed⟩

/-- The timer that the loop builds before it polls again: the first tick is one period after the
session became ready.  `interval_at` takes no period of zero. -/
def missingTimer (config : Config) (self : Timed H) : Option Interval :=
  match self.liveness, self.session.shared.state, config.livenessInterval with
  | none, .ready, some period =>
    if positive : 0 < period then some (.startingAt (self.now + period) period positive) else none
  | _, _, _ => none

/-- The loop is polling its branches. -/
def polling (config : Config) (self : Timed H) : Bool :=
  self.session.phase = .running ∧ (self.missingTimer config).isNone

def tickDue (self : Timed H) (time : Nat) : Bool := self.liveness.any fun timer => timer.Due time

/-- The branch has something to take.  Whether a handler has settled is for the runtime to say. -/
def ready (self : Timed H) : Branch → Bool
  | .sendFailed => self.session.sendFailure.isSome
  | .handshakeTimeout =>
    self.session.shared.state = .handshaking ∧ self.handshakeDeadline ≤ self.now
  | .livenessTick => self.tickDue self.now
  | .settled => false
  | .command => !self.session.commands.waiting.isEmpty
  | .inbound => !self.session.inbound.waiting.isEmpty

/-- A timer may be taken once it has run out; the other branches are up to the session. -/
def mayTake (self : Timed H) : Branch → Bool
  | .handshakeTimeout => self.ready .handshakeTimeout
  | .livenessTick => self.ready .livenessTick
  | _ => true

/-- The timer after a branch was taken. -/
def timerAfter (self : Timed H) : Branch → Option Interval
  | .livenessTick => self.liveness.map fun timer => timer.tick self.now
  | _ => self.liveness

def step (config : Config) (self : Timed H) : TimedLabel H → Option (Timed H)
  | .advance elapsed => some { self with now := self.now + elapsed }
  | .outside label =>
    if label.inLoop then none
    else (self.session.step config label).map fun session => { self with
      session
      handshakeDeadline := match label with
        | .driver (.greet _) => self.now + config.handshakeTimeout
        | _ => self.handshakeDeadline }
  | .arm =>
    if self.session.phase = .running then
      (self.missingTimer config).map fun timer => { self with liveness := some timer }
    else none
  | .pass =>
    if self.polling config then some { self with branch := self.branch.next } else none
  | .take step =>
    if self.polling config ∧ step.branch = some self.branch ∧ self.mayTake self.branch then
      (self.session.step config (.driver step)).map fun session => { self with
        session
        liveness := self.timerAfter self.branch
        branch := .sendFailed }
    else none

end Timed

/-! ### Pongs in one step of a session -/

/-- The received item is a pong. -/
def isPong : Option Inbound → Bool
  | some (.frame .pong) => true
  | _ => false

namespace Session

variable {self next : Session H}

/-- A pong can be taken from the port without waiting, maybe after other frames. -/
def pongWaiting (self : Session H) : Bool := self.inbound.waiting.any isPong

/-- What a step does to the receive half and to the wait for a pong. -/
inductive Listens (before : Session H) (label : Label H) (after : Session H) : Prop
  | same (hinbound : after.inbound = before.inbound)
    (hawaiting : after.awaitingPong = before.awaitingPong)
  | arrive (item : Option Inbound) (hlabel : label = .port (.arrive item))
    (hinbound : after.inbound = before.inbound.send item)
    (hawaiting : after.awaitingPong = before.awaitingPong)
  | take (item : Option Inbound) (inbound : Channel (Option Inbound))
    (hrecv : before.inbound.recv = some (item, inbound)) (hinbound : after.inbound = inbound)
    (hawaiting : after.awaitingPong = true → before.awaitingPong = true)
  | tick (hlabel : label = .driver .livenessTick) (hinbound : after.inbound = before.inbound)

theorem onInbound_awaitingPong (self : Session H) (item : Option Inbound) (call : HandlerCall)
    (h : (self.onInbound config item call).awaitingPong = true) : self.awaitingPong = true := by
  rcases item with _ | ⟨frame | closure⟩
  · exact h
  · cases frame with
    | hello hello =>
      simp only [onInbound, onFrame, onHello] at h
      split at h
      · exact h
      · split at h <;> exact h
    | req request =>
      simp only [onInbound, onFrame, onRequest] at h
      split at h
      · exact h
      · cases call <;> exact h
    | res | err =>
      simp only [onInbound, onFrame, onResponse] at h
      split at h <;> exact h
    | cancel cancel =>
      simp only [onInbound, onFrame, onCancel] at h
      split at h <;> exact h
    | pong => cases h
    | evt | close | ping => exact h
  · exact h

theorem onHandlerSettled_awaitingPong (self : Session H) (task : TaskId) (settled : Settled) :
    (self.onHandlerSettled config task settled).awaitingPong = self.awaitingPong := by
  unfold onHandlerSettled respondResult
  dsimp only
  split
  · rfl
  · split
    · rfl
    · split
      · split <;> rfl
      · rfl

theorem onCommand_awaitingPong (self : Session H) (command : Command) :
    (self.onCommand command).awaitingPong = self.awaitingPong := by
  cases command with
  | close => rfl
  | request frame reply => cases frame <;> rfl
  | cancel id forget => cases forget <;> rfl
  | send frame => rfl

theorem step_listens {label : Label H} (h : self.step config label = some next) :
    Listens self label next := by
  cases step_move h with
  | api _ _ move =>
    cases move with
    | post | start | follow | number | request => exact .same rfl rfl
  | arrive item => exact .arrive item rfl rfl rfl
  | transmit => exact .same rfl rfl
  | driver _ _ move =>
    cases move with
    | greet outcome =>
      unfold greet
      dsimp only
      split <;> exact .same rfl rfl
    | livenessTick => exact .tick rfl onLivenessTick_steady.inbound
    | settled task settled invocation =>
      exact .same
        (onHandlerSettled_steady (self.joined task invocation settled) task settled).inbound
        (onHandlerSettled_awaitingPong _ task settled)
    | command command commands =>
      exact .same (onCommand_steady { self with commands } command).inbound
        (onCommand_awaitingPong { self with commands } command)
    | inbound call item inbound _ _ hr =>
      exact .take item inbound hr (onInbound_inbound { self with inbound } item call)
        (onInbound_awaitingPong { self with inbound } item call)
    | teardown reason stage _ _ hn =>
      cases stage with
      | marking | settling =>
        cases hn
        exact .same rfl rfl
      | flushing =>
        obtain ⟨-, hn⟩ := Option.ite_none_right_eq_some.mp hn
        cases hn
        exact .same rfl rfl
      | failing =>
        cases hn
        obtain ⟨calls, -, -, heq⟩ := self.failPending_eq reason
        rw [heq]
        exact .same rfl rfl
      | draining => cases hn
    | sendFailed | handshakeTimeout | drain | finish => exact .same rfl rfl

theorem onLivenessTick_ends {reason : Teardown} {stage : TeardownStage}
    (hr : self.phase = .running) (h : self.onLivenessTick.phase = .closing reason stage) :
    self.awaitingPong = true := by
  unfold onLivenessTick at h
  split at h
  · assumption
  · rw [enqueue, hr] at h
    cases h

end Session

/-! ### Runs -/

namespace Timed

variable {self next : Timed H}

variable {label : TimedLabel H} {session : Session H} {branch : Branch} {deadline : Nat}

theorem step_session (h : self.step config label = some next) :
    next.session = self.session ∨ ∃ label, self.session.step config label = some next.session := by
  cases label with
  | advance =>
    cases h
    exact .inl rfl
  | outside label =>
    obtain ⟨-, h⟩ := Option.ite_none_left_eq_some.mp h
    obtain ⟨session, hs, rfl⟩ := Option.map_eq_some_iff.mp h
    exact .inr ⟨label, hs⟩
  | arm =>
    obtain ⟨-, h⟩ := Option.ite_none_right_eq_some.mp h
    obtain ⟨timer, -, rfl⟩ := Option.map_eq_some_iff.mp h
    exact .inl rfl
  | pass =>
    obtain ⟨-, h⟩ := Option.ite_none_right_eq_some.mp h
    cases h
    exact .inl rfl
  | take step =>
    obtain ⟨-, h⟩ := Option.ite_none_right_eq_some.mp h
    obtain ⟨session, hs, rfl⟩ := Option.map_eq_some_iff.mp h
    exact .inr ⟨.driver step, hs⟩

theorem run_reachable {handlers : List (String × H)} {labels : List (TimedLabel H)}
    {state : Timed H} (hru : Machine.run (step config) (initial handlers) labels = some state) :
    state.session.Reachable config := by
  refine Machine.run_invariant (fun timed => timed.session.Reachable config) ?_
    ⟨handlers, [], rfl⟩ hru
  intro timed label next hr hst
  rcases step_session hst with hsa | ⟨label, hs⟩
  · exact hsa ▸ hr
  · exact hr.step hs

/-- The driver is on time: when the time comes that a ping should have been answered, the pongs that
came have been taken, and no pong comes before the tick is. -/
def OnTime (self : Timed H) : TimedLabel H → Prop
  | .advance elapsed => self.session.awaitingPong = true →
    self.tickDue (self.now + elapsed) = true →
      self.session.pongWaiting = false
  | .outside (.port (.arrive item)) => isPong item = true → self.session.awaitingPong = true →
      self.tickDue self.now = false
  | _ => True

instance (self : Timed H) : (label : TimedLabel H) → Decidable (self.OnTime label)
  | .advance elapsed => inferInstanceAs (Decidable (self.session.awaitingPong = true →
      self.tickDue (self.now + elapsed) = true → self.session.pongWaiting = false))
  | .outside (.port (.arrive item)) => inferInstanceAs (Decidable (isPong item = true →
      self.session.awaitingPong = true → self.tickDue self.now = false))
  | .outside (.port (.transmit _)) | .outside (.api _) | .outside (.driver _) | .arm | .pass
  | .take _ => isTrue trivial

/-- The session is ending because its last ping was not answered. -/
def TimedOut (self : Timed H) : Prop := self.session.phase =
  .closing (.localClose closeCodes.released (some "liveness timeout")) .marking

instance (self : Timed H) : Decidable self.TimedOut :=
  inferInstanceAs (Decidable (self.session.phase = _))

def Unanswered (self : Timed H) : Prop :=
  self.session.awaitingPong = true → self.tickDue self.now = true → self.session.pongWaiting = false

theorem Unanswered.listens {label : Label H} {liveness : Option Interval} (h : self.Unanswered)
    (hlis : self.session.Listens label session) (ht : label ≠ .driver .livenessTick)
    (har : ∀ item, label = .port (.arrive item) → isPong item = true →
      self.session.awaitingPong = true → self.tickDue self.now = false)
    (hli : liveness = self.liveness) :
    Unanswered ⟨session, self.now, deadline, liveness, branch⟩ := by
  intro ha hd
  subst hli
  have hd : self.tickDue self.now = true := hd
  cases hlis with
  | same hi hs =>
    have hq := h (hs.symm.trans ha) hd
    rwa [Session.pongWaiting, ← hi] at hq
  | arrive item hl hi hs =>
    have hse := hs.symm.trans ha
    have hit : isPong item = false := by grind
    have hq : self.session.inbound.waiting.any isPong = false := h hse hd
    simp only [Session.pongWaiting, hi, Channel.waiting_send, List.any_append, hq,
      List.any_cons, hit, List.any_nil, Bool.or_false]
  | take item inbound hr hi hea =>
    have hq := h (hea ha) hd
    rw [Session.pongWaiting, Channel.recv_waiting hr, List.any_cons, Bool.or_eq_false_iff] at hq
    rw [Session.pongWaiting, hi]
    exact hq.2
  | tick hl => exact absurd hl ht

theorem timerAfter_eq {step : DriverStep} (hb : step.branch = some self.branch)
    (ht : step ≠ .livenessTick) : self.timerAfter self.branch = self.liveness := by
  cases step with
  | livenessTick => exact absurd rfl ht
  | sendFailed | handshakeTimeout | settled | command | inbound =>
    rw [← Option.some.inj hb]
    rfl
  | greet | teardown | drain | finish => cases hb

theorem tickDue_tick (self : Timed H) :
    tickDue ⟨session, self.now, deadline, self.timerAfter .livenessTick, branch⟩ self.now =
      false := by
  unfold tickDue timerAfter
  cases self.liveness with
  | none => rfl
  | some timer => exact decide_eq_false (timer.not_due_tick self.now)

theorem missingTimer_not_due {timer : Interval} (h : self.missingTimer config = some timer) :
    ¬timer.Due self.now := by
  unfold missingTimer at h
  split at h
  · grind [Interval.Due, Interval.startingAt]
  · cases h

theorem Unanswered.step (h : self.Unanswered) (ho : self.OnTime label)
    (hs : self.step config label = some next) : next.Unanswered := by
  cases label with
  | advance elapsed =>
    cases hs
    exact ho
  | outside label =>
    obtain ⟨hl, hs⟩ := Option.ite_none_left_eq_some.mp hs
    obtain ⟨session, hse, rfl⟩ := Option.map_eq_some_iff.mp hs
    refine h.listens (Session.step_listens hse) ?_ ?_ rfl
    · rintro rfl
      exact hl rfl
    · rintro item rfl
      exact ho
  | arm =>
    obtain ⟨-, hs⟩ := Option.ite_none_right_eq_some.mp hs
    obtain ⟨timer, hti, rfl⟩ := Option.map_eq_some_iff.mp hs
    have hn := missingTimer_not_due hti
    exact fun _ hd => absurd (of_decide_eq_true hd) hn
  | pass =>
    obtain ⟨-, hs⟩ := Option.ite_none_right_eq_some.mp hs
    cases hs
    exact h
  | take step =>
    obtain ⟨⟨-, hb, -⟩, hs⟩ := Option.ite_none_right_eq_some.mp hs
    obtain ⟨session, hse, rfl⟩ := Option.map_eq_some_iff.mp hs
    by_cases ht : step = .livenessTick
    · subst ht
      have hb : self.branch = .livenessTick := (Option.some.inj hb).symm
      intro _ hd
      rw [hb, tickDue_tick] at hd
      cases hd
    · refine h.listens (Session.step_listens hse) ?_ (fun _ => nofun) ?_
      · rintro ⟨⟩
        exact ht rfl
      · exact timerAfter_eq hb ht

/-- The loop takes the inbound branch, in which nothing else is ready. -/
def takeInbound : List (TimedLabel Unit) :=
  [.pass, .pass, .pass, .pass, .pass, .take (.inbound (.future 0))]

def readyLabels : List (TimedLabel Unit) :=
  [.outside (.driver (.greet .sent)),
    .outside (.port (.arrive (some (.frame (.hello sampleHello)))))] ++ takeInbound ++ [.arm]

def pingLabels : List (TimedLabel Unit) :=
  [.advance 20000, .pass, .pass, .take .livenessTick, .outside (.port (.transmit .sent))]

/-- The peer is silent until the next tick. -/
def silentLabels : List (TimedLabel Unit) :=
  readyLabels ++ pingLabels ++ [.advance 20000, .pass, .pass]

/-- The peer answers the ping a second after it went out, and the driver is not polled before the
next tick is due. -/
def delayedLabels : List (TimedLabel Unit) :=
  readyLabels ++ pingLabels ++ [.advance 1000, .outside (.port (.arrive (some (.frame .pong)))),
    .advance 19000, .pass, .pass]

/-- No branch is passed that has something to take. -/
def Prompt (self : Timed H) : TimedLabel H → Prop
  | .pass => self.ready self.branch = false
  | _ => True

instance (self : Timed H) : (label : TimedLabel H) → Decidable (self.Prompt label)
  | .pass => inferInstanceAs (Decidable (self.ready self.branch = false))
  | .advance _ | .outside _ | .arm | .take _ => isTrue trivial

end Timed

end MangoProtocol
