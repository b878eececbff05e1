import MangoProtocol.Session.Moves

/-! How a session ends: the reason with which the main loop ended is the one that `run` returns,
whatever else the port holds by then. -/

namespace MangoProtocol

open ProofKit

variable {H : Type} {config : Config}

def closeCodeOf : Option Inbound → Option UInt16
  | some (.frame (.close close)) => some close.code
  | some (.closed (.closed code _)) => code
  | some (.closed (.protocolError _ code)) => some code
  | _ => none

def FatalWaiting (items : List (Option Inbound)) (code : UInt16) : Prop :=
  ∃ before item after, items = before ++ item :: after ∧
    (∀ earlier ∈ before, (frameOf earlier).isSome ∧ closeCodeOf earlier = none) ∧
    closeCodeOf item = some code ∧ isFatalCloseCode code = true

namespace Session

variable {self next final : Session H} {reason : Teardown}

def Ending (reason : Teardown) (session : Session H) : Prop :=
  (∃ stage, session.phase = .closing reason stage) ∨
    ∃ unfinishedHandlers, session.phase = .finished (reason.closure unfinishedHandlers)

variable {stage : TeardownStage} {label : Label H}

theorem advanceTeardown_ending (h : self.advanceTeardown reason stage = some next) :
    next.Ending reason := by
  cases stage with
  | marking | settling | failing =>
    cases h
    exact .inl ⟨_, rfl⟩
  | flushing =>
    obtain ⟨-, h⟩ := Option.ite_none_right_eq_some.mp h
    cases h
    exact .inl ⟨_, rfl⟩
  | draining => cases h

theorem Ending.step (h : self.Ending reason) (hst : self.step config label = some next) :
    next.Ending reason := by
  cases step_move hst with
  | api _ _ move =>
    cases move with
    | post | start | follow | number | request => exact h
  | arrive | transmit => exact h
  | driver _ _ move =>
    have other {phase : Phase} (hp : self.phase = phase)
        (hc : ∀ stage, phase ≠ .closing reason stage)
        (hf : ∀ closure, phase ≠ .finished closure) : next.Ending reason := by
      rcases h with ⟨stage, hs⟩ | ⟨unfinished, hu⟩
      · exact absurd (hp.symm.trans hs) (hc stage)
      · exact absurd (hp.symm.trans hu) (hf _)
    have same {other : Teardown} {stage : TeardownStage} (hp : self.phase = .closing other stage) :
        other = reason := by
      rcases h with ⟨stage', hs⟩ | ⟨unfinished, hu⟩
      · cases hp.symm.trans hs
        rfl
      · cases hp.symm.trans hu
    cases move with
    | greet outcome hp => exact other hp (fun _ => nofun) fun _ => nofun
    | sendFailed outcome hp => exact other hp (fun _ => nofun) fun _ => nofun
    | handshakeTimeout hp => exact other hp (fun _ => nofun) fun _ => nofun
    | livenessTick hp => exact other hp (fun _ => nofun) fun _ => nofun
    | settled _ _ _ hp => exact other hp (fun _ => nofun) fun _ => nofun
    | command _ _ hp => exact other hp (fun _ => nofun) fun _ => nofun
    | inbound _ _ _ hp => exact other hp (fun _ => nofun) fun _ => nofun
    | teardown reason' stage next hp hn =>
      cases same hp
      exact advanceTeardown_ending hn
    | drain _ _ _ reason' hp =>
      cases same hp
      exact .inl ⟨.draining, hp⟩
    | finish reason' hp =>
      cases same hp
      exact .inr ⟨_, rfl⟩

theorem Ending.code_eq {code code' : UInt16} {why why' : Option String}
    (h : self.Ending (.localClose code why)) (h' : self.Ending (.localClose code' why')) :
    code = code' := by
  rcases h with ⟨_, hc⟩ | ⟨_, hf⟩
  · rcases h' with ⟨_, ho⟩ | ⟨_, ho⟩
    · cases hc.symm.trans ho
      rfl
    · cases hc.symm.trans ho
  · rcases h' with ⟨_, ho⟩ | ⟨_, ho⟩
    · cases hf.symm.trans ho
    · have hcl := Phase.finished.inj (hf.symm.trans ho)
      exact congrArg SessionClosure.code hcl

theorem Ending.closure {labels : List (Label H)} {closure : SessionClosure} (h : self.Ending reason)
    (hr : Machine.run (Session.step config) self labels = some final)
    (hf : final.phase = .finished closure) :
    ∃ unfinishedHandlers, closure = reason.closure unfinishedHandlers := by
  have he : final.Ending reason :=
    Machine.run_invariant (Ending reason) (fun _ _ _ hs hste => hs.step hste) h hr
  rcases he with ⟨stage, hst⟩ | ⟨unfinished, hu⟩
  · cases hf.symm.trans hst
  · cases hf.symm.trans hu
    exact ⟨unfinished, rfl⟩

/-! ### A session that ends comes to its end -/

def Finishes (config : Config) (reason : Teardown) (session : Session H) : Prop :=
  ∃ labels final unfinishedHandlers,
    Machine.run (Session.step config) session labels = some final ∧
      final.phase = .finished (reason.closure unfinishedHandlers)

theorem Finishes.head (hs : self.step config label = some next) (h : next.Finishes config reason)
    : self.Finishes config reason := by
  obtain ⟨labels, final, unfinished, hr, hp⟩ := h
  exact ⟨label :: labels, final, unfinished, Machine.run_cons.mpr ⟨next, hs, hr⟩, hp⟩

theorem teardown_step (hp : self.phase = .closing reason stage) :
    self.step config (.driver .teardown) = self.advanceTeardown reason stage := by
  simp only [Session.step, driverStep, hp]

theorem draining_finishes (hp : self.phase = .closing reason .draining) :
    self.Finishes config reason := by
  refine ⟨[.driver .finish], self.finish reason, _, Machine.run_cons.mpr ⟨_, ?_, rfl⟩, rfl⟩
  simp only [Session.step, driverStep, hp]
  rfl

theorem failing_finishes (hp : self.phase = .closing reason .failing) :
    self.Finishes config reason :=
  .head (teardown_step hp) (draining_finishes rfl)

theorem settling_finishes (hp : self.phase = .closing reason .settling) :
    self.Finishes config reason :=
  .head (teardown_step hp) (failing_finishes rfl)

theorem flushing_finishes (hp : self.phase = .closing reason .flushing) :
    self.Finishes config reason := by
  induction hw : self.writer.waiting generalizing self with
  | nil =>
    have hs : self.step config (.driver .teardown) =
        some { self with phase := .closing reason .settling } := by
      rw [teardown_step hp, advanceTeardown, hw]
      rfl
    exact .head hs (settling_finishes rfl)
  | cons frame rest ih =>
    obtain ⟨writer, hr, hre⟩ := Channel.recv_of_waiting hw
    have hs : self.step config (.port (.transmit .sent)) = some { self with writer } := by
      simp only [Session.step, portStep, transmit, hr]
      rfl
    exact .head hs (ih hp hre)

theorem closing_finishes (hp : self.phase = .closing reason stage) :
    self.Finishes config reason := by
  cases stage with
  | marking => exact .head (teardown_step hp) (flushing_finishes rfl)
  | flushing => exact flushing_finishes hp
  | settling => exact settling_finishes hp
  | failing => exact failing_finishes hp
  | draining => exact draining_finishes hp

/-- A step that ends the session because a frame, the hello included, could not be sent. -/
def SendFailure (label : Label H) : Prop :=
  label = .driver .sendFailed ∨ ∃ outcome, outcome ≠ .sent ∧ label = .driver (.greet outcome)

theorem greet_refused {outcome : SendOutcome} (h : outcome ≠ .sent) :
    ∃ text, (self.greet config outcome).Ending (.localClose closeCodes.released text) := by
  unfold greet
  dsimp only
  split
  · exact ⟨_, .inl ⟨_, rfl⟩⟩
  · rename_i hr
    exfalso
    split at hr
    · cases hr
    · cases outcome with
      | sent => exact h rfl
      | closed => cases hr
      | refused error => cases hr

theorem sendFailure_ending (hl : SendFailure label) (hs : self.step config label = some next)
    : ∃ text, next.Ending (.localClose closeCodes.released text) := by
  rcases hl with rfl | ⟨outcome, ho, rfl⟩
  · cases step_move hs with | driver _ _ move =>
    cases move
    exact ⟨_, .inl ⟨_, rfl⟩⟩
  · cases step_move hs with | driver _ _ move =>
    cases move
    exact greet_refused ho

/-- A session that a failed send ends returns 4000, so that a fatal close which waits in the port is
masked whenever there is one. -/
theorem sendFailure_masks_iff {label : Label H} {labels : List (Label H)} {closure : SessionClosure}
    (hlabel : SendFailure label) (hstep : self.step config label = some next)
    (hrun : Machine.run (Session.step config) next labels = some final)
    (hfinal : final.phase = .finished closure) :
    (∀ code, FatalWaiting self.inbound.waiting code →
      closure.code = code ∧ closure.fatal = true) ↔
      ¬∃ code, FatalWaiting self.inbound.waiting code := by
  obtain ⟨text, he⟩ := sendFailure_ending hlabel hstep
  obtain ⟨unfinished, rfl⟩ := he.closure hrun hfinal
  have hf : (Teardown.closure (.localClose closeCodes.released text) unfinished).fatal = false :=
    rfl
  constructor
  · rintro ho ⟨code, hc⟩
    have := (ho code hc).2
    rw [hf] at this
    cases this
  · exact fun hn code hc => absurd ⟨code, hc⟩ hn

/-! ### A refused credential -/

/-- The peer closes the port with 4401 before the hello goes out. -/
def refusedItem : Option Inbound := some (.closed (.closed (some closeCodes.unauthorized) none))

def refusedSession : Session Unit :=
  { initial [] with inbound := Channel.empty.send refusedItem }

def refusedLabels : List (Label Unit) :=
  [.driver .teardown, .driver .teardown, .driver .teardown, .driver .teardown, .driver .finish]

theorem refusedSession_waiting :
    FatalWaiting refusedSession.inbound.waiting closeCodes.unauthorized :=
  ⟨[], refusedItem, [], rfl, by simp, rfl, rfl⟩

theorem refusedSession_run :
    ∃ next final, refusedSession.step (sampleConfig []) (.driver (.greet .closed)) = some next ∧
      Machine.run (Session.step (sampleConfig [])) next refusedLabels = some final ∧
      final.phase = .finished ⟨4000, some "hello could not be sent", false, none, 0⟩ := by
  obtain ⟨final, hru, hp⟩ : ∃ final, Machine.run (Session.step (sampleConfig []))
      refusedSession (.driver (.greet .closed) :: refusedLabels) = some final ∧
      final.phase = .finished ⟨4000, some "hello could not be sent", false, none, 0⟩ :=
    Machine.exists_run (by decide +kernel)
  obtain ⟨next, hs, hr⟩ := Machine.run_cons.mp hru
  exact ⟨next, final, hs, hr, hp⟩

/-- The port holds the close with 4401 when sending the hello fails; the session returns 4000. -/
theorem greet_masks_unauthorized :
    (initial []).step (sampleConfig []) (.port (.arrive refusedItem)) = some refusedSession ∧
      FatalWaiting refusedSession.inbound.waiting closeCodes.unauthorized ∧
      ∃ next final, refusedSession.step (sampleConfig []) (.driver (.greet .closed)) = some next ∧
        Machine.run (Session.step (sampleConfig [])) next refusedLabels = some final ∧
        final.phase = .finished ⟨4000, some "hello could not be sent", false, none, 0⟩ :=
  ⟨rfl, refusedSession_waiting, refusedSession_run⟩

theorem sendFailure_masks_iff_refused :
    let closure : SessionClosure := ⟨4000, some "hello could not be sent", false, none, 0⟩
    (∀ code, FatalWaiting refusedSession.inbound.waiting code →
      closure.code = code ∧ closure.fatal = true) ↔
      ¬∃ code, FatalWaiting refusedSession.inbound.waiting code := by
  obtain ⟨next, final, hs, hr, hp⟩ := refusedSession_run
  exact sendFailure_masks_iff (.inr ⟨.closed, nofun, rfl⟩) hs hr hp

end Session

end MangoProtocol
