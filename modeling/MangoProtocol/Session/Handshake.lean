import MangoProtocol.Session.Calling
import MangoProtocol.Session.Closing
import MangoProtocol.Session.Control

/-! The handshake over whole runs.  Before a hello of the same major was taken, a session sends
pings, pongs and refusals only and hands no event on; the state moves one way; `ready` is settled
once. -/

namespace MangoProtocol

open ProofKit

variable {H : Type} {config : Config}

/-- What a session may send before it took a hello: pings, pongs and refusals. -/
def Frame.Early : Frame → Prop
  | .ping | .pong => True
  | .err error => error.error.code = codes.unavailable
  | _ => False

def Command.Early : Command → Prop
  | .close _ _ | .send .ping => True
  | _ => False

def CallStage.Early : CallStage → Prop
  | .awaitingReady | .done (.failed _) | .dropped => True
  | _ => False

def Call.SameStage (before after : Call) : Prop := after.stage = before.stage

theorem Call.SameStage.eq {before after : Call} (h : before.SameStage after) :
    after.stage = before.stage := h

theorem Call.SameStage.refl (call : Call) : call.SameStage call := rfl

theorem Call.Failed.sameStage {before after : Call} (h : before.Failed after) :
    before.SameStage after := by
  rcases h with rfl | ⟨error, -, rfl⟩
  · exact .refl _
  · exact rfl

namespace Session

variable {self next final : Session H}

/-! ### The state, the peer and `ready` -/

/-- What the state, the record of the peer and the value of `ready` say about each other. -/
structure Agreed (config : Config) (session : Session H) : Prop where
  remote : ∀ remote, session.shared.remote = some remote ↔
    session.shared.ready = some (.ok remote)
  handshaking : session.shared.state = .handshaking → session.shared.remote = none
  ready : session.shared.state = .ready → session.shared.remote.isSome
  greeting : session.phase = .greeting → session.shared.state = .handshaking
  opened : session.phase.looping = true → session.shared.state ≠ .closed
  unsettled : session.phase.looping = true → session.shared.remote = none →
    session.shared.ready = none
  settled : session.phase.settled = true → session.shared.ready.isSome
  hello : session.shared.remote.isSome →
    ∃ hello, some (.frame (.hello hello)) ∈ session.inbound.received ∧ hello.matching config

theorem Agreed.ready_of_remote (h : self.Agreed config) (hs : self.shared.remote.isSome) :
    self.shared.ready.isSome := by
  obtain ⟨remote, hr⟩ := Option.isSome_iff_exists.mp hs
  rw [(h.remote remote).mp hr]
  rfl

theorem Agreed.remote_of_ready (h : self.Agreed config) (hn : self.shared.ready = none) :
    self.shared.remote = none := by
  cases hr : self.shared.remote with
  | none => rfl
  | some remote =>
    rw [(h.remote remote).mp hr] at hn
    cases hn

theorem Agreed.fail {error : RemoteError} (h : self.Agreed config)
    (hr : next.shared.remote = self.shared.remote)
    (hre : next.shared.ready = self.shared.ready.or (some (.error error))) (remote : RemotePeer) :
    next.shared.remote = some remote ↔ next.shared.ready = some (.ok remote) := by
  rw [hr, hre]
  cases hs : self.shared.ready with
  | none =>
    rw [h.remote_of_ready hs]
    exact ⟨nofun, nofun⟩
  | some outcome => rw [h.remote remote, hs]; rfl

theorem Agreed.step (h : self.Agreed config) (hmo : ControlMove config self next)
    (hrec : ∀ item ∈ self.inbound.received, item ∈ next.inbound.received) :
    next.Agreed config := by
  have hello (hr : next.shared.remote = self.shared.remote)
      (hso : next.shared.remote.isSome) : ∃ hello,
        some (.frame (.hello hello)) ∈ next.inbound.received ∧ hello.matching config := by
    obtain ⟨hello, hhe, hm⟩ := h.hello (hr ▸ hso)
    exact ⟨hello, hrec _ hhe, hm⟩
  cases hmo with
  | same hs hr hre hg hl hse =>
    refine ⟨?_, ?_, ?_, ?_, ?_, ?_, ?_, hello hr⟩
    · rw [hr, hre]
      exact h.remote
    · rw [hs, hr]
      exact h.handshaking
    · rw [hs, hr]
      exact h.ready
    · rw [hs]
      exact fun hn => h.greeting (hg hn)
    · rw [hs]
      exact fun hn => h.opened (hl hn)
    · rw [hr, hre]
      exact fun hn => h.unsettled (hl hn)
    · intro hn
      rw [hre]
      rcases hse hn with hsel | hso
      · exact h.settled hsel
      · exact h.ready_of_remote hso
  | refuse error reason hb hs hr hre hp =>
    have hh : self.shared.state = .handshaking := by
      rcases hb with hg | ⟨-, hh⟩
      · exact h.greeting hg
      · exact hh
    refine ⟨h.fail hr hre, ?_, ?_, ?_, ?_, ?_, ?_, hello hr⟩
    · rw [hs, hr]
      exact h.handshaking
    · rw [hs, hh]
      nofun
    all_goals
      rw [hp]
      nofun
  | accept hello remote hb hh hm hhe hs hr hre hp =>
    have hl : self.phase.looping = true := by rw [hb]; rfl
    have hno := h.unsettled hl (h.handshaking hh)
    rw [hno] at hre
    refine ⟨?_, ?_, ?_, ?_, ?_, ?_, ?_, fun _ => ⟨hello, hhe, hm⟩⟩
    · intro other
      rw [hr, hre]
      simp
    · rw [hs]
      nofun
    · rw [hr]
      exact fun _ => rfl
    · rw [hp]
      nofun
    · rw [hs]
      exact fun _ => nofun
    · rw [hr]
      exact fun _ => nofun
    · rw [hp]
      nofun
  | close reason hb hs hr hre hp =>
    refine ⟨?_, ?_, ?_, ?_, ?_, ?_, ?_, hello hr⟩
    · rw [hr, hre]
      exact h.remote
    · rw [hs]
      nofun
    · rw [hs]
      nofun
    all_goals
      rw [hp]
      nofun
  | settle error reason hb hs hr hre hp =>
    refine ⟨h.fail hr hre, ?_, ?_, ?_, ?_, ?_, ?_, hello hr⟩
    · rw [hs, hr]
      exact h.handshaking
    · rw [hs, hr]
      exact h.ready
    · rw [hp]
      nofun
    · rw [hp]
      nofun
    · rw [hp]
      nofun
    · intro
      rw [hre]
      cases self.shared.ready <;> rfl

/-! ### Before the hello -/

/-- Nothing that needs a peer has begun. -/
structure Early (session : Session H) : Prop where
  commands : ∀ command ∈ session.commands.sent, command.Early
  frames : ∀ frame ∈ session.writer.sent, frame.Early
  calls : ∀ (index : Nat) (call : Call), session.calls[index]? = some call → call.stage.Early
  tasks : session.tracking.tasks = ∅

theorem Early.keep (h : self.Early) (hc : next.commands.sent = self.commands.sent)
    (hw : next.writer.sent = self.writer.sent)
    (hca : Pointwise Call.SameStage self.calls next.calls)
    (ht : next.tracking.tasks = self.tracking.tasks) : next.Early where
  commands := hc ▸ h.commands
  frames := hw ▸ h.frames
  calls index call hcal := by
    obtain ⟨earlier, hea, hs⟩ := hca.related index call hcal
    rw [hs.eq]
    exact h.calls index earlier hea
  tasks := ht.trans h.tasks

theorem Early.same (h : self.Early) (hc : next.commands.sent = self.commands.sent)
    (hw : next.writer.sent = self.writer.sent) (hca : next.calls = self.calls)
    (ht : next.tracking.tasks = self.tracking.tasks) : next.Early :=
  h.keep hc hw (hca ▸ .refl Call.SameStage.refl _) ht

theorem Early.enqueue {frame : Frame} (h : self.Early) (hf : frame.Early) :
    (self.enqueue frame).Early where
  commands := h.commands
  frames other ho := by
    rcases List.mem_append.mp ho with ho | ho
    · exact h.frames other ho
    · rw [List.mem_singleton.mp ho]
      exact hf
  calls := h.calls
  tasks := h.tasks

theorem Early.command {command : Command} (h : self.Early) (hc : command.Early) :
    (self.command command).Early := by
  unfold Session.command
  split
  · refine ⟨?_, h.frames, h.calls, h.tasks⟩
    intro other ho
    rcases List.mem_append.mp ho with ho | ho
    · exact h.commands other ho
    · rw [List.mem_singleton.mp ho]
      exact hc
  · exact h

theorem Early.setStage (h : self.Early) (index : Nat) (stage : CallStage) (hs : stage.Early) :
    (self.setStage index stage).Early where
  commands := h.commands
  frames := h.frames
  calls position call hc := by
    rcases getElem?_modify_eq_some hc with ⟨-, earlier, -, rfl⟩ | ⟨-, hc⟩
    · exact hs
    · exact h.calls position call hc
  tasks := h.tasks

theorem Early.callMove {index : Nat} {call : Call} (h : self.Early)
    (hre : ∀ remote, self.shared.ready ≠ some (.ok remote))
    (hc : self.calls[index]? = some call) (hm : CallMove config self index call next) :
    next.Early := by
  have hst := h.calls index call hc
  have late {stage : CallStage} (heq : call.stage = stage) (hl : ¬stage.Early) : next.Early :=
    absurd (heq ▸ hst) hl
  cases hm with
  | silent stage hs =>
    cases hs with
    | refused error => exact h.setStage index (.done (.failed error)) trivial
    | dropped => exact h.setStage index .dropped trivial
    | resumed remote _ hr => exact absurd hr (hre remote)
    | checked _ heq => exact late heq id
    | fitted _ heq => exact late heq id
    | replied _ _ _ heq => exact late heq id
    | abandoned _ _ heq => exact late heq id
    | polled _ _ heq => exact late heq id
    | parked _ _ heq => exact late heq id
  | number heq => exact late heq id
  | request _ heq => exact late heq id
  | cancel _ heq => exact late heq id
  | timeout _ _ _ heq => exact late heq id
  | drop _ _ heq => exact late heq id

theorem Early.api {step : ApiStep H} (h : self.Early) (ha : self.Agreed config)
    (hn : self.shared.remote = none) (hs : self.apiStep config step = some next) :
    next.Early := by
  have hr (remote : RemotePeer) : self.shared.ready ≠ some (.ok remote) := by
    intro hr
    rw [(ha.remote remote).mpr hr] at hn
    cases hn
  have called {index : Nat} (hi : step.callIndex = some index) : next.Early := by
    obtain ⟨call, hc, move⟩ := apiStep_callMove hi hs
    exact h.callMove hr hc move
  cases step with
  | startCall method params options =>
    cases hs
    refine ⟨h.commands, h.frames, ?_, h.tasks⟩
    intro index call hc
    rcases getElem?_concat hc with hc | ⟨-, rfl⟩
    · exact h.calls index call hc
    · dsimp only
      split <;> trivial
  | emit event =>
    cases hs
    unfold emit
    split
    · exact h
    · rename_i hst
      have hso := ha.ready (not_not.mp hst)
      rw [hn] at hso
      cases hso
  | emitLocked event =>
    simp only [apiStep, hn] at hs
    cases hs
  | ping | closeNow =>
    cases hs
    exact h.command trivial
  | handle | dropGuard | events | pongs =>
    cases hs
    exact h.same rfl rfl rfl rfl
  | advanceCall | takeReply | abandonCall | pollCall | parkCall | cancelCall | timeoutCall
  | dropCall =>
    exact called rfl

theorem Agreed.not_ready (h : self.Agreed config) (hn : self.shared.remote = none) :
    self.shared.state ≠ .ready := by
  intro hst
  have hs := h.ready hst
  rw [hn] at hs
  cases hs

theorem Early.onRequest (h : self.Early) (hs : self.shared.state ≠ .ready) (request : Request)
    (call : HandlerCall) : (self.onRequest config request call).Early := by
  have hr : self.judgeRequest config request = .refuse notReadyRefusal := by
    unfold judgeRequest Shared.readyRemote
    rw [if_neg hs]
  unfold Session.onRequest
  rw [hr]
  have hq : (self.enqueue (errorFrame request.id notReadyRefusal)).Early :=
    h.enqueue (show notReadyRefusal.code = codes.unavailable from rfl)
  exact hq.same rfl rfl rfl rfl

theorem Early.onInbound (h : self.Early) (hs : self.shared.state ≠ .ready)
    (item : Option Inbound) (call : HandlerCall) : (self.onInbound config item call).Early := by
  have response (id : String) (result : Except RemoteError Value) :
      (self.onResponse id result).Early := by
    unfold onResponse
    split
    · exact h.keep rfl rfl (.modify Call.SameStage.refl _ _ fun _ _ => rfl) rfl
    · exact h
  rcases item with _ | ⟨frame | closure⟩
  · exact h.same rfl rfl rfl rfl
  · cases frame with
    | hello hello =>
      simp only [Session.onInbound, onFrame, onHello]
      split
      · exact h.same rfl rfl rfl rfl
      · split
        · exact h.same rfl rfl rfl rfl
        · exact h.same rfl rfl rfl rfl
    | req request => exact h.onRequest hs request call
    | res response' => exact response _ _
    | err error => exact response _ _
    | cancel cancel =>
      simp only [Session.onInbound, onFrame, onCancel]
      split
      · exact h.same rfl rfl rfl rfl
      · exact h
    | ping => exact h.enqueue trivial
    | close | evt | pong => exact h.same rfl rfl rfl rfl
  · exact h.same rfl rfl rfl rfl

theorem Early.onCommand {command : Command} (h : self.Early) (hc : command.Early) :
    (self.onCommand command).Early := by
  cases command with
  | close => exact h.same rfl rfl rfl rfl
  | request | cancel => cases hc
  | send frame =>
    cases frame with
    | ping => exact h.enqueue trivial
    | _ => cases hc

theorem Early.advanceTeardown {reason : Teardown} {stage : TeardownStage} (h : self.Early)
    (hn : self.advanceTeardown reason stage = some next) : next.Early := by
  cases advanceTeardown_move hn with
  | failing calls hc => exact h.keep rfl rfl (hc.mono fun _ _ hca => hca.sameStage) rfl
  | _ => exact h.same rfl rfl rfl rfl

theorem Early.step {label : Label H} (h : self.Early) (ha : self.Agreed config)
    (hn : self.shared.remote = none) (hst : self.step config label = some next) :
    next.Early := by
  have hs := ha.not_ready hn
  have idle {task : TaskId} {invocation : Invocation H}
      (ht : self.tracking.tasks.lookup task = some invocation) : next.Early := by
    rw [h.tasks] at ht
    cases ht
  cases step_move hst with
  | api step => exact h.api ha hn hst
  | arrive item => exact h.same rfl rfl rfl rfl
  | transmit outcome frame writer sendFailure hr =>
    exact h.same rfl (Channel.recv_sent hr) rfl rfl
  | driver step next move =>
    cases move with
    | greet outcome =>
      unfold greet
      dsimp only
      split <;> exact h.same rfl rfl rfl rfl
    | livenessTick _ hre => exact absurd hre hs
    | settled task settled invocation _ ht => exact idle ht
    | command command commands _ hr =>
      have hc := h.commands command (Channel.mem_sent_of_recv hr)
      have hta : Early { self with commands } :=
        h.same (Channel.recv_sent hr) rfl rfl rfl
      exact hta.onCommand hc
    | inbound call item inbound =>
      have hta : Early { self with inbound } := h.same rfl rfl rfl rfl
      exact hta.onInbound hs item call
    | teardown reason stage _ _ hne => exact h.advanceTeardown hne
    | drain task settled invocation _ _ ht => exact idle ht
    | sendFailed | handshakeTimeout | finish => exact h.same rfl rfl rfl rfl

theorem unheard_step {label : Label H} (h : ∀ events ∈ self.shared.eventSubscribers, events = [])
    (hst : self.shared.state ≠ .ready) (hste : self.step config label = some next) :
    ∀ events ∈ next.shared.eventSubscribers, events = [] := by
  cases step_hears hste with
  | nothing _ hs => grind
  | item item _ hs =>
    rw [hs]
    exact h
  | event event hr => exact absurd hr hst

end Session

end MangoProtocol
