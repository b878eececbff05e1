import MangoProtocol.Session.Effects

/-! The handshake in a step: how the state of a session, the record of its peer and the value of
`ready` move, and what each of them says about the others. -/

namespace MangoProtocol

open ProofKit

variable {H : Type} {config : Config}

/-- The phases up to the end of the main loop. -/
def Phase.looping : Phase → Bool
  | .greeting | .running => true
  | _ => false

/-- The phases in which `ready` is settled. -/
def Phase.settled : Phase → Bool
  | .closing _ .failing | .closing _ .draining | .finished _ | .crashed => true
  | _ => false

/-- The phases that a branch of the main loop leaves the driver in, unless it panics. -/
inductive Phase.Branched : Phase → Prop
  | running : Branched .running
  | closing (reason : Teardown) : Branched (.closing reason .marking)

variable {phase : Phase}

theorem Phase.Branched.settled (h : phase.Branched) : phase.settled = false := by
  cases h <;> rfl

theorem Phase.Branched.ne_greeting (h : phase.Branched) : phase ≠ .greeting := by
  cases h <;> nofun

def Hello.matching (config : Config) (hello : Hello) : Prop :=
  hello.protocol.major = config.localProtocol.major

namespace Session

variable {self next : Session H}

/-- The handshake, the receive half and what subscribers were given stay as they were. -/
structure Steady (before after : Session H) : Prop where
  state : after.shared.state = before.shared.state
  remote : after.shared.remote = before.shared.remote
  ready : after.shared.ready = before.shared.ready
  subscribers : after.shared.eventSubscribers = before.shared.eventSubscribers
  inbound : after.inbound = before.inbound

/-! ### Branches that leave the handshake alone -/

theorem onLivenessTick_steady : Steady self self.onLivenessTick := by
  unfold onLivenessTick
  split <;> exact ⟨rfl, rfl, rfl, rfl, rfl⟩

theorem respondResult_steady (method id : String) (value : Value) :
    Steady self (self.respondResult config method id value) := by
  unfold respondResult
  dsimp only
  split <;> exact ⟨rfl, rfl, rfl, rfl, rfl⟩

theorem onHandlerSettled_steady (self : Session H) (task : TaskId) (settled : Settled) :
    Steady self (self.onHandlerSettled config task settled) := by
  unfold onHandlerSettled
  dsimp only
  split
  · exact ⟨rfl, rfl, rfl, rfl, rfl⟩
  · split
    · exact ⟨rfl, rfl, rfl, rfl, rfl⟩
    · split
      · obtain ⟨hst, hr, hre, hs, hi⟩ := respondResult_steady _ _ _
        exact ⟨hst, hr, hre, hs, hi⟩
      · exact ⟨rfl, rfl, rfl, rfl, rfl⟩

theorem onCommand_steady (self : Session H) (command : Command) :
    Steady self (self.onCommand command) := by
  cases command with
  | close => exact ⟨rfl, rfl, rfl, rfl, rfl⟩
  | request frame reply => cases frame <;> exact ⟨rfl, rfl, rfl, rfl, rfl⟩
  | cancel id forget => cases forget <;> exact ⟨rfl, rfl, rfl, rfl, rfl⟩
  | send frame => exact ⟨rfl, rfl, rfl, rfl, rfl⟩

theorem onRequest_steady (request : Request) (call : HandlerCall) :
    Steady self (self.onRequest config request call) := by
  unfold onRequest
  split
  · exact ⟨rfl, rfl, rfl, rfl, rfl⟩
  · cases call <;> exact ⟨rfl, rfl, rfl, rfl, rfl⟩

theorem onResponse_steady (id : String) (result : Except RemoteError Value) :
    Steady self (self.onResponse id result) := by
  unfold onResponse
  split <;> exact ⟨rfl, rfl, rfl, rfl, rfl⟩

theorem onCancel_steady (id : String) : Steady self (self.onCancel id) := by
  unfold onCancel
  split <;> exact ⟨rfl, rfl, rfl, rfl, rfl⟩

variable {item : Option Inbound} {inbound : Channel (Option Inbound)} {label : Label H}
  {stage : TeardownStage} {reason : Teardown}

theorem onInbound_steady (self : Session H) (call : HandlerCall)
    (hh : ∀ hello, item ≠ some (.frame (.hello hello)))
    (hev : ∀ event, item ≠ some (.frame (.evt event))) :
    Steady self (self.onInbound config item call) := by
  rcases item with _ | ⟨frame | closure⟩
  · exact ⟨rfl, rfl, rfl, rfl, rfl⟩
  · cases frame with
    | hello | evt => simp at hh hev
    | req request => exact onRequest_steady request call
    | res | err => exact onResponse_steady _ _
    | cancel cancel => exact onCancel_steady cancel.id
    | close | ping | pong => exact ⟨rfl, rfl, rfl, rfl, rfl⟩
  · exact ⟨rfl, rfl, rfl, rfl, rfl⟩

theorem fanOutEvent_control (shared : Shared H) (event : Event) :
    (shared.fanOutEvent event).state = shared.state ∧
      (shared.fanOutEvent event).remote = shared.remote ∧
      (shared.fanOutEvent event).ready = shared.ready := by
  unfold Shared.fanOutEvent
  split <;> exact ⟨rfl, rfl, rfl⟩

theorem settleReady_ready (shared : Shared H) (outcome : Except RemoteError RemotePeer) :
    (shared.settleReady outcome).ready = shared.ready.or (some outcome) := by
  unfold Shared.settleReady
  cases h : shared.ready with
  | none => rfl
  | some settled => exact h

theorem settleReady_control (shared : Shared H) (outcome : Except RemoteError RemotePeer) :
    (shared.settleReady outcome).state = shared.state ∧
      (shared.settleReady outcome).remote = shared.remote := by
  unfold Shared.settleReady
  split <;> exact ⟨rfl, rfl⟩

/-! ### All steps -/

/-- How a step moves the handshake. -/
inductive ControlMove (config : Config) (session next : Session H) : Prop
  | same (hstate : next.shared.state = session.shared.state)
    (hremote : next.shared.remote = session.shared.remote)
    (hready : next.shared.ready = session.shared.ready)
    (hgreeting : next.phase = .greeting → session.phase = .greeting)
    (hlooping : next.phase.looping = true → session.phase.looping = true)
    (hsettled : next.phase.settled = true →
      session.phase.settled = true ∨ session.shared.remote.isSome)
  | refuse (error : RemoteError) (reason : Teardown)
    (hbefore : session.phase = .greeting ∨
      session.phase = .running ∧ session.shared.state = .handshaking)
    (hstate : next.shared.state = session.shared.state)
    (hremote : next.shared.remote = session.shared.remote)
    (hready : next.shared.ready = session.shared.ready.or (some (.error error)))
    (hphase : next.phase = .closing reason .marking)
  | accept (hello : Hello) (remote : RemotePeer) (hbefore : session.phase = .running)
    (hhandshaking : session.shared.state = .handshaking) (hmatching : hello.matching config)
    (hreceived : some (.frame (.hello hello)) ∈ next.inbound.received)
    (hstate : next.shared.state = .ready) (hremote : next.shared.remote = some remote)
    (hready : next.shared.ready = session.shared.ready.or (some (.ok remote)))
    (hphase : next.phase = .running)
  | close (reason : Teardown) (hbefore : session.phase = .closing reason .marking)
    (hstate : next.shared.state = .closed)
    (hremote : next.shared.remote = session.shared.remote)
    (hready : next.shared.ready = session.shared.ready)
    (hphase : next.phase = .closing reason .flushing)
  | settle (error : RemoteError) (reason : Teardown)
    (hbefore : session.phase = .closing reason .settling)
    (hstate : next.shared.state = session.shared.state)
    (hremote : next.shared.remote = session.shared.remote)
    (hready : next.shared.ready = session.shared.ready.or (some (.error error)))
    (hphase : next.phase = .closing reason .failing)

theorem Steady.control (h : Steady self next) (hp : self.phase = .running)
    (hn : next.phase.Branched) : ControlMove config self next := by
  refine .same h.state h.remote h.ready (fun hg => absurd hg hn.ne_greeting)
    (fun _ => by rw [hp]; rfl) fun hs => ?_
  rw [hn.settled] at hs
  cases hs

theorem greet_control (outcome : SendOutcome) (hp : self.phase = .greeting) :
    ControlMove config self (self.greet config outcome) := by
  unfold greet
  dsimp only
  split
  · exact .refuse _ _ (.inl hp) (settleReady_control _ _).1 (settleReady_control _ _).2
      (settleReady_ready _ _) rfl
  · exact .same rfl rfl rfl (fun _ => hp) (fun _ => by rw [hp]; rfl) nofun

theorem onHello_control {hello : Hello} (hp : self.phase = .running)
    (hre : some (.frame (.hello hello)) ∈ self.inbound.received) :
    ControlMove config self (self.onHello config hello) := by
  have hc := settleReady_control (H := H)
  have hr := settleReady_ready (H := H)
  simp only [onHello]
  split
  · exact .same rfl rfl rfl nofun (fun _ => by rw [hp]; rfl) nofun
  · split
    · exact .refuse _ _ (.inr ⟨hp, by simp_all⟩) (hc _ _).1 (hc _ _).2 (hr _ _) rfl
    · refine .accept hello _ hp (by simp_all) ?_ hre (hc _ _).1 (hc _ _).2 (hr _ _) hp
      grind [negotiate, Hello.matching]

theorem greet_branched (self : Session H) (outcome : SendOutcome) :
    (self.greet config outcome).phase.Branched := by
  unfold greet
  dsimp only
  split
  · exact .closing _
  · exact .running

theorem onLivenessTick_branched (hp : self.phase = .running) :
    self.onLivenessTick.phase.Branched := by
  unfold onLivenessTick
  split
  · exact .closing _
  · exact hp ▸ .running

theorem onHandlerSettled_phase (self : Session H) (task : TaskId) (settled : Settled) :
    (self.onHandlerSettled config task settled).phase = self.phase := by
  unfold onHandlerSettled respondResult
  dsimp only
  split
  · rfl
  · split
    · rfl
    · split
      · split <;> rfl
      · rfl

theorem onCommand_branched (self : Session H) (command : Command) (hp : self.phase = .running) :
    (self.onCommand command).phase.Branched := by
  cases command with
  | close => exact .closing _
  | request frame reply => cases frame <;> exact hp ▸ .running
  | cancel id forget => cases forget <;> exact hp ▸ .running
  | send frame => exact hp ▸ .running

theorem onInbound_branched (self : Session H) (item : Option Inbound) (call : HandlerCall)
    (hp : self.phase = .running) :
    (self.onInbound config item call).phase.Branched ∨
      (self.onInbound config item call).phase = .crashed ∧ self.shared.remote.isSome := by
  have running {session : Session H} (hs : session.phase = self.phase) :
      session.phase.Branched := by
    rw [hs, hp]
    exact .running
  rcases item with _ | ⟨frame | closure⟩
  · exact .inl (.closing _)
  · cases frame with
    | close => exact .inl (.closing _)
    | evt | ping | pong => exact .inl (running rfl)
    | req request =>
      simp only [onInbound, onFrame, onRequest]
      split
      · exact .inl (running rfl)
      · cases call with
        | future => exact .inl (running rfl)
        | panic => exact .inr ⟨rfl, by grind [judgeRequest, Shared.readyRemote]⟩
    | _ =>
      left
      simp only [onInbound, onFrame, onHello, onResponse, onCancel]
      repeat' split
      all_goals first | exact running rfl | exact .closing _
  · exact .inl (.closing _)

theorem onInbound_control (self : Session H) (call : HandlerCall) (hp : self.phase = .running)
    (hrec : item ∈ self.inbound.received) :
    ControlMove config self (self.onInbound config item call) := by
  have kept (hs : (self.onInbound config item call).shared.state = self.shared.state)
      (hr : (self.onInbound config item call).shared.remote = self.shared.remote)
      (hre : (self.onInbound config item call).shared.ready = self.shared.ready) :
      ControlMove config self (self.onInbound config item call) := by
    rcases onInbound_branched self item call hp with hn | ⟨hc, hso⟩
    · refine .same hs hr hre (fun hg => absurd hg hn.ne_greeting)
        (fun _ => by rw [hp]; rfl) fun hse => ?_
      rw [hn.settled] at hse
      cases hse
    · refine .same hs hr hre ?_ ?_ fun _ => .inr hso
      · rw [hc]
        nofun
      · rw [hc]
        nofun
  by_cases hh : ∃ hello, item = some (.frame (.hello hello))
  · obtain ⟨hello, rfl⟩ := hh
    exact onHello_control hp hrec
  · by_cases hev : ∃ event, item = some (.frame (.evt event))
    · obtain ⟨event, rfl⟩ := hev
      obtain ⟨hs, hr, hre⟩ := fanOutEvent_control self.shared event
      exact kept hs hr hre
    · obtain ⟨hs, hr, hre, -, -⟩ := onInbound_steady self call
        (fun hello h => hh ⟨hello, h⟩) fun event h => hev ⟨event, h⟩
      exact kept hs hr hre

theorem ControlMove.of_received (h : ControlMove config { self with inbound } next) :
    ControlMove config self next := by
  cases h <;> grind [ControlMove]

theorem advanceTeardown_control (hp : self.phase = .closing reason stage)
    (h : self.advanceTeardown reason stage = some next) : ControlMove config self next := by
  cases advanceTeardown_move h with
  | marking => exact .close reason hp rfl rfl rfl rfl
  | flushing => exact .same rfl rfl rfl nofun nofun nofun
  | settling =>
    exact .settle _ reason hp (settleReady_control _ _).1 (settleReady_control _ _).2
      (settleReady_ready _ _) rfl
  | failing => exact .same rfl rfl rfl nofun nofun fun _ => .inl (by rw [hp]; rfl)

theorem step_control (h : self.step config label = some next) : ControlMove config self next := by
  cases step_move h with
  | api _ _ move =>
    cases move with
    | post shared commands hsh =>
      exact .same hsh.state hsh.remote hsh.ready id id .inl
    | start | follow | number | request => exact .same rfl rfl rfl id id .inl
  | arrive | transmit => exact .same rfl rfl rfl id id .inl
  | driver _ _ move =>
    cases move with
    | greet outcome hp => exact greet_control outcome hp
    | sendFailed _ hp =>
      exact .same rfl rfl rfl nofun (fun _ => by rw [hp]; rfl) nofun
    | handshakeTimeout hp hs =>
      exact .refuse _ _ (.inr ⟨hp, hs⟩) (settleReady_control _ _).1
        (settleReady_control _ _).2 (settleReady_ready _ _) rfl
    | livenessTick hp =>
      exact onLivenessTick_steady.control hp (onLivenessTick_branched hp)
    | settled task settled invocation hp =>
      obtain ⟨hs, hr, hre, hsu, hi⟩ :=
        onHandlerSettled_steady (self.joined task invocation settled) task settled
      refine Steady.control ⟨hs, hr, hre, hsu, hi⟩ hp ?_
      rw [onHandlerSettled_phase]
      exact hp ▸ .running
    | command command commands hp =>
      obtain ⟨hs, hr, hre, hsu, hi⟩ :=
        onCommand_steady { self with commands } command
      exact Steady.control ⟨hs, hr, hre, hsu, hi⟩ hp
        (onCommand_branched { self with commands } command hp)
    | inbound call item inbound hp _ hrecv =>
      have hrec : item ∈ inbound.received := by
        rw [Channel.recv_received hrecv]
        exact List.mem_append_right _ (List.mem_singleton_self _)
      exact (onInbound_control { self with inbound } call hp hrec).of_received
    | teardown reason stage _ hp hn => exact advanceTeardown_control hp hn
    | drain => exact .same rfl rfl rfl id id .inl
    | finish reason hp =>
      exact .same rfl rfl rfl nofun nofun fun _ => .inl (by rw [hp]; rfl)

/-! ### What is received, and what subscribers hear -/

/-- What a step takes from the receive half and what it tells the subscribers. -/
inductive Hears (before after : Session H) : Prop
  | nothing (hreceived : after.inbound.received = before.inbound.received)
    (hsubscribers : after.shared.eventSubscribers = before.shared.eventSubscribers ∨
      after.shared.eventSubscribers = before.shared.eventSubscribers ++ [[]] ∨
      after.shared.eventSubscribers = [])
  | item (item : Option Inbound)
    (hreceived : after.inbound.received = before.inbound.received ++ [item])
    (hsubscribers : after.shared.eventSubscribers = before.shared.eventSubscribers)
  | event (event : Event) (hready : before.shared.state = .ready)
    (hreceived : after.inbound.received =
      before.inbound.received ++ [some (.frame (.evt event))])
    (hsubscribers : after.shared.eventSubscribers =
      before.shared.eventSubscribers.map (· ++ [event]))

theorem Steady.hears (h : Steady self next) : Hears self next :=
  .nothing (by rw [h.inbound]) (.inl h.subscribers)

theorem settleReady_subscribers (shared : Shared H) (outcome : Except RemoteError RemotePeer) :
    (shared.settleReady outcome).eventSubscribers = shared.eventSubscribers := by
  unfold Shared.settleReady
  split <;> rfl

theorem onHello_subscribers (self : Session H) (hello : Hello) :
    (self.onHello config hello).shared.eventSubscribers = self.shared.eventSubscribers ∧
      (self.onHello config hello).inbound = self.inbound := by
  unfold onHello
  split
  · exact ⟨rfl, rfl⟩
  · split
    · exact ⟨settleReady_subscribers _ _, rfl⟩
    · exact ⟨settleReady_subscribers _ _, rfl⟩

theorem onInbound_inbound (self : Session H) (item : Option Inbound) (call : HandlerCall) :
    (self.onInbound config item call).inbound = self.inbound := by
  by_cases hh : ∃ hello, item = some (.frame (.hello hello))
  · obtain ⟨hello, rfl⟩ := hh
    exact (onHello_subscribers self hello).2
  · by_cases hev : ∃ event, item = some (.frame (.evt event))
    · obtain ⟨event, rfl⟩ := hev
      rfl
    · exact (onInbound_steady self call (fun hello h => hh ⟨hello, h⟩)
        fun event h => hev ⟨event, h⟩).inbound

theorem onInbound_hears (call : HandlerCall) (hrec : self.inbound.recv = some (item, inbound)) :
    Hears self ({ self with inbound }.onInbound config item call) := by
  have hr : ({ self with inbound }.onInbound config item call).inbound.received =
      self.inbound.received ++ [item] := by
    rw [onInbound_inbound, Channel.recv_received hrec]
  by_cases hh : ∃ hello, item = some (.frame (.hello hello))
  · obtain ⟨hello, rfl⟩ := hh
    exact .item _ hr (onHello_subscribers { self with inbound } hello).1
  · by_cases hev : ∃ event, item = some (.frame (.evt event))
    · obtain ⟨event, rfl⟩ := hev
      by_cases hre : self.shared.state = .ready
      · exact .event event hre hr (by simp [onInbound, onFrame, Shared.fanOutEvent, hre])
      · exact .item _ hr (by simp [onInbound, onFrame, Shared.fanOutEvent, hre])
    · exact .item item hr (onInbound_steady { self with inbound } call
        (fun hello h => hh ⟨hello, h⟩) fun event h => hev ⟨event, h⟩).subscribers

theorem step_hears (h : self.step config label = some next) : Hears self next := by
  cases step_move h with
  | api _ _ move =>
    cases move with
    | post shared commands hsh => exact .nothing rfl (hsh.subscribers.imp_right .inl)
    | _ => exact .nothing rfl (.inl rfl)
  | arrive item => exact .nothing (Channel.received_send _ _) (.inl rfl)
  | transmit => exact .nothing rfl (.inl rfl)
  | driver _ _ move =>
    cases move with
    | greet outcome =>
      simp only [greet]
      split
      · exact .nothing rfl (.inl (settleReady_subscribers _ _))
      · exact .nothing rfl (.inl rfl)
    | handshakeTimeout => exact .nothing rfl (.inl (settleReady_subscribers _ _))
    | livenessTick => exact onLivenessTick_steady.hears
    | settled task settled invocation =>
      obtain ⟨-, -, -, hs, hi⟩ :=
        onHandlerSettled_steady (self.joined task invocation settled) task settled
      exact .nothing (congrArg Channel.received hi) (.inl hs)
    | command command commands =>
      obtain ⟨-, -, -, hs, hi⟩ := onCommand_steady { self with commands } command
      exact .nothing (congrArg Channel.received hi) (.inl hs)
    | inbound call item inbound _ _ hr => exact onInbound_hears call hr
    | teardown reason stage _ _ hn =>
      cases advanceTeardown_move hn with
      | marking | flushing => exact .nothing rfl (.inl rfl)
      | settling => exact .nothing rfl (.inl (settleReady_subscribers _ _))
      | failing => exact .nothing rfl (.inr (.inr rfl))
    | sendFailed | drain | finish => exact .nothing rfl (.inl rfl)

theorem greet_inbound (self : Session H) (outcome : SendOutcome) :
    (self.greet config outcome).inbound = self.inbound := by
  unfold greet
  dsimp only
  split <;> rfl

theorem advanceTeardown_inbound (h : self.advanceTeardown reason stage = some next) :
    next.inbound = self.inbound := by
  cases advanceTeardown_move h <;> rfl

theorem step_took (hs : self.step config label = some next)
    (hb : item ∉ self.inbound.received) (ha : item ∈ next.inbound.received) :
    ∃ call inbound, self.phase = .running ∧ self.inbound.recv = some (item, inbound) ∧
      next = { self with inbound }.onInbound config item call := by
  have same (hi : next.inbound.received = self.inbound.received) :
      ∃ call inbound, self.phase = .running ∧ self.inbound.recv = some (item, inbound) ∧
        next = { self with inbound }.onInbound config item call :=
    absurd (hi ▸ ha) hb
  cases step_move hs with
  | api _ _ move => cases move <;> exact same rfl
  | arrive => exact same (Channel.received_send _ _)
  | transmit => exact same rfl
  | driver _ _ move =>
    cases move with
    | greet outcome => exact same (congrArg Channel.received (greet_inbound self outcome))
    | livenessTick => exact same (congrArg Channel.received onLivenessTick_steady.inbound)
    | settled task settled invocation =>
      exact same (congrArg Channel.received
        (onHandlerSettled_steady (self.joined task invocation settled) task settled).inbound)
    | command command commands =>
      exact same (congrArg Channel.received
        (onCommand_steady { self with commands } command).inbound)
    | inbound call taken inbound hp _ hr =>
      rw [onInbound_inbound, Channel.recv_received hr] at ha
      rcases List.mem_append.mp ha with hold | hne
      · exact absurd hold hb
      · cases List.mem_singleton.mp hne
        exact ⟨call, inbound, hp, hr, rfl⟩
    | teardown reason stage _ _ hn =>
      exact same (congrArg Channel.received (advanceTeardown_inbound hn))
    | handshakeTimeout | sendFailed | drain | finish => exact same rfl

theorem step_received (h : self.step config label = some next) :
    ∃ items, next.inbound.received = self.inbound.received ++ items := by
  cases step_hears h with
  | nothing hr => exact ⟨[], by rw [hr, List.append_nil]⟩
  | item item hr => exact ⟨[item], hr⟩
  | event event _ hr => exact ⟨_, hr⟩

end Session

end MangoProtocol
