import MangoProtocol.Session.Handshake

/-! Handshake safety in every run of a session, whatever the peer sends and the application calls.
-/

namespace MangoProtocol

open ProofKit

variable {H : Type} {config : Config}

/-- The event that a received item carries. -/
def eventOf (item : Option Inbound) : Option Event := (frameOf item).bind Frame.event

/-- The ways in which a state gives way to another. -/
inductive SessionState.Moves : SessionState → SessionState → Prop
  | greeted : Moves .handshaking .ready
  | closed : Moves .ready .closed
  | aborted : Moves .handshaking .closed

theorem Command.Legal.frame {command : Command} {hello : Hello} (h : command.Legal) :
    command.frame ≠ some (.hello hello) := by
  cases command with
  | close | cancel => nofun
  | request frame =>
    obtain ⟨request, rfl⟩ := h
    nofun
  | send frame =>
    rintro ⟨⟩
    cases h

namespace Session

variable {self next final : Session H}

/-! ### The invariant -/

/-- No hello of the same major has been taken from the receive half. -/
def Ungreeted (config : Config) (session : Session H) : Prop :=
  ∀ hello, some (.frame (.hello hello)) ∈ session.inbound.received → ¬hello.matching config

structure Greeted (config : Config) (session : Session H) : Prop where
  agreed : session.Agreed config
  early : session.shared.remote = none → session.Early
  unheard : session.shared.remote = none →
    ∀ events ∈ session.shared.eventSubscribers, events = []

theorem Greeted.remote (h : self.Greeted config) (hu : self.Ungreeted config) :
    self.shared.remote = none := by
  refine Option.not_isSome_iff_eq_none.mp fun hs => ?_
  obtain ⟨hello, hr, hm⟩ := h.agreed.hello hs
  exact hu hello hr hm

theorem ControlMove.remote_none (h : ControlMove config self next)
    (hn : next.shared.remote = none) : self.shared.remote = none := by
  cases h with
  | same _ hr => exact hr ▸ hn
  | refuse _ _ _ _ hr => exact hr ▸ hn
  | accept _ _ _ _ _ _ _ hr =>
    rw [hr] at hn
    cases hn
  | close _ _ _ hr => exact hr ▸ hn
  | settle _ _ _ _ hr => exact hr ▸ hn

variable {labels : List (Label H)} {label : Label H} {handlers : List (String × H)}

theorem Greeted.step (h : self.Greeted config) (hst : self.step config label = some next) :
    next.Greeted config := by
  have hm := step_control hst
  obtain ⟨items, hr⟩ := step_received hst
  refine ⟨h.agreed.step hm fun item hi => ?_, fun hn => ?_, fun hn => ?_⟩
  · rw [hr]
    exact List.mem_append_left _ hi
  · have hs := hm.remote_none hn
    exact (h.early hs).step h.agreed hs hst
  · have hs := hm.remote_none hn
    exact unheard_step (h.unheard hs) (h.agreed.not_ready hs) hst

theorem initial_greeted (handlers : List (String × H)) : (initial handlers).Greeted config := by
  obtain ⟨registry, generation, heq⟩ := Shared.initial_eq handlers
  have hs : (initial handlers).shared =
      ⟨.handshaking, none, none, none, 0, 0, registry, generation, ∅, [], []⟩ := heq
  refine ⟨⟨?_, ?_, ?_, ?_, ?_, ?_, nofun, ?_⟩, fun _ => ⟨?_, ?_, fun _ _ => nofun, rfl⟩,
    fun _ => ?_⟩
  all_goals try rw [hs]
  · exact fun _ => ⟨nofun, nofun⟩
  · exact fun _ => rfl
  · nofun
  · exact fun _ => rfl
  · exact fun _ => nofun
  · exact fun _ _ => rfl
  · nofun
  · exact fun _ hc => absurd hc List.not_mem_nil
  · exact fun _ hf => absurd hf List.not_mem_nil
  · exact fun _ hev => absurd hev List.not_mem_nil

theorem run_greeted
    (hr : Machine.run (Session.step config) (initial handlers) labels = some final) :
    final.Greeted config :=
  Machine.run_invariant (Greeted config) (fun _ _ _ h hs => h.step hs)
    (initial_greeted handlers) hr

/-! ### What the port is given -/

/-- The frame that a step gives to the port. -/
def gives (config : Config) (self : Session H) : Label H → Option Frame
  | .port (.transmit _) => self.writer.waiting.head?
  | .driver (.greet _) =>
    match self.shared.assertFits config (.hello (buildHello config)) "The hello" with
    | .ok () => some (.hello (buildHello config))
    | .error _ => none
  | _ => none

/-- Commands and the writer hold no hello. -/
structure Plain (session : Session H) : Prop where
  commands : ∀ command ∈ session.commands.sent, command.Legal
  frames : ∀ hello, .hello hello ∉ session.writer.sent

theorem Plain.step (h : self.Plain) (hs : self.step config label = some next) : next.Plain := by
  refine ⟨(step_caller h.commands hs).legal h.commands, fun hello hm => ?_⟩
  obtain ⟨frames, hsen, hf⟩ := step_sent hs
  rw [hsen] at hm
  rcases List.mem_append.mp hm with hm | hm
  · exact h.frames hello hm
  · rcases hf _ hm with hse | ⟨command, hc, hfr⟩
    · exact hse
    · exact (h.commands command hc).frame hfr

theorem gives_mem {frame : Frame} (hp : self.phase ≠ .greeting)
    (hs : self.step config label = some next) (h : self.gives config label = some frame) :
    frame ∈ self.writer.sent := by
  cases step_move hs with
  | api | arrive => cases h
  | transmit =>
    exact Channel.waiting_subset_sent frame (List.mem_of_head? h)
  | driver step _ move =>
    cases move with
    | greet _ hg => exact absurd hg hp
    | _ => cases h

theorem step_ne_greeting (hp : self.phase ≠ .greeting)
    (hs : self.step config label = some next) : next.phase ≠ .greeting := by
  intro hn
  cases step_control hs with
  | same _ _ _ hg => exact hp (hg hn)
  | refuse _ _ _ _ _ _ hc => cases hc.symm.trans hn
  | accept _ _ _ _ _ _ _ _ _ hr => cases hr.symm.trans hn
  | close _ _ _ _ _ hc => cases hc.symm.trans hn
  | settle _ _ _ _ _ _ hc => cases hc.symm.trans hn

theorem outputs_plain (h : self.Plain) (hph : self.phase ≠ .greeting) (hello : Hello) :
    .hello hello ∉ Machine.outputs (Session.step config) (gives config) self labels := by
  intro hm
  refine Machine.mem_outputs (fun session => session.Plain ∧ session.phase ≠ .greeting)
    (fun frame => frame ≠ .hello hello) ?_ ?_ ⟨h, hph⟩ _ hm rfl
  · rintro session label next ⟨hp, hse⟩ hs
    exact ⟨hp.step hs, step_ne_greeting hse hs⟩
  · rintro session label next ⟨hp, hse⟩ hs frame hf rfl
    exact hp.frames hello (gives_mem hse hs hf)

/-- The main loop is over and the writer has nothing left. -/
structure Spent (session : Session H) : Prop where
  phase : session.phase.looping = false
  writer : session.writer.waiting = []

theorem Spent.step (h : self.Spent) (hst : self.step config label = some next) :
    next.Spent ∧ self.gives config label = none := by
  have ended {phase : Phase} (hp : self.phase = phase) (hl : phase.looping = true) :
      next.Spent ∧ self.gives config label = none := by
    have hs := h.phase
    rw [hp, hl] at hs
    cases hs
  cases step_move hst with
  | api _ _ move =>
    cases move with
    | post | start | follow | number | request => exact ⟨⟨h.phase, h.writer⟩, rfl⟩
  | arrive => exact ⟨⟨h.phase, h.writer⟩, rfl⟩
  | transmit _ _ _ _ hr =>
    have hw := Channel.recv_waiting hr
    rw [h.writer] at hw
    cases hw
  | driver step _ move =>
    cases move with
    | greet _ hp => exact ended hp rfl
    | sendFailed _ hp => exact ended hp rfl
    | handshakeTimeout hp => exact ended hp rfl
    | livenessTick hp => exact ended hp rfl
    | settled _ _ _ hp => exact ended hp rfl
    | command _ _ hp => exact ended hp rfl
    | inbound _ _ _ hp => exact ended hp rfl
    | teardown reason stage _ hp hn =>
      refine ⟨⟨?_, ?_⟩, rfl⟩
      · rcases advanceTeardown_ending hn with ⟨_, hc⟩ | ⟨_, hf⟩
        · rw [hc]
          rfl
        · rw [hf]
          rfl
      · rw [(advanceTeardown_writes hn).2.1]
        exact h.writer
    | drain => exact ⟨⟨h.phase, h.writer⟩, rfl⟩
    | finish => exact ⟨⟨rfl, h.writer⟩, rfl⟩

theorem outputs_spent (h : self.Spent) :
    Machine.outputs (Session.step config) (gives config) self labels = [] := by
  refine List.eq_nil_iff_forall_not_mem.mpr fun frame hf => ?_
  refine Machine.mem_outputs Spent (fun _ => False)
    (fun _ _ _ hs hst => (hs.step hst).1) ?_ h frame hf
  intro session label next hs hst frame hf
  rw [(hs.step hst).2] at hf
  cases hf

theorem greeting_step (hp : self.phase = .greeting) (hw : self.writer.sent = [])
    (hs : self.step config label = some next) :
    (next.phase = .greeting ∧ next.writer.sent = [] ∧ self.gives config label = none) ∨
      ∃ outcome, label = .driver (.greet outcome) ∧ next = self.greet config outcome := by
  cases step_move hs with
  | api _ _ move =>
    cases move with
    | post | start | follow | number | request => exact .inl ⟨hp, hw, rfl⟩
  | arrive => exact .inl ⟨hp, hw, rfl⟩
  | transmit _ _ _ _ hre =>
    have hm := Channel.mem_sent_of_recv hre
    rw [hw] at hm
    cases hm
  | driver step _ move =>
    cases move with
    | greet outcome => exact .inr ⟨outcome, rfl, rfl⟩
    | sendFailed _ hr => cases hp.symm.trans hr
    | handshakeTimeout hr => cases hp.symm.trans hr
    | livenessTick hr => cases hp.symm.trans hr
    | settled _ _ _ hr => cases hp.symm.trans hr
    | command _ _ hr => cases hp.symm.trans hr
    | inbound _ _ _ hr => cases hp.symm.trans hr
    | teardown _ _ _ hc => cases hp.symm.trans hc
    | drain _ _ _ _ hc => cases hp.symm.trans hc
    | finish _ hc => cases hp.symm.trans hc

theorem outputs_hello (hp : self.Plain) (hph : self.phase = .greeting)
    (hw : self.writer.sent = []) :
    Machine.outputs (Session.step config) (gives config) self labels = [] ∨
      ∃ rest, Machine.outputs (Session.step config) (gives config) self labels =
        .hello (buildHello config) :: rest ∧ ∀ hello, .hello hello ∉ rest := by
  induction labels generalizing self with
  | nil => exact .inl rfl
  | cons label labels ih =>
    cases hs : self.step config label with
    | none =>
      left
      simp only [Machine.outputs, hs]
    | some next =>
      rw [Machine.outputs_cons hs]
      rcases greeting_step hph hw hs with
        ⟨hne, hn, hg⟩ | ⟨outcome, rfl, rfl⟩
      · rw [hg]
        exact ih (hp.step hs) hne hn
      · have hno : (self.greet config outcome).phase ≠ .greeting := by
          unfold greet
          dsimp only
          split <;> exact fun hsa => by cases hsa
        cases hf : self.shared.assertFits config (.hello (buildHello config)) "The hello" with
        | ok =>
          right
          have hg : self.gives config (.driver (.greet outcome)) =
              some (.hello (buildHello config)) := by
            simp only [gives, hf]
          rw [hg]
          exact ⟨_, rfl, outputs_plain (hp.step hs) hno⟩
        | error error =>
          left
          have hsp : (self.greet config outcome).Spent := by
            unfold greet
            rw [hf]
            exact ⟨rfl, by simp [breakLoop, Channel.waiting, hw]⟩
          rw [outputs_spent hsp]
          simp only [gives, hf]
          rfl

/-! ### Events, the state and `ready` in a run -/

/-- Every subscriber heard only events that came after a point of the run, each at most as often. -/
def HeardSince (earlier session : Session H) : Prop :=
  ∃ items, session.inbound.received = earlier.inbound.received ++ items ∧
    ∀ events ∈ session.shared.eventSubscribers, events.Sublist (items.filterMap eventOf)

theorem HeardSince.step {earlier : Session H} (h : HeardSince earlier self)
    (hst : self.step config label = some next) : HeardSince earlier next := by
  obtain ⟨items, hi, hh⟩ := h
  cases step_hears hst with
  | nothing hr hs =>
    refine ⟨items, hr.trans hi, ?_⟩
    grind
  | item item hr hs =>
    refine ⟨items ++ [item], by rw [hr, hi, List.append_assoc], ?_⟩
    grind
  | event event _ hr hs =>
    refine ⟨items ++ [some (.frame (.evt event))], by rw [hr, hi, List.append_assoc], ?_⟩
    rw [hs, List.filterMap_append]
    intro events hev
    obtain ⟨heard, hm, rfl⟩ := List.mem_map.mp hev
    exact (hh heard hm).append (List.Sublist.refl _)

theorem ControlMove.state (h : ControlMove config self next) :
    next.shared.state = self.shared.state ∨ self.shared.state.Moves next.shared.state := by
  cases h with
  | same hs => exact .inl hs
  | refuse _ _ _ hs => exact .inl hs
  | accept _ _ _ hh _ _ hs =>
    rw [hh, hs]
    exact .inr .greeted
  | close _ _ hs =>
    rw [hs]
    cases self.shared.state with
    | handshaking => exact .inr .aborted
    | ready => exact .inr .closed
    | closed => exact .inl rfl
  | settle _ _ _ hs => exact .inl hs

theorem ControlMove.ready {outcome : Except RemoteError RemotePeer}
    (h : ControlMove config self next) (hs : self.shared.ready = some outcome) :
    next.shared.ready = some outcome := by
  cases h with
  | same _ _ hr => rw [hr, hs]
  | refuse _ _ _ _ _ hr => rw [hr, hs]; rfl
  | accept _ _ _ _ _ _ _ _ hr => rw [hr, hs]; rfl
  | close _ _ _ _ hr => rw [hr, hs]
  | settle _ _ _ _ _ hr => rw [hr, hs]; rfl

theorem ControlMove.ready_ok {remote : RemotePeer} (h : ControlMove config self next)
    (hs : self.shared.ready ≠ some (.ok remote))
    (hn : next.shared.ready = some (.ok remote)) : next.shared.state = .ready := by
  have failed {error : RemoteError}
      (hr : next.shared.ready = self.shared.ready.or (some (.error error))) :
      next.shared.state = .ready := by
    rw [hr] at hn
    cases hse : self.shared.ready with
    | none =>
      rw [hse] at hn
      cases hn
    | some outcome =>
      rw [hse] at hn hs
      exact absurd hn hs
  cases h with
  | same _ _ hr => exact absurd (hr ▸ hn) hs
  | refuse _ _ _ _ _ hr => exact failed hr
  | accept _ _ _ _ _ _ hst => exact hst
  | close _ _ _ _ hr => exact absurd (hr ▸ hn) hs
  | settle _ _ _ _ _ hr => exact failed hr

theorem duplicate_hello {call : HandlerCall} {hello : Hello} (hr : self.shared.state = .ready)
    (hw : self.inbound.waiting.head? = some (some (.frame (.hello hello))))
    (hs : self.step config (.driver (.inbound call)) = some next) :
    next.phase = .closing
      (.localClose closeCodes.protocolError (some "duplicate hello")) .marking := by
  cases step_move hs with | driver _ _ move =>
  cases move with | inbound _ item inbound hp _ hre =>
  rw [Channel.recv_waiting hre] at hw
  cases hw
  simp only [onInbound, onFrame, onHello, hr]
  rfl

/-! ### Handshake safety -/

/-- What holds of the handshake in a run. -/
structure HandshakeSafe (config : Config) (handlers : List (String × H)) (labels : List (Label H))
    (final : Session H) : Prop where
  hello_first :
    Machine.outputs (Session.step config) (gives config) (initial handlers) labels = [] ∨
    ∃ rest, Machine.outputs (Session.step config) (gives config) (initial handlers) labels =
      .hello (buildHello config) :: rest ∧ ∀ hello, .hello hello ∉ rest
  early : final.Ungreeted config → ∀ frame ∈ final.writer.sent, frame.Early
  unheard : ∀ before after earlier, labels = before ++ after →
    Machine.run (Session.step config) (initial handlers) before = some earlier →
    earlier.Ungreeted config → HeardSince earlier final
  state : ∀ before label after earlier later, labels = before ++ label :: after →
    Machine.run (Session.step config) (initial handlers) before = some earlier →
    earlier.step config label = some later →
    later.shared.state = earlier.shared.state ∨ earlier.shared.state.Moves later.shared.state
  ready_once : ∀ before after earlier outcome, labels = before ++ after →
    Machine.run (Session.step config) (initial handlers) before = some earlier →
    earlier.shared.ready = some outcome → final.shared.ready = some outcome
  ready_settled : ∀ closure, final.phase = .finished closure → final.shared.ready.isSome
  ready_ok : (∃ remote, final.shared.ready = some (.ok remote)) ↔
    ∃ before after earlier, labels = before ++ after ∧
      Machine.run (Session.step config) (initial handlers) before = some earlier ∧
      earlier.shared.state = .ready
  duplicate : ∀ before call after earlier later hello,
    labels = before ++ .driver (.inbound call) :: after →
    Machine.run (Session.step config) (initial handlers) before = some earlier →
    earlier.shared.state = .ready →
    earlier.inbound.waiting.head? = some (some (.frame (.hello hello))) →
    earlier.step config (.driver (.inbound call)) = some later →
    (∀ closure, final.phase = .finished closure → closure.code = closeCodes.protocolError) ∧
      later.Finishes config (.localClose closeCodes.protocolError (some "duplicate hello"))

theorem run_ready_ok
    (hr : Machine.run (Session.step config) (initial handlers) labels = some final) :
    (∃ remote, final.shared.ready = some (.ok remote)) ↔
      ∃ before after earlier, labels = before ++ after ∧
        Machine.run (Session.step config) (initial handlers) before = some earlier ∧
        earlier.shared.state = .ready := by
  constructor
  · rintro ⟨remote, hrea⟩
    have hst : (initial handlers).shared.ready ≠ some (.ok remote) := by
      obtain ⟨registry, generation, heq⟩ := Shared.initial_eq handlers
      rw [initial, heq]
      nofun
    obtain ⟨before, label, after, earlier, later, rfl, hb, hs, -, hea, hl⟩ :=
      Machine.run_cause (fun session => session.shared.ready = some (.ok remote)) hst hr hrea
    refine ⟨before ++ [label], after, later, by simp, ?_, (step_control hs).ready_ok hea hl⟩
    exact Machine.run_append.mpr ⟨earlier, hb, Machine.run_cons.mpr ⟨later, hs, rfl⟩⟩
  · rintro ⟨before, after, earlier, rfl, hb, hsta⟩
    have ha := (run_greeted hb).agreed
    obtain ⟨remote, hre⟩ := Option.isSome_iff_exists.mp (ha.ready hsta)
    obtain ⟨between, hbe, haf⟩ := Machine.run_append.mp hr
    cases hb.symm.trans hbe
    exact ⟨remote, Machine.run_invariant (fun session => session.shared.ready = some (.ok remote))
      (fun _ _ _ h hs => (step_control hs).ready h) ((ha.remote remote).mp hre) haf⟩

theorem run_handshake {handlers : List (String × H)} {labels : List (Label H)}
    (hrun : Machine.run (Session.step config) (initial handlers) labels = some final) :
    HandshakeSafe config handlers labels final := by
  have hg := run_greeted hrun
  have resume {before after : List (Label H)} {earlier : Session H}
      (hl : labels = before ++ after)
      (hb : Machine.run (Session.step config) (initial handlers) before = some earlier) :
      Machine.run (Session.step config) earlier after = some final := by
    rw [hl] at hrun
    obtain ⟨between, hbe, ha⟩ := Machine.run_append.mp hrun
    cases hb.symm.trans hbe
    exact ha
  constructor
  case hello_first =>
    exact outputs_hello ⟨fun _ hc => absurd hc List.not_mem_nil,
      fun _ hfr => absurd hfr List.not_mem_nil⟩ rfl rfl
  case early => exact fun hu => (hg.early (hg.remote hu)).frames
  case unheard =>
    intro before after earlier hl hb hu
    have he := run_greeted hb
    refine Machine.run_invariant (HeardSince earlier) (fun _ _ _ h hs => h.step hs) ?_
      (resume hl hb)
    refine ⟨[], by rw [List.append_nil], fun events hev => ?_⟩
    rw [he.unheard (he.remote hu) events hev]
    exact List.nil_sublist _
  case state => exact fun _ _ _ _ _ _ _ hs => (step_control hs).state
  case ready_once =>
    intro before after earlier outcome hl hb hr
    exact Machine.run_invariant (fun session => session.shared.ready = some outcome)
      (fun _ _ _ h hs => (step_control hs).ready h) hr (resume hl hb)
  case ready_settled => exact fun closure hp => hg.agreed.settled (by rw [hp]; rfl)
  case ready_ok => exact run_ready_ok hrun
  case duplicate =>
    intro before call after earlier later hello hl hb hr hw hs
    have hp := duplicate_hello hr hw hs
    refine ⟨fun closure hf => ?_, closing_finishes hp⟩
    obtain ⟨next, hn, hre⟩ := Machine.run_cons.mp (resume hl hb)
    cases hs.symm.trans hn
    obtain ⟨unfinished, rfl⟩ := Ending.closure (.inl ⟨_, hp⟩) hre hf
    rfl

/-- The peer pings, greets and greets again. -/
def duplicateHelloLabels : List (Label Unit) :=
  [.driver (.greet .sent), .port (.arrive (some (.frame .ping))), .driver (.inbound (.future 0)),
    .port (.arrive (some (.frame (.hello sampleHello)))), .driver (.inbound (.future 0)),
    .port (.arrive (some (.frame (.hello sampleHello)))), .driver (.inbound (.future 0)),
    .driver .teardown, .port (.transmit .sent), .driver .teardown, .driver .teardown,
    .driver .teardown, .driver .finish]

theorem run_handshake_duplicate :
    ∃ final, Machine.run (Session.step (sampleConfig [])) (initial []) duplicateHelloLabels =
        some final ∧
      final.phase = .finished ⟨4400, some "duplicate hello", false, none, 0⟩ ∧
      HandshakeSafe (sampleConfig []) [] duplicateHelloLabels final := by
  obtain ⟨final, hr, hp⟩ : ∃ final,
      Machine.run (Session.step (sampleConfig [])) (initial []) duplicateHelloLabels = some final ∧
        final.phase = .finished ⟨4400, some "duplicate hello", false, none, 0⟩ :=
    Machine.exists_run (by decide +kernel)
  exact ⟨final, hr, hp, run_handshake hr⟩

end Session

end MangoProtocol
