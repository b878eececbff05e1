import MangoProtocol.Session.Control
import MangoProtocol.Transports.NdjsonRx

/-! A session over the pipes of a child process.  The port starts the termination sequence of the
child when its send half is closed, and when its receive half returns a closure.  What the writer
makes of a frame is any outcome here. -/

namespace MangoProtocol

open ProofKit

/-! ### The termination sequence -/

/-- `escalations` is a history: how often the sequence was spawned in the background. -/
structure Terminator where
  started : Bool
  escalations : Nat
  deriving DecidableEq

namespace Terminator

def new : Terminator := ⟨false, 0⟩

def start (self : Terminator) : Terminator :=
  if self.started then self else ⟨true, self.escalations + 1⟩

def hear (self : Terminator) : Option Inbound → Terminator
  | some (.closed _) => self.start
  | _ => self

theorem start_started (self : Terminator) : self.start.started = true := by
  unfold start
  split
  · assumption
  · rfl

variable {self : Terminator}

theorem hear_started (h : self.started = true) (item : Option Inbound) :
    (self.hear item).started = true := by
  unfold hear
  split
  · exact start_started self
  · exact h

end Terminator

/-! ### The port under a session -/

/-- The send half of the port is closed in this step: the session closes by itself, and its writer
has been flushed. -/
def Session.closesPort {H : Type} (self : Session H) : Label H → Bool
  | .driver .teardown =>
    match self.phase with
    | .closing (.localClose _ _) .flushing => true
    | _ => false
  | _ => false

/-- A session and its port: the receive half over the child's stdout (`inner`), the words of a child
that never started (`closure`), and the terminator that both halves and the launched peer share. -/
structure SpawnSession (H : Type) where
  session : Session H
  inner : Option NdjsonRx
  closure : Option String
  terminator : Terminator

/-- What can happen: a step of the session that does not touch the receive half, a step of a `recv`
with what the handler of a request does, and a call of `LaunchedPeer::terminate`. -/
inductive SpawnLabel (H : Type) where
  | session (label : Label H)
  | receive (label : RxLabel) (call : HandlerCall)
  | terminate

namespace SpawnSession

variable {H : Type}

/-- A session over a child that started. -/
def live (handlers : List (String × H)) (maxFrameBytes : Nat)
    (atLeast : minMaxFrameBytes ≤ maxFrameBytes) : SpawnSession H :=
  ⟨.initial handlers, some (.new maxFrameBytes atLeast), none, .new⟩

/-- What `SpawnPortTx::send` can return. -/
def sends (self : SpawnSession H) (outcome : SendOutcome) : Bool :=
  self.inner.isSome || outcome = .closed

def concerns (self : SpawnSession H) : Label H → Bool
  | .port (.arrive _) | .driver (.inbound _) => false
  | .port (.transmit outcome) | .driver (.greet outcome) => self.sends outcome
  | _ => true

/-- The driver is inside `recv` in this step. -/
def polls : RxLabel → Bool
  | .drop | .writer _ => false
  | _ => true

def deliver (config : Config) (self : SpawnSession H) (item : Option Inbound) (call : HandlerCall) :
    Option (SpawnSession H) :=
  if self.session.phase = .running ∧ self.session.freshCall call then
    some { self with session := self.session.onInbound config item call }
  else none

/-- One step of `SpawnPortRx::recv`. -/
def receive (config : Config) (self : SpawnSession H) (label : RxLabel) (call : HandlerCall) :
    Option (SpawnSession H) :=
  match self.inner with
  | none =>
    match label with
    | .recv => { self with closure := none }.deliver config
        (self.closure.map fun why => .closed (.closed none (some why))) call
    | _ => none
  | some rx =>
    if polls label ∧ self.session.phase ≠ .running then none
    else
      (rx.step config.platform label).bind fun after =>
        match after.returned.drop rx.returned.length with
        | [] => some { self with inner := some after }
        | item :: _ =>
          { self with inner := some after, terminator := self.terminator.hear item }.deliver
            config item call

def step (config : Config) (self : SpawnSession H) : SpawnLabel H → Option (SpawnSession H)
  | .session label =>
    if self.concerns label then
      (self.session.step config label).map fun session =>
        { self with
          session
          terminator :=
            if self.session.closesPort label then self.terminator.start else self.terminator }
    else none
  | .receive label call => self.receive config label call
  | .terminate => some { self with terminator := self.terminator.start }

end SpawnSession

/-! ### What a step of `recv` returns -/

namespace NdjsonRx

inductive Returns (before after : NdjsonRx) : Prop
  | nothing (hreturned : after.returned = before.returned)
    (hterminal : after.terminal = before.terminal)
  | item (item : Option Inbound) (hreturned : after.returned = before.returned ++ [item])
    (hnone : item = none → before.terminal = true)
    (hterminal : after.terminal = true →
      before.terminal = true ∨ ∃ closure, item = some (.closed closure))

variable {platform : Platform} {self next : NdjsonRx} {label : RxLabel}

theorem poll_returns (self : NdjsonRx) : self.Returns self.poll := by
  unfold poll
  split
  · exact .item _ rfl nofun .inl
  · exact .item _ rfl nofun fun _ => .inr ⟨_, rfl⟩
  · split
    · rename_i ht
      exact .item none rfl (fun _ => ht) .inl
    · exact .nothing rfl rfl

theorem decodeChunk_returns (self : NdjsonRx) (bytes : List UInt8) :
    self.Returns (self.decodeChunk platform bytes) := by
  unfold decodeChunk
  dsimp only
  split
  · exact .nothing rfl rfl
  · cases poll_returns { self with
      decoder := (self.decoder.push (decodeLine platform) bytes).1
      pending := self.pending ++ (self.decoder.push (decodeLine platform) bytes).2.frames } with
    | nothing hr ht => exact .nothing hr ht
    | item item hr hn ht => exact .item item hr hn ht

theorem step_returns (h : self.step platform label = some next) : self.Returns next := by
  cases label with
  | recv | read bytes | eof | failure =>
    obtain ⟨-, ⟨⟩⟩ := Option.ite_none_right_eq_some.mp h
    first | exact poll_returns self | exact decodeChunk_returns self _ | exact .nothing rfl rfl
  | resume =>
    simp only [NdjsonRx.step, resume] at h
    grind [poll_returns]
  | drop =>
    simp only [NdjsonRx.step, drop] at h
    split at h
    · cases h
    · cases h
      exact .nothing rfl rfl
    · obtain ⟨writer, -, rfl⟩ := Option.map_eq_some_iff.mp h
      exact .nothing rfl rfl
  | writer label =>
    obtain ⟨writer, -, rfl⟩ := Option.map_eq_some_iff.mp h
    exact .nothing rfl rfl

end NdjsonRx

/-! ### How a step moves the driver -/

/-- The moves of the driver between its phases, `recv` apart. -/
inductive PhaseMove {H : Type} (label : Label H) (before after : Phase) : Prop
  | same (hafter : after = before) (hlabel : label ≠ .driver .teardown)
  | loop (hbefore : before.looping = true) (hafter : after = .running)
  | close (code : UInt16) (why : Option String) (hbefore : before.looping = true)
    (hafter : after = .closing (.localClose code why) .marking)
  | advance (reason : Teardown) (stage later : TeardownStage)
    (hbefore : before = .closing reason stage) (hafter : after = .closing reason later)
    (hlabel : label = .driver .teardown) (hmarking : stage = .marking → later = .flushing)
  | finish (reason : Teardown) (closure : SessionClosure)
    (hbefore : before = .closing reason .draining) (hafter : after = .finished closure)

namespace Session

variable {H : Type} {config : Config} {self next : Session H} {label : Label H}

theorem step_phase (h : self.step config label = some next)
    (hla : ∀ call, label ≠ .driver (.inbound call)) : PhaseMove label self.phase next.phase := by
  cases step_move h with
  | api _ _ move =>
    refine .same ?_ nofun
    cases move <;> rfl
  | arrive | transmit => exact .same rfl nofun
  | driver step _ move =>
    cases move with
    | greet outcome hp =>
      unfold greet
      dsimp only
      split
      · exact .close _ _ (by rw [hp]; rfl) rfl
      · exact .loop (by rw [hp]; rfl) rfl
    | sendFailed _ hp | handshakeTimeout hp => exact .close _ _ (by rw [hp]; rfl) rfl
    | livenessTick hp =>
      unfold onLivenessTick
      split
      · exact .close _ _ (by rw [hp]; rfl) rfl
      · exact .loop (by rw [hp]; rfl) hp
    | settled task settled invocation => exact .same (onHandlerSettled_phase _ task settled) nofun
    | command command commands hp =>
      have hl : self.phase.looping = true := by rw [hp]; rfl
      cases command with
      | close code why => exact .close code why hl rfl
      | request frame reply => cases frame <;> exact .loop hl hp
      | cancel id forget => cases forget <;> exact .loop hl hp
      | send frame => exact .loop hl hp
    | inbound call => exact absurd rfl (hla call)
    | teardown reason stage _ hp hn =>
      cases advanceTeardown_move hn <;> exact .advance reason _ _ hp rfl rfl (by decide)
    | drain => exact .same rfl nofun
    | finish reason hp => exact .finish reason _ hp rfl

theorem onFrame_phase {frame : Frame} (hp : self.phase = .running)
    (hf : ∀ close, frame ≠ .close close) (call : HandlerCall) :
    (self.onFrame config frame call).phase = .running ∨
      (∃ code why, (self.onFrame config frame call).phase =
        .closing (.localClose code why) .marking) ∨
      (self.onFrame config frame call).phase = .crashed := by
  cases frame with
  | close close => exact absurd rfl (hf close)
  | evt | ping | pong => exact .inl hp
  | req request =>
    simp only [onFrame, onRequest]
    split
    · exact .inl hp
    · cases call with
      | future => exact .inl hp
      | panic => exact .inr (.inr rfl)
  | _ =>
    simp only [onFrame, onHello, onResponse, onCancel]
    repeat' split
    all_goals first | exact .inl hp | exact .inr (.inl ⟨_, _, rfl⟩)

end Session

/-! ### Whole runs -/

/-- How a phase stands to the termination of the child: whether the sequence was started, and
whether `recv` returned a `close` frame of the child. -/
def Phase.Stands (started heard : Bool) : Phase → Prop
  | .greeting | .running => heard = false
  | .closing (.localClose _ _) stage =>
    heard = false ∧ (stage = .marking ∨ stage = .flushing ∨ started = true)
  | .closing (.peerFrame _ _) _ => heard = true
  | .closing (.port _) _ => started = true
  | .finished _ => heard = true ∨ started = true
  | .crashed => True

namespace Phase.Stands

variable {phase : Phase} {started started' heard : Bool}

theorem unheard (h : phase.Stands started heard) (hl : phase.looping = true) :
    heard = false := by
  cases phase with
  | greeting | running => exact h
  | closing | finished | crashed => cases hl

theorem mono (h : phase.Stands started heard) (hk : started = true → started' = true) :
    phase.Stands started' heard := by
  cases phase with
  | closing reason stage => cases reason <;> grind [Phase.Stands]
  | _ => grind [Phase.Stands]

theorem move {H : Type} {label : Label H} {after : Phase} (h : phase.Stands started heard)
    (hm : PhaseMove label phase after) (hk : started = true → started' = true)
    (hc : ∀ code why, phase = .closing (.localClose code why) .flushing →
      label = .driver .teardown → started' = true) : after.Stands started' heard := by
  have hl := h.mono hk
  cases hm with
  | same ha => exact ha ▸ hl
  | loop hb ha => exact ha ▸ h.unheard hb
  | close code why hb ha =>
    rw [ha]
    exact ⟨h.unheard hb, .inl rfl⟩
  | advance reason stage later hb ha ht hma =>
    subst hb ha
    cases reason <;> grind [Phase.Stands]
  | finish reason closure hb ha =>
    subst hb ha
    cases reason <;> grind [Phase.Stands]

end Phase.Stands

variable {H : Type}

theorem PhaseMove.looping {label : Label H} {before after : Phase}
    (h : PhaseMove label before after) (ha : after.looping = true) : before.looping = true := by
  cases h <;> grind [Phase.looping]

def isClose : Option Inbound → Bool
  | some (.frame (.close _)) => true
  | _ => false

theorem Session.onInbound_stands {config : Config} {self : Session H}
    (hp : self.phase = .running) {item : Option Inbound} (call : HandlerCall) {started : Bool}
    (hc : (∀ frame, item ≠ some (.frame frame)) → started = true) :
    (self.onInbound config item call).phase.Stands started (isClose item) := by
  rcases item with _ | ⟨frame | closure⟩
  · exact hc (by simp)
  · by_cases hcl : ∃ close, frame = .close close
    · obtain ⟨close, rfl⟩ := hcl
      rfl
    · have hq : isClose (some (.frame frame)) = false := by
        cases frame <;> simp_all [isClose]
      rw [hq, onInbound]
      rcases onFrame_phase hp (fun close heq => hcl ⟨close, heq⟩) call with
        hr | ⟨code, why, hclo⟩ | hcr
      · exact hr ▸ rfl
      · exact hclo ▸ ⟨rfl, .inl rfl⟩
      · exact hcr ▸ trivial
  · exact hc (by simp)

namespace SpawnSession

variable {H : Type} {config : Config} {self next : SpawnSession H} {label : SpawnLabel H}

def peerClosed (self : SpawnSession H) : Bool :=
  self.inner.any fun rx => rx.returned.any isClose

/-- What one step can do. -/
inductive Move (config : Config) (self : SpawnSession H) : SpawnLabel H → SpawnSession H → Prop
  | session (label : Label H) (session : Session H)
    (hmove : PhaseMove label self.session.phase session.phase) :
    Move config self (.session label) { self with
      session
      terminator :=
        if self.session.closesPort label then self.terminator.start else self.terminator }
  | quiet (label : RxLabel) (call : HandlerCall) (rx after : NdjsonRx)
    (hinner : self.inner = some rx) (hreturned : after.returned = rx.returned)
    (hterminal : after.terminal = rx.terminal) :
    Move config self (.receive label call) { self with inner := some after }
  | item (label : RxLabel) (call : HandlerCall) (rx after : NdjsonRx) (item : Option Inbound)
    (hinner : self.inner = some rx) (hphase : self.session.phase = .running)
    (hreturned : after.returned = rx.returned ++ [item])
    (hnone : item = none → rx.terminal = true)
    (hterminal : after.terminal = true →
      rx.terminal = true ∨ ∃ closure, item = some (.closed closure)) :
    Move config self (.receive label call) { self with
      session := self.session.onInbound config item call
      inner := some after
      terminator := self.terminator.hear item }
  | unspawned (call : HandlerCall) (item : Option Inbound) (hinner : self.inner = none)
    (hphase : self.session.phase = .running) (hitem : ∀ frame, item ≠ some (.frame frame)) :
    Move config self (.receive .recv call) { self with
      session := self.session.onInbound config item call, inner := none, closure := none }
  | terminate : Move config self .terminate { self with terminator := self.terminator.start }

variable {item : Option Inbound} {session : Session H} {call : HandlerCall}
  {terminator : Terminator} {rx after : NdjsonRx}

theorem deliver_eq (h : self.deliver config item call = some next) : self.session.phase = .running ∧
      next = { self with session := self.session.onInbound config item call } := by
  obtain ⟨⟨hp, -⟩, h⟩ := Option.ite_none_right_eq_some.mp h
  exact ⟨hp, (Option.some.inj h).symm⟩

theorem receive_move {rxLabel : RxLabel} (h : self.receive config rxLabel call = some next) :
    self.Move config (.receive rxLabel call) next := by
  unfold receive at h
  cases hi : self.inner with
  | none =>
    rw [hi] at h
    cases rxLabel with
    | recv =>
      obtain ⟨hp, rfl⟩ := deliver_eq h
      refine .unspawned call _ hi hp fun frame heq => ?_
      obtain ⟨why, -, hw⟩ := Option.map_eq_some_iff.mp heq
      cases hw
    | _ => cases h
  | some rx =>
    rw [hi] at h
    obtain ⟨-, h⟩ := Option.ite_none_left_eq_some.mp h
    obtain ⟨after, hs, h⟩ := Option.bind_eq_some_iff.mp h
    cases NdjsonRx.step_returns hs with
    | nothing hr ht =>
      rw [hr, List.drop_length] at h
      cases h
      exact .quiet rxLabel call rx after hi hr ht
    | item item hr hn ht =>
      rw [hr, List.drop_left] at h
      obtain ⟨hp, rfl⟩ := deliver_eq h
      exact .item rxLabel call rx after item hi hp hr hn ht

theorem step_move (h : self.step config label = some next) : self.Move config label next := by
  cases label with
  | session label =>
    obtain ⟨hc, h⟩ := Option.ite_none_right_eq_some.mp h
    obtain ⟨session, hs, rfl⟩ := Option.map_eq_some_iff.mp h
    refine .session label session (Session.step_phase hs fun call heq => ?_)
    rw [heq] at hc
    cases hc
  | receive label call => exact receive_move h
  | terminate =>
    cases h
    exact .terminate

theorem closesPort_started {label : Label H}
    (hs : terminator.started = true ∨ session.closesPort label = true) :
    (if session.closesPort label then terminator.start else terminator).started = true := by
  split
  · exact terminator.start_started
  · exact hs.resolve_right ‹_›

theorem closesPort_phase {label : Label H} (h : session.closesPort label = true) :
    ∃ code why, session.phase = .closing (.localClose code why) .flushing := by
  unfold Session.closesPort at h
  split at h
  · split at h
    · rename_i code why hp
      exact ⟨code, why, hp⟩
    · cases h
  · cases h

theorem peerClosed_quiet (hi : self.inner = some rx) (hr : after.returned = rx.returned)
    : { self with inner := some after }.peerClosed = self.peerClosed := by
  simp only [peerClosed, hi, Option.any_some, hr]

theorem peerClosed_item (hi : self.inner = some rx)
    (hr : after.returned = rx.returned ++ [item]) (hu : self.peerClosed = false) :
    { self with session, inner := some after, terminator }.peerClosed = isClose item := by
  rw [peerClosed, hi, Option.any_some] at hu
  rw [peerClosed, Option.any_some, hr, List.any_append, hu, Bool.false_or,
    List.any_cons, List.any_nil, Bool.or_false]

structure Sound (run : SpawnSession H) : Prop where
  stands : run.session.phase.Stands run.terminator.started run.peerClosed
  /-- A stream has ended for good only after a closure, which started the sequence. -/
  ended : ∀ rx, run.inner = some rx → rx.terminal = true → run.terminator.started = true
  unspawned : run.inner = none → run.terminator.started = true

theorem Sound.step (h : self.Sound) (hste : self.step config label = some next) : next.Sound := by
  obtain ⟨hst, he, hu⟩ := id h
  have hsta := self.terminator.start_started
  cases step_move hste with
  | session label session hm =>
    have hk (hs : self.terminator.started = true) :
        (if self.session.closesPort label then self.terminator.start
          else self.terminator).started = true := closesPort_started (.inl hs)
    refine ⟨hst.move hm hk fun code why hp ht => ?_, by grind, by grind⟩
    refine closesPort_started (.inr ?_)
    rw [ht, Session.closesPort, hp]
  | quiet label call rx after hi hr hte =>
    exact ⟨(peerClosed_quiet hi hr).symm ▸ hst, by grind, nofun⟩
  | item label call rx after item hi hp hr hn hte =>
    have hun := hst.unheard (by rw [hp]; rfl)
    have hh (hs : self.terminator.started = true) :=
      Terminator.hear_started hs item
    refine ⟨?_, by grind [Terminator.hear], nofun⟩
    rw [peerClosed_item hi hr hun]
    refine Session.onInbound_stands hp call fun hf => ?_
    rcases item with _ | ⟨frame | closure⟩ <;> grind [Terminator.hear]
  | unspawned call item hi hp hit =>
    have hs := hu hi
    have hq : isClose item = false := by
      unfold isClose
      split
      · exact absurd rfl (hit _)
      · rfl
    have ha : (self.session.onInbound config item call).phase.Stands
        self.terminator.started (isClose item) :=
      Session.onInbound_stands hp call fun _ => hs
    rw [hq] at ha
    refine ⟨ha, fun rx hso => ?_, fun _ => hs⟩
    cases hso
  | terminate => exact ⟨hst.mono fun _ => hsta, fun _ _ _ => hsta, fun _ => hsta⟩

theorem started_step (h : self.terminator.started = true)
    (hs : self.step config label = some next) : next.terminator.started = true := by
  cases step_move hs with
  | session => exact closesPort_started (.inl h)
  | quiet | unspawned => exact h
  | item => exact Terminator.hear_started h _
  | terminate => exact self.terminator.start_started

/-- Nobody asked for the sequence from outside: it was started only to end a session that heard no
`close` of the child. -/
structure Unprompted (run : SpawnSession H) : Prop where
  sound : run.Sound
  live : run.inner.isSome = true
  started : run.terminator.started = true →
    run.peerClosed = false ∧ run.session.phase.looping = false

theorem Unprompted.step (h : self.Unprompted) (hla : label ≠ .terminate)
    (hste : self.step config label = some next) : next.Unprompted := by
  have hso := h.sound.step hste
  obtain ⟨⟨hst, -, -⟩, hli, hsta⟩ := id h
  cases step_move hste with
  | session label session hm =>
    refine ⟨hso, hli, fun hs => ?_⟩
    have hb : self.peerClosed = false ∧ self.session.phase.looping = false := by
      by_cases hc : self.session.closesPort label = true
      · obtain ⟨code, why, hp⟩ := closesPort_phase hc
        rw [hp] at hst ⊢
        exact ⟨hst.1, rfl⟩
      · grind
    exact ⟨hb.1, by grind [hm.looping]⟩
  | quiet label call rx after hi hr =>
    exact ⟨hso, rfl, (peerClosed_quiet hi hr).symm ▸ hsta⟩
  | item label call rx after item hi hp hr =>
    have hl : self.session.phase.looping = true := by rw [hp]; rfl
    refine ⟨hso, rfl, fun hs => ?_⟩
    rw [peerClosed_item hi hr (hst.unheard hl)]
    unfold Terminator.hear at hs
    split at hs
    · exact ⟨rfl, rfl⟩
    · cases hl.symm.trans (hsta hs).2
  | unspawned => grind
  | terminate => exact absurd rfl hla

variable {handlers : List (String × H)} {maxFrameBytes : Nat}
  {atLeast : minMaxFrameBytes ≤ maxFrameBytes} {labels : List (SpawnLabel H)}
  {run : SpawnSession H}

theorem live_unprompted : (live handlers maxFrameBytes atLeast).Unprompted := by
  refine ⟨⟨rfl, fun rx hi ht => ?_, nofun⟩, rfl, nofun⟩
  cases hi
  cases ht

theorem run_prompted (hru : Machine.run (step config) self labels = some run)
    (hm : .terminate ∈ labels) : run.terminator.started = true := by
  obtain ⟨before, after, rfl⟩ := List.append_of_mem hm
  obtain ⟨state, -, hr⟩ := Machine.run_append.mp hru
  obtain ⟨prompted, hst, ha⟩ := Machine.run_cons.mp hr
  cases hst
  exact Machine.run_invariant (fun (state : SpawnSession H) => state.terminator.started = true)
    (fun _ _ _ hs hn => started_step hs hn) state.terminator.start_started ha

/-- When `run` has returned, the termination sequence of the child was started just in case the
owner asked for it or the session heard no `close` frame of the child. -/
theorem run_terminates_iff {closure : SessionClosure}
    (hrun : Machine.run (step config) (live handlers maxFrameBytes atLeast) labels = some run)
    (hfinished : run.session.phase = .finished closure) :
    run.terminator.started = true ↔ .terminate ∈ labels ∨ run.peerClosed = false := by
  have hs : run.Sound :=
    Machine.run_invariant Sound (fun _ _ _ hs hst => hs.step hst)
      live_unprompted.sound hrun
  constructor
  · intro hstar
    by_cases hm : .terminate ∈ labels
    · exact .inl hm
    · have he : Machine.Every (step config) (fun _ label => label ≠ .terminate)
          (live handlers maxFrameBytes atLeast) labels :=
        .of_forall fun label hl heq => hm (heq ▸ hl)
      have hu : run.Unprompted :=
        he.run_invariant Unprompted (fun _ _ _ h hl hst => h.step hl hst)
          live_unprompted hrun
      exact .inr (hu.started hstar).1
  · rintro (hm | hun)
    · exact run_prompted hrun hm
    · have hsta := hs.stands
      rw [hfinished, hun] at hsta
      exact hsta.resolve_left nofun

/-! ### Two runs -/

def sampleSpawn : SpawnSession Unit := live [] 4096 minMaxFrameBytes_le

def endingLabels : List (SpawnLabel Unit) :=
  List.replicate 4 (.session (.driver .teardown)) ++ [.session (.driver .finish)]

/-- The owner closes the session. -/
def ownerLabels : List (SpawnLabel Unit) :=
  [.session (.driver (.greet .sent)), .session (.api (.closeNow closeCodes.released none)),
    .session (.driver .command)] ++ endingLabels

/-- The child says `close` and stays. -/
def childLabels : List (SpawnLabel Unit) :=
  [.session (.driver (.greet .sent)), .receive .recv .panic,
    .receive (.read (Frame.close ⟨closeCodes.released, none⟩).record) .panic] ++ endingLabels

theorem run_terminates_iff_owner :
    ∃ run, Machine.run (step (sampleConfig [])) sampleSpawn ownerLabels = some run ∧
      run.session.phase = .finished ((Teardown.localClose closeCodes.released none).closure 0) ∧
      run.terminator.started = true := by
  obtain ⟨run, hr, hf, hu⟩ : ∃ run,
      Machine.run (step (sampleConfig [])) sampleSpawn ownerLabels = some run ∧
        run.session.phase = .finished ((Teardown.localClose closeCodes.released none).closure 0) ∧
        run.peerClosed = false :=
    Machine.exists_run (by decide +kernel)
  exact ⟨run, hr, hf, (run_terminates_iff hr hf).mpr (.inr hu)⟩

/-- The session has ended, and nothing will end the child. -/
theorem close_leaves_child :
    ∃ run, Machine.run (step (sampleConfig [.close ⟨closeCodes.released, none⟩])) sampleSpawn
        childLabels = some run ∧
      run.session.phase =
        .finished ((Teardown.peerFrame closeCodes.released none).closure 0) ∧
      run.terminator = ⟨false, 0⟩ :=
  Machine.exists_run (by decide +kernel)

end SpawnSession

end MangoProtocol
