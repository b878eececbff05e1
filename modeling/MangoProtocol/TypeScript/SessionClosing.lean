import MangoProtocol.ProofKit.Fallible
import MangoProtocol.TypeScript.Session

/-! The end of a TypeScript session and its transport.  A session that no `close` frame of its peer
ended has closed its port, or has heard that the port is closed. -/

namespace MangoProtocol.TypeScript

open ProofKit

/-! ### A closed session -/

namespace SessionRun

variable {π : Type} {api : PortApi π} {self next : SessionRun π}

theorem teardown_closed (h : self.session.state = .closed) (closure : SessionClosure) :
    (self.teardown api closure).session = self.session := congrArg SessionRun.session (if_pos h)

theorem handlePortClosed_closed (h : self.session.state = .closed) (closure : PortClosure) :
    (self.handlePortClosed api closure).session = self.session := by
  unfold handlePortClosed
  cases closure with
  | closed code reason =>
    apply teardown_closed
    exact h
  | protocolError error code =>
    apply teardown_closed
    exact h

theorem send_closed (h : self.session.state = .closed) (frame : Frame) :
    (self.send api frame).1.session = self.session := by
  unfold send
  dsimp only
  cases (api.send self.port frame).reported with
  | none => rfl
  | some closure =>
    apply handlePortClosed_closed
    exact h

theorem trySend_closed (h : self.session.state = .closed) (frame : Frame) :
    self.trySend api frame = self := if_pos h

theorem closeNow_closed (h : self.session.state = .closed) (code : Nat)
    (reason : Option JsString) : self.closeNow api code reason = self := if_pos h

theorem respondThrown_closed (h : self.session.state = .closed) (id : JsString)
    (thrown : HandlerThrown) (aborted : Bool) :
    self.respondThrown api id thrown aborted = self := by
  unfold respondThrown
  split
  · rfl
  · exact trySend_closed h _

theorem respondResult_closed (h : self.session.state = .closed) (dispatch : Dispatch)
    (result : JsValue) : self.respondResult api dispatch result = self := by
  unfold respondResult
  split
  · exact respondThrown_closed h _ _ _
  · dsimp only
    split
    · exact trySend_closed h _
    · exact trySend_closed h _

theorem dispatch_closed (h : self.session.state = .closed) (id method : JsString) :
    self.dispatch api id method = self := by
  have hr : self.session.refusal id method = some .notReady := by
    unfold Session.refusal
    exact if_pos (by rw [h]; nofun)
  unfold dispatch
  rw [hr]
  exact trySend_closed h _

theorem receive_closed (h : self.session.state = .closed) (frame : Frame) :
    (self.receive api frame).session.state = .closed ∧
      (self.receive api frame).session.closure = self.session.closure := by
  cases frame with
  | hello frame =>
    have hs : self.receiveHello api frame = self := by
      unfold receiveHello
      rw [if_pos (by rw [h]; nofun), closeNow_closed h]
    rw [receive, hs]
    exact ⟨h, rfl⟩
  | req id method params =>
    rw [receive, dispatch_closed h]
    exact ⟨h, rfl⟩
  | res | err | evt | pong => exact ⟨h, rfl⟩
  | cancel id =>
    rw [receive]
    split <;> exact ⟨h, rfl⟩
  | ping =>
    rw [receive, trySend_closed h]
    exact ⟨h, rfl⟩
  | close code reason =>
    have ha : (self.withSession { self.session with
      announcedClose := some (code, reason) }).session.state = .closed := h
    rw [receive, teardown_closed ha]
    exact ⟨h, rfl⟩

theorem step_closed {label : SessionLabel π} (h : self.session.state = .closed)
    (hs : self.step api label = some next) :
    next.session.state = .closed ∧ next.session.closure = self.session.closure := by
  have hst {session : Session} (hsa : session = self.session) :
      session.state = .closed ∧ session.closure = self.session.closure := by
    rw [hsa]
    exact ⟨h, rfl⟩
  cases label with
  | frame frame =>
    rw [step] at hs
    split at hs <;> cases hs
    exact receive_closed h frame
  | portClosed closure =>
    cases hs
    exact hst (handlePortClosed_closed h closure)
  | submit frame =>
    obtain ⟨-, hs⟩ := Option.ite_none_right_eq_some.mp hs
    cases hs
    exact hst (send_closed h frame)
  | settle id outcome =>
    obtain ⟨dispatch, -, rfl⟩ := Option.map_eq_some_iff.mp hs
    cases outcome with
    | returned value => rw [settle, respondResult_closed h]; exact ⟨h, rfl⟩
    | thrown thrown => rw [settle, respondThrown_closed h]; exact ⟨h, rfl⟩
  | handshakeTimeout =>
    have hn : self.session.state ≠ .handshaking := by
      rw [h]
      nofun
    rw [step, handshakeTimeout, if_pos hn] at hs
    split at hs <;> cases hs
    exact ⟨h, rfl⟩
  | livenessTick => grind [step, livenessTick]
  | port | handle | unhandle =>
    cases hs
    exact ⟨h, rfl⟩
  | closeNow code reason =>
    cases hs
    exact hst (congrArg SessionRun.session (closeNow_closed h code reason))

theorem run_closure {labels : List (SessionLabel π)} (h : self.session.state = .closed)
    (hr : Machine.run (step api) self labels = some next) :
    next.session.closure = self.session.closure := by
  refine (Machine.run_invariant (fun (run : SessionRun π) => run.session.state = .closed ∧
    run.session.closure = self.session.closure) ?_ ⟨h, rfl⟩ hr).2
  rintro run label later ⟨hcl, hs⟩ hst
  obtain ⟨hn, hc⟩ := step_closed hcl hst
  exact ⟨hn, hc.trans hs⟩

end SessionRun

/-! ### A released transport -/

def PortEvent.releases : PortEvent → Bool
  | .sent _ _ => false
  | .closed _ _ | .reported _ => true

namespace SessionRun

variable {π : Type} {api : PortApi π} {self next before between after : SessionRun π}

def released (self : SessionRun π) : Bool := self.events.any PortEvent.releases

/-- A step that ends the session only with its transport released. -/
structure Releases (before after : SessionRun π) : Prop where
  grows : before.released = true → after.released = true
  closes : after.session.state = .closed → before.session.state = .closed ∨ after.released = true

theorem Releases.refl : Releases self self := ⟨id, .inl⟩

theorem Releases.trans (h : Releases before between) (hn : Releases between after) :
    Releases before after := by
  refine ⟨fun hr => hn.grows (h.grows hr), fun hc => ?_⟩
  rcases hn.closes hc with hb | hr
  · rcases h.closes hb with hbe | hr
    · exact .inl hbe
    · exact .inr (hn.grows hr)
  · exact .inr hr

theorem Releases.of_state {session : Session} {port : π}
    (hs : session.state = self.session.state) :
    Releases self { self with session, port } :=
  ⟨id, fun hc => .inl (hs.symm.trans hc)⟩

theorem Releases.of_released (h : after.released = true) : Releases before after :=
  ⟨fun _ => h, fun _ => .inr h⟩

theorem teardown_events (closure : SessionClosure) :
    (self.teardown api closure).events = self.events := by
  unfold teardown
  split <;> rfl

theorem released_append (event : PortEvent) :
    (self.events ++ [event]).any PortEvent.releases =
      (self.events.any PortEvent.releases || event.releases) := by
  simp

theorem handlePortClosed_released (closure : PortClosure) :
    (self.handlePortClosed api closure).released = true := by
  have hev : (self.handlePortClosed api closure).events =
      self.events ++ [.reported closure] := by
    unfold handlePortClosed
    cases closure <;> exact teardown_events _
  rw [released, hev, released_append]
  exact Bool.or_true _

theorem hear_releases (reported : Option PortClosure) : Releases self (self.hear api reported) := by
  cases reported with
  | none => exact .refl
  | some closure => exact .of_released (handlePortClosed_released closure)

theorem send_releases (frame : Frame) : Releases self (self.send api frame).1 := by
  have hs : Releases self { self with
      port := (api.send self.port frame).port
      events := self.events ++ [.sent frame (api.send self.port frame).thrown.isNone] } := by
    refine ⟨fun hr => ?_, .inl⟩
    rw [released, released_append]
    exact Bool.or_eq_true_iff.mpr (.inl hr)
  exact hs.trans (hear_releases _)

theorem trySend_releases (frame : Frame) : Releases self (self.trySend api frame) := by
  unfold trySend
  split
  · exact .refl
  · exact send_releases frame

theorem closeNow_releases (code : Nat) (reason : Option JsString) :
    Releases self (self.closeNow api code reason) := by
  unfold closeNow
  split
  · exact .refl
  · apply Releases.of_released
    rw [released, teardown_events]
    apply (hear_releases _).grows
    rw [released, released_append]
    exact Bool.or_true _

theorem failHandshake_releases (error : JsString × JsString) (code : Nat) (reason : String) :
    Releases self (self.failHandshake api error code reason) := by
  refine Releases.trans ?_ (closeNow_releases code _)
  exact .of_state rfl

theorem startHandshake_releases : Releases self (self.startHandshake api) := by
  have hs : Releases self (self.send api self.session.hello).1 := send_releases _
  unfold startHandshake
  dsimp only
  split
  · exact hs.trans (failHandshake_releases _ _ _)
  · exact hs.trans (.of_state rfl)

theorem handshakeTimeout_releases : Releases self (self.handshakeTimeout api) := by
  have hf : Releases self
      (self.withSession { self.session with handshakeTimer := false }) := .of_state rfl
  unfold handshakeTimeout
  dsimp only
  split
  · exact hf
  · exact hf.trans (failHandshake_releases _ _ _)

theorem livenessTick_releases : Releases self (self.livenessTick api) := by
  unfold livenessTick
  split
  · exact .refl
  · split
    · exact closeNow_releases _ _
    · refine Releases.trans ?_ (trySend_releases _)
      exact .of_state rfl

theorem receiveHello_releases (frame : HelloFrame) :
    Releases self (self.receiveHello api frame) := by
  unfold receiveHello
  split
  case isTrue => exact closeNow_releases _ _
  case isFalse hs =>
    split
    · exact failHandshake_releases _ _ _
    · exact ⟨id, nofun⟩

theorem respondThrown_releases (id : JsString) (thrown : HandlerThrown) (aborted : Bool) :
    Releases self (self.respondThrown api id thrown aborted) := by
  unfold respondThrown
  split
  · exact .refl
  · exact trySend_releases _

theorem respondResult_releases (dispatch : Dispatch) (result : JsValue) :
    Releases self (self.respondResult api dispatch result) := by
  unfold respondResult
  split
  · exact respondThrown_releases _ _ _
  · dsimp only
    split
    · exact trySend_releases _
    · exact trySend_releases _

theorem settle_releases (dispatch : Dispatch) (outcome : HandlerOutcome) :
    Releases self (self.settle api dispatch outcome) := by
  unfold settle
  dsimp only
  cases outcome with
  | returned value =>
    have ha : Releases self (self.respondResult api dispatch (value.getD .null)) :=
      respondResult_releases dispatch _
    exact ha.trans (.of_state rfl)
  | thrown thrown =>
    have ha : Releases self
        (self.respondThrown api dispatch.id thrown dispatch.aborted) :=
      respondThrown_releases _ _ _
    exact ha.trans (.of_state rfl)

theorem dispatch_releases (id method : JsString) :
    Releases self (self.dispatch api id method) := by
  unfold dispatch
  split
  · exact trySend_releases _
  · exact .of_state rfl

def peerStays (self : SessionRun π) : SessionLabel π → Bool
  | .frame (.close _ _) => self.session.state == .closed
  | _ => true

theorem receive_releases {frame : Frame} (hs : self.peerStays (.frame frame) = true) :
    Releases self (self.receive api frame) := by
  cases frame with
  | hello frame => exact receiveHello_releases frame
  | req id method params => exact dispatch_releases id method
  | res | err | evt => exact .refl
  | cancel id =>
    rw [receive]
    split
    · exact .of_state rfl
    · exact .refl
  | ping => exact trySend_releases _
  | pong => exact .of_state rfl
  | close code reason =>
    exact ⟨fun hr => by rw [released, receive, teardown_events]; exact hr,
      fun _ => .inl (eq_of_beq hs)⟩

theorem step_releases {label : SessionLabel π} (hst : self.peerStays label = true)
    (hs : self.step api label = some next) : Releases self next := by
  cases label with
  | frame frame =>
    rw [step] at hs
    split at hs <;> cases hs
    exact receive_releases hst
  | portClosed closure =>
    cases hs
    exact .of_released (handlePortClosed_released closure)
  | port port =>
    cases hs
    exact .of_state rfl
  | submit frame =>
    obtain ⟨-, hs⟩ := Option.ite_none_right_eq_some.mp hs
    cases hs
    exact send_releases frame
  | settle id outcome =>
    obtain ⟨dispatch, -, rfl⟩ := Option.map_eq_some_iff.mp hs
    exact settle_releases dispatch outcome
  | handshakeTimeout =>
    rw [step] at hs
    split at hs <;> cases hs
    exact handshakeTimeout_releases
  | livenessTick =>
    rw [step] at hs
    split at hs <;> cases hs
    exact livenessTick_releases
  | handle method | unhandle method =>
    cases hs
    exact .of_state rfl
  | closeNow code reason =>
    cases hs
    exact closeNow_releases code reason

theorem new_released {port : π} {options : SessionOptions}
    (hn : new api port options = .ok self) (hc : self.session.state = .closed) :
    self.released = true := by
  obtain ⟨ceiling, limit, -, -, rfl⟩ := new_eq hn
  exact (startHandshake_releases.closes hc).resolve_left nofun

/-- A run in which no `close` frame reaches a session that goes on: once closed, the session has
closed its port, or the port has reported its closure. -/
theorem run_released {port : π} {options : SessionOptions} {labels : List (SessionLabel π)}
    (hnew : new api port options = .ok before)
    (hevery : Machine.Every (step api) (fun run label => run.peerStays label = true) before labels)
    (hrun : Machine.run (step api) before labels = some self) :
    self.session.state = .closed → self.released = true := by
  refine hevery.run_invariant
    (fun (run : SessionRun π) => run.session.state = .closed → run.released = true) ?_
    (new_released hnew) hrun
  intro run label next hr hst hs hc
  have hs := step_releases hst hs
  rcases hs.closes hc with hb | hn
  · exact hs.grows (hr hb)
  · exact hn

/-- A port that takes every frame. -/
def acceptingApi : PortApi Unit :=
  ⟨Frame.isFrame schemaLength, fun _ => none, fun _ _ => ⟨(), none, none⟩,
    fun _ _ _ => ((), none), id, id, id, id⟩

def sampleOptions : SessionOptions where
  peer := ⟨js "hub", js "1.0.0", js "hub"⟩
  capabilities := plainObject []
  protocol := none
  maxFrameBytes := none
  maxInFlight := none
  handshakeTimeoutMs := none
  liveness := false
  handlers := []

theorem exists_new {port : π} {options : SessionOptions} {labels : List (SessionLabel π)}
    {holds : SessionRun π → SessionRun π → Prop} [∀ init run, Decidable (holds init run)]
    (h : (new api port options).toOption.any (fun init =>
      (Machine.run (step api) init labels).any fun run => holds init run) = true) :
    ∃ init run, new api port options = .ok init ∧
      Machine.run (step api) init labels = some run ∧ holds init run := by
  obtain ⟨init, ho, ha⟩ := (Option.any_eq_true _ _).mp h
  obtain ⟨run, hr, hh⟩ := (Option.any_eq_true _ _).mp ha
  exact ⟨init, run, ok_of_toOption ho, hr, of_decide_eq_true hh⟩

theorem run_released_owner :
    ∃ init run, new acceptingApi () sampleOptions = .ok init ∧
      Machine.run (step acceptingApi) init [.closeNow 4000 none] = some run ∧
      run.session.state = .closed ∧ run.released = true := by
  have he : ∃ init run, new acceptingApi () sampleOptions = .ok init ∧
      Machine.run (step acceptingApi) init [.closeNow 4000 none] = some run ∧
      run.session.state = .closed ∧
      Machine.Every (step acceptingApi) (fun run label => run.peerStays label = true) init
        [.closeNow 4000 none] :=
    exists_new (by decide +kernel)
  obtain ⟨init, run, hn, hr, hc, hev⟩ := he
  exact ⟨init, run, hn, hr, hc, run_released hn hev hr hc⟩

/-- The peer says `close`: the session is closed, and its port is as it was. -/
theorem peer_close_keeps_port :
    ∃ init run, new acceptingApi () sampleOptions = .ok init ∧
      Machine.run (step acceptingApi) init [.frame (.close 4000 none)] = some run ∧
      run.session.state = .closed ∧ run.released = false :=
  exists_new (by decide +kernel)

end SessionRun

end MangoProtocol.TypeScript
