import MangoProtocol.ProofKit.Fallible
import MangoProtocol.TypeScript.SessionClosing
import MangoProtocol.TypeScript.WebSocketAccounts

/-! A session over a WebSocket port that is closed already.  The port holds the closure for a
listener that comes late, but the session sends its `hello` before the microtask that delivers it:
the send throws, and the session ends with the code of a `hello` that could not be sent. -/

namespace MangoProtocol.TypeScript

open ProofKit

/-- The words of what `send` throws. -/
def PortThrown.describe : PortThrown → JsString
  | .closed message => message
  | .encode (.rangeError message) => js message
  | .encode (.codecError error) => js error.message

def webSocketApi (check : Frame → Bool) (format : FrameFormat Frame)
    (verdicts : WebSocketPort Frame → Verdicts) : PortApi (WebSocketPort Frame) where
  check := check
  maxFrameBytes port := some port.maxFrameBytes
  send port frame :=
    match port.send format frame (verdicts port) with
    | .error thrown => ⟨port, some (.other thrown.describe), none⟩
    | .ok result => ⟨result.1, none, (closuresOf result.2).head?⟩
  close port code reason :=
    let result := port.close format code reason (verdicts port)
    (result.1, (closuresOf result.2).head?)
  onFrame := WebSocketPort.onFrame
  onClosed := WebSocketPort.onClosed
  detachFrames := WebSocketPort.detachFrames
  detachClosed := WebSocketPort.detachClosed

/-! ### A session over a closed port -/

def unsentClosure : SessionClosure :=
  ⟨closeCodes.released, some (js "hello could not be sent"), false, none⟩

theorem startHandshake_unsent {π : Type} {api : PortApi π} {run : SessionRun π}
    {thrown : SendThrown}
    (hh : run.session.state = .handshaking)
    (hs : api.send run.port run.session.hello = ⟨run.port, some thrown, none⟩)
    (hc : ∀ code reason, api.close run.port code reason = (run.port, none)) :
    (run.startHandshake api).session.state = .closed ∧
      (run.startHandshake api).session.closure = some unsentClosure := by
  have ho : ¬run.session.state = .closed := by
    rw [hh]
    nofun
  unfold SessionRun.startHandshake SessionRun.send
  rw [hs]
  simp only [SessionRun.hear, SessionRun.failHandshake, SessionRun.withSession,
    SessionRun.closeNow, Session.settleReady, if_neg ho, hc, SessionRun.teardown,
    Session.tornDown, unsentClosure, isFatalCloseCode, Session.abort]
  decide

section Held

variable {check : Frame → Bool} {format : FrameFormat Frame}
  {verdicts : WebSocketPort Frame → Verdicts}
  {port : WebSocketPort Frame} {sessionOptions : SessionOptions}
  {init : SessionRun (WebSocketPort Frame)}

theorem new_unsent (hcl : port.isOpen = false)
    (hne : SessionRun.new (webSocketApi check format verdicts) port sessionOptions = .ok init) :
    init.session.state = .closed ∧ init.session.closure = some unsentClosure := by
  obtain ⟨ceiling, limit, -, -, rfl⟩ := SessionRun.new_eq hne
  have ha : port.onFrame.onClosed.isOpen = false := by
    have hc := congrArg Prod.fst port.onFrame.core_onClosed
    have hf := congrArg Prod.fst port.core_onFrame
    exact hc.trans (hf.trans hcl)
  have hn : ¬port.onFrame.onClosed.isOpen = true := Bool.eq_false_iff.mp ha
  have hs (frame : Frame) :
    ∃ thrown, (webSocketApi check format verdicts).send port.onFrame.onClosed
      frame = ⟨port.onFrame.onClosed, some thrown, none⟩ := by
    simp only [webSocketApi, WebSocketPort.send, if_pos hn]
    exact ⟨_, rfl⟩
  obtain ⟨thrown, ht⟩ := hs (Session.initial sessionOptions ceiling limit).hello
  refine startHandshake_unsent rfl ht fun code reason => ?_
  simp only [webSocketApi, WebSocketPort.close, if_pos hn]
  rfl

def ClosedWith (format : FrameFormat Frame) (options : WebSocketPortOptions)
    (created : WebSocketPort Frame × List (PortAction Frame)) (labels : List (PortLabel Frame))
    (code : Nat) : Prop :=
  (∃ before reason after middle, labels = before ++ .socketClosed code reason :: after ∧
    Machine.run (PortRun.step format) (PortRun.start created) before = some middle ∧
    middle.port.isOpen = true) ∨
  (code = closeCodes.forbidden ∧ ∃ accept, options.accept = some accept ∧
    isOriginAllowed accept.origin accept.allowedOrigins = false)

variable {options : WebSocketPortOptions} {labels : List (PortLabel Frame)} {code : Nat}
  {created : WebSocketPort Frame × List (PortAction Frame)} {run : PortRun Frame}

theorem refused_closed (format : FrameFormat Frame) {accept : AcceptOptions}
    (ha : options.accept = some accept)
    (hr : isOriginAllowed accept.origin accept.allowedOrigins = false)
    (hc : createWebSocketPort options = .ok created) : created.1.isOpen = false := by
  unfold createWebSocketPort at hc
  have hno : ¬isOriginAllowed accept.origin accept.allowedOrigins = true :=
    Bool.eq_false_iff.mp hr
  simp only [ha, if_pos hno] at hc
  cases hn : (WebSocketPort.new options : Except Thrown (WebSocketPort Frame)) with
  | error thrown =>
    rw [hn] at hc
    cases hc
  | ok port =>
    rw [hn] at hc
    cases hc
    have hf : PortRun.Kept format (PortRun.start (port, [])) := PortRun.new_kept hn
    exact (WebSocketPort.refuseOrigin_ended hf.1.cleared).isOpen

theorem ClosedWith.isOpen (h : ClosedWith format options created labels code)
    (hc : createWebSocketPort options = .ok created)
    (hr : Machine.run (PortRun.step format) (PortRun.start created) labels = some run) :
    run.port.isOpen = false := by
  rcases h with ⟨before, reason, after, middle, rfl, hb, -⟩ | ⟨-, accept, ha, hre⟩
  · obtain ⟨state, hst, hres⟩ := Machine.run_append.mp hr
    cases hb.symm.trans hst
    obtain ⟨next, hs, haf⟩ := Machine.run_cons.mp hres
    have hm := PortRun.run_kept hc hb
    have hn := hm.step hs
    cases hs
    have he := WebSocketPort.receiveClose_ended hm.1.cleared code reason
    exact (PortRun.run_closed hn he.isOpen haf).1
  · exact (PortRun.run_closed (PortRun.start_kept hc)
      (refused_closed format ha hre hc) hr).1

/-- The code that a closed port holds is the code that the session over it ends with only when it is
the code of a `hello` that could not be sent. -/
theorem closure_code_iff (hcreated : createWebSocketPort options = .ok created)
    (hrun : Machine.run (PortRun.step format) (PortRun.start created) labels = some run)
    (hclosed : ClosedWith format options created labels code)
    (hnew : SessionRun.new (webSocketApi check format verdicts) run.port sessionOptions = .ok init)
    {more : List (SessionLabel (WebSocketPort Frame))} {final : SessionRun (WebSocketPort Frame)}
    (hmore : Machine.run (SessionRun.step (webSocketApi check format verdicts)) init more =
      some final) :
    ∃ closure, final.session.closure = some closure ∧
      ((closure.code = code ∧ (isFatalCloseCode code = true → closure.fatal = true)) ↔
        code = closeCodes.released) := by
  obtain ⟨hs, hc⟩ := new_unsent (hclosed.isOpen hcreated hrun) hnew
  refine ⟨unsentClosure, (SessionRun.run_closure hs hmore).trans hc, ?_⟩
  constructor
  · rintro ⟨hco, -⟩
    exact hco.symm
  · rintro rfl
    exact ⟨rfl, fun hf => absurd hf (by decide)⟩

end Held

def outgoingFormat : FrameFormat Frame where
  typeOf := Frame.type
  serialise frame :=
    match frame.stringify with
    | .error _ => .error ⟨.invalidJson, "frame is not JSON-serialisable", some frame.type⟩
    | .ok bytes => .ok bytes
  parse _ _ := .error ⟨.invalidJson, "frame is not valid JSON", none⟩
  closeFrame := .close

def outgoingApi : PortApi (WebSocketPort Frame) :=
  webSocketApi (Frame.isFrame schemaLength) outgoingFormat fun _ => []

theorem exists_over_closed {code : Nat} {holds : SessionRun (WebSocketPort Frame) → Prop}
    [DecidablePred holds]
    (h : (createWebSocketPort {}).toOption.any (fun created => created.1.isOpen &&
      (Machine.run (PortRun.step outgoingFormat) (PortRun.start created)
        [.socketClosed code none]).any fun run =>
        (SessionRun.new outgoingApi run.port SessionRun.sampleOptions).toOption.any fun init =>
          holds init) = true) :
    ∃ created run init, createWebSocketPort {} = .ok created ∧ created.1.isOpen = true ∧
      Machine.run (PortRun.step outgoingFormat) (PortRun.start created)
        [.socketClosed code none] = some run ∧
      SessionRun.new outgoingApi run.port SessionRun.sampleOptions = .ok init ∧ holds init := by
  obtain ⟨created, hc, ha⟩ := (Option.any_eq_true _ _).mp h
  obtain ⟨ho, hr⟩ := Bool.and_eq_true_iff.mp ha
  obtain ⟨run, hru, hn⟩ := (Option.any_eq_true _ _).mp hr
  obtain ⟨init, hne, hh⟩ := (Option.any_eq_true _ _).mp hn
  exact ⟨created, run, init, ok_of_toOption hc, ho, hru,
    ok_of_toOption hne, of_decide_eq_true hh⟩

theorem closure_code_iff_released :
    ∃ created run init, createWebSocketPort {} = .ok created ∧
      Machine.run (PortRun.step outgoingFormat) (PortRun.start created)
        [.socketClosed 4000 none] = some run ∧
      SessionRun.new outgoingApi run.port SessionRun.sampleOptions = .ok init ∧
      ∃ closure, init.session.closure = some closure ∧ closure.code = 4000 := by
  have he : ∃ created run init, createWebSocketPort {} = .ok created ∧
      created.1.isOpen = true ∧
      Machine.run (PortRun.step outgoingFormat) (PortRun.start created)
        [.socketClosed 4000 none] = some run ∧
      SessionRun.new outgoingApi run.port SessionRun.sampleOptions = .ok init ∧
        init.session.state = .closed :=
    exists_over_closed (by decide +kernel)
  obtain ⟨created, run, init, hc, ho, hr, hn, -⟩ := he
  have hclo : ClosedWith outgoingFormat {} created [.socketClosed 4000 none] 4000 :=
    .inl ⟨[], none, [], PortRun.start created, rfl, rfl, ho⟩
  have hm : Machine.run (SessionRun.step outgoingApi) init [] = some init := rfl
  obtain ⟨closure, hcl, hi⟩ := closure_code_iff hc hr hclo hn hm
  exact ⟨created, run, init, hc, hr, hn, closure, hcl, (hi.mpr rfl).1⟩

/-- The socket closes with a fatal code before there is a session; the session over the port ends
with another code, which is not fatal. -/
theorem fatal_code_lost :
    ∃ created run init, createWebSocketPort {} = .ok created ∧ created.1.isOpen = true ∧
      Machine.run (PortRun.step outgoingFormat) (PortRun.start created)
        [.socketClosed 4401 none] = some run ∧
      SessionRun.new outgoingApi run.port SessionRun.sampleOptions = .ok init ∧
      init.session.state = .closed ∧
      init.session.closure = some ⟨4000, some (js "hello could not be sent"), false, none⟩ ∧
      isFatalCloseCode 4401 = true :=
  exists_over_closed (by decide +kernel)

end MangoProtocol.TypeScript
