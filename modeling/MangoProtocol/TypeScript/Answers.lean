import MangoProtocol.TypeScript.FrameSize
import MangoProtocol.TypeScript.SessionClosing
import MangoProtocol.ProofKit.Lists

/-! The answers of a TypeScript session, over a port that takes a frame when `assertFrame` passes it
and its encoding fits the port's limit, and throws at every other frame.  The session swallows what
the port throws, so an answer that the port does not take is lost.  While the session goes on and
every answer is one that the port takes, each request has its answer, or a handler that has not
settled. -/

namespace MangoProtocol.TypeScript

open ProofKit

/-! ### A strict port -/

/-- `assertFrame` passes the frame, and its encoding fits. -/
def accepts (count : JsString → Nat) (limit : Option Nat) (frame : Frame) : Bool :=
  frame.isFrame count && frame.fits limit

/-- A port that throws at a frame that it does not take, and reports nothing. -/
def strictApi (count : JsString → Nat) (limit : Option Nat) (words : Frame → SendThrown) :
    PortApi Unit where
  check := Frame.isFrame count
  maxFrameBytes _ := limit
  send _ frame := ⟨(), if accepts count limit frame then none else some (words frame), none⟩
  close _ _ _ := ((), none)
  onFrame := id
  onClosed := id
  detachFrames := id
  detachClosed := id

/-! ### Requests and answers -/

/-- The request that a frame answers. -/
def Frame.answerId : Frame → Option JsString
  | .res id _ | .err id _ => some id
  | _ => none

/-- The port took an answer to the id. -/
def PortEvent.answers (id : JsString) : PortEvent → Bool
  | .sent frame accepted => accepted && frame.answerId == some id
  | .closed _ _ | .reported _ => false

/-- A request with the id arrives. -/
def SessionLabel.requests {π : Type} (id : JsString) : SessionLabel π → Bool
  | .frame (.req other _ _) => other == id
  | _ => false

namespace SessionRun

variable {π : Type}

/-- The answers to an id that the port took. -/
def answersTo (self : SessionRun π) (id : JsString) : Nat :=
  self.events.countP (PortEvent.answers id)

def unsettled (self : SessionRun π) (id : JsString) : Nat :=
  self.session.dispatches.countP (·.id == id)

def account (self : SessionRun π) (id : JsString) : Nat := self.answersTo id + self.unsettled id

end SessionRun

/-! ### What can be answered -/

/-- The text has at most six bytes of JSON for each of its length as `Value.Check` counts it.  By
code points, every text has. -/
def short (count : JsString → Nat) (text : JsString) : Bool := escapedSize text ≤ 6 * count text

theorem short_schemaLength (text : JsString) : short schemaLength text = true :=
  decide_eq_true (escapedSize_le text)

/-- What a handler throws is an error of the protocol, and the port has room for it. -/
def HandlerThrown.answerable (count : JsString → Nat) (limit : Option Nat) (id : JsString)
    (aborted : Bool) : HandlerThrown → Bool
  | .remote code message details =>
    ErrorPayload.isValid count ⟨code, message, none⟩ && details.all Details.copies &&
      (Frame.err id ⟨code, message, details.map Details.copy⟩).fits limit
  | .error name message =>
    let code :=
      if name == js "AbortError" || aborted then reservedErrorCodes.cancelled
      else reservedErrorCodes.internal
    message.isEmpty || (Frame.err id ⟨code, message, none⟩).fits limit
  | .mistyped => false
  | .other => true

/-- What a handler returns: the port has room for the reason why JSON cannot carry it; or the port
finds the value that the session measured, or has room for the one that it finds.  A text of the
language has less than `2 ^ 55` bytes. -/
def JsValue.answerable (count : JsString → Nat) (limit : Option Nat) (sendLimit : Nat)
    (dispatch : Dispatch) (value : JsValue) : Bool :=
  match measureFrameBytes (.res dispatch.id value) with
  | .error message =>
    (HandlerThrown.error (js "CodecError") message).answerable count limit dispatch.id
      dispatch.aborted
  | .ok bytes =>
    if sendLimit < bytes then bytes < 2 ^ 55
    else value.visit 1 == value.visit 0 || (Frame.res dispatch.id value.next).fits limit

def HandlerOutcome.answerable (count : JsString → Nat) (limit : Option Nat) (sendLimit : Nat)
    (dispatch : Dispatch) : HandlerOutcome → Bool
  | .returned value => (value.getD .null).answerable count limit sendLimit dispatch
  | .thrown error => error.answerable count limit dispatch.id dispatch.aborted

namespace SessionRun

variable {π : Type}

/-- A request has a short id and method, the port has room for the refusal of an id that is in
flight, and a handler settles with what can be answered. -/
def answerable (count : JsString → Nat) (limit : Option Nat) (self : SessionRun π) :
    SessionLabel π → Bool
  | .frame (.req id method _) =>
    short count id && short count method &&
      (!self.session.active.contains id ||
        self.session.maxInFlight ≤ self.session.active.length ||
        (Frame.err id (.duplicateId id)).fits limit)
  | .settle id outcome =>
    (self.session.dispatches.find? (·.id == id)).all fun dispatch =>
      outcome.answerable count limit self.session.sendLimitBytes dispatch
  | _ => true

end SessionRun

/-! ### Payloads -/

def sessionCodes : List JsString :=
  [reservedErrorCodes.unavailable, reservedErrorCodes.invalidRequest,
    reservedErrorCodes.methodUnsupported, reservedErrorCodes.cancelled,
    reservedErrorCodes.frameTooLarge, reservedErrorCodes.internal]

variable {count : JsString → Nat} {error : ErrorPayload} {session : Session} {id method : JsString}

theorem isValid_session (hn : LengthCount count) (hco : error.code ∈ sessionCodes)
    (hm : error.message ≠ []) : error.isValid count = true := by
  have hs : ∀ code ∈ sessionCodes,
      code ≠ [] ∧ code.length ≤ errorCodeMaxLength ∧ matchesErrorCode code = true := by
    decide +kernel
  obtain ⟨hne, hl, hc⟩ := hs _ hco
  have hle := (hn.le_length error.code).trans hl
  rw [ErrorPayload.isValid, lengthWithin, hc, decide_eq_true (hn.pos _ hne), decide_eq_true hle]
  exact decide_eq_true (hn.pos _ hm)

/-- The refusals of `#dispatch`. -/
inductive Refused (session : Session) (id method : JsString) : ErrorPayload → Prop where
  | notReady : Refused session id method .notReady
  | inFlightLimit : Refused session id method (.inFlightLimit session.maxInFlight method)
  | duplicateId (active : session.active.contains id = true)
      (room : session.active.length < session.maxInFlight) :
      Refused session id method (.duplicateId id)
  | reservedMethod : Refused session id method
      (.reservedMethod method ((session.remote.map RemotePeer.effectiveMinor).getD 0))
  | noHandler : Refused session id method (.noHandler method)

theorem refusal_cases (h : session.refusal id method = some error) :
    Refused session id method error := by
  simp only [Session.refusal] at h
  grind [Refused]

theorem isValid_around {code first part last : JsString} {details : Option JsValue}
    (hn : LengthCount count) (hc : code ∈ sessionCodes) (hw : first ≠ [] ∨ last ≠ []) :
    ErrorPayload.isValid count ⟨code, first ++ part ++ last, details⟩ = true := by
  refine isValid_session hn hc ?_
  rcases hw with hf | hl
  all_goals simp_all

theorem Refused.isValid (hn : LengthCount count) (h : Refused session id method error) :
    error.isValid count = true := by
  cases h with
  | notReady => exact isValid_session hn (by decide +kernel) (by decide +kernel)
  | inFlightLimit => exact isValid_around hn (by decide +kernel) (.inr (by decide +kernel))
  | duplicateId => exact isValid_around hn (by decide +kernel) (.inl (by decide +kernel))
  | reservedMethod => exact isValid_around hn (by decide +kernel) (.inl (by decide +kernel))
  | noHandler => exact isValid_around hn (by decide +kernel) (.inl (by decide +kernel))

section Strict

variable {limit : Option Nat} {id method : JsString}

/-- An id that passed the check, and that a refusal has room for. -/
structure Named (count : JsString → Nat) (id : JsString) : Prop where
  isId : isId count id = true
  size : escapedSize id ≤ 1536

theorem isId_size (hid : isId count id = true) (h : short count id = true) : Named count id := by
  have hl : count id ≤ 256 := of_decide_eq_true (Bool.and_eq_true_iff.mp hid).2
  have hs : escapedSize id ≤ 6 * count id := of_decide_eq_true h
  exact ⟨hid, by omega⟩

theorem isMethod_size (hm : isMethod count method = true) (h : short count method = true) :
    escapedSize method ≤ 768 := by
  have hl : count method ≤ 128 :=
    of_decide_eq_true (Bool.and_eq_true_iff.mp (Bool.and_eq_true_iff.mp hm).1).2
  have hs : escapedSize method ≤ 6 * count method := of_decide_eq_true h
  omega

/-- The codes of what is not a `RemoteError`. -/
def catchCodes : List JsString := [reservedErrorCodes.cancelled, reservedErrorCodes.internal]

variable {code : JsString} {sentence : String}

theorem sentence_accepted (hn : LengthCount count) (hl : LimitFloor limit) (hid : Named count id)
    (hc : code ∈ catchCodes)
    (hs : sentence ∈ ["The request was cancelled.", "The handler failed."]) :
    accepts count limit (.err id ⟨code, js sentence, none⟩) = true := by
  have ha : ∀ code ∈ catchCodes,
      ∀ sentence ∈ ["The request was cancelled.", "The handler failed."],
        escapedSize code + escapedSize (js sentence) ≤ 2490 ∧ code ∈ sessionCodes ∧
          js sentence ≠ [] := by decide +kernel
  obtain ⟨hsi, hco, hne⟩ := ha code hc sentence hs
  have hv : ErrorPayload.isValid count ⟨code, js sentence, none⟩ = true :=
    isValid_session hn hco hne
  rw [accepts, Frame.isFrame, hid.isId, hv, plain_fits hl hid.size hsi]
  rfl

theorem messageOr_accepted {name message : JsString} (hn : LengthCount count)
    (hl : LimitFloor limit) (hid : Named count id) (hc : code ∈ catchCodes)
    (hs : sentence ∈ ["The request was cancelled.", "The handler failed."])
    (h : (message.isEmpty || (Frame.err id ⟨code, message, none⟩).fits limit) = true) :
    accepts count limit
      (.err id ⟨code, (HandlerThrown.error name message).messageOr sentence, none⟩) = true := by
  cases message with
  | nil => exact sentence_accepted hn hl hid hc hs
  | cons unit units =>
    have hf : (Frame.err id ⟨code, unit :: units, none⟩).fits limit = true := h
    have hse : ∀ code ∈ catchCodes, code ∈ sessionCodes := by decide +kernel
    rw [accepts, Frame.isFrame, hid.isId, isValid_session hn (hse code hc) (List.cons_ne_nil _ _)]
    exact hf

theorem errorPayloadFor_accepted {thrown : HandlerThrown} {aborted : Bool}
    (hn : LengthCount count) (hl : LimitFloor limit) (hid : Named count id)
    (h : thrown.answerable count limit id aborted = true) :
    ∃ error, errorPayloadFor thrown aborted = some error ∧
      accepts count limit (.err id error) = true := by
  cases thrown with
  | remote code message details =>
    obtain ⟨hle, hfi⟩ := Bool.and_eq_true_iff.mp h
    obtain ⟨hv, hco⟩ := Bool.and_eq_true_iff.mp hle
    have hf : accepts count limit (.err id ⟨code, message, details.map Details.copy⟩) = true := by
      rw [accepts, hfi, Bool.and_true]
      exact Bool.and_eq_true_iff.mpr ⟨hid.isId, hv⟩
    cases details with
    | none => exact ⟨_, rfl, hf⟩
    | some details => exact ⟨_, if_pos hco, hf⟩
  | error name message =>
    by_cases hc : (name == js "AbortError" || aborted) = true
    · rw [HandlerThrown.answerable, if_pos hc] at h
      exact ⟨_, if_pos (Bool.or_eq_true_iff.mp hc),
        messageOr_accepted hn hl hid (by decide) (by decide) h⟩
    · rw [HandlerThrown.answerable, if_neg hc] at h
      exact ⟨_, if_neg fun hor => hc (Bool.or_eq_true_iff.mpr hor),
        messageOr_accepted hn hl hid (by decide) (by decide) h⟩
  | mistyped => cases h
  | other =>
    by_cases hc : isAbortError .other = true ∨ aborted = true
    · exact ⟨_, if_pos hc, sentence_accepted hn hl hid (by decide) (by decide)⟩
    · exact ⟨_, if_neg hc, sentence_accepted hn hl hid (by decide) (by decide)⟩

theorem res_accepted {value : JsValue} {bytes bound : Nat} (hid : isId count id = true)
    (hm : measureFrameBytes (.res id value) = .ok bytes) (hby : bytes ≤ bound)
    (hb : ∀ portLimit, limit = some portLimit → bound ≤ portLimit)
    (h : (value.visit 1 == value.visit 0 || (Frame.res id value.next).fits limit) = true) :
    accepts count limit (.res id value.next) = true := by
  refine Bool.and_eq_true_iff.mpr ⟨hid, ?_⟩
  rcases Bool.or_eq_true_iff.mp h with hs | hf
  · have ht : (Frame.res id value.next).stringify = (Frame.res id value).stringify := by
      have hn : value.next.now = value.now := eq_of_beq hs
      simp only [Frame.stringify, Frame.members, Frame.type, hn]
    unfold measureFrameBytes at hm
    cases limit <;> grind [Frame.fits]
  · exact hf

end Strict

/-! ### Sessions over a strict port -/

/-- What a session that goes on keeps. -/
structure Sound (count : JsString → Nat) (limit : Option Nat) (session : Session) : Prop where
  ceiling : ∀ portLimit, limit = some portLimit → session.localMaxFrameBytes ≤ portLimit
  inFlight : session.maxInFlight ≤ maxAnnouncedInFlight
  minor : session.localProtocol.minor < numberBound
  effectiveMinor : ∀ remote, session.remote = some remote → remote.effectiveMinor < numberBound
  limits : ∀ remote, session.remote = some remote → remote.limits.all Limits.isValid = true
  requests : ∀ dispatch ∈ session.dispatches,
    Named count dispatch.id ∧ escapedSize dispatch.method ≤ 768

namespace Sound

variable {count : JsString → Nat} {limit : Option Nat} {session : Session}

theorem sendLimit_le (h : Sound count limit session) :
    session.sendLimitBytes ≤ maxAnnouncedFrameBytes := by
  refine (min_le_right _ _).trans ?_
  have hd : defaultMaxFrameBytes ≤ maxAnnouncedFrameBytes := by decide
  rcases hr : session.remote with _ | ⟨_ | ⟨_ | bound, inFlight⟩, minor⟩
  case some.some.some =>
    have hl := h.limits _ hr
    exact of_decide_eq_true (Bool.and_eq_true_iff.mp (Bool.and_eq_true_iff.mp hl).1).2
  all_goals exact hd

theorem effectiveMinor_lt (h : Sound count limit session) :
    (session.remote.map RemotePeer.effectiveMinor).getD 0 < numberBound := by
  cases hr : session.remote with
  | none => exact Nat.lt_of_le_of_lt (Nat.zero_le _) h.minor
  | some remote => exact h.effectiveMinor remote hr

theorem refusal_accepted {id method : JsString} {error : ErrorPayload}
    (h : Sound count limit session)
    (hn : LengthCount count) (hl : LimitFloor limit) (hid : Named count id)
    (hm : escapedSize method ≤ 768)
    (hd : session.active.contains id = true →
      session.active.length < session.maxInFlight →
      (Frame.err id (.duplicateId id)).fits limit = true)
    (hre : session.refusal id method = some error) :
    accepts count limit (.err id error) = true := by
  have hr := refusal_cases hre
  have hf : (Frame.err id error).fits limit = true := by
    cases hr with
    | notReady => exact plain_fits hl hid.size (by decide +kernel)
    | inFlightLimit => exact inFlightLimit_fits hl hid.size hm h.inFlight
    | duplicateId ha hro => exact hd ha hro
    | reservedMethod => exact reservedMethod_fits hl hid.size hm h.effectiveMinor_lt
    | noHandler => exact noHandler_fits hl hid.size hm
  rw [accepts, Frame.isFrame, hid.isId, hr.isValid hn, hf]
  rfl

end Sound

namespace SessionRun

variable {count : JsString → Nat} {limit : Option Nat} {words : Frame → SendThrown}
  {self next before after : SessionRun Unit}

theorem send_strict (frame : Frame) :
    (self.send (strictApi count limit words) frame).1 =
      { self with events := self.events ++ [.sent frame (accepts count limit frame)] } := by
  unfold send
  dsimp only [strictApi, hear]
  cases accepts count limit frame <;> rfl

theorem send_thrown (frame : Frame) :
    (self.send (strictApi count limit words) frame).2 =
      if accepts count limit frame then none else some (words frame) := rfl

theorem trySend_strict (ho : ¬self.session.state = .closed) (frame : Frame) :
    self.trySend (strictApi count limit words) frame =
      { self with events := self.events ++ [.sent frame (accepts count limit frame)] } := by
  rw [trySend, if_neg ho, send_strict]

structure Answered (id : JsString) (before after : SessionRun Unit) : Prop where
  session : after.session = before.session
  answers : ∀ other, after.answersTo other = before.answersTo other + (id == other).toNat

variable {id : JsString} {dispatch : Dispatch} {frame : Frame}

theorem trySend_answered (ho : ¬self.session.state = .closed) (hid : frame.answerId = some id)
    (ha : accepts count limit frame = true) :
    Answered id self (self.trySend (strictApi count limit words) frame) := by
  rw [trySend_strict ho, ha]
  refine ⟨rfl, fun other => ?_⟩
  have hc : (PortEvent.sent frame true).answers other = (id == other) := by
    rw [PortEvent.answers, hid]
    rfl
  simp only [answersTo, List.countP_append, List.countP_singleton, hc]
  cases id == other <;> rfl

theorem respondThrown_answered {thrown : HandlerThrown} {aborted : Bool}
    (hn : LengthCount count) (ho : ¬self.session.state = .closed) (hl : LimitFloor limit)
    (hid : Named count id)
    (h : thrown.answerable count limit id aborted = true) :
    Answered id self (self.respondThrown (strictApi count limit words) id thrown aborted) := by
  obtain ⟨error, he, ha⟩ := errorPayloadFor_accepted hn hl hid h
  rw [respondThrown, he]
  exact trySend_answered ho rfl ha

theorem respondResult_answered {value : JsValue} (hn : LengthCount count)
    (ho : ¬self.session.state = .closed)
    (hli : LimitFloor limit) (hs : Sound count limit self.session)
    (hd : dispatch ∈ self.session.dispatches)
    (h : value.answerable count limit self.session.sendLimitBytes dispatch = true) :
    Answered dispatch.id self
      (self.respondResult (strictApi count limit words) dispatch value) := by
  obtain ⟨hid, hme⟩ := hs.requests dispatch hd
  unfold JsValue.answerable at h
  unfold respondResult
  cases hm : measureFrameBytes (.res dispatch.id value) with
  | error message =>
    rw [hm] at h
    exact respondThrown_answered hn ho hli hid h
  | ok bytes =>
    rw [hm] at h
    by_cases hl : self.session.sendLimitBytes < bytes
    · have hb : bytes < 2 ^ 55 := of_decide_eq_true ((if_pos hl).symm.trans h)
      have hv : (ErrorPayload.frameTooLarge dispatch.method bytes
          self.session.sendLimitBytes).isValid count = true :=
        isValid_around hn (by decide +kernel) (.inl (by decide +kernel))
      dsimp only
      rw [if_pos hl]
      refine trySend_answered ho rfl ?_
      rw [accepts, Frame.isFrame, hid.isId, hv,
        frameTooLarge_fits hli hid.size hme hb hs.sendLimit_le]
      rfl
    · dsimp only at h ⊢
      rw [if_neg hl] at h ⊢
      refine trySend_answered ho rfl (res_accepted hid.isId hm (Nat.not_lt.mp hl) ?_ h)
      intro portLimit hp
      exact (min_le_left _ _).trans (hs.ceiling portLimit hp)

def Kept (count : JsString → Nat) (limit : Option Nat) (gained : JsString → Nat)
    (before after : SessionRun Unit) : Prop :=
  after.session.state = .closed ∨
    Sound count limit after.session ∧ ∀ id, after.account id = before.account id + gained id

theorem Kept.quiet (hs : Sound count limit after.session)
    (hd : after.session.dispatches.map Dispatch.id =
      before.session.dispatches.map Dispatch.id)
    (hev : ∀ id, after.answersTo id = before.answersTo id) :
    Kept count limit (fun _ => 0) before after := by
  refine .inr ⟨hs, fun id => ?_⟩
  have hc (dispatches : List Dispatch) : dispatches.countP (·.id == id) =
      (dispatches.map Dispatch.id).countP (· == id) := by
    rw [List.countP_map]
    rfl
  rw [account, account, unsettled, unsettled, hc, hc, hd, hev, Nat.add_zero]

theorem teardown_state (closure : SessionClosure) :
    (self.teardown (strictApi count limit words) closure).session.state = .closed := by
  unfold teardown
  split
  case isTrue hc => exact hc
  case isFalse => rfl

theorem closeNow_state (code : Nat) (reason : Option JsString) :
    (self.closeNow (strictApi count limit words) code reason).session.state = .closed := by
  grind [closeNow, teardown_state]

theorem send_kept (hs : Sound count limit self.session) (hn : frame.answerId = none) :
    Kept count limit (fun _ => 0) self (self.send (strictApi count limit words) frame).1 := by
  rw [send_strict]
  refine Kept.quiet hs rfl fun id => ?_
  grind [PortEvent.answers, answersTo, List.countP_singleton]

theorem trySend_kept (hs : Sound count limit self.session) (hn : frame.answerId = none) :
    Kept count limit (fun _ => 0) self (self.trySend (strictApi count limit words) frame) := by
  unfold trySend
  split
  case isTrue hc => exact .inl hc
  case isFalse => exact send_kept hs hn

theorem dispatch_kept {method : JsString} {params : JsValue} (hn : LengthCount count)
    (ho : ¬self.session.state = .closed) (hl : LimitFloor limit)
    (hs : Sound count limit self.session)
    (hf : (Frame.req id method params).isFrame count = true)
    (h : self.answerable count limit (.frame (.req id method params)) = true) :
    Kept count limit (fun other => (id == other).toNat) self
      (self.dispatch (strictApi count limit words) id method) := by
  obtain ⟨hi, hme⟩ := Bool.and_eq_true_iff.mp hf
  obtain ⟨hsh, hd⟩ := Bool.and_eq_true_iff.mp h
  have hid := isId_size hi (Bool.and_eq_true_iff.mp hsh).1
  have hm := isMethod_size hme (Bool.and_eq_true_iff.mp hsh).2
  unfold dispatch
  cases hr : self.session.refusal id method with
  | some error =>
    have hac : accepts count limit (.err id error) = true := by
      refine hs.refusal_accepted hn hl hid hm (fun hact hro => ?_) hr
      grind
    have ha : Answered id self (self.respondError (strictApi count limit words) id error) :=
      trySend_answered ho rfl hac
    refine .inr ⟨by rw [ha.session]; exact hs, fun other => ?_⟩
    rw [account, account, unsettled, ha.session, ha.answers]
    exact Nat.add_right_comm _ _ _
  | none =>
    have hre := hs.requests
    refine .inr ⟨{ hs with requests := by grind [withSession] }, fun other => ?_⟩
    simp only [account, answersTo, unsettled, withSession, List.countP_append,
      List.countP_singleton]
    cases id == other <;> rfl

theorem Answered.settled {answered : SessionRun Unit} (h : Answered dispatch.id self answered)
    (hs : Sound count limit self.session) (hd : dispatch ∈ self.session.dispatches) :
    Kept count limit (fun _ => 0) self (answered.withSession { answered.session with
      active := answered.session.active.erase dispatch.id
      dispatches := answered.session.dispatches.eraseP (·.id == dispatch.id) }) := by
  rw [h.session]
  refine .inr ⟨{ hs with requests := ?_ }, fun other => ?_⟩
  · intro other ho
    exact hs.requests other (List.mem_of_mem_eraseP ho)
  · have hc := countP_eraseP_key Dispatch.id hd other
    have ha := h.answers other
    simp only [account, unsettled, answersTo, withSession] at ha ⊢
    omega

theorem settle_kept {outcome : HandlerOutcome} (hn : LengthCount count)
    (ho : ¬self.session.state = .closed)
    (hl : LimitFloor limit) (hs : Sound count limit self.session)
    (hd : dispatch ∈ self.session.dispatches)
    (h : outcome.answerable count limit self.session.sendLimitBytes dispatch = true) :
    Kept count limit (fun _ => 0) self
      (self.settle (strictApi count limit words) dispatch outcome) := by
  cases outcome with
  | returned value =>
    exact (respondResult_answered hn ho hl hs hd h).settled hs hd
  | thrown thrown =>
    have hid := (hs.requests dispatch hd).1
    exact (respondThrown_answered hn ho hl hid h).settled hs hd

theorem receiveHello_kept {frame : HelloFrame} (hs : Sound count limit self.session)
    (hf : (Frame.hello frame).isFrame count = true) :
    Kept count limit (fun _ => 0) self (self.receiveHello (strictApi count limit words) frame) := by
  unfold receiveHello
  split
  · exact .inl (closeNow_state _ _)
  · unfold negotiate
    split
    case h_1 => exact .inl (closeNow_state _ _)
    case h_2 effectiveMinor hm =>
      have ho := hs.minor
      refine Kept.quiet { hs with effectiveMinor := ?_, limits := ?_ } rfl fun _ => rfl
      · rintro remote ⟨⟩
        grind
      · rintro remote ⟨⟩
        exact (Bool.and_eq_true_iff.mp hf).2

theorem receive_kept (hn : LengthCount count) (ho : ¬self.session.state = .closed)
    (hl : LimitFloor limit)
    (hs : Sound count limit self.session) (hf : frame.isFrame count = true)
    (h : self.answerable count limit (.frame frame) = true) :
    Kept count limit
      (fun id => ((SessionLabel.frame frame : SessionLabel Unit).requests id).toNat) self
      (self.receive (strictApi count limit words) frame) := by
  cases frame with
  | hello frame => exact receiveHello_kept hs hf
  | req id method params => exact dispatch_kept hn ho hl hs hf h
  | res | err | evt => exact Kept.quiet hs rfl fun _ => rfl
  | cancel id =>
    rw [receive]
    split
    · refine Kept.quiet { hs with requests := ?_ } ?_ fun _ => rfl
      · intro dispatch hd
        obtain ⟨earlier, hea, rfl⟩ := List.mem_map.mp hd
        split <;> exact hs.requests earlier hea
      · refine (List.map_map ..).trans (List.map_congr_left fun dispatch _ => ?_)
        grind
    · exact Kept.quiet hs rfl fun _ => rfl
  | ping => exact trySend_kept hs rfl
  | pong => exact Kept.quiet { hs with } rfl fun _ => rfl
  | close code reason => exact .inl (teardown_state _)

theorem step_kept {label : SessionLabel Unit} (hn : LengthCount count) (hl : LimitFloor limit)
    (hso : Sound count limit self.session) (h : self.answerable count limit label = true)
    (hs : self.step (strictApi count limit words) label = some next) :
    Kept count limit (fun id => (label.requests id).toNat) self next := by
  by_cases ho : self.session.state = .closed
  · exact .inl (step_closed ho hs).1
  cases label with
  | frame frame =>
    obtain ⟨hfr, hs⟩ := Option.ite_none_right_eq_some.mp hs
    cases hs
    exact receive_kept hn ho hl hso hfr h
  | portClosed closure =>
    cases hs
    left
    unfold handlePortClosed
    cases closure <;> exact teardown_state _
  | port | handle | unhandle =>
    cases hs
    exact Kept.quiet { hso with } rfl fun _ => rfl
  | submit frame =>
    obtain ⟨hsu, hs⟩ := Option.ite_none_right_eq_some.mp hs
    cases hs
    refine send_kept hso ?_
    cases frame <;> first | rfl | cases hsu
  | settle id outcome =>
    obtain ⟨dispatch, hf, rfl⟩ := Option.map_eq_some_iff.mp hs
    rw [answerable, hf] at h
    exact settle_kept hn ho hl hso (List.mem_of_find?_eq_some hf) h
  | handshakeTimeout =>
    obtain ⟨-, hs⟩ := Option.ite_none_right_eq_some.mp hs
    cases hs
    unfold handshakeTimeout
    dsimp only
    split
    · exact Kept.quiet { hso with } rfl fun _ => rfl
    · exact .inl (closeNow_state _ _)
  | livenessTick =>
    obtain ⟨-, hs⟩ := Option.ite_none_right_eq_some.mp hs
    cases hs
    unfold livenessTick
    split
    · exact Kept.quiet hso rfl fun _ => rfl
    · split
      · exact .inl (closeNow_state _ _)
      · exact trySend_kept { hso with } rfl
  | closeNow code reason =>
    cases hs
    exact .inl (closeNow_state _ _)

end SessionRun

/-! ### A new session -/

theorem localFrameCeiling_ok {requested portCeiling : Option Nat} {ceiling : Nat}
    (h : localFrameCeiling requested portCeiling = .ok ceiling) :
    LimitFloor portCeiling ∧ ∀ portLimit, portCeiling = some portLimit → ceiling ≤ portLimit := by
  cases portCeiling with
  | none => exact ⟨nofun, nofun⟩
  | some portLimit =>
    unfold localFrameCeiling at h
    cases hp : resolveIntegerAtLeast "port maxFrameBytes" (some portLimit) defaultMaxFrameBytes
        minMaxFrameBytes with
    | error thrown =>
      simp only [hp] at h
      cases h
    | ok resolved =>
      obtain ⟨rfl, hf⟩ := resolveIntegerAtLeast_ok hp
      simp only [hp] at h
      refine ⟨?_, ?_⟩
      · rintro bound ⟨⟩
        exact hf
      · rintro bound ⟨⟩
        cases requested with
        | none =>
          cases h
          exact le_rfl
        | some wanted =>
          cases hw : resolveIntegerAtLeast "maxFrameBytes" (some wanted) defaultMaxFrameBytes
              minMaxFrameBytes with
          | error thrown =>
            simp only [hw] at h
            cases h
          | ok floored =>
            simp only [hw] at h
            cases h
            exact min_le_right _ _

theorem hello_inFlight (h : session.hello.isFrame count = true) :
    session.maxInFlight ≤ maxAnnouncedInFlight := by
  by_cases hd : session.maxInFlight = defaultMaxInFlight
  · rw [hd]
    decide
  · have hl := (Bool.and_eq_true_iff.mp h).2
    simp_all [Limits.mk.injEq, Option.all_some, Limits.isValid, Bool.and_eq_true]

namespace SessionRun

variable {count : JsString → Nat} {limit : Option Nat} {words : Frame → SendThrown}
  {options : SessionOptions}
  {init run : SessionRun Unit} {labels : List (SessionLabel Unit)}

theorem new_kept (hm : (options.protocol.getD protocolVersion).minor < numberBound)
    (hn : new (strictApi count limit words) () options = .ok init) :
    LimitFloor limit ∧ (init.session.state = .closed ∨
      Sound count limit init.session ∧ ∀ id, init.account id = 0) := by
  obtain ⟨ceiling, inFlight, hc, -, rfl⟩ := new_eq hn
  obtain ⟨hf, hw⟩ := localFrameCeiling_ok hc
  refine ⟨hf, ?_⟩
  unfold startHandshake
  dsimp only
  rw [send_thrown]
  cases ha : accepts count limit (Session.initial options ceiling inFlight).hello with
  | false => exact .inl (closeNow_state _ _)
  | true =>
    have hfr : (Session.initial options ceiling inFlight).hello.isFrame count = true :=
      (Bool.and_eq_true_iff.mp ha).1
    rw [send_strict, ha]
    exact .inr ⟨⟨hw, hello_inFlight hfr, hm, nofun, nofun, nofun⟩, fun _ => rfl⟩

/-- A run of a session that is ready at its end, in which the port has room for the refusal of an
id in flight and every handler settles with what can be answered: the answers that the port took and
the handlers that have not settled are as many as the requests, for every id. -/
theorem run_answered (hcount : LengthCount count)
    (hminor : (options.protocol.getD protocolVersion).minor < numberBound)
    (hnew : new (strictApi count limit words) () options = .ok init)
    (hevery : Machine.Every (step (strictApi count limit words))
      (fun run label => run.answerable count limit label = true) init labels)
    (hrun : Machine.run (step (strictApi count limit words)) init labels = some run)
    (hready : run.session.state = .ready) (id : JsString) :
    run.answersTo id + run.unsettled id = labels.countP (SessionLabel.requests id) := by
  have ho : ¬run.session.state = .closed := by
    rw [hready]
    nofun
  obtain ⟨hl, hi⟩ := new_kept hminor hnew
  have ha (state : SessionRun Unit) (label : SessionLabel Unit) (next : SessionRun Unit)
      (hc : state.session.state = .closed)
      (hst : state.step (strictApi count limit words) label = some next) :
      next.session.state = .closed := (step_closed hc hst).1
  rcases hi with hc | ⟨hs, hn⟩
  · exact absurd (Machine.run_invariant _ ha hc hrun) ho
  · have hk (state : SessionRun Unit) (label : SessionLabel Unit) (next : SessionRun Unit)
        (hs : Sound count limit state.session) (hm : state.answerable count limit label = true)
        (hst : state.step (strictApi count limit words) label = some next) :
        next.session.state = .closed ∨ Sound count limit next.session ∧
          next.account id = state.account id + (label.requests id).toNat := by
      rcases step_kept hcount hl hs hm hst with hc | ⟨hne, hac⟩
      · exact .inl hc
      · exact .inr ⟨hne, hac id⟩
    have hf := (hevery.run_account (fun run => run.session.state = .closed)
      (fun run => Sound count limit run.session) (account · id) (SessionLabel.requests id) ha
      hk hs hrun).resolve_left ho
    rw [hn id, Nat.zero_add] at hf
    exact hf

/-! ### A handler and its answers -/

def readFile : JsString := js "fs.read-file"

def servingApi : PortApi Unit := strictApi schemaLength (some 4096) fun _ => .other []

def servingOptions : SessionOptions := { sampleOptions with handlers := [readFile] }

def oneRequest : List (SessionLabel Unit) :=
  [.frame (.hello ⟨protocolVersion, ⟨js "spoke", js "1.0.0", js "spoke"⟩, plainObject [], none⟩),
    .frame (.req (js "r-42") readFile .null)]

/-- The handler returns nothing, and the port takes one answer. -/
theorem run_answered_returned :
    ∃ init run, new servingApi () servingOptions = .ok init ∧
      Machine.run (step servingApi) init
        (oneRequest ++ [.settle (js "r-42") (.returned none)]) = some run ∧
      run.session.state = .ready ∧ run.unsettled (js "r-42") = 0 ∧
      run.answersTo (js "r-42") = 1 := by
  have he : ∃ init run, new servingApi () servingOptions = .ok init ∧
      Machine.run (step servingApi) init
        (oneRequest ++ [.settle (js "r-42") (.returned none)]) = some run ∧
      run.session.state = .ready ∧ run.unsettled (js "r-42") = 0 ∧
      Machine.Every (step servingApi)
        (fun run label => run.answerable schemaLength (some 4096) label = true) init
        (oneRequest ++ [.settle (js "r-42") (.returned none)]) :=
    exists_new (by decide +kernel)
  obtain ⟨init, run, hn, hru, hr, hs, hev⟩ := he
  refine ⟨init, run, hn, hru, hr, hs, ?_⟩
  have ha := run_answered lengthCount_schemaLength (by decide +kernel) hn hev hru hr (js "r-42")
  rw [hs] at ha
  exact ha.trans (by decide +kernel)

/-- The handler throws a `RemoteError` whose code is not one of the protocol: the port takes no
answer, and the session goes on. -/
theorem invalid_code_unanswered :
    ∃ init run, new servingApi () servingOptions = .ok init ∧
      Machine.run (step servingApi) init
        (oneRequest ++ [.settle (js "r-42")
          (.thrown (.remote (js "not_found") (js "no such file") none))]) = some run ∧
      run.session.state = .ready ∧ run.unsettled (js "r-42") = 0 ∧ run.answersTo (js "r-42") = 0 :=
  exists_new (by decide +kernel)

end SessionRun

end MangoProtocol.TypeScript
