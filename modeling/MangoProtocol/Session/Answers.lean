import MangoProtocol.Session.AnswerSize

/-! What a settled handler sends: the one frame that answers its request, and when a port can take
it. -/

namespace MangoProtocol

variable {H : Type} {config : Config}

/-- A port takes the frame: it is valid and within the negotiated limit. -/
def Shared.Sendable (config : Config) (shared : Shared H) (frame : Frame) : Prop :=
  ∃ bytes, encodeFrameBytes config.platform frame (shared.sendLimitBytes config) = .ok bytes

structure Shared.Greeted (config : Config) (shared : Shared H) (remote : RemotePeer) : Prop where
  ready : shared.readyRemote = some remote
  hello : ∃ hello, validate config.platform (.hello hello) = .ok () ∧ hello.limits = remote.limits

section Limit

variable {shared : Shared H} {remote : RemotePeer} {frame : Frame}

theorem Shared.readyRemote_eq_some (h : shared.readyRemote = some remote) :
    shared.remote = some remote := by
  unfold readyRemote at h
  split at h
  · exact h
  · cases h

theorem Shared.Greeted.limit_ge (h : shared.Greeted config remote) :
    minMaxFrameBytes ≤ shared.sendLimitBytes config := by
  obtain ⟨hello, hv, hli⟩ := h.hello
  refine le_min config.frameFloor ?_
  rw [remoteLimit, readyRemote_eq_some h.ready, Option.bind_some]
  cases hl : remote.limits with
  | none => decide
  | some limits =>
    have hr := (validateLimits_eq_ok.mp
      (validate_hello_limits hv limits (by rw [hli, hl]; rfl))).1
    rw [Option.bind_some]
    cases hb : limits.maxFrameBytes with
    | none => decide
    | some bytes => exact (hr bytes (by rw [hb]; rfl)).1

theorem Shared.sendLimitBytes_le (config : Config) (shared : Shared H) :
    shared.sendLimitBytes config ≤ usizeMax :=
  (min_le_left _ _).trans config.frameWord

theorem Shared.Greeted.sendable_iff (h : shared.Greeted config remote) :
    shared.Sendable config frame ↔
      validate config.platform frame = .ok () ∧
        frame.toVec.length ≤ shared.sendLimitBytes config := by
  constructor
  · rintro ⟨bytes, hb⟩
    obtain ⟨-, hv, hf, -⟩ := encodeFrameBytes_eq_ok.mp hb
    exact ⟨hv, hf⟩
  · rintro ⟨hv, hf⟩
    exact ⟨frame.toVec, encodeFrameBytes_eq_ok.mpr ⟨h.limit_ge, hv, hf, rfl⟩⟩

end Limit

/-! ### Error frames -/

/-- The answer with an error can be sent when its code is one, its message is not empty and the
bytes of the two, of the id and of the details are within the limit. -/
structure ErrorFits (limit : Nat) (id : String) (error : RemoteError) : Prop where
  code : isValidErrorCode error.code = true
  message : error.message ≠ ""
  size : answerBytes id error ≤ limit

section Errors

variable {shared : Shared H} {remote : RemotePeer} {id : String}

theorem Shared.Greeted.sendable_errorFrame_iff (h : shared.Greeted config remote)
    (hp : 1 ≤ id.length) (hid : id.length ≤ maxIdChars) (error : RemoteError) :
    shared.Sendable config (errorFrame id error) ↔
      ErrorFits (shared.sendLimitBytes config) id error := by
  rw [h.sendable_iff, errorFrame_length, errorFrame, validate_err]
  constructor
  · rintro ⟨⟨-, hc, hm, -⟩, hs⟩
    refine ⟨hc, ?_, hs⟩
    rintro he
    simp [he] at hm
  · rintro ⟨hc, hm, hs⟩
    have hl := length_le_escape error.message
    have hw := shared.sendLimitBytes_le config
    refine ⟨⟨⟨hp, hid⟩, hc, ?_, ?_⟩, hs⟩
    · exact Nat.one_le_iff_ne_zero.mpr fun hz => hm (String.length_eq_zero_iff.mp hz)
    · simp only [answerBytes] at hs ⊢
      omega

theorem Shared.Greeted.errorFits (h : shared.Greeted config remote) (hid : id.length ≤ maxIdChars)
    {error : RemoteError} (hc : isValidErrorCode error.code = true) (hm : error.message ≠ "")
    (hw : error.weight ≤ 2492) : ErrorFits (shared.sendLimitBytes config) id error :=
  ⟨hc, hm, (answer_fits hid hw).trans h.limit_ge⟩

end Errors

/-! ### Results -/

theorem Shared.frameTooLargeError_weight {what : String} {bytes limit : Nat}
    (hw : what.length ≤ 144)
    (hby : bytes ≤ usizeMax) (hli : limit ≤ usizeMax) :
    (frameTooLargeError what bytes limit).weight ≤ 2492 := by
  refine le_trans (RemoteError.weight_u64_le _ _ (RemoteError.weight_u64_le _ _ le_rfl)) ?_
  have he := escape_length_le what
  have hes := escape_length_le bytes.repr
  have hesc := escape_length_le limit.repr
  have hd := repr_length_le hby
  have hdi := repr_length_le hli
  obtain ⟨ht, hte, htex⟩ : (escape " encodes to ").length = 12 ∧
      (escape " bytes; the session limit is ").length = 29 ∧ (escape " bytes.").length = 7 := by
    decide
  obtain ⟨hc, hb, hl⟩ : (escape codes.frameTooLarge).length = 15 ∧
      (escape "bytes").length = 5 ∧ (escape "limit").length = 5 := by decide
  simp only [RemoteError.weight_new, escape_append, List.length_append, ht, hte, htex, hc, hb, hl]
  omega

theorem Shared.frameTooLargeError_message (what : String) (bytes limit : Nat) :
    (frameTooLargeError what bytes limit).message ≠ "" := by
  intro he
  have hl := congrArg String.length he
  simp [frameTooLargeError, RemoteError.withDetail, RemoteError.new] at hl

theorem Shared.Greeted.assertFits_valid {shared : Shared H} {remote : RemotePeer} {frame : Frame}
    (h : shared.Greeted config remote) (hv : validate config.platform frame = .ok ())
    (what : String) :
    shared.assertFits config frame what =
      if frame.toVec.length ≤ shared.sendLimitBytes config then .ok ()
      else .error (frameTooLargeError what frame.toVec.length (shared.sendLimitBytes config)) := by
  have hl := Nat.not_lt.mpr h.limit_ge
  simp only [assertFits, encodeFrameBytes, checkedAtLeast, if_neg hl, hv]
  by_cases hf : frame.toVec.length ≤ shared.sendLimitBytes config
  · rw [if_neg (Nat.not_lt.mpr hf), if_pos hf]
  · rw [if_pos (Nat.lt_of_not_le hf), if_neg hf]
    rfl

/-! ### The answer of a handler -/

def ActiveRequest.Accepted (config : Config) (id : String) (request : ActiveRequest) : Prop :=
  ∃ line maxFrameBytes params,
    decodeLine config.platform line maxFrameBytes = .ok (.req ⟨id, request.method, params⟩)

theorem ActiveRequest.Accepted.bounds {id : String} {request : ActiveRequest}
    (h : request.Accepted config id) :
    1 ≤ id.length ∧ id.length ≤ maxIdChars ∧ request.method.length ≤ maxNameChars := by
  obtain ⟨line, maxFrameBytes, params, ha⟩ := h
  obtain ⟨⟨hp, hid⟩, hn⟩ := validate_req.mp (decodeLine_valid ha)
  exact ⟨hp, hid, isValidMethodName_length hn⟩

/-- When the answer to a settled handler can be sent.  Only errors can fail to be: what a handler
returns as one, and the text that it panicked with. -/
def Settled.AnswerFits (limit : Nat) (id : String) : Settled → Prop
  | .returned (.ok _) | .panicked .other | .aborted => True
  | .returned (.error error) => ErrorFits limit id error
  | .panicked (.str message) | .panicked (.string message) =>
    ErrorFits limit id (.new codes.internal message)

namespace Session

variable {self : Session H} {remote : RemotePeer} {id method : String}

theorem respondResult_sendable (greeted : self.shared.Greeted config remote)
    (hp : 1 ≤ id.length) (hid : id.length ≤ maxIdChars) (hm : method.length ≤ maxNameChars)
    {value : Value} (hw : (Frame.res ⟨id, value⟩).toVec.length ≤ usizeMax) :
    ∃ frame,
      (self.respondResult config method id value).writer.sent = self.writer.sent ++ [frame] ∧
        self.shared.Sendable config frame := by
  have hv : validate config.platform (.res ⟨id, value⟩) = .ok () :=
    validate_res.mpr ⟨hp, hid⟩
  simp only [respondResult, greeted.assertFits_valid hv]
  by_cases hf : (Frame.res ⟨id, value⟩).toVec.length ≤ self.shared.sendLimitBytes config
  · rw [if_pos hf]
    exact ⟨_, rfl, greeted.sendable_iff.mpr ⟨hv, hf⟩⟩
  · rw [if_neg hf]
    refine ⟨_, rfl, (greeted.sendable_errorFrame_iff hp hid _).mpr ?_⟩
    have hc : isValidErrorCode codes.frameTooLarge = true := by decide
    refine greeted.errorFits hid hc ?_
      (Shared.frameTooLargeError_weight ?_ hw (self.shared.sendLimitBytes_le config))
    · exact Shared.frameTooLargeError_message _ _ _
    · obtain ⟨ht, hte⟩ : "The result of \"".length = 15 ∧ "\"".length = 1 := by decide
      simp only [String.length_append, ht, hte]
      simp only [maxNameChars] at hm
      omega

theorem onHandlerSettled_error {task : TaskId} {request : ActiveRequest} {settled : Settled}
    {error : RemoteError} (ht : self.tracking.byTaskId.lookup task = some id)
    (ha : self.tracking.active.lookup id = some request)
    (ho : outcomeOf settled = .error error) :
    (self.onHandlerSettled config task settled).writer.sent =
      self.writer.sent ++ [errorFrame id error] := by
  simp only [self.onHandlerSettled_eq config settled ht ha, ho]
  rfl

/-- A settled handler is answered with one frame.  It can be sent unless it carries an error of the
application's choosing with an invalid code, an empty message or too many bytes. -/
theorem onHandlerSettled_sendable_iff {task : TaskId} {request : ActiveRequest} {settled : Settled}
    (greeted : self.shared.Greeted config remote)
    (htask : self.tracking.byTaskId.lookup task = some id)
    (hactive : self.tracking.active.lookup id = some request)
    (accepted : request.Accepted config id)
    (word : ∀ value, settled = .returned (.ok value) →
      (Frame.res ⟨id, value⟩).toVec.length ≤ usizeMax) :
    ∃ frame,
      (self.onHandlerSettled config task settled).writer.sent = self.writer.sent ++ [frame] ∧
        (self.shared.Sendable config frame ↔
          settled.AnswerFits (self.shared.sendLimitBytes config) id) := by
  obtain ⟨hp, hid, hm⟩ := accepted.bounds
  have hs := greeted.sendable_errorFrame_iff hp hid
  have hi : isValidErrorCode codes.internal = true := by decide
  rcases settled with ⟨error | value⟩ | ⟨message | message | _⟩ | _
  case returned.error => exact ⟨_, onHandlerSettled_error htask hactive rfl, hs error⟩
  case returned.ok =>
    have hg : (self.release task id).shared.Greeted config remote :=
      ⟨greeted.ready, greeted.hello⟩
    obtain ⟨frame, hse, hf⟩ :=
      respondResult_sendable hg hp hid hm (word value rfl)
    refine ⟨frame, ?_, iff_of_true hf trivial⟩
    rw [self.onHandlerSettled_eq config _ htask hactive]
    exact hse
  case panicked.str => exact ⟨_, onHandlerSettled_error htask hactive rfl, hs _⟩
  case panicked.string => exact ⟨_, onHandlerSettled_error htask hactive rfl, hs _⟩
  case panicked.other =>
    refine ⟨_, onHandlerSettled_error htask hactive rfl, iff_of_true ((hs _).mpr ?_) trivial⟩
    exact greeted.errorFits hid hi (by decide) (by decide)
  case aborted =>
    refine ⟨_, onHandlerSettled_error htask hactive rfl, iff_of_true ((hs _).mpr ?_) trivial⟩
    exact greeted.errorFits hid hi (by decide) (by decide)

theorem greeted_answering (frames : List Frame) (request : Request) :
    (answering request).shared.Greeted (sampleConfig frames)
      ⟨sampleHello.peer, protocolVersion, .empty, none, 1⟩ where
  ready := rfl
  hello := ⟨sampleHello, rfl, rfl⟩

/-- A handler whose error has a code in lower case, and one that panics with an empty text. -/
theorem onHandlerSettled_not_sendable :
    let config := sampleConfig [.req (clockRequest "r-1")]
    let session := answering (clockRequest "r-1")
    let error := RemoteError.new "not_found" "No such clock."
    let empty := RemoteError.new codes.internal ""
    session.tracking.byTaskId.lookup 0 = some "r-1" ∧
      (session.tracking.active.lookup "r-1").isSome ∧
      (∃ remote, session.shared.Greeted config remote) ∧
      (session.onHandlerSettled config 0 (.returned (.error error))).writer.sent =
        [errorFrame "r-1" error] ∧
      ¬session.shared.Sendable config (errorFrame "r-1" error) ∧
      (session.onHandlerSettled config 0 (.panicked (.str ""))).writer.sent =
        [errorFrame "r-1" empty] ∧
      ¬session.shared.Sendable config (errorFrame "r-1" empty) := by
  intro config session error empty
  have greeted := greeted_answering [.req (clockRequest "r-1")] (clockRequest "r-1")
  have hs (error : RemoteError) :
      session.shared.Sendable config (errorFrame "r-1" error) ↔ ErrorFits 4096 "r-1" error :=
    greeted.sendable_errorFrame_iff (by decide) (by decide) error
  refine ⟨rfl, rfl, ⟨_, greeted⟩, rfl, ?_, rfl, ?_⟩
  · rw [hs]
    rintro ⟨hc, -, -⟩
    revert hc
    decide
  · rw [hs]
    exact fun h => h.message rfl

/-- An ordinary error of a handler. -/
theorem onHandlerSettled_sendable_iff_sample :
    let config := sampleConfig [.req (clockRequest "r-1")]
    let session := answering (clockRequest "r-1")
    let settled := Settled.returned (.error (.new "NOT_FOUND" "No such clock."))
    ∃ frame, (session.onHandlerSettled config 0 settled).writer.sent = [frame] ∧
      (session.shared.Sendable config frame ↔ settled.AnswerFits 4096 "r-1") :=
  onHandlerSettled_sendable_iff (greeted_answering _ (clockRequest "r-1")) rfl rfl
    ⟨_, _, _, decodeLine_clockRequest (by decide) (by decide)⟩ (by simp)

end Session

end MangoProtocol
