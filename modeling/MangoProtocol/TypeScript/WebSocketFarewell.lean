import MangoProtocol.TypeScript.ChunkAgreement
import MangoProtocol.TypeScript.CloseFrame

/-! The farewell of the WebSocket port of the TypeScript package.  The port gives the reason to the
codec as it is, and a farewell that the codec refuses is not sent: a `close` frame goes out if and
only if there is no reason or the frame carries the reason whole. -/

namespace MangoProtocol.TypeScript

/-! ### The line of the farewell as the package reads it -/

section Line

variable {parse : String → Nat → Except CodecError Frame} {code limit : Nat}
  {reason : Option JsString}

theorem closeLine_head (code : Nat) (reason : Option JsString) :
    ∃ rest, closeLine code reason = 123 :: rest := by
  rw [closeLine, closeLine_front]
  exact ⟨_, rfl⟩

theorem blankLine_brace (rest : List UInt8) : blankLine (decodeText (123 :: rest)) = false := by
  have hc : (decodeText (123 :: rest)).toList = '\x7b' :: lossyChars rest.length rest := by
    rw [decodeText, fromUtf8Lossy, String.toList_ofList, List.length_cons, lossyChars,
      decodeCharLossy_one rest (by decide)]
    rfl
  rw [blankLine, hc]
  rfl

theorem decodeLine_closeLine (hf : (closeLine code reason).length ≤ limit) :
    decodeLine parse (closeLine code reason) limit =
      parse (decodeText (closeLine code reason)) (closeLine code reason).length := by
  have hl : (closeLine code reason).getLast? = some 125 := by
    rw [closeLine, closeLine_back, List.getLast?_concat]
  have hs : stripCarriageReturn (closeLine code reason) = closeLine code reason := by
    rw [stripCarriageReturn, hl]
    rfl
  have hb : blankLine (decodeText (closeLine code reason)) = false := by
    obtain ⟨rest, hr⟩ := closeLine_head code reason
    rw [hr]
    exact blankLine_brace rest
  simp only [decodeLine, decodeRecord, hs, hb, if_neg (Nat.not_lt.mpr hf)]
  rfl

end Line

/-! ### The farewell -/

/-- A reason that `Value.Check` takes for a short one has less than `2 ^ 32` code units, as every
string of an engine has.  By code points or code units it has at most 2048. -/
def Bounded (count : JsString → Nat) (reason : Option JsString) : Prop :=
  ∀ given, reason = some given → count given ≤ closeReasonMaxLength → given.length < 2 ^ 32

theorem closeLine_length_le {count : JsString → Nat} {code limit : Nat} {reason : Option JsString}
    (hb : Bounded count reason) (hc : isCloseCode code = true)
    (hca : ∀ given, reason = some given → Carries count limit code given) :
    (closeLine code reason).length ≤ 2 ^ 42 := by
  cases reason with
  | none => exact (closeLine_none_length hc).trans (by decide)
  | some given =>
    have hes := escapedSize_le given
    have hsc := schemaLength_le given
    have hs := hb given rfl (hca given rfl).short
    have hd : code.repr.length ≤ 4 := repr_length_le (by decide) (code_lt hc)
    have hf : (utf8 "\x7b\"type\":\"close\",\"code\":").length = 23 := by decide +kernel
    have hr : (utf8 ",\"reason\":").length = 10 := by decide +kernel
    have hba : (utf8 "\x7d").length = 1 := by decide +kernel
    simp only [closeLine, Option.elim_some, List.length_append, decimal_length, quoted_length,
      hf, hr, hba]
    omega

/-- By code points, every reason is bounded. -/
theorem bounded_schemaLength (reason : Option JsString) : Bounded schemaLength reason := by
  intro given _ hs
  have hl := length_le_schemaLength given
  simp only [closeReasonMaxLength] at hs
  omega

def Reassembles {limit : Nat} (atLeast : minMaxFrameBytes ≤ limit)
    (parse : String → Nat → Except CodecError Frame) (messages : List (List UInt8))
    (frame : Frame) : Prop :=
  ∃ held, ((ChunkReassembler.new limit atLeast).run (decodeLine parse) messages).2 =
    List.replicate held (.ok none) ++ [.ok (some frame)]

namespace WebSocketPort

variable {count : JsString → Nat} {describe : Frame → String}
  {parse : String → Nat → Except CodecError Frame} {port : WebSocketPort Frame} {code : Nat}
  {reason : Option JsString}

theorem pump_sent (queue : List (List UInt8)) (queuedBytes : Nat) {verdicts : Verdicts}
    (hs : ∀ verdict ∈ verdicts, verdict.getD .sent = .sent) :
    (pump queuedBytes queue verdicts).handed = queue ∧
      (pump queuedBytes queue verdicts).stop = .empty := by
  induction queue generalizing queuedBytes verdicts with
  | nil => exact ⟨rfl, rfl⟩
  | cons message queue ih =>
    have hn : verdicts.next = .sent := by
      cases verdicts with
      | nil => rfl
      | cons verdict verdicts => exact hs verdict List.mem_cons_self
    obtain ⟨hh, hst⟩ := @ih (queuedBytes - message.length) verdicts.tail
      fun verdict hv => hs verdict (List.mem_of_mem_tail hv)
    rw [pump, hn]
    exact ⟨congrArg (message :: ·) hh, hst⟩

theorem flush_sent (port : WebSocketPort Frame) (hopen : port.isOpen = true)
    (hr : port.paused = false) {verdicts : Verdicts}
    (hs : ∀ verdict ∈ verdicts, verdict.getD .sent = .sent) :
    (port.flush verdicts).1.isOpen = true ∧ (port.flush verdicts).2 = port.queue.map .handed := by
  obtain ⟨hh, hst⟩ := pump_sent port.queue port.queuedBytes hs
  rw [flush, if_pos ⟨hopen, by simp [hr]⟩]
  simp only [hst, hh, List.append_nil]
  exact ⟨hopen, trivial⟩

theorem encode_cutLine (ceiling : minMaxMessageBytes ≤ port.ceiling) (frame : Frame) :
    port.encode (Frame.format count describe parse) frame =
      (encodeFrameBytes (Frame.serialise count describe) frame (some port.maxFrameBytes)).map
        (cutLine port.ceiling) := by
  have hc : resolveMessageCeiling port.maxMessageBytes = .ok port.ceiling :=
    if_neg (Nat.not_lt.mpr ceiling)
  rw [encode, encodeChunks, chunkOptions, hc]
  rfl

theorem farewell_carried (atLeast : minMaxFrameBytes ≤ port.maxFrameBytes)
    (ceiling : minMaxMessageBytes ≤ port.ceiling) (hc : isCloseCode code = true)
    (hca : ∀ given, reason = some given → Carries count port.maxFrameBytes code given) :
    port.farewell (Frame.format count describe parse) code reason =
      some (cutLine port.ceiling (closeLine code reason)) := by
  have he : encodeFrameBytes (Frame.serialise count describe) (.close code reason)
      (some port.maxFrameBytes) = .ok (closeLine code reason) :=
    (encodeFrameBytes_close atLeast hc).mpr ⟨hca, rfl⟩
  rw [farewell, if_neg (not_not_intro hc), encode_cutLine ceiling]
  exact congrArg (fun encoded => (Except.map (cutLine port.ceiling) encoded).toOption) he

theorem farewell_refused (atLeast : minMaxFrameBytes ≤ port.maxFrameBytes)
    (ceiling : minMaxMessageBytes ≤ port.ceiling) (hc : isCloseCode code = true)
    (hr : ¬∀ given, reason = some given → Carries count port.maxFrameBytes code given) :
    port.farewell (Frame.format count describe parse) code reason = none := by
  rw [farewell, if_neg (not_not_intro hc), encode_cutLine ceiling]
  cases he : encodeFrameBytes (Frame.serialise count describe)
      ((Frame.format count describe parse).closeFrame code reason) (some port.maxFrameBytes) with
  | error thrown => rfl
  | ok bytes => exact absurd ((encodeFrameBytes_close atLeast hc).mp he).1 hr

section Close

variable {format : FrameFormat Frame} {verdicts : Verdicts} (hopen : port.isOpen = true)

include hopen

theorem close_actions {parted : WebSocketPort Frame × List (PortAction Frame)}
    (hp : port.takeLeave format code reason verdicts = parted)
    (hs : parted.1.isOpen = true) :
    (port.close format code reason verdicts).2 =
      parted.2 ++ [.hangUp code (clampCloseReason reason)] := by
  simp only [close, hp]
  rw [if_neg (not_not_intro hopen), if_neg (not_not_intro hs)]

theorem close_refused (hs : port.sendCloseFrame = true)
    (hf : port.farewell format code reason = none) :
    (port.close format code reason verdicts).2 = [.hangUp code (clampCloseReason reason)] := by
  have hp : port.takeLeave format code reason verdicts =
      ({ port with ownerClosed := true }, []) := by
    have ho : ({ port with ownerClosed := true } : WebSocketPort Frame).farewell format code
        reason = none := hf
    simp only [takeLeave, sendFarewell, ho]
    rw [if_pos hs]
  exact close_actions hopen hp hopen

theorem close_carried (hr : port.paused = false) (hs : port.sendCloseFrame = true)
    (hse : ∀ verdict ∈ verdicts, verdict.getD .sent = .sent) {messages : List (List UInt8)}
    (hf : port.farewell format code reason = some messages) :
    (port.close format code reason verdicts).2 =
      (port.queue ++ messages).map .handed ++ [.hangUp code (clampCloseReason reason)] := by
  have hp : port.takeLeave format code reason verdicts =
      { port with ownerClosed := true }.enqueue messages verdicts := by
    have ho : ({ port with ownerClosed := true } : WebSocketPort Frame).farewell format code
        reason = some messages := hf
    simp only [takeLeave, sendFarewell, ho]
    rw [if_pos hs]
  obtain ⟨hst, hh⟩ := flush_sent { port with
    ownerClosed := true
    queue := port.queue ++ messages
    queuedBytes := port.queuedBytes + (messages.map List.length).sum } hopen hr hse
  rw [close_actions hopen hp hst]
  exact congrArg (· ++ _) hh

end Close

/-- The sink is handed messages that reassemble to a `close` frame with the code before the socket
is closed, behind the messages that waited. -/
def Announces (actions : List (PortAction Frame)) {limit : Nat} (atLeast : minMaxFrameBytes ≤ limit)
    (parse : String → Nat → Except CodecError Frame) (code : Nat) (reason : Option JsString) :
    Prop :=
  ∃ earlier messages kept, actions =
      (earlier ++ messages).map .handed ++ [.hangUp code (clampCloseReason reason)] ∧
    Reassembles atLeast parse messages (.close code kept)

theorem not_announces {limit : Nat} {atLeast : minMaxFrameBytes ≤ limit} :
    ¬Announces [.hangUp code (clampCloseReason reason)] atLeast parse code reason := by
  rintro ⟨earlier, messages, kept, ha, held, hr⟩
  have hn : (earlier ++ messages).map PortAction.handed = ([] : List (PortAction Frame)) :=
    List.append_left_eq_self.mp ha.symm
  obtain ⟨-, rfl⟩ := List.append_eq_nil_iff.mp (List.map_eq_nil_iff.mp hn)
  exact absurd hr.symm (by simp [ChunkReassembler.run])

/-- An open port that sends close frames and is not paused, and whose sink takes every message,
announces the code in a `close` frame if and only if there is no reason or such a frame carries the
reason. -/
theorem close_announces_iff {verdicts : Verdicts}
    (atLeast : minMaxFrameBytes ≤ port.maxFrameBytes)
    (ceiling : minMaxMessageBytes ≤ port.maxMessageBytes.getD defaultMaxMessageBytes)
    (hopen : port.isOpen = true) (hrunning : port.paused = false)
    (hsends : port.sendCloseFrame = true) (hcode : isCloseCode code = true)
    (hbounded : Bounded count reason) (hsent : ∀ verdict ∈ verdicts, verdict.getD .sent = .sent)
    (reads : (Frame.close code reason).isFrame count = true →
      parse (decodeText (closeLine code reason)) (closeLine code reason).length =
        .ok (.close code reason)) :
    Announces (port.close (Frame.format count describe parse) code reason verdicts).2 atLeast
        parse code reason ↔
      ∀ given, reason = some given → Carries count port.maxFrameBytes code given := by
  constructor
  · intro ha
    by_contra hr
    rw [close_refused hopen hsends (farewell_refused atLeast ceiling hcode hr)] at ha
    exact not_announces ha
  · intro hc
    refine ⟨port.queue, _, reason, close_carried hopen hrunning hsends hsent
      (farewell_carried atLeast ceiling hcode hc), ?_⟩
    have hf := closeLine_fits atLeast hcode hc
    have hfr : (Frame.close code reason).isFrame count = true :=
      (isFrame_close hcode).mpr fun given hg => (hc given hg).short
    obtain ⟨rest, hh⟩ := closeLine_head code reason
    refine run_cutLine ceiling atLeast (closeLine_length_le hbounded hcode hc) ?_ hf ?_
    · rw [hh]
      exact List.cons_ne_nil _ _
    · rw [decodeLine_closeLine hf]
      exact reads hfr

theorem close_announces_iff_bye :
    ∃ port : WebSocketPort Frame, WebSocketPort.new smallOptions = .ok port ∧
      ∃ atLeast : minMaxFrameBytes ≤ port.maxFrameBytes,
        Announces (port.close (Frame.format schemaLength (fun _ => "")
            fun _ _ => .ok (.close 4401 (some (js "bye")))) 4401
            (some (js "bye")) [some .sent]).2 atLeast
          (fun _ _ => .ok (.close 4401 (some (js "bye")))) 4401
          (some (js "bye")) := by
  refine ⟨_, rfl, by decide, ?_⟩
  refine (close_announces_iff (by decide) (by decide) rfl rfl rfl (by decide)
    (bounded_schemaLength _) ?_ ?_).mpr ?_
  · intro verdict hv
    cases List.mem_singleton.mp hv
    rfl
  · exact fun _ => rfl
  · intro given hg
    cases hg
    exact ⟨by decide +kernel, by decide +kernel⟩

/-- A reason with one letter too many. -/
def longReason : JsString := List.replicate 1025 120

/-- The socket is closed without a farewell. -/
theorem long_reason_unannounced : schemaLength longReason = 1025 ∧
    ∃ port : WebSocketPort Frame, WebSocketPort.new smallOptions = .ok port ∧
      port.isOpen = true ∧ port.paused = false ∧ port.sendCloseFrame = true ∧
      isCloseCode 4401 = true ∧ ∃ atLeast : minMaxFrameBytes ≤ port.maxFrameBytes,
      ∀ (count : JsString → Nat) (describe : Frame → String)
        (parse : String → Nat → Except CodecError Frame) (verdicts : Verdicts),
        count longReason = 1025 →
        (port.close (Frame.format count describe parse) 4401 (some longReason) verdicts).2 =
            [.hangUp 4401 (clampCloseReason (some longReason))] ∧
          ¬Announces (port.close (Frame.format count describe parse) 4401
            (some longReason) verdicts).2
            atLeast parse 4401 (some longReason) := by
  obtain ⟨port, hn, hopen, hru, hs, atLeast, ceiling⟩ : ∃ port : WebSocketPort Frame,
      WebSocketPort.new smallOptions = .ok port ∧ port.isOpen = true ∧ port.paused = false ∧
        port.sendCloseFrame = true ∧ minMaxFrameBytes ≤ port.maxFrameBytes ∧
        minMaxMessageBytes ≤ port.ceiling :=
    ⟨_, rfl, rfl, rfl, rfl, by decide, by decide⟩
  have hc : isCloseCode 4401 = true := by decide
  refine ⟨by decide +kernel, port, hn, hopen, hru, hs, hc, atLeast,
    fun count describe parse verdicts hl => ?_⟩
  have hr : ¬∀ given, some longReason = some given → Carries count port.maxFrameBytes 4401 given :=
    fun hca => absurd (hca longReason rfl).short (by rw [hl]; decide)
  rw [close_refused hopen hs (farewell_refused atLeast ceiling hc hr)]
  exact ⟨rfl, not_announces⟩

end WebSocketPort

end MangoProtocol.TypeScript
