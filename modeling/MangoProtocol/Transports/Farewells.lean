import MangoProtocol.Codec.Limits
import MangoProtocol.Session.AnswerSize
import MangoProtocol.Transports.SocketWriter

/-! The farewell of the two transports of the Rust crate.  Whatever the reason, the close frame goes
out with its code: as a line or as chunk messages, and with as much of the reason as the schema and
the frame limit allow. -/

namespace MangoProtocol

open ProofKit

def farewellLine (platform : Platform) (maxFrameBytes : Nat) (code : UInt16)
    (reason : Option String) : Option (List UInt8) :=
  match encodeLine platform (.close ⟨code, reason.map clampReason⟩) maxFrameBytes with
  | .ok line => some line
  | .error _ => (encodeLine platform (.close ⟨code, none⟩) maxFrameBytes).toOption

def firstChars (reason : String) : String := String.ofList (reason.toList.take maxReasonChars)

theorem clampReason_eq (reason : String) : clampReason reason = firstChars reason := by
  unfold clampReason firstChars
  split
  · grind [String.length_toList, List.take_of_length_le, String.ofList_toList]
  · rfl

theorem firstChars_length (reason : String) :
    (firstChars reason).length = min maxReasonChars reason.length := by
  rw [firstChars, String.length_ofList, List.length_take, String.length_toList]

variable {options : WebSocketOptions} {platform : Platform} {frame : Frame} {code : UInt16}

theorem validate_farewell (platform : Platform) (hcode : minCloseCode ≤ code ∧ code ≤ maxCloseCode)
    (reason : Option String) :
    validate platform (.close ⟨code, reason.map clampReason⟩) = .ok () := by
  simp only [validate, validateClose, check_bind_eq_ok, require_eq_ok, Bool.and_eq_true,
    decide_eq_true_eq]
  refine ⟨hcode, ?_⟩
  cases reason with
  | none => rfl
  | some reason =>
    rw [Option.map_some, clampReason_eq]
    simp [checkLength_eq_ok, firstChars_length]

theorem close_length_le (code : UInt16) (reason : Option String) :
    (Frame.close ⟨code, reason⟩).toVec.length ≤
      150 + ((reason.map fun reason => (escape reason).length).getD 0) := by
  have ht : (escape "type").length = 4 := rfl
  have hc : (escape "close").length = 5 := rfl
  have hcode : (escape "code").length = 4 := rfl
  have hr : (escape "reason").length = 6 := rfl
  have hv : (Json.u64 code.toUInt64).toVec.length ≤ 80 := u64_toVec_length_le code.toUInt64
  cases reason <;>
  · simp only [Frame.toVec, Frame.serialize, Frame.typeName, Frame.members, optional,
      object_length_cons, List.map_cons, List.map_nil, List.sum_cons, List.sum_nil, memberBytes,
      string_toVec_length, ht, hc, hcode, hr, Option.map_none, Option.map_some,
      Option.getD_none, Option.getD_some]
    omega

/-- The close frame of a farewell: with the first characters of its reason, or without a reason if
that record exceeds the frame limit. -/
def partingClose (maxFrameBytes : Nat) (code : UInt16) (reason : Option String) : Close :=
  if (Frame.close ⟨code, reason.map firstChars⟩).toVec.length ≤ maxFrameBytes then
    ⟨code, reason.map firstChars⟩
  else ⟨code, none⟩

theorem partingClose_code (maxFrameBytes : Nat) (code : UInt16) (reason : Option String) :
    (partingClose maxFrameBytes code reason).code = code := by
  unfold partingClose
  split <;> rfl

theorem partingClose_short (maxFrameBytes : Nat) (code : UInt16) (reason : Option String) :
    (Frame.close (partingClose maxFrameBytes code reason)).toVec.length ≤ 2 ^ 42 := by
  unfold partingClose
  split
  · have hl := close_length_le code (reason.map firstChars)
    cases reason with
    | none => grind
    | some reason =>
      rw [Option.map_some, Option.map_some, Option.getD_some] at hl
      have hes := escape_length_le (firstChars reason)
      have hc : (firstChars reason).length ≤ 1024 := by
        rw [firstChars_length]
        exact min_le_left _ _
      rw [Option.map_some]
      omega
  · exact (close_length_le code none).trans (by decide)

section Farewell

variable (platform : Platform) {maxFrameBytes : Nat} {code : UInt16}
  (floor : minMaxFrameBytes ≤ maxFrameBytes) (hcode : minCloseCode ≤ code ∧ code ≤ maxCloseCode)
  (reason : Option String)

include floor hcode

theorem encode_clamped {bytes : List UInt8} :
    encodeFrameBytes platform (.close ⟨code, reason.map clampReason⟩) maxFrameBytes = .ok bytes ↔
      (Frame.close ⟨code, reason.map firstChars⟩).toVec.length ≤ maxFrameBytes ∧
        bytes = (Frame.close ⟨code, reason.map firstChars⟩).toVec := by
  have hc : reason.map clampReason = reason.map firstChars :=
    Option.map_congr fun text _ => clampReason_eq text
  rw [encodeFrameBytes_eq_ok, ← hc]
  simp only [floor, validate_farewell platform hcode reason, true_and]

theorem encode_bare : encodeFrameBytes platform (.close ⟨code, none⟩) maxFrameBytes =
    .ok (Frame.close ⟨code, none⟩).toVec := by
  have hv := validate_farewell platform hcode none
  rw [Option.map_none] at hv
  refine encodeFrameBytes_eq_ok.mpr ⟨floor, hv, ?_, rfl⟩
  exact (close_length_le code none).trans (le_trans (by decide) floor)

theorem encode_partingClose :
    encodeFrameBytes platform (.close (partingClose maxFrameBytes code reason)) maxFrameBytes =
        .ok (Frame.close (partingClose maxFrameBytes code reason)).toVec ∧
      (partingClose maxFrameBytes code reason = ⟨code, reason.map clampReason⟩ ∨
        partingClose maxFrameBytes code reason = ⟨code, none⟩ ∧
          ∀ bytes, encodeFrameBytes platform (.close ⟨code, reason.map clampReason⟩) maxFrameBytes ≠
            .ok bytes) := by
  have hc : reason.map clampReason = reason.map firstChars :=
    Option.map_congr fun text _ => clampReason_eq text
  unfold partingClose
  split
  · rename_i hf
    have he := (encode_clamped platform floor hcode reason).mpr ⟨hf, rfl⟩
    rw [hc] at he ⊢
    exact ⟨he, .inl rfl⟩
  · rename_i hl
    refine ⟨encode_bare platform floor hcode, .inr ⟨rfl, fun bytes hb => ?_⟩⟩
    exact hl ((encode_clamped platform floor hcode reason).mp hb).1

theorem farewellLine_eq_some : farewellLine platform maxFrameBytes code reason =
    some ((Frame.close (partingClose maxFrameBytes code reason)).toVec ++ [newline]) := by
  obtain ⟨he, hs | ⟨hb, hr⟩⟩ := encode_partingClose platform floor hcode reason
  · rw [farewellLine, ← hs, encodeLine, he]
    rfl
  · rw [hb] at he ⊢
    cases hc : encodeFrameBytes platform (.close ⟨code, reason.map clampReason⟩)
        maxFrameBytes with
    | ok bytes => exact absurd hc (hr bytes)
    | error error =>
      simp only [farewellLine, encodeLine, hc, he]
      rfl

end Farewell

theorem encodeChunks_error {maxMessageBytes maxFrameBytes : Nat}
    (h : ∀ bytes, encodeFrameBytes platform frame maxFrameBytes ≠ .ok bytes) :
    ∃ error, encodeChunks platform frame maxMessageBytes maxFrameBytes = .error error := by
  unfold encodeChunks
  split
  · exact ⟨_, rfl⟩
  · cases hb : encodeFrameBytes platform frame maxFrameBytes with
    | ok bytes => exact absurd hb (h bytes)
    | error error => exact ⟨error, rfl⟩

theorem FrameRun.encode_error {error : CodecError}
    (h : encodeChunks platform frame options.maxMessageBytes options.maxFrameBytes =
      .error error) : FrameRun.encode platform options frame = .error error := by
  unfold FrameRun.encode
  split
  · rename_i hok
    cases h.symm.trans hok
  · rename_i he
    cases h.symm.trans he
    rfl

theorem FrameRun.encode_ok {messages : List (List UInt8)}
    (h : encodeChunks platform frame options.maxMessageBytes options.maxFrameBytes =
      .ok messages) :
    ∃ run, FrameRun.encode platform options frame = .ok run ∧ run.frame = frame := by
  unfold FrameRun.encode
  split
  · exact ⟨_, rfl, rfl⟩
  · rename_i he
    cases h.symm.trans he

theorem farewellMessages_eq_some (platform : Platform)
    (floor : minMaxFrameBytes ≤ options.maxFrameBytes)
    (ceiling : minMaxMessageBytes ≤ options.maxMessageBytes)
    (hcode : minCloseCode ≤ code ∧ code ≤ maxCloseCode) (reason : Option String) :
    ∃ run, farewellMessages platform options code reason = some run ∧
      run.frame = .close (partingClose options.maxFrameBytes code reason) := by
  obtain ⟨he, hw⟩ := encode_partingClose platform floor hcode reason
  have hc := encodeChunks_eq ceiling (partingClose_short _ code reason) he
  obtain ⟨run, hr, hf⟩ := FrameRun.encode_ok hc
  refine ⟨run, ?_, hf⟩
  rcases hw with hs | ⟨hb, hre⟩
  · rw [farewellMessages, ← hs, hr]
  · obtain ⟨error, her⟩ := encodeChunks_error hre
    rw [farewellMessages, FrameRun.encode_error her, ← hb, hr]
    rfl

/-- A close frame as the farewell of a code and a reason: it has the code, and the first characters
of the reason unless that record exceeds the frame limit. -/
structure Close.IsFarewell (maxFrameBytes : Nat) (code : UInt16) (reason : Option String)
    (close : Close) : Prop where
  carries : close.code = code
  text : close.reason = reason.map firstChars ∨
    close.reason = none ∧
      maxFrameBytes < (Frame.close ⟨code, reason.map firstChars⟩).toVec.length

theorem partingClose_isFarewell (maxFrameBytes : Nat) (code : UInt16) (reason : Option String) :
    (partingClose maxFrameBytes code reason).IsFarewell maxFrameBytes code reason := by
  refine ⟨partingClose_code maxFrameBytes code reason, ?_⟩
  unfold partingClose
  split
  · exact .inl rfl
  · rename_i hl
    exact .inr ⟨rfl, Nat.not_le.mp hl⟩

/-- Both transports send the farewell with its code, and the peer decodes the same close frame from
the line and from the messages; the reason of a native close is the longest that is allowed. -/
theorem farewell_carries_code (platform : Platform) {options : WebSocketOptions}
    {receiverMessageBytes : Nat} {code : UInt16}
    (floor : minMaxFrameBytes ≤ options.maxFrameBytes)
    (ceiling : minMaxMessageBytes ≤ options.maxMessageBytes)
    (receiverCeiling : minMaxMessageBytes ≤ receiverMessageBytes)
    (hcode : minCloseCode ≤ code ∧ code ≤ maxCloseCode) (reason : Option String)
    (reads : platform.ReadsBack (.close ⟨code, reason.map firstChars⟩))
    (readsBare : platform.ReadsBack (.close ⟨code, none⟩)) :
    let fresh := ChunkReassembler.new receiverMessageBytes options.maxFrameBytes receiverCeiling
      floor
    (∃ close : Close, close.IsFarewell options.maxFrameBytes code reason ∧
      (∃ record, farewellLine platform options.maxFrameBytes code reason =
          some (record ++ [newline]) ∧
        decodeLine platform record options.maxFrameBytes = .ok (.close close)) ∧
      ∃ run count, farewellMessages platform options code reason = some run ∧
        fresh.run (decodeLine platform) run.messages =
          (fresh, List.replicate count (.ok none) ++ [.ok (some (.close close))])) ∧
      ∀ text, LongestFit maxCloseReasonBytes text (clampCloseReason text) := by
  intro fresh
  obtain ⟨he, -⟩ := encode_partingClose platform floor hcode reason
  obtain ⟨-, hv, hf, -⟩ := encodeFrameBytes_eq_ok.mp he
  have hr : platform.ReadsBack
      (.close (partingClose options.maxFrameBytes code reason)) := by
    unfold partingClose
    split
    · exact reads
    · exact readsBare
  have hd := decodeLine_toVec hr floor hv hf
  obtain ⟨run, hru, hfr⟩ := farewellMessages_eq_some platform floor ceiling hcode reason
  have hm : chunksOf platform options.maxMessageBytes options.maxFrameBytes
      (.close (partingClose options.maxFrameBytes code reason)) = run.messages := by
    rw [chunksOf, ← hfr, run.encoded]
    rfl
  obtain ⟨count, ha⟩ := ChunkReassembler.run_frame ceiling receiverCeiling floor
    (partingClose_short options.maxFrameBytes code reason) he hf
  rw [hm, hd] at ha
  exact ⟨⟨_, partingClose_isFarewell options.maxFrameBytes code reason,
    ⟨_, farewellLine_eq_some platform floor hcode reason, hd⟩, run, count, hru, ha⟩,
    clampCloseReason_longest⟩

/-- A platform that reads a short farewell. -/
def byePlatform : Platform :=
  tablePlatform [.close ⟨closeCodes.protocolError, some "bye"⟩,
    .close ⟨closeCodes.protocolError, none⟩]

/-- A short reason at the smallest limits. -/
theorem farewell_carries_code_bye :
    ∃ close : Close, close.IsFarewell 4096 closeCodes.protocolError (some "bye") ∧
      ∃ record, farewellLine byePlatform 4096 closeCodes.protocolError (some "bye") =
        some (record ++ [newline]) := by
  have reads : byePlatform.ReadsBack
      (.close ⟨closeCodes.protocolError, (some "bye").map firstChars⟩) := by rfl
  have readsBare : byePlatform.ReadsBack (.close ⟨closeCodes.protocolError, none⟩) := by rfl
  have floor : minMaxFrameBytes ≤ (WebSocketOptions.mk 4096 2048 true).maxFrameBytes := le_rfl
  have ceiling : minMaxMessageBytes ≤ (WebSocketOptions.mk 4096 2048 true).maxMessageBytes := le_rfl
  obtain ⟨⟨close, hc, ⟨record, hr, -⟩, -⟩, -⟩ :=
    farewell_carries_code byePlatform floor ceiling ceiling (by decide) (some "bye") reads readsBare
  exact ⟨close, hc, record, hr⟩

end MangoProtocol
