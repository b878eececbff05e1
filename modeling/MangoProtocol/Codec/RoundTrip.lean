import MangoProtocol.Codec.LineDecoder

/-! What the NDJSON codec writes it reads back: the line of a frame is one record, decoding it gives
the frame, and a decoder that is fed the lines of some frames in any pieces returns those frames. -/

namespace MangoProtocol

open ProofKit ProofKit.Records

/-! ### The bytes of a frame -/

theorem Frame.toVec_ge (frame : Frame) : ∀ b ∈ frame.toVec, 32 ≤ b.toNat :=
  frame.serialize.toVec_ge

theorem Frame.toVec_head (frame : Frame) : ∃ rest, frame.toVec = 123 :: rest := by
  simp only [Frame.toVec, Frame.serialize, Json.toVec]
  exact ⟨_, rfl⟩

theorem Frame.newline_not_mem_toVec (frame : Frame) : newline ∉ frame.toVec := by
  intro h
  have := frame.toVec_ge newline h
  simp [newline] at this

theorem Frame.stripCarriageReturn_toVec (frame : Frame) :
    stripCarriageReturn frame.toVec = frame.toVec := by
  unfold stripCarriageReturn
  rw [if_neg]
  intro h
  have := frame.toVec_ge carriageReturn (List.mem_of_getLast? h)
  simp [carriageReturn] at this

theorem Frame.isBlank_toVec (frame : Frame) : isBlank frame.toVec = false := by
  obtain ⟨rest, h⟩ := frame.toVec_head
  simp [h, isBlank, isAsciiWhitespace]

/-! ### One line -/

section Line

variable {platform : Platform} {frame : Frame} {maxFrameBytes : Nat}

/-- The parser reads the text of this frame back as the value it was written from. -/
def Platform.ReadsBack (platform : Platform) (frame : Frame) : Prop :=
  platform.parse frame.toVec = some frame.serialize

theorem fromSlice_toVec (reads : platform.ReadsBack frame) :
    fromSlice platform frame.toVec = .ok frame := by
  have hp : platform.parse frame.toVec = some frame.serialize := reads
  simp only [fromSlice, hp, Frame.deserialize_serialize]

theorem decodeLine_toVec (reads : platform.ReadsBack frame)
    (atLeast : minMaxFrameBytes ≤ maxFrameBytes) (valid : validate platform frame = .ok ())
    (fits : frame.toVec.length ≤ maxFrameBytes) :
    decodeLine platform frame.toVec maxFrameBytes = .ok frame := by
  simp only [decodeLine, checkedAtLeast, Nat.not_lt.mpr atLeast, ↓reduceIte,
    frame.stripCarriageReturn_toVec, Nat.not_lt.mpr fits, frame.isBlank_toVec,
    Bool.false_eq_true, fromSlice_toVec reads, valid]

theorem judgeLine_toVec (reads : platform.ReadsBack frame)
    (atLeast : minMaxFrameBytes ≤ maxFrameBytes) (valid : validate platform frame = .ok ())
    (fits : frame.toVec.length ≤ maxFrameBytes) :
    judgeLine (decodeLine platform) maxFrameBytes frame.toVec = .item frame := by
  simp only [judgeLine, frame.stripCarriageReturn_toVec, Nat.not_lt.mpr fits, ↓reduceIte,
    frame.isBlank_toVec, Bool.false_eq_true, decodeLine_toVec reads atLeast valid fits]

theorem encodeLine_eq_ok {line : List UInt8}
    (h : encodeLine platform frame maxFrameBytes = .ok line) :
    minMaxFrameBytes ≤ maxFrameBytes ∧ validate platform frame = .ok () ∧
      frame.toVec.length ≤ maxFrameBytes ∧ line = frame.toVec ++ [newline] := by
  cases hb : encodeFrameBytes platform frame maxFrameBytes with
  | error error => simp [encodeLine, hb, bind, Except.bind] at h
  | ok bytes =>
    obtain ⟨hm, hv, hf, rfl⟩ := encodeFrameBytes_eq_ok.mp hb
    simp only [encodeLine, hb, bind, Except.bind, pure, Except.pure, Except.ok.injEq] at h
    exact ⟨hm, hv, hf, h.symm⟩

end Line

/-! ### A stream of lines -/

section Stream

variable {platform : Platform} {maxFrameBytes : Nat}

theorem scan_encodeLine {frames : List Frame} {lines : List (List UInt8)}
    (encoded : frames.mapM (encodeLine platform · maxFrameBytes) = .ok lines)
    (reads : ∀ frame ∈ frames, platform.ReadsBack frame) :
    scan newline (judgeLine (decodeLine platform) maxFrameBytes) lines.flatten =
      ⟨frames, none, []⟩ := by
  induction frames generalizing lines with
  | nil =>
    cases encoded
    exact scan_open _ (by simp)
  | cons frame frames ih =>
    rw [List.mapM_cons] at encoded
    cases hl : encodeLine platform frame maxFrameBytes with
    | error error => simp [hl, bind, Except.bind] at encoded
    | ok line =>
      cases hls : frames.mapM (encodeLine platform · maxFrameBytes) with
      | error error => simp [hl, hls, bind, Except.bind] at encoded
      | ok rest =>
        simp only [hl, hls, bind, Except.bind, pure, Except.pure, Except.ok.injEq] at encoded
        obtain ⟨hm, hv, hfi, rfl⟩ := encodeLine_eq_ok hl
        have hf : platform.ReadsBack frame := reads frame (by simp)
        have hr := ih hls fun other ho => reads other (by simp [ho])
        have hs : splitRecord newline lines.flatten = some (frame.toVec, rest.flatten) := by
          rw [splitRecord_eq_some, ← encoded]
          exact ⟨frame.newline_not_mem_toVec, by simp⟩
        rw [scan_record hs, judgeLine_toVec hf hm hv hfi, hr]

/-- The lines of frames that `encode_line` accepts, cut anywhere, come back as those frames, with
no refusal and nothing left in the buffer. -/
theorem LineDecoder.run_encodeLine (atLeast : minMaxFrameBytes ≤ maxFrameBytes)
    {frames : List Frame} {lines : List (List UInt8)}
    (encoded : frames.mapM (encodeLine platform · maxFrameBytes) = .ok lines)
    (reads : ∀ frame ∈ frames, platform.ReadsBack frame)
    {pieces : List (List UInt8)} (cut : pieces.flatten = lines.flatten) :
    let result := (LineDecoder.new maxFrameBytes atLeast).run (decodeLine platform)
      (pieces.map .push)
    result.2.flatMap PushOutcome.frames = frames ∧
      (∀ outcome ∈ result.2, outcome.error = none) ∧
      result.1 = LineDecoder.new maxFrameBytes atLeast := by
  intro result
  obtain ⟨hm, ha, hfr, he⟩ :=
    run_pushes_new (decodeLine platform) atLeast pieces
  have hs := scan_encodeLine encoded reads
  rw [cut] at ha hfr
  have hf : result.1.failure = none := by
    have hk : result.1.failure.map CodecError.kind = _ := ha.failure
    simpa [verdict, hs, overlongLine, stripCarriageReturn] using hk
  have hb : result.1.buffer = [] := by
    have ho := ha.buffer hf
    rwa [hs] at ho
  refine ⟨?_, ?_, LineDecoder.ext hm hb hf⟩
  · rw [hfr, verdict, hs]
  · exact List.findSome?_eq_none_iff.mp (he.trans hf)

end Stream

/-- The end of a stream of events and a request, as a session would send them. -/
def sampleFrames : List Frame :=
  [.evt ⟨"clock.ticks", 3, none, .ofJson .null, some .mk⟩,
    .req ⟨"1", "clock.read", .ofJson .null⟩]

/-- A platform that reads the text of some frames and no other text. -/
def tablePlatform (frames : List Frame) : Platform where
  parse bytes := (frames.find? fun frame => frame.toVec == bytes).map Frame.serialize
  parseError _ := (.malformed, "expected value")
  dataError _ := "unknown variant"
  printable _ := true

def samplePlatform : Platform := tablePlatform sampleFrames

/-- The two lines, cut in the middle of the first. -/
theorem LineDecoder.run_encodeLine_sample :
    let stream := (sampleFrames.map fun frame => frame.toVec ++ [newline]).flatten
    ((LineDecoder.new 4096 (by decide)).run (decodeLine samplePlatform)
      ([stream.take 20, stream.drop 20].map .push)).2.flatMap PushOutcome.frames =
        sampleFrames := by
  intro stream
  have atLeast : minMaxFrameBytes ≤ 4096 := by decide
  have encoded : sampleFrames.mapM (encodeLine samplePlatform · 4096) =
      .ok (sampleFrames.map fun frame => frame.toVec ++ [newline]) := by rfl
  have reads : ∀ frame ∈ sampleFrames, samplePlatform.ReadsBack frame := by
    intro frame hf
    rcases List.mem_pair.mp hf with rfl | rfl <;> rfl
  have cut : [stream.take 20, stream.drop 20].flatten =
      (sampleFrames.map fun frame => frame.toVec ++ [newline]).flatten := by
    simp [stream]
  exact (LineDecoder.run_encodeLine atLeast encoded reads cut).1

end MangoProtocol
