import MangoProtocol.Codec.ChunkRoundTrip

/-! What a receiver says of the size of frames within its limit: neither a record, nor a stream of
lines cut anywhere, nor a stream of chunks is refused as too large. -/

namespace MangoProtocol

open ProofKit ProofKit.Records

section Records

variable {platform : Platform} {maxFrameBytes : Nat}

variable {line : List UInt8} {error : CodecError}

theorem decodeLine_within (fits : line.length ≤ maxFrameBytes)
    (h : decodeLine platform line maxFrameBytes = .error error) : error.kind ≠ .tooLarge := by
  have hl := (stripCarriageReturn_length line).1
  unfold decodeLine at h
  dsimp only at h
  split at h
  · cases h
    nofun
  · rename_i checked hc
    have heq : checked = maxFrameBytes := by
      unfold checkedAtLeast at hc
      split at hc <;> cases hc
      rfl
    rw [heq, if_neg (by omega)] at h
    split at h
    · cases h
      nofun
    split at h
    · rename_i category text _
      have hk : (if category = .data then CodecErrorKind.schema else .invalidJson) ≠ .tooLarge := by
        split <;> nofun
      split at h
      · cases h
        rw [apply_ite CodecError.kind]
        exact (ite_self _).symm ▸ hk
      · cases h
        exact hk
    · split at h
      · cases h
        nofun
      · cases h

theorem judgeLine_within (fits : line.length ≤ maxFrameBytes)
    (h : judgeLine (decodeLine platform) maxFrameBytes line = .refuse error) :
    error.kind ≠ .tooLarge := by
  have hl := (stripCarriageReturn_length line).1
  simp only [judgeLine] at h
  rw [if_neg (by omega)] at h
  split at h
  · cases h
  · split at h
    · cases h
    · rename_i refusal hd
      cases h
      exact decodeLine_within fits hd

theorem overlongLine_within (fits : line.length ≤ maxFrameBytes) :
    overlongLine maxFrameBytes line = none := by
  have hl := (stripCarriageReturn_length line).1
  rw [overlongLine, if_neg (by omega)]

theorem LineDecoder.run_within (atLeast : minMaxFrameBytes ≤ maxFrameBytes) {frames : List Frame}
    (fits : ∀ frame ∈ frames, frame.toVec.length ≤ maxFrameBytes) {pieces : List (List UInt8)}
    (cut : pieces.flatten <+: (frames.map fun frame => frame.toVec ++ [newline]).flatten) :
    (yielded ((LineDecoder.new maxFrameBytes atLeast).run (decodeLine platform)
      (pieces.map .push)).2).2 ≠ some .tooLarge := by
  intro hk
  obtain ⟨-, ha, -, he⟩ := run_pushes_new (decodeLine platform) atLeast pieces
  rw [yielded, he] at hk
  have hf := ha.failure
  rw [LineDecoder.records] at hf
  dsimp only at hk hf
  rw [hk] at hf
  obtain ⟨error, hv, hla⟩ := Option.map_eq_some_iff.mp hf.symm
  obtain ⟨part, hp, hfre, hr⟩ := verdict_refusal _ _ _ hv
  have hl : part.length ≤ maxFrameBytes := by
    have hli : part <:+: ((frames.map Frame.toVec).map (· ++ [newline])).flatten := by
      rw [List.map_map]
      exact hp.trans cut.isInfix
    refine length_le_of_records ?_ hli hfre
    intro record hre
    obtain ⟨frame, hfr, rfl⟩ := List.mem_map.mp hre
    exact fits frame hfr
  rcases hr with hj | ho
  · exact judgeLine_within hl hj hla
  · rw [overlongLine_within hl] at ho
    cases ho

end Records

/-! ### Chunks -/

section Chunks

variable {sender receiver : Platform}
  {maxMessageBytes receiverMessageBytes senderFrameBytes maxFrameBytes : Nat}

theorem ChunkReassembler.run_frame (ceiling : minMaxMessageBytes ≤ maxMessageBytes)
    (receiverCeiling : minMaxMessageBytes ≤ receiverMessageBytes)
    (floor : minMaxFrameBytes ≤ maxFrameBytes) {frame : Frame} {bytes : List UInt8}
    (short : frame.toVec.length ≤ 2 ^ 42)
    (accepted : encodeFrameBytes sender frame senderFrameBytes = .ok bytes)
    (fits : frame.toVec.length ≤ maxFrameBytes) :
    let fresh := ChunkReassembler.new receiverMessageBytes maxFrameBytes receiverCeiling floor
    ∃ count, fresh.run (decodeLine receiver)
      (chunksOf sender maxMessageBytes senderFrameBytes frame)
      = (fresh, List.replicate count (.ok none) ++
        [(decodeLine receiver frame.toVec maxFrameBytes).map some]) := by
  intro fresh
  obtain ⟨-, -, -, rfl⟩ := encodeFrameBytes_eq_ok.mp accepted
  have nonempty := encodeFrameBytes_ne_nil accepted
  obtain ⟨run, hch, hc, hj⟩ : ∃ run : ChunkRun maxFrameBytes,
      chunksOf sender maxMessageBytes senderFrameBytes frame = run.messages ∧ run.Complete ∧
        run.payloads.flatten = frame.toVec := by
    refine ⟨chunkRun ceiling frame.toVec short nonempty fits, ?_, chunkRun_complete ..,
      chunkRun_flatten ..⟩
    rw [chunksOf, encodeChunks_eq ceiling short accepted, chunkRun_messages]
    rfl
  have hr : fresh.reset = fresh := rfl
  refine ⟨run.payloads.length - 1, ?_⟩
  rw [hch, ← hj]
  exact run_complete (decodeLine receiver) hr run hc

theorem ChunkReassembler.run_within (ceiling : minMaxMessageBytes ≤ maxMessageBytes)
    (receiverCeiling : minMaxMessageBytes ≤ receiverMessageBytes)
    (floor : minMaxFrameBytes ≤ maxFrameBytes) (limit : maxFrameBytes ≤ 2 ^ 42)
    {frames : List Frame}
    (accepted : ∀ frame ∈ frames, ∃ bytes,
      encodeFrameBytes sender frame senderFrameBytes = .ok bytes)
    (fits : ∀ frame ∈ frames, frame.toVec.length ≤ maxFrameBytes) {error : CodecError}
    (h : .error error ∈
      ((ChunkReassembler.new receiverMessageBytes maxFrameBytes receiverCeiling floor).run
        (decodeLine receiver)
        (frames.flatMap (chunksOf sender maxMessageBytes senderFrameBytes))).2) :
    error.kind ≠ .tooLarge := by
  induction frames with
  | nil => cases h
  | cons frame frames ih =>
    obtain ⟨bytes, hb⟩ := accepted frame List.mem_cons_self
    have hf := fits frame List.mem_cons_self
    obtain ⟨count, hr⟩ :=
      run_frame ceiling receiverCeiling floor (hf.trans limit) hb hf
    rw [List.flatMap_cons, run_append, hr] at h
    rcases List.mem_append.mp h with hfi | hlat
    · rcases List.mem_append.mp hfi with ho | hla
      · cases (List.mem_replicate.mp ho).2
      · have hd := List.mem_singleton.mp hla
        cases hl : decodeLine receiver frame.toVec maxFrameBytes with
        | ok decoded =>
          rw [hl] at hd
          cases hd
        | error refusal =>
          rw [hl] at hd
          cases hd
          exact decodeLine_within hf hl
    · grind

end Chunks

/-! ### From one port to another -/

/-- A sender's port at its limit puts all the frames on the wire, and a receiver's port at its own
refuses none of them as too large: as one record, in lines cut anywhere, or in chunks. -/
structure Admitted (sender receiver : Platform) (senderLimit limit : Nat) (frames : List Frame) :
    Prop where
  sent : ∀ frame ∈ frames, encodeLine sender frame senderLimit = .ok (frame.toVec ++ [newline])
  record : ∀ frame ∈ frames, ∀ error,
    decodeLine receiver frame.toVec limit = .error error → error.kind ≠ .tooLarge
  lines : ∀ (floor : minMaxFrameBytes ≤ limit) (pieces : List (List UInt8)),
    pieces.flatten <+: (frames.map fun frame => frame.toVec ++ [newline]).flatten →
    (yielded ((LineDecoder.new limit floor).run (decodeLine receiver) (pieces.map .push)).2).2 ≠
      some .tooLarge
  chunked : ∀ maxMessageBytes, minMaxMessageBytes ≤ maxMessageBytes → ∀ frame ∈ frames,
    ∃ messages, encodeChunks sender frame maxMessageBytes senderLimit = .ok messages
  chunks : ∀ (floor : minMaxFrameBytes ≤ limit) (maxMessageBytes receiverMessageBytes : Nat)
    (receiverCeiling : minMaxMessageBytes ≤ receiverMessageBytes),
    minMaxMessageBytes ≤ maxMessageBytes → ∀ error,
    .error error ∈ ((ChunkReassembler.new receiverMessageBytes limit receiverCeiling floor).run
      (decodeLine receiver) (frames.flatMap (chunksOf sender maxMessageBytes senderLimit))).2 →
    error.kind ≠ .tooLarge

variable {bytes : List UInt8} {platform : Platform} {frame : Frame} {limit : Nat}

theorem encodeFrameBytes_mono {higher : Nat} (h : encodeFrameBytes platform frame limit = .ok bytes)
    (hle : limit ≤ higher) : encodeFrameBytes platform frame higher = .ok bytes := by
  obtain ⟨hm, hv, hf, hb⟩ := encodeFrameBytes_eq_ok.mp h
  exact encodeFrameBytes_eq_ok.mpr ⟨hm.trans hle, hv, hf.trans hle, hb⟩

theorem encodeLine_ok (h : encodeFrameBytes platform frame limit = .ok bytes) :
    encodeLine platform frame limit = .ok (frame.toVec ++ [newline]) := by
  obtain ⟨-, -, -, rfl⟩ := encodeFrameBytes_eq_ok.mp h
  simp only [encodeLine, h]
  rfl

theorem admitted_of_within {sender receiver : Platform} {senderLimit : Nat} {frames : List Frame}
    (hs : senderLimit ≤ 2 ^ 42) (hl : limit ≤ 2 ^ 42)
    (accepted : ∀ frame ∈ frames, ∃ bytes, encodeFrameBytes sender frame senderLimit = .ok bytes)
    (fits : ∀ frame ∈ frames, frame.toVec.length ≤ limit) :
    Admitted sender receiver senderLimit limit frames where
  sent frame hf := by
    obtain ⟨bytes, hb⟩ := accepted frame hf
    exact encodeLine_ok hb
  record frame hf _ he := decodeLine_within (fits frame hf) he
  lines floor _ cut := LineDecoder.run_within floor fits cut
  chunked _ ceiling frame hf := by
    obtain ⟨bytes, hb⟩ := accepted frame hf
    exact ⟨_, encodeChunks_eq ceiling ((encodeFrameBytes_length hb).trans hs) hb⟩
  chunks floor _ _ receiverCeiling ceiling _ he :=
    ChunkReassembler.run_within ceiling receiverCeiling floor hl accepted fits he

end MangoProtocol
