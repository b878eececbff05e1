import MangoProtocol.Codec.ChunkLanguage
import MangoProtocol.ProofKit.Blocks

/-! What the chunker sends the reassembler takes: the chunk messages of a frame are a complete run
whose payloads join to the bytes of the frame. -/

namespace MangoProtocol

open ProofKit

section Encode

variable {maxMessageBytes maxFrameBytes : Nat}

def chunkCapacity (maxMessageBytes : Nat) : Nat := maxMessageBytes - chunkHeaderBytes

theorem chunkCapacity_ge (ceiling : minMaxMessageBytes ≤ maxMessageBytes) :
    2039 ≤ chunkCapacity maxMessageBytes := by
  simp only [minMaxMessageBytes, chunkCapacity, chunkHeaderBytes] at *
  omega

/-- The number of chunks that some bytes need. -/
def chunkCount (maxMessageBytes : Nat) (bytes : List UInt8) : Nat :=
  bytes.length ⌈/⌉ chunkCapacity maxMessageBytes

variable {bytes payload : List UInt8} {platform : Platform} {frame : Frame} {index : Nat}

theorem chunkCount_le (ceiling : minMaxMessageBytes ≤ maxMessageBytes)
    (short : bytes.length ≤ 2 ^ 42) (fits : bytes.length ≤ maxFrameBytes) :
    chunkCount maxMessageBytes bytes ≤ 0xffffffff ∧
      chunkCount maxMessageBytes bytes ≤ maxFrameBytes ⌈/⌉ minNonfinalPayloadBytes := by
  have hc := chunkCapacity_ge ceiling
  simp only [chunkCount]
  constructor
  · rw [ceilDiv_le_iff_le_mul (by omega)]
    nlinarith
  · have hb : maxFrameBytes ≤
        minNonfinalPayloadBytes * (maxFrameBytes ⌈/⌉ minNonfinalPayloadBytes) :=
      le_smul_ceilDiv (Nat.succ_pos 1023)
    have hm : minNonfinalPayloadBytes ≤ chunkCapacity maxMessageBytes :=
      le_trans (by decide) hc
    rw [ceilDiv_le_iff_le_mul (by omega)]
    exact (fits.trans hb).trans (Nat.mul_le_mul_right _ hm)

theorem chunkCount_toNat (ceiling : minMaxMessageBytes ≤ maxMessageBytes)
    (short : bytes.length ≤ 2 ^ 42) (fits : bytes.length ≤ maxFrameBytes) :
    (UInt32.ofNat (chunkCount maxMessageBytes bytes)).toNat = chunkCount maxMessageBytes bytes :=
  UInt32.toNat_ofNat_of_lt' (Nat.lt_succ_of_le (chunkCount_le ceiling short fits).1)

theorem chunkCount_bound (ceiling : minMaxMessageBytes ≤ maxMessageBytes)
    (short : bytes.length ≤ 2 ^ 42) (fits : bytes.length ≤ maxFrameBytes) :
    (UInt32.ofNat (chunkCount maxMessageBytes bytes)).toNat ≤
      maxFrameBytes ⌈/⌉ minNonfinalPayloadBytes := by
  rw [chunkCount_toNat ceiling short fits]
  exact (chunkCount_le ceiling short fits).2

theorem lt_chunkCount (ceiling : minMaxMessageBytes ≤ maxMessageBytes) :
    index < chunkCount maxMessageBytes bytes ↔
      index * chunkCapacity maxMessageBytes < bytes.length :=
  Blocks.lt_ceilDiv_iff (by have := chunkCapacity_ge ceiling; omega)

theorem chunkCount_pos (ceiling : minMaxMessageBytes ≤ maxMessageBytes) (nonempty : bytes ≠ []) :
    0 < chunkCount maxMessageBytes bytes := by
  rw [lt_chunkCount ceiling, Nat.zero_mul]
  exact List.length_pos_of_ne_nil nonempty

def chunkPayloads (maxMessageBytes : Nat) (bytes : List UInt8) : List (List UInt8) :=
  (List.range (chunkCount maxMessageBytes bytes)).map
    (Blocks.block (chunkCapacity maxMessageBytes) bytes)

theorem length_chunkPayloads (maxMessageBytes : Nat) (bytes : List UInt8) :
    (chunkPayloads maxMessageBytes bytes).length = chunkCount maxMessageBytes bytes := by
  rw [chunkPayloads, List.length_map, List.length_range]

theorem chunkPayloads_inCount (ceiling : minMaxMessageBytes ≤ maxMessageBytes)
    (short : bytes.length ≤ 2 ^ 42) (fits : bytes.length ≤ maxFrameBytes) :
    (chunkPayloads maxMessageBytes bytes).length ≤
      (UInt32.ofNat (chunkCount maxMessageBytes bytes)).toNat := by
  rw [chunkCount_toNat ceiling short fits, length_chunkPayloads]

theorem chunkPayloads_nonempty (ceiling : minMaxMessageBytes ≤ maxMessageBytes)
    (h : payload ∈ chunkPayloads maxMessageBytes bytes) : payload ≠ [] := by
  obtain ⟨index, hi, rfl⟩ := List.mem_map.mp h
  have hc := chunkCapacity_ge ceiling
  have hs := (lt_chunkCount ceiling).mp (List.mem_range.mp hi)
  rw [← List.length_pos_iff, Blocks.length_block]
  omega

theorem chunkPayloads_filled (ceiling : minMaxMessageBytes ≤ maxMessageBytes)
    (h : (chunkPayloads maxMessageBytes bytes)[index]? = some payload)
    (hm : index + 1 < chunkCount maxMessageBytes bytes) :
    minNonfinalPayloadBytes ≤ payload.length := by
  rw [lt_chunkCount ceiling, Nat.succ_mul] at hm
  have hc := chunkCapacity_ge ceiling
  simp only [chunkPayloads, List.getElem?_map, Option.map_eq_some_iff] at h
  obtain ⟨other, ho, rfl⟩ := h
  obtain ⟨hi, rfl⟩ := List.getElem?_eq_some_iff.mp ho
  rw [List.getElem_range, Blocks.length_block]
  simp only [minNonfinalPayloadBytes]
  omega

theorem chunkPayloads_within (fits : bytes.length ≤ maxFrameBytes) (chunks : Nat) :
    ((chunkPayloads maxMessageBytes bytes).take chunks).flatten.length ≤ maxFrameBytes := by
  rw [chunkPayloads, ← List.map_take, List.take_range, Blocks.flatten_blocks, List.length_take]
  omega

/-- The run of some bytes. -/
def chunkRun (ceiling : minMaxMessageBytes ≤ maxMessageBytes) (bytes : List UInt8)
    (short : bytes.length ≤ 2 ^ 42) (nonempty : bytes ≠ [])
    (fits : bytes.length ≤ maxFrameBytes) : ChunkRun maxFrameBytes where
  count := UInt32.ofNat (chunkCount maxMessageBytes bytes)
  payloads := chunkPayloads maxMessageBytes bytes
  pos := by
    rw [chunkCount_toNat ceiling short fits]
    exact chunkCount_pos ceiling nonempty
  bound := chunkCount_bound ceiling short fits
  inCount := chunkPayloads_inCount ceiling short fits
  nonempty _ h := chunkPayloads_nonempty ceiling h
  filled index payload h hmore := by
    rw [chunkCount_toNat ceiling short fits] at hmore
    exact chunkPayloads_filled ceiling h hmore
  within := chunkPayloads_within fits

theorem chunkRun_complete (ceiling : minMaxMessageBytes ≤ maxMessageBytes)
    (bytes : List UInt8) (short : bytes.length ≤ 2 ^ 42) (nonempty : bytes ≠ [])
    (fits : bytes.length ≤ maxFrameBytes) :
    (chunkRun ceiling bytes short nonempty fits).Complete := by
  simp only [ChunkRun.Complete, chunkRun, chunkCount_toNat ceiling short fits,
    length_chunkPayloads]

theorem chunkRun_flatten (ceiling : minMaxMessageBytes ≤ maxMessageBytes)
    (bytes : List UInt8) (short : bytes.length ≤ 2 ^ 42) (nonempty : bytes ≠ [])
    (fits : bytes.length ≤ maxFrameBytes) :
    (chunkRun ceiling bytes short nonempty fits).payloads.flatten = bytes := by
  have he : ¬chunkCount maxMessageBytes bytes * chunkCapacity maxMessageBytes < bytes.length :=
    (lt_chunkCount ceiling).not.mp (lt_irrefl _)
  simp only [chunkRun, chunkPayloads]
  rw [Blocks.flatten_blocks, List.take_of_length_le (Nat.not_lt.mp he)]

theorem chunkRun_messages (ceiling : minMaxMessageBytes ≤ maxMessageBytes)
    (bytes : List UInt8) (short : bytes.length ≤ 2 ^ 42) (nonempty : bytes ≠ [])
    (fits : bytes.length ≤ maxFrameBytes) :
    (chunkRun ceiling bytes short nonempty fits).messages =
      (List.range (chunkCount maxMessageBytes bytes)).map fun index =>
        chunkMessage (UInt32.ofNat index) (UInt32.ofNat (chunkCount maxMessageBytes bytes))
          (Blocks.block (chunkCapacity maxMessageBytes) bytes index) := by
  apply List.ext_getElem <;> simp [ChunkRun.messages, chunkRun, chunkPayloads]

theorem chunkRun_message_length (ceiling : minMaxMessageBytes ≤ maxMessageBytes)
    (bytes : List UInt8) (short : bytes.length ≤ 2 ^ 42) (nonempty : bytes ≠ [])
    (fits : bytes.length ≤ maxFrameBytes) :
    ∀ message ∈ (chunkRun ceiling bytes short nonempty fits).messages,
      message.length ≤ maxMessageBytes := by
  intro message hm
  rw [chunkRun_messages] at hm
  obtain ⟨index, -, rfl⟩ := List.mem_map.mp hm
  rw [chunkMessage_length, Blocks.length_block]
  simp only [minMaxMessageBytes, chunkCapacity, chunkHeaderBytes] at *
  omega

theorem encodeFrameBytes_ne_nil
    (accepted : encodeFrameBytes platform frame maxFrameBytes = .ok bytes) : bytes ≠ [] := by
  obtain ⟨-, -, -, rfl⟩ := encodeFrameBytes_eq_ok.mp accepted
  obtain ⟨rest, hr⟩ := frame.toVec_head
  rw [hr]
  exact List.cons_ne_nil _ _

theorem encodeFrameBytes_length
    (accepted : encodeFrameBytes platform frame maxFrameBytes = .ok bytes) :
    bytes.length ≤ maxFrameBytes := by
  obtain ⟨-, -, fits, rfl⟩ := encodeFrameBytes_eq_ok.mp accepted
  exact fits

theorem encodeChunks_eq (ceiling : minMaxMessageBytes ≤ maxMessageBytes)
    (short : bytes.length ≤ 2 ^ 42)
    (accepted : encodeFrameBytes platform frame maxFrameBytes = .ok bytes) :
    encodeChunks platform frame maxMessageBytes maxFrameBytes =
      .ok ((List.range (chunkCount maxMessageBytes bytes)).map fun index =>
        chunkMessage (UInt32.ofNat index) (UInt32.ofNat (chunkCount maxMessageBytes bytes))
          (Blocks.block (chunkCapacity maxMessageBytes) bytes index)) := by
  have fits := encodeFrameBytes_length accepted
  have hc : max (bytes.length ⌈/⌉ (maxMessageBytes - chunkHeaderBytes)) 1 =
      chunkCount maxMessageBytes bytes :=
    max_eq_left (chunkCount_pos ceiling (encodeFrameBytes_ne_nil accepted))
  have hs : u32Saturating (chunkCount maxMessageBytes bytes) =
      UInt32.ofNat (chunkCount maxMessageBytes bytes) := by
    rw [u32Saturating, min_eq_left (chunkCount_le ceiling short fits).1]
  have hb : ¬maxChunksFor maxFrameBytes < UInt32.ofNat (chunkCount maxMessageBytes bytes) := by
    rw [UInt32.not_lt, le_maxChunksFor, chunkCount_toNat ceiling short fits]
    exact (chunkCount_le ceiling short fits).2
  simp only [encodeChunks, if_neg (Nat.not_lt.mpr ceiling), accepted, bind, Except.bind, hc,
    hs, if_neg hb, chunkCount_toNat ceiling short fits]
  rfl

theorem encodeChunks_eq_ok (ceiling : minMaxMessageBytes ≤ maxMessageBytes)
    (short : bytes.length ≤ 2 ^ 42)
    (accepted : encodeFrameBytes platform frame maxFrameBytes = .ok bytes) :
    ∃ run : ChunkRun maxFrameBytes,
      encodeChunks platform frame maxMessageBytes maxFrameBytes = .ok run.messages ∧
        run.Complete ∧ run.payloads.flatten = bytes ∧
        ∀ message ∈ run.messages, message.length ≤ maxMessageBytes := by
  have fits := encodeFrameBytes_length accepted
  have nonempty := encodeFrameBytes_ne_nil accepted
  refine ⟨chunkRun ceiling bytes short nonempty fits, ?_, chunkRun_complete .., chunkRun_flatten ..,
    chunkRun_message_length ceiling bytes short nonempty fits⟩
  rw [encodeChunks_eq ceiling short accepted, chunkRun_messages]

end Encode

/-! ### Through a connection -/

section Connection

variable {platform : Platform} {maxMessageBytes receiverMessageBytes maxFrameBytes : Nat}

/-- The messages that the chunker sends for a frame, none if it refuses the frame. -/
def chunksOf (platform : Platform) (maxMessageBytes maxFrameBytes : Nat) (frame : Frame) :
    List (List UInt8) :=
  (encodeChunks platform frame maxMessageBytes maxFrameBytes).toOption.getD []

/-- What the receiver returns for the messages of a frame: nothing until the last, which gives
`decode_line` of the bytes of the frame. -/
def chunkAnswers (platform : Platform) (maxMessageBytes maxFrameBytes : Nat) (frame : Frame)
    (bytes : List UInt8) : List (Except CodecError (Option Frame)) :=
  List.replicate ((chunksOf platform maxMessageBytes maxFrameBytes frame).length - 1) (.ok none) ++
    [(decodeLine platform bytes maxFrameBytes).map some]

theorem ChunkReassembler.run_chunksOf (ceiling : minMaxMessageBytes ≤ maxMessageBytes)
    (receiverCeiling : minMaxMessageBytes ≤ receiverMessageBytes)
    (floor : minMaxFrameBytes ≤ maxFrameBytes) {frame : Frame} {bytes : List UInt8}
    (short : bytes.length ≤ 2 ^ 42)
    (accepted : encodeFrameBytes platform frame maxFrameBytes = .ok bytes) :
    let fresh := ChunkReassembler.new receiverMessageBytes maxFrameBytes receiverCeiling floor
    fresh.run (decodeLine platform) (chunksOf platform maxMessageBytes maxFrameBytes frame) =
      (fresh, chunkAnswers platform maxMessageBytes maxFrameBytes frame bytes) := by
  intro fresh
  obtain ⟨run, he, hc, hj, -⟩ := encodeChunks_eq_ok ceiling short accepted
  have hch : chunksOf platform maxMessageBytes maxFrameBytes frame = run.messages := by
    rw [chunksOf, he]
    rfl
  have hl : run.messages.length = run.payloads.length := by
    rw [ChunkRun.messages, List.length_mapIdx]
  have hr : fresh.reset = fresh := rfl
  have hru : fresh.run (decodeLine platform) run.messages =
      (fresh, List.replicate (run.payloads.length - 1) (.ok none) ++
        [(decodeLine platform run.payloads.flatten maxFrameBytes).map some]) :=
    run_complete (decodeLine platform) hr run hc
  rw [chunkAnswers, hch, hru, hl, hj]

/-- Frames that `encode_frame_bytes` accepts are all chunked, into messages within the ceiling, and
a new reassembler that is fed these messages in order answers the last message of each frame with
`decode_line` of its bytes and no other message, and is back in its initial state after each
frame. -/
theorem ChunkReassembler.run_encodeChunks (ceiling : minMaxMessageBytes ≤ maxMessageBytes)
    (receiverCeiling : minMaxMessageBytes ≤ receiverMessageBytes)
    (floor : minMaxFrameBytes ≤ maxFrameBytes) (limit : maxFrameBytes ≤ 2 ^ 42)
    {frames : List Frame} {bytesOf : Frame → List UInt8}
    (accepted : ∀ frame ∈ frames,
      encodeFrameBytes platform frame maxFrameBytes = .ok (bytesOf frame)) :
    let fresh := ChunkReassembler.new receiverMessageBytes maxFrameBytes receiverCeiling floor
    let chunks := chunksOf platform maxMessageBytes maxFrameBytes
    (∀ frame ∈ frames,
        encodeChunks platform frame maxMessageBytes maxFrameBytes = .ok (chunks frame) ∧
          ∀ message ∈ chunks frame, message.length ≤ maxMessageBytes) ∧
      ∀ sent : Nat, fresh.run (decodeLine platform) ((frames.take sent).flatMap chunks) =
        (fresh, (frames.take sent).flatMap fun frame =>
          chunkAnswers platform maxMessageBytes maxFrameBytes frame (bytesOf frame)) := by
  intro fresh chunks
  refine ⟨fun frame hf => ?_, fun sent => ?_⟩
  · obtain ⟨run, he, -, -, hl⟩ := encodeChunks_eq_ok ceiling
      ((encodeFrameBytes_length (accepted frame hf)).trans limit) (accepted frame hf)
    simp only [chunks, chunksOf, he]
    exact ⟨rfl, hl⟩
  · have ht : ∀ frame ∈ frames.take sent,
        encodeFrameBytes platform frame maxFrameBytes = .ok (bytesOf frame) :=
      fun frame hf => accepted frame (List.mem_of_mem_take hf)
    generalize frames.take sent = prior at ht
    induction prior with
    | nil => rfl
    | cons frame prior ih =>
      have hf : fresh.run (decodeLine platform) (chunks frame) = _ :=
        run_chunksOf ceiling receiverCeiling floor
          ((encodeFrameBytes_length (ht frame (by simp))).trans limit) (ht frame (by simp))
      rw [List.flatMap_cons, List.flatMap_cons, run_append, hf,
        ih fun other ho => ht other (by simp [ho])]

end Connection

/-- The sample frames through the smallest messages. -/
theorem ChunkReassembler.run_encodeChunks_sample :
    let fresh := ChunkReassembler.new 2048 4096 (by decide) (by decide)
    fresh.run (decodeLine samplePlatform)
      (sampleFrames.flatMap (chunksOf samplePlatform 2048 4096)) =
      (fresh, sampleFrames.flatMap fun frame =>
        chunkAnswers samplePlatform 2048 4096 frame frame.toVec) := by
  intro fresh
  have accepted : ∀ frame ∈ sampleFrames,
      encodeFrameBytes samplePlatform frame 4096 = .ok frame.toVec := by
    intro frame hf
    rcases List.mem_pair.mp hf with rfl | rfl <;> rfl
  have ceiling : minMaxMessageBytes ≤ 2048 := le_rfl
  exact (ChunkReassembler.run_encodeChunks ceiling ceiling (by decide) (by decide) accepted).2 2

end MangoProtocol
