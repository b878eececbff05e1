import MangoProtocol.Codec.ChunkRuns

/-! What a reassembler accepts over a whole connection: the complete runs of frames that decode,
one after another, and then the start of one more. -/

namespace MangoProtocol

namespace ChunkReassembler

section Run

variable {φ : Type} (decodeBytes : List UInt8 → Nat → Except CodecError φ)

theorem run_append (self : ChunkReassembler) (messages more : List (List UInt8)) :
    self.run decodeBytes (messages ++ more) =
      (((self.run decodeBytes messages).1.run decodeBytes more).1,
        (self.run decodeBytes messages).2 ++
          ((self.run decodeBytes messages).1.run decodeBytes more).2) := by
  induction messages generalizing self with
  | nil => rfl
  | cons message messages ih => simp only [List.cons_append, run, ih]

variable {initial state : ChunkReassembler} {held : ChunkRun initial.maxFrameBytes}

/-! ### A run is accepted -/

variable {longer : ChunkRun initial.maxFrameBytes} {payload : List UInt8}

theorem Holds.push_extended (h : Holds initial state held) (hc : longer.count = held.count)
    (hp : longer.payloads = held.payloads ++ [payload])
    (hm : held.payloads.length + 1 ≠ held.count.toNat) :
    state.push decodeBytes (chunkMessage (UInt32.ofNat held.payloads.length) held.count payload) =
        (state.extend held.count payload, .ok none) ∧
      Holds initial (state.extend held.count payload) longer := by
  rw [← h.index]
  exact ⟨ChunkReassembler.push_extended decodeBytes (h.admits hc hp)
    (fun hf => hm (h.isFinal.mp hf)), h.extend hc hp hm⟩

theorem Holds.push_completed (h : Holds initial state held) (hc : longer.count = held.count)
    (hp : longer.payloads = held.payloads ++ [payload])
    (hl : held.payloads.length + 1 = held.count.toNat) :
    state.push decodeBytes (chunkMessage (UInt32.ofNat held.payloads.length) held.count payload) =
      (initial, (decodeBytes longer.payloads.flatten initial.maxFrameBytes).map some) := by
  rw [← h.index, ChunkReassembler.push_completed decodeBytes (h.admits hc hp)
    (h.isFinal.mpr hl), h.reset, h.maxFrameBytes, hp, h.buffer]
  simp

theorem run_take (hr : initial.reset = initial) (run : ChunkRun initial.maxFrameBytes)
    {chunks : Nat} (hch : chunks ≤ run.payloads.length) (hm : chunks < run.count.toNat) :
    ∃ state, initial.run decodeBytes (run.take chunks).messages =
        (state, List.replicate chunks (.ok none)) ∧ Holds initial state (run.take chunks) := by
  induction chunks with
  | zero => exact ⟨initial, rfl, Holds.start hr rfl⟩
  | succ chunks ih =>
    obtain ⟨state, hru, hh⟩ := ih (by omega) (by omega)
    have hl : (run.take chunks).payloads.length = chunks := by
      simp only [ChunkRun.take, List.length_take]
      omega
    obtain ⟨payload, hp⟩ : ∃ payload,
        (run.take (chunks + 1)).payloads = (run.take chunks).payloads ++ [payload] :=
      ⟨_, List.take_succ_eq_append_getElem (by omega)⟩
    have hc : (run.take (chunks + 1)).count = (run.take chunks).count := rfl
    obtain ⟨hpu, hn⟩ := hh.push_extended decodeBytes hc hp
      (by rw [hl]; exact Nat.ne_of_lt hm)
    refine ⟨_, ?_, hn⟩
    rw [ChunkRun.messages_concat hc hp, run_append, hru]
    simp only [ChunkReassembler.run, hpu, List.replicate_succ']

theorem run_incomplete (hr : initial.reset = initial) (run : ChunkRun initial.maxFrameBytes)
    (hm : ¬run.Complete) :
    ∃ state, initial.run decodeBytes run.messages =
      (state, List.replicate run.payloads.length (.ok none)) ∧ Holds initial state run := by
  have ho : run.payloads.length < run.count.toNat :=
    Nat.lt_of_le_of_ne run.inCount hm
  have ht : run.take run.payloads.length = run := by
    cases run
    simp [ChunkRun.take]
  have := run_take decodeBytes hr run le_rfl ho
  rwa [ht] at this

theorem run_complete (hr : initial.reset = initial) (run : ChunkRun initial.maxFrameBytes)
    (hco : run.Complete) :
    initial.run decodeBytes run.messages =
      (initial, List.replicate (run.payloads.length - 1) (.ok none) ++
        [(decodeBytes run.payloads.flatten initial.maxFrameBytes).map some]) := by
  have hpo := run.pos
  unfold ChunkRun.Complete at hco
  obtain ⟨state, hru, hh⟩ := run_take decodeBytes hr run
    (Nat.sub_le run.payloads.length 1) (by omega)
  have hl : (run.take (run.payloads.length - 1)).payloads.length =
      run.payloads.length - 1 := by simp [ChunkRun.take]
  obtain ⟨payload, hp⟩ : ∃ payload,
      run.payloads = (run.take (run.payloads.length - 1)).payloads ++ [payload] := by
    refine ⟨run.payloads.getLast (List.ne_nil_of_length_pos (by omega)), ?_⟩
    simp only [ChunkRun.take, ← List.dropLast_eq_take, List.dropLast_append_getLast]
  have hc : run.count = (run.take (run.payloads.length - 1)).count := rfl
  have hpu := hh.push_completed decodeBytes hc hp
    (by rw [hl, ← hc]; omega)
  rw [ChunkRun.messages_concat hc hp, run_append, hru]
  simp only [ChunkReassembler.run, hpu]

end Run

end ChunkReassembler

/-! ### A connection -/

/-- The chunks of one connection: complete runs whose frames decode, and a last run that misses
chunks, which may be all of them. -/
structure ChunkStream {φ : Type} (decodeBytes : List UInt8 → Nat → Except CodecError φ)
    (maxFrameBytes : Nat) where
  runs : List (ChunkRun maxFrameBytes)
  last : ChunkRun maxFrameBytes
  complete : ∀ run ∈ runs, run.Complete
  decoded : ∀ run ∈ runs, ∃ frame, decodeBytes run.payloads.flatten maxFrameBytes = .ok frame
  misses : ¬last.Complete

def ChunkStream.messages {φ : Type} {decodeBytes : List UInt8 → Nat → Except CodecError φ}
    {maxFrameBytes : Nat} (stream : ChunkStream decodeBytes maxFrameBytes) : List (List UInt8) :=
  stream.runs.flatMap ChunkRun.messages ++ stream.last.messages

namespace ChunkReassembler

section Stream

variable {φ : Type} {decodeBytes : List UInt8 → Nat → Except CodecError φ}
variable {initial state : ChunkReassembler} {held : ChunkRun initial.maxFrameBytes}

theorem Holds.reset_initial (h : Holds initial state held) : initial.reset = initial := by
  rw [← h.reset]
  rfl

theorem exists_empty (initial : ChunkReassembler) :
    ∃ run : ChunkRun initial.maxFrameBytes, run.payloads = [] ∧ run.messages = [] := by
  have hb : (1 : UInt32).toNat ≤ initial.maxFrameBytes ⌈/⌉ minNonfinalPayloadBytes := by
    have hf := initial.frameFloor
    simp only [minMaxFrameBytes, minAnnouncedFrameBytes] at hf
    rw [UInt32.toNat_one, Nat.ceilDiv_eq_add_pred_div, Nat.le_div_iff_mul_le (by decide)]
    simp only [minNonfinalPayloadBytes]
    omega
  exact ⟨.empty 1 le_rfl hb, rfl, rfl⟩

theorem run_stream (initial : ChunkReassembler) (hre : initial.reset = initial)
    (stream : ChunkStream decodeBytes initial.maxFrameBytes) (error : CodecError) :
    .error error ∉ (initial.run decodeBytes stream.messages).2 := by
  obtain ⟨runs, last, complete, decoded, misses⟩ := stream
  simp only [ChunkStream.messages]
  induction runs with
  | nil =>
    obtain ⟨state, hr, -⟩ := run_incomplete decodeBytes hre last misses
    simp [hr]
  | cons run runs ih =>
    obtain ⟨frame, hf⟩ := decoded run (by simp)
    have hr := run_complete decodeBytes hre run (complete run (by simp))
    rw [List.flatMap_cons, List.append_assoc, run_append, hr, hf]
    simpa [Except.map] using ih (fun other h => complete other (by simp [h]))
      (fun other h => decoded other (by simp [h]))

theorem Holds.exists_stream (h : Holds initial state held) {messages : List (List UInt8)}
    (accepted : ∀ error, .error error ∉ (state.run decodeBytes messages).2) :
    ∃ stream : ChunkStream decodeBytes initial.maxFrameBytes,
      stream.messages = held.messages ++ messages := by
  induction messages generalizing state held with
  | nil => exact ⟨⟨[], held, by simp, by simp, Nat.ne_of_lt h.misses⟩,
    by simp [ChunkStream.messages]⟩
  | cons message messages ih =>
    simp only [run, List.mem_cons, not_or] at accepted
    rcases push_cases decodeBytes state message with ⟨error, her⟩ | ⟨count, payload, rfl, ha⟩
    · exact absurd (by rw [her]) (accepted error).1
    obtain ⟨same, longer, hs, rfl, hm, hc, hp⟩ := h.concat ha
    have hlo := ChunkRun.messages_concat hc hp
    rw [hs.index] at accepted ⊢
    by_cases hl : same.payloads.length + 1 = same.count.toNat
    · rw [hs.push_completed decodeBytes hc hp hl] at accepted
      obtain ⟨empty, he, hno⟩ := exists_empty initial
      obtain ⟨stream, hst⟩ :=
        ih (Holds.start h.reset_initial he) fun error => (accepted error).2
      have hco : longer.Complete := by
        rw [ChunkRun.Complete, hp, hc, List.length_append]
        exact hl
      have hde : ∃ frame, decodeBytes longer.payloads.flatten initial.maxFrameBytes =
          .ok frame := by
        cases hd : decodeBytes longer.payloads.flatten initial.maxFrameBytes with
        | ok frame => exact ⟨frame, rfl⟩
        | error error => exact absurd (by rw [hd]; rfl) (accepted error).1
      refine ⟨⟨longer :: stream.runs, stream.last, ?_, ?_, stream.misses⟩, ?_⟩
      · exact List.forall_mem_cons.mpr ⟨hco, stream.complete⟩
      · exact List.forall_mem_cons.mpr ⟨hde, stream.decoded⟩
      · grind [ChunkStream.messages]
    · obtain ⟨hpu, hn⟩ := hs.push_extended decodeBytes hc hp hl
      rw [hpu] at accepted
      obtain ⟨stream, hst⟩ := ih hn fun error => (accepted error).2
      exact ⟨stream, by rw [hst, hlo, hm]; simp⟩

variable (decodeBytes)

theorem Holds.push (h : Holds initial state held) (message : List UInt8) :
    (∃ next, Holds initial (state.push decodeBytes message).1 next) ∧
      ∀ error, (state.push decodeBytes message).2 = .error error →
        (state.push decodeBytes message).1 = initial := by
  obtain ⟨empty, hem, -⟩ := exists_empty initial
  have hst := Holds.start h.reset_initial hem
  rcases push_cases decodeBytes state message with ⟨error, he⟩ | ⟨count, payload, rfl, ha⟩
  · rw [he, h.reset]
    exact ⟨⟨empty, hst⟩, fun _ _ => rfl⟩
  · obtain ⟨same, longer, hs, rfl, -, hc, hp⟩ := h.concat ha
    rw [hs.index]
    by_cases hl : same.payloads.length + 1 = same.count.toNat
    · rw [hs.push_completed decodeBytes hc hp hl]
      exact ⟨⟨empty, hst⟩, fun _ _ => rfl⟩
    · obtain ⟨hpu, hn⟩ := hs.push_extended decodeBytes hc hp hl
      rw [hpu]
      exact ⟨⟨longer, hn⟩, fun _ he => by cases he⟩

theorem Holds.run (h : Holds initial state held) (messages : List (List UInt8)) :
    ∃ next, Holds initial (state.run decodeBytes messages).1 next := by
  induction messages generalizing state held with
  | nil => exact ⟨held, h⟩
  | cons message messages ih =>
    obtain ⟨⟨next, hn⟩, -⟩ := h.push decodeBytes message
    exact ih hn

theorem Holds.bounds (h : Holds initial state held) :
    state.buffer.length ≤ initial.maxFrameBytes ∧
      (∀ started, state.count = some started → state.nextIndex < started) ∧
      state.nextIndex.toNat + 1 < 2 ^ 32 := by
  have hc := held.count.toNat_lt
  have hm := h.misses
  have hi := h.index_toNat
  refine ⟨?_, ?_, by omega⟩
  · have := held.within held.payloads.length
    rwa [List.take_length, ← h.buffer] at this
  · intro started hs
    rw [h.count] at hs
    split at hs
    · cases hs
    · rw [← Option.some.inj hs, UInt32.lt_iff_toNat_lt]
      omega

end Stream

/-- A new reassembler takes messages without a refusal exactly when they are the messages of a
stream of runs.  Whatever it is fed, its buffer stays within the frame limit, the index it expects
stays below the count of the frame it has started, and a refusal returns it to its initial state. -/
theorem run_accepts_iff (platform : Platform) {maxMessageBytes maxFrameBytes : Nat}
    (messageFloor : minMaxMessageBytes ≤ maxMessageBytes)
    (frameFloor : minMaxFrameBytes ≤ maxFrameBytes) (messages : List (List UInt8)) :
    let fresh := ChunkReassembler.new maxMessageBytes maxFrameBytes messageFloor frameFloor
    let result := fresh.run (decodeLine platform) messages
    ((∀ error, .error error ∉ result.2) ↔
        ∃ stream : ChunkStream (decodeLine platform) maxFrameBytes, stream.messages = messages) ∧
      result.1.buffer.length ≤ maxFrameBytes ∧
      (∀ started, result.1.count = some started → result.1.nextIndex < started) ∧
      result.1.nextIndex.toNat + 1 < 2 ^ 32 ∧
      ∀ message error, (result.1.push (decodeLine platform) message).2 = .error error →
        (result.1.push (decodeLine platform) message).1 = fresh := by
  intro fresh result
  obtain ⟨empty, he, hn⟩ := exists_empty fresh
  have hst : Holds fresh fresh empty := Holds.start rfl he
  obtain ⟨held, hh⟩ : ∃ held, Holds fresh result.1 held := hst.run (decodeLine platform) messages
  obtain ⟨hb, hc, hi⟩ := hh.bounds
  refine ⟨⟨fun accepted => ?_, ?_⟩, hb, hc, hi, fun message => (hh.push _ message).2⟩
  · obtain ⟨stream, hs⟩ := hst.exists_stream accepted
    rw [hn, List.nil_append] at hs
    exact ⟨stream, hs⟩
  · rintro ⟨stream, rfl⟩
    exact run_stream fresh rfl stream

/-- The first chunk of two, which leaves the reassembler waiting for the second. -/
theorem run_accepts_iff_first :
    let fresh := ChunkReassembler.new 2048 4096 (by decide) (by decide)
    let messages := [chunkMessage 0 2 (List.replicate 1024 0)]
    (∀ error, .error error ∉ (fresh.run (decodeLine samplePlatform) messages).2) ↔
      ∃ stream : ChunkStream (decodeLine samplePlatform) 4096, stream.messages = messages :=
  (run_accepts_iff samplePlatform (by decide) (by decide) _).1

end ChunkReassembler

end MangoProtocol
