import MangoProtocol.Codec.ChunkRoundTrip
import MangoProtocol.ProofKit.Fallible
import MangoProtocol.TypeScript.Chunk

/-! The chunk codecs of the two packages.  The reassemblers keep different state and check in
different orders, and a relation between their states that every message keeps makes them give the
same verdict on each message; the chunkers cut every line alike. -/

namespace MangoProtocol

open ProofKit

/-! ### Verdicts -/

/-- What a reassembler says of one message. -/
inductive ChunkVerdict where
  | refused
  | more
  | complete (line : List UInt8)
  deriving DecidableEq, Repr

def chunkVerdict {ε : Type} : Except ε (Option (List UInt8)) → ChunkVerdict
  | .error _ => .refused
  | .ok none => .more
  | .ok (some line) => .complete line

/-- A line decoder that takes the lines that `accepts` takes, and returns the bytes it was handed.
-/
def acceptLine {ε : Type} (accepts : List UInt8 → Nat → Bool) (refuse : List UInt8 → ε)
    (line : List UInt8) (limit : Nat) : Except ε (List UInt8) :=
  if accepts line limit then .ok line else .error (refuse line)

theorem toOption_acceptLine {ε : Type} (accepts : List UInt8 → Nat → Bool)
    (refuse : List UInt8 → ε) (line : List UInt8) (limit : Nat) :
    (acceptLine accepts refuse line limit).toOption =
      if accepts line limit then some line else none := by
  unfold acceptLine
  split <;> rfl

/-! ### The parts of a line -/

theorem TypeScript.ChunkReassembler.concatParts_eq (parts : List (List UInt8)) :
    concatParts parts parts.flatten.length = parts.flatten := by
  -- The parts written so far stand before the zeros of those that follow.
  have hw : ∀ (parts : List (List UInt8)) (front : List UInt8),
      (parts.foldl (fun state part => (setBytes state.1 part state.2, state.2 + part.length))
        (front ++ List.replicate parts.flatten.length 0, front.length)).1 =
          front ++ parts.flatten := by
    intro parts
    induction parts with
    | nil => intro front; simp
    | cons part parts ih =>
      intro front
      have hs : setBytes (front ++ List.replicate (part :: parts).flatten.length 0) part
          front.length = (front ++ part) ++ List.replicate parts.flatten.length 0 := by
        simp [setBytes, List.drop_append]
      rw [List.foldl_cons]
      dsimp only
      rw [hs, ← List.length_append, ih (front ++ part)]
      simp
  simpa [concatParts] using hw parts []

/-! ### The reassemblers -/

structure ChunkReassembler.Agrees (rust : ChunkReassembler) (ts : TypeScript.ChunkReassembler) :
    Prop where
  limit : ts.frameLimit = rust.maxFrameBytes
  count : ts.count = (rust.count.map UInt32.toNat).getD 0
  index : ts.expectedIndex = rust.nextIndex.toNat
  size : ts.size = rust.buffer.length
  parts : ts.parts.flatten = rust.buffer
  started : ∀ count, rust.count = some count → rust.nextIndex.toNat < count.toNat
  fresh : rust.count = none → rust.nextIndex = 0

namespace ChunkReassembler.Agrees

variable {rust : ChunkReassembler} {ts : TypeScript.ChunkReassembler}

theorem reset (h : rust.Agrees ts) : rust.reset.Agrees ts.reset :=
  ⟨h.limit, rfl, rfl, rfl, rfl, nofun, fun _ => rfl⟩

variable {payload : List UInt8} {count : UInt32}

theorem index_lt (h : rust.Agrees ts) (ha : rust.Admits count payload) :
    rust.nextIndex.toNat < count.toNat := by
  cases hc : rust.count with
  | none =>
    rw [h.fresh hc]
    exact Nat.pos_of_ne_zero (UInt32.toNat_inj.not.mpr ha.pos)
  | some started =>
    rw [ha.started started hc]
    exact h.started started hc

theorem isFinal_iff (h : rust.Agrees ts) (ha : rust.Admits count payload) :
    rust.nextIndex + 1 = count ↔ ts.expectedIndex = count.toNat - 1 := by
  have hlt := h.index_lt ha
  have hc := count.toNat_lt
  rw [h.index, ← UInt32.toNat_inj, UInt32.toNat_add, UInt32.toNat_one,
    Nat.mod_eq_of_lt (by omega)]
  omega

theorem extend (h : rust.Agrees ts) (ha : rust.Admits count payload)
    (hm : rust.nextIndex + 1 ≠ count) :
    (rust.extend count payload).Agrees { ts with
      count := count.toNat, size := ts.size + payload.length,
      expectedIndex := ts.expectedIndex + 1, parts := ts.parts ++ [payload] } := by
  have hlt := h.index_lt ha
  have hc := count.toNat_lt
  have hn : (rust.nextIndex + 1).toNat = rust.nextIndex.toNat + 1 := by
    rw [UInt32.toNat_add, UInt32.toNat_one, Nat.mod_eq_of_lt (by omega)]
  have hne : (rust.nextIndex + 1).toNat ≠ count.toNat := UInt32.toNat_inj.not.mpr hm
  refine ⟨h.limit, rfl, ?_, ?_, ?_, fun other ho => ?_, nofun⟩
  · rw [ChunkReassembler.extend, hn, h.index]
  · simp [ChunkReassembler.extend, h.size]
  · simp [ChunkReassembler.extend, h.parts]
  · cases ho
    simp only [ChunkReassembler.extend]
    omega

theorem started_iff (h : rust.Agrees ts) (count : UInt32) :
    (∀ started, rust.count = some started → count = started) ↔
      ¬(ts.count ≠ 0 ∧ count.toNat ≠ ts.count) := by
  rw [h.count]
  cases hc : rust.count with
  | none => simp
  | some started =>
    have hp := Nat.lt_of_le_of_lt (Nat.zero_le _) (h.started started hc)
    simp only [Option.some.injEq, forall_eq', Option.map_some, Option.getD_some]
    rw [← UInt32.toNat_inj]
    omega

end ChunkReassembler.Agrees

theorem TypeScript.getUint32_eq (message : List UInt8) (offset : Nat) :
    TypeScript.getUint32 message offset = (fromBeBytes ((message.drop offset).take 4)).toNat := by
  have hlt := BigEndian.value_lt ((message.drop offset).take 4)
  have hl : ((message.drop offset).take 4).length ≤ 4 := List.length_take_le _ _
  have hb : BigEndian.value ((message.drop offset).take 4) < 2 ^ 32 :=
    hlt.trans_le (Nat.pow_le_pow_right (by decide) hl)
  rw [TypeScript.getUint32, fromBeBytes, UInt32.toNat_ofNat_of_lt' hb]

section Push

variable {φ : Type} {rust : ChunkReassembler} {ts : TypeScript.ChunkReassembler}
  (decodeLine : List UInt8 → Nat → Except TypeScript.CodecError φ)

variable {payload message : List UInt8} {count : UInt32}

theorem ChunkReassembler.Agrees.readHeader (h : rust.Agrees ts)
    (ha : rust.Admits count payload) :
    ts.readHeader (chunkMessage rust.nextIndex count payload) =
      .ok (rust.nextIndex.toNat, count.toNat) := by
  have hl := chunkMessage_length rust.nextIndex count payload
  have hb := (le_maxChunksFor count rust.maxFrameBytes).mp ha.bound
  have hp := Nat.pos_of_ne_zero (UInt32.toNat_inj.not.mpr ha.pos)
  have hv : (chunkMessage rust.nextIndex count payload).headD 0 =
      TypeScript.chunkFormatVersion := rfl
  have hs := (h.started_iff count).mp ha.started
  simp only [TypeScript.ChunkReassembler.readHeader, hv, TypeScript.getUint32_eq,
    chunkMessage_index, chunkMessage_count]
  rw [if_neg (by rw [hl]; exact Nat.not_lt.mpr (Nat.le_add_right _ _)), if_neg (by simp),
    if_neg, if_neg (by rw [h.index]; simp), if_neg hs]
  rw [TypeScript.ChunkReassembler.maxChunks, TypeScript.maxChunksFor, h.limit]
  exact not_or.mpr ⟨Nat.not_lt.mpr hp, Nat.not_lt.mpr hb⟩

theorem ChunkReassembler.Agrees.push_admitted (h : rust.Agrees ts)
    (ha : rust.Admits count payload) :
    ts.push decodeLine (chunkMessage rust.nextIndex count payload) =
      if rust.nextIndex + 1 = count then
        (ts.reset, (decodeLine (rust.buffer ++ payload) rust.maxFrameBytes).map some)
      else
        ({ ts with
            count := count.toNat, size := ts.size + payload.length,
            expectedIndex := ts.expectedIndex + 1, parts := ts.parts ++ [payload] }, .ok none) := by
  have hfi := h.isFinal_iff ha
  have hc : TypeScript.ChunkReassembler.concatParts (ts.parts ++ [payload])
      (ts.size + payload.length) = rust.buffer ++ payload := by
    have hf : (ts.parts ++ [payload]).flatten = rust.buffer ++ payload := by simp [h.parts]
    rw [← hf, ← TypeScript.ChunkReassembler.concatParts_eq, hf, List.length_append,
      h.size]
  have hp : (chunkMessage rust.nextIndex count payload).drop TypeScript.chunkHeaderBytes =
      payload := rfl
  have hle : payload.length ≠ 0 := fun hz =>
    ha.nonempty (List.length_eq_zero_iff.mp hz)
  have hw : ¬ts.frameLimit < ts.size + payload.length := by
    rw [h.limit, h.size]
    exact Nat.not_lt.mpr ha.within
  simp only [TypeScript.ChunkReassembler.push, TypeScript.ChunkReassembler.accept,
    h.readHeader ha, ← h.index, ← hfi, hp]
  rw [if_neg hw, if_neg hle, if_neg fun hd =>
    Nat.not_lt.mpr (ha.filled hd.1) hd.2]
  by_cases hl : rust.nextIndex + 1 = count
  · rw [if_neg (not_not.mpr hl), if_pos hl, hc, ← h.limit]
    cases decodeLine (rust.buffer ++ payload) ts.frameLimit <;> rfl
  · rw [if_pos hl, if_neg hl]

theorem ChunkReassembler.Agrees.message_of_header (h : rust.Agrees ts) {index count : Nat}
    (hr : ts.readHeader message = .ok (index, count)) :
    ∃ announced : UInt32, count = announced.toNat ∧ index = rust.nextIndex.toNat ∧
      message = chunkMessage rust.nextIndex announced (message.drop chunkHeaderBytes) ∧
      announced ≠ 0 ∧ announced ≤ maxChunksFor rust.maxFrameBytes ∧
      ∀ started, rust.count = some started → announced = started := by
  simp only [TypeScript.ChunkReassembler.readHeader] at hr
  split at hr
  · cases hr
  split at hr
  · cases hr
  split at hr
  · cases hr
  split at hr
  · cases hr
  split at hr
  · cases hr
  rename_i hh hv hc hi hs
  obtain ⟨rfl, rfl⟩ := Prod.mk.inj (Except.ok.inj hr)
  rw [not_not] at hv hi
  rw [TypeScript.getUint32_eq] at hc hi hs ⊢
  rw [not_or, Nat.not_lt, Nat.not_lt, TypeScript.ChunkReassembler.maxChunks, h.limit] at hc
  have hl : chunkHeaderBytes ≤ message.length := Nat.not_lt.mp hh
  have hhe : message.headD chunkFormatVersion = chunkFormatVersion := by
    cases message with
    | nil => rfl
    | cons first rest => exact hv
  have hn : fromBeBytes ((message.drop 1).take 4) = rust.nextIndex := by
    rw [← UInt32.toNat_inj, ← h.index]
    exact hi
  refine ⟨fromBeBytes ((message.drop 5).take 4), rfl, ?_, ?_, ?_, ?_, ?_⟩
  · rw [TypeScript.getUint32_eq, hn]
  · rw [← hn]
    exact eq_chunkMessage hhe hl
  · exact UInt32.toNat_inj.not.mp (Nat.pos_iff_ne_zero.mp hc.1)
  · exact (le_maxChunksFor _ _).mpr hc.2
  · exact (h.started_iff _).mpr hs

theorem ChunkReassembler.Agrees.push_refused (h : rust.Agrees ts)
    (hn : ∀ count payload, message = chunkMessage rust.nextIndex count payload →
      ¬rust.Admits count payload) :
    ∃ error, ts.push decodeLine message = (ts.reset, .error error) := by
  have hre : ∃ error, ts.accept decodeLine message = (ts, .error error) := by
    cases hr : ts.readHeader message with
    | error error => exact ⟨error, by simp only [TypeScript.ChunkReassembler.accept, hr]⟩
    | ok header =>
      obtain ⟨index, count⟩ := header
      obtain ⟨announced, rfl, rfl, hm, hp, hb, hs⟩ := h.message_of_header hr
      simp only [TypeScript.ChunkReassembler.accept, hr]
      split
      · exact ⟨_, rfl⟩
      split
      · exact ⟨_, rfl⟩
      split
      · exact ⟨_, rfl⟩
      rename_i hw hpa hf
      refine absurd ?_ (hn _ _ hm)
      refine ⟨hp, hb, hs, fun he => hpa ?_, fun hmo => ?_, ?_⟩
      · exact List.length_eq_zero_iff.mpr he
      · by_contra hlt
        refine hf ⟨fun hfi => hmo ?_, Nat.not_le.mp hlt⟩
        rw [← UInt32.toNat_inj, UInt32.toNat_add, UInt32.toNat_one]
        have hc := announced.toNat_lt
        have hne := Nat.pos_of_ne_zero (UInt32.toNat_inj.not.mpr hp)
        rw [Nat.mod_eq_of_lt (by omega)]
        omega
      · rw [← h.limit, ← h.size]
        exact Nat.not_lt.mp hw
  obtain ⟨error, her⟩ := hre
  exact ⟨error, by rw [TypeScript.ChunkReassembler.push, her]⟩

end Push

section Run

variable {φ : Type} {rust : ChunkReassembler} {ts : TypeScript.ChunkReassembler}
  {decodeBytes : List UInt8 → Nat → Except CodecError φ}
  {decodeLine : List UInt8 → Nat → Except TypeScript.CodecError φ}

/-- One message, for decoders that differ in their refusals only: the same answer, but for the
refusal, and reassemblers that still agree. -/
theorem ChunkReassembler.Agrees.push (h : rust.Agrees ts)
    (hs : ∀ line limit, (decodeBytes line limit).toOption = (decodeLine line limit).toOption)
    (message : List UInt8) :
    (rust.push decodeBytes message).2.toOption = (ts.push decodeLine message).2.toOption ∧
      (rust.push decodeBytes message).1.Agrees (ts.push decodeLine message).1 := by
  by_cases had : ∃ count payload, message = chunkMessage rust.nextIndex count payload ∧
      rust.Admits count payload
  · obtain ⟨count, payload, rfl, ha⟩ := had
    rw [h.push_admitted _ ha]
    by_cases hl : rust.nextIndex + 1 = count
    · rw [push_completed _ ha hl, if_pos hl]
      refine ⟨?_, h.reset⟩
      rw [toOption_map, toOption_map, hs]
    · rw [push_extended _ ha hl, if_neg hl]
      exact ⟨rfl, h.extend ha hl⟩
  · have hn : ∀ count payload, message = chunkMessage rust.nextIndex count payload →
        ¬rust.Admits count payload :=
      fun count payload hm ha => had ⟨count, payload, hm, ha⟩
    obtain ⟨error, he⟩ := h.push_refused decodeLine hn
    rcases rust.push_cases decodeBytes message with ⟨error', he'⟩ | hc
    · rw [he, he']
      exact ⟨rfl, h.reset⟩
    · exact absurd hc had

theorem ChunkReassembler.Agrees.run (h : rust.Agrees ts)
    (hs : ∀ line limit, (decodeBytes line limit).toOption = (decodeLine line limit).toOption)
    (messages : List (List UInt8)) :
    (rust.run decodeBytes messages).2.map Except.toOption =
      (ts.run decodeLine messages).2.map Except.toOption := by
  induction messages generalizing rust ts with
  | nil => rfl
  | cons message messages ih =>
    obtain ⟨han, ha⟩ := h.push hs message
    simp only [ChunkReassembler.run, TypeScript.ChunkReassembler.run, List.map_cons, han,
      ih ha]

theorem map_chunkVerdict {ε ε' : Type} {answers : List (Except ε (Option (List UInt8)))}
    {answers' : List (Except ε' (Option (List UInt8)))}
    (h : answers.map Except.toOption = answers'.map Except.toOption) :
    answers.map chunkVerdict = answers'.map chunkVerdict := by
  let verdict (answer : Option (Option (List UInt8))) : ChunkVerdict :=
    (answer.map fun line => line.elim .more .complete).getD .refused
  have hv {ε : Type} (answers : List (Except ε (Option (List UInt8)))) :
      answers.map chunkVerdict = (answers.map Except.toOption).map verdict := by
    rw [List.map_map]
    refine List.map_congr_left fun answer _ => ?_
    rcases answer with _ | _ | _ <;> rfl
  rw [hv, hv, h]

theorem ChunkReassembler.new_agrees {maxMessageBytes maxFrameBytes : Nat}
    (messageFloor : minMaxMessageBytes ≤ maxMessageBytes)
    (frameFloor : minMaxFrameBytes ≤ maxFrameBytes) :
    (ChunkReassembler.new maxMessageBytes maxFrameBytes messageFloor frameFloor).Agrees
      (TypeScript.ChunkReassembler.new maxFrameBytes frameFloor) :=
  ⟨rfl, rfl, rfl, rfl, rfl, nofun, fun _ => rfl⟩

end Run

/-! ### The chunkers -/

def cutLine (maxMessageBytes maxFrameBytes : Nat) (bytes : List UInt8) :
    Except CodecError (List (List UInt8)) :=
  let capacity := maxMessageBytes - chunkHeaderBytes
  let bound := maxChunksFor maxFrameBytes
  let count := u32Saturating (max (bytes.length ⌈/⌉ capacity) 1)
  if bound < count then
    .error (.new .chunkCount ("received a frame needing " ++ count.toNat.repr ++
      " chunks, expected at most " ++ bound.toNat.repr))
  else
    .ok ((List.range count.toNat).map fun index =>
      let start := index * capacity
      let stop := min (start + capacity) bytes.length
      chunkMessage (UInt32.ofNat index) count ((bytes.take stop).drop start))

variable {line : List UInt8} {maxMessageBytes maxFrameBytes : Nat}

theorem encodeChunks_eq_cutLine {platform : Platform} {frame : Frame}
    (ceiling : minMaxMessageBytes ≤ maxMessageBytes) :
    encodeChunks platform frame maxMessageBytes maxFrameBytes =
      (encodeFrameBytes platform frame maxFrameBytes).bind
        (cutLine maxMessageBytes maxFrameBytes) := by
  rw [encodeChunks, if_neg (Nat.not_lt.mpr ceiling)]
  rfl

theorem TypeScript.chunkMessage_eq {index count : Nat} (hi : index < 2 ^ 32)
    (hc : count < 2 ^ 32) (payload : List UInt8) :
    TypeScript.chunkMessage index count payload =
      MangoProtocol.chunkMessage (UInt32.ofNat index) (UInt32.ofNat count) payload := by
  rw [TypeScript.chunkMessage, MangoProtocol.chunkMessage, toBeBytes, toBeBytes,
    UInt32.toNat_ofNat_of_lt' hi, UInt32.toNat_ofNat_of_lt' hc]
  rfl

theorem cutLine_eq (ceiling : minMaxMessageBytes ≤ maxMessageBytes)
    (atLeast : minMaxFrameBytes ≤ maxFrameBytes) (atMost : maxFrameBytes ≤ 2 ^ 42)
    (fits : line.length ≤ maxFrameBytes) :
    cutLine maxMessageBytes maxFrameBytes line =
      .ok (TypeScript.cutLine maxMessageBytes line) := by
  have hc : max (line.length ⌈/⌉ (maxMessageBytes - chunkHeaderBytes)) 1 =
      max 1 (chunkCount maxMessageBytes line) := max_comm _ _
  have hp : 0 < maxFrameBytes ⌈/⌉ minNonfinalPayloadBytes :=
    (Blocks.lt_ceilDiv_iff (by decide)).mpr
      (by rw [Nat.zero_mul]; exact atLeast.trans_lt' (by decide))
  obtain ⟨hu, hb⟩ := chunkCount_le ceiling (fits.trans atMost) fits
  have hle : max 1 (chunkCount maxMessageBytes line) ≤ 0xffffffff := max_le (by decide) hu
  have hf : max 1 (chunkCount maxMessageBytes line) ≤
      maxFrameBytes ⌈/⌉ minNonfinalPayloadBytes := max_le hp hb
  have hn : (UInt32.ofNat (max 1 (chunkCount maxMessageBytes line))).toNat =
      max 1 (chunkCount maxMessageBytes line) :=
    UInt32.toNat_ofNat_of_lt' (Nat.lt_succ_of_le hle)
  have hin : ¬maxChunksFor maxFrameBytes <
      UInt32.ofNat (max 1 (chunkCount maxMessageBytes line)) := by
    rw [UInt32.not_lt, le_maxChunksFor, hn]
    exact hf
  simp only [cutLine, hc, u32Saturating, min_eq_left hle, if_neg hin, hn]
  congr 1
  refine List.map_congr_left fun index hi => ?_
  have hlt := List.mem_range.mp hi
  exact (TypeScript.chunkMessage_eq (by omega) (by omega) _).symm

theorem cutLine_run (ceiling : minMaxMessageBytes ≤ maxMessageBytes) (short : line.length ≤ 2 ^ 42)
    (nonempty : line ≠ []) (fits : line.length ≤ maxFrameBytes) :
    ∃ run : ChunkRun maxFrameBytes, TypeScript.cutLine maxMessageBytes line = run.messages ∧
      run.Complete ∧ run.payloads.flatten = line := by
  refine ⟨chunkRun ceiling line short nonempty fits, ?_, chunkRun_complete .., chunkRun_flatten ..⟩
  have hc : max 1 (line.length ⌈/⌉ (maxMessageBytes - TypeScript.chunkHeaderBytes)) =
      chunkCount maxMessageBytes line :=
    max_eq_right (chunkCount_pos ceiling nonempty)
  have hle := (chunkCount_le ceiling short fits).1
  rw [chunkRun_messages, TypeScript.cutLine]
  simp only [hc]
  refine List.map_congr_left fun index hi => ?_
  have hlt := List.mem_range.mp hi
  exact TypeScript.chunkMessage_eq (by omega) (by omega) _

theorem run_cutLine {φ : Type} {decodeLine : List UInt8 → Nat → Except TypeScript.CodecError φ}
    {frame : φ} (ceiling : minMaxMessageBytes ≤ maxMessageBytes)
    (atLeast : minMaxFrameBytes ≤ maxFrameBytes) (short : line.length ≤ 2 ^ 42)
    (nonempty : line ≠ []) (fits : line.length ≤ maxFrameBytes)
    (hd : decodeLine line maxFrameBytes = .ok frame) :
    ∃ held, ((TypeScript.ChunkReassembler.new maxFrameBytes atLeast).run decodeLine
      (TypeScript.cutLine maxMessageBytes line)).2 =
        List.replicate held (.ok none) ++ [.ok (some frame)] := by
  -- The Rust reassembler, with a decoder that refuses what this one refuses.
  let decodeBytes (line : List UInt8) (limit : Nat) : Except CodecError φ :=
    (decodeLine line limit).mapError fun _ => .new .schema ""
  have hs : ∀ line limit, (decodeBytes line limit).toOption =
      (decodeLine line limit).toOption := by
    intro line limit
    simp only [decodeBytes]
    cases decodeLine line limit <;> rfl
  obtain ⟨run, hm, hc, rfl⟩ := cutLine_run ceiling short nonempty fits
  let fresh := ChunkReassembler.new maxMessageBytes maxFrameBytes ceiling atLeast
  have hr : fresh.reset = fresh := rfl
  have hru : fresh.run decodeBytes run.messages =
      (fresh, List.replicate (run.payloads.length - 1) (.ok none) ++
        [(decodeBytes run.payloads.flatten maxFrameBytes).map some]) :=
    ChunkReassembler.run_complete decodeBytes hr run hc
  have hrun : (fresh.run decodeBytes run.messages).2.map Except.toOption = _ :=
    (ChunkReassembler.new_agrees ceiling atLeast).run hs run.messages
  have ha : ((TypeScript.ChunkReassembler.new maxFrameBytes atLeast).run decodeLine
      run.messages).2.map Except.toOption =
        (List.replicate (run.payloads.length - 1) none ++ [some frame]).map some := by
    rw [← hrun, hru, List.map_append, List.map_singleton, toOption_map, hs, hd]
    simp [Except.toOption]
  refine ⟨run.payloads.length - 1, ?_⟩
  rw [hm, eq_of_map_toOption ha, List.map_append, List.map_replicate]
  rfl

/-- Under a frame limit from 4096 to 2^42 the two reassemblers give the same verdict on every
message of any sequence and hand over the same line when a frame is complete, and the two chunkers
cut every line within the limit into the same messages; so two frames that are written as the same
line are sent as the same messages. -/
theorem ChunkReassembler.run_agrees {maxFrameBytes : Nat}
    (atLeast : minMaxFrameBytes ≤ maxFrameBytes)
    (atMost : maxFrameBytes ≤ 2 ^ 42) {maxMessageBytes : Nat}
    (ceiling : minMaxMessageBytes ≤ maxMessageBytes) :
    (∀ (accepts : List UInt8 → Nat → Bool) (refuse : List UInt8 → CodecError)
        (refuse' : List UInt8 → TypeScript.CodecError) (messages : List (List UInt8)),
        ((ChunkReassembler.new maxMessageBytes maxFrameBytes ceiling atLeast).run
            (acceptLine accepts refuse) messages).2.map chunkVerdict =
          ((TypeScript.ChunkReassembler.new maxFrameBytes atLeast).run
            (acceptLine accepts refuse') messages).2.map chunkVerdict) ∧
      (∀ line : List UInt8, line.length ≤ maxFrameBytes →
        cutLine maxMessageBytes maxFrameBytes line =
          .ok (TypeScript.cutLine maxMessageBytes line)) ∧
      ∀ (platform : Platform) (frame : Frame) (φ : Type)
        (serialise : φ → Except TypeScript.CodecError (List UInt8)) (frame' : φ)
        (line : List UInt8), encodeFrameBytes platform frame maxFrameBytes = .ok line →
        serialise frame' = .ok line →
        ∃ messages, encodeChunks platform frame maxMessageBytes maxFrameBytes = .ok messages ∧
          TypeScript.encodeChunks serialise frame' ⟨some maxMessageBytes, some maxFrameBytes⟩ =
            .ok messages := by
  refine ⟨fun accepts refuse refuse' messages => ?_,
    fun line fits => cutLine_eq ceiling atLeast atMost fits, ?_⟩
  · refine map_chunkVerdict ((new_agrees ceiling atLeast).run (fun line limit => ?_) messages)
    rw [toOption_acceptLine, toOption_acceptLine]
  intro platform frame φ serialise frame' line hl hs
  have fits : line.length ≤ maxFrameBytes := by
    obtain ⟨-, -, hle, rfl⟩ := encodeFrameBytes_eq_ok.mp hl
    exact hle
  refine ⟨TypeScript.cutLine maxMessageBytes line, ?_, ?_⟩
  · rw [encodeChunks_eq_cutLine ceiling, hl]
    exact cutLine_eq ceiling atLeast atMost fits
  · have hc : ¬maxMessageBytes < TypeScript.minMaxMessageBytes := Nat.not_lt.mpr ceiling
    have hli : ¬maxFrameBytes < TypeScript.minMaxFrameBytes := Nat.not_lt.mpr atLeast
    simp [TypeScript.encodeChunks, TypeScript.resolveMessageCeiling, TypeScript.encodeFrameBytes,
      TypeScript.resolveFrameLimit, TypeScript.resolveIntegerAtLeast, hc, hli, hs,
      Except.mapError, bind, Except.bind, Nat.not_lt.mpr fits, pure, Except.pure]

/-- A frame in one chunk, a chunk of another format version, and a chunk with a wrong index. -/
theorem ChunkReassembler.run_agrees_messages :
    let messages := [chunkMessage 0 1 [0x7b, 0x7d], [2], chunkMessage 1 2 [0x7b]]
    ((ChunkReassembler.new 2048 4096 (by decide) (by decide)).run
          (acceptLine (fun _ _ => true) fun _ => CodecError.new .schema "") messages).2.map
          chunkVerdict = [.complete [0x7b, 0x7d], .refused, .refused] ∧
      ((TypeScript.ChunkReassembler.new 4096 (by decide)).run
          (acceptLine (fun _ _ => true) fun _ => ⟨.schema, "", none⟩) messages).2.map
          chunkVerdict = [.complete [0x7b, 0x7d], .refused, .refused] := by
  intro messages
  have hr : ((ChunkReassembler.new 2048 4096 (by decide) (by decide)).run
      (acceptLine (fun _ _ => true) fun _ => CodecError.new .schema "") messages).2.map
      chunkVerdict = [.complete [0x7b, 0x7d], .refused, .refused] := by decide +kernel
  refine ⟨hr, ?_⟩
  rw [← hr]
  exact ((ChunkReassembler.run_agrees (by decide) (by decide) (by decide)).1 _ _ _ messages).symm

end MangoProtocol
