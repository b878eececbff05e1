import MangoProtocol.Codec.Chunk

/-! The language of the reassembler.  A run is the chunk messages of one frame, whole or up to some
chunk; the state of the reassembler stands for the run it has started, and a push refuses exactly
the messages that do not extend that run. -/

namespace MangoProtocol

open ProofKit

/-! ### Messages -/

theorem fromBeBytes_toBeBytes (n : UInt32) : fromBeBytes (toBeBytes n) = n := by
  have hn : n.toNat < 256 ^ 4 := n.toNat_lt
  simp [fromBeBytes, toBeBytes, BigEndian.value_bytes hn]

theorem toBeBytes_fromBeBytes {bytes : List UInt8} (h : bytes.length = 4) :
    toBeBytes (fromBeBytes bytes) = bytes := by
  have hlt : BigEndian.value bytes < 2 ^ 32 := by
    have := BigEndian.value_lt bytes
    rwa [h] at this
  rw [toBeBytes, fromBeBytes, UInt32.toNat_ofNat_of_lt' hlt, ← h, BigEndian.bytes_value]

theorem chunkMessage_index (index count : UInt32) (payload : List UInt8) :
    fromBeBytes (((chunkMessage index count payload).drop 1).take 4) = index :=
  fromBeBytes_toBeBytes index

theorem chunkMessage_count (index count : UInt32) (payload : List UInt8) :
    fromBeBytes (((chunkMessage index count payload).drop 5).take 4) = count :=
  fromBeBytes_toBeBytes count

theorem chunkMessage_length (index count : UInt32) (payload : List UInt8) :
    (chunkMessage index count payload).length = chunkHeaderBytes + payload.length := by
  simp only [chunkMessage, toBeBytes, List.length_append, BigEndian.length_bytes,
    List.length_singleton, chunkHeaderBytes]

theorem eq_chunkMessage {message : List UInt8}
    (version : message.headD chunkFormatVersion = chunkFormatVersion)
    (header : chunkHeaderBytes ≤ message.length) :
    message = chunkMessage (fromBeBytes ((message.drop 1).take 4))
      (fromBeBytes ((message.drop 5).take 4)) (message.drop chunkHeaderBytes) := by
  unfold chunkHeaderBytes at header
  rw [chunkMessage, toBeBytes_fromBeBytes (by simp; omega), toBeBytes_fromBeBytes (by simp; omega)]
  match message, header with
  | a :: b :: c :: d :: e :: f :: g :: h :: i :: rest, _ =>
    simp only [List.headD_cons] at version
    simp [version, chunkHeaderBytes]

theorem le_maxChunksFor (count : UInt32) (maxFrameBytes : Nat) :
    count ≤ maxChunksFor maxFrameBytes ↔
      count.toNat ≤ maxFrameBytes ⌈/⌉ minNonfinalPayloadBytes := by
  have hc := count.toNat_lt
  have hb : (maxChunksFor maxFrameBytes).toNat =
      min (maxFrameBytes ⌈/⌉ minNonfinalPayloadBytes) 0xffffffff := by
    rw [maxChunksFor, u32Saturating, UInt32.toNat_ofNat_of_lt']
    exact lt_of_le_of_lt (min_le_right _ _) (by decide)
  rw [UInt32.le_iff_toNat_le, hb]
  omega

/-! ### One message -/

structure ChunkReassembler.Admits (state : ChunkReassembler) (count : UInt32)
    (payload : List UInt8) : Prop where
  pos : count ≠ 0
  bound : count ≤ maxChunksFor state.maxFrameBytes
  started : ∀ started, state.count = some started → count = started
  nonempty : payload ≠ []
  filled : state.nextIndex + 1 ≠ count → minNonfinalPayloadBytes ≤ payload.length
  within : state.buffer.length + payload.length ≤ state.maxFrameBytes

def ChunkReassembler.extend (self : ChunkReassembler) (count : UInt32) (payload : List UInt8) :
    ChunkReassembler :=
  { self with
    count := some count, nextIndex := self.nextIndex + 1, buffer := self.buffer ++ payload }

theorem ChunkReassembler.getD_count {self : ChunkReassembler} {count : UInt32} :
    count = self.count.getD count ↔ ∀ started, self.count = some started → count = started := by
  cases self.count <;> simp

section Push

variable {φ : Type} (decodeBytes : List UInt8 → Nat → Except CodecError φ)

variable {self : ChunkReassembler} {payload : List UInt8} {count : UInt32}

theorem ChunkReassembler.decode_admitted (h : self.Admits count payload) :
    self.decode decodeBytes (chunkMessage self.nextIndex count payload) =
      if self.nextIndex + 1 = count then
        (self.reset, (decodeBytes (self.buffer ++ payload) self.maxFrameBytes).map some)
      else (self.extend count payload, .ok none) := by
  have hv : (chunkMessage self.nextIndex count payload).headD chunkFormatVersion =
      chunkFormatVersion := rfl
  have hp : (chunkMessage self.nextIndex count payload).drop chunkHeaderBytes = payload := rfl
  have hl := chunkMessage_length self.nextIndex count payload
  have hs := getD_count.mpr h.started
  simp only [decode, hv, chunkMessage_index, chunkMessage_count, hp, ← hs]
  rw [if_neg (by simp), if_neg (by omega), if_neg (not_or.mpr ⟨h.pos, UInt32.not_lt.mpr h.bound⟩),
    if_neg (by simp), if_neg (by simp), if_neg h.nonempty,
    if_neg (fun hd => Nat.not_lt.mpr (h.filled hd.1) hd.2),
    if_neg (Nat.not_lt.mpr h.within)]
  by_cases hf : self.nextIndex + 1 = count
  · simp [hf]
  · simp [hf, extend]

theorem ChunkReassembler.exists_refusal {condition : Prop} [Decidable condition]
    {refusal : CodecError} {next : ChunkReassembler × Except CodecError (Option φ)}
    (h : ¬condition → ∃ error, next = (self, .error error)) :
    ∃ error, (if condition then (self, .error refusal) else next) = (self, .error error) := by
  by_cases hc : condition
  · exact ⟨refusal, if_pos hc⟩
  · rw [if_neg hc]
    exact h hc

theorem ChunkReassembler.decode_refused (self : ChunkReassembler) (message : List UInt8)
    (h : ∀ count payload, message = chunkMessage self.nextIndex count payload →
      ¬self.Admits count payload) :
    ∃ error, self.decode decodeBytes message = (self, .error error) := by
  unfold decode
  dsimp only
  refine exists_refusal fun hv => exists_refusal fun hh => ?_
  have hm := eq_chunkMessage (not_not.mp hv) (Nat.not_lt.mp hh)
  refine exists_refusal fun hc => exists_refusal fun hs => ?_
  refine exists_refusal fun hi => exists_refusal fun hp => ?_
  refine exists_refusal fun hf => exists_refusal fun hw => ?_
  rw [not_not] at hs hi
  rw [not_or] at hc
  refine absurd ?_ (h _ _ (by rw [← hi]; exact hm))
  exact {
    pos := hc.1
    bound := UInt32.not_lt.mp hc.2
    started := getD_count.mp hs
    nonempty := hp
    filled := fun hfi => by
      by_contra hlt
      exact hf ⟨by rwa [hi], Nat.not_le.mp hlt⟩
    within := Nat.not_lt.mp hw }

theorem ChunkReassembler.push_cases (self : ChunkReassembler) (message : List UInt8) :
    (∃ error, self.push decodeBytes message = (self.reset, .error error)) ∨
      ∃ count payload, message = chunkMessage self.nextIndex count payload ∧
        self.Admits count payload := by
  by_cases h : ∃ count payload, message = chunkMessage self.nextIndex count payload ∧
      self.Admits count payload
  · exact .inr h
  · obtain ⟨error, he⟩ := decode_refused decodeBytes self message
      fun count payload hm ha => h ⟨count, payload, hm, ha⟩
    exact .inl ⟨error, by simp only [push, he]⟩

theorem ChunkReassembler.push_extended (h : self.Admits count payload)
    (hm : self.nextIndex + 1 ≠ count) :
    self.push decodeBytes (chunkMessage self.nextIndex count payload) =
      (self.extend count payload, .ok none) := by
  simp only [push, decode_admitted decodeBytes h, if_neg hm]

theorem ChunkReassembler.push_completed (h : self.Admits count payload)
    (hl : self.nextIndex + 1 = count) :
    self.push decodeBytes (chunkMessage self.nextIndex count payload) =
      (self.reset, (decodeBytes (self.buffer ++ payload) self.maxFrameBytes).map some) := by
  simp only [push, decode_admitted decodeBytes h, if_pos hl]
  cases decodeBytes (self.buffer ++ payload) self.maxFrameBytes <;> rfl

end Push

/-! ### Runs -/

theorem flatten_take_concat_le {payloads : List (List UInt8)} {payload : List UInt8} {limit : Nat}
    (hp : ∀ chunks : Nat, (payloads.take chunks).flatten.length ≤ limit)
    (ha : payloads.flatten.length + payload.length ≤ limit) (chunks : Nat) :
    ((payloads ++ [payload]).take chunks).flatten.length ≤ limit := by
  rcases Nat.lt_or_ge payloads.length chunks with hm | hl
  · grind [List.length_append, List.take_of_length_le, List.flatten_append]
  · rw [List.take_append_of_le_length hl]
    exact hp chunks

/-- The chunks of one frame, up to some chunk: what the transport allows a sender to send. -/
structure ChunkRun (maxFrameBytes : Nat) where
  count : UInt32
  payloads : List (List UInt8)
  pos : 1 ≤ count.toNat
  bound : count.toNat ≤ maxFrameBytes ⌈/⌉ minNonfinalPayloadBytes
  inCount : payloads.length ≤ count.toNat
  nonempty : ∀ payload ∈ payloads, payload ≠ []
  filled : ∀ (index : Nat) (payload : List UInt8), payloads[index]? = some payload →
    index + 1 < count.toNat → minNonfinalPayloadBytes ≤ payload.length
  within : ∀ chunks : Nat, (payloads.take chunks).flatten.length ≤ maxFrameBytes

namespace ChunkRun

variable {maxFrameBytes : Nat}

def messages (run : ChunkRun maxFrameBytes) : List (List UInt8) :=
  run.payloads.mapIdx fun index payload => chunkMessage (UInt32.ofNat index) run.count payload

def Complete (run : ChunkRun maxFrameBytes) : Prop := run.payloads.length = run.count.toNat

/-- The first chunks of a run. -/
def take (run : ChunkRun maxFrameBytes) (chunks : Nat) : ChunkRun maxFrameBytes where
  count := run.count
  payloads := run.payloads.take chunks
  pos := run.pos
  bound := run.bound
  inCount := (List.take_sublist _ _).length_le.trans run.inCount
  nonempty payload h := run.nonempty payload (List.mem_of_mem_take h)
  filled index payload h := run.filled index payload (by
    rw [List.getElem?_take] at h
    split at h
    · exact h
    · cases h)
  within more := by
    rw [List.take_take]
    exact run.within _

/-- A run with one more chunk. -/
def concat (run : ChunkRun maxFrameBytes) (payload : List UInt8)
    (room : run.payloads.length < run.count.toNat) (nonempty : payload ≠ [])
    (filled : run.payloads.length + 1 < run.count.toNat →
      minNonfinalPayloadBytes ≤ payload.length)
    (within : run.payloads.flatten.length + payload.length ≤ maxFrameBytes) :
    ChunkRun maxFrameBytes where
  count := run.count
  payloads := run.payloads ++ [payload]
  pos := run.pos
  bound := run.bound
  inCount := by
    rw [List.length_append]
    exact room
  nonempty other h := by
    rcases List.mem_append.mp h with h | h
    · exact run.nonempty other h
    · exact List.mem_singleton.mp h ▸ nonempty
  filled index other h hindex := by
    rcases Nat.lt_trichotomy index run.payloads.length with hlt | rfl | hgt
    · exact run.filled index other (by rwa [List.getElem?_append_left hlt] at h) hindex
    · simp only [List.getElem?_concat_length, Option.some.injEq] at h
      exact h ▸ filled hindex
    · simp [List.getElem?_append, Nat.not_lt.mpr hgt.le, Nat.sub_ne_zero_of_lt hgt] at h
  within := flatten_take_concat_le run.within within

/-- The run that has not started. -/
def empty (count : UInt32) (pos : 1 ≤ count.toNat)
    (bound : count.toNat ≤ maxFrameBytes ⌈/⌉ minNonfinalPayloadBytes) : ChunkRun maxFrameBytes :=
  ⟨count, [], pos, bound, Nat.zero_le _, by simp, by simp, by simp⟩

theorem messages_concat {run run' : ChunkRun maxFrameBytes} {payload : List UInt8}
    (hc : run'.count = run.count) (hp : run'.payloads = run.payloads ++ [payload]) :
    run'.messages =
      run.messages ++ [chunkMessage (UInt32.ofNat run.payloads.length) run.count payload] := by
  rw [messages, messages, hc, hp, List.mapIdx_concat]

end ChunkRun

/-! ### The state stands for a run -/

section Holds

structure ChunkReassembler.Holds (initial state : ChunkReassembler)
    (run : ChunkRun initial.maxFrameBytes) : Prop where
  reset : state.reset = initial
  misses : run.payloads.length < run.count.toNat
  index : state.nextIndex = UInt32.ofNat run.payloads.length
  buffer : state.buffer = run.payloads.flatten
  count : state.count = if run.payloads = [] then none else some run.count

namespace ChunkReassembler

variable {initial state : ChunkReassembler} {run : ChunkRun initial.maxFrameBytes}

theorem Holds.maxFrameBytes (h : Holds initial state run) :
    state.maxFrameBytes = initial.maxFrameBytes := by
  have hr := congrArg ChunkReassembler.maxFrameBytes h.reset
  exact hr

theorem Holds.index_toNat (h : Holds initial state run) :
    state.nextIndex.toNat = run.payloads.length := by
  have hc := run.count.toNat_lt
  have := h.misses
  rw [h.index, UInt32.toNat_ofNat_of_lt']
  simp only [UInt32.size]
  omega

theorem Holds.isFinal (h : Holds initial state run) :
    state.nextIndex + 1 = run.count ↔ run.payloads.length + 1 = run.count.toNat := by
  have hc := run.count.toNat_lt
  have hm := h.misses
  rw [← UInt32.toNat_inj, UInt32.toNat_add, h.index_toNat, UInt32.toNat_one, Nat.mod_eq_of_lt]
  omega

theorem Holds.start (hr : initial.reset = initial) (he : run.payloads = []) :
    Holds initial initial run where
  reset := hr
  misses := by rw [he]; exact run.pos
  index := (congrArg ChunkReassembler.nextIndex hr).symm.trans (by rw [he]; rfl)
  buffer := (congrArg ChunkReassembler.buffer hr).symm.trans (by rw [he]; rfl)
  count := (congrArg ChunkReassembler.count hr).symm.trans (by rw [if_pos he]; rfl)

variable {run' : ChunkRun initial.maxFrameBytes} {payload : List UInt8} {count : UInt32}

theorem Holds.extend (h : Holds initial state run) (hc : run'.count = run.count)
    (hp : run'.payloads = run.payloads ++ [payload])
    (hm : run.payloads.length + 1 ≠ run.count.toNat) :
    Holds initial (state.extend run.count payload) run' where
  reset := h.reset
  misses := by
    have := h.misses
    rw [hc, hp, List.length_append, List.length_singleton]
    omega
  index := by
    rw [hp, List.length_append, List.length_singleton, UInt32.ofNat_add, ← h.index]
    rfl
  buffer := by simp [ChunkReassembler.extend, h.buffer, hp]
  count := by simp [ChunkReassembler.extend, hp, hc]

theorem Holds.admits (h : Holds initial state run) (hc : run'.count = run.count)
    (hp : run'.payloads = run.payloads ++ [payload]) : state.Admits run.count payload where
  pos hz := by
    have := run.pos
    simp [hz] at this
  bound := by
    rw [le_maxChunksFor, h.maxFrameBytes]
    exact run.bound
  started started hs := by
    rw [h.count] at hs
    split at hs
    · cases hs
    · exact Option.some.inj hs
  nonempty := run'.nonempty payload (by simp [hp])
  filled hm := by
    have hmi := h.misses
    rw [Ne, h.isFinal] at hm
    exact run'.filled run.payloads.length payload (by simp [hp]) (by rw [hc]; omega)
  within := by
    have := run'.within run'.payloads.length
    rw [List.take_length, hp] at this
    rw [h.maxFrameBytes, h.buffer]
    simpa using this

/-- A state that has not started a frame stands for an unstarted run of any count, so it stands for
one with the count of the chunk it admits. -/
theorem Holds.recount (h : Holds initial state run) (ha : state.Admits count payload) :
    ∃ same : ChunkRun initial.maxFrameBytes,
      Holds initial state same ∧ same.count = count ∧ same.messages = run.messages := by
  by_cases he : run.payloads = []
  · have hp : 1 ≤ count.toNat := Nat.one_le_iff_ne_zero.mpr fun hz =>
      ha.pos (UInt32.toNat_inj.mp hz)
    have hb := (le_maxChunksFor count state.maxFrameBytes).mp ha.bound
    rw [h.maxFrameBytes] at hb
    refine ⟨.empty count hp hb, ?_, rfl, ?_⟩
    · exact ⟨h.reset, hp, by rw [h.index, he]; rfl, by rw [h.buffer, he]; rfl,
        by rw [h.count, if_pos he]; rfl⟩
    · rw [ChunkRun.messages, ChunkRun.messages, he]
      rfl
  · have hs := ha.started run.count (by rw [h.count, if_neg he])
    exact ⟨run, h, hs.symm, rfl⟩

theorem Holds.concat (h : Holds initial state run) (ha : state.Admits count payload) :
    ∃ same longer : ChunkRun initial.maxFrameBytes,
      Holds initial state same ∧ same.count = count ∧ same.messages = run.messages ∧
        longer.count = count ∧ longer.payloads = same.payloads ++ [payload] := by
  obtain ⟨same, hs, hc, hm⟩ := h.recount ha
  have hf (hmo : same.payloads.length + 1 < same.count.toNat) :
      minNonfinalPayloadBytes ≤ payload.length := by
    refine ha.filled fun hfi => ?_
    rw [← hc, hs.isFinal] at hfi
    omega
  have hw : same.payloads.flatten.length + payload.length ≤ initial.maxFrameBytes := by
    rw [← hs.buffer, ← h.maxFrameBytes]
    exact ha.within
  exact ⟨same, same.concat payload hs.misses ha.nonempty hf hw, hs, hc,
    hm, hc, rfl⟩

end ChunkReassembler

end Holds

end MangoProtocol
