import MangoProtocol.TypeScript.WebSocketAccounts

/-! When a WebSocket port takes its peer for one that does not read.  From an empty queue, a frame
closes the port without a dropped message exactly when the messages that the socket has not taken as
it stops draining, each with its header, come to more than the frame limit. -/

namespace MangoProtocol.TypeScript

open ProofKit

variable {φ : Type}

/-! ### The answers of the socket -/

namespace Verdicts

/-- Of some messages, the number that the socket takes up to the first that it buffers. -/
def takenAtPause : Nat → Verdicts → Option Nat
  | 0, _ => none
  | count + 1, verdicts =>
    match verdicts.next with
    | .sent => (takenAtPause count verdicts.tail).map (· + 1)
    | .buffered => some 1
    | .dropped => none

/-- The socket drops one of some messages. -/
def drops : Nat → Verdicts → Bool
  | 0, _ => false
  | count + 1, verdicts =>
    match verdicts.next with
    | .sent => drops count verdicts.tail
    | .buffered => false
    | .dropped => true

end Verdicts

namespace WebSocketPort

variable {self : WebSocketPort φ}

theorem pump_stop (queuedBytes : Nat) (queue : List (List UInt8)) (verdicts : Verdicts) :
    match (pump queuedBytes queue verdicts).stop with
    | .empty => Verdicts.takenAtPause queue.length verdicts = none ∧
        Verdicts.drops queue.length verdicts = false
    | .buffered => ∃ taken, Verdicts.takenAtPause queue.length verdicts = some taken ∧
        Verdicts.drops queue.length verdicts = false ∧
        (pump queuedBytes queue verdicts).queue = queue.drop taken
    | .dropped _ => Verdicts.takenAtPause queue.length verdicts = none ∧
        Verdicts.drops queue.length verdicts = true := by
  induction queue generalizing queuedBytes verdicts with
  | nil => exact ⟨rfl, rfl⟩
  | cons message queue ih =>
    simp only [pump, List.length_cons, Verdicts.takenAtPause, Verdicts.drops]
    cases verdicts.next with
    | dropped => exact ⟨rfl, rfl⟩
    | buffered => exact ⟨1, rfl, rfl, rfl⟩
    | sent => grind

end WebSocketPort

/-! ### The bytes of a frame's messages -/

/-- The number of messages of a line. -/
def messageCount (ceiling size : Nat) : Nat := max 1 (size ⌈/⌉ (ceiling - chunkHeaderBytes))

/-- The bytes of the messages of a line after the first ones, headers included. -/
def bytesAfter (ceiling size taken : Nat) : Nat :=
  (size - taken * (ceiling - chunkHeaderBytes)) +
    chunkHeaderBytes * (messageCount ceiling size - taken)

theorem sum_slices (capacity size first count : Nat) :
    ((List.range' first count).map fun index =>
      chunkHeaderBytes + (min (index * capacity + capacity) size - index * capacity)).sum =
      chunkHeaderBytes * count + (min ((first + count) * capacity) size - first * capacity) := by
  induction count generalizing first with
  | zero => simp
  | succ count ih =>
    have hf : (first + 1) * capacity = first * capacity + capacity := Nat.succ_mul _ _
    have hl : (first + 1 + count) * capacity = (first + (count + 1)) * capacity := by ring
    have hg : first * capacity + capacity ≤ (first + (count + 1)) * capacity := by
      rw [← hf]
      exact Nat.mul_le_mul_right _ (by omega)
    rw [List.range'_succ, List.map_cons, List.sum_cons, ih (first + 1), hf, hl, Nat.mul_succ]
    omega

theorem chunkMessage_size (index count : Nat) (payload : List UInt8) :
    (chunkMessage index count payload).length = chunkHeaderBytes + payload.length := by
  simp only [chunkMessage, uint32Bytes, List.length_append, List.length_singleton,
    BigEndian.length_bytes, chunkHeaderBytes]

theorem length_cutLine (ceiling : Nat) (bytes : List UInt8) :
    (cutLine ceiling bytes).length = messageCount ceiling bytes.length := by
  simp [cutLine, messageCount]

theorem le_messageCount_mul {ceiling : Nat} (hc : chunkHeaderBytes < ceiling) (size : Nat) :
    size ≤ messageCount ceiling size * (ceiling - chunkHeaderBytes) := by
  have hp : 0 < ceiling - chunkHeaderBytes := Nat.sub_pos_of_lt hc
  have hce : size ≤ (ceiling - chunkHeaderBytes) * (size ⌈/⌉ (ceiling - chunkHeaderBytes)) :=
    (ceilDiv_le_iff_le_mul hp).mp le_rfl
  calc size ≤ (size ⌈/⌉ (ceiling - chunkHeaderBytes)) * (ceiling - chunkHeaderBytes) := by
        rwa [Nat.mul_comm]
    _ ≤ messageCount ceiling size * (ceiling - chunkHeaderBytes) :=
        Nat.mul_le_mul_right _ (le_max_right _ _)

theorem sum_drop_cutLine {ceiling : Nat} (hc : chunkHeaderBytes < ceiling)
    (bytes : List UInt8) {taken : Nat} (ht : taken ≤ messageCount ceiling bytes.length) :
    (((cutLine ceiling bytes).drop taken).map List.length).sum =
      bytesAfter ceiling bytes.length taken := by
  have hco := le_messageCount_mul hc bytes.length
  have hsl (index : Nat) :
      (chunkMessage index (messageCount ceiling bytes.length)
        ((bytes.take (min (index * (ceiling - chunkHeaderBytes) + (ceiling - chunkHeaderBytes))
          bytes.length)).drop (index * (ceiling - chunkHeaderBytes)))).length =
      chunkHeaderBytes + (min (index * (ceiling - chunkHeaderBytes) + (ceiling - chunkHeaderBytes))
        bytes.length - index * (ceiling - chunkHeaderBytes)) := by
    rw [chunkMessage_size, List.length_drop, List.length_take]
    omega
  have hs := sum_slices (ceiling - chunkHeaderBytes) bytes.length taken
    (messageCount ceiling bytes.length - taken)
  rw [Nat.add_sub_cancel' ht, Nat.min_eq_right hco] at hs
  rw [cutLine]
  dsimp only
  rw [← messageCount, ← List.map_drop, List.map_map, List.range_eq_range', List.drop_range']
  simp only [Function.comp_def, hsl, Nat.zero_add, Nat.mul_one]
  rw [hs, bytesAfter, Nat.add_comm]

/-! ### A frame on an empty queue -/

theorem Verdicts.of_takenAtPause {count taken : Nat} {verdicts : Verdicts}
    (h : verdicts.takenAtPause count = some taken) :
    taken ≤ count ∧ verdicts.drops count = false := by
  induction count generalizing taken verdicts with
  | zero => cases h
  | succ count ih =>
    rw [takenAtPause] at h
    rw [drops]
    split at h
    · grind [Option.map_eq_some_iff, Nat.succ_le_succ]
    · cases h
      exact ⟨Nat.le_add_left 1 count, rfl⟩
    · cases h

namespace WebSocketPort

variable {format : FrameFormat φ} {self : WebSocketPort φ} {frame : φ}
  {messages : List (List UInt8)} {bytes : List UInt8}

/-- The number of messages that the socket has taken as it stops draining, if it does stop. -/
def takenAtPause (self : WebSocketPort φ) (count : Nat) (verdicts : Verdicts) : Option Nat :=
  if self.paused then some 0 else verdicts.takenAtPause count

/-- The bytes of a line's messages that the socket has not taken as it stops draining. -/
def heldAtPause (self : WebSocketPort φ) (size : Nat) (verdicts : Verdicts) : Option Nat :=
  (self.takenAtPause (messageCount self.ceiling size) verdicts).map (bytesAfter self.ceiling size)

theorem encode_eq (hs : format.serialise frame = .ok bytes)
    (he : self.encode format frame = .ok messages) :
    minMaxMessageBytes ≤ self.ceiling ∧ messages = cutLine self.ceiling bytes := by
  unfold encode encodeChunks encodeFrameBytes at he
  rw [hs] at he
  have hc : resolveMessageCeiling self.chunkOptions.maxMessageBytes =
      if self.ceiling < minMaxMessageBytes then .error (.rangeError ("maxMessageBytes is " ++
        self.ceiling.repr ++ "; expected an integer of at least " ++ minMaxMessageBytes.repr))
      else .ok self.ceiling := rfl
  rw [hc] at he
  split at he
  case isTrue => cases he
  case isFalse hf =>
    refine ⟨Nat.not_lt.mp hf, ?_⟩
    cases hl : resolveFrameLimit self.chunkOptions.maxFrameBytes with
    | error thrown =>
      rw [hl] at he
      cases he
    | ok limit =>
      rw [hl] at he
      simp only [bind, Except.bind, Except.mapError, pure, Except.pure] at he
      split at he
      · cases he
      · grind

theorem checkStalled_isOpen (ho : self.isOpen = true) :
    self.checkStalled.1.isOpen = false ↔
      self.paused = true ∧ self.maxFrameBytes < self.queuedBytes := by
  unfold checkStalled
  split
  case isTrue hs =>
    have hcl : self.Cleared := fun hc => by cases ho.symm.trans hc
    exact ⟨fun _ => hs, fun _ => (failSend_ended hcl _).isOpen⟩
  case isFalse hn =>
    refine ⟨fun hc => ?_, fun hs => absurd hs hn⟩
    cases ho.symm.trans hc

theorem flush_isOpen (self : WebSocketPort φ) (ho : self.isOpen = true)
    (hb : self.queuedBytes = (self.queue.map List.length).sum) (verdicts : Verdicts) :
    (self.flush verdicts).1.isOpen = false ↔
      (self.paused = false ∧ verdicts.drops self.queue.length = true) ∨
      ∃ taken, self.takenAtPause self.queue.length verdicts = some taken ∧
        self.maxFrameBytes < ((self.queue.drop taken).map List.length).sum := by
  unfold flush takenAtPause
  by_cases hp : self.paused = true
  · rw [if_neg (fun h => h.2 hp), checkStalled_isOpen ho, hb]
    simp [hp]
  · have hr : self.paused = false := Bool.eq_false_iff.mpr hp
    have hs := pump_stop self.queuedBytes self.queue verdicts
    have hsp := (pump_spec self.queue verdicts).1
    rw [← hb] at hsp
    rw [if_pos ⟨ho, hp⟩, if_neg hp]
    dsimp only
    generalize pump self.queuedBytes self.queue verdicts = pumped at *
    cases he : pumped.stop with
    | empty =>
      rw [he] at hs
      simp [hs.1, hs.2, ho]
    | dropped message =>
      rw [he] at hs
      have hc : Cleared
          { self with queue := pumped.queue, queuedBytes := pumped.queuedBytes } :=
        fun hcl => by cases ho.symm.trans hcl
      exact iff_of_true (failSend_ended hc _).isOpen (.inl ⟨hr, hs.2⟩)
    | buffered =>
      rw [he] at hs
      obtain ⟨taken, ht, hd, hq⟩ := hs
      have hst : (checkStalled { self with
          queue := pumped.queue, queuedBytes := pumped.queuedBytes, paused := true }).1.isOpen =
          false ↔ true = true ∧ self.maxFrameBytes < pumped.queuedBytes :=
        checkStalled_isOpen ho
      refine hst.trans ?_
      rw [hsp, hq]
      simp [ht, hd]

theorem takenAtPause_spec {count taken : Nat} {verdicts : Verdicts}
    (h : self.takenAtPause count verdicts = some taken) :
    taken ≤ count ∧ ¬(self.paused = false ∧ verdicts.drops count = true) := by
  unfold takenAtPause at h
  split at h
  case isTrue hp =>
    cases h
    exact ⟨Nat.zero_le count, fun hd => by cases hp.symm.trans hd.1⟩
  case isFalse =>
    obtain ⟨hle, hdr⟩ := Verdicts.of_takenAtPause h
    exact ⟨hle, fun hd => by cases hdr.symm.trans hd.2⟩

end WebSocketPort

namespace PortRun

variable {format : FrameFormat φ} {run : PortRun φ} {options : WebSocketPortOptions}
  {created : WebSocketPort φ × List (PortAction φ)} {labels : List (PortLabel φ)}

/-- A frame that the codec accepts, sent on an empty queue: the port stays open unless the socket
drops a message, exactly when what waits as the socket stops draining is within the frame limit. -/
theorem send_stays_open_iff (hcreated : createWebSocketPort options = .ok created)
    (hrun : Machine.run (step format) (start created) labels = some run)
    (hopen : run.port.isOpen = true) (hempty : run.port.queue = []) {frame : φ}
    {bytes : List UInt8} {messages : List (List UInt8)}
    (hserialised : format.serialise frame = .ok bytes)
    (hencoded : run.port.encode format frame = .ok messages) (verdicts : Verdicts) :
    ∃ result, run.port.send format frame verdicts = .ok result ∧
      ((result.1.isOpen = false →
          run.port.paused = false ∧ verdicts.drops messages.length = true) ↔
        ∀ held, run.port.heldAtPause bytes.length verdicts = some held →
          held ≤ run.port.maxFrameBytes) := by
  obtain ⟨hce, hm⟩ := WebSocketPort.encode_eq hserialised hencoded
  have hh : chunkHeaderBytes < run.port.ceiling := Nat.lt_of_lt_of_le (by decide) hce
  have hco : messages.length = messageCount run.port.ceiling bytes.length := by
    rw [hm, length_cutLine]
  have hb := (run_kept hcreated hrun).1.bytes
  refine ⟨run.port.enqueue messages verdicts, ?_, ?_⟩
  · rw [WebSocketPort.send, if_neg (not_not_intro hopen), hencoded]
  · have hc : (run.port.enqueue messages verdicts).1.isOpen = false ↔
        (run.port.paused = false ∧ verdicts.drops messages.length = true) ∨
        ∃ taken, run.port.takenAtPause messages.length verdicts = some taken ∧
          run.port.maxFrameBytes < ((messages.drop taken).map List.length).sum := by
      have hf := WebSocketPort.flush_isOpen { run.port with
        queue := messages, queuedBytes := (messages.map List.length).sum } hopen rfl verdicts
      rw [WebSocketPort.enqueue, hb, hempty, List.nil_append, List.map_nil, List.sum_nil,
        Nat.zero_add]
      exact hf
    have hhe : run.port.heldAtPause bytes.length verdicts =
        (run.port.takenAtPause messages.length verdicts).map
          (bytesAfter run.port.ceiling bytes.length) := by
      rw [WebSocketPort.heldAtPause, hco]
    have hs {taken : Nat} (ht : run.port.takenAtPause messages.length verdicts = some taken) :
        ((messages.drop taken).map List.length).sum =
          bytesAfter run.port.ceiling bytes.length taken := by
      rw [hm]
      exact sum_drop_cutLine hh bytes (hco ▸ (WebSocketPort.takenAtPause_spec ht).1)
    rw [hhe]
    constructor
    · intro hst held heq
      obtain ⟨taken, ht, rfl⟩ := Option.map_eq_some_iff.mp heq
      by_contra ho
      have ho : run.port.maxFrameBytes < ((messages.drop taken).map List.length).sum := by
        rw [hs ht]
        exact Nat.not_le.mp ho
      exact (WebSocketPort.takenAtPause_spec ht).2
        (hst (hc.mpr (.inr ⟨taken, ht, ho⟩)))
    · intro hr hcl
      rcases hc.mp hcl with hd | ⟨taken, ht, ho⟩
      · exact hd
      · have hfi := hr _ (by rw [ht]; rfl)
        rw [← hs ht] at hfi
        omega

/-! ### A paused port -/

/-- The socket buffers the only message, and so pauses the port with an empty queue. -/
def pausingLabels : List (PortLabel (List UInt8)) := [.send [123] [some .buffered]]

theorem send_stays_open_iff_paused :
    ∃ created run, createWebSocketPort smallOptions = .ok created ∧
      Machine.run (step lineFormat) (start created) pausingLabels = some run ∧
      run.port.paused = true ∧
      ∃ result, run.port.send lineFormat [125] [] = .ok result ∧
        (result.1.isOpen = false → run.port.paused = false) := by
  have hex : ∃ created run, createWebSocketPort smallOptions = .ok created ∧
      Machine.run (step lineFormat) (start created) pausingLabels = some run ∧
      run.port.isOpen = true ∧ run.port.queue = [] ∧ run.port.paused = true ∧
      run.port.encode lineFormat [125] = .ok [chunkMessage 0 1 [125]] ∧
      run.port.heldAtPause 1 [] = some 10 ∧ run.port.maxFrameBytes = 4096 :=
    exists_created (by decide +kernel)
  obtain ⟨created, run, hc, hr, ho, hem, hp, he, hh, hl⟩ := hex
  obtain ⟨result, hs, hi⟩ := send_stays_open_iff hc hr ho hem rfl he []
  refine ⟨created, run, hc, hr, hp, result, hs, fun hcl => ?_⟩
  refine (hi.mpr (fun held heq => ?_) hcl).1
  cases hh.symm.trans heq
  rw [hl]
  decide

/-- A frame of exactly the frame limit closes a port whose queue is empty, although the socket drops
nothing. -/
theorem full_frame_closes :
    ∃ created run, createWebSocketPort smallOptions = .ok created ∧
      Machine.run (step lineFormat) (start created) pausingLabels = some run ∧
      run.port.isOpen = true ∧ run.port.queue = [] ∧
      (run.port.encode lineFormat (List.replicate 4096 125)).isOk = true ∧
      (run.port.send lineFormat (List.replicate 4096 125) []).toOption.any (fun result =>
        !result.1.isOpen && (handedOf result.2).isEmpty) = true :=
  exists_created (by decide +kernel)

end PortRun

end MangoProtocol.TypeScript
