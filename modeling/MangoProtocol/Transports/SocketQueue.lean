import MangoProtocol.ProofKit.Lists
import MangoProtocol.Transports.SocketWriter

/-! What the counter of a WebSocket port counts: the runs in its queue, those that a call has
counted and not queued yet, and the one that the writer task took and has not released. -/

namespace MangoProtocol

open ProofKit

variable {platform : Platform} {options : WebSocketOptions}

def WriteCommand.bytes : WriteCommand platform options → Nat
  | .chunks run => run.bytes
  | .close _ _ => 0

def SocketCall.bytes : SocketCall platform options → Nat
  | .counted run _ | .parting _ run => run.bytes
  | _ => 0

def DriveStage.bytes : DriveStage platform options → Nat
  | .taken run | .releasing run => run.bytes
  | _ => 0

/-- The task is gone for the call. -/
def SocketCall.stranded : SocketCall platform options → Bool
  | .unqueued _ | .uncounted => true
  | _ => false

/-- The task has closed the queue. -/
def DriveStage.hungUp : DriveStage platform options → Bool
  | .draining | .releasing _ | .shutting | .done => true
  | _ => false

def SocketShared.queueBytes (shared : SocketShared platform options) : Nat :=
  (shared.commands.waiting.map WriteCommand.bytes).sum

/-- The counter of a port whose task is there. -/
structure SocketWriter.Counted (writer : SocketWriter platform options) : Prop where
  total : writer.shared.closed = false → writer.shared.queuedBytes =
    writer.shared.queueBytes + (writer.calls.map SocketCall.bytes).sum + writer.drive.bytes
  heard : writer.shared.closed = false → ∀ call ∈ writer.calls, call.stranded = false
  hungUp : writer.drive.hungUp = writer.shared.closed

theorem SocketShared.queueBytes_send (shared : SocketShared platform options)
    (command : WriteCommand platform options) :
    { shared with commands := shared.commands.send command }.queueBytes =
      shared.queueBytes + command.bytes := by
  simp [SocketShared.queueBytes, Channel.waiting_send]

variable {shared after : SocketShared platform options} {call next : SocketCall platform options}

theorem SocketShared.queueBytes_recv {command : WriteCommand platform options}
    {commands : Channel (WriteCommand platform options)}
    (h : shared.commands.recv = some (command, commands)) :
    shared.queueBytes = command.bytes + { shared with commands }.queueBytes := by
  simp [SocketShared.queueBytes, Channel.recv_waiting h]

theorem SocketCall.Turn.counted (h : Turn shared call after next) (ho : shared.closed = false)
    (hh : call.stranded = false) :
    next.stranded = false ∧ after.queuedBytes + shared.queueBytes + call.bytes =
      shared.queuedBytes + after.queueBytes + next.bytes := by
  have hs := shared.queueBytes_send
  cases h <;>
    grind [SocketCall.stranded, SocketCall.bytes, WriteCommand.bytes, SocketShared.queueBytes]

theorem SocketCall.Turn.closed (h : Turn shared call after next) :
    after.closed = shared.closed := by
  cases h <;> rfl

namespace SocketWriter

variable {self next : SocketWriter platform options} {label : SocketLabel}

variable {call : SocketCall platform options}

theorem Counted.enter (h : self.Counted) (hb : call.bytes = 0) (hhe : call.stranded = false)
    : { self with calls := self.calls ++ [call] }.Counted := by
  obtain ⟨ht, hh, hhu⟩ := h
  constructor <;> grind

theorem Counted.turn (h : self.Counted) {index : Nat} {after : SocketCall platform options}
    {shared : SocketShared platform options} (hc : self.calls[index]? = some call)
    (ht : SocketCall.Turn self.shared call shared after) :
    { self with shared, calls := self.calls.set index after }.Counted := by
  obtain ⟨hto, hh, hhu⟩ := h
  have hcl := ht.closed
  have hm := ht.counted
  have hs : ((self.calls.set index after).map SocketCall.bytes).sum + call.bytes =
      (self.calls.map SocketCall.bytes).sum + after.bytes := sum_map_set _ hc
  constructor <;> grind

theorem Counted.shift (h : self.Counted) (hs : Shift self label next) : next.Counted := by
  obtain ⟨ht, hh, hhu⟩ := id h
  have same {stage drive : DriveStage platform options} {written : List SocketMessage}
      {refusal isOpen paused gaveUp : Bool} (hd : self.drive = stage)
      (hb : drive.bytes = stage.bytes) (hsa : drive.hungUp = stage.hungUp) :
      SocketWriter.Counted ⟨{ self.shared with isOpen, paused, gaveUp }, drive, written, refusal,
        self.calls⟩ := by
    subst hd
    exact ⟨hb ▸ ht, hh, hsa.trans hhu⟩
  cases hs with
  | take run commands hd hr | takeClose code reason commands hd hr =>
    have hb := SocketShared.queueBytes_recv hr
    constructor <;> grind [DriveStage.bytes, DriveStage.hungUp, WriteCommand.bytes]
  | release | hangUp | drain | reclaim | discard =>
    constructor <;> grind [DriveStage.bytes, DriveStage.hungUp, SocketShared.queueBytes]
  | part hd =>
    unfold closeStalledPeer
    split <;> exact same hd rfl rfl
  | fits _ _ hd | outgrown _ _ hd | lower _ hd | raise _ hd | again hd
  | broken hd | write _ _ _ hd | flush _ hd | pend _ _ hd | refuse _ _ hd
  | bid _ _ hd | parted hd | unheard _ hd | close _ _ hd | unclosed _ _ hd
  | drained hd | shut hd | finish hd => exact same hd rfl rfl

theorem Counted.step (h : self.Counted) (hm : Move self label next) : next.Counted := by
  cases hm with
  | send | unsent | close => exact h.enter rfl rfl
  | markClosed => exact ⟨h.total, h.heard, h.hungUp⟩
  | turn index call after shared hc ht => exact h.turn hc ht
  | task _ _ hs => exact h.shift hs

theorem new_counted : (new : SocketWriter platform options).Counted :=
  ⟨fun _ => rfl, fun _ _ hc => absurd hc List.not_mem_nil, rfl⟩

end SocketWriter

end MangoProtocol
