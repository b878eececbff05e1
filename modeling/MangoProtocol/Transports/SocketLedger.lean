import MangoProtocol.Transports.SocketGoodbye

/-! The ledger of a WebSocket port over whole runs.  The counter is the sum of what waits in the
queue, what calls have counted and neither queued nor given back, and what the writer task took and
has not released.  A farewell that a call counts is never given back, so one that comes to a closed
queue stays in the counter. -/

namespace MangoProtocol

open ProofKit

variable {platform : Platform} {options : WebSocketOptions}

/-- The bytes that a call has counted, and neither queued nor given back. -/
def SocketCall.owed : SocketCall platform options → Nat
  | .counted run _ | .unqueued run | .parting _ run => run.bytes
  | _ => 0

def SocketCall.forgets (shared : SocketShared platform options) :
    SocketCall platform options → Nat
  | .parting _ run => if shared.closed then run.bytes else 0
  | _ => 0

/-- The drain is over. -/
def DriveStage.emptied : DriveStage platform options → Bool
  | .shutting | .done => true
  | _ => false

def DriveStage.finished : DriveStage platform options → Bool
  | .done => true
  | _ => false

theorem DriveStage.hungUp_of_emptied {stage : DriveStage platform options}
    (h : stage.emptied = true) : stage.hungUp = true := by
  cases stage with
  | shutting | done => rfl
  | _ => cases h

variable {shared after : SocketShared platform options} {call next : SocketCall platform options}

theorem SocketShared.queueBytes_empty (h : shared.commands.recv = none) :
    shared.queueBytes = 0 := by
  cases hw : shared.commands.waiting with
  | nil => rw [SocketShared.queueBytes, hw]; rfl
  | cons command rest =>
    obtain ⟨commands, hr, -⟩ := Channel.recv_of_waiting hw
    cases h.symm.trans hr

theorem SocketCall.Turn.account (h : Turn shared call after next)
    (ho : call.owed ≤ shared.queuedBytes) :
    after.queuedBytes + shared.queueBytes + call.owed =
      shared.queuedBytes + after.queueBytes + next.owed + call.forgets shared := by
  have hs := shared.queueBytes_send
  cases h <;>
    simp only [SocketCall.owed, SocketCall.forgets, WriteCommand.bytes,
      SocketShared.queueBytes] at * <;>
    grind

theorem SocketCall.Turn.queueBytes_closed (h : Turn shared call after next)
    (hc : shared.closed = true) : after.queueBytes = shared.queueBytes := by
  cases h with
  | queue _ _ ho | bid _ _ ho | leave _ ho => cases hc.symm.trans ho
  | _ => rfl

namespace SocketWriter

variable {self next : SocketWriter platform options} {label : SocketLabel} {lost : Nat}

def forgets (self : SocketWriter platform options) : SocketLabel → Nat
  | .advance index => (self.calls[index]?.map (SocketCall.forgets self.shared)).getD 0
  | _ => 0

/-- What a step takes out of the counter. -/
def takesBack (self : SocketWriter platform options) : SocketLabel → Nat
  | .task => self.drive.bytes
  | .advance index =>
    match self.calls[index]? with
    | some (.unqueued run) => run.bytes
    | _ => 0
  | _ => 0

/-- The ledger, with what was lost. -/
structure Accounted (lost : Nat) (writer : SocketWriter platform options) : Prop where
  total : writer.shared.queuedBytes = writer.shared.queueBytes +
    (writer.calls.map SocketCall.owed).sum + writer.drive.bytes + lost
  emptied : writer.drive.emptied = true → writer.shared.queueBytes = 0
  hungUp : writer.drive.hungUp = writer.shared.closed

variable {call : SocketCall platform options}

theorem Accounted.owed_le (h : self.Accounted lost) (hc : call ∈ self.calls) :
    call.owed ≤ self.shared.queuedBytes := by
  have hs : call.owed ≤ (self.calls.map SocketCall.owed).sum :=
    List.single_le_sum (fun _ _ => Nat.zero_le _) _ (List.mem_map_of_mem hc)
  have ht := h.total
  omega

theorem Accounted.enter (h : self.Accounted lost) (ho : call.owed = 0) :
    { self with calls := self.calls ++ [call] }.Accounted lost where
  total := by simpa [ho] using h.total
  emptied := h.emptied
  hungUp := h.hungUp

theorem Accounted.turn (h : self.Accounted lost) {index : Nat} {after : SocketCall platform options}
    {shared : SocketShared platform options} (hc : self.calls[index]? = some call)
    (ht : SocketCall.Turn self.shared call shared after) :
    { self with shared, calls := self.calls.set index after }.Accounted
      (lost + call.forgets self.shared) where
  total := by
    have hm := ht.account (h.owed_le (List.mem_of_getElem? hc))
    have hs : ((self.calls.set index after).map SocketCall.owed).sum + call.owed =
        (self.calls.map SocketCall.owed).sum + after.owed := sum_map_set _ hc
    have hto := h.total
    dsimp only
    omega
  emptied he := by
    have hcl : self.shared.closed = true :=
      h.hungUp.symm.trans (DriveStage.hungUp_of_emptied he)
    exact (ht.queueBytes_closed hcl).trans (h.emptied he)
  hungUp := h.hungUp.trans ht.closed.symm

theorem Accounted.shift (h : self.Accounted lost) (hs : Shift self label next) :
    next.Accounted lost := by
  obtain ⟨ht, hemp, hh⟩ := id h
  have same {stage drive : DriveStage platform options} {written : List SocketMessage}
      {refusal isOpen paused gaveUp : Bool} (hd : self.drive = stage)
      (hb : drive.bytes = stage.bytes) (he : drive.emptied = stage.emptied)
      (hsa : drive.hungUp = stage.hungUp) :
      SocketWriter.Accounted lost ⟨{ self.shared with isOpen, paused, gaveUp }, drive, written,
        refusal, self.calls⟩ := by
    subst hd
    exact ⟨hb ▸ ht, he ▸ hemp, hsa.trans hh⟩
  cases hs with
  | take run commands hd hr | drain run commands hd hr
  | takeClose code reason commands hd hr | discard code reason commands hd hr =>
    -- A command goes from the queue to the task.
    have hb := SocketShared.queueBytes_recv hr
    constructor <;>
      grind [DriveStage.bytes, DriveStage.emptied, DriveStage.hungUp, WriteCommand.bytes]
  | drained hd he =>
    have hb := SocketShared.queueBytes_empty he
    constructor <;> grind [DriveStage.bytes, DriveStage.emptied, DriveStage.hungUp]
  | release | reclaim | hangUp =>
    constructor <;>
      grind [DriveStage.bytes, DriveStage.emptied, DriveStage.hungUp, SocketShared.queueBytes]
  | part hd =>
    unfold closeStalledPeer
    split <;> exact same hd rfl rfl rfl
  | fits _ _ hd | outgrown _ _ hd | lower _ hd | raise _ hd | again hd
  | broken hd | write _ _ _ hd | flush _ hd | pend _ _ hd | refuse _ _ hd
  | bid _ _ hd | parted hd | unheard _ hd | close _ _ hd | unclosed _ _ hd
  | shut hd | finish hd => exact same hd rfl rfl rfl

theorem Accounted.step (h : self.Accounted lost) (hm : Move self label next) :
    next.Accounted (lost + self.forgets label) := by
  cases hm with
  | send | unsent | close => exact h.enter rfl
  | markClosed => exact ⟨h.total, h.emptied, h.hungUp⟩
  | turn index call after shared hc ht =>
    rw [forgets, hc]
    exact h.turn hc ht
  | task _ _ hs =>
    have hn : self.forgets label = 0 := by cases hs <;> rfl
    rw [hn]
    exact h.shift hs

theorem new_accounted : (new : SocketWriter platform options).Accounted 0 :=
  ⟨rfl, fun h => (Bool.false_ne_true h).elim, rfl⟩

theorem Accounted.takesBack_le (h : self.Accounted lost) (label : SocketLabel) :
    self.takesBack label ≤ self.shared.queuedBytes := by
  have ht := h.total
  cases label with
  | task => grind [takesBack]
  | advance index =>
    simp only [takesBack]
    split
    · rename_i run hc
      exact h.owed_le (List.mem_of_getElem? hc)
    · exact Nat.zero_le _
  | _ => exact Nat.zero_le _

theorem run_covered {labels : List SocketLabel}
    (hr : Machine.run step new labels = some self) (label : SocketLabel) :
    self.takesBack label ≤ self.shared.queuedBytes := by
  obtain ⟨lost, ha⟩ : ∃ lost, self.Accounted lost := by
    refine Machine.run_invariant (fun writer => ∃ lost, writer.Accounted lost) ?_
      ⟨0, new_accounted⟩ hr
    rintro writer label next ⟨lost, ha⟩ hs
    exact ⟨_, ha.step (step_move hs)⟩
  exact ha.takesBack_le label

/-- The ledger of a port that lost nothing. -/
structure Balanced (writer : SocketWriter platform options) : Prop where
  total : writer.shared.queuedBytes = writer.shared.queueBytes +
    (writer.calls.map SocketCall.owed).sum + writer.drive.bytes
  covered : ∀ label, writer.takesBack label ≤ writer.shared.queuedBytes
  settled : writer.drive.finished = true → (∀ call ∈ writer.calls, call.owed = 0) →
    writer.shared.queuedBytes = 0

/-- A run in which no counted farewell comes to a closed queue. -/
theorem run_balanced {labels : List SocketLabel}
    (hheard : Machine.Every step (fun (writer : SocketWriter platform options) label =>
      writer.forgets label = 0) new labels)
    (hrun : Machine.run step new labels = some self) : self.Balanced := by
  have ha : self.Accounted 0 := by
    refine hheard.run_invariant (Accounted 0) ?_ new_accounted hrun
    intro writer label next ha hfo hs
    have hn := ha.step (step_move hs)
    rwa [hfo] at hn
  refine ⟨ha.total, ha.takesBack_le, fun hf hno => ?_⟩
  have hc : (self.calls.map SocketCall.owed).sum = 0 := by
    refine List.sum_eq_zero fun bytes hb => ?_
    obtain ⟨call, hca, rfl⟩ := List.mem_map.mp hb
    exact hno call hca
  obtain ⟨hb, he⟩ : self.drive.bytes = 0 ∧ self.drive.emptied = true := by
    cases hd : self.drive with
    | done => exact ⟨rfl, rfl⟩
    | _ =>
      rw [hd] at hf
      cases hf
  rw [ha.total, ha.emptied he, hc, hb]

/-! ### Two runs -/

/-- A frame is queued, and another behind it. -/
def queueTwoLabels : List SocketLabel :=
  [.sendFrame .ping, .advance 0, .advance 0, .advance 0, .sendFrame .pong, .advance 1, .advance 1]

/-- The task takes a frame, the socket refuses it, and the task ends its loop. -/
def breakLabels : List SocketLabel := [.task, .task, .socket .refused, .task, .task]

/-- The drain takes one frame out of the queue and of the counter. -/
def drainLabels : List SocketLabel := [.task, .task, .task, .socket .ready]

theorem run_balanced_broken :
    ∃ writer : SocketWriter (tablePlatform []) sampleSocketOptions,
      Machine.run step new (queueTwoLabels ++ breakLabels ++ drainLabels) = some writer ∧
      writer.drive.finished = true ∧ writer.Balanced := by
  obtain ⟨writer, hr, hf⟩ :
      ∃ writer : SocketWriter (tablePlatform []) sampleSocketOptions,
        Machine.run step new (queueTwoLabels ++ breakLabels ++ drainLabels) = some writer ∧
        writer.drive.finished = true :=
    Machine.exists_run (by decide +kernel)
  have hh : Machine.Every step
      (fun (writer : SocketWriter (tablePlatform []) sampleSocketOptions) label =>
        writer.forgets label = 0) new (queueTwoLabels ++ breakLabels ++ drainLabels) := by
    decide +kernel
  exact ⟨writer, hr, hf, run_balanced hh hr⟩

/-- A close lowers `open`, the task breaks and ends, and the farewell is counted after that. -/
def lateFarewellLabels : List SocketLabel :=
  [.sendFrame .ping, .advance 0, .advance 0, .advance 0, .close closeCodes.released none true,
    .advance 1] ++ breakLabels ++ [.task, .socket .ready, .advance 1, .advance 1, .advance 1]

/-- The task is gone, no call is under way, and the counter still has the farewell. -/
theorem late_farewell_leaks :
    ∃ writer : SocketWriter (tablePlatform []) sampleSocketOptions,
      Machine.run step new lateFarewellLabels = some writer ∧
      writer.drive.finished = true ∧ (∀ call ∈ writer.calls, call.owed = 0) ∧
      writer.shared.queueBytes = 0 ∧ writer.shared.queuedBytes ≠ 0 ∧ ¬writer.Balanced := by
  obtain ⟨writer, hr, hf, hn, he, hl⟩ :
      ∃ writer : SocketWriter (tablePlatform []) sampleSocketOptions,
        Machine.run step new lateFarewellLabels = some writer ∧
        writer.drive.finished = true ∧ (∀ call ∈ writer.calls, call.owed = 0) ∧
        writer.shared.queueBytes = 0 ∧ writer.shared.queuedBytes ≠ 0 :=
    Machine.exists_run (by decide +kernel)
  exact ⟨writer, hr, hf, hn, he, hl,
    fun hb => hl (hb.settled hf hn)⟩

end SocketWriter

end MangoProtocol
