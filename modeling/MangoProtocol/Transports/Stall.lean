import MangoProtocol.Transports.SocketGoodbye

/-! When a WebSocket port takes its peer for stalled.  While one frame at most waits behind the one
being written, and the chunks of that frame are within the frame limit, the writer never gives up
and no `send_frame` closes the port, provided none is between its count and its judgement when the
socket answers `Pending`. -/

namespace MangoProtocol

open ProofKit

variable {platform : Platform} {options : WebSocketOptions}

namespace SocketCall

def pledged : SocketCall platform options → Option (FrameRun platform options)
  | .counted run _ | .parting _ run => some run
  | _ => none

/-- A `send_frame` that has counted its bytes and still is to judge the backlog. -/
def judging : SocketCall platform options → Bool
  | .counted _ _ | .queued _ => true
  | _ => false

/-- The backlog that a `send_frame` found. -/
def found : SocketCall platform options → Nat
  | .counted _ waiting | .queued waiting => waiting
  | _ => 0

def quits : SocketCall platform options → Bool
  | .closing request | .lowered request | .parting request _ | .leaving request =>
    request.outcome.isSome
  | _ => false

end SocketCall

/-- The task is in the poll of a write. -/
def DriveStage.polling : DriveStage platform options → Bool
  | .writing _ _ | .stalled _ _ => true
  | _ => false

namespace SocketWriter

variable {self next : SocketWriter platform options} {label : SocketLabel}

/-- The runs behind the one being written: those in the queue, and those counted for it. -/
def waitingRuns (self : SocketWriter platform options) : List (FrameRun platform options) :=
  self.shared.commands.waiting.filterMap WriteCommand.run ++ self.calls.filterMap SocketCall.pledged

def oneWaits (self : SocketWriter platform options) : Bool :=
  !self.shared.paused || decide (self.waitingRuns.length ≤ 1)

/-- While the socket does not drain, the chunks of a frame that waits are within the frame limit. -/
def lightWaits (self : SocketWriter platform options) : Bool :=
  !self.shared.paused || self.waitingRuns.all fun run => run.bytes ≤ options.maxFrameBytes

/-- The socket does not answer `Pending` between the count and the judgement of a `send_frame`. -/
def judged (self : SocketWriter platform options) : SocketLabel → Bool
  | .socket .pending => !self.calls.any SocketCall.judging
  | _ => true

theorem sum_filterMap {α β : Type} (items : List α) (pick : α → Option β) (weight : α → Nat)
    (bytes : β → Nat) (h : ∀ item, weight item = (pick item).elim 0 bytes) :
    (items.map weight).sum = ((items.filterMap pick).map bytes).sum := by
  induction items with
  | nil => rfl
  | cons item items ih => cases hp : pick item <;> simp [ih, h item, hp]

theorem Counted.waiting (h : self.Counted) (hc : self.shared.closed = false)
    (hd : self.drive.bytes = 0) :
    self.shared.queuedBytes = (self.waitingRuns.map FrameRun.bytes).sum := by
  have hq : self.shared.queueBytes =
      ((self.shared.commands.waiting.filterMap WriteCommand.run).map FrameRun.bytes).sum :=
    sum_filterMap _ _ _ _ fun command => by cases command <;> rfl
  have hca : (self.calls.map SocketCall.bytes).sum =
      ((self.calls.filterMap SocketCall.pledged).map FrameRun.bytes).sum :=
    sum_filterMap _ _ _ _ fun call => by cases call <;> rfl
  rw [h.total hc, hd, hq, hca, waitingRuns, List.map_append, List.sum_append,
    Nat.add_zero]

theorem sum_le_of_single {runs : List (FrameRun platform options)} {limit : Nat}
    (ho : runs.length ≤ 1) (hl : ∀ run ∈ runs, run.bytes ≤ limit) :
    (runs.map FrameRun.bytes).sum ≤ limit := by
  rcases Nat.le_one_iff_eq_zero_or_eq_one.mp ho with hz | hs
  · rw [List.length_eq_zero_iff.mp hz]
    exact Nat.zero_le limit
  · obtain ⟨run, rfl⟩ := List.length_eq_one_iff.mp hs
    simpa using hl run List.mem_cons_self

/-- Nothing has been taken for a stall: the flags, the stage of the task and the calls. -/
structure Patient (writer : SocketWriter platform options) : Prop where
  gaveUp : writer.shared.gaveUp = false
  giving : writer.drive.giving = false
  polling : writer.shared.paused = true → writer.drive.polling = true
  stalled : ∀ rest giveUp, writer.drive = .stalled rest giveUp → writer.shared.paused = true
  found : writer.shared.paused = true → ∀ call ∈ writer.calls, call.found ≤ options.maxFrameBytes
  stays : ∀ call ∈ writer.calls, call.quits = false

theorem Patient.light (h : self.Patient) (hc : self.Counted) (ho : self.oneWaits = true)
    (hl : self.lightWaits = true) (hp : self.shared.paused = true) :
    self.shared.queuedBytes ≤ options.maxFrameBytes := by
  have hpo := h.polling hp
  obtain ⟨hlo, hb⟩ : self.drive.looping = true ∧ self.drive.bytes = 0 := by
    cases hd : self.drive <;> simp_all [DriveStage.polling, DriveStage.looping, DriveStage.bytes]
  rw [hc.waiting (looping_open hc hlo) hb]
  refine sum_le_of_single ?_ ?_
  · simpa [oneWaits, hp] using ho
  · simpa [lightWaits, hp] using hl

variable {call after : SocketCall platform options}

theorem Patient.enter (h : self.Patient) (hfo : call.found = 0) (hq : call.quits = false) :
    { self with calls := self.calls ++ [call] }.Patient := by
  obtain ⟨-, -, -, -, hf, hs⟩ := id h
  refine { h with found := ?_, stays := ?_ } <;> grind

theorem Patient.replace (h : self.Patient) {commands : Channel (WriteCommand platform options)}
    {queuedBytes : Nat} {isOpen : Bool} (index : Nat)
    (hfo : self.shared.paused = true → after.found ≤ options.maxFrameBytes)
    (hq : after.quits = false) :
    { self with
      shared := { self.shared with commands, queuedBytes, isOpen }
      calls := self.calls.set index after }.Patient := by
  obtain ⟨-, -, -, -, hf, hs⟩ := id h
  refine { h with found := ?_, stays := ?_ } <;> grind [List.mem_or_eq_of_mem_set]

theorem Patient.turn (h : self.Patient) (hc : self.Counted) (ho : self.oneWaits = true)
    (hl : self.lightWaits = true) {index : Nat} {shared : SocketShared platform options}
    (hca : self.calls[index]? = some call) (ht : SocketCall.Turn self.shared call shared after)
    : { self with shared, calls := self.calls.set index after }.Patient := by
  have hm := List.mem_of_getElem? hca
  have hs := h.stays call hm
  cases ht with
  | count run => exact h.replace index (h.light hc ho hl) rfl
  | queue run waiting =>
    exact h.replace index (fun hp => h.found hp (.counted run waiting) hm) rfl
  | stall waiting hw hp =>
    have hf : waiting ≤ options.maxFrameBytes := h.found hp _ hm
    omega
  | lower | part | bare | bid | unheard =>
    exact h.replace index (fun _ => Nat.zero_le _) hs
  | unqueue | sent | uncount | lost | late | leave | gone =>
    exact h.replace index (fun _ => Nat.zero_le _) rfl

theorem Patient.shift (h : self.Patient) (hc : self.Counted) (ho : self.oneWaits = true)
    (hl : self.lightWaits = true) (hju : self.judged label = true)
    (hsh : Shift self label next) : next.Patient := by
  -- Outside the poll of a write the socket counts as draining.
  have draining {stage : DriveStage platform options} (hd : self.drive = stage)
      (hst : stage.polling = false) : self.shared.paused = false := by
    by_contra hp
    have hpo := h.polling (Bool.not_eq_false _ ▸ hp)
    rw [hd, hst] at hpo
    cases hpo
  have calm {stage drive : DriveStage platform options} {written : List SocketMessage}
      {refusal : Bool} {commands : Channel (WriteCommand platform options)}
      {closed isOpen : Bool} {queuedBytes : Nat} (hd : self.drive = stage)
      (hst : stage.polling = false) (hgi : drive.giving = false)
      (hs : ∀ rest giveUp, drive ≠ .stalled rest giveUp) :
      SocketWriter.Patient ⟨{ self.shared with commands, closed, isOpen, queuedBytes }, drive,
        written, refusal, self.calls⟩ := by
    have hp := draining hd hst
    refine ⟨h.gaveUp, hgi, fun hn => ?_, fun rest giveUp heq => absurd heq (hs rest giveUp),
      fun hn => ?_, h.stays⟩
    all_goals cases hp.symm.trans hn
  have gives {stage drive : DriveStage platform options} (hd : self.drive = stage)
      (hsa : drive.giving = stage.giving) : drive.giving = false := by
    rw [hsa, ← hd, h.giving]
  cases hsh with
  | fits rest giveUp hd =>
    exact ⟨h.gaveUp, gives hd rfl, fun _ => rfl, nofun, h.found, h.stays⟩
  | outgrown rest giveUp hd hb =>
    have hli := h.light hc ho hl (h.stalled rest giveUp hd)
    omega
  | write message rest giveUp hd =>
    exact ⟨h.gaveUp, gives hd rfl, fun _ => rfl, nofun, h.found, h.stays⟩
  | flush giveUp hd => exact ⟨h.gaveUp, gives hd rfl, nofun, nofun, nofun, h.stays⟩
  | pend rest giveUp hd =>
    refine ⟨h.gaveUp, gives hd rfl, fun _ => rfl, fun _ _ _ => rfl, fun _ call hca => ?_, h.stays⟩
    have hj : call.judging = false := by grind [judged]
    cases call with
    | counted | queued => cases hj
    | _ => exact Nat.zero_le _
  | refuse rest giveUp => exact ⟨h.gaveUp, rfl, nofun, nofun, nofun, h.stays⟩
  | lower _ hd | raise _ hd | part hd =>
    have hg := h.giving
    rw [hd] at hg
    cases hg
  | take _ _ hd | takeClose _ _ _ hd | again hd | broken hd | hangUp hd
  | drain _ _ hd | reclaim _ hd | drained hd | bid _ _ hd | parted hd
  | unheard _ hd | close _ _ hd | unclosed _ _ hd | shut hd | finish hd
  | release _ hd =>
    exact calm hd rfl rfl nofun
  | discard code reason commands hd =>
    exact calm hd rfl h.giving fun _ _ hs => by cases hd.symm.trans hs

theorem Patient.step (h : self.Patient) (hc : self.Counted) (ho : self.oneWaits = true)
    (hl : self.lightWaits = true) (hj : self.judged label = true)
    (hm : Move self label next) : next.Patient := by
  cases hm with
  | send | unsent | close => exact h.enter rfl rfl
  | markClosed => exact ⟨h.gaveUp, h.giving, h.polling, h.stalled, h.found, h.stays⟩
  | turn index call after shared hca ht => exact h.turn hc ho hl hca ht
  | task _ _ hs => exact h.shift hc ho hl hj hs

/-- A run in which, while the socket does not drain, one frame at most waits and its chunks are
within the frame limit, and in which `Pending` never comes between a count and its judgement. -/
theorem run_patient {labels : List SocketLabel}
    (hone : Machine.Every step (fun (writer : SocketWriter platform options) _ =>
      writer.oneWaits = true) new labels)
    (hlight : Machine.Every step (fun (writer : SocketWriter platform options) label =>
      writer.lightWaits = true ∧ writer.judged label = true) new labels)
    (hrun : Machine.run step new labels = some self) :
    self.shared.gaveUp = false ∧ ∀ call ∈ self.calls, call.quits = false := by
  have hp : self.Counted ∧ self.Patient := by
    refine (hone.and hlight).run_invariant (fun writer => writer.Counted ∧ writer.Patient) ?_
      ⟨new_counted, rfl, rfl, nofun, nofun, nofun, fun _ hca => absurd hca List.not_mem_nil⟩ hrun
    rintro writer label next ⟨hc, hp⟩ ⟨hone, hlight, hj⟩ hs
    have hm := step_move hs
    exact ⟨hc.step hm, hp.step hc hone hlight hj hm⟩
  exact ⟨hp.2.gaveUp, hp.2.stays⟩

/-! ### Two runs -/

/-- A request of exactly 4096 bytes. -/
def fullRequest : Frame := .req ⟨"1", "clock.read", .ofJson (.array (List.replicate 808 .null))⟩

def sendLabels (frame : Frame) (index : Nat) : List SocketLabel :=
  [.sendFrame frame, .advance index, .advance index, .advance index]

def waitingLabels (frame : Frame) : List SocketLabel :=
  sendLabels .ping 0 ++ sendLabels frame 1 ++ [.task, .task, .socket .pending, .task]

theorem run_patient_ping :
    ∃ writer : SocketWriter (tablePlatform []) sampleSocketOptions,
      Machine.run step new (waitingLabels .ping) = some writer ∧ writer.shared.paused = true ∧
      writer.shared.gaveUp = false ∧ ∀ call ∈ writer.calls, call.quits = false := by
  obtain ⟨writer, hr, hp⟩ : ∃ writer : SocketWriter (tablePlatform []) sampleSocketOptions,
      Machine.run step new (waitingLabels .ping) = some writer ∧ writer.shared.paused = true :=
    Machine.exists_run (by decide +kernel)
  have ho : Machine.Every step
      (fun (writer : SocketWriter (tablePlatform []) sampleSocketOptions) _ =>
        writer.oneWaits = true) new (waitingLabels .ping) := by decide +kernel
  have hl : Machine.Every step
      (fun (writer : SocketWriter (tablePlatform []) sampleSocketOptions) label =>
        writer.lightWaits = true ∧ writer.judged label = true) new (waitingLabels .ping) := by
    decide +kernel
  exact ⟨writer, hr, hp, run_patient ho hl hr⟩

/-- One frame of exactly the frame limit waits, and the writer gives up. -/
theorem full_frame_stalls :
    ∃ writer : SocketWriter (tablePlatform []) sampleSocketOptions,
      Machine.run step new (waitingLabels fullRequest ++ [.task, .task]) = some writer ∧
      Machine.Every step
        (fun (writer : SocketWriter (tablePlatform []) sampleSocketOptions) label =>
        writer.oneWaits = true ∧ writer.judged label = true) new
        (waitingLabels fullRequest ++ [.task, .task]) ∧
      fullRequest.toVec.length = sampleSocketOptions.maxFrameBytes ∧
      writer.shared.gaveUp = true := by
  obtain ⟨writer, hr, hg⟩ : ∃ writer : SocketWriter (tablePlatform []) sampleSocketOptions,
      Machine.run step new (waitingLabels fullRequest ++ [.task, .task]) = some writer ∧
        writer.shared.gaveUp = true :=
    Machine.exists_run (by decide +kernel)
  exact ⟨writer, hr, by decide +kernel, by decide +kernel, hg⟩

end SocketWriter

end MangoProtocol
