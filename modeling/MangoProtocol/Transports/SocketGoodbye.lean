import MangoProtocol.Transports.SocketManners

/-! The goodbye of a WebSocket port.  The writer task writes the runs as they were queued, each
whole, up to the one it ends with; and where no run is queued behind a farewell, nothing follows
it on the socket but the native close. -/

namespace MangoProtocol

open ProofKit

variable {platform : Platform} {options : WebSocketOptions}

def WriteCommand.run : WriteCommand platform options → Option (FrameRun platform options)
  | .chunks run => some run
  | .close _ _ => none

def SocketMessage.isNative : SocketMessage → Bool
  | .binary _ => false
  | .close _ => true

/-- The runs that were queued, in order. -/
def SocketShared.queuedRuns (shared : SocketShared platform options) :
    List (FrameRun platform options) :=
  shared.commands.sent.filterMap WriteCommand.run

theorem SocketCall.Turn.received {shared after : SocketShared platform options}
    {call other : SocketCall platform options} (h : SocketCall.Turn shared call after other) :
    after.commands.received = shared.commands.received ∧
      shared.queuedRuns <+: after.queuedRuns := by
  have sent (command : WriteCommand platform options) : shared.queuedRuns <+:
      { shared with commands := shared.commands.send command }.queuedRuns := by
    refine ⟨[command].filterMap WriteCommand.run, ?_⟩
    rw [SocketShared.queuedRuns, SocketShared.queuedRuns, Channel.sent_send, List.filterMap_append]
  cases h with
  | queue | bid | leave => exact ⟨Channel.received_send _ _, sent _⟩
  | _ => exact ⟨rfl, List.prefix_refl _⟩

/-! ### What is on the socket -/

/-- Whole runs of frames that are no close, then at most one run of which a part is written, then
native closes. -/
structure Spoken (queued : List (FrameRun platform options)) (refusal : Bool)
    (written : List SocketMessage) (front last : List (FrameRun platform options))
    (cut : List (List UInt8)) (natives : List SocketMessage) : Prop where
  said : written = (front.flatMap FrameRun.messages ++ cut).map .binary ++ natives
  /-- The runs are the first that were queued, but for a last farewell of the task's own. -/
  order : front ++ last <+: queued ∨
    front <+: queued ∧ last = (stalledFarewell platform options).toList
  plain : ∀ run ∈ front, run.frame.isClose = false
  single : last.length ≤ 1
  within : cut <+: last.flatMap FrameRun.messages
  native : ∀ message ∈ natives, message.isNative = true
  /-- Only a socket that refused a message has a cut run before the native close. -/
  whole : natives = [] ∨ cut = last.flatMap FrameRun.messages ∨ refusal = true

/-- The port says goodbye last. -/
def GoodbyeOnSocket (queued : List (FrameRun platform options)) (refusal : Bool)
    (written : List SocketMessage) : Prop :=
  ∃ front last cut natives, Spoken queued refusal written front last cut natives

namespace Spoken

variable {queued later : List (FrameRun platform options)} {refusal : Bool}
  {written : List SocketMessage} {front last : List (FrameRun platform options)}
  {cut : List (List UInt8)} {natives : List SocketMessage}

theorem mono (h : Spoken queued refusal written front last cut natives) (hq : queued <+: later) :
    Spoken later refusal written front last cut natives := by
  refine { h with order := ?_ }
  rcases h.order with ho | ⟨hf, hl⟩
  · exact .inl (ho.trans hq)
  · exact .inr ⟨hf.trans hq, hl⟩

theorem say (h : Spoken queued refusal written front last cut natives)
    (hw : cut = last.flatMap FrameRun.messages ∨ refusal = true)
    (frame : Option (UInt16 × String)) :
    Spoken queued refusal (written ++ [.close frame]) front last cut
      (natives ++ [.close frame]) := by
  obtain ⟨hs, -, -, -, -, hn, -⟩ := id h
  refine { h with said := ?_, native := ?_, whole := .inr hw } <;> grind [SocketMessage.isNative]

theorem last_cases (h : Spoken queued refusal written front last cut natives) :
    last = [] ∨ ∃ only, last = [only] := by
  rcases Nat.le_one_iff_eq_zero_or_eq_one.mp h.single with hz | ho
  · exact .inl (List.length_eq_zero_iff.mp hz)
  · exact .inr (List.length_eq_one_iff.mp ho)

theorem refuse (h : Spoken queued refusal written front last cut natives) :
    Spoken queued true written front last cut natives :=
  { h with whole := .inr (.inr rfl) }

end Spoken

theorem GoodbyeOnSocket.count_le {run : FrameRun platform options}
    {runs : List (FrameRun platform options)} {refusal : Bool} {written : List SocketMessage}
    (h : GoodbyeOnSocket (run :: runs) refusal written) (hcl : run.frame.isClose = true)
    (hsh : run.messages.length ≤ 1)
    (hs : ∀ farewell ∈ stalledFarewell platform options, farewell.messages.length ≤ 1) :
    written.countP (fun message => !message.isNative) ≤ 1 := by
  obtain ⟨front, last, cut, natives, h⟩ := h
  obtain ⟨hsa, ho, hp, -, hw, hna, -⟩ := id h
  have hf : front = [] := by
    cases front with
    | nil => rfl
    | cons first front => grind
  subst hf
  have hc : cut.length ≤ 1 := by
    refine hw.length_le.trans ?_
    rcases h.last_cases with rfl | ⟨only, rfl⟩
    · exact Nat.zero_le 1
    · rw [List.flatMap_singleton]
      cases hs : stalledFarewell platform options <;> grind
  have hn : natives.countP (fun message => !message.isNative) = 0 := by
    grind [List.countP_eq_zero]
  rw [hsa, List.countP_append, hn, List.countP_map]
  exact List.countP_le_length.trans hc

/-! ### The writer task -/

namespace DriveStage

/-- The task is in its loop. -/
def looping : DriveStage platform options → Bool
  | .receiving | .taken _ | .writing _ _ | .stalled _ _ | .lowering _ | .raising _ | .wrote _ =>
    true
  | _ => false

def rest : DriveStage platform options → List (List UInt8)
  | .taken run => run.messages
  | .writing rest _ | .stalled rest _ | .lowering rest | .raising rest => rest
  | _ => []

/-- The task gives up on the peer. -/
def giving : DriveStage platform options → Bool
  | .writing _ giveUp | .stalled _ giveUp | .wrote giveUp => giveUp
  | .lowering _ | .raising _ => true
  | _ => false

/-- The task has written its last run. -/
def spent : DriveStage platform options → Bool
  | .refused | .closing _ _ | .ended | .draining | .releasing _ | .shutting | .done => true
  | _ => false

end DriveStage

namespace SocketWriter

variable {self next : SocketWriter platform options} {label : SocketLabel}

/-- How far the task is with what it writes. -/
inductive Speech (writer : SocketWriter platform options) : Prop
  | silent (hdrive : writer.drive = .receiving) (hreceived : writer.shared.commands.received = [])
    (hwritten : writer.written = [])
  | speaking (front : List (FrameRun platform options)) (run : FrameRun platform options)
    (part : List (List UInt8)) (hdrive : writer.drive.looping = true)
    (hreceived : writer.shared.commands.received = (front ++ [run]).map .chunks)
    (hwritten : writer.written = (front.flatMap FrameRun.messages ++ part).map .binary)
    (hpart : part ++ writer.drive.rest = run.messages)
    (hgiving : writer.drive.giving = true → run.frame.isClose = false)
  | parting (front : List (FrameRun platform options)) (farewell : FrameRun platform options)
    (part rest : List (List UInt8)) (hdrive : writer.drive = .parting rest)
    (hfarewell : stalledFarewell platform options = some farewell)
    (hqueued : front <+: writer.shared.queuedRuns)
    (hplain : ∀ run ∈ front, run.frame.isClose = false)
    (hwritten : writer.written = (front.flatMap FrameRun.messages ++ part).map .binary)
    (hpart : part ++ rest = farewell.messages)
  | spent (front last : List (FrameRun platform options)) (cut : List (List UInt8))
    (natives : List SocketMessage) (hdrive : writer.drive.spent = true)
    (hspoken : Spoken writer.shared.queuedRuns writer.refusal writer.written front last cut natives)
    (hwhole : cut = last.flatMap FrameRun.messages ∨ writer.refusal = true)

theorem queuedRuns_eq {runs : List (FrameRun platform options)}
    (h : self.shared.commands.received = runs.map .chunks) :
    ∃ rest, self.shared.queuedRuns = runs ++ rest := by
  refine ⟨self.shared.commands.waiting.filterMap WriteCommand.run, ?_⟩
  have hr : (runs.map WriteCommand.chunks).filterMap WriteCommand.run = runs := by
    rw [List.filterMap_map]
    exact List.filterMap_some
  rw [SocketShared.queuedRuns, ← Channel.received_append_waiting, List.filterMap_append, h, hr]

theorem Manners.front_plain (h : self.Manners) {front : List (FrameRun platform options)}
    {run : FrameRun platform options}
    (hr : self.shared.commands.received = (front ++ [run]).map .chunks) :
    ∀ other ∈ front, other.frame.isClose = false := by
  intro other ho
  have hs := h.script
  rw [← Channel.received_append_waiting, hr, List.map_append] at hs
  have hp := (List.pairwise_append.mp (List.pairwise_append.mp hs).1).2.2
  simpa [WriteCommand.isPlain] using
    hp (.chunks other) (List.mem_map_of_mem ho) (.chunks run) (by simp) rfl

theorem Manners.nothing_queued (h : self.Manners) (hcou : self.Counted)
    (hcl : self.shared.closed = false) (hb : self.drive.bytes = 0)
    (run : FrameRun platform options) (hr : .chunks run ∈ self.shared.commands.received)
    (hc : run.frame.isClose = true) : self.shared.queuedBytes = 0 := by
  have hsa : ¬self.shared.Unsaid := fun hu => by
    have hp := hu _ (Channel.mem_sent_of_mem_received hr)
    simp [WriteCommand.isPlain, hc] at hp
  have hq : self.shared.queueBytes = 0 := by
    refine List.sum_eq_zero fun bytes hm => ?_
    obtain ⟨command, hco, rfl⟩ := List.mem_map.mp hm
    have hs := h.script
    rw [← Channel.received_append_waiting] at hs
    have ha := (List.pairwise_append.mp hs).2.2 _ hr command hco
    cases command with
    | close => rfl
    | chunks other =>
      have hp := ha rfl
      simp [WriteCommand.isPlain, hc] at hp
  have hcal : (self.calls.map SocketCall.bytes).sum = 0 := by
    refine List.sum_eq_zero fun bytes hm => ?_
    obtain ⟨call, hca, rfl⟩ := List.mem_map.mp hm
    cases call with
    | counted => exact absurd (h.unsaid _ hca (.inl rfl)) hsa
    | parting => exact absurd (h.unsaid _ hca (.inr rfl)) hsa
    | _ => rfl
  rw [hcou.total hcl, hq, hcal, hb]

theorem Speech.keep (h : self.Speech) (hd : next.drive = self.drive)
    (hw : next.written = self.written) (hr : next.refusal = self.refusal)
    (hre : next.shared.commands.received = self.shared.commands.received)
    (hq : self.shared.queuedRuns <+: next.shared.queuedRuns) : next.Speech := by
  cases h with
  | silent => exact .silent (by grind) (by grind) (by grind)
  | speaking front run part =>
    exact .speaking front run part (by grind) (by grind) (by grind) (by grind) (by grind)
  | parting front farewell part rest hs hf hfr =>
    exact .parting front farewell part rest (by grind) hf (hfr.trans hq) (by grind) (by grind)
      (by grind)
  | spent front last cut natives hs hsp hwh =>
    refine .spent front last cut natives (hd ▸ hs) ?_ (hr ▸ hwh)
    rw [hw, hr]
    exact hsp.mono hq

theorem Manners.spoken (h : self.Manners) (refusal : Bool)
    {front : List (FrameRun platform options)} {run : FrameRun platform options}
    {part : List (List UInt8)} (rest : List (List UInt8))
    (hr : self.shared.commands.received = (front ++ [run]).map .chunks)
    (hw : self.written = (front.flatMap FrameRun.messages ++ part).map .binary)
    (hpa : part ++ rest = run.messages) :
    Spoken self.shared.queuedRuns refusal self.written front [run] part [] := by
  obtain ⟨others, hq⟩ := queuedRuns_eq hr
  have hp := h.front_plain hr
  constructor <;> grind

theorem looping_open (h : self.Counted) (hl : self.drive.looping = true) :
    self.shared.closed = false := by
  rw [← h.hungUp]
  cases hd : self.drive <;> first | rfl | (rw [hd] at hl; cases hl)

theorem Speech.part (hm : self.Manners) {front : List (FrameRun platform options)}
    {run : FrameRun platform options}
    (hr : self.shared.commands.received = (front ++ [run]).map .chunks)
    (hw : self.written = ((front ++ [run]).flatMap FrameRun.messages).map .binary)
    (hru : run.frame.isClose = false) : { self with drive := closeStalledPeer }.Speech := by
  obtain ⟨others, hq⟩ := queuedRuns_eq hr
  have hp := hm.front_plain hr
  unfold closeStalledPeer
  split
  · rename_i farewell hf
    exact .parting (front ++ [run]) farewell [] farewell.messages rfl hf (by grind) (by grind)
      (by grind) rfl
  · exact .spent (front ++ [run]) [] [] [] rfl (by constructor <;> grind) (.inl rfl)

theorem Speech.speak (hm : self.Manners) (hc : self.Counted)
    {front : List (FrameRun platform options)} {run : FrameRun platform options}
    {part : List (List UInt8)} (hlo : self.drive.looping = true)
    (hr : self.shared.commands.received = (front ++ [run]).map .chunks)
    (hw : self.written = (front.flatMap FrameRun.messages ++ part).map .binary)
    (hp : part ++ self.drive.rest = run.messages)
    (hg : self.drive.giving = true → run.frame.isClose = false)
    (hsh : Shift self label next) : next.Speech := by
  -- A stage with the same messages to go.
  have stay {drive : DriveStage platform options} {isOpen paused gaveUp : Bool}
      {queuedBytes : Nat} (hl : drive.looping = true) (hres : drive.rest = self.drive.rest)
      (hgi : drive.giving = true → run.frame.isClose = false) :
      SocketWriter.Speech ⟨{ self.shared with queuedBytes, isOpen, paused, gaveUp }, drive,
        self.written, self.refusal, self.calls⟩ :=
    .speaking front run part hl hr hw (hres ▸ hp) hgi
  have hs (refusal : Bool) := hm.spoken refusal self.drive.rest hr hw hp
  have ho := looping_open hc hlo
  cases hsh with
  | take other commands hd hre =>
    have ht := Channel.recv_received hre
    exact .speaking (front ++ [run]) other [] rfl (by grind) (by grind [DriveStage.rest]) rfl nofun
  | takeClose code reason commands hd hre =>
    refine .spent front [run] part [] rfl ?_ (.inl (by grind [DriveStage.rest]))
    rw [SocketShared.queuedRuns, Channel.recv_sent hre]
    exact hs self.refusal
  | outgrown rest giveUp hd hb =>
    have hn := hm.nothing_queued hc ho (by rw [hd]; rfl) run (by simp [hr])
    exact stay rfl (by rw [hd]; rfl) (by grind)
  | part hd =>
    exact Speech.part hm hr (by grind [DriveStage.rest]) (hg (by rw [hd]; rfl))
  | write message rest giveUp hd =>
    rw [hd] at hp hg
    exact .speaking front run (part ++ [message]) rfl hr (by grind) (by grind [DriveStage.rest]) hg
  | refuse => exact .spent front [run] part [] rfl (hs true) (.inr rfl)
  | release _ hd | fits _ _ hd | lower _ hd | raise _ hd | again hd
  | flush _ hd | pend _ _ hd =>
    exact stay rfl (by rw [hd]; rfl) (by grind [DriveStage.giving])
  | _ => grind [DriveStage.looping]

theorem Speech.listen (hst : self.drive = .receiving)
    (hno : self.shared.commands.received = []) (hn : self.written = [])
    (hs : Shift self label next) : next.Speech := by
  cases hs with
  | take run commands hd hr =>
    exact .speaking [] run [] rfl (by simp [Channel.recv_received hr, hno]) hn rfl nofun
  | takeClose code reason commands hd hr =>
    exact .spent [] [] [] [] rfl (by constructor <;> grind) (.inl rfl)
  | _ => grind

theorem spoken_farewell {front : List (FrameRun platform options)}
    {farewell : FrameRun platform options} {part rest : List (List UInt8)} (refusal : Bool)
    (hf : stalledFarewell platform options = some farewell)
    (hq : front <+: self.shared.queuedRuns)
    (hp : ∀ run ∈ front, run.frame.isClose = false)
    (hw : self.written = (front.flatMap FrameRun.messages ++ part).map .binary)
    (hpa : part ++ rest = farewell.messages) :
    Spoken self.shared.queuedRuns refusal self.written front [farewell] part [] := by
  constructor <;> grind

theorem Speech.bid {front : List (FrameRun platform options)}
    {farewell : FrameRun platform options} {part rest : List (List UInt8)}
    (hst : self.drive = .parting rest)
    (hf : stalledFarewell platform options = some farewell)
    (hq : front <+: self.shared.queuedRuns)
    (hp : ∀ run ∈ front, run.frame.isClose = false)
    (hw : self.written = (front.flatMap FrameRun.messages ++ part).map .binary)
    (hpa : part ++ rest = farewell.messages) (hsh : Shift self label next) : next.Speech := by
  have hs (refusal : Bool) := spoken_farewell refusal hf hq hp hw hpa
  cases hsh with
  | bid message rest' hd =>
    cases hd.symm.trans hst
    exact .parting front farewell (part ++ [message]) rest' rfl hf hq hp (by grind) (by grind)
  | parted hd =>
    cases hd.symm.trans hst
    exact .spent front [farewell] part [] rfl (hs self.refusal) (.inl (by grind))
  | unheard => exact .spent front [farewell] part [] rfl (hs true) (.inr rfl)
  | _ => grind

theorem Speech.close {front last : List (FrameRun platform options)} {cut : List (List UInt8)}
    {natives : List SocketMessage} (hst : self.drive.spent = true)
    (hs : Spoken self.shared.queuedRuns self.refusal self.written front last cut natives)
    (hw : cut = last.flatMap FrameRun.messages ∨ self.refusal = true)
    (hsh : Shift self label next) : next.Speech := by
  cases hsh with
  | broken | hangUp | reclaim | drained | finish =>
    exact .spent front last cut natives rfl hs hw
  | drain _ _ _ hr | discard _ _ _ _ hr =>
    refine .spent front last cut natives (by first | rfl | exact hst) ?_ hw
    rw [SocketShared.queuedRuns, Channel.recv_sent hr]
    exact hs
  | close | shut => exact .spent front last cut _ rfl (hs.say hw _) hw
  | unclosed => exact .spent front last cut natives rfl hs.refuse (.inr rfl)
  | _ => grind [DriveStage.spent]

theorem Speech.shift (h : self.Speech) (hm : self.Manners) (hc : self.Counted)
    (hsh : Shift self label next) : next.Speech := by
  cases h with
  | silent hs hno hn => exact listen hs hno hn hsh
  | speaking front run part hs hr hw hp hg =>
    exact speak hm hc hs hr hw hp hg hsh
  | parting front farewell part rest hs hf hq hpl hw hp =>
    exact bid hs hf hq hpl hw hp hsh
  | spent front last cut natives hs hsp hwh =>
    exact close hs hsp hwh hsh

theorem Speech.step (h : self.Speech) (hm : self.Manners) (hc : self.Counted)
    (hmo : Move self label next) : next.Speech := by
  cases hmo with
  | send | unsent | close | markClosed => exact h.keep rfl rfl rfl rfl (List.prefix_refl _)
  | turn index call after shared hca ht =>
    obtain ⟨hr, hq⟩ := ht.received
    exact h.keep rfl rfl rfl hr hq
  | task _ _ hs => exact h.shift hm hc hs

theorem Speech.goodbye (h : self.Speech) (hm : self.Manners) :
    GoodbyeOnSocket self.shared.queuedRuns self.refusal self.written := by
  cases h with
  | silent => exact ⟨[], [], [], [], by constructor <;> grind⟩
  | speaking front run part _ hr hw hp =>
    exact ⟨_, _, _, _, hm.spoken self.refusal self.drive.rest hr hw hp⟩
  | parting front farewell part rest _ hf hq hpl hw hp =>
    exact ⟨_, _, _, _, spoken_farewell self.refusal hf hq hpl hw hp⟩
  | spent _ _ _ _ _ hs => exact ⟨_, _, _, _, hs⟩

theorem new_manners : (new : SocketWriter platform options).Manners where
  script := List.Pairwise.nil
  polite _ hc := absurd hc List.not_mem_nil
  opened _ _ hco := absurd hco List.not_mem_nil
  unsaid _ hc := absurd hc List.not_mem_nil
  departed _ hc := absurd hc List.not_mem_nil
  apart _ hc := absurd hc List.not_mem_nil
  unique _ _ _ _ hc := absurd (List.mem_of_getElem? hc) List.not_mem_nil

/-- In a run whose closes overtake no `send_frame`, the port says goodbye last. -/
theorem run_goodbye_last {labels : List SocketLabel}
    (hcourteous : Machine.Every step (fun (writer : SocketWriter platform options) label =>
      writer.courteous label = true) new labels)
    (hrun : Machine.run step new labels = some self) :
    GoodbyeOnSocket self.shared.queuedRuns self.refusal self.written := by
  have hs : self.Counted ∧ self.Manners ∧ self.Speech := by
    refine hcourteous.run_invariant (fun writer => writer.Counted ∧ writer.Manners ∧ writer.Speech)
      ?_ ⟨new_counted, new_manners, .silent rfl rfl rfl⟩ hrun
    rintro writer label next ⟨hc, hma, hs⟩ hcourteous hst
    have hm := step_move hst
    exact ⟨hc.step hm, hma.step hcourteous hm,
      hs.step hma hc hm⟩
  exact hs.2.2.goodbye hs.2.1

/-! ### Two runs -/

/-- A port with the lowest ceilings. -/
def sampleSocketOptions : WebSocketOptions := ⟨4096, 2048, true⟩

/-- The task writes a run of one message. -/
def writeRunLabels : List SocketLabel :=
  [.task, .task, .socket .ready, .socket .ready, .task]

def partingLabels : List SocketLabel :=
  [.sendFrame .ping, .advance 0, .advance 0, .advance 0, .close closeCodes.released none true,
    .advance 1, .advance 1, .advance 1, .advance 1] ++ writeRunLabels ++ writeRunLabels ++
    [.task, .socket .ready]

theorem run_goodbye_last_parting :
    ∃ writer : SocketWriter (tablePlatform []) sampleSocketOptions,
      Machine.run step new partingLabels = some writer ∧
      writer.written.map SocketMessage.isNative = [false, false, true] ∧
      GoodbyeOnSocket writer.shared.queuedRuns writer.refusal writer.written := by
  obtain ⟨writer, hr, hw⟩ : ∃ writer : SocketWriter (tablePlatform []) sampleSocketOptions,
      Machine.run step new partingLabels = some writer ∧
        writer.written.map SocketMessage.isNative = [false, false, true] :=
    Machine.exists_run (by decide +kernel)
  have hc : Machine.Every step
      (fun (writer : SocketWriter (tablePlatform []) sampleSocketOptions) label =>
        writer.courteous label = true) new partingLabels := by decide +kernel
  exact ⟨writer, hr, hw, run_goodbye_last hc hr⟩

/-- A close lowers `open` and queues its farewell after a `send_frame` found the port open; that one
queues its run before the close command. -/
def overtakenLabels : List SocketLabel :=
  [.sendFrame .ping, .close closeCodes.released none true, .advance 1, .advance 1, .advance 1,
    .advance 0, .advance 0, .advance 1] ++ writeRunLabels ++ writeRunLabels ++
    [.task, .socket .ready]

/-- The run is on the socket after the farewell. -/
theorem run_after_farewell :
    ∃ writer : SocketWriter (tablePlatform []) sampleSocketOptions,
      Machine.run step new overtakenLabels = some writer ∧
      writer.shared.queuedRuns.map (fun run => run.frame.isClose) = [true, false] ∧
      writer.written.map SocketMessage.isNative = [false, false, true] ∧
      ¬GoodbyeOnSocket writer.shared.queuedRuns writer.refusal writer.written := by
  obtain ⟨writer, hru, hq, hl, hw⟩ :
      ∃ writer : SocketWriter (tablePlatform []) sampleSocketOptions,
        Machine.run step new overtakenLabels = some writer ∧
        writer.shared.queuedRuns.map (fun run => run.frame.isClose) = [true, false] ∧
        writer.shared.queuedRuns.map (fun run => run.messages.length) = [1, 1] ∧
        writer.written.map SocketMessage.isNative = [false, false, true] :=
    Machine.exists_run (by decide +kernel)
  have hs : (stalledFarewell (tablePlatform []) sampleSocketOptions).all
      (fun farewell => farewell.messages.length ≤ 1) = true := by decide +kernel
  refine ⟨writer, hru, hq, hw, fun hg => ?_⟩
  match hr : writer.shared.queuedRuns with
  | [] =>
    rw [hr] at hq
    cases hq
  | run :: runs =>
    rw [hr, List.map_cons] at hq hl
    rw [hr] at hg
    have hc := hg.count_le (List.cons.inj hq).1 (List.cons.inj hl).1.le
      fun farewell hf => by simpa [Option.mem_def.mp hf] using hs
    have ht : (writer.written.map SocketMessage.isNative).countP (fun native => !native) = 2 := by
      rw [hw]
      rfl
    rw [List.countP_map] at ht
    exact absurd (ht.symm.le.trans hc) (by decide)

end SocketWriter

end MangoProtocol
