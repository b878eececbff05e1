import MangoProtocol.ProofKit.Fallible
import MangoProtocol.TypeScript.WebSocketRuns

/-! The accounts of a WebSocket port: the messages it handed over against those of the frames it
accepted, the bytes of its queue, the frames it delivered against those that arrived, and its one
closure.  They agree in every state that a run reaches. -/

namespace MangoProtocol.TypeScript

open ProofKit

variable {φ : Type}

namespace PortRun

variable {format : FrameFormat φ} {run : PortRun φ} {port : WebSocketPort φ}
  {result : WebSocketPort φ × List (PortAction φ)} {messages : List (List UInt8)}

/-- The accounts of a run: of the messages, of the frames and of the closures. -/
structure Sound (format : FrameFormat φ) (run : PortRun φ) : Prop where
  bytes : run.port.queuedBytes = (run.port.queue.map List.length).sum
  cleared : run.port.Cleared
  sending : run.port.isOpen = true →
    run.handed ++ run.port.queue = run.promised format ++ run.farewell
  handed : run.handed <+: run.promised format ++ run.farewell
  receiving : run.port.isOpen = true → run.delivered ++ run.port.arrivals = run.arrived
  delivered : run.delivered <+: run.arrived
  unreported : run.port.reported = false → run.closures = []
  single : run.closures.length ≤ 1
  fresh : run.port.isOpen = true → run.port.reported = false ∧ run.port.pendingClosure = none
  owned : run.port.ownerClosed = true → run.closures = []

theorem Sound.congr (h : Sound format run) (hc : port.core = run.port.core) (draining : Bool) :
    Sound format { run with port, draining } := by
  simp only [WebSocketPort.core, Prod.mk.injEq] at hc
  obtain ⟨hop, hq, hb, ha, ho, how, hr, hpe⟩ := hc
  have hp : PortRun.promised format { run with port, draining } = run.promised format := by
    simp only [promised, WebSocketPort.encode, ho]
  refine ⟨?_, ?_, ?_, ?_, ?_, h.delivered, ?_, h.single, ?_, ?_⟩ <;>
    simp only [WebSocketPort.Cleared, hop, hq, hb, ha, hp, how, hr,
      hpe]
  exacts [h.bytes, h.cleared, h.sending, h.handed, h.receiving, h.unreported, h.fresh, h.owned]

theorem promised_record (ho : result.1.chunkOptions = run.port.chunkOptions) :
    (run.record result).promised format = run.promised format := by
  simp only [promised, record, WebSocketPort.encode, ho]

theorem handed_record : (run.record result).handed = run.handed ++ handedOf result.2 :=
  handedOf_append _ _

theorem delivered_record : (run.record result).delivered = run.delivered ++ framesOf result.2 :=
  framesOf_append _ _

theorem closures_record : (run.record result).closures = run.closures ++ closuresOf result.2 :=
  closuresOf_append _ _

theorem Sound.reports (h : Sound format run) (hre : run.port.Reports result)
    (ho : result.1.ownerClosed = run.port.ownerClosed) :
    (result.1.reported = false → (run.record result).closures = []) ∧
    (run.record result).closures.length ≤ 1 ∧
    (result.1.ownerClosed = true → (run.record result).closures = []) := by
  rw [closures_record]
  rcases hre with ⟨hr, hno⟩ | ⟨hr, hn, hnow, hon⟩
  · rw [hno, List.append_nil, hr, ho]
    exact ⟨h.unreported, h.single, h.owned⟩
  · rw [h.unreported hr, List.nil_append, hnow, ho, hn, hon]
    exact ⟨nofun, le_refl 1, nofun⟩

theorem Sound.ended (h : Sound format run) (he : run.port.Ended messages result)
    (hm : run.handed ++ messages <+: run.promised format ++ run.farewell) :
    Sound format (run.record result) := by
  have hc {goal : Prop} (hop : (run.record result).port.isOpen = true) : goal := by
    cases hop.symm.trans he.isOpen
  obtain ⟨hu, hs, ho⟩ := h.reports he.reports he.ownerClosed
  refine ⟨?_, ?_, hc, ?_, hc, ?_, hu, hs, hc, ho⟩
  · have hq : (run.record result).port.queue = [] := he.queue
    rw [hq]
    exact he.queuedBytes
  · exact fun _ => ⟨he.queue, he.queuedBytes, he.arrivals⟩
  · rw [handed_record, he.handed, promised_record he.options]
    exact hm
  · rw [delivered_record, he.frames, List.append_nil]
    exact h.delivered

theorem Sound.quits (h : Sound format run) (he : run.port.Ended [] result) :
    Sound format (run.record result) :=
  h.ended he (by rw [List.append_nil]; exact h.handed)

theorem record_nil : run.record (port, []) = { run with port } := by
  simp [record]

theorem Sound.goes (h : Sound format run) (ho : run.port.isOpen = true)
    (hs : run.port.Stays result) {arrived : List φ}
    (hb : result.1.queuedBytes = (result.1.queue.map List.length).sum)
    (hse : run.handed ++ (handedOf result.2 ++ result.1.queue) =
      run.promised format ++ run.farewell)
    (hr : run.delivered ++ (framesOf result.2 ++ result.1.arrivals) = arrived) :
    Sound format { run.record result with arrived } := by
  have hp : PortRun.promised format { run.record result with arrived } =
      run.promised format := promised_record hs.options
  have hc : (run.record result).closures = run.closures := by
    rw [closures_record, hs.quiet, List.append_nil]
  have hh : PortRun.handed { run.record result with arrived } ++ result.1.queue =
      PortRun.promised format { run.record result with arrived } ++ run.farewell := by
    rw [hp, ← hse, ← List.append_assoc]
    exact congrArg (· ++ result.1.queue) handed_record
  have hd : PortRun.delivered { run.record result with arrived } ++ result.1.arrivals =
      arrived := by
    rw [← hr, ← List.append_assoc]
    exact congrArg (· ++ result.1.arrivals) delivered_record
  refine ⟨hb, fun hcl => ?_, fun _ => hh, ⟨_, hh⟩, fun _ => hd,
    ⟨_, hd⟩, fun hu => ?_, ?_, fun _ => ?_, fun how => ?_⟩
  · cases (hs.isOpen.trans ho).symm.trans hcl
  · exact hc.trans (h.unreported (hs.reported.symm.trans hu))
  · exact hc.symm ▸ h.single
  · exact ⟨hs.reported.trans (h.fresh ho).1, hs.pendingClosure.trans (h.fresh ho).2⟩
  · exact hc.trans (h.owned (hs.ownerClosed.symm.trans how))

theorem Sound.moves (h : Sound format run) (ho : run.port.isOpen = true)
    {rest : List (List UInt8)} (hs : messages ++ rest = run.port.queue) (paused : Bool) :
    Sound format (run.record
      ({ run.port with queue := rest, queuedBytes := (rest.map List.length).sum, paused },
        messages.map .handed)) := by
  have hst : run.port.Stays
      ({ run.port with queue := rest, queuedBytes := (rest.map List.length).sum, paused },
        messages.map .handed) :=
    ⟨rfl, rfl, rfl, rfl, rfl, closuresOf_map _⟩
  refine h.goes ho hst rfl ?_ ?_
  · rw [handedOf_map, hs]
    exact h.sending ho
  · rw [framesOf_map]
    exact h.receiving ho

theorem Sound.checkStalled (h : Sound format run) :
    Sound format (run.record run.port.checkStalled) := by
  unfold WebSocketPort.checkStalled
  split
  · exact h.quits (WebSocketPort.failSend_ended h.cleared _)
  · rw [record_nil]
    exact h

theorem Sound.flush (h : Sound format run) (verdicts : Verdicts) :
    Sound format (run.record (run.port.flush verdicts)) := by
  unfold WebSocketPort.flush
  split
  case isFalse => exact h.checkStalled
  case isTrue hl =>
    obtain ⟨hb, hd, hm⟩ := WebSocketPort.pump_spec run.port.queue verdicts
    rw [← h.bytes] at hb hd hm
    dsimp only
    generalize WebSocketPort.pump run.port.queuedBytes run.port.queue verdicts = pumped at *
    cases hs : pumped.stop with
    | empty =>
      rw [hb]
      simpa using h.moves hl.1 (hm (by simp [hs])) run.port.paused
    | buffered =>
      rw [hb]
      have hp := (h.moves hl.1 (hm (by simp [hs])) true).checkStalled
      rwa [record, record, List.append_assoc] at hp
    | dropped message =>
      obtain ⟨rest, hr⟩ := hd message hs
      have hc : WebSocketPort.Cleared
          { run.port with queue := pumped.queue, queuedBytes := pumped.queuedBytes } :=
        fun hcl => by cases hl.1.symm.trans hcl
      have he := (WebSocketPort.failSend_ended hc
        (WebSocketPort.droppedReason message)).after pumped.handed
      refine h.ended (he.congr rfl rfl rfl) ⟨rest, ?_⟩
      rw [List.append_assoc, hr]
      exact h.sending hl.1

theorem Sound.queues (h : Sound format run) (ho : run.port.isOpen = true) (accepted : List φ)
    (farewell added : List (List UInt8))
    (hg : PortRun.promised format { run with accepted } ++ farewell =
      run.promised format ++ run.farewell ++ added) :
    Sound format { run with
      accepted
      farewell
      port := { run.port with
        queue := run.port.queue ++ added
        queuedBytes := run.port.queuedBytes + (added.map List.length).sum } } := by
  have hs : run.handed ++ (run.port.queue ++ added) =
      PortRun.promised format { run with accepted } ++ farewell := by
    rw [hg, ← List.append_assoc, h.sending ho]
  refine ⟨?_, fun hc => ?_, fun _ => hs, ⟨run.port.queue ++ added, hs⟩,
    h.receiving, h.delivered, h.unreported, h.single, h.fresh, h.owned⟩
  · simp [h.bytes]
  · cases ho.symm.trans hc

theorem Sound.deliver (h : Sound format run) (ho : run.port.isOpen = true) (frame : φ) :
    Sound format
      { run.record (run.port.deliver frame) with arrived := run.arrived ++ [frame] } := by
  have hr := h.receiving ho
  unfold WebSocketPort.deliver
  split
  case isTrue hd =>
    have hn : run.port.arrivals = [] := List.length_eq_zero_iff.mp hd.2
    refine h.goes ho ⟨rfl, rfl, rfl, rfl, rfl, rfl⟩ h.bytes (h.sending ho) ?_
    rw [← hr, hn, List.append_nil, List.append_nil]
    rfl
  case isFalse =>
    have hh : Sound format { run with
        port := { run.port with arrivals := run.port.arrivals ++ [frame] }
        arrived := run.arrived ++ [frame] } := by
      refine ⟨h.bytes, fun hc => ?_, h.sending, h.handed, fun _ => ?_, ?_, h.unreported,
        h.single, h.fresh, h.owned⟩
      · cases ho.symm.trans hc
      · exact (List.append_assoc _ _ _).symm.trans (congrArg (· ++ [frame]) hr)
      · exact h.delivered.trans (List.prefix_append _ _)
    rw [record_nil]
    exact hh.congr WebSocketPort.core_scheduleArrivals run.draining

theorem Sound.message (h : Sound format run) (message : WebSocketMessage) :
    Sound format { run.record (run.port.receiveMessage format message) with
      arrived := run.arrived ++ (run.arrival format message).toList } := by
  unfold WebSocketPort.receiveMessage
  split
  case isTrue hc =>
    have hn : run.arrival format message = none := by
      cases message with
      | text => rfl
      | binary => exact if_pos hc
    rw [hn, record_nil, Option.toList_none, List.append_nil]
    exact h
  case isFalse ho =>
    cases message with
    | text text =>
      rw [arrival, Option.toList_none, List.append_nil]
      exact h.quits (WebSocketPort.failReceive_ended h.cleared (WebSocketPort.textRefusal text))
    | binary bytes =>
      have hi : run.port.isOpen = true := by simpa using ho
      have hf : Sound format { run with port := { run.port with
          reassembler := (run.port.reassembler.push (decodeLine format.parse) bytes).1 } } := by
        refine h.congr ?_ run.draining
        rfl
      rw [arrival, if_neg ho]
      dsimp only
      cases hp : (run.port.reassembler.push (decodeLine format.parse) bytes).2 with
      | error error =>
        rw [Except.toOption, Option.join_none, Option.toList_none, List.append_nil]
        exact hf.quits (WebSocketPort.failReceive_ended hf.cleared error)
      | ok outcome =>
        cases outcome with
        | none =>
          rw [record_nil, Except.toOption, Option.join_some, Option.toList_none, List.append_nil]
          exact hf
        | some frame => exact hf.deliver hi frame

theorem Sound.deliverClosure (h : Sound format run) :
    Sound format (run.record run.port.deliverClosure) := by
  by_cases ho : run.port.isOpen = true
  · unfold WebSocketPort.deliverClosure
    rw [(h.fresh ho).2]
    dsimp only
    rw [record_nil]
    refine h.congr ?_ run.draining
    simp only [WebSocketPort.core, WebSocketPort.chunkOptions, (h.fresh ho).2]
  · exact h.quits (WebSocketPort.deliverClosure_ended h.cleared (Bool.eq_false_iff.mpr ho))

theorem record_record {next : WebSocketPort φ × List (PortAction φ)} :
    (run.record result).record next = run.record (next.1, result.2 ++ next.2) := by
  simp [record, List.append_assoc]

theorem Sound.parts (h : Sound format run) (hop : run.port.isOpen = true)
    (hu : run.farewell = []) (code : Nat) (reason : Option JsString) (verdicts : Verdicts) :
    Sound format (PortRun.record { run with farewell := run.parting format code reason }
      (run.port.takeLeave format code reason verdicts)) := by
  have ho : Sound format { run with port := { run.port with ownerClosed := true } } :=
    { h with owned := fun _ => h.unreported (h.fresh hop).1 }
  have hs (hn : run.parting format code reason = []) : Sound format
      (PortRun.record { run with farewell := run.parting format code reason }
        ({ run.port with ownerClosed := true }, [])) := by
    rw [hn, record_nil, ← hu]
    exact ho
  have hp : run.parting format code reason = if run.port.sendCloseFrame then
      (run.port.farewell format code reason).getD [] else [] := rfl
  unfold WebSocketPort.takeLeave
  dsimp only
  split
  case isFalse hqu => exact hs (by rw [hp, if_neg hqu])
  case isTrue hse =>
    rw [if_pos hse] at hp
    have hsa : { run.port with ownerClosed := true }.farewell format code reason =
      run.port.farewell format code reason := rfl
    unfold WebSocketPort.sendFarewell
    rw [hsa]
    cases hf : run.port.farewell format code reason with
    | none => exact hs (by rw [hp, hf, Option.getD_none])
    | some messages =>
      rw [hp, hf, Option.getD_some]
      have hq := ho.queues hop run.accepted messages messages
        (by rw [hu, List.append_nil])
      exact hq.flush verdicts

theorem Sound.close (h : Sound format run) (hu : run.port.isOpen = true → run.farewell = [])
    (code : Nat) (reason : Option JsString) (verdicts : Verdicts) :
    Sound format { run.record (run.port.close format code reason verdicts) with
      farewell := if run.port.isOpen then run.parting format code reason else run.farewell } ∧
    (run.port.close format code reason verdicts).1.isOpen = false := by
  unfold WebSocketPort.close
  by_cases ho : run.port.isOpen = true
  · have hp := h.parts ho (hu ho) code reason verdicts
    rw [if_neg (not_not_intro ho), if_pos ho]
    dsimp only
    split
    case isTrue hc => exact ⟨hp, by simpa using hc⟩
    case isFalse =>
      have he := (WebSocketPort.shutdown_ended hp.cleared (some code)).hangUp code
        (clampCloseReason reason)
      have hq := hp.quits he
      rw [record_record] at hq
      exact ⟨hq, he.isOpen⟩
  all_goals simp_all [record_nil]

variable {created : WebSocketPort φ × List (PortAction φ)} {options : WebSocketPortOptions}
  {labels : List (PortLabel φ)} {next : PortRun φ} {label : PortLabel φ} {verdicts : Verdicts}

theorem Sound.send (h : Sound format run) (hu : run.port.isOpen = true → run.farewell = [])
    {frame : φ} (hs : run.port.send format frame verdicts = .ok result) :
    run.port.isOpen = true ∧
      Sound format { run.record result with accepted := run.accepted ++ [frame] } := by
  unfold WebSocketPort.send at hs
  by_cases ho : run.port.isOpen = true
  · rw [if_neg (not_not_intro ho)] at hs
    cases he : run.port.encode format frame with
    | error thrown =>
      rw [he] at hs
      cases hs
    | ok messages =>
      rw [he] at hs
      cases hs
      have hg : PortRun.promised format { run with accepted := run.accepted ++ [frame] } ++ [] =
          run.promised format ++ run.farewell ++ messages := by
        simp [promised, hu ho, he, Except.toOption]
      have hq := (h.queues ho (run.accepted ++ [frame]) [] messages hg).flush verdicts
      rw [← hu ho] at hq
      exact ⟨ho, hq⟩
  · rw [if_pos ho] at hs
    cases hs

theorem Sound.drain (h : Sound format run) (verdicts : Verdicts) :
    Sound format (run.record (run.port.receiveDrain verdicts)) := by
  unfold WebSocketPort.receiveDrain
  split
  · rw [record_nil]
    exact h
  · have hr : Sound format { run with port := { run.port with paused := false } } := by
      refine h.congr ?_ run.draining
      rfl
    exact hr.flush verdicts

theorem Sound.nextArrival (h : Sound format run) (hn : run.port.nextArrival = some result) :
    run.port.isOpen = true ∧ Sound format (run.record result) := by
  unfold WebSocketPort.nextArrival at hn
  split at hn
  case isTrue => cases hn
  case isFalse =>
    cases ha : run.port.arrivals with
    | nil =>
      rw [ha] at hn
      cases hn
    | cons frame arrivals =>
      rw [ha] at hn
      cases hn
      have ho : run.port.isOpen = true := by
        by_contra hc
        cases ha.symm.trans (h.cleared (Bool.eq_false_iff.mpr hc)).2.2
      have hs : run.port.Stays ({ run.port with arrivals }, [.frame frame]) :=
        ⟨rfl, rfl, rfl, rfl, rfl, rfl⟩
      refine ⟨ho, h.goes ho hs h.bytes (h.sending ho) ?_⟩
      rw [← h.receiving ho, ha]
      rfl

/-- The accounts between two calls: an open port has not said farewell. -/
def Kept (format : FrameFormat φ) (run : PortRun φ) : Prop :=
  Sound format run ∧ (run.port.isOpen = true → run.farewell = [])

theorem Sound.step_closed (h : Sound format run) (hc : run.port.isOpen = false)
    (hs : run.step format label = some next) :
    next.port.isOpen = false ∧ next.port.ownerClosed = run.port.ownerClosed ∧
      next.delivered = run.delivered := by
  have hn : ¬run.port.isOpen = true := Bool.eq_false_iff.mp hc
  have hen {result : WebSocketPort φ × List (PortAction φ)} (he : run.port.Ended [] result) :
      (run.record result).port.isOpen = false ∧
        (run.record result).port.ownerClosed = run.port.ownerClosed ∧
        (run.record result).delivered = run.delivered := by
    refine ⟨he.isOpen, he.ownerClosed, ?_⟩
    rw [delivered_record, he.frames, List.append_nil]
  cases label with
  | send frame verdicts => grind [step, WebSocketPort.send]
  | drain verdicts =>
    rw [step, WebSocketPort.receiveDrain, if_pos (.inl hn), record_nil] at hs
    cases hs
    exact ⟨hc, rfl, rfl⟩
  | message message =>
    have hsa : run.port.receiveMessage format message = (run.port, []) := by
      unfold WebSocketPort.receiveMessage
      exact if_pos hn
    rw [step, hsa, record_nil] at hs
    cases hs
    exact ⟨hc, rfl, rfl⟩
  | socketClosed code reason =>
    cases hs
    exact hen (WebSocketPort.receiveClose_ended h.cleared code reason)
  | socketFailed message =>
    cases hs
    exact hen (WebSocketPort.shutdown_report_ended h.cleared none _)
  | close code reason verdicts =>
    rw [step, WebSocketPort.close, if_pos hn, record_nil] at hs
    cases hs
    exact ⟨hc, rfl, rfl⟩
  | onFrame =>
    rw [step] at hs
    split at hs
    · cases hs
    · cases hs
      have hco := run.port.core_onFrame
      simp only [WebSocketPort.core, Prod.mk.injEq] at hco
      exact ⟨hco.1.trans hc, hco.2.2.2.2.2.1, rfl⟩
  | onClosed =>
    rw [step] at hs
    split at hs
    · cases hs
    · cases hs
      have hco := run.port.core_onClosed
      simp only [WebSocketPort.core, Prod.mk.injEq] at hco
      exact ⟨hco.1.trans hc, hco.2.2.2.2.2.1, rfl⟩
  | detachFrames | detachClosed =>
    cases hs
    exact ⟨hc, rfl, rfl⟩
  | startArrivals =>
    rw [step] at hs
    split at hs <;> cases hs
    exact ⟨hc, rfl, rfl⟩
  | nextArrival =>
    rw [step] at hs
    split at hs
    · split at hs
      · cases hs
        exact ⟨hc, rfl, rfl⟩
      · exact absurd (h.nextArrival ‹_›).1 hn
    · cases hs
  | deliverClosure =>
    rw [step] at hs
    split at hs
    · cases hs
      exact hen (WebSocketPort.deliverClosure_ended h.cleared hc)
    · cases hs

theorem Kept.sound_step (h : Kept format run) (hs : run.step format label = some next) :
    Sound format next := by
  obtain ⟨hso, hu⟩ := h
  cases label with
  | send frame verdicts =>
    rw [step] at hs
    split at hs
    · cases hs
      exact hso
    · cases hs
      exact (hso.send hu ‹_›).2
  | drain verdicts =>
    cases hs
    exact hso.drain verdicts
  | message message =>
    cases hs
    exact hso.message message
  | socketClosed code reason =>
    cases hs
    exact hso.quits (WebSocketPort.receiveClose_ended hso.cleared code reason)
  | socketFailed message =>
    cases hs
    exact hso.quits (WebSocketPort.shutdown_report_ended hso.cleared none _)
  | close code reason verdicts =>
    cases hs
    exact (hso.close hu code reason verdicts).1
  | onFrame =>
    rw [step] at hs
    split at hs
    · cases hs
    · cases hs
      exact hso.congr WebSocketPort.core_onFrame run.draining
  | onClosed =>
    rw [step] at hs
    split at hs
    · cases hs
    · cases hs
      exact hso.congr WebSocketPort.core_onClosed run.draining
  | detachFrames | detachClosed =>
    cases hs
    refine hso.congr ?_ run.draining
    rfl
  | startArrivals =>
    rw [step] at hs
    split at hs
    · cases hs
      refine hso.congr ?_ true
      rfl
    · cases hs
  | nextArrival =>
    rw [step] at hs
    split at hs
    · split at hs
      · cases hs
        exact hso.congr rfl false
      · cases hs
        exact (hso.nextArrival ‹_›).2
    · cases hs
  | deliverClosure =>
    rw [step] at hs
    split at hs
    · cases hs
      exact hso.deliverClosure
    · cases hs

theorem farewell_step (hs : run.step format label = some next) :
    (∃ code reason verdicts, label = .close code reason verdicts) ∨
      next.farewell = run.farewell := by
  cases label with
  | close code reason verdicts => exact .inl ⟨code, reason, verdicts, rfl⟩
  | _ =>
    right
    simp only [step] at hs
    grind [record]

theorem Kept.step (h : Kept format run) (hs : run.step format label = some next) :
    Kept format next := by
  refine ⟨h.sound_step hs, fun hn => ?_⟩
  have ho : run.port.isOpen = true := by
    by_contra hc
    cases hn.symm.trans (h.1.step_closed (Bool.eq_false_iff.mpr hc) hs).1
  rcases farewell_step hs with ⟨code, reason, verdicts, rfl⟩ | hsa
  · cases hs
    cases hn.symm.trans (h.1.close h.2 code reason verdicts).2
  · exact hsa.trans (h.2 ho)

theorem new_kept (hn : WebSocketPort.new options = .ok port) :
    Kept format (start (port, [])) := by
  unfold WebSocketPort.new at hn
  split at hn
  · cases hn
  · cases hn
    exact ⟨⟨rfl, nofun, fun _ => rfl, List.nil_prefix, fun _ => rfl, List.nil_prefix,
      fun _ => rfl, Nat.zero_le 1, fun _ => ⟨rfl, rfl⟩, nofun⟩, fun _ => rfl⟩

theorem start_kept (hc : createWebSocketPort options = .ok created) :
    Kept format (start created) := by
  unfold createWebSocketPort at hc
  cases hn : (WebSocketPort.new options : Except Thrown (WebSocketPort φ)) with
  | error thrown =>
    rw [hn] at hc
    cases hc
  | ok port =>
    rw [hn] at hc
    have hf : Kept format (start (port, [])) := new_kept hn
    have hr : Kept format (start port.refuseOrigin) := by
      have he := WebSocketPort.refuseOrigin_ended hf.1.cleared
      exact ⟨hf.1.quits he, fun ho => by cases ho.symm.trans he.isOpen⟩
    dsimp only [Bind.bind, Except.bind, Pure.pure, Except.pure] at hc
    grind

theorem run_kept (hc : createWebSocketPort options = .ok created)
    (hr : Machine.run (step format) (start created) labels = some run) : Kept format run :=
  Machine.run_invariant (Kept format) (fun _ _ _ hk hs => hk.step hs)
    (start_kept hc) hr

theorem run_closed (h : Kept format run) (hc : run.port.isOpen = false)
    (hr : Machine.run (step format) run labels = some next) :
    next.port.isOpen = false ∧ next.port.ownerClosed = run.port.ownerClosed ∧
      next.delivered = run.delivered := by
  refine (Machine.run_invariant (fun (later : PortRun φ) => Kept format later ∧
    later.port.isOpen = false ∧ later.port.ownerClosed = run.port.ownerClosed ∧
    later.delivered = run.delivered) ?_ ⟨h, hc, rfl, rfl⟩ hr).2
  rintro state label after ⟨hk, hst, ho, hd⟩ hs
  obtain ⟨ha, hsa, hn⟩ := hk.1.step_closed hst hs
  exact ⟨hk.step hs, ha, hsa.trans ho, hn.trans hd⟩

theorem run_owned {before after : List (PortLabel φ)} {middle : PortRun φ} {code : Nat}
    {reason : Option JsString} (hc : createWebSocketPort options = .ok created)
    (hb : Machine.run (step format) (start created) before = some middle)
    (ho : middle.port.isOpen = true) (hr : Machine.run (step format) (start created)
      (before ++ .close code reason verdicts :: after) = some run) : run.closures = [] := by
  obtain ⟨state, hst, hre⟩ := Machine.run_append.mp hr
  cases hb.symm.trans hst
  obtain ⟨next, hs, ha⟩ := Machine.run_cons.mp hre
  have hm := run_kept hc hb
  have hn := hm.step hs
  cases hs
  have hcl := (hm.1.close hm.2 code reason verdicts).2
  refine (run_kept hc hr).1.owned ?_
  rw [(run_closed hn hcl ha).2.1]
  exact WebSocketPort.close_ownerClosed ho code reason verdicts

/-- The accounts of every run: the messages handed over are a front of what was promised, in order;
the queue is counted right; the frames delivered are a front of those that arrived, and none comes
after the end of the port; one closure at most, and none for a close of the owner. -/
theorem run_accounts {options : WebSocketPortOptions}
    {created : WebSocketPort φ × List (PortAction φ)} {labels : List (PortLabel φ)}
    (hcreated : createWebSocketPort options = .ok created)
    (hrun : Machine.run (step format) (start created) labels = some run) :
    run.handed <+: run.promised format ++ run.farewell ∧
    run.port.queuedBytes = (run.port.queue.map List.length).sum ∧
    run.delivered <+: run.arrived ∧
    (run.port.isOpen = false → ∀ more next,
      Machine.run (step format) run more = some next → next.delivered = run.delivered) ∧
    run.closures.length ≤ 1 ∧
    (∀ before middle code reason verdicts after,
      labels = before ++ .close code reason verdicts :: after →
      Machine.run (step format) (start created) before = some middle →
      middle.port.isOpen = true → run.closures = []) := by
  have hk := run_kept hcreated hrun
  refine ⟨hk.1.handed, hk.1.bytes, hk.1.delivered, fun hc more next hm => ?_,
    hk.1.single, fun before middle code reason verdicts after hl hb ho => ?_⟩
  · exact (run_closed hk hc hm).2.2
  · rw [hl] at hrun
    exact run_owned hcreated hb ho hrun

theorem exists_created {holds : PortRun φ → Prop} [DecidablePred holds]
    (h : ((createWebSocketPort options).toOption.bind fun created =>
      Machine.run (step format) (start created) labels).any (fun run => holds run) = true) :
    ∃ created run, createWebSocketPort options = .ok created ∧
      Machine.run (step format) (start created) labels = some run ∧ holds run := by
  obtain ⟨run, hb, hh⟩ := (Option.any_eq_true _ _).mp h
  grind [Option.bind_eq_some_iff, ok_of_toOption]

def lineFormat : FrameFormat (List UInt8) :=
  ⟨fun _ => "evt", .ok, fun text _ => .ok (utf8 text), fun code _ => decimal code⟩

/-- Two frames, the second behind backpressure, a frame from the peer, and a close of the owner. -/
def partingLabels : List (PortLabel (List UInt8)) :=
  [.onFrame, .onClosed, .send [123] [some .buffered], .send [125] [], .drain [],
    .message (.binary (chunkMessage 0 1 [123])), .close 4000 none [], .socketClosed 4000 none]

theorem run_accounts_parting :
    ∃ created run, createWebSocketPort {} = .ok created ∧
      Machine.run (step lineFormat) (start created) partingLabels = some run ∧
      run.handed.length = 3 ∧ run.delivered = [[123]] ∧
      run.handed <+: run.promised lineFormat ++ run.farewell ∧ run.closures.length ≤ 1 := by
  have he : ∃ created run, createWebSocketPort {} = .ok created ∧
      Machine.run (step lineFormat) (start created) partingLabels = some run ∧
      run.handed.length = 3 ∧ run.delivered = [[123]] :=
    exists_created (by decide +kernel)
  obtain ⟨created, run, hc, hr, hl, hd⟩ := he
  obtain ⟨hh, -, -, -, hcl, -⟩ := run_accounts hc hr
  exact ⟨created, run, hc, hr, hl, hd, hh, hcl⟩

end PortRun

end MangoProtocol.TypeScript
