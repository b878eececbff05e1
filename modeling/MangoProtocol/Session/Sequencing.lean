import MangoProtocol.Session.Events

/-! The sequence numbers on the wire, for any number of overlapping calls of `emit`. -/

namespace MangoProtocol

open ProofKit ProofKit.Tables

variable {H : Type} {config : Config}

/-! ### Counters -/

/-- The entry of a key whose next event has a number: a key that has not begun has none. -/
def counterOf (number : Nat) : Option Nat := if number = 0 then none else some number

theorem counterOf_getD (number : Nat) : (counterOf number).getD 0 = number := by
  unfold counterOf
  split
  · rename_i hz
    rw [hz]
    rfl
  · rfl

theorem Session.EventInput.lookup_commit (event : Session.EventInput) (seq : Nat)
    (sequences : Table String Nat) (key : String) :
    (event.commit seq sequences).lookup key =
      if key = event.key then if event.ends then none else some (seq + 1)
      else sequences.lookup key := by
  unfold Session.EventInput.commit
  split
  · exact lookup_erase_eq
  · exact lookup_insert_eq

theorem Session.EventInput.size_commit {event : Session.EventInput} {seq limit : Nat}
    {sequences : Table String Nat} (hb : sequences.entries.length ≤ limit)
    (hr : event.key ∈ sequences ∨ sequences.entries.length < limit) :
    (event.commit seq sequences).entries.length ≤ limit := by
  unfold Session.EventInput.commit
  split
  · grind [size_keys, AList.keys_erase]
  · by_cases hm : event.key ∈ sequences
    · grind [size_keys, AList.keys_insert, List.length_cons, List.length_erase_of_mem,
        AList.mem_keys, size_pos]
    · rw [size_insert hm]
      have := hr.resolve_left hm
      omega

theorem position_numbered (events : List Event) (event : Session.EventInput) (seq : Nat)
    (key : String) :
    eventStreams.position (events ++ [event.numbered seq]) key =
      if event.key = key then if event.ends then 0 else eventStreams.position events key + 1
      else eventStreams.position events key := by
  have he : eventStreams.ends (event.numbered seq) = event.ends := by
    simp only [eventStreams, Session.EventInput.numbered]
    cases event.ends <;> rfl
  rw [StreamRule.position_concat, he]
  rfl

namespace Session

variable {self next : Session H} {sequences : Table String Nat}

structure Counted (config : Config) (sequences : Table String Nat) (session : Session H) :
    Prop where
  bounded : session.shared.eventSequences.entries.length ≤ config.maxStreamKeys
  written : session.writtenEvents = session.takenEvents
  taken : eventStreams.InSequence session.takenEvents
  posted : session.phase.serving = true → eventStreams.InSequence session.postedEvents
  counters : session.phase.serving = true → ∀ key,
    sequences.lookup key = counterOf (eventStreams.position session.postedEvents key)

theorem Counted.same (h : self.Counted config sequences) (hs : SameEvents self next)
    (hse : next.phase.serving = true → self.phase.serving = true) :
    next.Counted config sequences where
  bounded := hs.sequences ▸ h.bounded
  written := by rw [hs.written, hs.taken, h.written]
  taken := hs.taken ▸ h.taken
  posted hn := hs.posted ▸ h.posted (hse hn)
  counters hn := hs.posted ▸ h.counters (hse hn)

theorem Counted.take {event : Event} (h : self.Counted config sequences)
    (hp : next.postedEvents = self.postedEvents)
    (ht : next.takenEvents = self.takenEvents ++ [event])
    (hw : next.writtenEvents = self.writtenEvents ++ [event])
    (hse : next.shared.eventSequences = self.shared.eventSequences)
    (hs : self.phase.serving = true) : next.Counted config sequences where
  bounded := hse ▸ h.bounded
  written := by rw [hw, ht, h.written]
  taken := by
    -- What was taken comes first among what was posted, which is in sequence.
    have ha := h.posted hs
    rw [← hp, next.takenEvents_append] at ha
    exact ha.of_append
  posted _ := hp ▸ h.posted hs
  counters _ := hp ▸ h.counters hs

theorem Counted.send {event : EventInput} {seq : Nat} (h : self.Counted config sequences)
    (hse : seq = (sequences.lookup event.key).getD 0) (ho : self.commandsOpen = true) :
    (self.command (.send (.evt (event.numbered seq)))).Counted config
      (event.commit seq sequences) := by
  have heq : self.command (.send (.evt (event.numbered seq))) =
      { self with commands := self.commands.send (.send (.evt (event.numbered seq))) } := by
    rw [Session.command, if_pos ho]
  have hp : (self.command (.send (.evt (event.numbered seq)))).postedEvents =
      self.postedEvents ++ [event.numbered seq] := by
    rw [heq]
    simp [postedEvents, Command.event, Command.frame, Frame.event]
  have ht : (self.command (.send (.evt (event.numbered seq)))).takenEvents =
      self.takenEvents := by
    rw [heq]
    simp [takenEvents]
  refine ⟨?_, ?_, by rw [ht]; exact h.taken, ?_, ?_⟩
  · rw [heq]
    exact h.bounded
  · rw [ht, ← h.written, heq]
    rfl
  · rw [hp, heq]
    intro hs
    refine (h.posted hs).concat ?_
    have hn : seq = eventStreams.position self.postedEvents event.key := by
      rw [hse, h.counters hs, counterOf_getD]
    rw [hn]
    rfl
  · rw [hp, heq]
    intro hs key
    rw [position_numbered, event.lookup_commit]
    by_cases hk : key = event.key
    · subst hk
      rw [if_pos rfl, if_pos rfl, hse, h.counters hs, counterOf_getD]
      cases event.ends <;> rfl
    · rw [if_neg hk, if_neg (Ne.symm hk), h.counters hs]

theorem Counted.commit {event : EventInput} {seq : Nat}
    (h : self.Counted config (event.commit seq self.shared.eventSequences))
    (hr : event.key ∈ self.shared.eventSequences ∨
      self.shared.eventSequences.entries.length < config.maxStreamKeys) :
    (self.commitEvent event seq).Counted config
      (self.commitEvent event seq).shared.eventSequences where
  bounded := EventInput.size_commit h.bounded hr
  written := h.written
  taken := h.taken
  posted := h.posted
  counters := h.counters

theorem measureEvent_eq_ok {event : EventInput} {seq : Nat}
    (h : self.measureEvent config event = .ok seq) :
    seq = (self.shared.eventSequences.lookup event.key).getD 0 ∧
      (event.key ∈ self.shared.eventSequences ∨
        self.shared.eventSequences.entries.length < config.maxStreamKeys) := by
  simp only [measureEvent] at h
  grind

end Session

/-! ### The lock -/

def EmitCall.committed (call : EmitCall) (sequences : Table String Nat) : Table String Nat :=
  match call.stage with
  | .queued seq => call.event.commit seq sequences
  | _ => sequences

def EmitStage.number : EmitStage → Option Nat
  | .measured seq | .queued seq => some seq
  | _ => none

def EmitStage.Sent : EmitStage → Prop
  | .queued _ | .returned (.ok true) => True
  | _ => False

theorem EmitStage.holds_of_number {stage : EmitStage} {seq : Nat} (h : stage.number = some seq) :
    stage.holds = true := by
  cases stage with
  | measured | queued => rfl
  | _ => cases h

theorem EmitCall.committed_of_released {call : EmitCall} (h : call.stage.holds = false)
    (sequences : Table String Nat) : call.committed sequences = sequences := by
  unfold committed
  split
  · rename_i hs
    rw [hs] at h
    cases h
  · rfl

namespace Emission

variable {self next : Emission H}

def sequences (self : Emission H) : Table String Nat :=
  match self.lock.bind fun index => self.calls[index]? with
  | some call => call.committed self.session.shared.eventSequences
  | none => self.session.shared.eventSequences

theorem sequences_of_lock {index : Nat} {call : EmitCall} (hl : self.lock = some index)
    (hc : self.calls[index]? = some call) :
    self.sequences = call.committed self.session.shared.eventSequences := by
  simp only [sequences, hl, Option.bind_some, hc]

theorem sequences_of_unlocked (hl : self.lock = none) :
    self.sequences = self.session.shared.eventSequences := by
  simp only [sequences, hl, Option.bind_none]

theorem sequences_congr (hs : next.session = self.session) (hl : next.lock = self.lock)
    (hc : ∀ index, self.lock = some index → next.calls[index]? = self.calls[index]?) :
    next.sequences = self.sequences := by
  simp only [sequences, hs, hl]
  cases h : self.lock with
  | none => rfl
  | some index => simp only [Option.bind_some, hc index h]

structure Sequenced (config : Config) (emission : Emission H) : Prop where
  holds : ∀ (index : Nat) (call : EmitCall), emission.calls[index]? = some call →
    (call.stage.holds = true ↔ emission.lock = some index)
  owned : ∀ index, emission.lock = some index → ∃ call, emission.calls[index]? = some call
  numbered : ∀ (index : Nat) (call : EmitCall) (seq : Nat), emission.calls[index]? = some call →
    call.stage.number = some seq →
    seq = (emission.session.shared.eventSequences.lookup call.event.key).getD 0 ∧
      (call.event.key ∈ emission.session.shared.eventSequences ∨
        emission.session.shared.eventSequences.entries.length < config.maxStreamKeys)
  counted : emission.session.Counted config emission.sequences

theorem Sequenced.session {label : Label H} {session : Session H} (h : self.Sequenced config)
    (hm : Session.EventMove self.session label session)
    (hu : self.session.forgets label = true → self.lock = none) :
    Sequenced config { self with session } := by
  have kept (hs : session.shared.eventSequences = self.session.shared.eventSequences)
      (hc : session.Counted config self.sequences) :
      Sequenced config { self with session } := by
    refine ⟨h.holds, h.owned, ?_, ?_⟩
    · rw [hs]
      exact h.numbered
    · simp only [sequences, hs]
      exact hc
  cases hm with
  | same hsa hse => exact kept hsa.sequences (h.counted.same hsa hse)
  | take event hp ht hw hs hse =>
    exact kept hs (h.counted.take hp ht hw hs hse)
  | forget hp ht hw hs hf hse =>
    have hl := hu hf
    refine ⟨h.holds, h.owned, ?_, ?_⟩
    · intro index call seq hca hnu
      have hh := (h.holds index call hca).mp (EmitStage.holds_of_number hnu)
      cases hl.symm.trans hh
    · constructor
      case bounded =>
        rw [hs]
        exact Nat.zero_le _
      case written => rw [hw, ht, h.counted.written]
      case taken => exact ht ▸ h.counted.taken
      case posted => exact fun hn => absurd (hse.symm.trans hn) Bool.false_ne_true
      case counters => exact fun hn => absurd (hse.symm.trans hn) Bool.false_ne_true

theorem Sequenced.start (h : self.Sequenced config) (event : Session.EventInput) :
    Sequenced config { self with calls := self.calls ++ [⟨event, .entered⟩] } := by
  obtain ⟨hh, ho, hn, hc⟩ := h
  have hs : Emission.sequences { self with calls := self.calls ++ [⟨event, .entered⟩] } =
      self.sequences := sequences_congr rfl rfl (by grind)
  refine ⟨?_, ?_, ?_, by rw [hs]; exact hc⟩ <;>
    grind [EmitStage.holds, EmitStage.number]

theorem Sequenced.hold {index : Nat} {call : EmitCall} {stage : EmitStage} {session : Session H}
    (h : self.Sequenced config) (hca : self.calls[index]? = some call)
    (hl : self.lock = none ∨ self.lock = some index)
    (hn : ∀ seq, stage.number = some seq →
      seq = (session.shared.eventSequences.lookup call.event.key).getD 0 ∧
        (call.event.key ∈ session.shared.eventSequences ∨
          session.shared.eventSequences.entries.length < config.maxStreamKeys))
    (hc : session.Counted config
      (EmitCall.committed { call with stage } session.shared.eventSequences)) :
    Sequenced config (setStage ⟨session, self.calls, if stage.holds then some index else none⟩
      index stage) := by
  obtain ⟨hh, how, hnu, -⟩ := h
  have hm : (self.calls.modify index fun call => { call with stage })[index]? =
      some { call with stage } := by
    rw [List.getElem?_modify_eq, hca]
    rfl
  -- No other call holds the lock, before or after.
  have hot {position : Nat} {other : EmitCall} (hp : position ≠ index)
      (ho : self.calls[position]? = some other) : other.stage.holds = false := by
    grind
  have hg {position : Nat} {other : EmitCall}
      (ho : (self.calls.modify index fun call => { call with stage })[position]? = some other) :=
    getElem?_modify_eq_some ho
  have hs : (setStage ⟨session, self.calls, if stage.holds then some index else none⟩
      index stage).sequences =
      EmitCall.committed { call with stage } session.shared.eventSequences := by
    cases hh : stage.holds with
    | true => exact sequences_of_lock rfl hm
    | false =>
      rw [EmitCall.committed_of_released hh]
      exact sequences_of_unlocked rfl
  refine ⟨?_, ?_, ?_, by rw [hs]; exact hc⟩ <;>
    grind [setStage, EmitStage.holds_of_number]

theorem Sequenced.pass {index : Nat} {call : EmitCall} {stage : EmitStage}
    (h : self.Sequenced config) (hca : self.calls[index]? = some call)
    (hb : call.stage.holds = false) (ha : stage.holds = false) :
    (self.setStage index stage).Sequenced config := by
  obtain ⟨hh, how, hn, hc⟩ := h
  have hg {position : Nat} {other : EmitCall}
      (ho : (self.setStage index stage).calls[position]? = some other) :=
    getElem?_modify_eq_some ho
  have hk (position : Nat) (hl : self.lock = some position) :
      (self.setStage index stage).calls[position]? = self.calls[position]? := by
    refine List.getElem?_modify_ne _ _ ?_
    grind
  have hs : (self.setStage index stage).sequences = self.sequences :=
    sequences_congr rfl rfl hk
  have hl : (self.setStage index stage).lock = self.lock := rfl
  have hse : (self.setStage index stage).session = self.session := rfl
  refine ⟨?_, ?_, ?_, by rw [hs]; exact hc⟩ <;> grind [EmitStage.holds_of_number]

/-! ### Steps and runs -/

theorem Sequenced.advance {index : Nat} {call : EmitCall} (h : self.Sequenced config)
    (hc : self.calls[index]? = some call) (hs : self.advance config index call = some next) :
    next.Sequenced config := by
  obtain ⟨event, stage⟩ := call
  have hl (hh : stage.holds = true) : self.lock = some index :=
    (h.holds index _ hc).mp hh
  -- What a holder of the lock that has sent nothing sees is what is committed.
  have hco (hh : stage.holds = true) : self.session.Counted config
      (EmitCall.committed ⟨event, stage⟩ self.session.shared.eventSequences) := by
    rw [← sequences_of_lock (hl hh) hc]
    exact h.counted
  cases stage with
  | entered =>
    cases hs
    refine h.pass hc rfl ?_
    split <;> rfl
  | admitted =>
    obtain ⟨hlo, ⟨⟩⟩ := Option.ite_none_right_eq_some.mp hs
    exact h.hold hc (.inl hlo) (by simp [EmitStage.number]) (sequences_of_unlocked hlo ▸ h.counted)
  | locked =>
    simp only [Emission.advance] at hs
    split at hs <;> cases hs
    · exact h.hold hc (.inr (hl rfl)) (by simp [EmitStage.number]) (hco rfl)
    · rename_i seq hm
      have hho : Sequenced config (setStage ⟨self.session, self.calls, some index⟩ index
          (.measured seq)) := by
        refine h.hold hc (.inr (hl rfl)) ?_ (hco rfl)
        rintro number ⟨⟩
        exact Session.measureEvent_eq_ok hm
      rwa [← hl rfl] at hho
  | measured seq =>
    obtain ⟨hse, hr⟩ := h.numbered index _ seq hc rfl
    simp only [Emission.advance] at hs
    split at hs <;> cases hs
    · rename_i ho
      have hsh : (self.session.command (.send (.evt (event.numbered seq)))).shared =
          self.session.shared := by
        rw [Session.command, if_pos ho]
      have hho : Sequenced config (setStage
          ⟨self.session.command (.send (.evt (event.numbered seq))), self.calls, some index⟩ index
          (.queued seq)) := by
        refine h.hold hc (.inr (hl rfl)) ?_ ?_ <;> rw [hsh]
        · rintro number ⟨⟩
          exact ⟨hse, hr⟩
        · exact (hco rfl).send hse ho
      rwa [← hl rfl] at hho
    · exact h.hold hc (.inr (hl rfl)) (by simp [EmitStage.number]) (hco rfl)
  | queued seq =>
    cases hs
    obtain ⟨-, hr⟩ := h.numbered index _ seq hc rfl
    exact h.hold hc (.inr (hl rfl)) (by simp [EmitStage.number])
      ((hco rfl).commit hr)
  | returned => cases hs

theorem Sequenced.step {label : EmissionLabel H} (h : self.Sequenced config)
    (hs : self.step config label = some next) : next.Sequenced config := by
  cases label with
  | session label =>
    simp only [Emission.step] at hs
    split at hs
    · cases hs
    · rename_i ha
      obtain ⟨session, hse, rfl⟩ := Option.map_eq_some_iff.mp hs
      rw [not_or, not_and, Bool.not_eq_true, not_not] at ha
      exact h.session (Session.step_eventMove ha.1 hse) ha.2
  | start event =>
    cases hs
    exact h.start event
  | advance index =>
    obtain ⟨call, hc, had⟩ := Option.bind_eq_some_iff.mp hs
    exact h.advance hc had

theorem initial_sequenced (handlers : List (String × H)) :
    (initial handlers).Sequenced config := by
  obtain ⟨registry, generation, heq⟩ := Shared.initial_eq handlers
  refine ⟨fun _ _ => nofun, fun _ => nofun, fun _ _ _ => nofun, ?_⟩
  have he : (initial handlers).session.shared.eventSequences = ∅ := congrArg _ heq
  refine ⟨?_, rfl, .nil, fun _ => .nil, fun _ key => ?_⟩
  · rw [he]
    exact Nat.zero_le _
  · rw [sequences_of_unlocked rfl, he]
    rfl

theorem advance_eq {index : Nat} {call : EmitCall}
    (h : self.advance config index call = some next) :
    ∃ session lock stage, next = setStage ⟨session, self.calls, lock⟩ index stage ∧
      (session = self.session ∧ (call.stage.Sent → stage.Sent) ∨ stage.Sent) := by
  unfold advance at h
  split at h
  case h_1 hs =>
    cases h
    exact ⟨_, _, _, rfl, .inl ⟨rfl, by rw [hs]; nofun⟩⟩
  case h_2 hs =>
    obtain ⟨-, h⟩ := Option.ite_none_right_eq_some.mp h
    cases h
    exact ⟨_, _, _, rfl, .inl ⟨rfl, by rw [hs]; nofun⟩⟩
  case h_3 hs =>
    split at h
    · cases h
      exact ⟨_, _, _, rfl, .inl ⟨rfl, by rw [hs]; nofun⟩⟩
    · cases h
      exact ⟨_, _, _, rfl, .inl ⟨rfl, by rw [hs]; nofun⟩⟩
  case h_4 hs =>
    split at h
    · cases h
      exact ⟨_, _, _, rfl, .inr trivial⟩
    · cases h
      exact ⟨_, _, _, rfl, .inl ⟨rfl, by rw [hs]; nofun⟩⟩
  case h_5 =>
    cases h
    exact ⟨_, _, _, rfl, .inr trivial⟩
  case h_6 => cases h

def Sent (index : Nat) (self : Emission H) : Prop :=
  ∃ call, self.calls[index]? = some call ∧ call.stage.Sent

theorem setStage_calls {index : Nat} {call : EmitCall} (stage : EmitStage)
    (hc : self.calls[index]? = some call) :
    (self.setStage index stage).calls[index]? = some { call with stage } := by
  simp only [setStage, List.getElem?_modify_eq, hc]
  rfl

theorem Sent.step {index : Nat} {label : EmissionLabel H} (h : self.Sent index)
    (hs : self.step config label = some next) : next.Sent index := by
  obtain ⟨call, hc, hse⟩ := h
  cases label with
  | session label =>
    obtain ⟨-, hs⟩ := Option.ite_none_left_eq_some.mp hs
    obtain ⟨session, -, rfl⟩ := Option.map_eq_some_iff.mp hs
    exact ⟨call, hc, hse⟩
  | start event =>
    cases hs
    exact ⟨call, by grind, hse⟩
  | advance position =>
    obtain ⟨other, ho, ha⟩ := Option.bind_eq_some_iff.mp hs
    obtain ⟨session, lock, stage, rfl, hst⟩ := advance_eq ha
    by_cases hp : position = index
    · subst hp
      cases hc.symm.trans ho
      exact ⟨_, setStage_calls stage hc, by grind⟩
    · exact ⟨call, (List.getElem?_modify_ne _ _ hp).trans hc, hse⟩

theorem step_session {index : Nat} (hst : self.step config (.advance index) = some next)
    (hn : ¬next.Sent index) : next.session = self.session := by
  obtain ⟨call, hc, ha⟩ := Option.bind_eq_some_iff.mp hst
  obtain ⟨session, lock, stage, rfl, ⟨hs, -⟩ | hse⟩ := advance_eq ha
  · exact hs
  · exact absurd ⟨_, setStage_calls stage hc, hse⟩ hn

/-- The events queued for the writer carry the numbers of their streams in order, no more keys are
open than a session may have, and a call that returns `Ok(false)` or an error changed nothing. -/
theorem run_sequenced {handlers : List (String × H)} {labels : List (EmissionLabel H)}
    {final : Emission H}
    (hrun : Machine.run (step config) (initial handlers) labels = some final) :
    eventStreams.InSequence final.session.writtenEvents ∧
      final.session.shared.eventSequences.entries.length ≤ config.maxStreamKeys ∧
      ∀ index event outcome, final.calls[index]? = some ⟨event, .returned outcome⟩ →
        outcome ≠ .ok true → ∀ before after earlier later,
          labels = before ++ .advance index :: after →
          Machine.run (step config) (initial handlers) before = some earlier →
          earlier.step config (.advance index) = some later →
          later.session = earlier.session := by
  have hseq : final.Sequenced config :=
    Machine.run_invariant (Sequenced config) (fun _ _ _ h hs => h.step hs)
      (initial_sequenced handlers) hrun
  refine ⟨?_, hseq.counted.bounded, ?_⟩
  · rw [hseq.counted.written]
    exact hseq.counted.taken
  · rintro index event outcome hc ho before after earlier later rfl hbe hs
    refine step_session hs fun hse => ?_
    obtain ⟨between, hb, ha⟩ := Machine.run_append.mp hrun
    cases hbe.symm.trans hb
    obtain ⟨next, hn, hr⟩ := Machine.run_cons.mp ha
    cases hs.symm.trans hn
    -- A frame that was sent stays sent, so the call would have returned `Ok(true)`.
    have hf : final.Sent index :=
      Machine.run_invariant (Sent index) (fun _ _ _ h hs => h.step hs) hse hr
    obtain ⟨found, hfo, hse⟩ := hf
    cases hc.symm.trans hfo
    cases outcome with
    | error => cases hse
    | ok sent =>
      cases sent with
      | false => cases hse
      | true => exact ho rfl

/-! ### Two calls on one topic -/

def clockTick : Session.EventInput := ⟨"clock.tick", .ofJson .null, none, false⟩

/-- The second call waits for the lock while the driver takes the frame of the first, which has not
committed its sequence yet. -/
def tickLabels : List (EmissionLabel Unit) :=
  greetingLabels.map .session ++
    [.start clockTick, .start clockTick, .advance 0, .advance 1, .advance 0, .advance 0,
      .advance 0, .session (.driver .command), .advance 0, .advance 1, .advance 1, .advance 1,
      .advance 1, .session (.driver .command)]

theorem run_sequenced_ticks :
    ∃ final, Machine.run (step (sampleConfig [])) (initial []) tickLabels = some final ∧
      final.session.writtenEvents.map Event.seq = [0, 1] ∧
      eventStreams.InSequence final.session.writtenEvents ∧
      final.session.shared.eventSequences.entries.length ≤ defaultMaxStreamKeys := by
  obtain ⟨final, hr, hse⟩ : ∃ final,
      Machine.run (step (sampleConfig [])) (initial []) tickLabels = some final ∧
        final.session.writtenEvents.map Event.seq = [0, 1] :=
    Machine.exists_run (by decide +kernel)
  obtain ⟨hs, hb, -⟩ := run_sequenced hr
  exact ⟨final, hr, hse, hs, hb⟩

end Emission

end MangoProtocol
