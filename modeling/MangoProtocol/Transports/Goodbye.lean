import MangoProtocol.Transports.SharedWriter

/-! The goodbye of an NDJSON port.  Its farewell and the end of its writable half are two turns at
the mutex; as long as no other record gets the mutex between them, what the handle takes is complete
records, of which only the last may be a close and only the last may be cut. -/

namespace MangoProtocol

open ProofKit ProofKit.Records

def GoodbyeLast (output : List UInt8) : Prop :=
  ∃ (records : List Frame) (last : Frame) (cut : List UInt8),
    output = (records.map Frame.record).flatten ++ cut ∧ cut <+: last.record ∧
      ∀ frame ∈ records, frame.isClose = false

/-! ### The tag of a close -/

/-- The tags of the frames that are no close. -/
def plainTypeNames : List String := ["hello", "req", "res", "err", "evt", "cancel", "ping", "pong"]

variable {frame : Frame}

theorem Frame.typeName_plain (h : frame.isClose = false) : frame.typeName ∈ plainTypeNames := by
  cases frame with
  | close => cases h
  | _ => simp [typeName, plainTypeNames]

theorem quoted_typeName : (∀ name ∈ plainTypeNames, 2 < (quoted name).length ∧
    (quoted name)[2]? ≠ some 108) ∧ 2 < (quoted "close").length ∧
      (quoted "close")[2]? = some 108 := by
  decide +kernel

theorem Frame.toVec_eq (frame : Frame) : frame.toVec =
    123 :: (quoted "type" ++ 58 :: (quoted frame.typeName ++ Json.restMembers frame.members)) := by
  simp only [toVec, serialize, Json.toVec]

theorem Frame.toVec_tag (frame : Frame) (h : 2 < (quoted frame.typeName).length) :
    frame.toVec[10]? = (quoted frame.typeName)[2]? := by
  have ht : quoted "type" = [34, 116, 121, 112, 101, 34] := by decide +kernel
  rw [toVec_eq, ht]
  exact List.getElem?_append_left h

theorem Frame.toVec_ne {close : Frame} (hf : frame.isClose = false)
    (hc : close.isClose = true) : frame.toVec ≠ close.toVec := by
  intro heq
  have hn : close.typeName = "close" := by
    cases close <;> first | rfl | cases hc
  obtain ⟨hp, hl, hle⟩ := quoted_typeName
  obtain ⟨hlo, ho⟩ := hp _ (typeName_plain hf)
  have ht := close.toVec_tag (by rw [hn]; exact hl)
  rw [hn, hle, ← heq, frame.toVec_tag hlo] at ht
  exact ho ht

theorem not_goodbyeLast {first second : Frame} (hc : first.isClose = true) :
    ¬GoodbyeLast (first.record ++ second.record) := by
  rintro ⟨records, last, cut, ho, hcu, hp⟩
  cases records with
  | nil =>
    -- One record has one terminator.
    have count (frame : Frame) : frame.record.count newline = 1 := by
      rw [Frame.record, List.count_append, List.count_eq_zero.mpr frame.newline_not_mem_toVec]
      rfl
    have hle := hcu.sublist.count_le newline
    rw [List.map_nil, List.flatten_nil, List.nil_append] at ho
    rw [← ho, List.count_append, count, count, count] at hle
    omega
  | cons record records =>
    have hf : splitRecord newline (first.record ++ second.record) =
        some (first.toVec, second.record) :=
      splitRecord_eq_some.mpr ⟨first.newline_not_mem_toVec, by simp [Frame.record]⟩
    have hr : splitRecord newline (first.record ++ second.record) =
        some (record.toVec, (records.map Frame.record).flatten ++ cut) :=
      splitRecord_eq_some.mpr ⟨record.newline_not_mem_toVec, by rw [ho]; simp [Frame.record]⟩
    have heq := congrArg Prod.fst (Option.some.inj (hr.symm.trans hf))
    exact Frame.toVec_ne (hp record List.mem_cons_self) hc heq

namespace SharedWriter

variable {platform : Platform} {maxFrameBytes : Nat} {self next : SharedWriter}
  {label : WriterLabel}

/-! ### Calls and the guard -/

/-- The calls of a writer change in their stages and fates only, and by new calls. -/
inductive Edits (label : WriterLabel) (before after : List WriterCall) : Prop
  | same (h : after = before)
  | append (call : WriterCall) (hfresh : Fresh call)
    (hlabel : call.ends = false ∨ (∃ code reason, label = .end_ code reason) ∨ label = .shutDown)
    (h : after = before ++ [call])
  | modify (index : Nat) (edit : WriterCall → WriterCall)
    (hedit : ∀ call, (edit call).frame = call.frame ∧ (edit call).ends = call.ends ∧
      ((edit call).fate = .pending → call.fate = .pending))
    (h : after = before.modify index edit)

theorem leave_calls (self : SharedWriter) (index : Nat) :
    (self.leave index).calls = self.calls := by
  unfold leave
  split <;> rfl

theorem Edits.stage (calls : List WriterCall) (index : Nat) (stage : WriterStage) :
    Edits label calls (calls.modify index fun call => { call with stage }) :=
  .modify index (fun call => { call with stage }) (fun _ => ⟨rfl, rfl, id⟩) rfl

theorem Edits.settle (calls : List WriterCall) (index : Nat) {fate : RecordFate}
    (hf : fate ≠ .pending) : Edits label calls (calls.modify index (.settle fate)) :=
  .modify index (.settle fate) (fun _ => ⟨rfl, rfl, fun h => absurd h hf⟩) rfl

theorem Move.edits (h : Move self label next) : Edits label self.calls next.calls := by
  cases h with
  | refuse | write => exact .same rfl
  | call _ call hf hl => exact .append call hf hl rfl
  | lock | begin | shut | signal => exact .stage _ _ _
  | late | flush | fail | evict => exact .settle _ _ nofun
  | timeout index =>
    rw [SharedWriter.settle, leave_calls]
    exact .settle _ _ nofun
  | drop index =>
    refine .modify index .dropped (fun call => ⟨rfl, rfl, fun h => ?_⟩) (by rw [leave_calls])
    simp only [WriterCall.dropped] at h
    grind

theorem Edits.all {before after : List WriterCall} (holds : Option Frame → Bool → Prop)
    (h : Edits label before after) (hf : ∀ call, Fresh call → holds call.frame call.ends)
    (ha : ∀ call ∈ before, holds call.frame call.ends) :
    ∀ call ∈ after, holds call.frame call.ends := by
  cases h with
  | same h => rwa [h]
  | append call hc _ h => grind
  | modify index edit hed h =>
    subst h
    intro other ho
    obtain ⟨position, hp⟩ := List.mem_iff_getElem?.mp ho
    rw [List.getElem?_modify] at hp
    obtain ⟨old, hold, ho⟩ := Option.map_eq_some_iff.mp hp
    grind [List.mem_of_getElem?]

structure Sound (writer : SharedWriter) : Prop where
  farewell : ∀ call ∈ writer.calls, call.ends = true → ∀ frame, call.frame = some frame →
    frame.isClose = true
  held : ∀ guard, writer.guard = some guard → ∃ call, writer.calls[guard.call]? = some call ∧
    call.stage = .writing ∧ call.frame = some guard.frame ∧ call.ends = guard.ends

variable {guard : WriterGuard} {call : WriterCall} {index : Nat}

theorem Sound.held_modify (edit : WriterCall → WriterCall) (h : self.Sound)
    (hg : self.guard = some guard) (ho : index ≠ guard.call) :
    ∃ call, (self.calls.modify index edit)[guard.call]? = some call ∧
      call.stage = .writing ∧ call.frame = some guard.frame ∧ call.ends = guard.ends := by
  obtain ⟨call, hc, hw⟩ := h.held guard hg
  exact ⟨call, by simp [hc, ho], hw⟩

theorem Sound.ne_guard (h : self.Sound) (hg : self.guard = some guard)
    (hc : self.calls[index]? = some call) (hs : call.stage ≠ .writing) :
    index ≠ guard.call := by
  rintro rfl
  obtain ⟨other, ho, hw, -⟩ := h.held guard hg
  cases hc.symm.trans ho
  exact hs hw

theorem leave_guard (h : (self.leave index).guard = some guard) :
    self.guard = some guard ∧ index ≠ guard.call := by
  unfold leave holds at h
  split at h
  · cases h
  · rename_i hh
    refine ⟨h, ?_⟩
    rintro rfl
    rw [h] at hh
    exact hh (by simp)

theorem Sound.step (h : self.Sound) (hm : Move self label next) : next.Sound := by
  refine ⟨hm.edits.all (fun found ends => ends = true → ∀ frame, found = some frame →
    frame.isClose = true) (fun _ hf => hf.farewell) h.farewell, fun guard hg => ?_⟩
  cases hm with
  | refuse => exact h.held guard hg
  | call _ call =>
    obtain ⟨held, hh, hw⟩ := h.held guard hg
    exact ⟨held, by grind, hw⟩
  | lock index call stage hc hs =>
    exact h.held_modify _ hg (h.ne_guard hg hc (by grind))
  | begin index queue call frame _ hc _ hfr => grind [setStage]
  | late _ _ _ hn | shut _ _ _ hn => cases hn.symm.trans hg
  | write guard' _ hg' =>
    cases hg
    exact h.held guard' hg'
  | flush | fail | evict => cases hg
  | signal index call hc hs =>
    exact h.held_modify _ hg (h.ne_guard hg hc (by grind))
  | timeout | drop =>
    obtain ⟨hse, ho⟩ := leave_guard hg
    simp only [settle, leave_calls]
    exact h.held_modify _ hse ho

/-! ### What the handle took -/

def nextWrites (self : SharedWriter) : Bool :=
  match self.queue with
  | index :: _ => self.calls[index]?.any fun call => call.stage = .waiting
  | [] => false

def parting (self : SharedWriter) : Bool :=
  self.writable && self.writer && self.begun.any Frame.isClose

/-- The step is not one that gives the mutex to a record between a farewell and the end of the
half. -/
def orderly (self : SharedWriter) : WriterLabel → Bool
  | .acquire => !(self.nextWrites && self.parting)
  | _ => true

/-- How far the output is. -/
inductive Laid (writer : SharedWriter) : Prop
  /-- All records are complete. -/
  | between (records : List Frame) (hplain : ∀ frame ∈ records, frame.isClose = false)
    (houtput : writer.output = (records.map Frame.record).flatten) (hguard : writer.guard = none)
  /-- A record is being written. -/
  | within (records : List Frame) (guard : WriterGuard) (written : List UInt8)
    (hplain : ∀ frame ∈ records, frame.isClose = false)
    (houtput : writer.output = (records.map Frame.record).flatten ++ written)
    (hguard : writer.guard = some guard) (hsplit : written ++ guard.rest = guard.frame.record)
    (hbegun : guard.frame ∈ writer.begun)
  /-- No further record is begun. -/
  | sealed (records : List Frame) (last : Frame) (cut : List UInt8)
    (hplain : ∀ frame ∈ records, frame.isClose = false)
    (houtput : writer.output = (records.map Frame.record).flatten ++ cut)
    (hcut : cut <+: last.record) (hguard : writer.guard = none)
    (hsealed : writer.writable = false ∨ writer.begun.any Frame.isClose = true)

theorem Laid.goodbyeLast (h : self.Laid) : GoodbyeLast self.output := by
  cases h with
  | between records hp ho =>
    exact ⟨records, .ping, [], by rw [ho, List.append_nil], List.nil_prefix, hp⟩
  | within records guard written hp ho _ hs =>
    exact ⟨records, guard.frame, written, ho, ⟨guard.rest, hs⟩, hp⟩
  | sealed records last cut hp ho hc => exact ⟨records, last, cut, ho, hc, hp⟩

theorem Laid.same (h : self.Laid) (hg : next.guard = self.guard)
    (ho : next.output = self.output) (hb : next.begun = self.begun)
    (hw : next.writable = true → self.writable = true) : next.Laid := by
  cases h with
  | between records hp hs hn =>
    exact .between records hp (ho.trans hs) (hg.trans hn)
  | within records guard written hp hs hso hsp hm =>
    exact .within records guard written hp (ho.trans hs) (hg.trans hso) hsp
      (hb ▸ hm)
  | sealed records last cut hp hs hc hn hse =>
    exact .sealed records last cut hp (ho.trans hs) hc (hg.trans hn) (by grind)

theorem Laid.release (h : self.Laid) (hg : self.guard = some guard) (hn : next.guard = none)
    (ho : next.output = self.output) (hb : next.begun = self.begun)
    (hsea : next.writable = false ∨ guard.frame.isClose = true) : next.Laid := by
  cases h with
  | within records other written hp hse hot hs hm =>
    cases hot.symm.trans hg
    exact .sealed records guard.frame written hp (ho.trans hse) ⟨guard.rest, hs⟩
      hn (by grind)
  | _ => grind

theorem Laid.flush (h : self.Laid) (hg : self.guard = some guard) (hr : guard.rest = [])
    (hn : next.guard = none) (ho : next.output = self.output)
    (hb : next.begun = self.begun) : next.Laid := by
  cases hc : guard.frame.isClose with
  | true => exact h.release hg hn ho hb (.inr hc)
  | false =>
    cases h with
    | within records other written hp hse hot hs =>
      cases hot.symm.trans hg
      rw [hr, List.append_nil] at hs
      exact .between (records ++ [guard.frame]) (by grind) (by simp [ho, hse, hs]) hn
    | _ => grind

theorem Laid.leaves (h : self.Laid) (hs : self.Sound) (hc : self.calls[index]? = some call)
    (he : call.ends = true) (hg : next.guard = (self.leave index).guard)
    (ho : next.output = self.output) (hb : next.begun = self.begun)
    (hw : next.writable = self.writable) : next.Laid := by
  by_cases hh : self.holds index
  · rw [SharedWriter.leave, if_pos hh] at hg
    obtain ⟨guard, hse, hi⟩ := (Option.any_eq_true _ _).mp hh
    obtain ⟨held, hhe, -, hf, hk⟩ := hs.held guard hse
    rw [of_decide_eq_true hi] at hhe
    cases hc.symm.trans hhe
    refine h.release hse hg ho hb (.inr ?_)
    exact hs.farewell call (List.mem_of_getElem? hc) he guard.frame hf
  · rw [SharedWriter.leave, if_neg hh] at hg
    exact h.same hg ho hb (hw ▸ id)

theorem leave_output (self : SharedWriter) (index : Nat) :
    (self.leave index).output = self.output ∧ (self.leave index).begun = self.begun ∧
      (self.leave index).writable = self.writable := by
  unfold leave
  split <;> exact ⟨rfl, rfl, rfl⟩

theorem Laid.step (h : self.Laid) (hs : self.Sound) (hor : self.orderly label = true)
    (hm : Move self label next) : next.Laid := by
  cases hm with
  | refuse => exact h
  | call => exact h.same rfl rfl rfl id
  | lock | signal => exact h.same rfl rfl rfl id
  | late _ _ _ hn => exact h.same rfl rfl rfl id
  | shut => exact h.same rfl rfl rfl nofun
  | begin index queue call frame hn hc hst hf hop hq =>
    have hp : self.begun.any Frame.isClose = false := by
      simpa [orderly, nextWrites, parting, hq, hc, hst, hop.1, hop.2] using hor
    -- The records so far are complete: a cut one would have left the half unwritable.
    obtain ⟨records, hr, ho⟩ : ∃ records : List Frame,
        (∀ frame ∈ records, frame.isClose = false) ∧
          self.output = (records.map Frame.record).flatten := by
      cases h with
      | between records hr ho => exact ⟨records, hr, ho⟩
      | within _ _ _ _ _ hso => cases hn.symm.trans hso
      | sealed _ _ _ _ _ _ _ hse => grind
    exact .within records ⟨index, frame, call.ends, frame.record⟩ [] hr
      (by rw [List.append_nil]; exact ho) rfl rfl
      (List.mem_append_right _ (List.mem_singleton_self _))
  | write guard count hg =>
    cases h with
    | between _ _ _ hn => cases hn.symm.trans hg
    | sealed _ _ _ _ _ _ hn => cases hn.symm.trans hg
    | within records other written hp ho hot hsp hme =>
      cases hot.symm.trans hg
      refine .within records _ (written ++ guard.rest.take count) hp ?_ rfl ?_ hme
      · rw [← List.append_assoc, ← ho]
      · rw [List.append_assoc, List.take_append_drop, hsp]
  | flush guard hg hre => exact h.flush hg hre rfl rfl rfl
  | fail guard hg => exact h.release hg rfl rfl rfl (.inl rfl)
  | evict guard hg => exact h.release hg rfl rfl rfl (.inl rfl)
  | timeout index call hc he =>
    obtain ⟨ho, hb, hw⟩ := leave_output self index
    exact h.leaves hs hc he rfl ho hb hw
  | drop index call hc he =>
    obtain ⟨ho, hb, hw⟩ := leave_output self index
    exact h.leaves hs hc he rfl ho hb hw

/-- In every run of sends, farewells and shutdowns in which no record gets the mutex between a
farewell and the end of the half, the handle takes complete records of which only the last may be a
close, and only the last may be cut. -/
theorem run_goodbye {labels : List WriterLabel}
    (horderly : Machine.Every (step platform maxFrameBytes) (fun writer label =>
      writer.orderly label = true) new labels)
    (hrun : Machine.run (step platform maxFrameBytes) new labels = some self) :
    GoodbyeLast self.output := by
  have hl : self.Sound ∧ self.Laid := by
    refine horderly.run_invariant (fun writer => writer.Sound ∧ writer.Laid) ?_ ?_ hrun
    · rintro writer label next ⟨hs, hl⟩ horderly hst
      have hm := step_move hst
      exact ⟨hs.step hm, hl.step hs horderly hm⟩
    · exact ⟨⟨fun _ hc => absurd hc List.not_mem_nil, nofun⟩,
        .between [] (fun _ hf => absurd hf List.not_mem_nil) rfl rfl⟩
  exact hl.2.goodbyeLast

/-! ### Two runs -/

/-- A record is sent, and then a farewell runs out its grace after five bytes. -/
def cutFarewellLabels : List WriterLabel :=
  [.writeFrame .ping, .lock 0, .acquire, .write 10, .write 6, .flush,
    .end_ closeCodes.released none, .lock 1, .acquire, .write 5, .timeout 1, .signal 1, .lock 1,
    .acquire]

theorem run_goodbye_cut :
    ∃ writer, Machine.run (step (tablePlatform []) 4096) new cutFarewellLabels = some writer ∧
      writer.output = Frame.ping.record ++ (Frame.close ⟨closeCodes.released, none⟩).record.take 5 ∧
      GoodbyeLast writer.output := by
  obtain ⟨writer, hr, hou⟩ : ∃ writer,
      Machine.run (step (tablePlatform []) 4096) new cutFarewellLabels = some writer ∧
        writer.output =
          Frame.ping.record ++ (Frame.close ⟨closeCodes.released, none⟩).record.take 5 :=
    Machine.exists_run (by decide +kernel)
  have ho : Machine.Every (step (tablePlatform []) 4096) (fun writer label =>
      writer.orderly label = true) new cutFarewellLabels := by decide +kernel
  exact ⟨writer, hr, hou, run_goodbye ho hr⟩

/-- A refusal of the receive half says goodbye, and a closer asks for the mutex meanwhile. -/
def twoFarewellLabels : List WriterLabel :=
  [.end_ closeCodes.protocolError none, .lock 0, .acquire, .end_ closeCodes.released none, .lock 1,
    .write 29, .flush, .signal 0, .lock 0, .acquire, .write 29, .flush]

/-- The closer gets the mutex before the refusal ends the half, and writes a second farewell. -/
theorem two_farewells :
    ∃ writer, Machine.run (step (tablePlatform []) 4096) new twoFarewellLabels = some writer ∧
      writer.output = (Frame.close ⟨closeCodes.protocolError, none⟩).record ++
        (Frame.close ⟨closeCodes.released, none⟩).record ∧
      ¬GoodbyeLast writer.output := by
  obtain ⟨writer, hr, ho⟩ : ∃ writer,
      Machine.run (step (tablePlatform []) 4096) new twoFarewellLabels = some writer ∧
        writer.output = (Frame.close ⟨closeCodes.protocolError, none⟩).record ++
          (Frame.close ⟨closeCodes.released, none⟩).record :=
    Machine.exists_run (by decide +kernel)
  refine ⟨writer, hr, ho, ?_⟩
  rw [ho]
  exact not_goodbyeLast rfl

end SharedWriter

end MangoProtocol
