import MangoProtocol.ProofKit.Lists
import MangoProtocol.Transports.Goodbye

/-! A farewell that nothing disturbs.  While no other call ends the port and no send fails, the half
stays writable until the farewell has had its turn, and then the farewell was written, failed or ran
out its grace. -/

namespace MangoProtocol

open ProofKit

/-- The stages up to the end of a record. -/
def WriterStage.early : WriterStage → Bool
  | .starting | .waiting | .writing => true
  | _ => false

def RecordFate.decided : RecordFate → Bool
  | .written | .failed | .timedOut => true
  | _ => false

structure WriterCall.Regular (call : WriterCall) : Prop where
  send : call.ends = false → call.stage = .over ∨ call.stage.early = true
  farewell : call.ends = true → call.fate = .pending ∧ call.stage.early = true ∨
    call.fate.decided = true ∧ call.stage.early = false

namespace WriterCall.Regular

variable {call : WriterCall}

theorem advance {stage : WriterStage} (h : call.Regular) (ho : call.stage ≠ .over)
    (hea : stage.early = call.stage.early) : { call with stage }.Regular where
  send he := by
    rcases h.send he with hs | hs
    · exact absurd hs ho
    · exact .inr (hea.trans hs)
  farewell he := by
    rw [hea]
    exact h.farewell he

theorem settle {fate : RecordFate} (h : fate.decided = true ∨ call.ends = false) :
    (call.settle fate).Regular where
  send he := by
    have hk : call.ends = false := he
    simp [WriterCall.settle, hk]
  farewell he := by grind [WriterCall.settle, WriterStage.early]

theorem late (h : call.Regular) (hs : call.stage.early = false) (ho : call.stage ≠ .over) :
    call.ends = true ∧ call.fate.decided = true := by
  cases he : call.ends with
  | false =>
    rcases h.send he with hc | hea
    · exact absurd hc ho
    · cases hs.symm.trans hea
  | true =>
    rcases h.farewell he with ⟨-, hea⟩ | ⟨hd, -⟩
    · cases hs.symm.trans hea
    · exact ⟨rfl, hd⟩

theorem pending (h : call.Regular) (he : call.ends = true) (hs : call.stage.early = true) :
    call.fate = .pending := by
  rcases h.farewell he with ⟨hp, -⟩ | ⟨-, hl⟩
  · exact hp
  · cases hs.symm.trans hl

theorem over_fate (h : call.Regular) (he : call.ends = true) (ho : call.stage = .over) :
    call.fate ≠ .pending := by
  intro hp
  rcases h.farewell he with ⟨-, hea⟩ | ⟨hd, -⟩
  · rw [ho] at hea
    cases hea
  · rw [hp] at hd
    cases hd

end WriterCall.Regular

namespace SharedWriter

variable {self next : SharedWriter} {label : WriterLabel}

/-- No farewell has its fate yet. -/
def Undecided (writer : SharedWriter) : Prop :=
  ∀ call ∈ writer.calls, call.ends = true → call.fate = .pending

def Split (writer : SharedWriter) : Prop :=
  ∀ guard, writer.guard = some guard → ∃ before written, writer.output = before ++ written ∧
    written ++ guard.rest = guard.frame.record

theorem Split.step (h : self.Split) (hm : Move self label next) : next.Split := by
  intro guard hg
  cases hm with
  | refuse | call | lock | signal => exact h guard hg
  | begin index queue call frame =>
    cases hg
    exact ⟨self.output, [], (List.append_nil _).symm, rfl⟩
  | late _ _ _ hn => cases hn.symm.trans hg
  | shut _ _ _ hn => cases hn.symm.trans hg
  | write guard' count hg' =>
    cases hg
    obtain ⟨before, written, ho, hs⟩ := h guard' hg'
    refine ⟨before, written ++ guard'.rest.take count, ?_, ?_⟩
    · rw [← List.append_assoc, ← ho]
    · rw [List.append_assoc, List.take_append_drop, hs]
  | flush | fail | evict => cases hg
  | timeout index =>
    obtain ⟨ho, -, -⟩ := leave_output self index
    rw [settle, ho]
    exact h guard (leave_guard hg).1
  | drop index =>
    obtain ⟨ho, -, -⟩ := leave_output self index
    rw [ho]
    exact h guard (leave_guard hg).1

/-! ### Calls before and after a step -/

variable {call : WriterCall} {calls : List WriterCall} {index : Nat}

theorem Edits.after {before after : List WriterCall} (h : Edits label before after)
    (hc : before[index]? = some call) :
    ∃ later, after[index]? = some later ∧ later.frame = call.frame ∧ later.ends = call.ends ∧
      (later.fate = .pending → call.fate = .pending) := by
  cases h with
  | same h => exact ⟨call, h ▸ hc, rfl, rfl, id⟩
  | append added _ _ h => grind
  | modify position edit hed h => grind

theorem Move.call_after (h : Move self label next) (hc : self.calls[index]? = some call) :
    ∃ later, next.calls[index]? = some later ∧ later.frame = call.frame ∧
      later.ends = call.ends ∧ (later.fate = .pending → call.fate = .pending) :=
  h.edits.after hc

theorem Move.undecided (h : Move self label next) (hn : next.Undecided) : self.Undecided := by
  intro call hm he
  obtain ⟨index, hc⟩ := List.mem_iff_getElem?.mp hm
  obtain ⟨later, hl, -, hk, hp⟩ := h.call_after hc
  exact hp (hn later (List.mem_of_getElem? hl) (hk.trans he))

/-- The step is not one by which something else closes the port: another call that ends it, a
farewell that is dropped, or a send that fails. -/
def alone (self : SharedWriter) : WriterLabel → Bool
  | .end_ _ _ | .shutDown | .drop _ => false
  | .fail => self.guard.all fun guard => guard.ends
  | _ => true

/-- A writer on which at most one call ends the port, and nothing else closes it. -/
structure Tended (writer : SharedWriter) : Prop where
  sound : writer.Sound
  split : writer.Split
  regular : ∀ (index : Nat) call, writer.calls[index]? = some call → call.Regular
  unique : ∀ (first second : Nat) call other, writer.calls[first]? = some call →
    writer.calls[second]? = some other → call.ends = true → other.ends = true → first = second
  opened : writer.Undecided →
    writer.writable = true ∧ writer.writer = true ∧ writer.ending = false
  written : ∀ (index : Nat) call frame, writer.calls[index]? = some call →
    call.frame = some frame → call.fate = .written → frame.record <:+: writer.output

theorem Move.farewell_before {index : Nat} {call : WriterCall} (h : Move self label next)
    (ha : self.alone label = true) (hc : next.calls[index]? = some call)
    (he : call.ends = true) : ∃ earlier, self.calls[index]? = some earlier ∧
      earlier.ends = true := by
  cases h.edits with
  | same heq =>
    rw [heq] at hc
    exact ⟨call, hc, he⟩
  | modify position edit hed heq => grind
  | append added hf hl heq =>
    rw [heq] at hc
    rcases getElem?_concat hc with hold | ⟨-, rfl⟩
    · exact ⟨call, hold, he⟩
    · rcases hl with hs | ⟨code, reason, rfl⟩ | rfl
      · cases hs.symm.trans he
      · cases ha
      · cases ha

theorem Tended.undecided (h : self.Tended) (hc : self.calls[index]? = some call)
    (he : call.ends = true) (hpe : call.fate = .pending) : self.Undecided := by
  intro other hm ho
  obtain ⟨position, hp⟩ := List.mem_iff_getElem?.mp hm
  cases h.unique index position call other hc hp he ho
  cases hc.symm.trans hp
  exact hpe

theorem regular_modify {edit : WriterCall → WriterCall}
    (h : ∀ (position : Nat) call, calls[position]? = some call → call.Regular)
    (hed : ∀ call, calls[index]? = some call → (edit call).Regular) (position : Nat)
    (call : WriterCall) (hc : (calls.modify index edit)[position]? = some call) :
    call.Regular := by
  rcases getElem?_modify_eq_some hc with ⟨-, earlier, hea, rfl⟩ | ⟨-, hs⟩
  · exact hed earlier hea
  · exact h position call hs

theorem regular_settle {fate : RecordFate}
    (h : ∀ (position : Nat) call, calls[position]? = some call → call.Regular)
    (hf : fate.decided = true ∨ ∀ call, calls[index]? = some call → call.ends = false)
    (position : Nat) (call : WriterCall)
    (hc : (calls.modify index (.settle fate))[position]? = some call) : call.Regular := by
  refine regular_modify h (fun earlier hea => .settle ?_) position call hc
  rcases hf with hd | hs
  · exact .inl hd
  · exact .inr (hs earlier hea)

theorem Sound.guard_ends {guard : WriterGuard} (h : self.Sound) (hg : self.guard = some guard)
    (hc : self.calls[guard.call]? = some call) :
    call.ends = guard.ends ∧ call.frame = some guard.frame := by
  obtain ⟨held, hh, -, hf, he⟩ := h.held guard hg
  cases hc.symm.trans hh
  exact ⟨he, hf⟩

theorem Tended.regular_step (h : self.Tended) (ha : self.alone label = true)
    (hm : Move self label next) (position : Nat) (call : WriterCall)
    (hc : next.calls[position]? = some call) : call.Regular := by
  have stage {index : Nat} {found : WriterCall} {stage : WriterStage}
      (hf : self.calls[index]? = some found) (ho : found.stage ≠ .over)
      (hear : stage.early = found.stage.early)
      (hc : (self.calls.modify index fun call => { call with stage })[position]? = some call) :
      call.Regular := by
    refine regular_modify h.regular (fun earlier hea => ?_) position call hc
    cases hf.symm.trans hea
    exact (h.regular index found hf).advance ho hear
  cases hm with
  | refuse | write => exact h.regular position call hc
  | call _ added hfr hl =>
    rcases getElem?_concat hc with hold | ⟨-, rfl⟩
    · exact h.regular position call hold
    · rcases hl with hse | ⟨code, reason, rfl⟩ | rfl
      · refine ⟨fun _ => ?_, fun he => by cases hse.symm.trans he⟩
        rcases hfr.stage with ⟨hs, -⟩ | ⟨-, -, -, he⟩
        · exact .inr (by rw [hs]; rfl)
        · cases hse.symm.trans he
      · cases ha
      · cases ha
  | lock index found target hf hs =>
    rcases hs with ⟨hs, rfl⟩ | ⟨hs, rfl⟩
    · exact stage hf (fun ho => by cases hs.symm.trans ho) (by rw [hs]; rfl) hc
    · exact stage hf (fun ho => by cases hs.symm.trans ho) (by rw [hs]; rfl) hc
  | begin index queue found frame _ hf hs =>
    exact stage hf (fun ho => by cases hs.symm.trans ho) (by rw [hs]; rfl) hc
  | late index queue found _ hf hs hcl =>
    refine regular_settle h.regular (.inr fun other hot => ?_) position call hc
    cases hf.symm.trans hot
    cases he : found.ends with
    | false => rfl
    | true =>
      have hp := (h.regular index found hf).pending he (by rw [hs]; rfl)
      obtain ⟨hw, hwr, -⟩ := h.opened (h.undecided hf he hp)
      rcases hcl with hcl | hcl
      · cases hcl.symm.trans hw
      · cases hcl.symm.trans hwr
  | shut index queue found _ hf hs =>
    exact stage hf (fun ho => by cases hs.symm.trans ho) (by rw [hs]; rfl) hc
  | flush | fail => exact regular_settle h.regular (.inl rfl) position call hc
  | evict guard hg hse =>
    refine regular_settle h.regular (.inr fun other hot => ?_) position call hc
    exact (h.sound.guard_ends hg hot).1.trans hse
  | timeout index =>
    rw [settle, leave_calls] at hc
    exact regular_settle h.regular (.inl rfl) position call hc
  | signal index found hf hs =>
    exact stage hf (fun ho => by cases hs.symm.trans ho) (by rw [hs]; rfl) hc
  | drop => cases ha

theorem leave_flags (self : SharedWriter) (index : Nat) :
    (self.leave index).writer = self.writer ∧ (self.leave index).ending = self.ending := by
  unfold leave
  split <;> exact ⟨rfl, rfl⟩

theorem Tended.opened_step (h : self.Tended) (ha : self.alone label = true)
    (hm : Move self label next) (hn : next.Undecided) :
    next.writable = true ∧ next.writer = true ∧ next.ending = false := by
  obtain ⟨hw, hwr, hend⟩ := h.opened (hm.undecided hn)
  -- A step that closes something comes after the fate of the farewell, or gives it one.
  have decided {index : Nat} {call : WriterCall} (hc : self.calls[index]? = some call)
      (he : call.ends = true) (hf : call.fate.decided = true) : False := by
    have hp := hm.undecided hn call (List.mem_of_getElem? hc) he
    rw [hp] at hf
    cases hf
  have late {index : Nat} {call : WriterCall} (hc : self.calls[index]? = some call)
      (hs : call.stage.early = false) (ho : call.stage ≠ .over) : False := by
    obtain ⟨he, hf⟩ := (h.regular index call hc).late hs ho
    exact decided hc he hf
  cases hm with
  | refuse | call | lock | begin | write | flush => exact ⟨hw, hwr, hend⟩
  | late => exact ⟨hw, hwr, hend⟩
  | shut index queue call _ hc hs =>
    exact (late hc (by rw [hs]; rfl) (by rw [hs]; nofun)).elim
  | fail guard hg =>
    obtain ⟨call, hc, -, -, hk⟩ := h.sound.held guard hg
    have he : guard.ends = true := by simpa [alone, hg] using ha
    have hfa : (self.calls.modify guard.call (.settle .failed))[guard.call]? =
        some (call.settle .failed) := by simp [hc]
    cases hn _ (List.mem_of_getElem? hfa) (hk.trans he)
  | evict guard hg hse hende => cases hende.symm.trans hend
  | timeout index =>
    obtain ⟨-, -, hsa⟩ := leave_output self index
    obtain ⟨hh, hsi⟩ := leave_flags self index
    exact ⟨hsa.trans hw, hh.trans hwr, hsi.trans hend⟩
  | signal index call hc hs =>
    exact (late hc (by rw [hs]; rfl) (by rw [hs]; nofun)).elim
  | drop => cases ha

theorem Move.output (h : Move self label next) : self.output <+: next.output := by
  cases h with
  | write guard count => exact List.prefix_append _ _
  | timeout index =>
    obtain ⟨ho, -, -⟩ := leave_output self index
    rw [settle, ho]
  | drop index =>
    obtain ⟨ho, -, -⟩ := leave_output self index
    rw [ho]
  | _ => exact List.prefix_refl _

theorem Tended.written_step (h : self.Tended) (hm : Move self label next) (position : Nat)
    (call : WriterCall) (frame : Frame) (hc : next.calls[position]? = some call)
    (hfr : call.frame = some frame) (hw : call.fate = .written) :
    frame.record <:+: next.output := by
  have grows {earlier : WriterCall} (hea : self.calls[position]? = some earlier)
      (hs : earlier.frame = some frame) (hf : earlier.fate = .written) :
      frame.record <:+: next.output :=
    (h.written position earlier frame hea hs hf).trans hm.output.isInfix
  have edited {index : Nat} {edit : WriterCall → WriterCall}
      (hc : (self.calls.modify index edit)[position]? = some call)
      (hed : ∀ call, (edit call).frame = call.frame ∧
        ((edit call).fate = .written → call.fate = .written)) :
      frame.record <:+: next.output := by
    rcases getElem?_modify_eq_some hc with ⟨rfl, earlier, hea, rfl⟩ | ⟨-, hs⟩
    · exact grows hea ((hed earlier).1 ▸ hfr) ((hed earlier).2 hw)
    · exact grows hs hfr hw
  cases hm with
  | refuse | write => exact grows hc hfr hw
  | call _ added hfre =>
    rcases getElem?_concat hc with hold | ⟨-, rfl⟩
    · exact grows hold hfr hw
    · rcases hfre.stage with ⟨-, hf, -⟩ | ⟨-, hf, -⟩
      · cases hf.symm.trans hw
      · cases hf.symm.trans hw
  | lock | begin | shut | signal => exact edited hc fun _ => ⟨rfl, id⟩
  | late | fail | evict => exact edited hc fun _ => ⟨rfl, fun hf => by cases hf⟩
  | flush guard hg hr =>
    rcases getElem?_modify_eq_some hc with ⟨rfl, earlier, hea, rfl⟩ | ⟨-, hs⟩
    · obtain ⟨before, written, ho, hsp⟩ := h.split guard hg
      have how : earlier.frame = some guard.frame := (h.sound.guard_ends hg hea).2
      cases how.symm.trans hfr
      rw [hr, List.append_nil] at hsp
      exact ⟨before, [], by rw [← hsp, List.append_nil]; exact ho.symm⟩
    · exact grows hs hfr hw
  | timeout index =>
    rw [settle, leave_calls] at hc
    exact edited hc fun _ => ⟨rfl, fun hf => by cases hf⟩
  | drop index => grind [leave_calls, WriterCall.dropped]

theorem Tended.step (h : self.Tended) (ha : self.alone label = true)
    (hm : Move self label next) : next.Tended where
  sound := h.sound.step hm
  split := h.split.step hm
  regular := h.regular_step ha hm
  unique first second call other hc ho he hki := by
    obtain ⟨earlier, hea, hb⟩ := hm.farewell_before ha hc he
    obtain ⟨former, hf, hk⟩ := hm.farewell_before ha ho hki
    exact h.unique first second earlier former hea hf hb hk
  opened := h.opened_step ha hm
  written := h.written_step hm

theorem new_tended : new.Tended where
  sound := ⟨fun _ hc => absurd hc List.not_mem_nil, nofun⟩
  split := nofun
  regular _ _ hc := absurd (List.mem_of_getElem? hc) List.not_mem_nil
  unique _ _ _ _ hc := absurd (List.mem_of_getElem? hc) List.not_mem_nil
  opened _ := ⟨rfl, rfl, rfl⟩
  written _ _ _ hc := absurd (List.mem_of_getElem? hc) List.not_mem_nil

end SharedWriter

end MangoProtocol
