import MangoProtocol.Transports.NdjsonRx

/-! What an NDJSON port delivers.  Along every run, what the calls of `recv` have returned and what
the receive half still holds are together the frames that the line decoder yields for the bytes
read, then one closure, then the end; and a call of `recv` returns the next of them. -/

namespace MangoProtocol

open ProofKit ProofKit.Records

/-! ### What a run has read -/

/-- The bytes that a step reads. -/
def RxLabel.bytes : RxLabel → Option (List UInt8)
  | .read bytes => some bytes
  | _ => none

/-- How a step ends the input. -/
def RxLabel.ending : RxLabel → Option PortClosure
  | .eof => some (.closed none none)
  | .failure message => some (.closed none (some message))
  | _ => none

def outcomesOf (platform : Platform) {limit : Nat} (atLeast : minMaxFrameBytes ≤ limit)
    (reads : List (List UInt8)) : List (PushOutcome Frame) :=
  ((LineDecoder.new limit atLeast).run (decodeLine platform) (reads.map .push)).2

def framesOf (platform : Platform) {limit : Nat} (atLeast : minMaxFrameBytes ≤ limit)
    (reads : List (List UInt8)) : List Frame :=
  (outcomesOf platform atLeast reads).flatMap PushOutcome.frames

def refusalOf (platform : Platform) {limit : Nat} (atLeast : minMaxFrameBytes ≤ limit)
    (reads : List (List UInt8)) : Option CodecError :=
  (outcomesOf platform atLeast reads).findSome? PushOutcome.error

def closureOf (platform : Platform) {limit : Nat} (atLeast : minMaxFrameBytes ≤ limit)
    (reads : List (List UInt8)) (ending : Option PortClosure) : Option PortClosure :=
  ((refusalOf platform atLeast reads).map fun error =>
    .protocolError error (closeCodeForCodecError error)).or ending

def delivery (frames : List Frame) (closure : Option PortClosure) (ends : Nat) :
    List (Option Inbound) :=
  frames.map (fun frame => some (.frame frame)) ++
    closure.toList.map (fun closure => some (.closed closure)) ++ List.replicate ends none

def NdjsonRx.held (self : NdjsonRx) : List (Option Inbound) := delivery self.pending self.closure 0

section Reads

variable (platform : Platform) {limit : Nat} (atLeast : minMaxFrameBytes ≤ limit)

theorem outcomesOf_concat (reads : List (List UInt8)) (bytes : List UInt8) :
    outcomesOf platform atLeast (reads ++ [bytes]) =
      outcomesOf platform atLeast reads ++
        [(((LineDecoder.new limit atLeast).run (decodeLine platform) (reads.map .push)).1.push
          (decodeLine platform) bytes).2] := by
  rw [outcomesOf, List.map_append, LineDecoder.run_append]
  rfl

theorem framesOf_concat (reads : List (List UInt8)) (bytes : List UInt8) :
    framesOf platform atLeast (reads ++ [bytes]) =
      framesOf platform atLeast reads ++
        (((LineDecoder.new limit atLeast).run (decodeLine platform) (reads.map .push)).1.push
          (decodeLine platform) bytes).2.frames := by
  rw [framesOf, outcomesOf_concat, List.flatMap_append]
  simp [framesOf]

theorem refusalOf_concat (reads : List (List UInt8)) (bytes : List UInt8) :
    refusalOf platform atLeast (reads ++ [bytes]) =
      (refusalOf platform atLeast reads).or
        (((LineDecoder.new limit atLeast).run (decodeLine platform) (reads.map .push)).1.push
          (decodeLine platform) bytes).2.error := by
  rw [refusalOf, outcomesOf_concat, List.findSome?_append]
  simp [refusalOf, List.findSome?_singleton]

theorem framesOf_eq_scan (reads : List (List UInt8)) :
    framesOf platform atLeast reads =
      (scan newline (judgeLine (decodeLine platform) limit) reads.flatten).items :=
  (LineDecoder.run_pushes_new (decodeLine platform) atLeast reads).2.2.1

theorem framesOf_unterminated {reads : List (List UInt8)} {front tail : List UInt8}
    (hs : reads.flatten = front ++ tail) (hf : front = [] ∨ front.getLast? = some newline)
    (ht : newline ∉ tail) :
    framesOf platform atLeast reads = framesOf platform atLeast [front] := by
  rw [framesOf_eq_scan, framesOf_eq_scan, hs, List.flatten_singleton]
  cases hr : (scan newline (judgeLine (decodeLine platform) limit) front).refusal with
  | some error => exact (scan_append_refused tail hr).1
  | none =>
    have hre : (scan newline (judgeLine (decodeLine platform) limit) front).rest = [] := by
      have ho := scan_rest hr
      obtain ⟨before, hb⟩ := scan_rest_suffix hr
      generalize (scan newline (judgeLine (decodeLine platform) limit) front).rest = rest at *
      rcases List.eq_nil_or_concat rest with hn | ⟨most, last, rfl⟩
      · exact hn
      · grind
    rw [scan_append tail hr, hre, List.nil_append, scan_open _ ht, List.append_nil]

end Reads

/-! ### The ledger of a receive half -/

namespace NdjsonRx

variable {platform : Platform} {limit : Nat} {atLeast : minMaxFrameBytes ≤ limit}
  {reads : List (List UInt8)} {ending : Option PortClosure} {self next : NdjsonRx}

/-- What has been returned and what is held are together the delivery of what has been read, and the
end is returned only after the closure. -/
structure Accounts (platform : Platform) {limit : Nat} (atLeast : minMaxFrameBytes ≤ limit)
    (reads : List (List UInt8)) (ending : Option PortClosure) (rx : NdjsonRx) : Prop where
  decoder : rx.decoder =
    ((LineDecoder.new limit atLeast).run (decodeLine platform) (reads.map .push)).1
  delivered : ∃ ends,
    rx.returned ++ rx.held =
        delivery (framesOf platform atLeast reads) (closureOf platform atLeast reads ending) ends ∧
      (rx.terminal = false → ends = 0)
  closed : (closureOf platform atLeast reads ending).isSome =
    (rx.closure.isSome || rx.terminal)
  terminal : rx.terminal = true → rx.pending = [] ∧ rx.closure = none

/-- The accounts are in order, and bytes are awaited only when nothing is held. -/
structure Ledger (platform : Platform) {limit : Nat} (atLeast : minMaxFrameBytes ≤ limit)
    (reads : List (List UInt8)) (ending : Option PortClosure) (rx : NdjsonRx) : Prop extends
    Accounts platform atLeast reads ending rx where
  reading : rx.future = .reading → rx.pending = [] ∧ rx.closure = none ∧ rx.terminal = false

theorem new_ledger : Ledger platform atLeast [] none (.new limit atLeast) :=
  ⟨⟨rfl, ⟨0, rfl, fun _ => rfl⟩, rfl, nofun⟩, nofun⟩

theorem Accounts.poll (h : Accounts platform atLeast reads ending self) :
    Ledger platform atLeast reads ending self.poll := by
  obtain ⟨ends, hd, he⟩ := h.delivered
  unfold NdjsonRx.poll
  split
  · rename_i frame pending closure hp
    refine ⟨⟨h.decoder, ⟨ends, ?_, he⟩, h.closed, fun ht => ?_⟩, nofun⟩
    · rw [← hd]
      simp [held, delivery, hp]
    · rw [(h.terminal ht).1] at hp
      cases hp
  · rename_i closure hp hc
    refine ⟨⟨h.decoder, ⟨ends, ?_, nofun⟩, ?_, fun _ => ⟨hp, rfl⟩⟩, nofun⟩
    · rw [← hd]
      simp [held, delivery, hp, hc]
    · rw [h.closed, hc]
      rfl
  · rename_i hp hc
    split
    · rename_i ht
      refine ⟨⟨h.decoder, ⟨ends + 1, ?_, fun hf => ?_⟩, h.closed, h.terminal⟩, nofun⟩
      · grind [held, delivery, List.replicate_succ']
      · rw [ht] at hf
        cases hf
    · rename_i ht
      exact ⟨⟨h.decoder, ⟨ends, hd, he⟩, h.closed, h.terminal⟩,
        fun _ => ⟨hp, hc, Bool.not_eq_true _ ▸ ht⟩⟩

theorem Ledger.unclosed (h : Ledger platform atLeast reads ending self)
    (hr : self.future = .reading) :
    refusalOf platform atLeast reads = none ∧ ending = none := by
  obtain ⟨-, hcl, ht⟩ := h.reading hr
  have hc := h.closed
  rw [hcl, ht] at hc
  have hn : closureOf platform atLeast reads ending = none := by simpa using hc
  simpa [closureOf, Option.or_eq_none_iff] using hn

theorem Ledger.decodeChunk (h : Ledger platform atLeast reads ending self)
    (hre : self.future = .reading) (bytes : List UInt8) :
    Ledger platform atLeast (reads ++ [bytes]) ending (self.decodeChunk platform bytes) := by
  obtain ⟨hp, hcl, ht⟩ := h.reading hre
  obtain ⟨href, hen⟩ := h.unclosed hre
  obtain ⟨ends, hde, hend⟩ := h.delivered
  have hn : self.returned =
      (framesOf platform atLeast reads).map fun frame => some (.frame frame) := by
    have hc : closureOf platform atLeast reads ending = none := by
      simp [closureOf, href, hen]
    simpa [held, delivery, hp, hcl, hc, hend ht] using hde
  have hd : (self.decoder.push (decodeLine platform) bytes).1 =
      ((LineDecoder.new limit atLeast).run (decodeLine platform)
        ((reads ++ [bytes]).map .push)).1 := by
    rw [List.map_append, LineDecoder.run_append, h.decoder]
    rfl
  have hf := framesOf_concat platform atLeast reads bytes
  have hr := refusalOf_concat platform atLeast reads bytes
  rw [href, Option.none_or, ← h.decoder] at hr
  rw [← h.decoder] at hf
  unfold NdjsonRx.decodeChunk
  dsimp only
  split
  · rename_i error he
    have hc : closureOf platform atLeast (reads ++ [bytes]) ending =
        some (.protocolError error (closeCodeForCodecError error)) := by
      rw [closureOf, hr, he]
      rfl
    refine ⟨⟨hd, ⟨0, ?_, fun _ => rfl⟩, ?_, ?_⟩, nofun⟩
    · rw [hc, hf]
      simp [held, delivery, NdjsonRx.refuse, hn, hp]
    · rw [hc]
      rfl
    · intro ht'
      cases ht.symm.trans ht'
  · rename_i he
    apply Accounts.poll
    have hc : closureOf platform atLeast (reads ++ [bytes]) ending = none := by
      rw [closureOf, hr, he, hen]
      rfl
    refine ⟨hd, ⟨0, ?_, fun _ => rfl⟩, ?_, ?_⟩
    · rw [hc, hf]
      simp [held, delivery, hn, hp, hcl]
    · rw [hc, hcl, ht]
      rfl
    · intro ht'
      cases ht.symm.trans ht'

theorem Ledger.onEnd (h : Ledger platform atLeast reads ending self)
    (hr : self.future = .reading) (reason : Option String) :
    Ledger platform atLeast reads (some (.closed none reason)) (self.onEnd reason) := by
  obtain ⟨hp, hc, ht⟩ := h.reading hr
  obtain ⟨hre, hen⟩ := h.unclosed hr
  obtain ⟨ends, hd, he⟩ := h.delivered
  refine ⟨⟨h.decoder, ⟨0, ?_, fun _ => rfl⟩, ?_, ?_⟩, nofun⟩
  · grind [closureOf, held, delivery, NdjsonRx.onEnd]
  · simp [NdjsonRx.onEnd, closureOf, hre]
  · intro ht'
    cases ht.symm.trans ht'

theorem Ledger.step (h : Ledger platform atLeast reads ending self) {label : RxLabel}
    (hs : self.step platform label = some next) :
    Ledger platform atLeast (reads ++ label.bytes.toList) (ending.or label.ending) next := by
  cases label with
  | recv =>
    simp only [NdjsonRx.step] at hs
    split at hs
    · cases hs
      simpa [RxLabel.bytes, RxLabel.ending] using h.toAccounts.poll
    · cases hs
  | read bytes =>
    simp only [NdjsonRx.step] at hs
    split at hs
    · rename_i hre
      cases hs
      simpa [RxLabel.bytes, RxLabel.ending] using h.decodeChunk hre.1 bytes
    · cases hs
  | eof =>
    simp only [NdjsonRx.step] at hs
    split at hs
    · rename_i hr
      cases hs
      simpa [RxLabel.bytes, RxLabel.ending, (h.unclosed hr).2] using h.onEnd hr none
    · cases hs
  | failure message =>
    simp only [NdjsonRx.step] at hs
    split at hs
    · rename_i hr
      cases hs
      simpa [RxLabel.bytes, RxLabel.ending, (h.unclosed hr).2] using
        h.onEnd hr (some message)
    · cases hs
  | resume =>
    simp only [NdjsonRx.step, NdjsonRx.resume] at hs
    split at hs
    · split at hs
      · cases hs
        simpa [RxLabel.bytes, RxLabel.ending] using h.toAccounts.poll
      · cases hs
    · cases hs
  | drop =>
    simp only [RxLabel.bytes, RxLabel.ending, Option.toList_none, List.append_nil, Option.or_none]
    simp only [NdjsonRx.step, NdjsonRx.drop] at hs
    split at hs
    · cases hs
    · cases hs
      exact ⟨⟨h.decoder, h.delivered, h.closed, h.terminal⟩, by simp⟩
    · obtain ⟨writer, -, rfl⟩ := Option.map_eq_some_iff.mp hs
      exact ⟨⟨h.decoder, h.delivered, h.closed, h.terminal⟩, by simp⟩
  | writer action =>
    simp only [RxLabel.bytes, RxLabel.ending, Option.toList_none, List.append_nil, Option.or_none]
    obtain ⟨writer, -, rfl⟩ := Option.map_eq_some_iff.mp hs
    exact ⟨⟨h.decoder, h.delivered, h.closed, h.terminal⟩, h.reading⟩

theorem Ledger.run (h : Ledger platform atLeast reads ending self) {labels : List RxLabel}
    (hr : Machine.run (NdjsonRx.step platform) self labels = some next) :
    Ledger platform atLeast (reads ++ labels.filterMap RxLabel.bytes)
      (ending.or (labels.findSome? RxLabel.ending)) next := by
  induction labels generalizing self reads ending with
  | nil =>
    cases hr
    simpa using h
  | cons label labels ih =>
    obtain ⟨middle, hs, hre⟩ := Machine.run_cons.mp hr
    have hl := ih (h.step hs) hre
    cases hb : label.bytes <;> cases he : label.ending <;>
      simpa [hb, he] using hl

theorem Accounts.returned_prefix (h : Accounts platform atLeast reads ending self) :
    self.returned <+: delivery (framesOf platform atLeast reads)
      (closureOf platform atLeast reads ending)
      (if (closureOf platform atLeast reads ending).isSome then self.returned.length else 0) := by
  obtain ⟨ends, hd, he⟩ := h.delivered
  have hh : self.returned <+: delivery (framesOf platform atLeast reads)
      (closureOf platform atLeast reads ending) ends := ⟨self.held, hd⟩
  cases ht : self.terminal with
  | false =>
    rw [he ht] at hh
    exact hh.trans (List.prefix_append_right_inj _ |>.mpr (List.nil_prefix))
  | true =>
    obtain ⟨hp, hc⟩ := h.terminal ht
    have hs : (closureOf platform atLeast reads ending).isSome = true := by
      rw [h.closed, ht, Bool.or_true]
    have hle : ends ≤ self.returned.length := by
      grind [held, delivery, List.length_append, List.length_replicate, List.length_map,
        List.length_nil, Option.toList_none]
    rw [if_pos hs]
    refine hh.trans ⟨List.replicate (self.returned.length - ends) none, ?_⟩
    simp only [delivery, List.append_assoc, List.replicate_append_replicate]
    rw [Nat.add_sub_cancel' hle]

theorem Ledger.recv_closed (h : Ledger platform atLeast reads ending self)
    (hid : self.future = .idle) (hc : (closureOf platform atLeast reads ending).isSome) :
    ∃ later, self.step platform .recv = some later ∧ later.future = .idle ∧
      later.returned.length = self.returned.length + 1 := by
  refine ⟨self.poll, by simp [NdjsonRx.step, hid], ?_⟩
  have hd := h.closed
  rw [hc] at hd
  unfold NdjsonRx.poll
  split
  · exact ⟨rfl, by simp⟩
  · exact ⟨rfl, by simp⟩
  · grind

theorem Ledger.recvs_closed (h : Ledger platform atLeast reads ending self)
    (hid : self.future = .idle) (hc : (closureOf platform atLeast reads ending).isSome)
    (calls : Nat) :
    ∃ later, Machine.run (NdjsonRx.step platform) self (List.replicate calls .recv) = some later ∧
      Ledger platform atLeast reads ending later ∧
      later.returned.length = self.returned.length + calls := by
  induction calls generalizing self with
  | zero => exact ⟨self, rfl, h, rfl⟩
  | succ calls ih =>
    obtain ⟨middle, hs, hm, hle⟩ := h.recv_closed hid hc
    have hl : Ledger platform atLeast reads ending middle := by
      simpa [RxLabel.bytes, RxLabel.ending] using h.step hs
    obtain ⟨later, hr, hla, hmo⟩ := ih hl hm
    exact ⟨later, Machine.run_cons.mpr ⟨middle, hs, hr⟩, hla, by omega⟩

/-- While the input goes on, a call of `recv` returns the next frame, or waits for bytes when every
frame that was read has been returned. -/
theorem Ledger.recv_open (h : Ledger platform atLeast reads ending self)
    (hid : self.future = .idle) (hc : closureOf platform atLeast reads ending = none) :
    ∃ later, self.step platform .recv = some later ∧
      (later.returned.length = self.returned.length + 1 ∨
        later.future = .reading ∧ later.returned = (framesOf platform atLeast reads).map
          fun frame => some (.frame frame)) := by
  refine ⟨self.poll, by simp [NdjsonRx.step, hid], ?_⟩
  have hd := h.closed
  rw [hc, Option.isSome_none, Eq.comm, Bool.or_eq_false_iff] at hd
  obtain ⟨hcl, ht⟩ := hd
  obtain ⟨ends, hde, he⟩ := h.delivered
  unfold NdjsonRx.poll
  split
  · exact .inl (by simp)
  · exact .inl (by simp)
  · grind [held, delivery]

/-- The receive contract.  Along every run, in whatever pieces the reader delivers the bytes and
wherever a pending `recv` is dropped, what `recv` has returned is the head of: the frames of a line
decoder over the bytes up to the first refusal, one closure, and the end for ever.  Once the input
is over every further call returns the next item of that at once; before, a call returns the next
frame or waits for bytes when it has returned them all.  A last record without a terminator yields
no frame. -/
theorem run_delivers {labels : List RxLabel} {rx : NdjsonRx}
    (hrun : Machine.run (NdjsonRx.step platform) (.new limit atLeast) labels = some rx) :
    let reads := labels.filterMap RxLabel.bytes
    let frames := framesOf platform atLeast reads
    let closure := closureOf platform atLeast reads (labels.findSome? RxLabel.ending)
    rx.returned <+: delivery frames closure
        (if closure.isSome then rx.returned.length else 0) ∧
      (rx.future = .idle → closure.isSome → ∀ calls, ∃ later,
        Machine.run (NdjsonRx.step platform) rx (List.replicate calls .recv) = some later ∧
          later.returned.length = rx.returned.length + calls ∧
          later.returned <+: delivery frames closure later.returned.length) ∧
      (rx.future = .idle → closure = none → ∃ later, rx.step platform .recv = some later ∧
        (later.returned.length = rx.returned.length + 1 ∨
          later.future = .reading ∧
            later.returned = frames.map fun frame => some (.frame frame))) ∧
      ∀ front tail : List UInt8, reads.flatten = front ++ tail →
        front = [] ∨ front.getLast? = some newline → newline ∉ tail →
        frames = framesOf platform atLeast [front] := by
  intro reads frames closure
  have hl : Ledger platform atLeast reads (labels.findSome? RxLabel.ending) rx := by
    simpa using new_ledger.run hrun
  refine ⟨hl.returned_prefix, fun hi hc calls => ?_,
    fun hi ho => hl.recv_open hi ho,
    fun front tail hs hf ht => framesOf_unterminated platform atLeast hs hf ht⟩
  obtain ⟨later, hca, hla, hle⟩ := hl.recvs_closed hi hc calls
  have hh := hla.returned_prefix
  rw [if_pos hc] at hh
  exact ⟨later, hca, hle, hh⟩

/-- A frame and a line that is no frame arrive in two reads, and the `recv` that refuses the line is
dropped inside its farewell. -/
def refusedReads : List RxLabel :=
  [.recv, .read (Frame.ping.record.take 6), .drop, .recv,
    .read (Frame.ping.record.drop 6 ++ [0x7b, newline]), .drop, .recv]

theorem run_delivers_refused :
    ∃ rx, Machine.run (NdjsonRx.step (tablePlatform [.ping])) sampleRx refusedReads = some rx ∧
      rx.returned.length = 1 ∧
      ∀ calls, ∃ later,
        Machine.run (NdjsonRx.step (tablePlatform [.ping])) rx (List.replicate calls .recv) =
            some later ∧ later.returned.length = 1 + calls := by
  obtain ⟨rx, hr, hi, hl⟩ : ∃ rx,
      Machine.run (NdjsonRx.step (tablePlatform [.ping])) sampleRx refusedReads = some rx ∧
        rx.future = .idle ∧ rx.returned.length = 1 := Machine.exists_run (by decide +kernel)
  have hc : (closureOf (tablePlatform [.ping]) sampleRx.decoder.atLeast
      (refusedReads.filterMap RxLabel.bytes) (refusedReads.findSome? RxLabel.ending)).isSome := by
    decide +kernel
  refine ⟨rx, hr, hl, fun calls => ?_⟩
  obtain ⟨later, hca, hm, -⟩ := (run_delivers hr).2.1 hi hc calls
  exact ⟨later, hca, by rw [hm, hl]⟩

end NdjsonRx

end MangoProtocol
