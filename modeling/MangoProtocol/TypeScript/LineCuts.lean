import MangoProtocol.TypeScript.LineAgreement

/-! The line decoder of the TypeScript package, on streams cut in any way.  It has searched all the
bytes that it holds and they hold no newline, so a search that goes on where the last one stopped
finds the first newline there is, and the decoder is a decoder of records. -/

namespace MangoProtocol.TypeScript

open ProofKit ProofKit.Records

variable {φ : Type}

/-- The early refusal of a record whose terminator has not arrived. -/
def overlongLine (limit : Nat) (record : List UInt8) : Option CodecError :=
  let content := stripCarriageReturn record
  if limit < content.length then
    some ⟨.tooLarge, "partial line is already" ++ " " ++ content.length.repr ++
      " bytes; expected at most " ++ limit.repr, none⟩
  else none

theorem overlongLine_early (parse : String → Nat → Except CodecError φ) (limit : Nat) :
    Early (judgeLine parse limit) (overlongLine limit) CodecError.kind := by
  have hg : ∀ record more error, overlongLine limit record = some error →
      error.kind = .tooLarge ∧ limit < (stripCarriageReturn (record ++ more)).length := by
    intro record more error h
    have hgr := stripCarriageReturn_append record more
    simp only [overlongLine] at h
    split at h
    · grind [stripCarriageReturn_eq]
    · cases h
  constructor
  · intro record more error h
    obtain ⟨hk, hl⟩ := hg record more error h
    exact ⟨_, by rw [judgeLine, if_pos hl], hk.symm⟩
  · intro record more error h
    obtain ⟨hk, hl⟩ := hg record more error h
    exact ⟨_, by rw [overlongLine, if_pos hl], hk.symm⟩

namespace LineDecoder

/-! ### One push -/

/-- The decoder of records inside a line decoder.  One that stopped may hold bytes that it never
looks at again. -/
def records (self : LineDecoder) : Decoder UInt8 CodecError :=
  ⟨if self.refusal.isSome then [] else self.pending, self.refusal⟩

/-- The search offset is where the bytes end, and there is no newline before it. -/
structure Searched (decoder : LineDecoder) : Prop where
  whole : decoder.refusal = none → decoder.searched = decoder.pending.length
  free : decoder.refusal = none → newline ∉ decoder.pending

theorem searched_new (limit : Nat) (atLeast : minMaxFrameBytes ≤ limit) :
    (new limit atLeast).Searched where
  whole _ := rfl
  free _ hm := by cases hm

variable (parse : String → Nat → Except CodecError φ) {self : LineDecoder}

theorem push_open (h : self.refusal = none) (bytes : List UInt8) :
    self.push parse bytes = { self with pending := self.pending ++ bytes }.drain parse false := by
  simp only [push, h]

theorem Searched.push (h : self.Searched) (bytes : List UInt8) :
    (self.push parse bytes).1.Searched ∧ (self.push parse bytes).1.limit = self.limit ∧
      ((self.push parse bytes).1.records,
        (⟨(self.push parse bytes).2.frames, (self.push parse bytes).2.error⟩ :
          Outcome φ CodecError)) =
        Records.push newline (judgeLine parse self.limit) (overlongLine self.limit) self.records
          bytes := by
  cases hr : self.refusal with
  | some refusal =>
    have hfa : self.push parse bytes = (self, ⟨[], some refusal⟩) := by
      simp only [LineDecoder.push, hr]
    have hrec : self.records.failure = some refusal := hr
    rw [hfa, push_failed hrec]
    exact ⟨h, rfl, rfl⟩
  | none =>
    have hfr : lineFeed ∉ (self.pending ++ bytes).take self.searched := by
      rw [h.whole hr, List.take_left]
      exact h.free hr
    obtain ⟨hli, hf, he, hl, hp⟩ :=
      drainRecords_drains parse { self with pending := self.pending ++ bytes } [] hfr
    have hrec : self.records = ⟨self.pending, none⟩ := by
      rw [records, hr]
      rfl
    rw [push_open parse hr, LineDecoder.drain, hrec]
    simp only [Records.push]
    generalize LineDecoder.drainRecords parse
      { self with pending := self.pending ++ bytes } [] = drained at *
    dsimp only at hli hf he hl hp ⊢
    generalize hfo : scan newline (judgeLine parse self.limit) (self.pending ++ bytes) =
      found at *
    rw [← he]
    cases hc : drained.2.error with
    | some error =>
      rw [hc, hr] at hl
      refine ⟨⟨fun hn => ?_, fun hn => ?_⟩, hli, ?_⟩
      · cases hl.symm.trans hn
      · cases hl.symm.trans hn
      · simp only [records, hl, hf, hc]
        rfl
    | none =>
      rw [hc, hr] at hl
      have hre := hp hc
      have hop : newline ∉ found.rest := by
        rw [← hfo]
        exact scan_rest (by rw [hfo, ← he, hc])
      dsimp only
      rw [if_neg Bool.false_ne_true]
      by_cases hlo : self.limit < (stripCarriageReturn drained.1.pending).length
      · have ho : overlongLine self.limit found.rest = some
            (drained.1.refuse (stripCarriageReturn drained.1.pending).length true).2 := by
          rw [overlongLine, ← hre, if_pos hlo, ← hli]
          rfl
        rw [if_pos hlo, ho]
        refine ⟨⟨fun hn => ?_, fun hn => ?_⟩, hli, ?_⟩
        · cases hn
        · cases hn
        · simp only [records, refuse, hf, hli]
          rfl
      · have hw : overlongLine self.limit found.rest = none := by
          rw [overlongLine, ← hre, if_neg hlo]
        rw [if_neg hlo, hw]
        refine ⟨⟨fun _ => rfl, fun _ => hre ▸ hop⟩, hli, ?_⟩
        simp only [records, hl, hf, hc, hre]
        rfl

theorem Searched.push_error (h : self.Searched) (bytes : List UInt8) :
    (self.push parse bytes).2.error = (self.push parse bytes).1.refusal := by
  obtain ⟨-, -, hp⟩ := h.push parse bytes
  have hr : (Records.push newline (judgeLine parse self.limit) (overlongLine self.limit)
      self.records bytes).2.error = _ := Records.push_error self.records bytes
  rw [← hp] at hr
  exact hr

/-! ### Runs -/

/-- Successive calls: the decoder after them, and what each returned. -/
def run (self : LineDecoder) : List DecoderCall → LineDecoder × List (LineDecoderOutcome φ)
  | [] => (self, [])
  | call :: calls =>
    ((run (self.call parse call).1 calls).1,
      (self.call parse call).2 :: (run (self.call parse call).1 calls).2)

theorem run_append (self : LineDecoder) (calls more : List DecoderCall) :
    self.run parse (calls ++ more) =
      (((self.run parse calls).1.run parse more).1,
        (self.run parse calls).2 ++ ((self.run parse calls).1.run parse more).2) := by
  induction calls generalizing self with
  | nil => rfl
  | cons call calls ih => simp only [List.cons_append, run, ih]

theorem run_refused {refusal : CodecError} (h : self.refusal = some refusal)
    (calls : List DecoderCall) :
    self.run parse calls = (self, calls.map fun _ => ⟨[], some refusal⟩) := by
  induction calls with
  | nil => rfl
  | cons call calls ih =>
    have hc : self.call parse call = (self, ⟨[], some refusal⟩) := by
      cases call with
      | push bytes => simp only [call, LineDecoder.push, h]
      | finish => simp only [call, finish, h]
    simp only [run, hc, ih, List.map_cons]

theorem Searched.run_pushes (h : self.Searched) (pieces : List (List UInt8)) :
    let result := self.run parse (pieces.map .push)
    result.1.Searched ∧ result.1.limit = self.limit ∧
      (result.1.records, result.2.map fun outcome =>
        (⟨outcome.frames, outcome.error⟩ : Outcome φ CodecError)) =
        feed newline (judgeLine parse self.limit) (overlongLine self.limit) self.records
          pieces := by
  induction pieces generalizing self with
  | nil => exact ⟨h, rfl, rfl⟩
  | cons bytes pieces ih =>
    obtain ⟨hs, hl, hp⟩ := h.push parse bytes
    obtain ⟨ha, hk, hf⟩ := ih hs
    rw [hl] at hk hf
    refine ⟨ha, hk, ?_⟩
    simp only [List.map_cons, run, call, feed, ← hp, ← hf]

/-- What calls have yielded so far: all their frames, and the kind of the first refusal. -/
def yielded (outcomes : List (LineDecoderOutcome φ)) : List φ × Option CodecErrorKind :=
  (outcomes.flatMap LineDecoderOutcome.frames,
    (outcomes.findSome? LineDecoderOutcome.error).map CodecError.kind)

theorem yielded_append (outcomes more : List (LineDecoderOutcome φ)) :
    yielded (outcomes ++ more) =
      ((yielded outcomes).1 ++ (yielded more).1, (yielded outcomes).2.or (yielded more).2) := by
  simp only [yielded, List.flatMap_append, List.findSome?_append]
  cases outcomes.findSome? LineDecoderOutcome.error <;> rfl

theorem yielded_refused (refusal : CodecError) (calls : List DecoderCall) :
    (yielded (calls.map fun _ => (⟨[], some refusal⟩ : LineDecoderOutcome φ))).1 = [] := by
  simp [yielded, List.flatMap_replicate]

/-- A new decoder after pushes, in terms of the stream alone. -/
structure Fed (limit : Nat) (stream : List UInt8)
    (result : LineDecoder × List (LineDecoderOutcome φ)) : Prop where
  searched : result.1.Searched
  kept : result.1.limit = limit
  frames : (yielded result.2).1 = (scan newline (judgeLine parse limit) stream).items
  first : result.2.findSome? LineDecoderOutcome.error = result.1.refusal
  refusal : result.1.refusal.map CodecError.kind =
    (verdict newline (judgeLine parse limit) (overlongLine limit) stream).2.map CodecError.kind
  pending : result.1.refusal = none →
    result.1.pending = (scan newline (judgeLine parse limit) stream).rest

variable {result : LineDecoder × List (LineDecoderOutcome φ)} {stream : List UInt8} {limit : Nat}

theorem run_pushes_fed (atLeast : minMaxFrameBytes ≤ limit) (pieces : List (List UInt8)) :
    Fed parse limit pieces.flatten ((new limit atLeast).run parse (pieces.map .push)) := by
  obtain ⟨hs, hl, hfe⟩ := (searched_new limit atLeast).run_pushes parse pieces
  have he : overlongLine limit [] = none := by simp [overlongLine, stripCarriageReturn]
  obtain ⟨ha, hi⟩ := feed_fresh (t := newline) (overlongLine_early parse limit)
    he pieces
  have hf : (feed newline (judgeLine parse limit) (overlongLine limit) ⟨[], none⟩
      pieces).2.findSome? Outcome.error = _ := feed_error rfl pieces
  generalize (new limit atLeast).run parse (pieces.map .push) = result at *
  change (result.1.records, _) = feed newline (judgeLine parse limit) (overlongLine limit)
    ⟨[], none⟩ pieces at hfe
  rw [← hfe] at ha hi hf
  refine ⟨hs, hl, ?_, ?_, ha.failure, fun hn => ?_⟩
  · rw [← hi, List.flatMap_map]
    rfl
  · rw [List.findSome?_map] at hf
    exact hf
  · have hb := ha.buffer hn
    rw [records, hn] at hb
    exact hb

theorem Searched.finish_error (h : self.Searched) :
    (self.finish parse).2.error = (self.finish parse).1.refusal := by
  cases hr : self.refusal with
  | some refusal => simp only [finish, hr]
  | none =>
    simp only [finish, hr, drain, drainRecords_free parse (h.free hr), if_true, consume]
    split
    · rfl
    · split <;> rfl

theorem Fed.ending (h : Fed parse limit stream result) (finished : Bool) :
    let after := result.1.run parse (if finished then [.finish] else [])
    (yielded result.2).2.or (yielded after.2).2 = after.1.refusal.map CodecError.kind := by
  intro after
  have hf : (yielded result.2).2 = result.1.refusal.map CodecError.kind :=
    congrArg (Option.map CodecError.kind) h.first
  cases hr : result.1.refusal with
  | some refusal =>
    have ha : after.1 = result.1 := by
      simp only [after, run_refused parse hr]
    rw [hf, ha, hr]
    rfl
  | none =>
    rw [hf, hr, Option.map_none, Option.none_or]
    cases finished with
    | false =>
      change none = result.1.refusal.map CodecError.kind
      rw [hr]
      rfl
    | true =>
      have he := h.searched.finish_error parse
      simp only [after, yielded, if_true, run, call, List.findSome?_cons, he]
      cases (result.1.finish parse).1.refusal <;> rfl

theorem Fed.cuts {result' : LineDecoder × List (LineDecoderOutcome φ)}
    (h : Fed parse limit stream result) (h' : Fed parse limit stream result') :
    yielded result.2 = yielded result'.2 ∧
      (result.1 = result'.1 ∨ ∃ refusal refusal', result.1.refusal = some refusal ∧
        result'.1.refusal = some refusal' ∧ refusal.kind = refusal'.kind) := by
  have hk : result.1.refusal.map CodecError.kind = result'.1.refusal.map CodecError.kind :=
    h.refusal.trans h'.refusal.symm
  refine ⟨Prod.ext (h.frames.trans h'.frames.symm) ?_, ?_⟩
  · simp only [yielded, h.first, h'.first, hk]
  · cases hr : result.1.refusal with
    | some refusal => grind [Option.map_eq_some_iff, refusal]
    | none =>
      have hr' : result'.1.refusal = none := by simpa [hr] using hk.symm
      have hp := (h.pending hr).trans (h'.pending hr').symm
      refine .inl (LineDecoder.ext (h.kept.trans h'.kept.symm) hp ?_
        (hr.trans hr'.symm))
      rw [h.searched.whole hr, h'.searched.whole hr', hp]

/-- However the bytes of a stream are cut into pushes, and whether or not `finish` follows, the
decoder yields the same frames, those of the records of the stream in order, and ends refused with
the same kind after them or not at all. -/
theorem run_cuts_agree {limit : Nat} (atLeast : minMaxFrameBytes ≤ limit)
    {pieces pieces' : List (List UInt8)} (same : pieces.flatten = pieces'.flatten)
    (finished : Bool) :
    let ending : List DecoderCall := if finished then [.finish] else []
    let result := (new limit atLeast).run parse (pieces.map .push ++ ending)
    let result' := (new limit atLeast).run parse (pieces'.map .push ++ ending)
    yielded result.2 = yielded result'.2 ∧
      result.1.refusal.map CodecError.kind = result'.1.refusal.map CodecError.kind ∧
      (yielded result.2).2 = result.1.refusal.map CodecError.kind ∧
      (yielded ((new limit atLeast).run parse (pieces.map .push)).2).1 =
        (scan newline (judgeLine parse limit) pieces.flatten).items := by
  intro ending result result'
  have hf := run_pushes_fed parse atLeast pieces
  have hf' := run_pushes_fed parse atLeast pieces'
  rw [← same] at hf'
  obtain ⟨hy, hs⟩ := hf.cuts parse hf'
  simp only [result, result', run_append, yielded_append]
  generalize (new limit atLeast).run parse (pieces.map .push) = before at *
  generalize (new limit atLeast).run parse (pieces'.map .push) = before' at *
  rcases hs with hs | ⟨refusal, refusal', hr, hr', hk⟩
  · rw [← hs, hy]
    exact ⟨rfl, rfl, hy ▸ hf.ending parse finished, hy ▸ hf.frames⟩
  · have he := hf.ending parse finished
    have he' := hf'.ending parse finished
    rw [run_refused parse hr] at he
    rw [run_refused parse hr'] at he'
    rw [run_refused parse hr, run_refused parse hr']
    have hre : before.1.refusal.map CodecError.kind =
        before'.1.refusal.map CodecError.kind := by
      rw [hr, hr', Option.map_some, Option.map_some, hk]
    refine ⟨Prod.ext ?_ ?_, hre, he, hf.frames⟩
    · dsimp only
      rw [hy, yielded_refused, yielded_refused]
    · exact he.trans (hre.trans he'.symm)

/-- A line that ends in a carriage return and a newline, whole and cut between the two. -/
theorem run_cuts_agree_crlf :
    let pieces : List (List UInt8) := [[0x7b, 0x7d, 13, 10]]
    let pieces' : List (List UInt8) := [[0x7b], [0x7d, 13], [10]]
    pieces.flatten = pieces'.flatten ∧
      yielded ((new 4096 minMaxFrameBytes_le).run (fun text _ => .ok text)
          (pieces.map .push ++ [.finish])).2 =
        yielded ((new 4096 minMaxFrameBytes_le).run (fun text _ => .ok text)
          (pieces'.map .push ++ [.finish])).2 := by
  intro pieces pieces'
  have same : pieces.flatten = pieces'.flatten := rfl
  exact ⟨same, (run_cuts_agree (fun text _ => .ok text) minMaxFrameBytes_le same true).1⟩

end LineDecoder

end MangoProtocol.TypeScript
