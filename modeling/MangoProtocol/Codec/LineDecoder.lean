import MangoProtocol.Codec.Ndjson

/-! The line decoder as a decoder of records: its loop is a scan, its early refusal of an open line
agrees with the verdict on the completed line, and so what it returns depends on the stream and not
on how the stream was cut into pushes. -/

namespace MangoProtocol

open ProofKit ProofKit.Records

section Decoder

variable {φ : Type} (decode : List UInt8 → Nat → Except CodecError φ) (maxFrameBytes : Nat)

def judgeLine (line : List UInt8) : Judgement φ CodecError :=
  let content := stripCarriageReturn line
  if maxFrameBytes < content.length then .refuse (tooLarge content.length maxFrameBytes)
  else if isBlank content then .skip
  else
    match decode line maxFrameBytes with
    | .ok frame => .item frame
    | .error error => .refuse error

/-- The early refusal of an open line. -/
def overlongLine (line : List UInt8) : Option CodecError :=
  if maxFrameBytes < (stripCarriageReturn line).length then
    some (tooLarge (stripCarriageReturn line).length maxFrameBytes)
  else none

theorem stripCarriageReturn_length (line : List UInt8) :
    (stripCarriageReturn line).length ≤ line.length ∧
      line.length ≤ (stripCarriageReturn line).length + 1 := by
  unfold stripCarriageReturn
  split
  · simp only [List.length_dropLast]
    omega
  · omega

theorem stripCarriageReturn_append (r s : List UInt8) :
    (stripCarriageReturn r).length ≤ (stripCarriageReturn (r ++ s)).length := by
  cases s with
  | nil => simp
  | cons b s => grind [stripCarriageReturn_length, List.length_append, List.length_cons]

theorem drainLines_eq_scan (buffer : List UInt8) :
    drainLines decode maxFrameBytes buffer =
      ⟨(scan newline (judgeLine decode maxFrameBytes) buffer).items,
        (scan newline (judgeLine decode maxFrameBytes) buffer).refusal,
        (scan newline (judgeLine decode maxFrameBytes) buffer).rest⟩ := by
  induction hn : buffer.length using Nat.strong_induction_on generalizing buffer with
  | _ n ih =>
    rw [drainLines]
    split
    · rename_i hs
      rw [scan_open _ (splitRecord_eq_none.mp hs)]
    · rename_i line rest hs
      have hl := splitRecord_length hs
      have hr := ih rest.length (hn ▸ hl) rest rfl
      rw [scan_record hs]
      simp only [judgeLine]
      split
      · rfl
      split
      · exact hr
      · grind

theorem overlongLine_early :
    Early (judgeLine decode maxFrameBytes) (overlongLine maxFrameBytes) CodecError.kind := by
  constructor <;> intro r s e h <;>
    have hg := stripCarriageReturn_append r s <;>
    simp only [overlongLine] at h <;> split at h <;> cases h
  · refine ⟨tooLarge (stripCarriageReturn (r ++ s)).length maxFrameBytes, ?_, rfl⟩
    rw [judgeLine, if_pos (by omega)]
  · refine ⟨tooLarge (stripCarriageReturn (r ++ s)).length maxFrameBytes, ?_, rfl⟩
    rw [overlongLine, if_pos (by omega)]

variable {maxFrameBytes}

def LineDecoder.records (self : LineDecoder) : Decoder UInt8 CodecError :=
  ⟨self.buffer, self.failure⟩

theorem LineDecoder.push_records (self : LineDecoder) (bytes : List UInt8) :
    ((self.push decode bytes).1.records,
        (⟨(self.push decode bytes).2.frames, (self.push decode bytes).2.error⟩ :
          Outcome φ CodecError)) =
      Records.push newline (judgeLine decode self.maxFrameBytes) (overlongLine self.maxFrameBytes)
        self.records bytes := by
  cases hf : self.failure with
  | some failure =>
    rw [push_failed (show self.records.failure = some failure from hf)]
    simp only [LineDecoder.push, hf]
  | none =>
    grind [LineDecoder.push, Records.push, LineDecoder.records, drainLines_eq_scan, overlongLine]

theorem LineDecoder.push_maxFrameBytes (self : LineDecoder) (bytes : List UInt8) :
    (self.push decode bytes).1.maxFrameBytes = self.maxFrameBytes := by
  unfold LineDecoder.push
  split
  · rfl
  · dsimp only
    split <;> rfl

theorem LineDecoder.run_pushes (self : LineDecoder) (pieces : List (List UInt8)) :
    (self.run decode (pieces.map .push)).1.maxFrameBytes = self.maxFrameBytes ∧
      ((self.run decode (pieces.map .push)).1.records,
        (self.run decode (pieces.map .push)).2.map fun outcome =>
          (⟨outcome.frames, outcome.error⟩ : Outcome φ CodecError)) =
        feed newline (judgeLine decode self.maxFrameBytes) (overlongLine self.maxFrameBytes)
          self.records pieces := by
  induction pieces generalizing self with
  | nil => exact ⟨rfl, rfl⟩
  | cons bytes pieces ih =>
    have hp := self.push_records decode bytes
    have hm := self.push_maxFrameBytes decode bytes
    obtain ⟨ihMax, ihFeed⟩ := ih (self.push decode bytes).1
    rw [hm] at ihMax ihFeed
    refine ⟨ihMax, ?_⟩
    simp only [List.map_cons, LineDecoder.run, LineDecoder.call, feed, ← hp, ← ihFeed]

theorem LineDecoder.run_append (self : LineDecoder) (calls more : List DecoderCall) :
    self.run decode (calls ++ more) =
      (((self.run decode calls).1.run decode more).1,
        (self.run decode calls).2 ++ ((self.run decode calls).1.run decode more).2) := by
  induction calls generalizing self with
  | nil => rfl
  | cons call calls ih => simp only [List.cons_append, LineDecoder.run, ih]

/-! ### A refusal is final -/

variable {self : LineDecoder} {error : CodecError}

theorem LineDecoder.call_failed (h : self.failure = some error) (call : DecoderCall) :
    self.call decode call = (self, ⟨[], some error⟩) := by
  cases call with
  | push bytes => simp only [LineDecoder.call, LineDecoder.push, h]
  | finish => simp only [LineDecoder.call, LineDecoder.finish, h]

theorem LineDecoder.finish_error (h : (self.finish decode).2 = .error error) :
    (self.finish decode).1.failure = some error := by
  cases hf : self.failure with
  | some failure => simpa [LineDecoder.finish, hf] using h
  | none => grind [LineDecoder.finish]

theorem LineDecoder.call_error {call : DecoderCall}
    (h : (self.call decode call).2.error = some error) :
    (self.call decode call).1.failure = some error := by
  cases call with
  | push bytes =>
    have hp := congrArg (·.1.failure) (self.push_records decode bytes)
    have he := congrArg (·.2.error) (self.push_records decode bytes)
    dsimp only [LineDecoder.records] at hp he
    simp only [LineDecoder.call] at h ⊢
    rw [hp, ← push_error, ← he, h]
  | finish =>
    rcases hf : self.finish decode with ⟨decoder, frames | refusal⟩
    · have hfa := self.finish_error decode (congrArg Prod.snd hf)
      simp only [LineDecoder.call, hf] at h hfa ⊢
      rw [hfa, h]
    · simp [LineDecoder.call, hf] at h

theorem LineDecoder.run_failed (h : self.failure = some error) (calls : List DecoderCall) :
    self.run decode calls = (self, calls.map fun _ => ⟨[], some error⟩) := by
  induction calls with
  | nil => rfl
  | cons call calls ih => simp only [LineDecoder.run, call_failed decode h, ih, List.map_cons]

theorem LineDecoder.run_after_refusal {calls : List DecoderCall}
    {before after : List (PushOutcome φ)} {outcome : PushOutcome φ}
    (hr : (self.run decode calls).2 = before ++ outcome :: after)
    (he : outcome.error = some error) : ∀ later ∈ after, later = ⟨[], some error⟩ := by
  induction calls generalizing self before with
  | nil => simp [LineDecoder.run] at hr
  | cons call calls ih =>
    simp only [LineDecoder.run] at hr
    cases before with
    | cons first before => exact ih (List.cons_eq_cons.mp hr).2
    | nil =>
      obtain ⟨rfl, rfl⟩ := List.cons_eq_cons.mp hr
      rw [run_failed decode (call_error decode he)]
      intro later hl
      obtain ⟨-, -, rfl⟩ := List.mem_map.mp hl
      rfl

/-! ### The cut does not matter -/

/-- What calls have yielded so far: all their frames, and the kind of the first refusal. -/
def yielded (outcomes : List (PushOutcome φ)) : List φ × Option CodecErrorKind :=
  (outcomes.flatMap PushOutcome.frames, (outcomes.findSome? PushOutcome.error).map CodecError.kind)

theorem yielded_append (outcomes more : List (PushOutcome φ)) :
    yielded (outcomes ++ more) =
      ((yielded outcomes).1 ++ (yielded more).1, (yielded outcomes).2.or (yielded more).2) := by
  simp only [yielded, List.flatMap_append, List.findSome?_append]
  cases outcomes.findSome? PushOutcome.error <;> rfl

theorem LineDecoder.run_pushes_new (atLeast : minMaxFrameBytes ≤ maxFrameBytes)
    (pieces : List (List UInt8)) :
    let result := (LineDecoder.new maxFrameBytes atLeast).run decode (pieces.map .push)
    result.1.maxFrameBytes = maxFrameBytes ∧
      After newline (judgeLine decode maxFrameBytes) (overlongLine maxFrameBytes) CodecError.kind
        pieces.flatten result.1.records ∧
      result.2.flatMap PushOutcome.frames =
        (verdict newline (judgeLine decode maxFrameBytes) (overlongLine maxFrameBytes)
          pieces.flatten).1 ∧
      result.2.findSome? PushOutcome.error = result.1.failure := by
  obtain ⟨hm, hf⟩ := (LineDecoder.new maxFrameBytes atLeast).run_pushes decode pieces
  have hem : overlongLine maxFrameBytes [] = none := by
    simp [overlongLine, stripCarriageReturn]
  have hfr : After newline (judgeLine decode maxFrameBytes) (overlongLine maxFrameBytes)
      CodecError.kind [] (LineDecoder.new maxFrameBytes atLeast).records := After.fresh hem
  obtain ⟨ha, hi⟩ := hfr.feed (overlongLine_early decode maxFrameBytes) pieces
  have he : (feed newline (judgeLine decode maxFrameBytes) (overlongLine maxFrameBytes)
      (LineDecoder.new maxFrameBytes atLeast).records pieces).2.findSome? Outcome.error =
        (feed newline (judgeLine decode maxFrameBytes) (overlongLine maxFrameBytes)
          (LineDecoder.new maxFrameBytes atLeast).records pieces).1.failure := feed_error rfl pieces
  dsimp only [LineDecoder.new] at hf
  simp only [List.nil_append, LineDecoder.new, ← hf] at ha hi he
  refine ⟨hm, ha, ?_, ?_⟩
  · rw [hi, List.flatMap_map]
    simp [verdict, scan_open, LineDecoder.new]
  · rw [List.findSome?_map] at he
    exact he

theorem LineDecoder.run_cuts (atLeast : minMaxFrameBytes ≤ maxFrameBytes)
    {pieces pieces' : List (List UInt8)} (same : pieces.flatten = pieces'.flatten) :
    let result := (LineDecoder.new maxFrameBytes atLeast).run decode (pieces.map .push)
    let result' := (LineDecoder.new maxFrameBytes atLeast).run decode (pieces'.map .push)
    yielded result.2 = yielded result'.2 ∧
      (result.1 = result'.1 ∨
        ∃ error error', result.1.failure = some error ∧ result'.1.failure = some error') := by
  intro result result'
  obtain ⟨hm, ha, hfr, he⟩ := run_pushes_new decode atLeast pieces
  obtain ⟨hm', ha', hfr', he'⟩ := run_pushes_new decode atLeast pieces'
  rw [← same] at ha' hfr'
  have hk : result.1.failure.map CodecError.kind = result'.1.failure.map CodecError.kind :=
    ha.failure.trans ha'.failure.symm
  refine ⟨?_, ?_⟩
  · grind [yielded, Prod.mk.injEq]
  · cases hf : result.1.failure with
    | some error =>
      obtain ⟨error', hf', -⟩ := Option.map_eq_some_iff.mp (hk.symm.trans (by rw [hf]; rfl))
      exact .inr ⟨error, error', rfl, hf'⟩
    | none =>
      have hf' : result'.1.failure = none := by simpa [hf] using hk.symm
      have hb : result.1.buffer = result'.1.buffer :=
        (ha.buffer hf).trans (ha'.buffer hf').symm
      exact .inl (LineDecoder.ext (hm.trans hm'.symm) hb (hf.trans hf'.symm))

/-- However the bytes of a stream are cut into pushes, and whether or not `finish` follows, the
decoder returns the same frames in the same order and reaches a refusal of the same kind after
them; and every call after a refusal repeats it. -/
theorem LineDecoder.run_cut_independent (atLeast : minMaxFrameBytes ≤ maxFrameBytes)
    {pieces pieces' : List (List UInt8)} (same : pieces.flatten = pieces'.flatten)
    (finished : Bool) :
    let ending : List DecoderCall := if finished then [.finish] else []
    yielded ((LineDecoder.new maxFrameBytes atLeast).run decode (pieces.map .push ++ ending)).2 =
      yielded
        ((LineDecoder.new maxFrameBytes atLeast).run decode (pieces'.map .push ++ ending)).2 ∧
      ∀ (calls : List DecoderCall) (before after : List (PushOutcome φ)) (outcome : PushOutcome φ)
        (error : CodecError),
        ((LineDecoder.new maxFrameBytes atLeast).run decode calls).2 =
            before ++ outcome :: after →
          outcome.error = some error → ∀ later ∈ after, later = ⟨[], some error⟩ := by
  intro ending
  refine ⟨?_, fun calls before after outcome error hru he =>
    run_after_refusal decode hru he⟩
  obtain ⟨hy, hs⟩ := run_cuts decode atLeast same
  rw [run_append, run_append, yielded_append, yielded_append, hy]
  rcases hs with hs | ⟨error, error', he, he'⟩
  · rw [hs]
  · rw [run_failed decode he, run_failed decode he']
    have hr := (run_pushes_new decode atLeast pieces').2.2.2.trans he'
    simp [yielded, hr, List.flatMap_replicate]

/-- A line that ends in a carriage return and a newline, whole and cut between the two. -/
theorem LineDecoder.run_cut_independent_crlf :
    let pieces : List (List UInt8) := [[0x7b, 0x7d, 13, 10]]
    let pieces' : List (List UInt8) := [[0x7b], [0x7d, 13], [10]]
    pieces.flatten = pieces'.flatten ∧
      yielded ((LineDecoder.new 4096 (by decide)).run (fun bytes _ => .ok bytes)
          (pieces.map .push ++ [.finish])).2 =
        yielded ((LineDecoder.new 4096 (by decide)).run (fun bytes _ => .ok bytes)
          (pieces'.map .push ++ [.finish])).2 := by
  intro pieces pieces'
  have same : pieces.flatten = pieces'.flatten := rfl
  have atLeast : minMaxFrameBytes ≤ 4096 := by decide
  exact ⟨same, (LineDecoder.run_cut_independent (fun bytes _ => .ok bytes) atLeast same true).1⟩

end Decoder

end MangoProtocol
