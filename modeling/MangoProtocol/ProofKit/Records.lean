import Mathlib.Tactic

/-! Records that a terminator ends, decoded from a stream that arrives in pieces.  A judge says of
each record whether it is skipped, yields an item or ends the stream, and a record that is still
open may be refused early.  When an early refusal agrees with the refusals that could follow it,
what a decoder yields depends on the stream alone and not on where it was cut. -/

namespace ProofKit.Records

variable {α φ ε κ : Type} [DecidableEq α]

/-! ### The first record -/

/-- The record before the first terminator, and what follows the terminator. -/
def splitRecord (t : α) : List α → Option (List α × List α)
  | [] => none
  | a :: l => if a = t then some ([], l) else (splitRecord t l).map fun p => (a :: p.1, p.2)

variable {l record rest : List α} {t : α}

theorem splitRecord_eq_none : splitRecord t l = none ↔ t ∉ l := by
  induction l with
  | nil => simp [splitRecord]
  | cons a l ih =>
    by_cases h : a = t
    · simp [splitRecord, h]
    · simp [splitRecord, h, ih, Ne.symm h]

theorem splitRecord_eq_some :
    splitRecord t l = some (record, rest) ↔ t ∉ record ∧ l = record ++ t :: rest := by
  induction l generalizing record with
  | nil => simp [splitRecord]
  | cons a l ih =>
    by_cases h : a = t
    · subst h
      simp only [splitRecord, ↓reduceIte, Option.some.injEq, Prod.mk.injEq]
      constructor
      · rintro ⟨rfl, rfl⟩
        simp
      · rintro ⟨hr, heq⟩
        cases record with
        | nil => simpa using heq
        | cons b record => simp_all
    · simp only [splitRecord, h, ↓reduceIte, Option.map_eq_some_iff, Prod.exists, Prod.mk.injEq]
      constructor
      · grind
      · rintro ⟨hr, heq⟩
        cases record with
        | nil => simp_all
        | cons b record =>
          obtain ⟨rfl, rfl⟩ := List.cons_eq_cons.mp heq
          exact ⟨record, rest, ih.mpr ⟨fun hm => hr (by simp [hm]), rfl⟩, rfl, rfl⟩

theorem splitRecord_length (h : splitRecord t l = some (record, rest)) :
    rest.length < l.length := by
  obtain ⟨-, rfl⟩ := splitRecord_eq_some.mp h
  simp only [List.length_append, List.length_cons]
  omega

theorem splitRecord_append (h : splitRecord t l = some (record, rest)) (more : List α) :
    splitRecord t (l ++ more) = some (record, rest ++ more) := by
  obtain ⟨hr, rfl⟩ := splitRecord_eq_some.mp h
  exact splitRecord_eq_some.mpr ⟨hr, by simp⟩

/-- Induction over the records of a buffer. -/
@[elab_as_elim]
theorem record_induction {motive : List α → Prop} (unended : ∀ buffer, t ∉ buffer → motive buffer)
    (record : ∀ buffer record rest, splitRecord t buffer = some (record, rest) → motive rest →
      motive buffer) (buffer : List α) : motive buffer := by
  induction hn : buffer.length using Nat.strong_induction_on generalizing buffer with
  | _ n ih =>
    cases hs : splitRecord t buffer with
    | none => exact unended buffer (splitRecord_eq_none.mp hs)
    | some pair =>
      exact record buffer pair.1 pair.2 hs
        (ih pair.2.length (hn ▸ splitRecord_length hs) pair.2 rfl)

/-! ### Scanning -/

/-- What a judge says of one record. -/
inductive Judgement (φ ε : Type) where
  | skip
  | item (x : φ)
  | refuse (error : ε)

/-- The judge ends the stream at this record. -/
def Judgement.refuses : Judgement φ ε → Bool
  | .refuse _ => true
  | .skip | .item _ => false

/-- What a scan found: the items of the complete records, the refusal that ended it, and the bytes
it left. -/
structure Scan (α φ ε : Type) where
  items : List φ
  refusal : Option ε
  rest : List α

section Scanning

variable (t : α) (judge : List α → Judgement φ ε)

/-- Judges the complete records in order, up to the first refusal. -/
def scan (buffer : List α) : Scan α φ ε :=
  match h : splitRecord t buffer with
  | none => ⟨[], none, buffer⟩
  | some (record, rest) =>
    have := splitRecord_length h
    match judge record with
    | .skip => scan rest
    | .item x => ⟨x :: (scan rest).items, (scan rest).refusal, (scan rest).rest⟩
    | .refuse e => ⟨[], some e, rest⟩
termination_by buffer.length

variable {t judge}

variable {buffer record rest p : List α} {φ' ε' : Type} {judge' : List α → Judgement φ' ε'} {e : ε}

theorem scan_open (judge : List α → Judgement φ ε) (h : t ∉ buffer) :
    scan t judge buffer = ⟨[], none, buffer⟩ := by
  rw [scan]
  split
  · rfl
  · rename_i heq
    rw [splitRecord_eq_none.mpr h] at heq
    cases heq

theorem scan_record (h : splitRecord t buffer = some (record, rest)) :
    scan t judge buffer = match judge record with
      | .skip => scan t judge rest
      | .item x => ⟨x :: (scan t judge rest).items, (scan t judge rest).refusal,
          (scan t judge rest).rest⟩
      | .refuse e => ⟨[], some e, rest⟩ := by
  conv => lhs; rw [scan]
  split
  · rename_i heq
    rw [h] at heq
    cases heq
  · rename_i heq
    rw [h] at heq
    obtain ⟨rfl, rfl⟩ := Prod.mk.inj (Option.some.inj heq)
    rfl

theorem scan_passed (h : splitRecord t buffer = some (record, rest))
    (hp : (judge record).refuses = false) :
    (scan t judge buffer).refusal = (scan t judge rest).refusal ∧
      (scan t judge buffer).rest = (scan t judge rest).rest := by
  rw [scan_record h]
  cases hj : judge record with
  | skip => exact ⟨rfl, rfl⟩
  | item x => exact ⟨rfl, rfl⟩
  | refuse e =>
    rw [hj] at hp
    cases hp

theorem scan_refused (h : splitRecord t buffer = some (record, rest))
    (hr : (judge record).refuses = true) :
    ∃ e, judge record = .refuse e ∧ scan t judge buffer = ⟨[], some e, rest⟩ := by
  cases hj : judge record with
  | skip =>
    rw [hj] at hr
    cases hr
  | item x =>
    rw [hj] at hr
    cases hr
  | refuse e => exact ⟨e, rfl, by rw [scan_record h, hj]⟩

theorem scan_rest (h : (scan t judge buffer).refusal = none) : t ∉ (scan t judge buffer).rest := by
  induction buffer using record_induction (t := t) with
  | unended buffer ho =>
    rw [scan_open judge ho]
    exact ho
  | record buffer record rest hs ih =>
    cases hr : (judge record).refuses with
    | true =>
      obtain ⟨e, -, hsc⟩ := scan_refused hs hr
      rw [hsc] at h
      cases h
    | false => grind [scan_passed]

theorem scan_append (q : List α) (h : (scan t judge p).refusal = none) :
    scan t judge (p ++ q) =
      ⟨(scan t judge p).items ++ (scan t judge ((scan t judge p).rest ++ q)).items,
        (scan t judge ((scan t judge p).rest ++ q)).refusal,
        (scan t judge ((scan t judge p).rest ++ q)).rest⟩ := by
  induction p using record_induction (t := t) with
  | unended p ho => simp [scan_open judge ho]
  | record p record rest hs ih =>
    rw [scan_record hs] at h ⊢
    rw [scan_record (splitRecord_append hs q)]
    cases hj : judge record with
    | skip =>
      simp only [hj] at h ⊢
      exact ih h
    | item x =>
      simp only [hj] at h ⊢
      simp [ih h]
    | refuse e => simp [hj] at h

theorem scan_append_refused (q : List α) (h : (scan t judge p).refusal = some e) :
    (scan t judge (p ++ q)).items = (scan t judge p).items ∧
      (scan t judge (p ++ q)).refusal = some e := by
  induction p using record_induction (t := t) with
  | unended p ho => simp [scan_open judge ho] at h
  | record p record rest hs ih =>
    rw [scan_record hs] at h ⊢
    rw [scan_record (splitRecord_append hs q)]
    cases hj : judge record with
    | skip =>
      simp only [hj] at h ⊢
      exact ih h
    | item x => grind
    | refuse e' => simpa [hj] using h

theorem scan_refusal (h : (scan t judge buffer).refusal = some e) :
    ∃ record, record <:+: buffer ∧ t ∉ record ∧ judge record = .refuse e := by
  induction buffer using record_induction (t := t) with
  | unended buffer ho => simp [scan_open judge ho] at h
  | record buffer record rest hs ih =>
    obtain ⟨hfr, hb⟩ := splitRecord_eq_some.mp hs
    cases hr : (judge record).refuses with
    | true =>
      obtain ⟨e', hj, hsc⟩ := scan_refused hs hr
      rw [hsc] at h
      cases h
      exact ⟨record, ⟨[], t :: rest, by rw [hb]; simp⟩, hfr, hj⟩
    | false =>
      obtain ⟨hre, -⟩ := scan_passed hs hr
      obtain ⟨found, hf, ho, hju⟩ := ih (hre ▸ h)
      have hsu : rest <:+ buffer := ⟨record ++ [t], by rw [hb]; simp⟩
      exact ⟨found, hf.trans hsu.isInfix, ho, hju⟩

theorem scan_rest_suffix (h : (scan t judge buffer).refusal = none) :
    (scan t judge buffer).rest <:+ buffer := by
  induction buffer using record_induction (t := t) with
  | unended buffer ho => rw [scan_open judge ho]
  | record buffer record rest hs ih =>
    obtain ⟨-, hb⟩ := splitRecord_eq_some.mp hs
    have hsu : rest <:+ buffer := ⟨record ++ [t], by rw [hb]; simp⟩
    cases hr : (judge record).refuses with
    | true =>
      obtain ⟨e, -, hsc⟩ := scan_refused hs hr
      rw [hsc] at h
      cases h
    | false => grind [scan_passed]

/-! ### The records that a scan judges -/

variable (t judge) in
def judged (buffer : List α) : List (List α) :=
  match h : splitRecord t buffer with
  | none => []
  | some (record, rest) =>
    have := splitRecord_length h
    if (judge record).refuses then [record] else record :: judged rest
termination_by buffer.length

theorem judged_open (judge : List α → Judgement φ ε) (h : t ∉ buffer) :
    judged t judge buffer = [] := by
  rw [judged]
  split
  · rfl
  · rename_i heq
    rw [splitRecord_eq_none.mpr h] at heq
    cases heq

theorem judged_record (h : splitRecord t buffer = some (record, rest)) :
    judged t judge buffer =
      if (judge record).refuses then [record] else record :: judged t judge rest := by
  conv => lhs; rw [judged]
  split
  · rename_i heq
    rw [h] at heq
    cases heq
  · rename_i heq
    rw [h] at heq
    obtain ⟨rfl, rfl⟩ := Prod.mk.inj (Option.some.inj heq)
    rfl

/-- Two judges that end the stream at the same ones of the records the first one sees see the same
records, and leave the same bytes. -/
theorem judged_congr
    (h : ∀ record ∈ judged t judge buffer, (judge' record).refuses = (judge record).refuses) :
    judged t judge' buffer = judged t judge buffer ∧
      (scan t judge' buffer).refusal.isSome = (scan t judge buffer).refusal.isSome ∧
      (scan t judge' buffer).rest = (scan t judge buffer).rest := by
  induction buffer using record_induction (t := t) with
  | unended buffer hop => grind [judged_open, scan_open]
  | record buffer record rest hs ih =>
    have hm : record ∈ judged t judge buffer := by
      rw [judged_record hs]
      split <;> exact List.mem_cons_self
    have hsa := h record hm
    cases hr : (judge record).refuses with
    | true =>
      obtain ⟨e, -, hsc⟩ := scan_refused hs hr
      obtain ⟨e', -, hs'⟩ := scan_refused hs (hsa.trans hr)
      rw [hsc, hs', judged_record hs, judged_record hs, hsa]
      simp only [hr, if_true, Option.isSome_some, and_self]
    | false =>
      obtain ⟨hre, hres⟩ := scan_passed hs hr
      obtain ⟨hr', hre'⟩ := scan_passed hs (hsa.trans hr)
      have hp : judged t judge buffer = record :: judged t judge rest := by
        rw [judged_record hs, hr]
        rfl
      rw [hp] at h
      obtain ⟨hj, he, hl⟩ := ih fun other ho => h other (.tail _ ho)
      rw [hp, judged_record hs, hsa, hr, hre, hr', hres, hre']
      exact ⟨congrArg (record :: ·) hj, he, hl⟩

variable (t judge) in
/-- The records that a decoder handles in a buffer: those the scan judges, and the record it leaves
open if that one is refused early. -/
def handled (early : List α → Bool) (buffer : List α) : List (List α) :=
  judged t judge buffer ++
    if (scan t judge buffer).refusal.isNone && early (scan t judge buffer).rest then
      [(scan t judge buffer).rest]
    else []

theorem handled_congr {early : List α → Bool}
    (h : ∀ record ∈ judged t judge buffer, (judge' record).refuses = (judge record).refuses) :
    handled t judge' early buffer = handled t judge early buffer := by
  obtain ⟨hj, hr, hre⟩ := judged_congr h
  rw [handled, handled, hj, hre, ← Option.not_isSome, ← Option.not_isSome, hr]

omit [DecidableEq α] in
theorem length_le_of_records {records : List (List α)} {limit : Nat}
    (hre : ∀ record ∈ records, record.length ≤ limit) {part : List α}
    (hp : part <:+: (records.map (· ++ [t])).flatten) (hfr : t ∉ part) :
    part.length ≤ limit := by
  induction records with
  | nil => simp_all
  | cons record records ih =>
    obtain ⟨before, after, heq⟩ := hp
    simp only [List.map_cons, List.flatten_cons, List.append_assoc, List.singleton_append] at heq
    -- The terminator of the first record stands before the part or behind it.
    rcases List.append_eq_append_iff.mp heq with ⟨gap, hrec, hr⟩ | ⟨gap, hb, hr⟩
    · rcases List.append_eq_append_iff.mp hr with ⟨more, hg, -⟩ | ⟨more, hm, ht⟩
      · grind [List.length_append]
      · cases more with
        | nil =>
          have hl := hre record List.mem_cons_self
          rw [hrec] at hl
          simp only [List.append_nil] at hm
          rw [hm]
          simp only [List.length_append] at hl
          omega
        | cons first more =>
          have hf : first = t := (List.cons_eq_cons.mp ht).1.symm
          exact absurd (by rw [hm, hf]; simp) hfr
    · cases gap with
      | nil =>
        cases part with
        | nil => exact Nat.zero_le _
        | cons first part =>
          have hf : first = t := (List.cons_eq_cons.mp hr).1.symm
          exact absurd (by rw [hf]; simp) hfr
      | cons first gap => grind

end Scanning

/-! ### Decoding in pieces -/

section Decoding

variable (t : α) (judge : List α → Judgement φ ε) (overlong : List α → Option ε)

/-- What a whole stream yields: the items of its scan, and the refusal of the scan or of the record
it leaves open. -/
def verdict (stream : List α) : List φ × Option ε :=
  ((scan t judge stream).items,
    (scan t judge stream).refusal <|> overlong (scan t judge stream).rest)

variable {p : List α} {e : ε}

theorem verdict_refusal {stream : List α} (h : (verdict t judge overlong stream).2 = some e) :
    ∃ part, part <:+: stream ∧ t ∉ part ∧ (judge part = .refuse e ∨ overlong part = some e) := by
  unfold verdict at h
  dsimp only at h
  cases hr : (scan t judge stream).refusal with
  | some found =>
    rw [hr] at h
    cases h
    obtain ⟨record, hre, hf, hj⟩ := scan_refusal hr
    exact ⟨record, hre, hf, .inl hj⟩
  | none =>
    rw [hr] at h
    exact ⟨_, (scan_rest_suffix hr).isInfix, scan_rest hr, .inr h⟩

/-- A decoder between two pieces: the open record and the refusal it stopped at. -/
structure Decoder (α ε : Type) where
  buffer : List α
  failure : Option ε

/-- What one piece yields. -/
structure Outcome (φ ε : Type) where
  items : List φ
  error : Option ε

/-- Feeds one piece.  A decoder that stopped repeats its refusal. -/
def push (d : Decoder α ε) (piece : List α) : Decoder α ε × Outcome φ ε :=
  match d.failure with
  | some e => (d, ⟨[], some e⟩)
  | none =>
    let s := scan t judge (d.buffer ++ piece)
    match s.refusal <|> overlong s.rest with
    | some e => (⟨[], some e⟩, ⟨s.items, some e⟩)
    | none => (⟨s.rest, none⟩, ⟨s.items, none⟩)

def feed (d : Decoder α ε) : List (List α) → Decoder α ε × List (Outcome φ ε)
  | [] => (d, [])
  | piece :: pieces =>
    ((feed (push t judge overlong d piece).1 pieces).1,
      (push t judge overlong d piece).2 :: (feed (push t judge overlong d piece).1 pieces).2)

/-- Refusing an open record early agrees, in kind, with every refusal that could follow: of the
record once it is complete, and of the record while it grows. -/
structure Early (kind : ε → κ) : Prop where
  completes : ∀ r s e, overlong r = some e → ∃ e', judge (r ++ s) = .refuse e' ∧ kind e' = kind e
  grows : ∀ r s e, overlong r = some e → ∃ e', overlong (r ++ s) = some e' ∧ kind e' = kind e

/-- `d` is the decoder after the stream `p`: it stopped exactly when `p` is refused, with a refusal
of the same kind, and otherwise holds the record that `p` leaves open. -/
structure After (kind : ε → κ) (p : List α) (d : Decoder α ε) : Prop where
  failure : d.failure.map kind = (verdict t judge overlong p).2.map kind
  buffer : d.failure = none → d.buffer = (scan t judge p).rest

variable {t judge overlong} {kind : ε → κ}

theorem verdict_append_refused (early : Early judge overlong kind) (q : List α)
    (h : (verdict t judge overlong p).2 = some e) :
    (verdict t judge overlong (p ++ q)).1 = (verdict t judge overlong p).1 ∧
      (verdict t judge overlong (p ++ q)).2.map kind = some (kind e) := by
  simp only [verdict] at h ⊢
  cases hr : (scan t judge p).refusal with
  | some e' =>
    grind [scan_append_refused, Option.orElse_eq_orElse, Option.some.inj]
  | none =>
    simp only [hr, Option.orElse_eq_orElse, Option.orElse_none] at h
    rw [scan_append q hr]
    cases hs : splitRecord t ((scan t judge p).rest ++ q) with
    | none =>
      obtain ⟨e', hl, hk⟩ := early.grows _ q e h
      simp [scan_open judge (splitRecord_eq_none.mp hs), hl, hk]
    | some pair =>
      obtain ⟨record, rest⟩ := pair
      obtain ⟨hn, heq⟩ := splitRecord_eq_some.mp hs
      obtain ⟨s, rfl⟩ : ∃ s, record = (scan t judge p).rest ++ s := by
        have ho := scan_rest hr
        rcases List.append_eq_append_iff.mp heq with ⟨s, rfl, -⟩ | ⟨s, hre, hq⟩
        · exact ⟨s, rfl⟩
        · cases s with
          | nil => exact ⟨[], by simpa using hre.symm⟩
          | cons a s =>
            rw [hre] at ho
            obtain ⟨rfl, -⟩ := List.cons_eq_cons.mp hq
            simp at ho
      obtain ⟨e', hj, hk⟩ := early.completes _ s e h
      simp [scan_record hs, hj, hk]

variable {d : Decoder α ε}

theorem push_failed (h : d.failure = some e) (piece : List α) :
    push t judge overlong d piece = (d, ⟨[], some e⟩) := by
  simp only [push, h]

theorem push_error (d : Decoder α ε) (piece : List α) :
    (push t judge overlong d piece).2.error = (push t judge overlong d piece).1.failure := by
  unfold push
  split
  · rename_i h
    exact h.symm
  · dsimp only
    split <;> rfl

theorem feed_failed (h : d.failure = some e) (pieces : List (List α)) :
    feed t judge overlong d pieces = (d, pieces.map fun _ => ⟨[], some e⟩) := by
  induction pieces with
  | nil => rfl
  | cons piece pieces ih => simp only [feed, push_failed h, ih, List.map_cons]

theorem feed_error (h : d.failure = none) (pieces : List (List α)) :
    (feed t judge overlong d pieces).2.findSome? Outcome.error =
      (feed t judge overlong d pieces).1.failure := by
  induction pieces generalizing d with
  | nil => simp [feed, h]
  | cons piece pieces ih =>
    simp only [feed, List.findSome?_cons, push_error]
    cases hp : (push t judge overlong d piece).1.failure with
    | some e => simp [feed_failed hp, hp]
    | none => simpa using ih hp

theorem After.push (early : Early judge overlong kind) (h : After t judge overlong kind p d)
    (q : List α) :
    After t judge overlong kind (p ++ q) (push t judge overlong d q).1 ∧
      (verdict t judge overlong (p ++ q)).1 =
        (verdict t judge overlong p).1 ++ (Records.push t judge overlong d q).2.items := by
  obtain ⟨hf, hb⟩ := h
  cases hd : d.failure with
  | some e =>
    rw [hd] at hf
    obtain ⟨e', hv, hk⟩ : ∃ e', (verdict t judge overlong p).2 = some e' ∧ kind e' = kind e := by
      simpa using hf.symm
    obtain ⟨h1, h2⟩ := verdict_append_refused early q hv
    rw [push_failed hd]
    refine ⟨⟨?_, fun hn => by simp [hd] at hn⟩, by simp [h1]⟩
    rw [hd, h2, hk]
    rfl
  | none =>
    rw [hd] at hf
    have hv : (verdict t judge overlong p).2 = none := by simpa using hf.symm
    have hr : (scan t judge p).refusal = none := by grind [verdict]
    have hbu := hb hd
    have hsc := scan_append q hr
    cases hs : ((scan t judge (d.buffer ++ q)).refusal <|>
        overlong (scan t judge (d.buffer ++ q)).rest) with
    | some e =>
      have hp : Records.push t judge overlong d q =
          (⟨[], some e⟩, ⟨(scan t judge (d.buffer ++ q)).items, some e⟩) := by
        simp only [Records.push, hd, hs]
      rw [hp]
      rw [hbu] at hs ⊢
      exact ⟨⟨by simp only [verdict, hsc, hs], fun hn => by simp at hn⟩,
        by simp [verdict, hsc]⟩
    | none =>
      have hp : Records.push t judge overlong d q =
          (⟨(scan t judge (d.buffer ++ q)).rest, none⟩,
            ⟨(scan t judge (d.buffer ++ q)).items, none⟩) := by
        simp only [Records.push, hd, hs]
      rw [hp]
      rw [hbu] at hs ⊢
      exact ⟨⟨by simp only [verdict, hsc, hs], fun _ => by simp [hsc]⟩,
        by simp [verdict, hsc]⟩

theorem After.feed (early : Early judge overlong kind) (pieces : List (List α))
    (h : After t judge overlong kind p d) :
    After t judge overlong kind (p ++ pieces.flatten) (feed t judge overlong d pieces).1 ∧
      (verdict t judge overlong (p ++ pieces.flatten)).1 =
        (verdict t judge overlong p).1 ++
          (Records.feed t judge overlong d pieces).2.flatMap Outcome.items := by
  induction pieces generalizing p d with
  | nil => simpa [Records.feed] using h
  | cons piece pieces ih =>
    obtain ⟨hAfter, hItems⟩ := h.push early piece
    obtain ⟨hAfter', hItems'⟩ := ih hAfter
    simp only [Records.feed, List.flatten_cons, List.flatMap_cons, ← List.append_assoc]
    exact ⟨hAfter', by rw [hItems', hItems]⟩

theorem After.fresh (he : overlong [] = none) :
    After t judge overlong kind [] (⟨[], none⟩ : Decoder α ε) := by
  constructor <;> simp [verdict, scan_open, he]

theorem feed_fresh (early : Early judge overlong kind) (he : overlong [] = none)
    (pieces : List (List α)) :
    After t judge overlong kind pieces.flatten (feed t judge overlong ⟨[], none⟩ pieces).1 ∧
      (feed t judge overlong ⟨[], none⟩ pieces).2.flatMap Outcome.items =
        (scan t judge pieces.flatten).items := by
  have hf : After t judge overlong kind [] ⟨[], none⟩ := After.fresh he
  obtain ⟨ha, hi⟩ := hf.feed early pieces
  refine ⟨ha, ?_⟩
  simpa [verdict, scan_open] using hi.symm

end Decoding

end ProofKit.Records
