import MangoProtocol.TypeScript.Ndjson

/-! The line decoders of the two packages, record by record.  Each one handles the records of a
stream in order and puts each into a class.  On every cut of every stream they handle the same
records in the same classes exactly when no record within the limit is invalid UTF-8, which only the
TypeScript decoder repairs, or is blank with a vertical tab in it, which only the TypeScript decoder
takes for blank. -/

namespace MangoProtocol

open ProofKit ProofKit.Records

/-! ### The classes of a record -/

/-- What becomes of one record. -/
inductive RecordClass where
  | blank
  | tooLarge
  | notUtf8
  | handed (text : String)
  deriving DecidableEq, Repr

/-- A record of this class ends the stream, where `read` is the verdict of the parser. -/
def RecordClass.refused {φ : Type} (read : String → Option φ) : RecordClass → Bool
  | .blank => false
  | .tooLarge | .notUtf8 => true
  | .handed text => (read text).isNone

/-- The class that the Rust decoder gives a record, without its terminator. -/
def recordClass (limit : Nat) (content : List UInt8) : RecordClass :=
  if limit < content.length then .tooLarge
  else if isBlank content then .blank
  else
    match fromUtf8 content with
    | none => .notUtf8
    | some text => .handed text

def TypeScript.recordClass (limit : Nat) (content : List UInt8) : RecordClass :=
  if limit < content.length then .tooLarge
  else if blankLine (decodeText content) then .blank
  else .handed (decodeText content)

def isBlankByte (b : UInt8) : Bool := isAsciiWhitespace b || b == 0x0b

/-- The two decoders put this record into the same class: it is past the limit, or it is UTF-8 and
not blank with a vertical tab in it. -/
def Alike (limit : Nat) (content : List UInt8) : Prop :=
  limit < content.length ∨
    ((fromUtf8 content).isSome ∧ ¬(content.all isBlankByte ∧ 0x0b ∈ content))

instance (limit : Nat) (content : List UInt8) : Decidable (Alike limit content) :=
  inferInstanceAs (Decidable (_ ∨ _))

theorem utf8_ascii {bytes : List UInt8} (h : ∀ b ∈ bytes, b.toNat < 0x80) :
    utf8 (String.ofList (bytes.map fun b => Char.ofNat b.toNat)) = bytes := by
  rw [utf8, String.toList_ofList]
  induction bytes with
  | nil => rfl
  | cons b bytes ih =>
    have hb := h b List.mem_cons_self
    have hc : (Char.ofNat b.toNat).val.toNat = b.toNat := by
      have hv : b.toNat.isValidChar := .inl (by omega)
      rw [Char.ofNat, dif_pos hv]
      rfl
    rw [List.map_cons, List.flatMap_cons, ih fun other ho => h other (.tail _ ho)]
    simp only [String.utf8EncodeChar, hc, if_pos (show b.toNat ≤ 0x7f by omega)]
    simp

theorem isBlankByte_cases {b : UInt8} (h : isBlankByte b) :
    b = 32 ∨ b = 9 ∨ b = 10 ∨ b = 12 ∨ b = 13 ∨ b = 11 := by
  simpa [isBlankByte, isAsciiWhitespace, or_assoc] using h

variable {content : List UInt8} {platform : Platform} {limit : Nat}

theorem blankLine_of_bytes (h : content.all isBlankByte) :
    (fromUtf8 content).isSome ∧ TypeScript.blankLine (TypeScript.decodeText content) := by
  have hby := List.all_eq_true.mp h
  have ha := utf8_ascii fun b hb => by
    rcases isBlankByte_cases (hby b hb) with rfl | rfl | rfl | rfl | rfl | rfl <;> decide
  refine ⟨Option.isSome_iff_exists.mpr ⟨_, fromUtf8_eq_some.mpr ha.symm⟩, ?_⟩
  rw [TypeScript.decodeText, ← ha, fromUtf8Lossy_utf8, TypeScript.blankLine,
    String.toList_ofList, List.all_map, List.all_eq_true]
  intro b hb
  rcases isBlankByte_cases (hby b hb) with rfl | rfl | rfl | rfl | rfl | rfl <;> decide

theorem bytes_of_blankLine {text : String} (h : TypeScript.blankLine text) :
    (utf8 text).all isBlankByte := by
  have hch : ∀ c, TypeScript.isBlankChar c → ∀ b ∈ String.utf8EncodeChar c, isBlankByte b := by
    intro c hc
    simp only [TypeScript.isBlankChar, Bool.or_eq_true, beq_iff_eq, or_assoc] at hc
    rcases hc with rfl | rfl | rfl | rfl | rfl | rfl <;> decide +kernel
  rw [List.all_eq_true, utf8]
  intro b hb
  obtain ⟨c, hc, hby⟩ := List.mem_flatMap.mp hb
  exact hch c (List.all_eq_true.mp h c hc) b hby

theorem isBlank_iff : isBlank content ↔ content.all isBlankByte ∧ 0x0b ∉ content := by
  simp only [isBlank, List.all_eq_true]
  have ht : isAsciiWhitespace 0x0b = false := by decide
  grind [isBlankByte]

theorem recordClass_eq_iff :
    recordClass limit content = TypeScript.recordClass limit content ↔ Alike limit content := by
  unfold recordClass TypeScript.recordClass Alike
  by_cases hl : limit < content.length
  · simp [hl]
  simp only [hl, ↓reduceIte, false_or]
  by_cases hb : content.all isBlankByte
  · -- Every byte is blank: the classes differ by the vertical tab alone.
    obtain ⟨hs, ht⟩ := blankLine_of_bytes hb
    rw [if_pos ht]
    by_cases hta : 0x0b ∈ content
    · have hn : ¬isBlank content := fun h => (isBlank_iff.mp h).2 hta
      grind
    · rw [if_pos (isBlank_iff.mpr ⟨hb, hta⟩)]
      simp [hs, hta]
  · have hn : ¬isBlank content := fun h => hb (isBlank_iff.mp h).1
    rw [if_neg hn]
    cases heq : fromUtf8 content with
    | none =>
      simp only [Option.isSome_none, Bool.false_eq_true, false_and, iff_false]
      split <;> simp
    | some text =>
      have hc := fromUtf8_eq_some.mp heq
      have ht : TypeScript.decodeText content = text := by
        rw [TypeScript.decodeText, hc, fromUtf8Lossy_utf8]
      have hli : ¬TypeScript.blankLine text := fun h =>
        hb (hc ▸ bytes_of_blankLine h)
      rw [ht, if_neg hli]
      simp [hb]

/-! ### The verdict on one record -/

section Verdicts

variable {φ : Type} (read : String → Option φ)

/-- `decode_line` as far as it depends on the text of the line: `read` is the verdict of the JSON
parser and of the validator on a text, and a line that is not UTF-8 is refused. -/
def readLine (refuse : List UInt8 → CodecError) (line : List UInt8) (_limit : Nat) :
    Except CodecError φ :=
  match (fromUtf8 (stripCarriageReturn line)).bind read with
  | some frame => .ok frame
  | none => .error (refuse line)

def TypeScript.readText (refuse : String → Nat → TypeScript.CodecError) (text : String)
    (byteLength : Nat) : Except TypeScript.CodecError φ :=
  match read text with
  | some frame => .ok frame
  | none => .error (refuse text byteLength)

theorem TypeScript.stripCarriageReturn_eq (record : List UInt8) :
    TypeScript.stripCarriageReturn record = MangoProtocol.stripCarriageReturn record := by
  rw [TypeScript.stripCarriageReturn, MangoProtocol.stripCarriageReturn, List.dropLast_eq_take]
  rfl

def TypeScript.judgeLine (parse : String → Nat → Except TypeScript.CodecError φ) (limit : Nat)
    (record : List UInt8) : Judgement φ TypeScript.CodecError :=
  let content := TypeScript.stripCarriageReturn record
  if limit < content.length then
    .refuse ⟨.tooLarge, "line is " ++ content.length.repr ++ " bytes; expected at most " ++
      limit.repr, none⟩
  else if blankLine (decodeText content) then .skip
  else
    match parse (decodeText content) content.length with
    | .ok frame => .item frame
    | .error error => .refuse error

variable {read}

theorem judgeLine_refuses (refuse : List UInt8 → CodecError) (limit : Nat) (line : List UInt8) :
    (judgeLine (readLine read refuse) limit line).refuses =
      (recordClass limit (stripCarriageReturn line)).refused read := by
  unfold judgeLine recordClass readLine
  grind [Judgement.refuses, RecordClass.refused]

theorem TypeScript.judgeLine_refuses (refuse : String → Nat → TypeScript.CodecError) (limit : Nat)
    (record : List UInt8) :
    (TypeScript.judgeLine (readText read refuse) limit record).refuses =
      (TypeScript.recordClass limit (MangoProtocol.stripCarriageReturn record)).refused read := by
  unfold TypeScript.judgeLine TypeScript.recordClass readText
  grind [stripCarriageReturn_eq, Judgement.refuses, RecordClass.refused]

end Verdicts

/-! ### The loop of the TypeScript decoder -/

namespace TypeScript.LineDecoder

variable {bytes : List UInt8} {start : Nat}

theorem indexOf_eq_none (hc : lineFeed ∉ bytes.take start)
    (h : indexOf bytes lineFeed start = none) : lineFeed ∉ bytes := by
  rw [indexOf, Option.map_eq_none_iff, List.findIdx?_eq_none_iff] at h
  rw [← List.take_append_drop start bytes, List.mem_append, not_or]
  exact ⟨hc, fun hm => by simpa using h _ hm⟩

theorem indexOf_eq_some {index : Nat} (hc : lineFeed ∉ bytes.take start)
    (h : indexOf bytes lineFeed start = some index) :
    splitRecord newline bytes = some (bytes.take index, bytes.drop (index + 1)) := by
  obtain ⟨offset, hof, rfl⟩ := Option.map_eq_some_iff.mp h
  obtain ⟨hlt, hf, hb⟩ := List.findIdx?_eq_some_iff_getElem.mp hof
  rw [List.length_drop] at hlt
  refine splitRecord_eq_some.mpr ⟨?_, ?_⟩
  · rw [Nat.add_comm, List.take_add, List.mem_append, not_or]
    refine ⟨hc, fun hm => ?_⟩
    obtain ⟨i, hi, heq⟩ := List.mem_iff_getElem.mp hm
    rw [List.length_take, List.length_drop] at hi
    have ho := hb i (by omega)
    rw [List.getElem_take] at heq
    rw [heq] at ho
    exact ho (by decide)
  · grind [Nat.add_comm, lineFeed, newline, List.getElem_cons_drop, List.take_append_drop]

variable {φ : Type} (parse : String → Nat → Except TypeScript.CodecError φ)

/-- What the loop leaves of a decoder: the outcome of the scan of its bytes, and a decoder that has
stopped or that holds the record the scan left open. -/
structure Drains (self : TypeScript.LineDecoder) (frames : List φ)
    (result : TypeScript.LineDecoder × LineDecoderOutcome φ) : Prop where
  limit : result.1.limit = self.limit
  frames : result.2.frames =
    frames ++ (scan newline (judgeLine parse self.limit) self.pending).items
  error : result.2.error = (scan newline (judgeLine parse self.limit) self.pending).refusal
  refusal : result.1.refusal = (result.2.error <|> self.refusal)
  pending : result.2.error = none →
    result.1.pending = (scan newline (judgeLine parse self.limit) self.pending).rest

theorem consume_eq (self : TypeScript.LineDecoder) {record : List UInt8} (frames : List φ)
    (h : ¬self.limit < (TypeScript.stripCarriageReturn record).length) :
    self.consume parse (TypeScript.stripCarriageReturn record) frames =
      match judgeLine parse self.limit record with
      | .skip => (self, ⟨frames, none⟩)
      | .item frame => (self, ⟨frames ++ [frame], none⟩)
      | .refuse error => ({ self with refusal := some error }, ⟨frames, some error⟩) := by
  simp only [consume, judgeLine, decodeRecord, if_neg h]
  grind

theorem drainRecords_drains (self : TypeScript.LineDecoder) (frames : List φ)
    (hc : lineFeed ∉ self.pending.take self.searched) :
    Drains parse self frames (self.drainRecords parse frames) := by
  induction hn : self.pending.length using Nat.strong_induction_on generalizing self frames with
  | _ n ih =>
    rw [drainRecords]
    split
    · rename_i hi
      have ho : newline ∉ self.pending := indexOf_eq_none hc hi
      constructor <;> simp [scan_open _ ho]
    · rename_i index hi
      have hs := indexOf_eq_some hc hi
      have hle := splitRecord_length hs
      by_cases hl :
          self.limit < (TypeScript.stripCarriageReturn (self.pending.take index)).length
      · have hj : judgeLine parse self.limit (self.pending.take index) =
            .refuse (self.refuse (TypeScript.stripCarriageReturn (self.pending.take index)).length
              false).2 := by
          rw [judgeLine, if_pos hl]
          rfl
        rw [if_pos hl]
        constructor <;> simp [scan_record hs, hj, refuse]
      · rw [if_neg hl, consume_eq parse
          { self with pending := self.pending.drop (index + 1), searched := 0 } frames hl]
        cases hj : judgeLine parse self.limit (self.pending.take index) with
        | skip =>
          obtain ⟨h1, h2, h3, h4, h5⟩ := ih (self.pending.drop (index + 1)).length (hn ▸ hle)
            { self with pending := self.pending.drop (index + 1), searched := 0 } frames
            (by simp) rfl
          constructor <;> simp_all [scan_record hs]
        | item frame =>
          obtain ⟨h1, h2, h3, h4, h5⟩ := ih (self.pending.drop (index + 1)).length (hn ▸ hle)
            { self with pending := self.pending.drop (index + 1), searched := 0 }
            (frames ++ [frame]) (by simp) rfl
          constructor <;> simp_all [scan_record hs]
        | refuse error => constructor <;> simp [scan_record hs, hj]

theorem drainRecords_free {self : TypeScript.LineDecoder} (hf : newline ∉ self.pending)
    (frames : List φ) : self.drainRecords parse frames = (self, ⟨frames, none⟩) := by
  rw [drainRecords]
  split
  · rfl
  · rename_i index hi
    have hs := indexOf_eq_some (fun hm => hf (List.mem_of_mem_take hm)) hi
    rw [splitRecord_eq_none.mpr hf] at hs
    cases hs

end TypeScript.LineDecoder

/-! ### What a call handles and leaves -/

/-- An open record that is refused early. -/
def isOverlong (limit : Nat) (record : List UInt8) : Bool :=
  decide (limit < (stripCarriageReturn record).length)

section Calls

variable {φ : Type}

def LineDecoder.handled (decode : List UInt8 → Nat → Except CodecError φ) (self : LineDecoder) :
    DecoderCall → List (List UInt8)
  | .push bytes =>
    if self.failure.isSome then []
    else
      (Records.handled newline (judgeLine decode self.maxFrameBytes)
        (isOverlong self.maxFrameBytes) (self.buffer ++ bytes)).map stripCarriageReturn
  | .finish => if self.failure.isSome then [] else [stripCarriageReturn self.buffer]

/-- The records that successive calls handle. -/
def LineDecoder.history (decode : List UInt8 → Nat → Except CodecError φ) (self : LineDecoder) :
    List DecoderCall → List (List UInt8)
  | [] => []
  | call :: calls =>
    self.handled decode call ++ LineDecoder.history decode (self.call decode call).1 calls

def TypeScript.LineDecoder.handled (parse : String → Nat → Except TypeScript.CodecError φ)
    (self : TypeScript.LineDecoder) : DecoderCall → List (List UInt8)
  | .push bytes =>
    if self.refusal.isSome then []
    else
      (Records.handled newline (TypeScript.judgeLine parse self.limit) (isOverlong self.limit)
        (self.pending ++ bytes)).map TypeScript.stripCarriageReturn
  | .finish =>
    if self.refusal.isSome then [] else [TypeScript.stripCarriageReturn self.pending]

/-- The records that successive calls handle. -/
def TypeScript.LineDecoder.history (parse : String → Nat → Except TypeScript.CodecError φ)
    (self : TypeScript.LineDecoder) : List DecoderCall → List (List UInt8)
  | [] => []
  | call :: calls =>
    self.handled parse call ++
      TypeScript.LineDecoder.history parse (self.call parse call).1 calls

theorem LineDecoder.push_left (decode : List UInt8 → Nat → Except CodecError φ) {self : LineDecoder}
    (bytes : List UInt8) (h : self.failure = none) :
    let found := scan newline (judgeLine decode self.maxFrameBytes) (self.buffer ++ bytes)
    (self.push decode bytes).1.failure.isSome =
        (found.refusal.isSome || isOverlong self.maxFrameBytes found.rest) ∧
      ((self.push decode bytes).1.failure = none →
        (self.push decode bytes).1.buffer = found.rest) := by
  intro found
  have hp := congrArg Prod.fst (self.push_records decode bytes)
  have hf := congrArg Decoder.failure hp
  have hb := congrArg Decoder.buffer hp
  simp only [LineDecoder.records, Records.push, h] at hf hb
  rw [hf, hb]
  change (_ = (found.refusal.isSome || _)) ∧ (_ → _ = found.rest)
  cases hr : found.refusal with
  | some error => simp [found]
  | none =>
    by_cases hl : self.maxFrameBytes < (stripCarriageReturn found.rest).length
    · simp [found, overlongLine, isOverlong, hl]
    · simp [found, overlongLine, isOverlong, hl]

variable {self : TypeScript.LineDecoder}

theorem TypeScript.LineDecoder.push_left (parse : String → Nat → Except TypeScript.CodecError φ)
    (bytes : List UInt8) (h : self.refusal = none) (hc : newline ∉ self.pending)
    (hs : self.searched ≤ self.pending.length) :
    let found := scan newline (TypeScript.judgeLine parse self.limit) (self.pending ++ bytes)
    let left := (self.push parse bytes).1
    left.limit = self.limit ∧
      left.refusal.isSome = (found.refusal.isSome || isOverlong self.limit found.rest) ∧
      (left.refusal = none → left.pending = found.rest ∧ left.searched ≤ left.pending.length) := by
  intro found left
  have hf : lineFeed ∉ (self.pending ++ bytes).take self.searched := by
    rw [List.take_append_of_le_length hs]
    exact fun hm => hc (List.mem_of_mem_take hm)
  obtain ⟨hl, -, he, hr, hp⟩ :=
    drainRecords_drains parse { self with pending := self.pending ++ bytes } [] hf
  have hpu : left = ({ self with pending := self.pending ++ bytes }.drain parse false).1 := by
    simp only [left, TypeScript.LineDecoder.push, h]
  rw [hpu, TypeScript.LineDecoder.drain]
  generalize TypeScript.LineDecoder.drainRecords parse
    { self with pending := self.pending ++ bytes } [] = drained at *
  change drained.2.error = found.refusal at he
  change _ = (drained.2.error <|> self.refusal) at hr
  change _ → _ = found.rest at hp
  rw [← he]
  cases hca : drained.2.error with
  | some error => grind
  | none => grind [TypeScript.stripCarriageReturn_eq, isOverlong, TypeScript.LineDecoder.refuse]

variable (read : String → Option φ) (refuse : List UInt8 → CodecError)
  (refuse' : String → Nat → TypeScript.CodecError)

theorem LineDecoder.finish_left {self : LineDecoder} (h : self.failure = none)
    (hf : (stripCarriageReturn self.buffer).length ≤ self.maxFrameBytes) :
    (self.finish (readLine read refuse)).1.failure.isSome =
        (recordClass self.maxFrameBytes (stripCarriageReturn self.buffer)).refused read ∧
      (self.finish (readLine read refuse)).1.buffer = [] ∧
      (self.finish (readLine read refuse)).1.maxFrameBytes = self.maxFrameBytes := by
  simp only [LineDecoder.finish, h, recordClass, readLine, if_neg (Nat.not_lt.mpr hf)]
  grind [RecordClass.refused]

theorem TypeScript.LineDecoder.finish_left (h : self.refusal = none)
    (hc : newline ∉ self.pending)
    (hf : (MangoProtocol.stripCarriageReturn self.pending).length ≤ self.limit) :
    let left := (self.finish (TypeScript.readText read refuse')).1
    left.refusal.isSome =
        (TypeScript.recordClass self.limit (MangoProtocol.stripCarriageReturn self.pending)).refused
          read ∧
      left.pending = [] ∧ left.searched = 0 ∧ left.limit = self.limit := by
  intro left
  have hd := drainRecords_free (TypeScript.readText read refuse') hc []
  have hl : left = (({ self with pending := [], searched := 0 } : TypeScript.LineDecoder).consume
      (TypeScript.readText read refuse')
        (MangoProtocol.stripCarriageReturn self.pending) []).1 := by
    simp only [left, TypeScript.LineDecoder.finish, h, TypeScript.LineDecoder.drain, hd,
      TypeScript.stripCarriageReturn_eq, ↓reduceIte]
  rw [hl]
  simp only [TypeScript.LineDecoder.consume, TypeScript.recordClass, TypeScript.decodeRecord,
    if_neg (Nat.not_lt.mpr hf), TypeScript.readText]
  grind [RecordClass.refused]

/-! ### Both decoders -/

/-- The two decoders have stopped together, or hold the same open record. -/
structure Lockstep (rust : LineDecoder) (ts : TypeScript.LineDecoder) : Prop where
  limit : ts.limit = rust.maxFrameBytes
  stopped : ts.refusal.isSome = rust.failure.isSome
  pending : rust.failure = none → ts.pending = rust.buffer
  searched : rust.failure = none → ts.searched ≤ ts.pending.length
  opened : rust.failure = none → newline ∉ rust.buffer
  fits : rust.failure = none → (stripCarriageReturn rust.buffer).length ≤ rust.maxFrameBytes

variable {read refuse refuse'} {rust : LineDecoder} {ts : TypeScript.LineDecoder}

theorem Lockstep.refusal (h : Lockstep rust ts) (hf : rust.failure = none) :
    ts.refusal = none := by
  have hs := h.stopped
  simp_all

theorem Lockstep.stopped_call (h : Lockstep rust ts) {error : CodecError}
    (hf : rust.failure = some error) (call : DecoderCall) :
    ts.handled (TypeScript.readText read refuse') call =
        rust.handled (readLine read refuse) call ∧
      Lockstep (rust.call (readLine read refuse) call).1
        (ts.call (TypeScript.readText read refuse') call).1 := by
  have hs := h.stopped
  rw [hf] at hs
  obtain ⟨error', hr⟩ := Option.isSome_iff_exists.mp hs
  have hts : (ts.call (TypeScript.readText read refuse') call).1 = ts := by
    cases call <;>
      simp only [TypeScript.LineDecoder.call, TypeScript.LineDecoder.push,
        TypeScript.LineDecoder.finish, hr]
  rw [LineDecoder.call_failed _ hf, hts]
  simp_all [TypeScript.LineDecoder.handled, LineDecoder.handled]

theorem Lockstep.push (h : Lockstep rust ts) (hf : rust.failure = none) (bytes : List UInt8)
    (ha : ∀ content ∈ rust.handled (readLine read refuse) (.push bytes),
      Alike rust.maxFrameBytes content) :
    ts.handled (TypeScript.readText read refuse') (.push bytes) =
        rust.handled (readLine read refuse) (.push bytes) ∧
      Lockstep (rust.push (readLine read refuse) bytes).1
        (ts.push (TypeScript.readText read refuse') bytes).1 := by
  have hr := h.refusal hf
  have hp := h.pending hf
  have hs : ∀ record ∈ judged newline (judgeLine (readLine read refuse) rust.maxFrameBytes)
      (rust.buffer ++ bytes),
      (TypeScript.judgeLine (TypeScript.readText read refuse') ts.limit record).refuses =
        (judgeLine (readLine read refuse) rust.maxFrameBytes record).refuses := by
    intro record hre
    have hme : stripCarriageReturn record ∈ rust.handled (readLine read refuse) (.push bytes) := by
      simp only [LineDecoder.handled, hf, Option.isSome_none, Bool.false_eq_true, ↓reduceIte]
      exact List.mem_map_of_mem (List.mem_append_left _ hre)
    rw [judgeLine_refuses, TypeScript.judgeLine_refuses, h.limit,
      recordClass_eq_iff.mpr (ha _ hme)]
  obtain ⟨-, hst, hres⟩ := judged_congr hs
  obtain ⟨hru, hb⟩ := LineDecoder.push_left (readLine read refuse) bytes hf
  obtain ⟨hli, hts, hl⟩ := TypeScript.LineDecoder.push_left
    (TypeScript.readText read refuse') bytes hr (hp ▸ h.opened hf)
    (h.searched hf)
  have hm := rust.push_maxFrameBytes (readLine read refuse) bytes
  rw [hp] at hts hl
  rw [hres, hst, h.limit, ← hru] at hts
  have hh : Records.handled newline
      (TypeScript.judgeLine (TypeScript.readText read refuse') ts.limit)
      (isOverlong rust.maxFrameBytes) (rust.buffer ++ bytes) = _ := handled_congr hs
  refine ⟨?_, hli.trans (h.limit.trans hm.symm), hts, fun hn => ?_, fun hn => ?_,
    fun hn => ?_, fun hn => ?_⟩
  · simp only [TypeScript.LineDecoder.handled, LineDecoder.handled, hf, hr, hp,
      funext TypeScript.stripCarriageReturn_eq, Option.isSome_none, Bool.false_eq_true, ↓reduceIte]
    rw [← hh, h.limit]
  · simp_all
  · exact (hl (by simpa [hn] using hts)).2
  · rw [hb hn]
    apply scan_rest
    simp_all
  · grind [isOverlong]

theorem Lockstep.finish (h : Lockstep rust ts) (hf : rust.failure = none)
    (ha : Alike rust.maxFrameBytes (stripCarriageReturn rust.buffer)) :
    Lockstep (rust.finish (readLine read refuse)).1
      (ts.finish (TypeScript.readText read refuse')).1 := by
  have hp := h.pending hf
  have hfi := h.fits hf
  have hc : newline ∉ ts.pending := hp ▸ h.opened hf
  obtain ⟨hr, hb, hm⟩ := LineDecoder.finish_left read refuse hf hfi
  obtain ⟨hts, hle, hs, hl⟩ := TypeScript.LineDecoder.finish_left read refuse'
    (h.refusal hf) hc (by rw [hp, h.limit]; exact hfi)
  refine ⟨hl.trans (h.limit.trans hm.symm), ?_, fun _ => hle.trans hb.symm,
    fun _ => by rw [hs]; exact Nat.zero_le _, fun _ => by simp [hb],
    fun _ => by simp [hb, stripCarriageReturn]⟩
  rw [hts, hr, hp, h.limit, recordClass_eq_iff.mpr ha]

theorem LineDecoder.call_finish (decode : List UInt8 → Nat → Except CodecError φ)
    (self : LineDecoder) : (self.call decode .finish).1 = (self.finish decode).1 := by
  rcases hf : self.finish decode with ⟨decoder, frames | error⟩ <;>
    simp only [LineDecoder.call, hf]

theorem LineDecoder.call_maxFrameBytes (decode : List UInt8 → Nat → Except CodecError φ)
    (self : LineDecoder) (call : DecoderCall) :
    (self.call decode call).1.maxFrameBytes = self.maxFrameBytes := by
  cases call with
  | push bytes => exact self.push_maxFrameBytes decode bytes
  | finish => grind [LineDecoder.call_finish, LineDecoder.finish]

theorem Lockstep.call (h : Lockstep rust ts) (call : DecoderCall)
    (ha : ∀ content ∈ rust.handled (readLine read refuse) call,
      Alike rust.maxFrameBytes content) :
    ts.handled (TypeScript.readText read refuse') call =
        rust.handled (readLine read refuse) call ∧
      Lockstep (rust.call (readLine read refuse) call).1
        (ts.call (TypeScript.readText read refuse') call).1 := by
  cases hf : rust.failure with
  | some error => exact h.stopped_call hf call
  | none =>
    cases call with
    | push bytes => exact h.push hf bytes ha
    | finish =>
      have hh : rust.handled (readLine read refuse) .finish =
          [stripCarriageReturn rust.buffer] := by
        simp [LineDecoder.handled, hf]
      refine ⟨?_, ?_⟩
      · simp [TypeScript.LineDecoder.handled, hh, h.refusal hf, h.pending hf,
          TypeScript.stripCarriageReturn_eq]
      · rw [LineDecoder.call_finish]
        exact h.finish hf (ha _ (by rw [hh]; exact List.mem_singleton_self _))

theorem Lockstep.history (h : Lockstep rust ts) (calls : List DecoderCall)
    (ha : ∀ content ∈ rust.history (readLine read refuse) calls,
      Alike rust.maxFrameBytes content) :
    ts.history (TypeScript.readText read refuse') calls =
      rust.history (readLine read refuse) calls := by
  induction calls generalizing rust ts with
  | nil => rfl
  | cons call calls ih =>
    simp only [LineDecoder.history, List.mem_append] at ha
    obtain ⟨hh, hl⟩ := h.call call fun content hm => ha content (.inl hm)
    have hma := rust.call_maxFrameBytes (readLine read refuse) call
    rw [TypeScript.LineDecoder.history, LineDecoder.history, hh,
      ih hl fun content hm => hma ▸ ha content (.inr hm)]

end Calls

/-- On every sequence of pushes and ends of a stream, the two decoders handle the same records and
give each the same class, exactly when each record is past the limit, or is valid UTF-8 and not
blank with a vertical tab in it. -/
theorem LineDecoder.history_classes_iff {φ : Type} {limit : Nat}
    (atLeast : minMaxFrameBytes ≤ limit)
    (read : String → Option φ) (refuse : List UInt8 → CodecError)
    (refuse' : String → Nat → TypeScript.CodecError) (calls : List DecoderCall) :
    ((TypeScript.LineDecoder.new limit atLeast).history
      (TypeScript.readText read refuse') calls).map
          (fun content => (content, TypeScript.recordClass limit content)) =
        ((LineDecoder.new limit atLeast).history (readLine read refuse) calls).map
          (fun content => (content, recordClass limit content)) ↔
      ∀ content ∈ (LineDecoder.new limit atLeast).history (readLine read refuse) calls,
        Alike limit content := by
  constructor
  · intro h content hm
    have hc := congrArg (List.map Prod.fst) h
    simp only [List.map_map, Function.comp_def, List.map_id'] at hc
    rw [hc] at h
    exact recordClass_eq_iff.mp (Prod.mk.inj (List.map_inj_left.mp h content hm)).2.symm
  · intro h
    have hl : Lockstep (LineDecoder.new limit atLeast)
        (TypeScript.LineDecoder.new limit atLeast) :=
      ⟨rfl, rfl, fun _ => rfl, fun _ => le_rfl, fun _ => List.not_mem_nil, fun _ => Nat.zero_le _⟩
    rw [hl.history calls h]
    refine List.map_congr_left fun content hm => ?_
    rw [recordClass_eq_iff.mpr (h content hm)]

/-- The records and classes of the Rust decoder, for a parser that takes every text. -/
def sampleClasses (calls : List DecoderCall) : List (List UInt8 × RecordClass) :=
  ((LineDecoder.new 4096 minMaxFrameBytes_le).history
    (readLine some fun _ => CodecError.new .invalidJson "") calls).map
    fun content => (content, recordClass 4096 content)

def TypeScript.sampleClasses (calls : List DecoderCall) : List (List UInt8 × RecordClass) :=
  ((TypeScript.LineDecoder.new 4096 TypeScript.minMaxFrameBytes_le).history
    (TypeScript.readText some fun text _ => ⟨.invalidJson, text, none⟩) calls).map
    fun content => (content, TypeScript.recordClass 4096 content)

/-- Two records, of which the second has no terminator, cut inside the first. -/
theorem LineDecoder.history_classes_iff_records :
    let calls := [.push [0x7b], .push [0x7d, 13, 10, 0x5b], .finish]
    sampleClasses calls =
        [([0x7b, 0x7d], .handed (String.ofList ['\x7b', '\x7d'])), ([0x5b], .handed "[")] ∧
      TypeScript.sampleClasses calls = sampleClasses calls := by
  intro calls
  refine ⟨by decide +kernel, (LineDecoder.history_classes_iff (by decide) some
    (fun _ => CodecError.new .invalidJson "") (fun text _ => ⟨.invalidJson, text, none⟩)
    calls).mpr ?_⟩
  decide +kernel

/-- A line of one vertical tab is blank to one decoder only, and a line of one byte that is not
UTF-8 is refused by one and repaired by the other. -/
theorem LineDecoder.history_classes_differ :
    sampleClasses [.push [0x0b, 10], .finish] = [([0x0b], .handed "\x0b"), ([], .blank)] ∧
      TypeScript.sampleClasses [.push [0x0b, 10], .finish] = [([0x0b], .blank), ([], .blank)] ∧
      sampleClasses [.push [0xff, 10], .finish] = [([0xff], .notUtf8)] ∧
      TypeScript.sampleClasses [.push [0xff, 10], .finish] =
        [([0xff], .handed "\uFFFD"), ([], .blank)] := by
  decide +kernel

/-! ### The decoder of the crate -/

/-- A line that the parser and the validator of the crate take, as a frame. -/
def readFrame (platform : Platform) (text : String) : Option Frame :=
  match fromSlice platform (utf8 text) with
  | .error _ => none
  | .ok frame =>
    match validate platform frame with
    | .error _ => none
    | .ok () => some frame

theorem decodeLine_toOption {line : List UInt8} (atLeast : minMaxFrameBytes ≤ limit)
    (hu : ∀ line, fromUtf8 line = none → platform.parse line = none)
    (hl : ¬limit < (stripCarriageReturn line).length)
    (hb : ¬isBlank (stripCarriageReturn line)) :
    (decodeLine platform line limit).toOption =
      (fromUtf8 (stripCarriageReturn line)).bind (readFrame platform) := by
  have hc : checkedAtLeast "max_frame_bytes" limit minMaxFrameBytes = .ok limit := by
    rw [checkedAtLeast, if_neg (Nat.not_lt.mpr atLeast)]
  simp only [decodeLine, hc, if_neg hl, if_neg hb]
  cases hf : fromUtf8 (stripCarriageReturn line) with
  | none =>
    simp only [fromSlice, hu _ hf, Option.bind_none]
    split <;> rfl
  | some text =>
    rw [Option.bind_some, readFrame, ← fromUtf8_eq_some.mp hf]
    cases fromSlice platform (stripCarriageReturn line) with
    | error error =>
      dsimp only
      split <;> rfl
    | ok frame =>
      dsimp only
      cases validate platform frame <;> rfl

/-- If the parser refuses what is not UTF-8, the verdict of `decode_line` on the records of a stream
is the one of a reader of texts. -/
theorem judgeLine_decodeLine (atLeast : minMaxFrameBytes ≤ limit)
    (hu : ∀ line, fromUtf8 line = none → platform.parse line = none) :
    ∃ refuse, judgeLine (decodeLine platform) limit =
      judgeLine (readLine (readFrame platform) refuse) limit := by
  refine ⟨fun line =>
    match decodeLine platform line limit with
    | .error error => error
    | .ok _ => CodecError.new .schema "", funext fun line => ?_⟩
  unfold judgeLine
  dsimp only
  split
  · rfl
  split
  · rfl
  rename_i hl hb
  have hr := decodeLine_toOption atLeast hu hl hb
  rw [readLine, ← hr]
  cases decodeLine platform line limit <;> rfl

end MangoProtocol
