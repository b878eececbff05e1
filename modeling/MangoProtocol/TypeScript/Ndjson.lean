import MangoProtocol.Codec.LineDecoder
import MangoProtocol.Codec.Utf8

/-! The NDJSON line codec of the TypeScript package.  Its line decoder keeps the bytes it has not
consumed and how many of them it has searched for a newline, decodes the bytes of a record to text
before it looks at them, and replaces what is not UTF-8. -/

namespace MangoProtocol.TypeScript

/-! ### Refusals and limits -/

inductive CodecErrorKind where
  | invalidJson
  | schema
  | tooLarge
  | empty
  | chunkVersion
  | chunkHeader
  | chunkCount
  | chunkIndex
  | chunkDribble
  deriving DecidableEq, Repr

structure CodecError where
  kind : CodecErrorKind
  message : String
  frameType : Option String := none
  deriving DecidableEq, Repr

/-- What the codecs throw. -/
inductive Thrown where
  | rangeError (message : String)
  | codecError (error : CodecError)
  deriving DecidableEq, Repr

def resolveIntegerAtLeast (name : String) (value : Option Nat) (fallback floor : Nat) :
    Except Thrown Nat :=
  let resolved := value.getD fallback
  if resolved < floor then
    .error (.rangeError (name ++ " is " ++ resolved.repr ++ "; expected an integer of at least " ++
      floor.repr))
  else .ok resolved

theorem resolveIntegerAtLeast_ok {name : String} {value : Option Nat}
    {fallback floor resolved : Nat}
    (h : resolveIntegerAtLeast name value fallback floor = .ok resolved) :
    resolved = value.getD fallback ∧ floor ≤ resolved := by
  unfold resolveIntegerAtLeast at h
  dsimp only at h
  split at h <;> cases h
  rename_i hf
  exact ⟨rfl, Nat.not_lt.mp hf⟩

def defaultMaxFrameBytes : Nat := 16 * 1024 * 1024

def minMaxFrameBytes : Nat := 4096

theorem minMaxFrameBytes_le : minMaxFrameBytes ≤ 4096 := Nat.le_refl 4096

def resolveFrameLimit (maxFrameBytes : Option Nat) : Except Thrown Nat :=
  resolveIntegerAtLeast "maxFrameBytes" maxFrameBytes defaultMaxFrameBytes minMaxFrameBytes

/-! ### Records -/

def lineFeed : UInt8 := 0x0a

def carriageReturn : UInt8 := 0x0d

/-- The class of the pattern `BLANK_LINE`: tab, line feed, vertical tab, form feed, carriage return
and space. -/
def isBlankChar (c : Char) : Bool :=
  c == '\t' || c == '\n' || c == '\x0b' || c == '\x0c' || c == '\r' || c == ' '

def blankLine (text : String) : Bool := text.toList.all isBlankChar

/-- `decoder.decode`: a `TextDecoder` of UTF-8 that is not fatal puts U+FFFD in place of what is not
UTF-8, and keeps a byte order mark. -/
def decodeText (bytes : List UInt8) : String := fromUtf8Lossy bytes

def stripCarriageReturn (record : List UInt8) : List UInt8 :=
  if record.getLast? = some carriageReturn then record.take (record.length - 1) else record

/-- Encodes one frame as the bytes of a line, without a terminator; `serialise` is `assertFrame` and
the UTF-8 bytes of `JSON.stringify`. -/
def encodeFrameBytes {φ : Type} (serialise : φ → Except CodecError (List UInt8)) (frame : φ)
    (maxFrameBytes : Option Nat) : Except Thrown (List UInt8) := do
  let limit ← resolveFrameLimit maxFrameBytes
  let bytes ← (serialise frame).mapError .codecError
  if limit < bytes.length then
    throw (.codecError
      ⟨.tooLarge, "frame is " ++ bytes.length.repr ++ " bytes; expected at most " ++
      limit.repr, none⟩)
  return bytes

section Records

/-! `parse` is `JSON.parse` and `assertFrame`, of a text and its length in bytes. -/

variable {φ : Type} (parse : String → Nat → Except CodecError φ)

def decodeRecord (text : String) (byteLength limit : Nat) : Except CodecError φ :=
  if limit < byteLength then
    .error ⟨.tooLarge, "line is " ++ byteLength.repr ++ " bytes; expected at most " ++ limit.repr,
      none⟩
  else parse text byteLength

def decodeLine (line : List UInt8) (limit : Nat) : Except CodecError φ :=
  let bytes := stripCarriageReturn line
  if limit < bytes.length then
    .error ⟨.tooLarge, "line is " ++ bytes.length.repr ++ " bytes; expected at most " ++ limit.repr,
      none⟩
  else
    let text := decodeText bytes
    if blankLine text then .error ⟨.empty, "line is blank; expected one JSON object", none⟩
    else decodeRecord parse text bytes.length limit

/-! ### The line decoder -/

/-- What one call produced: frames, and the refusal that ended the stream. -/
structure LineDecoderOutcome (φ : Type) where
  frames : List φ
  error : Option CodecError

/-- Splits a byte stream into records and decodes each one.  A decoder is only built at or above the
floor of its limit. -/
@[ext]
structure LineDecoder where
  limit : Nat
  pending : List UInt8
  searched : Nat
  refusal : Option CodecError
  atLeast : minMaxFrameBytes ≤ limit

namespace LineDecoder

def new (limit : Nat) (atLeast : minMaxFrameBytes ≤ limit) : LineDecoder :=
  ⟨limit, [], 0, none, atLeast⟩

/-- `indexOf(byte, start)`: the first position of a byte at or after another. -/
def indexOf (bytes : List UInt8) (byte : UInt8) (start : Nat) : Option Nat :=
  ((bytes.drop start).findIdx? (· == byte)).map (· + start)

/-- Refuses a line past the limit and ends the stream; `opened` says that its terminator has not
arrived. -/
def refuse (self : LineDecoder) (byteLength : Nat) (opened : Bool) : LineDecoder × CodecError :=
  let measured := if opened then "partial line is already" else "line is"
  let refusal : CodecError := ⟨.tooLarge, measured ++ " " ++ byteLength.repr ++
    " bytes; expected at most " ++ self.limit.repr, none⟩
  ({ self with refusal := some refusal, pending := [], searched := 0 }, refusal)

/-- Decodes one record whose terminator is stripped, or latches the refusal that ends the stream. -/
def consume (self : LineDecoder) (content : List UInt8) (frames : List φ) :
    LineDecoder × LineDecoderOutcome φ :=
  let text := decodeText content
  if blankLine text then (self, ⟨frames, none⟩)
  else
    match decodeRecord parse text content.length self.limit with
    | .ok frame => (self, ⟨frames ++ [frame], none⟩)
    | .error error => ({ self with refusal := some error }, ⟨frames, some error⟩)

theorem consume_pending (self : LineDecoder) (content : List UInt8) (frames : List φ) :
    (self.consume parse content frames).1.pending = self.pending := by
  unfold consume
  dsimp only
  split
  · rfl
  · split <;> rfl

theorem lt_of_indexOf {bytes : List UInt8} {byte : UInt8} {start index : Nat}
    (h : indexOf bytes byte start = some index) : index < bytes.length := by
  obtain ⟨offset, ho, rfl⟩ := Option.map_eq_some_iff.mp h
  have hlt := (List.findIdx?_eq_some_iff_findIdx_eq.mp ho).1
  rw [List.length_drop] at hlt
  omega

def drainRecords (self : LineDecoder) (frames : List φ) : LineDecoder × LineDecoderOutcome φ :=
  match h : indexOf self.pending lineFeed self.searched with
  | none => (self, ⟨frames, none⟩)
  | some newline =>
    let record := self.pending.take newline
    let next := { self with pending := self.pending.drop (newline + 1), searched := 0 }
    let content := stripCarriageReturn record
    if self.limit < content.length then
      ((next.refuse content.length false).1, ⟨frames, some (next.refuse content.length false).2⟩)
    else
      let consumed := next.consume parse content frames
      match consumed.2.error with
      | some error => (consumed.1, ⟨consumed.2.frames, some error⟩)
      | none => drainRecords consumed.1 consumed.2.frames
termination_by self.pending.length
decreasing_by
  have hlt := lt_of_indexOf h
  rw [consume_pending]
  simp only [List.length_drop]
  omega

def drain (self : LineDecoder) (final : Bool) : LineDecoder × LineDecoderOutcome φ :=
  let drained := self.drainRecords parse []
  match drained.2.error with
  | some _ => drained
  | none =>
    let searched := { drained.1 with searched := drained.1.pending.length }
    if final then
      { searched with pending := [], searched := 0 }.consume parse
        (stripCarriageReturn searched.pending) drained.2.frames
    else
      let open_ := stripCarriageReturn searched.pending
      if self.limit < open_.length then
        ((searched.refuse open_.length true).1,
          ⟨drained.2.frames, some (searched.refuse open_.length true).2⟩)
      else (searched, drained.2)

/-- Feeds the next piece of the stream. -/
def push (self : LineDecoder) (chunk : List UInt8) : LineDecoder × LineDecoderOutcome φ :=
  match self.refusal with
  | some refusal => (self, ⟨[], some refusal⟩)
  | none => { self with pending := self.pending ++ chunk }.drain parse false

/-- Ends the stream: a final record without a terminator is still decoded. -/
def finish (self : LineDecoder) : LineDecoder × LineDecoderOutcome φ :=
  match self.refusal with
  | some refusal => (self, ⟨[], some refusal⟩)
  | none => self.drain parse true

def call (self : LineDecoder) : DecoderCall → LineDecoder × LineDecoderOutcome φ
  | .push bytes => self.push parse bytes
  | .finish => self.finish parse

end LineDecoder

end Records

end MangoProtocol.TypeScript
