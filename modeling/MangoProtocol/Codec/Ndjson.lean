import MangoProtocol.Validate
import MangoProtocol.ProofKit.Records

/-! NDJSON framing: one frame per line.  The frame limit bounds the bytes of a line without its
terminator, and a carriage return before the newline belongs to the terminator. -/

namespace MangoProtocol

open ProofKit.Records (splitRecord splitRecord_length)

def defaultMaxFrameBytes : Nat := 16 * 1024 * 1024

def minMaxFrameBytes : Nat := minAnnouncedFrameBytes

theorem minMaxFrameBytes_le : minMaxFrameBytes ≤ 4096 := Nat.le_refl 4096

def previewChars : Nat := 120

def newline : UInt8 := 10

def carriageReturn : UInt8 := 13

def limitMessage (name : String) (value floor : Nat) : String :=
  name ++ " is " ++ value.repr ++ "; expected at least " ++ floor.repr

def checkedAtLeast (name : String) (value floor : Nat) : Except String Nat :=
  if value < floor then .error (limitMessage name value floor) else .ok value

/-! ### The head of a refused line -/

def isContinuation (b : UInt8) : Bool := decide (0x80 ≤ b ∧ b ≤ 0xBF)

/-- The bytes that may follow the lead byte of a sequence of three or four. -/
def secondRange (lead : UInt8) : UInt8 × UInt8 :=
  if lead = 0xE0 then (0xA0, 0xBF)
  else if lead = 0xED then (0x80, 0x9F)
  else if lead = 0xF0 then (0x90, 0xBF)
  else if lead = 0xF4 then (0x80, 0x8F)
  else (0x80, 0xBF)

def inRange (range : UInt8 × UInt8) (b : UInt8) : Bool := decide (range.1 ≤ b ∧ b ≤ range.2)

def low6 (b : UInt8) : Nat := b.toNat % 64

/-- The character at the head of some bytes, or U+FFFD in place of the longest head that starts no
character, and the bytes after it. -/
def decodeCharLossy (lead : UInt8) (rest : List UInt8) : Char × List UInt8 :=
  let replacement := Char.ofNat 0xFFFD
  if lead < 0x80 then (Char.ofNat lead.toNat, rest)
  else if 0xC2 ≤ lead ∧ lead ≤ 0xDF then
    match rest with
    | b :: after =>
      if isContinuation b then (Char.ofNat (lead.toNat % 32 * 64 + low6 b), after)
      else (replacement, rest)
    | [] => (replacement, rest)
  else if 0xE0 ≤ lead ∧ lead ≤ 0xEF then
    match rest with
    | b :: c :: after =>
      if inRange (secondRange lead) b then
        if isContinuation c then
          (Char.ofNat (lead.toNat % 16 * 4096 + low6 b * 64 + low6 c), after)
        else (replacement, c :: after)
      else (replacement, rest)
    | [b] => if inRange (secondRange lead) b then (replacement, []) else (replacement, rest)
    | [] => (replacement, rest)
  else if 0xF0 ≤ lead ∧ lead ≤ 0xF4 then
    match rest with
    | b :: c :: d :: after =>
      if inRange (secondRange lead) b then
        if isContinuation c then
          if isContinuation d then
            (Char.ofNat (lead.toNat % 8 * 262144 + low6 b * 4096 + low6 c * 64 + low6 d), after)
          else (replacement, d :: after)
        else (replacement, c :: d :: after)
      else (replacement, rest)
    | [b, c] =>
      if inRange (secondRange lead) b then
        if isContinuation c then (replacement, []) else (replacement, [c])
      else (replacement, rest)
    | [b] => if inRange (secondRange lead) b then (replacement, []) else (replacement, rest)
    | [] => (replacement, rest)
  else (replacement, rest)

/-- `String::from_utf8_lossy`, a character at a time; `fuel` is a bound on the characters. -/
def lossyChars : Nat → List UInt8 → List Char
  | 0, _ => []
  | _ + 1, [] => []
  | fuel + 1, lead :: rest =>
    (decodeCharLossy lead rest).1 :: lossyChars fuel (decodeCharLossy lead rest).2

def fromUtf8Lossy (bytes : List UInt8) : String := String.ofList (lossyChars bytes.length bytes)

def preview (platform : Platform) (bytes : List UInt8) : String :=
  let text := fromUtf8Lossy bytes
  if text.length ≤ previewChars then debugText platform.printable text
  else
    debugText platform.printable (String.ofList (text.toList.take previewChars)) ++ "… (" ++
      bytes.length.repr ++ " bytes)"

def tooLarge (length maxFrameBytes : Nat) : CodecError :=
  .new .tooLarge ("received a line of " ++ length.repr ++ " bytes, expected at most " ++
    maxFrameBytes.repr)

def frameTypeOf (platform : Platform) (line : List UInt8) : Option String := do
  match (← platform.parse line).normalize with
  | .object members =>
    match members.find? fun member => member.1 == "type" with
    | some (_, .string frameType) => some frameType
    | _ => none
  | _ => none

def stripCarriageReturn (line : List UInt8) : List UInt8 :=
  if line.getLast? = some carriageReturn then line.dropLast else line

def isAsciiWhitespace (b : UInt8) : Bool :=
  b == 32 || b == 9 || b == 10 || b == 12 || b == 13

def isBlank (line : List UInt8) : Bool := line.all isAsciiWhitespace

/-! ### Frames and lines -/

section Lines

variable (platform : Platform)

/-- Validates one frame and encodes it as compact JSON, without a terminator.  Writing a frame never
fails: its keys are strings and its numbers are finite. -/
def encodeFrameBytes (frame : Frame) (maxFrameBytes : Nat) : Except CodecError (List UInt8) :=
  match checkedAtLeast "max_frame_bytes" maxFrameBytes minMaxFrameBytes with
  | .error message => .error (.new .schema message)
  | .ok maxFrameBytes =>
    match validate platform frame with
    | .error error => .error (.new .schema error.toText)
    | .ok () =>
      let bytes := frame.toVec
      if maxFrameBytes < bytes.length then .error (tooLarge bytes.length maxFrameBytes)
      else .ok bytes

theorem encodeFrameBytes_eq_ok {platform : Platform} {frame : Frame} {maxFrameBytes : Nat}
    {bytes : List UInt8} :
    encodeFrameBytes platform frame maxFrameBytes = .ok bytes ↔
      minMaxFrameBytes ≤ maxFrameBytes ∧ validate platform frame = .ok () ∧
        frame.toVec.length ≤ maxFrameBytes ∧ bytes = frame.toVec := by
  unfold encodeFrameBytes checkedAtLeast
  by_cases hm : maxFrameBytes < minMaxFrameBytes
  · simp [hm]
  · grind

/-- One frame as an NDJSON record. -/
def encodeLine (frame : Frame) (maxFrameBytes : Nat) : Except CodecError (List UInt8) := do
  let line ← encodeFrameBytes platform frame maxFrameBytes
  return line ++ [newline]

def fromSlice (line : List UInt8) : Except (Category × String) Frame :=
  match platform.parse line with
  | none => .error (platform.parseError line)
  | some document =>
    match Frame.deserialize document with
    | none => .error (.data, platform.dataError line)
    | some frame => .ok frame

/-- Decodes one record, a line without its newline, into a frame. -/
def decodeLine (bytes : List UInt8) (maxFrameBytes : Nat) : Except CodecError Frame :=
  match checkedAtLeast "max_frame_bytes" maxFrameBytes minMaxFrameBytes with
  | .error message => .error (.new .schema message)
  | .ok maxFrameBytes =>
    let line := stripCarriageReturn bytes
    if maxFrameBytes < line.length then .error (tooLarge line.length maxFrameBytes)
    else if isBlank line then
      .error (.new .schema ("received a blank line of " ++ line.length.repr ++
        " bytes, expected one JSON object with a type member"))
    else
      match fromSlice platform line with
      | .error (category, text) =>
        let kind : CodecErrorKind := if category = .data then .schema else .invalidJson
        let refusal := CodecError.new kind
          ("received " ++ preview platform line ++ ", expected one Mango Protocol frame: " ++ text)
        match frameTypeOf platform line with
        | some frameType =>
          .error (if kind = .schema then refusal.withFrameType frameType else refusal)
        | none => .error refusal
      | .ok frame =>
        match validate platform frame with
        | .error error =>
          .error ((CodecError.new .schema error.toText).withFrameType frame.typeName)
        | .ok () => .ok frame

theorem decodeLine_valid {platform : Platform} {line : List UInt8} {maxFrameBytes : Nat}
    {frame : Frame} (h : decodeLine platform line maxFrameBytes = .ok frame) :
    validate platform frame = .ok () := by
  unfold decodeLine at h
  dsimp only at h
  split at h
  · cases h
  split at h
  · cases h
  split at h
  · cases h
  split at h
  · split at h <;> cases h
  · split at h
    · cases h
    · rename_i hv
      cases h
      exact hv

end Lines

/-! ### The line decoder -/

/-- What one push produced: the frames before a refused record, and its refusal. -/
structure PushOutcome (φ : Type) where
  frames : List φ
  error : Option CodecError

/-- Buffers bytes and hands back whole frames.  A decoder is only built at or above the lowest
ceiling a peer may announce. -/
@[ext]
structure LineDecoder where
  maxFrameBytes : Nat
  buffer : List UInt8
  failure : Option CodecError
  atLeast : minMaxFrameBytes ≤ maxFrameBytes

def LineDecoder.new (maxFrameBytes : Nat) (atLeast : minMaxFrameBytes ≤ maxFrameBytes) :
    LineDecoder :=
  ⟨maxFrameBytes, [], none, atLeast⟩

section Decoder

/-! `decode` is `decode_line`, of which the decoder uses the verdict on one record. -/

variable {φ : Type} (decode : List UInt8 → Nat → Except CodecError φ)

/-- What the loop over the complete lines of a buffer leaves. -/
structure Drained (φ : Type) where
  frames : List φ
  failure : Option CodecError
  buffer : List UInt8

/-- The loop of `push`: takes the complete lines of the buffer in order, up to the first refused.
The size of a line is checked before whether it is blank. -/
def drainLines (maxFrameBytes : Nat) (buffer : List UInt8) : Drained φ :=
  match h : splitRecord newline buffer with
  | none => ⟨[], none, buffer⟩
  | some (line, rest) =>
    have := splitRecord_length h
    let content := stripCarriageReturn line
    if maxFrameBytes < content.length then
      ⟨[], some (tooLarge content.length maxFrameBytes), rest⟩
    else if isBlank content then drainLines maxFrameBytes rest
    else
      match decode line maxFrameBytes with
      | .ok frame =>
        let drained := drainLines maxFrameBytes rest
        ⟨frame :: drained.frames, drained.failure, drained.buffer⟩
      | .error error => ⟨[], some error, rest⟩
termination_by buffer.length

/-- Feeds the next bytes off the transport.  A record still open is refused once it exceeds the
limit, and a refusal is repeated for ever. -/
def LineDecoder.push (self : LineDecoder) (bytes : List UInt8) : LineDecoder × PushOutcome φ :=
  match self.failure with
  | some failure => (self, ⟨[], some failure⟩)
  | none =>
    let drained := drainLines decode self.maxFrameBytes (self.buffer ++ bytes)
    let failure :=
      match drained.failure with
      | some error => some error
      | none =>
        let openBytes := (stripCarriageReturn drained.buffer).length
        if self.maxFrameBytes < openBytes then some (tooLarge openBytes self.maxFrameBytes)
        else none
    match failure with
    | some error =>
      ({ self with buffer := [], failure := some error }, ⟨drained.frames, some error⟩)
    | none => ({ self with buffer := drained.buffer }, ⟨drained.frames, none⟩)

/-- Flushes a final record without a terminator, at the end of the stream. -/
def LineDecoder.finish (self : LineDecoder) : LineDecoder × Except CodecError (List φ) :=
  match self.failure with
  | some failure => (self, .error failure)
  | none =>
    let line := self.buffer
    if isBlank (stripCarriageReturn line) then ({ self with buffer := [] }, .ok [])
    else
      match decode line self.maxFrameBytes with
      | .ok frame => ({ self with buffer := [] }, .ok [frame])
      | .error error => ({ self with buffer := [], failure := some error }, .error error)

/-- One call on a decoder. -/
inductive DecoderCall where
  | push (bytes : List UInt8)
  | finish

def LineDecoder.call (self : LineDecoder) : DecoderCall → LineDecoder × PushOutcome φ
  | .push bytes => self.push decode bytes
  | .finish =>
    match self.finish decode with
    | (decoder, .ok frames) => (decoder, ⟨frames, none⟩)
    | (decoder, .error error) => (decoder, ⟨[], some error⟩)

/-- Successive calls: the decoder after them, and what each returned. -/
def LineDecoder.run (self : LineDecoder) : List DecoderCall → LineDecoder × List (PushOutcome φ)
  | [] => (self, [])
  | call :: calls =>
    ((LineDecoder.run (self.call decode call).1 calls).1,
      (self.call decode call).2 :: (LineDecoder.run (self.call decode call).1 calls).2)

end Decoder

end MangoProtocol
