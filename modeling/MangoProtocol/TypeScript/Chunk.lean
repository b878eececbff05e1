import MangoProtocol.TypeScript.Ndjson
import MangoProtocol.ProofKit.BigEndian
import Mathlib.Algebra.Order.Floor.Div

/-! The chunk framing of the TypeScript package: a frame becomes a run of binary messages, each a
header of nine bytes and a slice of the line.  Its reassembler counts the bytes and keeps the
payloads apart until the last chunk.  A number here is a natural number: every quotient and sum of
the source is below 2^53, where the numbers of the language are exact. -/

namespace MangoProtocol.TypeScript

open ProofKit

def chunkHeaderBytes : Nat := 9

def chunkFormatVersion : UInt8 := 1

def defaultMaxMessageBytes : Nat := 16 * 1024

def minMaxMessageBytes : Nat := 2048

def minNonfinalPayloadBytes : Nat := 1024

def maxChunksFor (maxFrameBytes : Nat) : Nat := maxFrameBytes ⌈/⌉ minNonfinalPayloadBytes

/-- How one frame is split into messages, and how large it may be. -/
structure ChunkOptions where
  maxMessageBytes : Option Nat
  maxFrameBytes : Option Nat

def resolveMessageCeiling (maxMessageBytes : Option Nat) : Except Thrown Nat :=
  resolveIntegerAtLeast "maxMessageBytes" maxMessageBytes defaultMaxMessageBytes minMaxMessageBytes

def uint32Bytes (n : Nat) : List UInt8 := BigEndian.bytes 4 n

def getUint32 (message : List UInt8) (offset : Nat) : Nat :=
  BigEndian.value ((message.drop offset).take 4)

def chunkMessage (index count : Nat) (payload : List UInt8) : List UInt8 :=
  [chunkFormatVersion] ++ uint32Bytes index ++ uint32Bytes count ++ payload

def cutLine (maxMessageBytes : Nat) (bytes : List UInt8) : List (List UInt8) :=
  let capacity := maxMessageBytes - chunkHeaderBytes
  let count := max 1 (bytes.length ⌈/⌉ capacity)
  (List.range count).map fun index =>
    let start := index * capacity
    chunkMessage index count ((bytes.take (min (start + capacity) bytes.length)).drop start)

def encodeChunks {φ : Type} (serialise : φ → Except CodecError (List UInt8)) (frame : φ)
    (options : ChunkOptions) : Except Thrown (List (List UInt8)) := do
  let maxMessageBytes ← resolveMessageCeiling options.maxMessageBytes
  let bytes ← encodeFrameBytes serialise frame options.maxFrameBytes
  return cutLine maxMessageBytes bytes

/-! ### The reassembler -/

/-- Reassembles the messages of one frame.  A reassembler is only built at or above the floor of its
limit. -/
structure ChunkReassembler where
  frameLimit : Nat
  expectedIndex : Nat
  count : Nat
  size : Nat
  parts : List (List UInt8)
  atLeast : minMaxFrameBytes ≤ frameLimit

namespace ChunkReassembler

def new (frameLimit : Nat) (atLeast : minMaxFrameBytes ≤ frameLimit) : ChunkReassembler :=
  ⟨frameLimit, 0, 0, 0, [], atLeast⟩

def maxChunks (self : ChunkReassembler) : Nat := maxChunksFor self.frameLimit

/-- Drops a partly reassembled frame. -/
def reset (self : ChunkReassembler) : ChunkReassembler :=
  { self with expectedIndex := 0, count := 0, size := 0, parts := [] }

/-- Reads and checks the header. -/
def readHeader (self : ChunkReassembler) (message : List UInt8) : Except CodecError (Nat × Nat) :=
  if message.length < chunkHeaderBytes then
    .error ⟨.chunkHeader,
      "message is " ++ message.length.repr ++ " bytes; expected at least the " ++
      chunkHeaderBytes.repr ++ "-byte chunk header", none⟩
  else
    let version := message.headD 0
    if version ≠ chunkFormatVersion then
      .error ⟨.chunkVersion, "chunk format version is " ++ version.toNat.repr ++ "; expected " ++
        chunkFormatVersion.toNat.repr, none⟩
    else
      let index := getUint32 message 1
      let count := getUint32 message 5
      if count < 1 ∨ self.maxChunks < count then
        .error ⟨.chunkCount, "chunk count is " ++ count.repr ++ "; expected 1 to " ++
          self.maxChunks.repr ++ " under a " ++ self.frameLimit.repr ++ "-byte frame limit", none⟩
      else if index ≠ self.expectedIndex then
        .error ⟨.chunkIndex, "chunk index is " ++ index.repr ++ "; expected " ++
          self.expectedIndex.repr ++ " next in this frame", none⟩
      else if self.count ≠ 0 ∧ count ≠ self.count then
        .error ⟨.chunkCount, "chunk count is " ++ count.repr ++ " at index " ++ index.repr ++
          "; expected " ++ self.count.repr ++ ", the count the frame started with", none⟩
      else .ok (index, count)

def setBytes (line part : List UInt8) (offset : Nat) : List UInt8 :=
  line.take offset ++ part ++ line.drop (offset + part.length)

def concatParts (parts : List (List UInt8)) (size : Nat) : List UInt8 :=
  (parts.foldl (fun (line, offset) part => (setBytes line part offset, offset + part.length))
    (List.replicate size 0, 0)).1

section Accept

variable {φ : Type} (decodeLine : List UInt8 → Nat → Except CodecError φ)

def accept (self : ChunkReassembler) (message : List UInt8) :
    ChunkReassembler × Except CodecError (Option φ) :=
  match self.readHeader message with
  | .error error => (self, .error error)
  | .ok (index, count) =>
    let payload := message.drop chunkHeaderBytes
    let size := self.size + payload.length
    let final := index = count - 1
    if self.frameLimit < size then
      (self, .error ⟨.tooLarge, "reassembled frame is " ++ size.repr ++ " bytes at chunk " ++
        index.repr ++ "; expected at most " ++ self.frameLimit.repr, none⟩)
    else if payload.length = 0 then
      (self, .error ⟨.empty, "chunk " ++ index.repr ++ " of " ++ count.repr ++
        " carries no payload; expected at least one byte", none⟩)
    else if ¬final ∧ payload.length < minNonfinalPayloadBytes then
      (self, .error ⟨.chunkDribble, "chunk " ++ index.repr ++ " of " ++ count.repr ++ " carries " ++
        payload.length.repr ++ " payload bytes; expected at least " ++
          minNonfinalPayloadBytes.repr ++
        " on a non-final chunk", none⟩)
    else
      let held : ChunkReassembler :=
        { self with
          count := count, size := size, expectedIndex := index + 1,
          parts := self.parts ++ [payload] }
      if ¬final then (held, .ok none)
      else (held.reset, (decodeLine (concatParts held.parts held.size) self.frameLimit).map some)

def push (self : ChunkReassembler) (message : List UInt8) :
    ChunkReassembler × Except CodecError (Option φ) :=
  match self.accept decodeLine message with
  | (after, .ok outcome) => (after, .ok outcome)
  | (after, .error error) => (after.reset, .error error)

/-- Feeds messages in order: the reassembler after them, and what each push returned. -/
def run (self : ChunkReassembler) :
    List (List UInt8) → ChunkReassembler × List (Except CodecError (Option φ))
  | [] => (self, [])
  | message :: messages =>
    ((run (self.push decodeLine message).1 messages).1,
      (self.push decodeLine message).2 :: (run (self.push decodeLine message).1 messages).2)

end Accept

end ChunkReassembler

end MangoProtocol.TypeScript
