import MangoProtocol.Codec.RoundTrip
import MangoProtocol.ProofKit.BigEndian
import Mathlib.Algebra.Order.Floor.Div

/-! WebSocket chunk framing: one frame split across binary messages.  A message is a header of nine
bytes, which hold the format version, the chunk index and the chunk count, and a slice of the bytes
of the frame. -/

namespace MangoProtocol

open ProofKit

def chunkHeaderBytes : Nat := 9

def chunkFormatVersion : UInt8 := 1

def minMaxMessageBytes : Nat := 2048

def minNonfinalPayloadBytes : Nat := 1024

/-- `u32::try_from(n).unwrap_or(u32::MAX)`. -/
def u32Saturating (n : Nat) : UInt32 := UInt32.ofNat (min n 0xffffffff)

/-- The most chunks one frame can need, derived from the frame limit alone. -/
def maxChunksFor (maxFrameBytes : Nat) : UInt32 :=
  u32Saturating (maxFrameBytes ⌈/⌉ minNonfinalPayloadBytes)

/-- `u32::to_be_bytes`. -/
def toBeBytes (n : UInt32) : List UInt8 := BigEndian.bytes 4 n.toNat

/-- `u32::from_be_bytes`. -/
def fromBeBytes (bytes : List UInt8) : UInt32 := UInt32.ofNat (BigEndian.value bytes)

/-- One chunk message. -/
def chunkMessage (index count : UInt32) (payload : List UInt8) : List UInt8 :=
  [chunkFormatVersion] ++ toBeBytes index ++ toBeBytes count ++ payload

def encodeChunks (platform : Platform) (frame : Frame) (maxMessageBytes maxFrameBytes : Nat) :
    Except CodecError (List (List UInt8)) :=
  if maxMessageBytes < minMaxMessageBytes then
    .error (.new .chunkHeader ("received a message ceiling of " ++ maxMessageBytes.repr ++
      " bytes, expected at least " ++ minMaxMessageBytes.repr))
  else do
    let bytes ← encodeFrameBytes platform frame maxFrameBytes
    let capacity := maxMessageBytes - chunkHeaderBytes
    let bound := maxChunksFor maxFrameBytes
    let count := u32Saturating (max (bytes.length ⌈/⌉ capacity) 1)
    if bound < count then
      .error (.new .chunkCount ("received a frame needing " ++ count.toNat.repr ++
        " chunks, expected at most " ++ bound.toNat.repr))
    else
      .ok ((List.range count.toNat).map fun index =>
        let start := index * capacity
        let stop := min (start + capacity) bytes.length
        chunkMessage (UInt32.ofNat index) count ((bytes.take stop).drop start))

/-! ### The reassembler -/

/-- Rebuilds frames from the chunk messages of one connection.  A reassembler is only built at or
above the floors of its two ceilings. -/
structure ChunkReassembler where
  maxMessageBytes : Nat
  maxFrameBytes : Nat
  count : Option UInt32
  nextIndex : UInt32
  buffer : List UInt8
  messageFloor : minMaxMessageBytes ≤ maxMessageBytes
  frameFloor : minMaxFrameBytes ≤ maxFrameBytes

def ChunkReassembler.new (maxMessageBytes maxFrameBytes : Nat)
    (messageFloor : minMaxMessageBytes ≤ maxMessageBytes)
    (frameFloor : minMaxFrameBytes ≤ maxFrameBytes) : ChunkReassembler :=
  ⟨maxMessageBytes, maxFrameBytes, none, 0, [], messageFloor, frameFloor⟩

/-- Drops any partially reassembled frame. -/
def ChunkReassembler.reset (self : ChunkReassembler) : ChunkReassembler :=
  { self with count := none, nextIndex := 0, buffer := [] }

section Reassembler

variable {φ : Type} (decodeBytes : List UInt8 → Nat → Except CodecError φ)

/-- The rules of the transport, in the order it states them.  `decodeBytes` is `decode_line`. -/
def ChunkReassembler.decode (self : ChunkReassembler) (message : List UInt8) :
    ChunkReassembler × Except CodecError (Option φ) :=
  let refuse (kind : CodecErrorKind) (text : String) :
      ChunkReassembler × Except CodecError (Option φ) := (self, .error (.new kind text))
  let version := message.headD chunkFormatVersion
  if version ≠ chunkFormatVersion then
    refuse .chunkVersion ("received chunk format version " ++ version.toNat.repr ++
      ", expected " ++ chunkFormatVersion.toNat.repr)
  else if message.length < chunkHeaderBytes then
    refuse .chunkHeader ("received a chunk message of " ++ message.length.repr ++
      " bytes, expected at least " ++ chunkHeaderBytes.repr)
  else
    let index := fromBeBytes ((message.drop 1).take 4)
    let count := fromBeBytes ((message.drop 5).take 4)
    let payload := message.drop chunkHeaderBytes
    let bound := maxChunksFor self.maxFrameBytes
    let started := self.count.getD count
    let isFinal := index + 1 = count
    let accumulated := self.buffer.length + payload.length
    if count = 0 ∨ bound < count then
      refuse .chunkCount ("received chunk count " ++ count.toNat.repr ++ ", expected 1 to " ++
        bound.toNat.repr)
    else if count ≠ started then
      refuse .chunkCount ("received chunk count " ++ count.toNat.repr ++ ", expected " ++
        started.toNat.repr ++ " for this frame")
    else if index ≠ self.nextIndex then
      refuse .chunkIndex ("received chunk index " ++ index.toNat.repr ++ ", expected " ++
        self.nextIndex.toNat.repr ++ " of a " ++ count.toNat.repr ++ "-chunk frame")
    else if payload = [] then
      refuse .chunkDribble ("received chunk " ++ index.toNat.repr ++
        " with no payload, expected at least 1 byte")
    else if ¬isFinal ∧ payload.length < minNonfinalPayloadBytes then
      refuse .chunkDribble ("received " ++ payload.length.repr ++
        " payload bytes in non-final chunk " ++ index.toNat.repr ++ ", expected at least " ++
        minNonfinalPayloadBytes.repr)
    else if self.maxFrameBytes < accumulated then
      refuse .tooLarge ("received " ++ accumulated.repr ++
        " reassembled bytes, expected at most " ++ self.maxFrameBytes.repr)
    else if ¬isFinal then
      ({ self with
          count := some started, nextIndex := index + 1, buffer := self.buffer ++ payload },
        .ok none)
    else
      (self.reset, (decodeBytes (self.buffer ++ payload) self.maxFrameBytes).map some)

def ChunkReassembler.push (self : ChunkReassembler) (message : List UInt8) :
    ChunkReassembler × Except CodecError (Option φ) :=
  match self.decode decodeBytes message with
  | (after, .ok outcome) => (after, .ok outcome)
  | (after, .error error) => (after.reset, .error error)

/-- Feeds messages in order: the reassembler after them, and what each push returned. -/
def ChunkReassembler.run (self : ChunkReassembler) :
    List (List UInt8) → ChunkReassembler × List (Except CodecError (Option φ))
  | [] => (self, [])
  | message :: messages =>
    ((ChunkReassembler.run (self.push decodeBytes message).1 messages).1,
      (self.push decodeBytes message).2 ::
        (ChunkReassembler.run (self.push decodeBytes message).1 messages).2)

end Reassembler

end MangoProtocol
