import MangoProtocol.Json

/-! The vocabulary of the wire: the reserved error codes, what a codec refuses with, the error a
requester sees, the close codes with their fatal set, and version negotiation. -/

namespace MangoProtocol

/-! ### Errors -/

namespace codes

def unavailable : String := "UNAVAILABLE"
def invalidRequest : String := "INVALID_REQUEST"
def methodUnsupported : String := "METHOD_UNSUPPORTED"
def timeout : String := "TIMEOUT"
def frameTooLarge : String := "FRAME_TOO_LARGE"
def protocolMismatch : String := "PROTOCOL_MISMATCH"
def internal : String := "INTERNAL"

end codes

/-- Why a codec refused bytes. -/
inductive CodecErrorKind where
  | invalidJson
  | schema
  | tooLarge
  | chunkVersion
  | chunkHeader
  | chunkCount
  | chunkIndex
  | chunkDribble
  deriving DecidableEq, Repr

/-- The corpus reason of a kind. -/
def CodecErrorKind.reason : CodecErrorKind → String
  | .invalidJson => "invalid-json"
  | .schema => "schema"
  | .tooLarge => "too-large"
  | .chunkVersion => "chunk-version"
  | .chunkHeader => "chunk-header"
  | .chunkCount => "chunk-count"
  | .chunkIndex => "chunk-index"
  | .chunkDribble => "chunk-dribble"

/-- A codec refusal.  `frameType` is the `type` member of the refused record, when the codec could
read that much. -/
structure CodecError where
  kind : CodecErrorKind
  message : String
  frameType : Option String
  deriving DecidableEq, Repr

def CodecError.new (kind : CodecErrorKind) (message : String) : CodecError :=
  ⟨kind, message, none⟩

def CodecError.withFrameType (self : CodecError) (frameType : String) : CodecError :=
  { self with frameType := some frameType }

/-- `Display` of a refusal. -/
def CodecError.toText (self : CodecError) : String := self.kind.reason ++ ": " ++ self.message

structure RemoteError where
  code : String
  message : String
  details : Option Map

def RemoteError.new (code message : String) : RemoteError := ⟨code, message, none⟩

def RemoteError.withDetails (self : RemoteError) (details : Map) : RemoteError :=
  { self with details := some details }

def RemoteError.withDetail (self : RemoteError) (key : String) (value : Value) : RemoteError :=
  { self with details := some ((self.details.getD Map.empty).insert key value) }

/-! ### Close codes -/

namespace closeCodes

def released : UInt16 := 4000
def protocolError : UInt16 := 4400
def unauthorized : UInt16 := 4401
def forbidden : UInt16 := 4403
def superseded : UInt16 := 4409
def protocolMismatch : UInt16 := 4426

end closeCodes

def minCloseCode : UInt16 := 4000

def maxCloseCode : UInt16 := 4999

def fatal : List UInt16 :=
  [closeCodes.unauthorized, closeCodes.forbidden, closeCodes.superseded,
    closeCodes.protocolMismatch]

def isFatalCloseCode (code : UInt16) : Bool := fatal.contains code

/-- The close code a decoder uses when it refuses a peer's bytes: a `hello` it cannot read is a
peer of another wire version. -/
def closeCodeForCodecError (error : CodecError) : UInt16 :=
  if error.kind = .schema ∧ error.frameType = some "hello" then closeCodes.protocolMismatch
  else closeCodes.protocolError

/-! ### Versions -/

structure ProtocolVersion where
  major : UInt32
  minor : UInt32
  deriving DecidableEq, Repr

/-- The wire version the crate speaks. -/
def protocolVersion : ProtocolVersion := ⟨1, 1⟩

inductive Negotiation where
  | compatible (effectiveMinor : UInt32)
  | mismatch (closeCode : UInt16)
  deriving DecidableEq, Repr

/-- Equal majors run at the lower minor; different majors are a mismatch. -/
def negotiate (own other : ProtocolVersion) : Negotiation :=
  if own.major ≠ other.major then .mismatch closeCodes.protocolMismatch
  else .compatible (min own.minor other.minor)

end MangoProtocol
