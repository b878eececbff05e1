import MangoProtocol.TypeScript.Port

/-! The frames of the TypeScript package: their text, and the schema that `assertFrame` checks.  A
value that an application supplies may be any value of the language.  It is known here by what
`JSON.stringify` finds where it stands, each time it comes by. -/

namespace MangoProtocol.TypeScript

/-- What `JSON.stringify` finds where a value stands: it throws, for a reason; it leaves the member
out; or it writes a text. -/
inductive Visit where
  | throws (reason : JsString)
  | omitted
  | text (bytes : List UInt8)
  deriving DecidableEq

/-- A value, by what each serialisation in turn finds: a `toJSON` may answer otherwise the next
time. -/
structure JsValue where
  visit : Nat → Visit

namespace JsValue

def null : JsValue := ⟨fun _ => .text (utf8 "null")⟩

/-- What the next serialisation finds. -/
def now (self : JsValue) : Visit := self.visit 0

/-- The value after one serialisation. -/
def next (self : JsValue) : JsValue := ⟨fun count => self.visit (count + 1)⟩

end JsValue

/-! ### The frames -/

structure ProtocolVersion where
  major : Nat
  minor : Nat
  deriving DecidableEq, Repr

structure PeerInfo where
  name : JsString
  version : JsString
  role : JsString
  deriving DecidableEq, Repr

structure Limits where
  maxFrameBytes : Option Nat
  maxInFlight : Option Nat
  deriving DecidableEq, Repr

structure HelloFrame where
  protocol : ProtocolVersion
  peer : PeerInfo
  capabilities : JsValue
  limits : Option Limits

structure ErrorPayload where
  code : JsString
  message : JsString
  details : Option JsValue

inductive Frame where
  | hello (hello : HelloFrame)
  | req (id method : JsString) (params : JsValue)
  | res (id : JsString) (result : JsValue)
  | err (id : JsString) (error : ErrorPayload)
  | evt (topic : JsString) (seq : Nat) (streamId : Option JsString) (payload : JsValue)
    (ends : Bool)
  | cancel (id : JsString)
  | ping
  | pong
  | close (code : Nat) (reason : Option JsString)

/-! ### Text -/

def stringifyMembers : List (String × Visit) → Except JsString (List (List UInt8))
  | [] => .ok []
  | (key, visit) :: members =>
    match visit with
    | .throws reason => .error reason
    | .omitted => stringifyMembers members
    | .text bytes =>
      (stringifyMembers members).map (((MangoProtocol.quoted key ++ [58]) ++ bytes) :: ·)

/-- `JSON.stringify` of an object. -/
def stringifyObject (members : List (String × Visit)) : Except JsString (List UInt8) :=
  (stringifyMembers members).map fun texts => 123 :: ([44].intercalate texts ++ [125])

namespace Visit

def string (text : JsString) : Visit := .text (JsString.quoted text)

def number (value : Nat) : Visit := .text (decimal value)

def object (members : List (String × Visit)) : Visit :=
  match stringifyObject members with
  | .error reason => .throws reason
  | .ok bytes => .text bytes

def option {α : Type} (visit : α → Visit) : Option α → Visit
  | none => .omitted
  | some value => visit value

end Visit

def ErrorPayload.members (self : ErrorPayload) : List (String × Visit) :=
  [("code", .string self.code), ("message", .string self.message),
    ("details", .option JsValue.now self.details)]

namespace Frame

/-- The `type` member. -/
def type : Frame → String
  | .hello _ => "hello"
  | .req .. => "req"
  | .res .. => "res"
  | .err .. => "err"
  | .evt .. => "evt"
  | .cancel _ => "cancel"
  | .ping => "ping"
  | .pong => "pong"
  | .close .. => "close"

/-- The members after `type`. -/
def members : Frame → List (String × Visit)
  | .hello frame =>
    [("protocol", .object [("major", .number frame.protocol.major),
        ("minor", .number frame.protocol.minor)]),
      ("peer", .object [("name", .string frame.peer.name), ("version", .string frame.peer.version),
        ("role", .string frame.peer.role)]),
      ("capabilities", frame.capabilities.now),
      ("limits", .option (fun (limits : Limits) => .object
        [("maxFrameBytes", .option .number limits.maxFrameBytes),
          ("maxInFlight", .option .number limits.maxInFlight)]) frame.limits)]
  | .req id method params =>
    [("id", .string id), ("method", .string method), ("params", params.now)]
  | .res id result => [("id", .string id), ("result", result.now)]
  | .err id error => [("id", .string id), ("error", .object error.members)]
  | .evt topic seq streamId payload ends =>
    [("topic", .string topic), ("seq", .number seq), ("streamId", .option .string streamId),
      ("payload", payload.now), ("end", if ends then .text (utf8 "true") else .omitted)]
  | .cancel id => [("id", .string id)]
  | .ping | .pong => []
  | .close code reason => [("code", .number code), ("reason", .option .string reason)]

/-- `JSON.stringify` of a frame, in UTF-8. -/
def stringify (self : Frame) : Except JsString (List UInt8) :=
  stringifyObject (("type", .text (MangoProtocol.quoted self.type)) :: self.members)

end Frame

/-- The bytes of a frame; a frame that JSON cannot carry throws a `CodecError` with this message. -/
def measureFrameBytes (frame : Frame) : Except JsString Nat :=
  match frame.stringify with
  | .error reason => .error (js "frame is not JSON-serialisable: " ++ reason ++
      js "; expected a frame of plain JSON values")
  | .ok bytes => .ok bytes.length

/-! ### The schema

`Value.Check` belongs to TypeBox, and how it counts the length of a string is not the package's
choice: `count` is a parameter of every check. -/

/-- The count that JSON Schema names: the code points. -/
def schemaLength (text : JsString) : Nat := (JsString.codePoints text).length

/-- What the counts by code units, by code points and by grapheme clusters have in common. -/
structure LengthCount (count : JsString → Nat) : Prop where
  pos : ∀ text, text ≠ [] → 1 ≤ count text
  le_length : ∀ text, count text ≤ text.length

theorem schemaLength_js (text : String) :
    schemaLength (js text) = text.length := by
  rw [schemaLength, JsString.codePoints_js, List.length_map, String.length_toList]

theorem schemaLength_le (text : JsString) : schemaLength text ≤ text.length := by
  unfold schemaLength
  fun_induction JsString.codePoints text with
  | case1 => exact le_rfl
  | case2 => exact le_rfl
  | case3 high low rest _ ih =>
    simp only [List.length_cons]
    omega
  | case4 high low rest _ ih =>
    simp only [List.length_cons] at ih ⊢
    omega

theorem length_le_schemaLength (text : JsString) : text.length ≤ 2 * schemaLength text := by
  unfold schemaLength
  fun_induction JsString.codePoints text with
  | case1 => exact le_rfl
  | case2 => exact Nat.le_succ _
  | case3 high low rest _ ih =>
    simp only [List.length_cons]
    omega
  | case4 high low rest _ ih =>
    simp only [List.length_cons] at ih ⊢
    omega

theorem schemaLength_pos {text : JsString} (h : text ≠ []) : 1 ≤ schemaLength text := by
  unfold schemaLength
  match text with
  | [] => exact absurd rfl h
  | [unit] => exact le_rfl
  | high :: low :: rest =>
    rw [JsString.codePoints]
    split <;> exact Nat.le_add_left _ _

theorem lengthCount_schemaLength : LengthCount schemaLength :=
  ⟨fun _ => schemaLength_pos, schemaLength_le⟩

def idMaxLength : Nat := 256
def methodMaxLength : Nat := 128
def methodMinLength : Nat := 3
def errorCodeMaxLength : Nat := 64
def closeReasonMaxLength : Nat := 1024
def peerFieldMaxLength : Nat := 128
def roleMaxLength : Nat := 64
def minAnnouncedFrameBytes : Nat := 4096
def maxAnnouncedFrameBytes : Nat := 2147483647
def minAnnouncedInFlight : Nat := 1
def maxAnnouncedInFlight : Nat := 2147483647

def isLower (unit : UInt16) : Bool := 97 ≤ unit && unit ≤ 122

def isUpper (unit : UInt16) : Bool := 65 ≤ unit && unit ≤ 90

def isDigit (unit : UInt16) : Bool := 48 ≤ unit && unit ≤ 57

/-- `[a-z](?:[a-z0-9-]*[a-z0-9])?` -/
def isSegment (segment : JsString) : Bool :=
  segment.head?.any isLower &&
    segment.all (fun unit => isLower unit || isDigit unit || unit == 45) &&
    segment.getLast? != some 45

/-- `METHOD_PATTERN`: two or more segments, with dots between them. -/
def matchesMethod (text : JsString) : Bool :=
  2 ≤ (text.splitOn 46).length && (text.splitOn 46).all isSegment

/-- `^[A-Z][A-Z0-9_]*$` -/
def matchesErrorCode (text : JsString) : Bool :=
  text.head?.any isUpper && text.all fun unit => isUpper unit || isDigit unit || unit == 95

/-- `^[a-z][a-z0-9-]*$` -/
def matchesRole (text : JsString) : Bool :=
  text.head?.any isLower && text.all fun unit => isLower unit || isDigit unit || unit == 45

def Limits.isValid (self : Limits) : Bool :=
  self.maxFrameBytes.all (fun limit =>
    minAnnouncedFrameBytes ≤ limit && limit ≤ maxAnnouncedFrameBytes) &&
  self.maxInFlight.all (fun limit => minAnnouncedInFlight ≤ limit && limit ≤ maxAnnouncedInFlight)

section Check

variable (count : JsString → Nat)

def lengthWithin (low high : Nat) (text : JsString) : Bool :=
  low ≤ count text && count text ≤ high

def isId (text : JsString) : Bool := lengthWithin count 1 idMaxLength text

def isMethod (text : JsString) : Bool :=
  lengthWithin count methodMinLength methodMaxLength text && matchesMethod text

def PeerInfo.isValid (self : PeerInfo) : Bool :=
  lengthWithin count 1 peerFieldMaxLength self.name &&
    lengthWithin count 1 peerFieldMaxLength self.version &&
    lengthWithin count 1 roleMaxLength self.role && matchesRole self.role

/-- The `details` of a payload that the session builds is a plain object. -/
def ErrorPayload.isValid (self : ErrorPayload) : Bool :=
  lengthWithin count 1 errorCodeMaxLength self.code && matchesErrorCode self.code &&
    1 ≤ count self.message

/-- The frame passes `Value.Check` against the schema of its type. -/
def Frame.isFrame : Frame → Bool
  | .hello frame =>
    1 ≤ frame.protocol.major && frame.peer.isValid count && frame.limits.all Limits.isValid
  | .req id method _ => isId count id && isMethod count method
  | .res id _ => isId count id
  | .err id error => isId count id && error.isValid count
  | .evt topic _ streamId _ _ => isMethod count topic && streamId.all (isId count)
  | .cancel id => isId count id
  | .ping | .pong => true
  | .close code reason =>
    isCloseCode code && reason.all fun reason => count reason ≤ closeReasonMaxLength

end Check

end MangoProtocol.TypeScript
