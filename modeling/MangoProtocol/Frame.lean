import MangoProtocol.Protocol

/-! The frame types, the document a frame is written as, and the frame a document is read into.
The derived readers of `serde` take a struct from an object, by name, or from an array, by
position, and read an internally tagged enum the same two ways. -/

namespace MangoProtocol

/-- The `end` marker of an event. -/
structure End where
  deriving DecidableEq

structure PeerInfo where
  name : String
  version : String
  role : String
  deriving DecidableEq

/-- The ceilings a peer announces. -/
structure Limits where
  maxFrameBytes : Option UInt64
  maxInFlight : Option UInt64
  deriving DecidableEq

structure Hello where
  protocol : ProtocolVersion
  peer : PeerInfo
  capabilities : Map
  limits : Option Limits

structure Request where
  id : String
  method : String
  params : Value

structure Response where
  id : String
  result : Value

structure ErrorPayload where
  code : String
  message : String
  details : Option Map

structure ErrorResponse where
  id : String
  error : ErrorPayload

structure Event where
  topic : String
  seq : UInt64
  streamId : Option String
  payload : Value
  end_ : Option End

structure Cancel where
  id : String

structure Close where
  code : UInt16
  reason : Option String

inductive Frame where
  | hello (hello : Hello)
  | req (request : Request)
  | res (response : Response)
  | err (error : ErrorResponse)
  | evt (event : Event)
  | cancel (cancel : Cancel)
  | ping
  | pong
  | close (close : Close)

/-- The value of the frame's `type` member. -/
def Frame.typeName : Frame → String
  | .hello _ => "hello"
  | .req _ => "req"
  | .res _ => "res"
  | .err _ => "err"
  | .evt _ => "evt"
  | .cancel _ => "cancel"
  | .ping => "ping"
  | .pong => "pong"
  | .close _ => "close"

/-! ### Writing -/

def optional {α : Type} (name : String) (value : Option α) (write : α → Json) :
    List (String × Json) :=
  match value with
  | some value => [(name, write value)]
  | none => []

def Json.u64 (n : UInt64) : Json := .number (.posInt n)

def ProtocolVersion.serialize (self : ProtocolVersion) : Json :=
  .object [("major", .u64 self.major.toUInt64), ("minor", .u64 self.minor.toUInt64)]

def PeerInfo.serialize (self : PeerInfo) : Json :=
  .object [("name", .string self.name), ("version", .string self.version),
    ("role", .string self.role)]

def Limits.serialize (self : Limits) : Json :=
  .object (optional "maxFrameBytes" self.maxFrameBytes .u64 ++
    optional "maxInFlight" self.maxInFlight .u64)

def ErrorPayload.serialize (self : ErrorPayload) : Json :=
  .object ([("code", .string self.code), ("message", .string self.message)] ++
    optional "details" self.details fun details => .object details.members)

/-- The members of a frame after its `type`, in the order the struct declares them. -/
def Frame.members : Frame → List (String × Json)
  | .hello h =>
    [("protocol", h.protocol.serialize), ("peer", h.peer.serialize),
      ("capabilities", .object h.capabilities.members)] ++
      optional "limits" h.limits Limits.serialize
  | .req request =>
    [("id", .string request.id), ("method", .string request.method),
      ("params", request.params.json)]
  | .res response => [("id", .string response.id), ("result", response.result.json)]
  | .err error => [("id", .string error.id), ("error", error.error.serialize)]
  | .evt event =>
    [("topic", .string event.topic), ("seq", .u64 event.seq)] ++
      optional "streamId" event.streamId .string ++ [("payload", event.payload.json)] ++
      optional "end" event.end_ fun _ => .bool true
  | .cancel c => [("id", .string c.id)]
  | .ping | .pong => []
  | .close c => ("code", .u64 c.code.toUInt64) :: optional "reason" c.reason .string

def Frame.serialize (self : Frame) : Json :=
  .object (("type", .string self.typeName) :: self.members)

/-- `serde_json::to_vec` of a frame. -/
def Frame.toVec (self : Frame) : List UInt8 := self.serialize.toVec

/-! ### Reading -/

/-- What the derived reader of a struct finds for each of its fields.  An object is read by name
and may hold a known field once; an array is read by position and holds no more items than there
are fields. -/
def structFields (names : List String) : Json → Option (List (Option Json))
  | .object members =>
    if names.all fun name => (members.filter fun member => member.1 == name).length ≤ 1 then
      some (names.map fun name => (members.find? fun member => member.1 == name).map Prod.snd)
    else none
  | .array items =>
    if items.length ≤ names.length then some (names.mapIdx fun i _ => items[i]?) else none
  | _ => none

def readString : Json → Option String
  | .string value => some value
  | _ => none

def readU64 : Json → Option UInt64
  | .number (.posInt value) => some value
  | _ => none

def readU32 (j : Json) : Option UInt32 := do
  let value ← readU64 j
  if value.toNat < 2 ^ 32 then some value.toUInt32 else none

def readU16 (j : Json) : Option UInt16 := do
  let value ← readU64 j
  if value.toNat < 2 ^ 16 then some value.toUInt16 else none

def readMap : Json → Option Map
  | .object members => some (Map.ofMembers members)
  | _ => none

/-- Only the literal `true` is an end marker. -/
def readEnd : Json → Option End
  | .bool true => some End.mk
  | _ => none

/-- `present::option`: a missing member is absent, and a present one has to read, `null` included.
-/
def readOptional {α : Type} (read : Json → Option α) : Option Json → Option (Option α)
  | none => some none
  | some j => (read j).map some

def ProtocolVersion.deserialize (j : Json) : Option ProtocolVersion := do
  match ← structFields ["major", "minor"] j with
  | [some major, some minor] => return ⟨← readU32 major, ← readU32 minor⟩
  | _ => none

def PeerInfo.deserialize (j : Json) : Option PeerInfo := do
  match ← structFields ["name", "version", "role"] j with
  | [some name, some version, some role] =>
    return ⟨← readString name, ← readString version, ← readString role⟩
  | _ => none

def Limits.deserialize (j : Json) : Option Limits := do
  match ← structFields ["maxFrameBytes", "maxInFlight"] j with
  | [maxFrameBytes, maxInFlight] =>
    return ⟨← readOptional readU64 maxFrameBytes, ← readOptional readU64 maxInFlight⟩
  | _ => none

def ErrorPayload.deserialize (j : Json) : Option ErrorPayload := do
  match ← structFields ["code", "message", "details"] j with
  | [some code, some message, details] =>
    return ⟨← readString code, ← readString message, ← readOptional readMap details⟩
  | _ => none

def Hello.deserialize (j : Json) : Option Hello := do
  match ← structFields ["protocol", "peer", "capabilities", "limits"] j with
  | [some protocol, some peer, some capabilities, limits] =>
    return ⟨← ProtocolVersion.deserialize protocol, ← PeerInfo.deserialize peer,
      ← readMap capabilities, ← readOptional Limits.deserialize limits⟩
  | _ => none

def Request.deserialize (j : Json) : Option Request := do
  match ← structFields ["id", "method", "params"] j with
  | [some id, some method, some params] =>
    return ⟨← readString id, ← readString method, Value.ofJson params⟩
  | _ => none

def Response.deserialize (j : Json) : Option Response := do
  match ← structFields ["id", "result"] j with
  | [some id, some result] => return ⟨← readString id, Value.ofJson result⟩
  | _ => none

def ErrorResponse.deserialize (j : Json) : Option ErrorResponse := do
  match ← structFields ["id", "error"] j with
  | [some id, some error] => return ⟨← readString id, ← ErrorPayload.deserialize error⟩
  | _ => none

def Event.deserialize (j : Json) : Option Event := do
  match ← structFields ["topic", "seq", "streamId", "payload", "end"] j with
  | [some topic, some seq, streamId, some payload, end_] =>
    return ⟨← readString topic, ← readU64 seq, ← readOptional readString streamId,
      Value.ofJson payload, ← readOptional readEnd end_⟩
  | _ => none

def Cancel.deserialize (j : Json) : Option Cancel := do
  match ← structFields ["id"] j with
  | [some id] => return ⟨← readString id⟩
  | _ => none

def Close.deserialize (j : Json) : Option Close := do
  match ← structFields ["code", "reason"] j with
  | [some code, reason] => return ⟨← readU16 code, ← readOptional readString reason⟩
  | _ => none

/-- A variant without content.  It passes over the members of an object, and takes an array only if
nothing follows the tag. -/
def readUnit (frame : Frame) : Json → Option Frame
  | .object _ | .array [] => some frame
  | _ => none

/-- The variant a tag names, read from what is left beside the tag. -/
def Frame.ofTagged (tag : String) (content : Json) : Option Frame :=
  if tag = "hello" then (Hello.deserialize content).map .hello
  else if tag = "req" then (Request.deserialize content).map .req
  else if tag = "res" then (Response.deserialize content).map .res
  else if tag = "err" then (ErrorResponse.deserialize content).map .err
  else if tag = "evt" then (Event.deserialize content).map .evt
  else if tag = "cancel" then (Cancel.deserialize content).map .cancel
  else if tag = "ping" then readUnit .ping content
  else if tag = "pong" then readUnit .pong content
  else if tag = "close" then (Close.deserialize content).map .close
  else none

/-- The frame a document is read into.  The tag is the one member of an object named `type`, or
the first item of an array. -/
def Frame.deserialize : Json → Option Frame
  | .object members =>
    match members.filter fun member => member.1 == "type" with
    | [(_, .string tag)] =>
      Frame.ofTagged tag (.object (members.filter fun member => member.1 != "type"))
    | _ => none
  | .array (.string tag :: items) => Frame.ofTagged tag (.array items)
  | _ => none

example : Frame.deserialize (.array [.string "ping", .object []]) = none := rfl

/-! ### Round trip -/

theorem readU32_u64 (n : UInt32) : readU32 (.u64 n.toUInt64) = some n := by
  have h := n.toNat_lt
  simp only [readU32, readU64, Json.u64, Option.bind_eq_bind, Option.bind_some]
  rw [if_pos (by simpa using h)]
  simp

theorem readU16_u64 (n : UInt16) : readU16 (.u64 n.toUInt64) = some n := by
  have h := n.toNat_lt
  simp only [readU16, readU64, Json.u64, Option.bind_eq_bind, Option.bind_some]
  rw [if_pos (by simpa using h)]
  simp

@[simp] theorem ProtocolVersion.deserialize_serialize (v : ProtocolVersion) :
    ProtocolVersion.deserialize v.serialize = some v := by
  simp [ProtocolVersion.deserialize, ProtocolVersion.serialize, structFields, readU32_u64]

@[simp] theorem PeerInfo.deserialize_serialize (p : PeerInfo) :
    PeerInfo.deserialize p.serialize = some p := by
  simp [PeerInfo.deserialize, PeerInfo.serialize, structFields, readString]

@[simp] theorem Limits.deserialize_serialize (l : Limits) :
    Limits.deserialize l.serialize = some l := by
  obtain ⟨maxFrameBytes, maxInFlight⟩ := l
  cases maxFrameBytes <;> cases maxInFlight <;>
    simp [Limits.deserialize, Limits.serialize, optional, structFields, readOptional, readU64,
      Json.u64]

@[simp] theorem ErrorPayload.deserialize_serialize (e : ErrorPayload) :
    ErrorPayload.deserialize e.serialize = some e := by
  obtain ⟨code, message, details⟩ := e
  cases details <;>
    simp [ErrorPayload.deserialize, ErrorPayload.serialize, optional, structFields, readOptional,
      readString, readMap]

theorem Frame.ofTagged_members (f : Frame) :
    Frame.ofTagged f.typeName (.object f.members) = some f := by
  cases f with
  | hello h =>
    obtain ⟨protocol, peer, capabilities, limits⟩ := h
    cases limits <;>
      simp [Frame.ofTagged, Frame.typeName, Frame.members, Hello.deserialize, optional,
        structFields, readOptional, readMap]
  | req request =>
    simp [Frame.ofTagged, Frame.typeName, Frame.members, Request.deserialize, structFields,
      readString]
  | res response =>
    simp [Frame.ofTagged, Frame.typeName, Frame.members, Response.deserialize, structFields,
      readString]
  | err error =>
    simp [Frame.ofTagged, Frame.typeName, Frame.members, ErrorResponse.deserialize, structFields,
      readString]
  | evt event =>
    obtain ⟨topic, seq, streamId, payload, end_⟩ := event
    cases streamId <;> cases end_ <;>
      simp [Frame.ofTagged, Frame.typeName, Frame.members, Event.deserialize, optional,
        structFields, readOptional, readString, readU64, readEnd, Json.u64]
  | cancel c =>
    simp [Frame.ofTagged, Frame.typeName, Frame.members, Cancel.deserialize, structFields,
      readString]
  | ping => simp [Frame.ofTagged, Frame.typeName, readUnit]
  | pong => simp [Frame.ofTagged, Frame.typeName, readUnit]
  | close c =>
    obtain ⟨code, reason⟩ := c
    cases reason <;>
      simp [Frame.ofTagged, Frame.typeName, Frame.members, Close.deserialize, optional,
        structFields, readOptional, readString, readU16_u64]

theorem Frame.members_ne_type (f : Frame) : ∀ member ∈ f.members, member.1 ≠ "type" := by
  cases f with
  | hello h =>
    obtain ⟨protocol, peer, capabilities, limits⟩ := h
    cases limits <;> simp [Frame.members, optional]
  | evt event =>
    obtain ⟨topic, seq, streamId, payload, end_⟩ := event
    cases streamId <;> cases end_ <;> simp [Frame.members, optional]
  | close c =>
    obtain ⟨code, reason⟩ := c
    cases reason <;> simp [Frame.members, optional]
  | _ => simp [Frame.members]

theorem Frame.deserialize_serialize (f : Frame) : Frame.deserialize f.serialize = some f := by
  have hOther := f.members_ne_type
  have hTag : f.members.filter (fun member => member.1 == "type") = [] :=
    List.filter_eq_nil_iff.mpr fun member hm => by simpa using hOther member hm
  have hRest : f.members.filter (fun member => member.1 != "type") = f.members :=
    List.filter_eq_self.mpr fun member hm => by simpa using hOther member hm
  simp [Frame.serialize, Frame.deserialize, hTag, hRest, Frame.ofTagged_members]

end MangoProtocol
