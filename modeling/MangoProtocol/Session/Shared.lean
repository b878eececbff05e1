import MangoProtocol.Codec.Ndjson
import Mathlib.Data.List.AList

/-! What the handle of a session and its driver share: the configuration that opening a session
settles, the mutable part behind the locks, and the preflight of outbound frames. -/

namespace MangoProtocol

/-- A hash map.  No modelled function depends on the order of its entries. -/
abbrev Table (κ α : Type) := AList fun _ : κ => α

/-- `u64::try_from(n).unwrap_or(u64::MAX)`. -/
def u64Saturating (n : Nat) : UInt64 := UInt64.ofNat (min n usizeMax)

/-! ### Options -/

def defaultMaxInFlight : Nat := 256

def defaultMaxStreamKeys : Nat := 1024

def minOpenStreamKeys : Nat := 1

def inFlightLimitKind : String := "in_flight_limit"

def streamKeyLimitKind : String := "stream_key_limit"

def defaultRequestIdPrefix : String := "r"

def handshakeTimeoutReason : String := "handshake timeout"

/-- What a caller opens a session with.  Durations are in milliseconds. -/
structure SessionOptions (H : Type) where
  peer : PeerInfo
  capabilities : Map
  protocol : ProtocolVersion
  maxFrameBytes : Option UInt64
  maxInFlight : UInt64
  maxStreamKeys : UInt64
  handshakeTimeout : Nat
  livenessInterval : Option Nat
  requestIdPrefix : String
  handlers : List (String × H)

/-- The immutable part of a session.  It is only built at or above the floors of its ceilings, each
of which is a `usize`. -/
structure Config where
  platform : Platform
  localPeer : PeerInfo
  localProtocol : ProtocolVersion
  localCapabilities : Map
  localMaxFrameBytes : Nat
  maxInFlight : Nat
  maxStreamKeys : Nat
  requestIdPrefix : String
  handshakeTimeout : Nat
  livenessInterval : Option Nat
  frameFloor : minMaxFrameBytes ≤ localMaxFrameBytes
  frameWord : localMaxFrameBytes ≤ usizeMax
  inFlightFloor : minAnnouncedInFlight ≤ maxInFlight
  inFlightWord : maxInFlight ≤ usizeMax
  streamKeysFloor : minOpenStreamKeys ≤ maxStreamKeys

/-- A `usize` at or above a floor. -/
abbrev AtLeast (floor : Nat) := { value : UInt64 // floor ≤ value.toNat }

def checkAtLeast (name : String) (floor : Nat) (value : UInt64) : Except String (AtLeast floor) :=
  if atLeast : floor ≤ value.toNat then .ok ⟨value, atLeast⟩
  else .error (limitMessage name value.toNat floor)

def localCeiling (session port : Option (AtLeast minMaxFrameBytes)) : Nat :=
  match session, port with
  | some session, some port => min session.val.toNat port.val.toNat
  | some only, none | none, some only => only.val.toNat
  | none, none => defaultMaxFrameBytes

theorem toNat_le_usizeMax (n : UInt64) : n.toNat ≤ usizeMax := Nat.le_sub_one_of_lt n.toNat_lt

theorem localCeiling_le (session port : Option (AtLeast minMaxFrameBytes)) :
    localCeiling session port ≤ usizeMax := by
  unfold localCeiling
  split
  · exact (min_le_left _ _).trans (toNat_le_usizeMax _)
  · exact toNat_le_usizeMax _
  · exact toNat_le_usizeMax _
  · decide

theorem localCeiling_ge (session port : Option (AtLeast minMaxFrameBytes)) :
    minMaxFrameBytes ≤ localCeiling session port := by
  match session, port with
  | some session, some port => exact le_min session.property port.property
  | some only, none => exact only.property
  | none, some only => exact only.property
  | none, none => decide

/-- `Session::open`, as far as it settles the configuration; the error is the text of its panic on a
ceiling below its floor.  A liveness period of zero is no cadence at all. -/
def openSession {H : Type} (platform : Platform) (portMaxFrameBytes : Option UInt64)
    (options : SessionOptions H) : Except String Config := do
  let sessionCeiling ← options.maxFrameBytes.mapM (checkAtLeast "max_frame_bytes" minMaxFrameBytes)
  let portCeiling ← portMaxFrameBytes.mapM (checkAtLeast "port max_frame_bytes" minMaxFrameBytes)
  let maxInFlight ← checkAtLeast "max_in_flight" minAnnouncedInFlight options.maxInFlight
  let maxStreamKeys ← checkAtLeast "max_stream_keys" minOpenStreamKeys options.maxStreamKeys
  return {
    platform
    localPeer := options.peer
    localProtocol := options.protocol
    localCapabilities := options.capabilities
    localMaxFrameBytes := localCeiling sessionCeiling portCeiling
    maxInFlight := maxInFlight.val.toNat
    maxStreamKeys := maxStreamKeys.val.toNat
    requestIdPrefix := options.requestIdPrefix
    handshakeTimeout := options.handshakeTimeout
    livenessInterval := options.livenessInterval.filter (· ≠ 0)
    frameFloor := localCeiling_ge sessionCeiling portCeiling
    frameWord := localCeiling_le sessionCeiling portCeiling
    inFlightFloor := maxInFlight.property
    inFlightWord := toNat_le_usizeMax maxInFlight.val
    streamKeysFloor := maxStreamKeys.property }

/-! ### State -/

inductive SessionState where
  | handshaking
  | ready
  | closed
  deriving DecidableEq

/-- What the far peer announced, with the negotiated minor. -/
structure RemotePeer where
  peer : PeerInfo
  protocol : ProtocolVersion
  capabilities : Map
  limits : Option Limits
  effectiveMinor : UInt32

/-- Why a session ended. -/
structure SessionClosure where
  code : UInt16
  reason : Option String
  fatal : Bool
  error : Option CodecError
  unfinishedHandlers : Nat
  deriving DecidableEq

/-- The mutable part of what is shared.  A subscriber is the list of what was delivered to it. -/
structure Shared (H : Type) where
  state : SessionState
  remote : Option RemotePeer
  ready : Option (Except RemoteError RemotePeer)
  closure : Option SessionClosure
  requestSequence : Nat
  inFlight : Nat
  handlers : Table String (Nat × H)
  nextGeneration : Nat
  eventSequences : Table String Nat
  eventSubscribers : List (List Event)
  pongSubscribers : List Nat

namespace Shared

variable {H : Type}

def registerHandler (self : Shared H) (method : String) (handler : H) : Shared H :=
  { self with
    handlers := self.handlers.insert method (self.nextGeneration, handler)
    nextGeneration := self.nextGeneration + 1 }

/-- What `Session::open` starts with. -/
def initial (handlers : List (String × H)) : Shared H :=
  handlers.foldl (fun shared entry => shared.registerHandler entry.1 entry.2)
    { state := .handshaking, remote := none, ready := none, closure := none, requestSequence := 0,
      inFlight := 0, handlers := ∅, nextGeneration := 0, eventSequences := ∅,
      eventSubscribers := [], pongSubscribers := [] }

theorem initial_eq (handlers : List (String × H)) :
    ∃ registry generation, initial handlers =
      ⟨.handshaking, none, none, none, 0, 0, registry, generation, ∅, [], []⟩ := by
  unfold initial
  suffices h : ∀ shared : Shared H, ∃ registry generation,
      handlers.foldl (fun shared entry => shared.registerHandler entry.1 entry.2) shared =
        { shared with handlers := registry, nextGeneration := generation } from h _
  induction handlers with
  | nil => exact fun shared => ⟨shared.handlers, shared.nextGeneration, rfl⟩
  | cons entry handlers ih => exact fun shared => ih (shared.registerHandler entry.1 entry.2)

theorem initial_counts (handlers : List (String × H)) :
    (initial handlers).inFlight = 0 ∧ (initial handlers).requestSequence = 0 := by
  obtain ⟨registry, generation, heq⟩ := initial_eq handlers
  rw [heq]
  exact ⟨rfl, rfl⟩

/-- Unregisters the handler of a dropped guard, if it is still the one in force. -/
def dropGuard (self : Shared H) (method : String) (generation : Nat) : Shared H :=
  match self.handlers.lookup method with
  | some (current, _) =>
    if current = generation then { self with handlers := self.handlers.erase method } else self
  | none => self

def remoteLimit (remote : Option RemotePeer) : Nat :=
  match remote.bind fun remote => remote.limits.bind Limits.maxFrameBytes with
  | some bytes => bytes.toNat
  | none => defaultMaxFrameBytes

/-- The frame ceiling this side may send: the lower of both announced limits. -/
def sendLimitBytes (config : Config) (self : Shared H) : Nat :=
  min config.localMaxFrameBytes (remoteLimit self.remote)

/-- The error of a frame over the limit. -/
def frameTooLargeError (what : String) (bytes limit : Nat) : RemoteError :=
  ((RemoteError.new codes.frameTooLarge
    (what ++ " encodes to " ++ bytes.repr ++ " bytes; the session limit is " ++ limit.repr ++
      " bytes.")).withDetail "bytes" (.u64 (u64Saturating bytes))).withDetail "limit"
    (.u64 (u64Saturating limit))

/-- Validates a frame and measures it against the negotiated limit, before it reaches the port. -/
def assertFits (config : Config) (self : Shared H) (frame : Frame) (what : String) :
    Except RemoteError Unit :=
  let limit := self.sendLimitBytes config
  match encodeFrameBytes config.platform frame limit with
  | .ok _ => .ok ()
  | .error error =>
    if error.kind = .tooLarge then
      .error (frameTooLargeError what frame.toVec.length limit)
    else .error (.new codes.internal (what ++ " failed to encode: " ++ error.toText))

/-- Settles the ready watch, unless something already settled it. -/
def settleReady (self : Shared H) (outcome : Except RemoteError RemotePeer) : Shared H :=
  if self.ready.isSome then self else { self with ready := some outcome }

@[simp] theorem settleReady_inFlight (self : Shared H) (outcome : Except RemoteError RemotePeer) :
    (self.settleReady outcome).inFlight = self.inFlight := by
  unfold settleReady
  split <;> rfl

@[simp] theorem settleReady_requestSequence (self : Shared H)
    (outcome : Except RemoteError RemotePeer) :
    (self.settleReady outcome).requestSequence = self.requestSequence := by
  unfold settleReady
  split <;> rfl

@[simp] theorem settleReady_eventSequences (self : Shared H)
    (outcome : Except RemoteError RemotePeer) :
    (self.settleReady outcome).eventSequences = self.eventSequences := by
  unfold settleReady
  split <;> rfl

/-- The id that the next request takes. -/
def nextRequestId (config : Config) (self : Shared H) : String :=
  config.requestIdPrefix ++ "-" ++ (self.requestSequence + 1).repr

def fanOutEvent (self : Shared H) (event : Event) : Shared H :=
  if self.state = .ready then
    { self with eventSubscribers := self.eventSubscribers.map (· ++ [event]) }
  else self

@[simp] theorem fanOutEvent_inFlight (self : Shared H) (event : Event) :
    (self.fanOutEvent event).inFlight = self.inFlight := by
  unfold fanOutEvent
  split <;> rfl

@[simp] theorem fanOutEvent_requestSequence (self : Shared H) (event : Event) :
    (self.fanOutEvent event).requestSequence = self.requestSequence := by
  unfold fanOutEvent
  split <;> rfl

def fanOutPong (self : Shared H) : Shared H :=
  { self with pongSubscribers := self.pongSubscribers.map (· + 1) }

end Shared

end MangoProtocol
