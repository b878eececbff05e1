import MangoProtocol.Frame

/-! The rules on the values of a frame: lengths, grammars and ranges. -/

namespace MangoProtocol

/-- The categories of a `serde_json` error. -/
inductive Category where
  | input
  | malformed
  | data
  | eof
  deriving DecidableEq, Repr

/-- What the crate takes from `serde_json` and from the Unicode tables of Rust.  `parse` gives the
document that some bytes are the text of, within the limits of `serde_json`; `parseError` is the
error it reports on bytes that are no such text, and `dataError` prints the error on a document
that is no frame.  `printable` says which characters `{:?}` leaves as they are. -/
structure Platform where
  parse : List UInt8 → Option Json
  parseError : List UInt8 → Category × String
  dataError : List UInt8 → String
  printable : Char → Bool

def usizeMax : Nat := 2 ^ 64 - 1

def maxIdChars : Nat := 256

def maxNameChars : Nat := 128

def maxCodeChars : Nat := 64

def maxReasonChars : Nat := 1024

def minAnnouncedFrameBytes : Nat := 4096

def maxAnnouncedFrameBytes : Nat := 2147483647

def minAnnouncedInFlight : Nat := 1

def maxAnnouncedInFlight : Nat := 2147483647

def methodNamePattern : String :=
  "^[a-z](?:[a-z0-9-]*[a-z0-9])?(?:\\.[a-z](?:[a-z0-9-]*[a-z0-9])?)+$"

def rpcReservedPrefix : String := "rpc."

def rpcDiscover : String := "rpc.discover"

def rpcDiscoverMinor : UInt32 := 1

/-- A frame member that broke a rule. -/
structure ValidationError where
  field : String
  received : String
  expected : String
  deriving DecidableEq, Repr

/-- `Display` of a broken rule. -/
def ValidationError.toText (self : ValidationError) : String :=
  self.field ++ ": received " ++ self.received ++ ", expected " ++ self.expected

/-! ### Text -/

def escapeDebug (printable : Char → Bool) (c : Char) : String :=
  if c.toNat = 0 then "\\0"
  else if c.toNat = 9 then "\\t"
  else if c.toNat = 10 then "\\n"
  else if c.toNat = 13 then "\\r"
  else if c.toNat = 34 then "\\\""
  else if c.toNat = 92 then "\\\\"
  else if printable c then String.singleton c
  else "\\u\x7b" ++ String.ofList (Nat.toDigits 16 c.toNat) ++ "\x7d"

/-- A string as `{:?}` prints it. -/
def debugText (printable : Char → Bool) (s : String) : String :=
  "\"" ++ String.join (s.toList.map (escapeDebug printable)) ++ "\""

def describe (printable : Char → Bool) (value : String) : String :=
  if value.length ≤ 48 then debugText printable value
  else debugText printable (String.ofList (value.toList.take 48)) ++ "… (" ++ value.length.repr ++
    " characters)"

/-! ### Grammars -/

def isSegmentChar (c : Char) : Bool := c.isLower || c.isDigit || c == '-'

/-- Lowercase letters, digits and dashes, from a letter to anything but a dash. -/
def isValidSegment (segment : List Char) : Bool :=
  match segment with
  | [] => false
  | first :: _ =>
    first.isLower && !(segment.getLast? == some '-') && segment.all isSegmentChar

/-- The method and topic grammar: two or more segments between dots, within the name ceiling. -/
def isValidMethodName (name : String) : Bool :=
  if maxNameChars < name.length then false
  else
    let segments := name.toList.splitOn '.'
    segments.all isValidSegment && decide (2 ≤ segments.length)

theorem isValidMethodName_length {name : String} (h : isValidMethodName name = true) :
    name.length ≤ maxNameChars := by
  unfold isValidMethodName at h
  split at h
  · cases h
  · omega

def isReservedMethodName (name : String) : Bool := rpcReservedPrefix.toList.isPrefixOf name.toList

def isDefinedReservedMethod (name : String) (effectiveMinor : UInt32) : Bool :=
  name == rpcDiscover && decide (rpcDiscoverMinor ≤ effectiveMinor)

def isValidRole (role : String) : Bool :=
  decide (1 ≤ role.length ∧ role.length ≤ maxCodeChars) && isValidSegment role.toList

def isCodeChar (c : Char) : Bool := c.isUpper || c.isDigit || c == '_'

def isValidErrorCode (code : String) : Bool :=
  if 1 ≤ code.length ∧ code.length ≤ maxCodeChars then
    match code.toList with
    | [] => false
    | first :: rest => first.isUpper && rest.all isCodeChar
  else false

/-! ### Members -/

def require (condition : Bool) (error : ValidationError) : Except ValidationError Unit :=
  if condition then .ok () else .error error

section Members

variable (platform : Platform)

def checkLength (field value : String) (min max : Nat) : Except ValidationError Unit :=
  if min ≤ value.length ∧ value.length ≤ max then .ok ()
  else .error ⟨field, describe platform.printable value,
    "a string of " ++ min.repr ++ " to " ++ max.repr ++ " characters"⟩

def checkId (field value : String) : Except ValidationError Unit :=
  checkLength platform field value 1 maxIdChars

def checkMethodName (field value : String) : Except ValidationError Unit :=
  if isValidMethodName value then .ok ()
  else .error ⟨field, describe platform.printable value,
    "at least two dot-separated lowercase segments matching " ++ methodNamePattern ++
      ", at most " ++ maxNameChars.repr ++ " characters"⟩

/-- An announced ceiling is within its range; an absent one is the default. -/
def checkRange (field : String) (value : Option UInt64) (minimum maximum : Nat) :
    Except ValidationError Unit :=
  match value with
  | none => .ok ()
  | some value =>
    if minimum ≤ value.toNat ∧ value.toNat ≤ maximum then .ok ()
    else .error ⟨field, value.toNat.repr,
      "an integer from " ++ minimum.repr ++ " to " ++ maximum.repr⟩

def validateLimits (limits : Limits) : Except ValidationError Unit := do
  checkRange "hello.limits.maxFrameBytes" limits.maxFrameBytes minAnnouncedFrameBytes
    maxAnnouncedFrameBytes
  checkRange "hello.limits.maxInFlight" limits.maxInFlight minAnnouncedInFlight
    maxAnnouncedInFlight

def validateHello (hello : Hello) : Except ValidationError Unit := do
  require (!decide (hello.protocol.major < 1))
    ⟨"hello.protocol.major", hello.protocol.major.toNat.repr, "an integer of at least 1"⟩
  checkLength platform "hello.peer.name" hello.peer.name 1 maxNameChars
  checkLength platform "hello.peer.version" hello.peer.version 1 maxNameChars
  require (isValidRole hello.peer.role)
    ⟨"hello.peer.role", describe platform.printable hello.peer.role,
      "a lowercase label matching ^[a-z][a-z0-9-]*$, at most " ++ maxCodeChars.repr ++
        " characters"⟩
  match hello.limits with
  | some limits => validateLimits limits
  | none => .ok ()

def validateErrorPayload (field : String) (payload : ErrorPayload) :
    Except ValidationError Unit := do
  require (isValidErrorCode payload.code)
    ⟨field ++ ".code", describe platform.printable payload.code,
      "a code matching ^[A-Z][A-Z0-9_]*$, 1 to " ++ maxCodeChars.repr ++ " characters"⟩
  checkLength platform (field ++ ".message") payload.message 1 usizeMax

def validateRequest (request : Request) : Except ValidationError Unit := do
  checkId platform "req.id" request.id
  checkMethodName platform "req.method" request.method

def validateResponse (response : Response) : Except ValidationError Unit :=
  checkId platform "res.id" response.id

def validateEvent (event : Event) : Except ValidationError Unit := do
  checkMethodName platform "evt.topic" event.topic
  match event.streamId with
  | some streamId => checkId platform "evt.streamId" streamId
  | none => .ok ()

def validateClose (close : Close) : Except ValidationError Unit := do
  require (decide (minCloseCode ≤ close.code) && decide (close.code ≤ maxCloseCode))
    ⟨"close.code", close.code.toNat.repr, "an integer from " ++ minCloseCode.toNat.repr ++
      " to " ++ maxCloseCode.toNat.repr⟩
  match close.reason with
  | some reason => checkLength platform "close.reason" reason 0 maxReasonChars
  | none => .ok ()

def validate : Frame → Except ValidationError Unit
  | .hello hello => validateHello platform hello
  | .req request => validateRequest platform request
  | .res response => validateResponse platform response
  | .err error => do
    checkId platform "err.id" error.id
    validateErrorPayload platform "err.error" error.error
  | .evt event => validateEvent platform event
  | .cancel cancel => checkId platform "cancel.id" cancel.id
  | .ping | .pong => .ok ()
  | .close close => validateClose platform close

end Members

/-! ### What a valid frame satisfies -/

section Specifications

variable {platform : Platform}

@[simp] theorem require_eq_ok {condition : Bool} {error : ValidationError} :
    require condition error = .ok () ↔ condition = true := by
  cases condition <;> simp [require]

@[simp] theorem checkLength_eq_ok {field value : String} {min max : Nat} :
    checkLength platform field value min max = .ok () ↔
      min ≤ value.length ∧ value.length ≤ max := by
  unfold checkLength
  split <;> simp_all

@[simp] theorem checkId_eq_ok {field value : String} :
    checkId platform field value = .ok () ↔ 1 ≤ value.length ∧ value.length ≤ maxIdChars :=
  checkLength_eq_ok

@[simp] theorem checkMethodName_eq_ok {field value : String} :
    checkMethodName platform field value = .ok () ↔ isValidMethodName value = true := by
  unfold checkMethodName
  split <;> simp_all

theorem check_bind_eq_ok {first : Except ValidationError Unit}
    {second : Unit → Except ValidationError Unit} :
    (first >>= second) = .ok () ↔ first = .ok () ∧ second () = .ok () := by
  cases first <;> simp [bind, Except.bind]

theorem checkRange_eq_ok {field : String} {value : Option UInt64} {minimum maximum : Nat} :
    checkRange field value minimum maximum = .ok () ↔
      ∀ n ∈ value, minimum ≤ n.toNat ∧ n.toNat ≤ maximum := by
  cases value with
  | none => simp [checkRange]
  | some n =>
    simp only [checkRange]
    split <;> simp_all

theorem validateLimits_eq_ok {limits : Limits} :
    validateLimits limits = .ok () ↔
      (∀ n ∈ limits.maxFrameBytes,
        minAnnouncedFrameBytes ≤ n.toNat ∧ n.toNat ≤ maxAnnouncedFrameBytes) ∧
      ∀ n ∈ limits.maxInFlight, minAnnouncedInFlight ≤ n.toNat ∧
        n.toNat ≤ maxAnnouncedInFlight := by
  simp only [validateLimits, check_bind_eq_ok, checkRange_eq_ok]

theorem validate_hello_limits {hello : Hello} (h : validate platform (.hello hello) = .ok ()) :
    ∀ limits ∈ hello.limits, validateLimits limits = .ok () := by
  intro limits hl
  simp only [validate, validateHello, check_bind_eq_ok, Option.mem_def.mp hl] at h
  exact h.2.2.2.2

theorem validate_req {request : Request} :
    validate platform (.req request) = .ok () ↔
      (1 ≤ request.id.length ∧ request.id.length ≤ maxIdChars) ∧
        isValidMethodName request.method = true := by
  simp only [validate, validateRequest, check_bind_eq_ok, checkId_eq_ok, checkMethodName_eq_ok]

theorem validate_res {response : Response} :
    validate platform (.res response) = .ok () ↔
      1 ≤ response.id.length ∧ response.id.length ≤ maxIdChars := by
  simp only [validate, validateResponse, checkId_eq_ok]

theorem validate_err {error : ErrorResponse} :
    validate platform (.err error) = .ok () ↔
      (1 ≤ error.id.length ∧ error.id.length ≤ maxIdChars) ∧
        isValidErrorCode error.error.code = true ∧
        1 ≤ error.error.message.length ∧ error.error.message.length ≤ usizeMax := by
  simp only [validate, validateErrorPayload, check_bind_eq_ok, checkId_eq_ok, require_eq_ok,
    checkLength_eq_ok]

end Specifications

end MangoProtocol
