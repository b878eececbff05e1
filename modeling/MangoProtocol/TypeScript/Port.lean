import MangoProtocol.TypeScript.Ndjson
import MangoProtocol.TypeScript.JsString

/-! The close codes of the TypeScript package and why a port stops. -/

namespace MangoProtocol.TypeScript

namespace closeCodes

def released : Nat := 4000
def protocolError : Nat := 4400
def unauthorized : Nat := 4401
def forbidden : Nat := 4403
def superseded : Nat := 4409
def protocolMismatch : Nat := 4426

end closeCodes

def closeCodeMin : Nat := 4000

def closeCodeMax : Nat := 4999

def fatalCloseCodes : List Nat :=
  [closeCodes.unauthorized, closeCodes.forbidden, closeCodes.superseded,
    closeCodes.protocolMismatch]

def isFatalCloseCode (code : Nat) : Bool := fatalCloseCodes.contains code

/-- The codes that a `close` frame may carry. -/
def isCloseCode (code : Nat) : Bool := closeCodeMin ≤ code && code ≤ closeCodeMax

/-- The close code that a transport sends after a refusal of its decoder. -/
def closeCodeForCodecError (error : CodecError) : Nat :=
  if error.kind = .schema ∧ error.frameType = some "hello" then closeCodes.protocolMismatch
  else closeCodes.protocolError

/-- Why a port stopped delivering frames. -/
inductive PortClosure where
  | closed (code : Option Nat) (reason : Option JsString)
  | protocolError (error : CodecError) (code : Nat)
  deriving DecidableEq, Repr

/-- What the `send` of a port throws: the port is closed, or the codec refused the frame. -/
inductive PortThrown where
  | closed (message : JsString)
  | encode (thrown : Thrown)
  deriving DecidableEq, Repr

end MangoProtocol.TypeScript
