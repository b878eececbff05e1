import MangoProtocol.TypeScript.Frames
import MangoProtocol.TypeScript.WebSocketPort

/-! The NDJSON port of the TypeScript package, over a sink of bytes.  It writes a record for each
frame, feeds what arrives to a line decoder, and ends the sink whatever ends the port.  Each
function gives the port after it and what it did to the sink and to the listeners, in order. -/

namespace MangoProtocol.TypeScript

open ProofKit

/-- What the port is doing. -/
inductive PortState where
  | open_
  | closed
  | protocolError
  | ended
  | failed
  deriving DecidableEq, Repr

def PortState.text : PortState → String
  | .open_ => "open"
  | .closed => "closed"
  | .protocolError => "protocol-error"
  | .ended => "ended"
  | .failed => "failed"

/-- What the port does to the outside: a record that `sink.write` took, `sink.end`, and the calls of
the listeners. -/
inductive NdjsonAction (φ : Type) where
  | wrote (record : List UInt8)
  | ended
  | frame (frame : φ)
  | closure (closure : PortClosure)

/-- One port.  It has one listener for frames and one for its closure at most.  `feeding` holds what
the calls of `feed` have still to deliver, the innermost call first: a listener may call the port
from within them. -/
structure NdjsonPort (φ : Type) where
  maxFrameBytes : Nat
  decoder : LineDecoder
  frames : Bool
  closed : Bool
  state : PortState
  why : JsString
  sinkWritable : Bool
  sinkEnded : Bool
  feeding : List (LineDecoderOutcome φ)
  atLeast : minMaxFrameBytes ≤ maxFrameBytes

namespace NdjsonPort

variable {φ : Type}

/-- The options of the constructor; a frame limit below the floor throws. -/
def new (maxFrameBytes : Option Nat) : Except Thrown (NdjsonPort φ) :=
  match h : resolveFrameLimit maxFrameBytes with
  | .error thrown => .error thrown
  | .ok limit => .ok {
      maxFrameBytes := limit
      decoder := .new limit (le_of_resolveFrameLimit h)
      frames := false
      closed := false
      state := .open_
      why := []
      sinkWritable := true
      sinkEnded := false
      feeding := []
      atLeast := le_of_resolveFrameLimit h }

def closedError (self : NdjsonPort φ) : JsString :=
  js ("NDJSON port is in state \"" ++ self.state.text ++ "\" (") ++ self.why ++
    js "); expected state \"open\" to send a frame."

/-- One part of a call after another. -/
def andThen (first : NdjsonPort φ × List (NdjsonAction φ))
    (next : NdjsonPort φ → NdjsonPort φ × List (NdjsonAction φ)) :
    NdjsonPort φ × List (NdjsonAction φ) :=
  ((next first.1).1, first.2 ++ (next first.1).2)

/-! ### The end of the port -/

/-- Runs the teardown of the transport once. -/
def endSink (self : NdjsonPort φ) : NdjsonPort φ × List (NdjsonAction φ) :=
  if self.sinkEnded then (self, [])
  else ({ self with sinkEnded := true, sinkWritable := false }, [.ended])

def report (self : NdjsonPort φ) (closure : PortClosure) : NdjsonPort φ × List (NdjsonAction φ) :=
  ({ self with frames := false, closed := false },
    if self.closed then [.closure closure] else [])

/-- The peer reached the end of its stream. -/
def eof (self : NdjsonPort φ) : NdjsonPort φ × List (NdjsonAction φ) :=
  if self.state ≠ .open_ then (self, [])
  else
    andThen { self with
        state := .ended, why := js "the peer reached end of file" }.endSink
      (report · (.closed none none))

/-- The transport broke. -/
def failed (self : NdjsonPort φ) (message : JsString) : NdjsonPort φ × List (NdjsonAction φ) :=
  if self.state ≠ .open_ then (self, [])
  else
    andThen { self with state := .failed, why := message }.endSink
      (report · (.closed none (some message)))

/-- Writes one record.  `pipe` is the message of the error that `sink.write` throws, if it throws; a
write that throws fails the port. -/
def writeLine (self : NdjsonPort φ) (record : List UInt8) (pipe : Option JsString) :
    (NdjsonPort φ × List (NdjsonAction φ)) × Bool :=
  if ¬self.sinkWritable then ((self, []), false)
  else
    match pipe with
    | none => ((self, [.wrote record]), true)
    | some message => ({ self with sinkWritable := false }.failed message, false)

section Format

variable (format : FrameFormat φ)

/-- The bytes of `encodeLine`. -/
def encodeRecord (self : NdjsonPort φ) (frame : φ) : Except Thrown (List UInt8) :=
  (encodeFrameBytes format.serialise frame (some self.maxFrameBytes)).map (· ++ [lineFeed])

/-- Sends one frame, or throws. -/
def send (self : NdjsonPort φ) (frame : φ) (pipe : Option JsString) :
    (NdjsonPort φ × List (NdjsonAction φ)) × Option PortThrown :=
  if self.state ≠ .open_ then ((self, []), some (.closed self.closedError))
  else
    match self.encodeRecord format frame with
    | .error thrown => ((self, []), some (.encode thrown))
    | .ok record =>
      let written := self.writeLine record pipe
      (written.1, if written.2 then none else some (.closed written.1.1.closedError))

/-- The farewell as bytes, without its reason if that is what it takes to fit. -/
def encodeClose (self : NdjsonPort φ) (code : Nat) (reason : Option JsString) :
    Option (List UInt8) :=
  [reason, none].findSome? fun candidate =>
    (self.encodeRecord format (format.closeFrame code candidate)).toOption

/-- Writes the farewell before the stream ends, if the sink still takes it. -/
def writeClose (self : NdjsonPort φ) (code : Nat) (reason : Option JsString)
    (pipe : Option JsString) : NdjsonPort φ × List (NdjsonAction φ) :=
  if ¬self.sinkWritable then (self, [])
  else
    match self.encodeClose format code (reason.map (·.take closeReasonMaxLength)) with
    | none => ({ self with sinkWritable := false }, [])
    | some record =>
      match pipe with
      | none => (self, [.wrote record])
      | some _ => ({ self with sinkWritable := false }, [])

/-- The owner closes the port: the peer is told, and the owner hears nothing back. -/
def close (self : NdjsonPort φ) (code : Nat) (reason : Option JsString) (pipe : Option JsString) :
    NdjsonPort φ × List (NdjsonAction φ) :=
  if self.state ≠ .open_ then (self, [])
  else
    andThen
      (andThen
        ({ self with
          state := .closed
          why := js ("closed by this side with " ++ code.repr)
        }.writeClose format code reason pipe) endSink)
      fun ended => ({ ended with frames := false, closed := false }, [])

/-- A refused line ends the stream. -/
def refuse (self : NdjsonPort φ) (error : CodecError) (pipe : Option JsString) :
    NdjsonPort φ × List (NdjsonAction φ) :=
  let code := closeCodeForCodecError error
  let message := js error.message
  andThen
    (andThen
      ({ self with state := .protocolError, why := message }.writeClose format code (some message)
        pipe) endSink)
    (report · (.protocolError error code))

/-- Decodes what arrived. -/
def feed (self : NdjsonPort φ) (bytes : List UInt8) : NdjsonPort φ :=
  if self.state ≠ .open_ then self
  else
    let pushed := self.decoder.push format.parse bytes
    { self with decoder := pushed.1, feeding := pushed.2 :: self.feeding }

/-- One turn of the loop of `feed`, and the refusal after it; nothing when no `feed` is running. -/
def deliver (self : NdjsonPort φ) (pipe : Option JsString) :
    Option (NdjsonPort φ × List (NdjsonAction φ)) :=
  match self.feeding with
  | [] => none
  | ⟨[], none⟩ :: feeding => some ({ self with feeding }, [])
  | ⟨[], some error⟩ :: feeding => some ({ self with feeding }.refuse format error pipe)
  | ⟨frame :: frames, error⟩ :: feeding =>
    if self.state ≠ .open_ then some ({ self with feeding }, [])
    else
      some ({ self with feeding := ⟨frames, error⟩ :: feeding },
        if self.frames then [.frame frame] else [])

end Format

end NdjsonPort

/-! ### Runs -/

inductive NdjsonCall (φ : Type) where
  | send (frame : φ) (pipe : Option JsString)
  | close (code : Nat) (reason : Option JsString) (pipe : Option JsString)
  | feed (bytes : List UInt8)
  | deliver (pipe : Option JsString)
  | eof
  | failed (message : JsString)
  | onFrame
  | detachFrames
  | onClosed
  | detachClosed

/-- A port and all that it did. -/
structure NdjsonRun (φ : Type) where
  port : NdjsonPort φ
  actions : List (NdjsonAction φ)

namespace NdjsonRun

variable {φ : Type} (format : FrameFormat φ)

def start (port : NdjsonPort φ) : NdjsonRun φ := ⟨port, []⟩

def record (self : NdjsonRun φ) (result : NdjsonPort φ × List (NdjsonAction φ)) : NdjsonRun φ :=
  ⟨result.1, self.actions ++ result.2⟩

/-- One call.  A second listener, and a turn of a loop that is not running, are not enabled. -/
def step (self : NdjsonRun φ) : NdjsonCall φ → Option (NdjsonRun φ)
  | .send frame pipe => some (self.record (self.port.send format frame pipe).1)
  | .close code reason pipe => some (self.record (self.port.close format code reason pipe))
  | .feed bytes => some (self.record (self.port.feed format bytes, []))
  | .deliver pipe => (self.port.deliver format pipe).map self.record
  | .eof => some (self.record self.port.eof)
  | .failed message => some (self.record (self.port.failed message))
  | .onFrame =>
    if self.port.frames then none else some (self.record ({ self.port with frames := true }, []))
  | .detachFrames => some (self.record ({ self.port with frames := false }, []))
  | .onClosed =>
    if self.port.closed then none else some (self.record ({ self.port with closed := true }, []))
  | .detachClosed => some (self.record ({ self.port with closed := false }, []))

end NdjsonRun

/-! ### The sink over a run -/

section Sink

variable {φ : Type}

def NdjsonAction.ofSink : NdjsonAction φ → Bool
  | .wrote _ | .ended => true
  | .frame _ | .closure _ => false

/-- The calls of the sink among some actions. -/
def sinkOf (actions : List (NdjsonAction φ)) : List (NdjsonAction φ) :=
  actions.filter NdjsonAction.ofSink

theorem sinkOf_append (actions more : List (NdjsonAction φ)) :
    sinkOf (actions ++ more) = sinkOf actions ++ sinkOf more :=
  List.filter_append ..

theorem sinkOf_wrote (records : List (List UInt8)) :
    sinkOf (records.map NdjsonAction.wrote : List (NdjsonAction φ)) = records.map .wrote := by
  simp [sinkOf, NdjsonAction.ofSink]

namespace NdjsonPort

variable {self told : NdjsonPort φ} {result : NdjsonPort φ × List (NdjsonAction φ)}
  {format : FrameFormat φ}

structure Sound (port : NdjsonPort φ) : Prop where
  writable : port.sinkWritable = !port.sinkEnded
  ended : port.sinkEnded = true ↔ port.state ≠ .open_

theorem Sound.isOpen (h : self.Sound) (ho : self.state = .open_) :
    self.sinkEnded = false ∧ self.sinkWritable = true := by
  have he : self.sinkEnded = false :=
    Bool.eq_false_iff.mpr fun ht => h.ended.mp ht ho
  exact ⟨he, by rw [h.writable, he]; rfl⟩

inductive Moves (before : NdjsonPort φ) (result : NdjsonPort φ × List (NdjsonAction φ)) : Prop where
  | stays (records : List (List UInt8)) (ended : result.1.sinkEnded = before.sinkEnded)
      (written : sinkOf result.2 = records.map .wrote)
      (silent : before.sinkEnded = true → records = [])
  | ends (records : List (List UInt8)) (before : before.sinkEnded = false)
      (ended : result.1.sinkEnded = true)
      (written : sinkOf result.2 = records.map .wrote ++ [.ended])

variable {next : NdjsonPort φ → NdjsonPort φ × List (NdjsonAction φ)}
  {actions : List (NdjsonAction φ)} {port : NdjsonPort φ}

theorem moves_quiet (h : self.Sound) (he : port.sinkEnded = self.sinkEnded)
    (hw : port.sinkWritable = self.sinkWritable)
    (hs : port.state = .open_ ↔ self.state = .open_) (hq : sinkOf actions = []) :
    port.Sound ∧ Moves self (port, actions) := by
  refine ⟨⟨?_, ?_⟩, .stays [] he hq fun _ => rfl⟩
  · rw [hw, he, h.writable]
  · rw [he, h.ended, Ne, Ne, hs]

theorem writeClose_spec (told : NdjsonPort φ) (format : FrameFormat φ) (code : Nat)
    (reason pipe : Option JsString) :
    (told.writeClose format code reason pipe).1.state = told.state ∧
      (told.writeClose format code reason pipe).1.sinkEnded = told.sinkEnded ∧
      ∃ records : List (List UInt8),
        (told.writeClose format code reason pipe).2 = records.map .wrote := by
  unfold writeClose
  split
  · exact ⟨rfl, rfl, [], rfl⟩
  split
  · exact ⟨rfl, rfl, [], rfl⟩
  split
  · exact ⟨rfl, rfl, [_], rfl⟩
  · exact ⟨rfl, rfl, [], rfl⟩

theorem moves_end (records : List (List UInt8)) {after : NdjsonPort φ}
    (hb : self.sinkEnded = false) (hs : after.state ≠ .open_)
    (he : after.sinkEnded = true) (hw : after.sinkWritable = false)
    (hwr : sinkOf actions = records.map .wrote ++ [.ended]) :
    after.Sound ∧ Moves self (after, actions) :=
  ⟨⟨by rw [hw, he]; rfl, iff_of_true he hs⟩,
    .ends records hb he hwr⟩

theorem endSink_open (h : told.sinkEnded = false) :
    told.endSink = ({ told with sinkEnded := true, sinkWritable := false }, [.ended]) := by
  rw [endSink, h]
  rfl

theorem sinkOf_report (closure : PortClosure) : sinkOf (self.report closure).2 = [] := by
  unfold report
  dsimp only
  split <;> rfl

structure Spares (port : NdjsonPort φ) (result : NdjsonPort φ × List (NdjsonAction φ)) : Prop where
  state : result.1.state = port.state
  ended : result.1.sinkEnded = port.sinkEnded
  writable : result.1.sinkWritable = port.sinkWritable
  quiet : sinkOf result.2 = []

theorem report_spares (closure : PortClosure) (port : NdjsonPort φ) :
    port.Spares (port.report closure) :=
  ⟨rfl, rfl, rfl, sinkOf_report closure⟩

theorem andThen_moves (records : List (List UInt8)) {ended : NdjsonPort φ × List (NdjsonAction φ)}
    (hb : self.sinkEnded = false) (hst : told.state ≠ .open_)
    (he : ended = ({ told with sinkEnded := true, sinkWritable := false },
      records.map .wrote ++ [.ended])) (hn : ∀ port, Spares port (next port)) :
    (andThen ended next).1.Sound ∧ Moves self (andThen ended next) := by
  have hs := hn { told with sinkEnded := true, sinkWritable := false }
  rw [he]
  refine moves_end records hb (ne_of_eq_of_ne hs.state hst) hs.ended
    hs.writable ?_
  rw [sinkOf_append, hs.quiet, List.append_nil, sinkOf_append, sinkOf_wrote]
  rfl

theorem eof_moves (h : self.Sound) : self.eof.1.Sound ∧ Moves self self.eof := by
  unfold eof
  split
  · exact moves_quiet h rfl rfl Iff.rfl rfl
  · rename_i hs
    obtain ⟨he, -⟩ := h.isOpen (not_not.mp hs)
    refine andThen_moves [] he ?_ (endSink_open ?_) (report_spares _)
    · simp
    · exact he

theorem failed_moves (h : self.Sound) (message : JsString) :
    (self.failed message).1.Sound ∧ Moves self (self.failed message) := by
  unfold failed
  split
  · exact moves_quiet h rfl rfl Iff.rfl rfl
  · rename_i hs
    obtain ⟨he, -⟩ := h.isOpen (not_not.mp hs)
    refine andThen_moves [] he ?_ (endSink_open ?_) (report_spares _)
    · simp
    · exact he

theorem writeClose_moves (hb : self.sinkEnded = false) (ht : told.sinkEnded = false)
    (hs : told.state ≠ .open_) (code : Nat) (reason pipe : Option JsString)
    (hn : ∀ port, Spares port (next port)) :
    (andThen (andThen (told.writeClose format code reason pipe) endSink) next).1.Sound ∧
      Moves self (andThen (andThen (told.writeClose format code reason pipe) endSink) next) := by
  obtain ⟨hsa, hsi, records, hr⟩ := writeClose_spec told format code reason pipe
  refine andThen_moves records hb (ne_of_eq_of_ne hsa hs) ?_ hn
  rw [andThen, endSink_open (hsi.trans ht), hr]

theorem close_moves (h : self.Sound) (code : Nat) (reason pipe : Option JsString) :
    (self.close format code reason pipe).1.Sound ∧
      Moves self (self.close format code reason pipe) := by
  unfold close
  split
  · exact moves_quiet h rfl rfl Iff.rfl rfl
  · rename_i hs
    obtain ⟨he, -⟩ := h.isOpen (not_not.mp hs)
    refine writeClose_moves he ?_ ?_ code reason pipe fun port => ?_
    · exact he
    · simp
    · exact ⟨rfl, rfl, rfl, rfl⟩

theorem refuse_moves (h : self.Sound) (error : CodecError) (pipe : Option JsString) :
    (self.refuse format error pipe).1.Sound ∧ Moves self (self.refuse format error pipe) := by
  unfold refuse
  by_cases he : self.sinkEnded = true
  · have hw : self.sinkWritable = false := by rw [h.writable, he]; rfl
    simp only [writeClose, hw, andThen, endSink, he]
    refine moves_quiet h ?_ ?_ ?_ ?_
    · exact he.symm
    · exact hw.symm
    · exact iff_of_false (by simp [report]) (h.ended.mp he)
    · exact sinkOf_report _
  · have hf := Bool.eq_false_iff.mpr he
    refine writeClose_moves hf ?_ ?_ _ _ pipe (report_spares _)
    · exact hf
    · simp

theorem send_moves (h : self.Sound) (frame : φ) (pipe : Option JsString) :
    (self.send format frame pipe).1.1.Sound ∧ Moves self (self.send format frame pipe).1 := by
  unfold send
  split
  · exact moves_quiet h rfl rfl Iff.rfl rfl
  rename_i hs
  obtain ⟨he, hw⟩ := h.isOpen (not_not.mp hs)
  split
  · exact moves_quiet h rfl rfl Iff.rfl rfl
  · rename_i record _
    cases pipe with
    | none =>
      simp only [writeLine, hw]
      refine ⟨h, .stays [record] rfl rfl fun ht => ?_⟩
      cases he.symm.trans ht
    | some message =>
      simp only [writeLine, hw, failed]
      rw [if_neg hs]
      refine andThen_moves [] he ?_ (endSink_open ?_) (report_spares _)
      · simp
      · exact he

theorem Moves.congr (h : Moves self result) (hs : port.sinkEnded = self.sinkEnded) :
    Moves port result := by
  cases h with
  | stays records he hw hsi =>
    exact .stays records (he.trans hs.symm) hw fun h => hsi (hs.symm.trans h)
  | ends records hb he hw =>
    exact .ends records (hs.trans hb) he hw

theorem deliver_moves (h : self.Sound) (pipe : Option JsString)
    (hd : self.deliver format pipe = some result) :
    result.1.Sound ∧ Moves self result := by
  unfold deliver at hd
  split at hd
  · cases hd
  · cases hd
    exact moves_quiet h rfl rfl Iff.rfl rfl
  · cases hd
    rename_i error feeding _
    have hsa : ({ self with feeding } : NdjsonPort φ).Sound := ⟨h.writable, h.ended⟩
    obtain ⟨hs, hm⟩ := refuse_moves hsa error pipe
    exact ⟨hs, hm.congr rfl⟩
  · split at hd
    · cases hd
      exact moves_quiet h rfl rfl Iff.rfl rfl
    · cases hd
      exact moves_quiet h rfl rfl Iff.rfl (by split <;> rfl)

end NdjsonPort

namespace NdjsonRun

variable {format : FrameFormat φ} {self next run : NdjsonRun φ} {call : NdjsonCall φ}
  {port : NdjsonPort φ} {calls : List (NdjsonCall φ)}

theorem step_moves (h : self.port.Sound) (hs : self.step format call = some next) :
    ∃ result, next = self.record result ∧ result.1.Sound ∧ self.port.Moves result := by
  cases call with
  | send frame pipe =>
    cases hs
    exact ⟨_, rfl, NdjsonPort.send_moves h frame pipe⟩
  | close code reason pipe =>
    cases hs
    exact ⟨_, rfl, NdjsonPort.close_moves h code reason pipe⟩
  | feed bytes =>
    cases hs
    refine ⟨_, rfl, ?_⟩
    unfold NdjsonPort.feed
    split
    · exact NdjsonPort.moves_quiet h rfl rfl Iff.rfl rfl
    · exact NdjsonPort.moves_quiet h rfl rfl Iff.rfl rfl
  | deliver pipe =>
    obtain ⟨result, hd, rfl⟩ := Option.map_eq_some_iff.mp hs
    exact ⟨result, rfl, NdjsonPort.deliver_moves h pipe hd⟩
  | eof =>
    cases hs
    exact ⟨_, rfl, NdjsonPort.eof_moves h⟩
  | failed message =>
    cases hs
    exact ⟨_, rfl, NdjsonPort.failed_moves h message⟩
  | onFrame =>
    obtain ⟨-, hn⟩ := Option.ite_none_left_eq_some.mp hs
    cases hn
    exact ⟨_, rfl, NdjsonPort.moves_quiet h rfl rfl Iff.rfl rfl⟩
  | onClosed =>
    obtain ⟨-, hn⟩ := Option.ite_none_left_eq_some.mp hs
    cases hn
    exact ⟨_, rfl, NdjsonPort.moves_quiet h rfl rfl Iff.rfl rfl⟩
  | detachFrames =>
    cases hs
    exact ⟨_, rfl, NdjsonPort.moves_quiet h rfl rfl Iff.rfl rfl⟩
  | detachClosed =>
    cases hs
    exact ⟨_, rfl, NdjsonPort.moves_quiet h rfl rfl Iff.rfl rfl⟩

structure Settled (run : NdjsonRun φ) : Prop where
  sound : run.port.Sound
  sink : ∃ records : List (List UInt8), sinkOf run.actions =
    records.map .wrote ++ if run.port.sinkEnded then [.ended] else []

theorem Settled.step (h : self.Settled) (hst : self.step format call = some next) :
    next.Settled := by
  obtain ⟨records, hsi⟩ := h.sink
  obtain ⟨result, rfl, hso, hm⟩ := step_moves h.sound hst
  refine ⟨hso, ?_⟩
  rw [record, sinkOf_append, hsi]
  cases hm with
  | stays more he hw hs =>
    rw [he, hw]
    by_cases hb : self.port.sinkEnded = true
    · rw [hs hb]
      exact ⟨records, List.append_nil _⟩
    · rw [if_neg hb]
      exact ⟨records ++ more, by simp⟩
  | ends more hb he hw =>
    rw [he, hw, hb]
    exact ⟨records ++ more, by simp⟩

variable {maxFrameBytes : Option Nat}

theorem start_settled (hn : NdjsonPort.new maxFrameBytes = .ok port) : (start port).Settled := by
  unfold NdjsonPort.new at hn
  split at hn
  · cases hn
  · cases hn
    exact ⟨⟨rfl, iff_of_false (by simp [start]) (by simp [start])⟩, [], rfl⟩

theorem run_settled (hn : NdjsonPort.new maxFrameBytes = .ok port)
    (hr : Machine.run (step format) (start port) calls = some run) : run.Settled :=
  Machine.run_invariant Settled (fun _ _ _ h hs => h.step hs) (start_settled hn) hr

end NdjsonRun

end Sink

end MangoProtocol.TypeScript
