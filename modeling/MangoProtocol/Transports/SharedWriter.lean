import MangoProtocol.Codec.RoundTrip
import MangoProtocol.ProofKit.Machine

/-! The writable half of an NDJSON port, which its two halves and its closers share behind a fair
mutex.  A step takes one call from one await to the next, or decides what an await comes to; calls
may be in any number and their steps in any order. -/

namespace MangoProtocol

open ProofKit

def Frame.record (frame : Frame) : List UInt8 := frame.toVec ++ [newline]

def Frame.isClose : Frame → Bool
  | .close _ => true
  | _ => false

def clampReason (reason : String) : String :=
  if reason.length ≤ maxReasonChars then reason
  else String.ofList (reason.toList.take maxReasonChars)

/-- The close frame that `write_close` writes: without its reason if it does not encode with it, and
none if its code is not one a close frame may carry. -/
def farewell (platform : Platform) (maxFrameBytes : Nat) (code : UInt16) (reason : Option String) :
    Option Frame :=
  let frame := Frame.close ⟨code, reason.map clampReason⟩
  let bare := Frame.close ⟨code, none⟩
  match encodeLine platform frame maxFrameBytes with
  | .ok _ => some frame
  | .error _ =>
    match encodeLine platform bare maxFrameBytes with
    | .ok _ => some bare
    | .error _ => none

/-! ### Calls -/

/-- Where a call on the writer is.  A `send` ends with its record; an `end` goes on to
`shut_down`. -/
inductive WriterStage where
  | starting
  | waiting
  | writing
  /-- The record is over, and `shut_down` is next. -/
  | closing
  /-- `shut_down` has set `ending`. -/
  | signalled
  | shutting
  | over
  deriving DecidableEq

/-- What became of the record of a call. -/
inductive RecordFate where
  | pending
  | written
  | failed
  | evicted
  | timedOut
  | unwritable
  | dropped
  deriving DecidableEq

structure WriterCall where
  frame : Option Frame
  ends : Bool
  stage : WriterStage
  fate : RecordFate

/-- The record of a call is over. -/
def WriterCall.settle (fate : RecordFate) (call : WriterCall) : WriterCall :=
  { call with stage := if call.ends then .closing else .over, fate }

/-- The call is dropped where it is. -/
def WriterCall.dropped (call : WriterCall) : WriterCall :=
  { call with stage := .over, fate := if call.fate = .pending then .dropped else call.fate }

/-- The guard of the mutex while its holder writes: whose it is, the record, and the bytes of it
that the handle has not taken yet. -/
structure WriterGuard where
  call : Nat
  frame : Frame
  ends : Bool
  rest : List UInt8

/-- The shared writer.  `queue` are the calls that wait for the mutex, oldest first; `writer` says
whether the handle is still there and `output` is what it took.  `begun` is a history, the frames
whose records were begun. -/
structure SharedWriter where
  guard : Option WriterGuard
  queue : List Nat
  writer : Bool
  writable : Bool
  ending : Bool
  output : List UInt8
  calls : List WriterCall
  begun : List Frame

inductive WriterLabel where
  | writeFrame (frame : Frame)
  | end_ (code : UInt16) (reason : Option String)
  | shutDown
  | lock (call : Nat)
  | acquire
  | write (count : Nat)
  | flush
  | fail
  | evict
  | timeout (call : Nat)
  | signal (call : Nat)
  | drop (call : Nat)

namespace SharedWriter

def new : SharedWriter := ⟨none, [], true, true, false, [], [], []⟩

def setStage (self : SharedWriter) (index : Nat) (stage : WriterStage) : SharedWriter :=
  { self with calls := self.calls.modify index fun call => { call with stage } }

def settle (self : SharedWriter) (index : Nat) (fate : RecordFate) : SharedWriter :=
  { self with calls := self.calls.modify index (.settle fate) }

def writeFrame (platform : Platform) (maxFrameBytes : Nat) (self : SharedWriter) (frame : Frame) :
    SharedWriter :=
  match encodeLine platform frame maxFrameBytes with
  | .error _ => self
  | .ok _ =>
    if self.ending then self
    else { self with calls := self.calls ++ [⟨some frame, false, .starting, .pending⟩] }

/-- The start of `end`, up to the mutex. -/
def end_ (platform : Platform) (maxFrameBytes : Nat) (self : SharedWriter) (code : UInt16)
    (reason : Option String) : SharedWriter :=
  match farewell platform maxFrameBytes code reason with
  | some frame => { self with calls := self.calls ++ [⟨some frame, true, .starting, .pending⟩] }
  | none => { self with calls := self.calls ++ [⟨none, true, .closing, .unwritable⟩] }

def shutDown (self : SharedWriter) : SharedWriter :=
  { self with calls := self.calls ++ [⟨none, true, .closing, .unwritable⟩] }

/-- A call asks for the mutex, for its record or for the end of the half. -/
def lock (self : SharedWriter) (index : Nat) : Option SharedWriter :=
  self.calls[index]?.bind fun call =>
    match call.stage with
    | .starting => some ({ self with queue := self.queue ++ [index] }.setStage index .waiting)
    | .signalled => some ({ self with queue := self.queue ++ [index] }.setStage index .shutting)
    | _ => none

/-- The oldest waiting call gets the mutex, and keeps it if it has a record to write. -/
def acquire (self : SharedWriter) : Option SharedWriter :=
  match self.guard, self.queue with
  | none, index :: queue =>
    self.calls[index]?.bind fun call =>
      match call.stage, call.frame with
      | .waiting, some frame =>
        if self.writable && self.writer then
          some ({ self with
            queue
            guard := some ⟨index, frame, call.ends, frame.record⟩
            begun := self.begun ++ [frame] }.setStage index .writing)
        else some ({ self with queue }.settle index .unwritable)
      | .shutting, _ =>
        some ({ self with queue, writable := false, writer := false }.setStage index .over)
      | _, _ => none
  | _, _ => none

/-- The handle takes some bytes of the record. -/
def write (self : SharedWriter) (count : Nat) : Option SharedWriter :=
  self.guard.bind fun guard =>
    if 0 < count ∧ count ≤ guard.rest.length then
      some { self with
        output := self.output ++ guard.rest.take count
        guard := some { guard with rest := guard.rest.drop count } }
    else none

/-- The record is written and flushed. -/
def flush (self : SharedWriter) : Option SharedWriter :=
  self.guard.bind fun guard =>
    if guard.rest = [] then some ({ self with guard := none }.settle guard.call .written) else none

/-- The handle refuses a write or the flush. -/
def fail (self : SharedWriter) : Option SharedWriter :=
  self.guard.map fun guard =>
    { self with guard := none, writable := false }.settle guard.call .failed

/-- Whoever ends the port evicts a `send`. -/
def evict (self : SharedWriter) : Option SharedWriter :=
  self.guard.bind fun guard =>
    if guard.ends = false ∧ self.ending then
      some ({ self with guard := none, writable := false }.settle guard.call .evicted)
    else none

/-- The call holds the mutex. -/
def holds (self : SharedWriter) (index : Nat) : Bool :=
  self.guard.any fun guard => guard.call = index

/-- Takes a call away from the mutex, whether it holds it or waits for it. -/
def leave (self : SharedWriter) (index : Nat) : SharedWriter :=
  if self.holds index then { self with guard := none }
  else { self with queue := self.queue.filter (· ≠ index) }

/-- A farewell runs out its grace. -/
def timeout (self : SharedWriter) (index : Nat) : Option SharedWriter :=
  self.calls[index]?.bind fun call =>
    if call.ends ∧ (call.stage = .waiting ∨ call.stage = .writing) then
      some ((self.leave index).settle index .timedOut)
    else none

def signal (self : SharedWriter) (index : Nat) : Option SharedWriter :=
  self.calls[index]?.bind fun call =>
    if call.stage = .closing then some ({ self with ending := true }.setStage index .signalled)
    else none

/-- The future of an `end` is dropped. -/
def drop (self : SharedWriter) (index : Nat) : Option SharedWriter :=
  self.calls[index]?.bind fun call =>
    if call.ends then
      let left := self.leave index
      some { left with calls := left.calls.modify index .dropped }
    else none

def step (platform : Platform) (maxFrameBytes : Nat) (self : SharedWriter) :
    WriterLabel → Option SharedWriter
  | .writeFrame frame => some (self.writeFrame platform maxFrameBytes frame)
  | .end_ code reason => some (self.end_ platform maxFrameBytes code reason)
  | .shutDown => some self.shutDown
  | .lock index => self.lock index
  | .acquire => self.acquire
  | .write count => self.write count
  | .flush => self.flush
  | .fail => self.fail
  | .evict => self.evict
  | .timeout index => self.timeout index
  | .signal index => self.signal index
  | .drop index => self.drop index

/-! ### What a step can do -/

/-- A call that has just been made: its record is still to be written, or there is none. -/
structure Fresh (call : WriterCall) : Prop where
  farewell : call.ends = true → ∀ frame, call.frame = some frame → frame.isClose = true
  stage : call.stage = .starting ∧ call.fate = .pending ∧ call.frame.isSome ∨
    call.stage = .closing ∧ call.fate = .unwritable ∧ call.frame = none ∧ call.ends = true

/-- The steps of the shared writer. -/
inductive Move (writer : SharedWriter) : WriterLabel → SharedWriter → Prop
  | refuse (frame : Frame) : Move writer (.writeFrame frame) writer
  | call (label : WriterLabel) (call : WriterCall) (hfresh : Fresh call)
    (hlabel : call.ends = false ∨ (∃ code reason, label = .end_ code reason) ∨
      label = .shutDown) :
    Move writer label { writer with calls := writer.calls ++ [call] }
  | lock (index : Nat) (call : WriterCall) (stage : WriterStage)
    (hcall : writer.calls[index]? = some call)
    (hstage : call.stage = .starting ∧ stage = .waiting ∨
      call.stage = .signalled ∧ stage = .shutting) :
    Move writer (.lock index)
      (setStage { writer with queue := writer.queue ++ [index] } index stage)
  | begin (index : Nat) (queue : List Nat) (call : WriterCall) (frame : Frame)
    (hguard : writer.guard = none) (hcall : writer.calls[index]? = some call)
    (hstage : call.stage = .waiting) (hframe : call.frame = some frame)
    (hopen : writer.writable = true ∧ writer.writer = true)
    (hqueue : writer.queue = index :: queue) :
    Move writer .acquire (setStage { writer with
      queue
      guard := some ⟨index, frame, call.ends, frame.record⟩
      begun := writer.begun ++ [frame] } index .writing)
  | late (index : Nat) (queue : List Nat) (call : WriterCall) (hguard : writer.guard = none)
    (hcall : writer.calls[index]? = some call) (hstage : call.stage = .waiting)
    (hclosed : writer.writable = false ∨ writer.writer = false) :
    Move writer .acquire (settle { writer with queue } index .unwritable)
  | shut (index : Nat) (queue : List Nat) (call : WriterCall) (hguard : writer.guard = none)
    (hcall : writer.calls[index]? = some call) (hstage : call.stage = .shutting) :
    Move writer .acquire
      (setStage { writer with queue, writable := false, writer := false } index .over)
  | write (guard : WriterGuard) (count : Nat) (hguard : writer.guard = some guard) :
    Move writer (.write count) { writer with
      output := writer.output ++ guard.rest.take count
      guard := some { guard with rest := guard.rest.drop count } }
  | flush (guard : WriterGuard) (hguard : writer.guard = some guard) (hrest : guard.rest = []) :
    Move writer .flush (settle { writer with guard := none } guard.call .written)
  | fail (guard : WriterGuard) (hguard : writer.guard = some guard) :
    Move writer .fail
      (settle { writer with guard := none, writable := false } guard.call .failed)
  | evict (guard : WriterGuard) (hguard : writer.guard = some guard) (hsend : guard.ends = false)
    (hending : writer.ending = true) :
    Move writer .evict
      (settle { writer with guard := none, writable := false } guard.call .evicted)
  | timeout (index : Nat) (call : WriterCall) (hcall : writer.calls[index]? = some call)
    (hends : call.ends = true) (hstage : call.stage = .waiting ∨ call.stage = .writing) :
    Move writer (.timeout index) ((writer.leave index).settle index .timedOut)
  | signal (index : Nat) (call : WriterCall) (hcall : writer.calls[index]? = some call)
    (hstage : call.stage = .closing) :
    Move writer (.signal index) (setStage { writer with ending := true } index .signalled)
  | drop (index : Nat) (call : WriterCall) (hcall : writer.calls[index]? = some call)
    (hends : call.ends = true) :
    Move writer (.drop index) { writer.leave index with
      calls := (writer.leave index).calls.modify index .dropped }

variable {platform : Platform} {maxFrameBytes : Nat} {self next : SharedWriter}

theorem farewell_isClose {code : UInt16} {reason : Option String} {frame : Frame}
    (h : MangoProtocol.farewell platform maxFrameBytes code reason = some frame) :
    frame.isClose = true := by
  unfold MangoProtocol.farewell at h
  dsimp only at h
  split at h
  · cases h
    rfl
  · split at h
    · cases h
      rfl
    · cases h

theorem acquire_move (h : self.acquire = some next) : Move self .acquire next := by
  unfold acquire at h
  split at h
  · rename_i index queue hg hq
    obtain ⟨call, hc, h⟩ := Option.bind_eq_some_iff.mp h
    split at h
    · rename_i frame hs hf
      split at h
      · rename_i ho
        cases h
        exact .begin index queue call frame hg hc hs hf
          ((Bool.and_eq_true _ _).mp ho) hq
      · rename_i hcl
        cases h
        refine .late index queue call hg hc hs ?_
        rwa [Bool.not_eq_true, Bool.and_eq_false_iff] at hcl
    · rename_i hs
      cases h
      exact .shut index queue call hg hc hs
    · cases h
  · cases h

theorem step_move {label : WriterLabel} (h : self.step platform maxFrameBytes label = some next) :
    Move self label next := by
  cases label with
  | writeFrame frame =>
    cases h
    unfold writeFrame
    split
    · exact .refuse frame
    · split
      · exact .refuse frame
      · exact .call _ _ ⟨nofun, .inl ⟨rfl, rfl, rfl⟩⟩ (.inl rfl)
  | end_ code reason =>
    cases h
    unfold end_
    split
    · rename_i frame hf
      refine .call _ _ ⟨fun _ other ho => ?_, .inl ⟨rfl, rfl, rfl⟩⟩ (.inr (.inl ⟨_, _, rfl⟩))
      cases ho
      exact farewell_isClose hf
    · exact .call _ _ ⟨nofun, .inr ⟨rfl, rfl, rfl, rfl⟩⟩ (.inr (.inl ⟨_, _, rfl⟩))
  | shutDown =>
    cases h
    exact .call _ _ ⟨nofun, .inr ⟨rfl, rfl, rfl, rfl⟩⟩ (.inr (.inr rfl))
  | lock index =>
    obtain ⟨call, hc, h⟩ := Option.bind_eq_some_iff.mp h
    split at h
    · rename_i hs
      cases h
      exact .lock index call .waiting hc (.inl ⟨hs, rfl⟩)
    · rename_i hs
      cases h
      exact .lock index call .shutting hc (.inr ⟨hs, rfl⟩)
    · cases h
  | acquire => exact acquire_move h
  | write count =>
    obtain ⟨guard, hg, h⟩ := Option.bind_eq_some_iff.mp h
    obtain ⟨-, h⟩ := Option.ite_none_right_eq_some.mp h
    cases h
    exact .write guard count hg
  | flush =>
    obtain ⟨guard, hg, h⟩ := Option.bind_eq_some_iff.mp h
    obtain ⟨hr, h⟩ := Option.ite_none_right_eq_some.mp h
    cases h
    exact .flush guard hg hr
  | fail =>
    obtain ⟨guard, hg, rfl⟩ := Option.map_eq_some_iff.mp h
    exact .fail guard hg
  | evict =>
    obtain ⟨guard, hg, h⟩ := Option.bind_eq_some_iff.mp h
    obtain ⟨⟨hse, hend⟩, h⟩ := Option.ite_none_right_eq_some.mp h
    cases h
    exact .evict guard hg hse hend
  | timeout index =>
    obtain ⟨call, hc, h⟩ := Option.bind_eq_some_iff.mp h
    obtain ⟨⟨he, hs⟩, h⟩ := Option.ite_none_right_eq_some.mp h
    cases h
    exact .timeout index call hc he hs
  | signal index =>
    obtain ⟨call, hc, h⟩ := Option.bind_eq_some_iff.mp h
    obtain ⟨hs, h⟩ := Option.ite_none_right_eq_some.mp h
    cases h
    exact .signal index call hc hs
  | drop index =>
    obtain ⟨call, hc, h⟩ := Option.bind_eq_some_iff.mp h
    obtain ⟨he, h⟩ := Option.ite_none_right_eq_some.mp h
    cases h
    exact .drop index call hc he

end SharedWriter

end MangoProtocol
