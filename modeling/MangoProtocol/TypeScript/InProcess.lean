import MangoProtocol.ProofKit.Lists
import MangoProtocol.ProofKit.Machine
import MangoProtocol.TypeScript.WebSocketPort

/-! Two ports of the TypeScript package joined inside one process.  A call of `send` or `close` puts
a microtask into a queue, and neither calls a listener itself: a call that a listener makes comes to
the same as one between two microtasks.  The open flag of an end is read when a call is made and
again when its microtask runs. -/

namespace MangoProtocol.TypeScript

open ProofKit

/-- The ends of a pair. -/
inductive PairEnd where
  | a
  | b
  deriving DecidableEq, Repr

def PairEnd.peer : PairEnd → PairEnd
  | .a => .b
  | .b => .a

theorem PairEnd.peer_ne (end_ : PairEnd) : end_.peer ≠ end_ := by
  cases end_ <;> decide

theorem PairEnd.peer_peer (end_ : PairEnd) : end_.peer.peer = end_ := by
  cases end_ <;> rfl

theorem PairEnd.eq_or_eq_peer (end_ other : PairEnd) : other = end_ ∨ other = end_.peer := by
  cases end_ <;> cases other <;> simp [peer]

inductive Microtask (φ : Type) where
  | frame (target : PairEnd) (frame : φ)
  | closure (target : PairEnd) (code : Nat) (reason : Option JsString)
  deriving DecidableEq

def Microtask.target {φ : Type} : Microtask φ → PairEnd
  | .frame target _ | .closure target _ _ => target

def Microtask.frame? {φ : Type} : Microtask φ → Option φ
  | .frame _ held => some held
  | .closure _ _ _ => none

/-- What happens on a pair: a `send` that did not throw, with its clone, a `close` of an open end,
and the calls of the listeners. -/
inductive PairEvent (φ : Type) where
  | sent (end_ : PairEnd) (frame : φ)
  | closed (end_ : PairEnd)
  | received (end_ : PairEnd) (frame : φ)
  | reported (end_ : PairEnd) (closure : PortClosure)
  deriving DecidableEq

/-- One end.  It has one listener for frames and one for its closure at most. -/
structure InProcessPort where
  isOpen : Bool
  frames : Bool
  closed : Bool

def InProcessPort.dispose (self : InProcessPort) : InProcessPort :=
  { self with isOpen := false, frames := false }

structure InProcessOptions where
  validateFrames : Option Bool := none
  maxFrameBytes : Option Nat := none

/-- The two ends, the microtasks that wait, first in first out, and all that happened. -/
structure InProcessPair (φ : Type) where
  ports : PairEnd → InProcessPort
  tasks : List (Microtask φ)
  log : List (PairEvent φ)

/-- A call of an end, or the next microtask. -/
inductive PairCall (φ : Type) where
  | send (end_ : PairEnd) (frame : φ)
  | close (end_ : PairEnd) (code : Nat) (reason : Option JsString)
  | task

namespace InProcessPair

variable {φ : Type}

/-- The pair with a listener for frames and one for the closure on each end. -/
def start : InProcessPair φ := ⟨fun _ => ⟨true, true, true⟩, [], []⟩

section Calls

/-! `structured` is `structuredClone` and `assertFrame`. -/

variable (options : InProcessOptions) (format : FrameFormat φ) (structured : φ → Except Thrown φ)

/-- What the other end is given: the frame after a round trip through the codec, or a copy. -/
def clone (frame : φ) : Except Thrown φ :=
  if options.validateFrames.getD true then do
    let bytes ← encodeFrameBytes format.serialise frame options.maxFrameBytes
    let limit ← resolveFrameLimit options.maxFrameBytes
    (decodeLine format.parse bytes limit).mapError .codecError
  else structured frame

/-- Sends one frame, or throws. -/
def send (self : InProcessPair φ) (end_ : PairEnd) (frame : φ) :
    InProcessPair φ × Option PortThrown :=
  if !(self.ports end_).isOpen || !(self.ports end_.peer).isOpen then
    (self, some (.closed (js
      "In-process port is closed; expected an open port pair, received a closed one.")))
  else
    match clone options format structured frame with
    | .error thrown => (self, some (.encode thrown))
    | .ok delivered =>
      ({ self with
        tasks := self.tasks ++ [.frame end_.peer delivered]
        log := self.log ++ [.sent end_ delivered] }, none)

end Calls

def close (self : InProcessPair φ) (end_ : PairEnd) (code : Nat) (reason : Option JsString) :
    InProcessPair φ :=
  if !(self.ports end_).isOpen then self
  else
    let disposed : InProcessPair φ := { self with
      ports := Function.update self.ports end_ (self.ports end_).dispose
      log := self.log ++ [.closed end_] }
    if !(disposed.ports end_.peer).isOpen then disposed
    else { disposed with tasks := disposed.tasks ++ [.closure end_.peer code reason] }

def runTask (self : InProcessPair φ) : Microtask φ → InProcessPair φ
  | .frame target frame =>
    if !(self.ports target).isOpen then self
    else if (self.ports target).frames then
      { self with log := self.log ++ [.received target frame] }
    else self
  | .closure target code reason =>
    if !(self.ports target).isOpen then self
    else { self with
      ports := Function.update self.ports target
        { (self.ports target).dispose with closed := false }
      log := self.log ++ if (self.ports target).closed then
        [.reported target (.closed (some code) reason)] else [] }

def step (options : InProcessOptions) (format : FrameFormat φ) (structured : φ → Except Thrown φ)
    (self : InProcessPair φ) : PairCall φ → Option (InProcessPair φ)
  | .send end_ frame => some (self.send options format structured end_ frame).1
  | .close end_ code reason => some (self.close end_ code reason)
  | .task =>
    match self.tasks with
    | [] => none
    | task :: tasks => some ({ self with tasks }.runTask task)

end InProcessPair

/-! ### What happened on one end -/

section Log

variable {φ : Type}

def PairEvent.sentBy (end_ : PairEnd) : PairEvent φ → Option φ
  | .sent other frame => if other = end_ then some frame else none
  | _ => none

def PairEvent.receivedBy (end_ : PairEnd) : PairEvent φ → Option φ
  | .received other frame => if other = end_ then some frame else none
  | _ => none

def PairEvent.reportedTo (end_ : PairEnd) : PairEvent φ → Option PortClosure
  | .reported other closure => if other = end_ then some closure else none
  | _ => none

/-- The frames that an end sent. -/
def sentBy (end_ : PairEnd) (log : List (PairEvent φ)) : List φ :=
  log.filterMap (PairEvent.sentBy end_)

def receivedBy (end_ : PairEnd) (log : List (PairEvent φ)) : List φ :=
  log.filterMap (PairEvent.receivedBy end_)

/-- The closures that an end reported. -/
def reportedTo (end_ : PairEnd) (log : List (PairEvent φ)) : List PortClosure :=
  log.filterMap (PairEvent.reportedTo end_)

/-- The microtasks for an end. -/
def waitingFor (end_ : PairEnd) (tasks : List (Microtask φ)) : List (Microtask φ) :=
  tasks.filter fun task => task.target = end_

/-- The frames that wait for an end. -/
def framesFor (end_ : PairEnd) (tasks : List (Microtask φ)) : List φ :=
  (waitingFor end_ tasks).filterMap Microtask.frame?

variable {end_ : PairEnd} {log more : List (PairEvent φ)} {tasks : List (Microtask φ)}

@[simp] theorem sentBy_append :
    sentBy end_ (log ++ more) = sentBy end_ log ++ sentBy end_ more :=
  List.filterMap_append ..

@[simp] theorem receivedBy_append :
    receivedBy end_ (log ++ more) = receivedBy end_ log ++ receivedBy end_ more :=
  List.filterMap_append ..

@[simp] theorem reportedTo_append :
    reportedTo end_ (log ++ more) = reportedTo end_ log ++ reportedTo end_ more :=
  List.filterMap_append ..

@[simp] theorem waitingFor_append {more : List (Microtask φ)} :
    waitingFor end_ (tasks ++ more) = waitingFor end_ tasks ++ waitingFor end_ more :=
  List.filter_append ..

variable {task : Microtask φ}

theorem waitingFor_cons_self (h : task.target = end_) :
    waitingFor end_ (task :: tasks) = task :: waitingFor end_ tasks :=
  List.filter_cons_of_pos (by simpa using h)

theorem waitingFor_cons_other (h : task.target ≠ end_) :
    waitingFor end_ (task :: tasks) = waitingFor end_ tasks :=
  List.filter_cons_of_neg (by simpa using h)

end Log

/-! ### What a step does -/

namespace InProcessPair

variable {φ : Type} {options : InProcessOptions} {format : FrameFormat φ}
  {structured : φ → Except Thrown φ} {self next : InProcessPair φ}

def isOpen (self : InProcessPair φ) (end_ : PairEnd) : Bool := (self.ports end_).isOpen

/-- The listeners of an open end are in place. -/
def Listening (self : InProcessPair φ) : Prop :=
  ∀ end_, self.isOpen end_ = true →
    (self.ports end_).frames = true ∧ (self.ports end_).closed = true

/-- The steps of a pair: a call that is refused, a microtask for an end that closed, a frame that is
sent, an end that closes, and the two deliveries. -/
inductive Moves (before after : InProcessPair φ) : Prop where
  | idle (same : after = before)
  | dropped (task : Microtask φ) (tasks : before.tasks = task :: after.tasks)
      (closed : before.isOpen task.target = false) (opens : ∀ e, after.isOpen e = before.isOpen e)
      (log : after.log = before.log)
  | sent (end_ : PairEnd) (frame : φ) (own : before.isOpen end_ = true)
      (peer : before.isOpen end_.peer = true)
      (tasks : after.tasks = before.tasks ++ [.frame end_.peer frame])
      (opens : ∀ e, after.isOpen e = before.isOpen e)
      (log : after.log = before.log ++ [.sent end_ frame])
  | closed (end_ : PairEnd) (code : Nat) (reason : Option JsString)
      (own : before.isOpen end_ = true)
      (tasks : after.tasks = before.tasks ++
        if before.isOpen end_.peer then [.closure end_.peer code reason] else [])
      (ends : after.isOpen end_ = false) (spares : after.isOpen end_.peer = before.isOpen end_.peer)
      (log : after.log = before.log ++ [.closed end_])
  | received (target : PairEnd) (frame : φ) (own : before.isOpen target = true)
      (tasks : before.tasks = .frame target frame :: after.tasks)
      (opens : ∀ e, after.isOpen e = before.isOpen e)
      (log : after.log = before.log ++ [.received target frame])
  | reported (target : PairEnd) (code : Nat) (reason : Option JsString)
      (own : before.isOpen target = true)
      (tasks : before.tasks = .closure target code reason :: after.tasks)
      (ends : after.isOpen target = false)
      (spares : after.isOpen target.peer = before.isOpen target.peer)
      (log : after.log = before.log ++ [.reported target (.closed (some code) reason)])

theorem send_moves (end_ : PairEnd) (frame : φ) :
    Moves self (self.send options format structured end_ frame).1 := by
  unfold send
  split
  · exact .idle rfl
  · rename_i ho
    obtain ⟨how, hp⟩ : self.isOpen end_ = true ∧ self.isOpen end_.peer = true := by
      simpa [isOpen] using ho
    split
    · exact .idle rfl
    · exact .sent end_ _ how hp rfl (fun _ => rfl) rfl

variable {tasks : List (Microtask φ)} {log : List (PairEvent φ)} {port : InProcessPort}
  {end_ : PairEnd} {call : PairCall φ}

theorem isOpen_update_self :
    isOpen ⟨Function.update self.ports end_ port, tasks, log⟩ end_ = port.isOpen := by
  simp [isOpen]

theorem isOpen_update_peer :
    isOpen ⟨Function.update self.ports end_ port, tasks, log⟩ end_.peer =
      self.isOpen end_.peer := by
  simp [isOpen, end_.peer_ne]

theorem close_moves (end_ : PairEnd) (code : Nat) (reason : Option JsString) :
    Moves self (self.close end_ code reason) := by
  unfold close
  split
  · exact .idle rfl
  · rename_i hc
    have ho : self.isOpen end_ = true := by simpa [isOpen] using hc
    have hp : isOpen ⟨Function.update self.ports end_ (self.ports end_).dispose, self.tasks,
      self.log ++ [.closed end_]⟩ end_.peer = self.isOpen end_.peer := isOpen_update_peer
    dsimp only
    rw [isOpen] at hp
    rw [hp]
    split
    · rename_i he
      refine .closed end_ code reason ho ?_ isOpen_update_self isOpen_update_peer rfl
      rw [Bool.not_eq_true'] at he
      rw [if_neg (Bool.eq_false_iff.mp he), List.append_nil]
    · rename_i hs
      refine .closed end_ code reason ho ?_ isOpen_update_self isOpen_update_peer rfl
      rw [Bool.not_eq_true', Bool.not_eq_false] at hs
      rw [if_pos hs]

theorem task_moves {task : Microtask φ} (h : self.Listening) (ht : self.tasks = task :: tasks) :
    Moves self ({ self with tasks }.runTask task) := by
  cases task with
  | frame target frame =>
    by_cases ho : self.isOpen target = true
    · have hl := (h target ho).1
      rw [isOpen] at ho
      simp only [runTask, ho, hl]
      exact .received target frame ho ht (fun _ => rfl) rfl
    · rw [isOpen, Bool.not_eq_true] at ho
      simp only [runTask, ho]
      exact .dropped _ ht ho (fun _ => rfl) rfl
  | closure target code reason =>
    by_cases ho : self.isOpen target = true
    · have hl := (h target ho).2
      rw [isOpen] at ho
      simp only [runTask, ho, hl]
      exact .reported target code reason ho ht isOpen_update_self isOpen_update_peer rfl
    · rw [isOpen, Bool.not_eq_true] at ho
      simp only [runTask, ho]
      exact .dropped _ ht ho (fun _ => rfl) rfl

theorem step_moves (h : self.Listening)
    (hs : self.step options format structured call = some next) : Moves self next := by
  cases call with
  | send end_ frame =>
    cases hs
    exact send_moves end_ frame
  | close end_ code reason =>
    cases hs
    exact close_moves end_ code reason
  | task =>
    unfold step at hs
    dsimp only at hs
    split at hs
    · cases hs
    · rename_i task tasks ht
      cases hs
      exact task_moves h ht

theorem Listening.update (h : self.Listening) (hc : port.isOpen = false) :
    Listening ⟨Function.update self.ports end_ port, tasks, log⟩ := by
  intro other ho
  rcases PairEnd.eq_or_eq_peer end_ other with rfl | rfl
  · rw [isOpen_update_self, hc] at ho
    cases ho
  · rw [isOpen_update_peer] at ho
    simpa [end_.peer_ne] using h _ ho

theorem Listening.step (h : self.Listening)
    (hs : self.step options format structured call = some next) : next.Listening := by
  cases call with
  | send end_ frame =>
    cases hs
    unfold send
    split
    · exact h
    · split
      · exact h
      · exact h
  | close end_ code reason =>
    cases hs
    unfold close
    split
    · exact h
    · dsimp only
      split
      · exact h.update rfl
      · exact h.update rfl
  | task =>
    unfold InProcessPair.step at hs
    dsimp only at hs
    split at hs
    · cases hs
    · rename_i task tasks ht
      cases hs
      cases task with
      | frame target frame =>
        simp only [runTask]
        split
        · exact h
        · split
          · exact h
          · exact h
      | closure target code reason =>
        simp only [runTask]
        split
        · exact h
        · exact h.update rfl

end InProcessPair

end MangoProtocol.TypeScript
