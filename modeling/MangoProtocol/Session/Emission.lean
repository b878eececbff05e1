import MangoProtocol.Session.Effects

/-! Calls of `emit` that overlap.  A call reads the state, takes the lock of the sequences, measures
its frame, sends it to the driver and commits the sequence, and everything else may happen between
two of these steps, except that the lock has one holder and that the teardown takes it to forget the
sequences. -/

namespace MangoProtocol

open ProofKit

variable {H : Type}

/-- Where a call of `emit` is. -/
inductive EmitStage where
  | entered
  | admitted
  | locked
  | measured (seq : Nat)
  | queued (seq : Nat)
  | returned (outcome : Except RemoteError Bool)

/-- The stages in which a call holds the lock. -/
def EmitStage.holds : EmitStage → Bool
  | .locked | .measured _ | .queued _ => true
  | .entered | .admitted | .returned _ => false

structure EmitCall where
  event : Session.EventInput
  stage : EmitStage

structure Emission (H : Type) where
  session : Session H
  calls : List EmitCall
  lock : Option Nat

inductive EmissionLabel (H : Type) where
  | session (label : Label H)
  | start (event : Session.EventInput)
  | advance (index : Nat)

/-- A step that is a whole call of `emit`. -/
def Label.emits : Label H → Bool
  | .api (.emit _) | .api (.emitLocked _) => true
  | _ => false

def Session.forgets (self : Session H) : Label H → Bool
  | .driver .teardown =>
    match self.phase with
    | .closing _ .failing => true
    | _ => false
  | _ => false

namespace Emission

def initial (handlers : List (String × H)) : Emission H := ⟨.initial handlers, [], none⟩

def setStage (self : Emission H) (index : Nat) (stage : EmitStage) : Emission H :=
  { self with calls := self.calls.modify index fun call => { call with stage } }

/-- The call releases the lock and returns. -/
def finish (self : Emission H) (index : Nat) (outcome : Except RemoteError Bool) : Emission H :=
  { self with lock := none }.setStage index (.returned outcome)

/-- The next step of a call of `emit`. -/
def advance (config : Config) (self : Emission H) (index : Nat) (call : EmitCall) :
    Option (Emission H) :=
  match call.stage with
  | .entered =>
    some (self.setStage index
      (if self.session.shared.state = .ready then .admitted else .returned (.ok false)))
  | .admitted =>
    if self.lock = none then some ({ self with lock := some index }.setStage index .locked)
    else none
  | .locked =>
    match self.session.measureEvent config call.event with
    | .error error => some (self.finish index (.error error))
    | .ok seq => some (self.setStage index (.measured seq))
  | .measured seq =>
    if self.session.commandsOpen then
      some ({ self with
        session := self.session.command (.send (.evt (call.event.numbered seq))) }.setStage index
          (.queued seq))
    else some (self.finish index (.ok false))
  | .queued seq =>
    some ({ self with session := self.session.commitEvent call.event seq }.finish index (.ok true))
  | .returned _ => none

def step (config : Config) (self : Emission H) : EmissionLabel H → Option (Emission H)
  | .session label =>
    if label.emits = true ∨ self.session.forgets label = true ∧ self.lock ≠ none then none
    else (self.session.step config label).map fun session => { self with session }
  | .start event => some { self with calls := self.calls ++ [⟨event, .entered⟩] }
  | .advance index => self.calls[index]?.bind (self.advance config index)

variable {config : Config} {self next : Emission H}

/-! ### A call that nothing interrupts -/

theorem step_advance {index : Nat} {call : EmitCall} (hc : self.calls[index]? = some call) :
    self.step config (.advance index) = self.advance config index call := by
  simp only [step, hc, Option.bind_some]

def Reaches (config : Config) (index : Nat) (self final : Emission H) : Prop :=
  ∃ count, Machine.run (step config) self (List.replicate count (.advance index)) = some final

theorem Reaches.refl (index : Nat) (self : Emission H) : Reaches config index self self :=
  ⟨0, rfl⟩

theorem Reaches.head {index : Nat} {final : Emission H} (next : Emission H)
    (hs : self.step config (.advance index) = some next)
    (h : Reaches config index next final) : Reaches config index self final := by
  obtain ⟨count, hr⟩ := h
  exact ⟨count + 1, Machine.run_cons.mpr ⟨next, hs, hr⟩⟩

section Last

variable (session : Session H) (calls : List EmitCall) (event : Session.EventInput)

def last (stage : EmitStage) (lock : Option Nat) : Emission H :=
  ⟨session, calls ++ [⟨event, stage⟩], lock⟩

theorem setStage_last (stage after : EmitStage) (lock : Option Nat) :
    (last session calls event stage lock).setStage calls.length after =
      last session calls event after lock := by
  simp only [last, setStage, modify_concat]

theorem step_last {stage after : EmitStage} {lock released : Option Nat} {changed : Session H}
    (h : (last session calls event stage lock).advance config calls.length ⟨event, stage⟩ =
      some ((last changed calls event stage released).setStage calls.length after)) :
    (last session calls event stage lock).step config (.advance calls.length) =
      some (last changed calls event after released) := by
  have hc : (last session calls event stage lock).calls[calls.length]? =
      some ⟨event, stage⟩ := by simp [last]
  rw [step_advance hc, h, setStage_last]

theorem reaches_emitLocked :
    Reaches config calls.length (last session calls event .locked (some calls.length))
      (last (session.emitLocked config event).1 calls event
        (.returned (session.emitLocked config event).2) none) := by
  unfold Session.emitLocked
  split
  · rename_i error hm
    refine .head _ (step_last _ _ _ ?_) (.refl _ _)
    simp only [advance, last, hm]
    rfl
  · rename_i seq hm
    refine .head (last session calls event (.measured seq) (some calls.length))
      (step_last _ _ _ ?_) ?_
    · simp only [advance, last, hm]
    · split
      · rename_i ho
        refine .head (last (session.command (.send (.evt (event.numbered seq)))) calls event
          (.queued seq) (some calls.length)) (step_last _ _ _ ?_)
          (.head _ (step_last _ _ _ rfl) (.refl _ _))
        simp only [advance, last, ho]
        rfl
      · rename_i hc
        refine .head _ (step_last _ _ _ ?_) (.refl _ _)
        simp only [advance, last, hc]
        rfl

theorem reaches_emit :
    Reaches config calls.length (last session calls event .entered none)
      (last (session.emit config event).1 calls event
        (.returned (session.emit config event).2) none) := by
  unfold Session.emit
  split
  · rename_i hs
    refine .head _ (step_last _ _ _ ?_) (.refl _ _)
    exact congrArg (fun stage => some (setStage _ _ stage)) (if_neg hs)
  · rename_i hs
    refine .head (last session calls event .admitted none) (step_last _ _ _ ?_)
      (.head _ (step_last _ _ _ rfl) (reaches_emitLocked session calls event))
    exact congrArg (fun stage => some (setStage _ _ stage)) (if_pos (not_not.mp hs))

end Last

end Emission

end MangoProtocol
