import MangoProtocol.Session.Moves

/-! The port of a session, seen from the other end: what a step hands over, and that only the port's
own steps move frames. -/

namespace MangoProtocol

open ProofKit

variable {H : Type}

namespace Session

variable {config : Config} {self next : Session H}

def delivers (config : Config) (self : Session H) : Label H → Option Frame
  | .port (.transmit .sent) => self.writer.waiting.head?
  | .driver (.greet .sent) =>
    match self.shared.assertFits config (.hello (buildHello config)) "The hello" with
    | .ok () => some (.hello (buildHello config))
    | .error _ => none
  | _ => none

/-- Puts a frame into the receive half. -/
def accept (self : Session H) : Option Frame → Session H
  | some frame => { self with inbound := self.inbound.send (some (.frame frame)) }
  | none => self

/-- What the port itself did is as before: the frames it took from the writer and the items its
receive half was given. -/
structure SamePort (before after : Session H) : Prop where
  received : after.writer.received = before.writer.received
  arrived : after.inbound.sent = before.inbound.sent

theorem enqueue_samePort (frame : Frame) : SamePort self (self.enqueue frame) :=
  ⟨Channel.received_send _ _, rfl⟩

theorem respondError_samePort (id : String) (error : RemoteError) :
    SamePort self (self.respondError id error) :=
  ⟨Channel.received_send _ _, rfl⟩

theorem respondResult_samePort (method id : String) (value : Value) :
    SamePort self (self.respondResult config method id value) := by
  unfold respondResult
  dsimp only
  split
  · exact ⟨Channel.received_send _ _, rfl⟩
  · exact respondError_samePort _ _

theorem onHandlerSettled_samePort (task : TaskId) (settled : Settled) :
    SamePort self (self.onHandlerSettled config task settled) := by
  unfold onHandlerSettled
  dsimp only
  split
  · exact ⟨rfl, rfl⟩
  · split
    · exact ⟨rfl, rfl⟩
    · split
      · obtain ⟨hr, ha⟩ := respondResult_samePort _ _ _
        exact ⟨hr, ha⟩
      · exact ⟨Channel.received_send _ _, rfl⟩

theorem onCommand_samePort (command : Command) : SamePort self (self.onCommand command) := by
  cases command with
  | close => exact ⟨rfl, rfl⟩
  | request frame reply => cases frame <;> exact ⟨Channel.received_send _ _, rfl⟩
  | cancel id forget => cases forget <;> exact ⟨Channel.received_send _ _, rfl⟩
  | send frame => exact enqueue_samePort frame

theorem onInbound_samePort (item : Option Inbound) (call : HandlerCall) :
    SamePort self (self.onInbound config item call) := by
  have response (id : String) (result : Except RemoteError Value) :
      SamePort self (self.onResponse id result) := by
    unfold onResponse
    split <;> exact ⟨rfl, rfl⟩
  rcases item with _ | ⟨frame | closure⟩
  · exact ⟨rfl, rfl⟩
  · cases frame with
    | hello hello =>
      change SamePort self (self.onHello config hello)
      unfold onHello
      split
      · exact ⟨rfl, rfl⟩
      · split <;> exact ⟨rfl, rfl⟩
    | req request =>
      change SamePort self (self.onRequest config request call)
      unfold onRequest
      split
      · exact respondError_samePort _ _
      · cases call <;> exact ⟨rfl, rfl⟩
    | res | err => exact response _ _
    | cancel cancel =>
      change SamePort self (self.onCancel cancel.id)
      unfold onCancel
      split <;> exact ⟨rfl, rfl⟩
    | ping => exact enqueue_samePort .pong
    | close | evt | pong => exact ⟨rfl, rfl⟩
  · exact ⟨rfl, rfl⟩

theorem advanceTeardown_samePort {reason : Teardown} {stage : TeardownStage}
    (h : self.advanceTeardown reason stage = some next) : SamePort self next := by
  cases advanceTeardown_move h <;> exact ⟨rfl, rfl⟩

theorem step_samePort {label : Label H} (h : self.step config label = some next)
    (hl : ∀ step, label ≠ .port step) : SamePort self next := by
  cases step_move h with
  | api _ _ move => cases move <;> exact ⟨rfl, rfl⟩
  | arrive | transmit => exact absurd rfl (hl _)
  | driver _ _ move =>
    cases move with
    | greet outcome =>
      unfold greet
      dsimp only
      split <;> exact ⟨rfl, rfl⟩
    | livenessTick =>
      unfold onLivenessTick
      split
      · exact ⟨rfl, rfl⟩
      · exact ⟨Channel.received_send _ _, rfl⟩
    | settled task settled invocation =>
      obtain ⟨hr, ha⟩ := onHandlerSettled_samePort task settled
      exact ⟨hr, ha⟩
    | command command =>
      obtain ⟨hr, ha⟩ := onCommand_samePort command
      exact ⟨hr, ha⟩
    | inbound call item inbound _ _ hre =>
      obtain ⟨hr, ha⟩ := onInbound_samePort item call
      exact ⟨hr, ha.trans (Channel.recv_sent hre)⟩
    | teardown reason stage _ _ hn => exact advanceTeardown_samePort hn
    | sendFailed | handshakeTimeout | drain | finish => exact ⟨rfl, rfl⟩

theorem delivers_sublist {β : Type} {project : Frame → Option β}
    (hh : ∀ hello, project (.hello hello) = none) {label : Label H}
    (h : self.step config label = some next) :
    (self.writer.received.filterMap project ++
      ((self.delivers config label).bind project).toList).Sublist
        (next.writer.received.filterMap project) := by
  have kept (hk : next.writer.received = self.writer.received)
      (hn : (self.delivers config label).bind project = none) :
      (self.writer.received.filterMap project ++
        ((self.delivers config label).bind project).toList).Sublist
          (next.writer.received.filterMap project) := by
    rw [hk, hn, Option.toList_none, List.append_nil]
  cases label with
  | api step => exact kept (step_samePort h fun _ => nofun).received rfl
  | driver step =>
    refine kept (step_samePort h fun _ => nofun).received ?_
    cases step with
    | greet outcome =>
      cases outcome with
      | sent =>
        simp only [delivers]
        split
        · exact hh _
        · rfl
      | closed | refused => rfl
    | _ => rfl
  | port step =>
    cases step with
    | arrive item =>
      cases h
      exact kept rfl rfl
    | transmit outcome =>
      cases step_move h with | transmit _ frame writer sendFailure hr =>
      simp only [Channel.recv_received hr, List.filterMap_append]
      cases outcome with
      | sent =>
        simp only [delivers, Channel.recv_waiting hr, List.head?_cons, Option.bind_some]
        cases hp : project frame <;> simp [hp]
      | closed | refused => exact (List.Sublist.refl _).append (List.nil_sublist _)

end Session

end MangoProtocol
