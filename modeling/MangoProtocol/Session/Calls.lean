import MangoProtocol.Session.Step

/-! What one step of a call of `request_with` can do, with the command it posts. -/

namespace MangoProtocol

open ProofKit

variable {H : Type} {config : Config}

/-- The stages before the request is sent. -/
def CallStage.unsent : CallStage → Bool
  | .awaitingReady | .resumed _ | .checked | .numbered _ | .fitted _ => true
  | .waiting _ _ | .polled _ _ | .done _ | .dropped => false

/-- The call that a caller's step moves on. -/
def ApiStep.callIndex : ApiStep H → Option Nat
  | .advanceCall index | .takeReply index | .abandonCall index | .pollCall index | .parkCall index
  | .cancelCall index | .timeoutCall index | .dropCall index => some index
  | _ => none

namespace Session

variable {self next : Session H} {index : Nat} {call : Call}

inductive Silent (session : Session H) (call : Call) : CallStage → Prop
  | refused (error : RemoteError) (h : call.stage.unsent = true) :
    Silent session call (.done (.failed error))
  | resumed (remote : RemotePeer) (h : call.stage = .awaitingReady)
    (hready : session.shared.ready = some (.ok remote)) : Silent session call (.resumed remote)
  | checked (remote : RemotePeer) (h : call.stage = .resumed remote) : Silent session call .checked
  | fitted (id : String) (h : call.stage = .numbered id) : Silent session call (.fitted id)
  | replied (id : String) (cancelSent : Bool) (reply : Reply)
    (h : call.stage = .waiting id cancelSent) (hreply : call.reply = some reply) :
    Silent session call (.done (.replied id reply))
  | abandoned (id : String) (cancelSent : Bool) (h : call.stage = .waiting id cancelSent)
    (hreply : call.reply = none) (hclosed : session.commandsOpen = false) :
    Silent session call (.done (.failed (session.shared.unavailable call.method)))
  | polled (id : String) (cancelSent : Bool) (h : call.stage = .waiting id cancelSent)
    (hreply : call.reply = none) : Silent session call (.polled id cancelSent)
  | parked (id : String) (cancelSent : Bool) (h : call.stage = .polled id cancelSent) :
    Silent session call (.waiting id cancelSent)
  | dropped (h : call.stage = .awaitingReady) : Silent session call .dropped

/-- The moves of one call. -/
inductive CallMove (config : Config) (session : Session H) (index : Nat) (call : Call) :
    Session H → Prop
  | silent (stage : CallStage) (h : Silent session call stage) :
    CallMove config session index call (session.setStage index stage)
  | number (h : call.stage = .checked) :
    CallMove config session index call (Session.setStage
      { session with shared := { session.shared with
          requestSequence := session.shared.requestSequence + 1 } }
      index (.numbered (session.shared.nextRequestId config)))
  | request (id : String) (h : call.stage = .fitted id) (hopen : session.commandsOpen = true) :
    CallMove config session index call
      ((session.command (.request (.req (call.request id)) index)).setStage index
        (.waiting id false))
  | cancel (id : String) (h : call.stage = .polled id false) :
    CallMove config session index call
      ((session.command (.cancel id true)).setStage index (.waiting id true))
  | timeout (id : String) (cancelSent : Bool) (timeout : Nat)
    (h : call.stage = .polled id cancelSent) (htimeout : call.options.timeout = some timeout) :
    CallMove config session index call ((session.command (.cancel id false)).setStage index
      (.done (.failed (timeoutError call.method timeout))))
  | drop (id : String) (cancelSent : Bool) (h : call.stage = .waiting id cancelSent) :
    CallMove config session index call
      ((session.command (.cancel id false)).setStage index .dropped)

theorem advanceCall_callMove (h : self.advanceCall config index call = some next) :
    CallMove config self index call next := by
  unfold advanceCall at h
  split at h
  case h_1 hs =>
    split at h
    · cases h
    · cases h
      exact .silent _ (.refused _ (by rw [hs]; rfl))
    · rename_i hr
      cases h
      exact .silent _ (.resumed _ hs hr)
  case h_2 remote hs =>
    have hu : call.stage.unsent = true := by rw [hs]; rfl
    split at h
    · cases h
      exact .silent _ (.refused _ hu)
    · split at h
      · cases h
        exact .silent _ (.refused _ hu)
      · cases h
        exact .silent _ (.checked remote hs)
  case h_3 hs =>
    cases h
    exact .number hs
  case h_4 id hs =>
    split at h
    · cases h
      exact .silent _ (.fitted id hs)
    · cases h
      exact .silent _ (.refused _ (by rw [hs]; rfl))
  case h_5 id hs =>
    split at h
    · rename_i ho
      cases h
      exact .request id hs ho
    · cases h
      exact .silent _ (.refused _ (by rw [hs]; rfl))
  case h_6 => cases h

theorem takeReply_callMove (h : self.takeReply index call = some next) :
    CallMove config self index call next := by
  unfold takeReply at h
  split at h
  · rename_i hs hr
    cases h
    exact .silent _ (.replied _ _ _ hs hr)
  · cases h

theorem abandonCall_callMove (h : self.abandonCall index call = some next) :
    CallMove config self index call next := by
  unfold abandonCall at h
  split at h
  · rename_i hs hr
    split at h
    · cases h
    · rename_i hc
      cases h
      exact .silent _ (.abandoned _ _ hs hr (Bool.not_eq_true _ ▸ hc))
  · cases h

theorem pollCall_callMove (h : self.pollCall index call = some next) :
    CallMove config self index call next := by
  unfold pollCall at h
  split at h
  · rename_i hs hr
    obtain ⟨-, h⟩ := Option.ite_none_right_eq_some.mp h
    cases h
    exact .silent _ (.polled _ _ hs hr)
  · cases h

theorem parkCall_callMove (h : self.parkCall index call = some next) :
    CallMove config self index call next := by
  unfold parkCall at h
  split at h
  · rename_i hs
    cases h
    exact .silent _ (.parked _ _ hs)
  · cases h

theorem cancelCall_callMove (h : self.cancelCall index call = some next) :
    CallMove config self index call next := by
  unfold cancelCall at h
  split at h
  · rename_i hs
    obtain ⟨-, h⟩ := Option.ite_none_right_eq_some.mp h
    cases h
    exact .cancel _ hs
  · cases h

theorem timeoutCall_callMove (h : self.timeoutCall index call = some next) :
    CallMove config self index call next := by
  unfold timeoutCall at h
  split at h
  · rename_i hs ht
    cases h
    exact .timeout _ _ _ hs ht
  · cases h

theorem dropCall_callMove (h : self.dropCall index call = some next) :
    CallMove config self index call next := by
  unfold dropCall at h
  split at h
  · rename_i hs
    cases h
    exact .silent _ (.dropped hs)
  · rename_i hs
    cases h
    exact .drop _ _ hs
  · cases h

theorem apiStep_callMove {step : ApiStep H} (hi : step.callIndex = some index)
    (h : self.apiStep config step = some next) :
    ∃ call, self.calls[index]? = some call ∧ CallMove config self index call next := by
  have called {act : Nat → Call → Option (Session H)}
      (ha : ∀ call, act index call = some next → CallMove config self index call next)
      (h : self.withCall index act = some next) :
      ∃ call, self.calls[index]? = some call ∧ CallMove config self index call next := by
    obtain ⟨call, hc, hn⟩ := Option.bind_eq_some_iff.mp h
    exact ⟨call, hc, ha call hn⟩
  cases step with
  | advanceCall => cases hi; exact called (fun _ => advanceCall_callMove) h
  | takeReply => cases hi; exact called (fun _ => takeReply_callMove) h
  | abandonCall => cases hi; exact called (fun _ => abandonCall_callMove) h
  | pollCall => cases hi; exact called (fun _ => pollCall_callMove) h
  | parkCall => cases hi; exact called (fun _ => parkCall_callMove) h
  | cancelCall => cases hi; exact called (fun _ => cancelCall_callMove) h
  | timeoutCall => cases hi; exact called (fun _ => timeoutCall_callMove) h
  | dropCall => cases hi; exact called (fun _ => dropCall_callMove) h
  | _ => cases hi

end Session

end MangoProtocol
