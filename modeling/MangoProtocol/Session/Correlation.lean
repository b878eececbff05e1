import MangoProtocol.Session.Calling
import MangoProtocol.ProofKit.Allocation

/-! Which answer a call gets.  A session never gives two of its requests one id, it sends the
request of a call at most once, and what a call is told came under the id of that request. -/

namespace MangoProtocol

open ProofKit ProofKit.Tables

variable {H : Type} {config : Config}

/-! ### Stages -/

/-- The id that a call has been given. -/
def CallStage.id : CallStage → Option String
  | .numbered id | .fitted id | .waiting id _ | .polled id _ | .done (.replied id _) => some id
  | _ => none

/-- The id under which the request of a call was sent, while the call still knows it. -/
def CallStage.sentId : CallStage → Option String
  | .waiting id _ | .polled id _ | .done (.replied id _) => some id
  | _ => none

def Command.posting : Command → Option (Request × Nat)
  | .request (.req body) index => some (body, index)
  | _ => none

theorem Command.Quiet.posting {command : Command} (h : command.Quiet) : command.posting = none := by
  cases command with
  | request => cases h
  | close | cancel | send => rfl

structure Call.Keeps (before after : Call) : Prop where
  request : after.request = before.request
  id : ∀ id, after.stage.id = some id → before.stage.id = some id
  sentId : ∀ id, after.stage.sentId = some id → before.stage.sentId = some id
  unsent : after.stage.unsent = true → before.stage.unsent = true

theorem Call.Keeps.refl (call : Call) :
    call.Keeps call := ⟨rfl, fun _ h => h, fun _ h => h, fun h => h⟩

theorem Call.Follows.keeps {call : Call} {stage : CallStage} (h : call.Follows stage) :
    call.Keeps { call with stage } := by
  cases h <;> constructor <;> grind [Call.request, CallStage.id, CallStage.sentId, CallStage.unsent]

variable {before after : Call}

theorem Call.Failed.keeps (h : before.Failed after) : before.Keeps after := by
  rcases h with rfl | ⟨error, -, rfl⟩
  · exact .refl _
  · exact ⟨rfl, fun _ h => h, fun _ h => h, fun h => h⟩

namespace Caller

variable {self next : Caller}

/-- The requests that were handed to the driver, each with its call. -/
def posted (self : Caller) : List (Request × Nat) := self.commands.sent.filterMap Command.posting

/-- Those that the driver has taken. -/
def taken (self : Caller) : List (Request × Nat) :=
  self.commands.received.filterMap Command.posting

theorem taken_sublist (self : Caller) : self.taken.Sublist self.posted :=
  self.commands.received_sublist_sent.filterMap _

def Owns (self : Caller) (index : Nat) (id : String) : Prop :=
  (∃ call, self.calls[index]? = some call ∧ call.stage.id = some id) ∨
    ∃ request, (request, index) ∈ self.posted ∧ request.id = id

/-! ### Ids -/

/-- What a caller keeps to in giving out ids. -/
structure Numbered (config : Config) (caller : Caller) : Prop where
  indices : (caller.posted.map Prod.snd).Nodup
  inCalls : ∀ posting ∈ caller.posted, posting.2 < caller.calls.length
  unsent : ∀ (index : Nat) (call : Call), caller.calls[index]? = some call →
    call.stage.unsent = true → ∀ request, (request, index) ∉ caller.posted
  sent : ∀ (index : Nat) (call : Call) (id : String), caller.calls[index]? = some call →
    call.stage.sentId = some id → (call.request id, index) ∈ caller.posted
  number : ∀ index id, caller.Owns index id →
    ∃ number, number ≤ caller.sequence ∧ id = requestId config number
  owner : ∀ index other id, caller.Owns index id → caller.Owns other id → index = other

theorem Numbered.allocated (h : self.Numbered config) :
    Allocated (requestId config) self.sequence self.Owns := ⟨h.number, h.owner⟩

variable {index position : Nat} {id : String} {stage : CallStage} {call : Call}

theorem Numbered.posted_unique {first second : Request} (h : self.Numbered config)
    (hf : (first, index) ∈ self.posted) (hs : (second, index) ∈ self.posted) :
    first = second :=
  congrArg Prod.fst (List.inj_on_of_nodup_map h.indices hf hs rfl)

theorem Owns.of_keeps (h : next.Owns index id) (hpo : next.posted = self.posted)
    (hc : Pointwise Call.Keeps self.calls next.calls) : self.Owns index id := by
  obtain ⟨hl, hr⟩ := hc
  rcases h with ⟨call, hca, hid⟩ | hp
  · obtain ⟨earlier, hea, hk⟩ := hr index call hca
    exact .inl ⟨earlier, hea, hk.id id hid⟩
  · exact .inr (hpo ▸ hp)

theorem Numbered.keeps (h : self.Numbered config) (hp : next.posted = self.posted)
    (hs : next.sequence = self.sequence) (hc : Pointwise Call.Keeps self.calls next.calls) :
    next.Numbered config := by
  have ha : Allocated (requestId config) next.sequence next.Owns := by
    rw [hs]
    exact h.allocated.mono fun ho => ho.of_keeps hp hc
  refine ⟨?_, ?_, ?_, ?_, ha.number, ha.owner⟩ <;> rw [hp]
  · exact h.indices
  · rw [hc.length]
    exact h.inCalls
  · intro index call hca hu
    obtain ⟨earlier, hea, hk⟩ := hc.related index call hca
    exact h.unsent index earlier hea (hk.unsent hu)
  · intro index call id hca hid
    obtain ⟨earlier, hea, hk⟩ := hc.related index call hca
    rw [hk.request]
    exact h.sent index earlier id hea (hk.sentId id hid)

theorem Owns.of_start (hid : call.stage.id = none)
    (h : Owns { self with calls := self.calls ++ [call] } index id) : self.Owns index id := by
  grind [Owns, posted]

theorem Numbered.start (h : self.Numbered config) (hid : call.stage.id = none)
    (hse : call.stage.sentId = none) :
    Numbered config { self with calls := self.calls ++ [call] } := by
  obtain ⟨hi, hinC, hu, hs, -, -⟩ := id h
  have ha := h.allocated.mono fun ho => Owns.of_start hid ho
  have hp : posted { self with calls := self.calls ++ [call] } = self.posted := rfl
  refine ⟨hi, ?_, ?_, ?_, ha.number, ha.owner⟩ <;> grind

theorem setStage_calls (h : (self.setStage index stage).calls[position]? = some call) :
    (position = index ∧ ∃ earlier, self.calls[index]? = some earlier ∧
      call = { earlier with stage }) ∨ position ≠ index ∧ self.calls[position]? = some call :=
  getElem?_modify_eq_some h

theorem setStage_length : (self.setStage index stage).calls.length = self.calls.length :=
  List.length_modify ..

def assignId (self : Caller) (config : Config) (index : Nat) : Caller :=
  { self with sequence := self.sequence + 1 }.setStage index
    (.numbered (requestId config (self.sequence + 1)))

theorem Owns.of_assignId (h : (self.assignId config index).Owns position id) :
    position = index ∧ id = requestId config (self.sequence + 1) ∨ self.Owns position id := by
  rcases h with ⟨other, ho, hid⟩ | hp
  · have hc := setStage_calls ho
    grind [Owns, CallStage.id]
  · exact .inr (.inr hp)

theorem Numbered.assign (h : self.Numbered config) (hca : self.calls[index]? = some call)
    (hs : call.stage = .checked) : (self.assignId config index).Numbered config := by
  obtain ⟨hi, hinC, hu, hse, -, -⟩ := id h
  have ha : Allocated (requestId config) (self.sequence + 1)
      (self.assignId config index).Owns :=
    h.allocated.assign requestId_injective Owns.of_assignId
  have hp : (self.assignId config index).posted = self.posted := rfl
  have hl : (self.assignId config index).calls.length = self.calls.length := setStage_length
  have hc {position : Nat} {other : Call}
      (ho : (self.assignId config index).calls[position]? = some other) := setStage_calls ho
  refine ⟨hi, ?_, ?_, ?_, ha.number, ha.owner⟩ <;>
    grind [CallStage.unsent, CallStage.sentId]

def sendRequest (self : Caller) (index : Nat) (call : Call) (id : String) : Caller :=
  setStage { self with commands := self.commands.send (.request (.req (call.request id)) index) }
    index (.waiting id false)

section Send

variable {index : Nat} {call : Call} {id : String}

theorem sendRequest_posted :
    (self.sendRequest index call id).posted = self.posted ++ [(call.request id, index)] := by
  simp [sendRequest, posted, setStage, Command.posting]

variable {position : Nat}

theorem mem_sendRequest_posted {request : Request}
    (h : (request, position) ∈ (self.sendRequest index call id).posted) :
    (request, position) ∈ self.posted ∨ request = call.request id ∧ position = index := by
  rw [sendRequest_posted, List.mem_append, List.mem_singleton, Prod.mk.injEq] at h
  exact h

theorem sendRequest_calls {other : Call} (hc : self.calls[index]? = some call)
    (h : (self.sendRequest index call id).calls[position]? = some other) :
    (position = index ∧ other = { call with stage := .waiting id false }) ∨
      position ≠ index ∧ self.calls[position]? = some other := by
  grind [setStage_calls h]

theorem Owns.of_sendRequest {other : String} (hca : self.calls[index]? = some call)
    (hs : call.stage = .fitted id) (h : (self.sendRequest index call id).Owns position other) :
    self.Owns position other := by
  have hc : self.Owns index id := .inl ⟨call, hca, by rw [hs]; rfl⟩
  rcases h with ⟨found, hf, hid⟩ | ⟨request, hp, hid⟩
  · rcases sendRequest_calls hca hf with ⟨rfl, rfl⟩ | ⟨-, hf⟩
    · cases hid
      exact hc
    · exact .inl ⟨found, hf, hid⟩
  · rcases mem_sendRequest_posted hp with hp | ⟨rfl, rfl⟩
    · exact .inr ⟨request, hp, hid⟩
    · cases hid
      exact hc

theorem Numbered.send (h : self.Numbered config) (hc : self.calls[index]? = some call)
    (hs : call.stage = .fitted id) : (self.sendRequest index call id).Numbered config := by
  have hi := h.indices
  have hin := h.inCalls
  have hu := h.unsent
  have hse := h.sent
  have hun := h.unsent index call hc (by rw [hs]; rfl)
  have ha := h.allocated.mono (Owns.of_sendRequest hc hs)
  have hp : (self.sendRequest index call id).posted =
      self.posted ++ [(call.request id, index)] := sendRequest_posted
  have hl : (self.sendRequest index call id).calls.length = self.calls.length :=
    setStage_length
  have hca {position : Nat} {other : Call}
      (ho : (self.sendRequest index call id).calls[position]? = some other) :=
    sendRequest_calls hc ho
  refine ⟨?_, ?_, ?_, ?_, ha.number, ha.owner⟩
  · grind
  all_goals grind [CallStage.unsent, CallStage.sentId, Call.request]

end Send

theorem posted_of_quiet {commands : Channel Command} (h : Posted self.commands commands) :
    commands.sent.filterMap Command.posting = self.posted ∧
      commands.received.filterMap Command.posting = self.taken := by
  rcases h with rfl | ⟨command, hq, rfl⟩
  · exact ⟨rfl, rfl⟩
  · simp [posted, taken, hq.posting]

theorem Step.numbered (h : self.Step config next) (numbered : self.Numbered config) :
    next.Numbered config := by
  have same := Pointwise.refl Call.Keeps.refl self.calls
  cases h with
  | idle | ignore => exact numbered.keeps rfl rfl same
  | post commands hp => exact numbered.keeps (posted_of_quiet hp).1 rfl same
  | start call _ hs =>
    rcases hs with hs | ⟨error, hs⟩
    · exact numbered.start (by rw [hs]; rfl) (by rw [hs]; rfl)
    · exact numbered.start (by rw [hs]; rfl) (by rw [hs]; rfl)
  | follow index call stage commands hc hs hp =>
    refine numbered.keeps (posted_of_quiet hp).1 rfl (.modify Call.Keeps.refl _ _ ?_)
    intro other ho
    cases hc.symm.trans ho
    exact hs.keeps
  | number index call hc hs => exact numbered.assign hc hs
  | request index call id hc hs => exact numbered.send hc hs
  | issue _ _ _ hr | take _ _ _ hr =>
    exact numbered.keeps (congrArg (List.filterMap _) (Channel.recv_sent hr)) rfl same
  | settle id result request =>
    exact numbered.keeps rfl rfl (.modify Call.Keeps.refl _ _
      fun _ _ => ⟨rfl, fun _ h => h, fun _ h => h, fun h => h⟩)
  | fail calls hca => exact numbered.keeps rfl rfl (hca.mono fun _ _ h => h.keeps)

/-! ### Answers -/

/-- What a caller keeps to in handing out answers. -/
structure Routed (caller : Caller) : Prop where
  pending : ∀ id request, caller.pending.lookup id = some request →
    ∃ sent, (sent, request.reply) ∈ caller.taken ∧ sent.id = id
  reply : ∀ (index : Nat) (call : Call) (result : Except RemoteError Value),
    caller.calls[index]? = some call → call.reply = some (.wire result) →
    ∃ sent, (sent, index) ∈ caller.taken ∧ (sent.id, result) ∈ caller.answered
  replied : ∀ (index : Nat) (call : Call) (id : String) (result : Except RemoteError Value),
    caller.calls[index]? = some call → call.stage = .done (.replied id (.wire result)) →
    (id, result) ∈ caller.answered
  requested : caller.requested = caller.taken.map Prod.fst

end Caller

/-- A change of a call that tells it nothing. -/
structure Call.Tells (before after : Call) : Prop where
  reply : ∀ result, after.reply = some (.wire result) → before.reply = some (.wire result)
  replied : ∀ id result, after.stage = .done (.replied id (.wire result)) →
    before.stage = .done (.replied id (.wire result))

theorem Call.Tells.refl (call : Call) : call.Tells call := ⟨fun _ h => h, fun _ _ h => h⟩

theorem Call.Failed.tells (h : before.Failed after) : before.Tells after := by
  rcases h with rfl | ⟨error, -, rfl⟩
  · exact .refl _
  · exact ⟨fun _ => nofun, fun _ _ h => h⟩

namespace Caller

variable {self next : Caller}

theorem Routed.keeps (h : self.Routed)
    (hp : ∀ id request, next.pending.lookup id = some request →
      self.pending.lookup id = some request)
    (ht : next.taken = self.taken) (hr : next.requested = self.requested)
    (ha : ∀ answer ∈ self.answered, answer ∈ next.answered)
    (hc : Pointwise Call.Tells self.calls next.calls) : next.Routed := by
  obtain ⟨hpe, hrep, hre, hreq⟩ := h
  have hb {index : Nat} {call : Call} (hca : next.calls[index]? = some call) :=
    hc.related index call hca
  constructor <;> grind [Call.Tells]

variable {commands : Channel Command} {id : String} {request : Request} {call : Call} {index : Nat}

theorem Routed.take_reply {cancelSent : Bool} {reply : Reply} (h : self.Routed)
    (numbered : self.Numbered config) (hc : self.calls[index]? = some call)
    (hs : call.stage = .waiting id cancelSent) (hrep : call.reply = some reply)
    (hpo : Posted self.commands commands) :
    Routed ({ self with commands }.setStage index (.done (.replied id reply))) := by
  have ht : ({ self with commands }.setStage index (.done (.replied id reply))).taken =
      self.taken := (posted_of_quiet hpo).2
  refine ⟨?_, ?_, ?_, h.requested.trans (congrArg _ ht.symm)⟩
  · rw [ht]
    exact h.pending
  · rw [ht]
    intro position other result ho hre
    rcases setStage_calls ho with ⟨rfl, earlier, hea, rfl⟩ | ⟨-, ho⟩
    · exact h.reply position earlier result hea hre
    · exact h.reply position other result ho hre
  · intro position other otherId result ho hr
    rcases setStage_calls ho with ⟨rfl, earlier, hea, rfl⟩ | ⟨-, ho⟩
    · cases hr
      cases hc.symm.trans hea
      -- The request whose answer came is the one that this call sent.
      obtain ⟨sent, hse, ha⟩ := h.reply position call result hc hrep
      have hp := numbered.sent position call id hc (by rw [hs]; rfl)
      rwa [numbered.posted_unique (self.taken_sublist.mem hse) hp] at ha
    · exact h.replied position other otherId result ho hr

theorem Routed.issue (h : self.Routed)
    (hre : self.commands.recv = some (.request (.req request) index, commands)) :
    Routed { self with
      commands
      pending := self.pending.insert request.id ⟨request.method, index⟩
      requested := self.requested ++ [request] } := by
  have ht : commands.received.filterMap Command.posting = self.taken ++ [(request, index)] := by
    simp [Channel.recv_received hre, taken, Command.posting]
  refine ⟨?_, ?_, h.replied, ?_⟩
  · intro id pending hp
    rw [lookup_insert_eq] at hp
    simp only [taken, ht, List.mem_append, List.mem_singleton]
    split at hp
    · rename_i hid
      cases hp
      exact ⟨request, .inr rfl, hid.symm⟩
    · obtain ⟨sent, hs, hid⟩ := h.pending id pending hp
      exact ⟨sent, .inl hs, hid⟩
  · intro position call result hc hr
    obtain ⟨sent, hs, ha⟩ := h.reply position call result hc hr
    simp only [taken, ht, List.mem_append]
    exact ⟨sent, .inl hs, ha⟩
  · simp only [taken, ht, List.map_append, h.requested]
    rfl

theorem Routed.settle {result : Except RemoteError Value} {request : PendingRequest}
    (h : self.Routed) (hpe : self.pending.lookup id = some request) :
    Routed (Caller.reply
      { self with
        pending := self.pending.erase id
        answered := self.answered ++ [(id, result)] }
      request.reply result) := by
  obtain ⟨hp, hrep, hre, hr⟩ := h
  have hc {position : Nat} {other : Call}
      (ho : (self.calls.modify request.reply fun call =>
        { call with reply := some (.wire result) })[position]? = some other) :=
    getElem?_modify_eq_some ho
  refine ⟨fun other pending ho => hp other pending (lookup_of_erase ho), ?_, ?_, hr⟩ <;>
    grind [Caller.reply, taken]

theorem Routed.start (h : self.Routed) (hrepl : call.reply = none)
    (hs : call.stage.sentId = none) : Routed { self with calls := self.calls ++ [call] } := by
  obtain ⟨hp, hrep, hre, hr⟩ := h
  refine ⟨hp, ?_, ?_, hr⟩ <;> grind [taken, CallStage.sentId]

theorem Step.routed (h : self.Step config next) (numbered : self.Numbered config)
    (routed : self.Routed) : next.Routed := by
  have same := Pointwise.refl Call.Tells.refl self.calls
  cases h with
  | idle => exact routed
  | post commands hp =>
    exact routed.keeps (fun _ _ h => h) (posted_of_quiet hp).2 rfl (fun _ h => h) same
  | start call hr hs =>
    rcases hs with hs | ⟨error, hs⟩
    · exact routed.start hr (by rw [hs]; rfl)
    · exact routed.start hr (by rw [hs]; rfl)
  | follow index call stage commands hc hs hp =>
    have silent (hsi : ∀ id result, stage ≠ .done (.replied id (.wire result))) :
        Routed ({ self with commands }.setStage index stage) :=
      routed.keeps (fun _ _ h => h) (posted_of_quiet hp).2 rfl (fun _ h => h)
        (.modify Call.Tells.refl _ _ fun _ _ =>
          ⟨fun _ h => h, fun id result h => absurd h (hsi id result)⟩)
    cases hs with
    | replied id cancelSent reply hw hr =>
      exact routed.take_reply numbered hc hw hr hp
    | failed | dropped | resumed | checked | fitted | polled | parked =>
      exact silent fun _ _ => nofun
  | number index call hc hs =>
    exact routed.keeps (fun _ _ h => h) rfl rfl (fun _ h => h)
      (.modify Call.Tells.refl _ _ fun _ _ => ⟨fun _ h => h, fun _ _ => nofun⟩)
  | request index call id hc hs =>
    refine routed.keeps (fun _ _ h => h) ?_ rfl (fun _ h => h)
      (.modify Call.Tells.refl _ _ fun _ _ => ⟨fun _ h => h, fun _ _ => nofun⟩)
    simp [taken, setStage]
  | issue request index commands hre => exact routed.issue hre
  | take command commands pending hre hq hpe =>
    refine routed.keeps hpe ?_ rfl (fun _ h => h) same
    simp [taken, Channel.recv_received hre, hq.posting]
  | ignore id result =>
    exact routed.keeps (fun _ _ h => h) rfl rfl (fun _ h => List.mem_append_left _ h) same
  | settle id result request hpe => exact routed.settle hpe
  | fail calls hca =>
    exact routed.keeps (fun _ _ => nofun) rfl rfl (fun _ h => h) (hca.mono fun _ _ h => h.tells)

theorem Numbered.requested_nodup (numbered : self.Numbered config) (routed : self.Routed) :
    (self.requested.map Request.id).Nodup := by
  have hi : (self.taken.map Prod.snd).Nodup :=
    numbered.indices.sublist (self.taken_sublist.map _)
  rw [routed.requested, List.map_map]
  refine List.Nodup.map_on ?_ hi.of_map
  rintro ⟨first, index⟩ hf ⟨second, other⟩ hs (hid : first.id = second.id)
  have hf := self.taken_sublist.mem hf
  have hs := self.taken_sublist.mem hs
  cases numbered.owner index other first.id (.inr ⟨first, hf, rfl⟩)
    (.inr ⟨second, hs, hid.symm⟩)
  rw [numbered.posted_unique hf hs]

theorem Numbered.sent_request (numbered : self.Numbered config) (routed : self.Routed)
    (hc : self.calls[index]? = some call) (hid : call.stage.sentId = some id)
    (hr : request ∈ self.requested) (hre : request.id = id) :
    request = call.request id := by
  have hp := numbered.sent index call id hc hid
  rw [routed.requested] at hr
  obtain ⟨⟨sent, other⟩, hs, rfl⟩ := List.mem_map.mp hr
  have hs := self.taken_sublist.mem hs
  cases numbered.owner other index id (.inr ⟨sent, hs, hre⟩)
    (.inr ⟨call.request id, hp, rfl⟩)
  exact numbered.posted_unique hs hp

end Caller

namespace Session

variable {self : Session H}

theorem initial_numbered (handlers : List (String × H)) :
    (initial handlers).caller.Numbered config where
  indices := List.nodup_nil
  inCalls _ hp := absurd hp List.not_mem_nil
  unsent _ _ hc := by cases hc
  sent _ _ _ hc := by cases hc
  number _ _ ho := by
    rcases ho with ⟨_, hc, _⟩ | ⟨_, hp, _⟩
    · cases hc
    · cases hp
  owner _ _ _ ho := by
    rcases ho with ⟨_, hc, _⟩ | ⟨_, hp, _⟩
    · cases hc
    · cases hp

theorem initial_routed (handlers : List (String × H)) : (initial handlers).caller.Routed where
  pending _ _ hp := by cases hp
  reply _ _ _ hc := by cases hc
  replied _ _ _ _ hc := by cases hc
  requested := rfl

theorem Reachable.numbered_routed (h : self.Reachable config) :
    self.caller.Numbered config ∧ self.caller.Routed := by
  refine (h.invariant (fun session => (∀ command ∈ session.commands.sent, command.Legal) ∧
    session.caller.Numbered config ∧ session.caller.Routed) ?_ ?_).2
  · exact fun handlers => ⟨fun _ hc => absurd hc List.not_mem_nil,
      initial_numbered handlers, initial_routed handlers⟩
  · rintro session label next ⟨hl, numbered, routed⟩ hs
    have step := step_caller hl hs
    exact ⟨step.legal hl, step.numbered numbered, step.routed numbered routed⟩

end Session

end MangoProtocol
