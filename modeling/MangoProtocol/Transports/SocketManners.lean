import MangoProtocol.Transports.SocketQueue

/-! The queue of a WebSocket port.  Unless a close overtakes a `send_frame` that has found the port
open, no run of chunks is queued behind a farewell or a close command. -/

namespace MangoProtocol

open ProofKit

variable {platform : Platform} {options : WebSocketOptions}

def WriteCommand.isPlain : WriteCommand platform options → Bool
  | .chunks run => !run.frame.isClose
  | .close _ _ => false

def WriteCommand.isRun : WriteCommand platform options → Bool
  | .chunks _ => true
  | .close _ _ => false

namespace SocketCall

/-- A `send_frame` between its check of `open` and its place in the queue. -/
def sending : SocketCall platform options → Bool
  | .checked _ | .counted _ _ => true
  | _ => false

def early : SocketCall platform options → Bool
  | .lowered _ | .parting _ _ => true
  | _ => false

/-- A `close` past the swap. -/
def departing : SocketCall platform options → Bool
  | .lowered _ | .parting _ _ | .leaving _ => true
  | _ => false

/-- The call does not send a close frame. -/
def polite : SocketCall platform options → Bool
  | .checked run | .counted run _ => !run.frame.isClose
  | _ => true

theorem departing_of_early {call : SocketCall platform options} (h : call.early = true) :
    call.departing = true := by
  cases call <;> first | rfl | cases h

end SocketCall

/-- Nothing of a goodbye is queued. -/
def SocketShared.Unsaid (shared : SocketShared platform options) : Prop :=
  ∀ command ∈ shared.commands.sent, command.isPlain = true

namespace SocketWriter

variable {self next : SocketWriter platform options} {label : SocketLabel}

/-- The step is no close that lowers `open` under a `send_frame` that has read it, and no close
frame is handed to `send_frame`. -/
def courteous (self : SocketWriter platform options) : SocketLabel → Bool
  | .sendFrame frame => !frame.isClose
  | .advance index =>
    match self.calls[index]? with
    | some (.closing _) => !(self.shared.isOpen && self.calls.any SocketCall.sending)
    | _ => true
  | _ => true

/-- No run is queued behind a goodbye, and who may still queue one. -/
structure Manners (writer : SocketWriter platform options) : Prop where
  script : writer.shared.commands.sent.Pairwise fun earlier later =>
    later.isRun = true → earlier.isPlain = true
  polite : ∀ call ∈ writer.calls, call.polite = true
  opened : writer.shared.isOpen = true → writer.shared.Unsaid
  unsaid : ∀ call ∈ writer.calls, call.sending = true ∨ call.early = true → writer.shared.Unsaid
  departed : ∀ call ∈ writer.calls, call.departing = true → writer.shared.isOpen = false
  apart : ∀ call ∈ writer.calls, call.departing = true →
    ∀ other ∈ writer.calls, other.sending = false
  unique : ∀ (first second : Nat) call other, writer.calls[first]? = some call →
    writer.calls[second]? = some other → call.departing = true → other.departing = true →
    first = second

variable {call after : SocketCall platform options} {shared : SocketShared platform options}
  {index : Nat}

theorem Manners.quiet (h : self.Manners) (hca : self.calls[index]? = some call)
    (hs : shared.commands.sent = self.shared.commands.sent)
    (hope : shared.isOpen = true → self.shared.isOpen = true)
    (hpo : call.polite = true → after.polite = true)
    (hse : after.sending = true → call.sending = true)
    (hea : after.early = true → call.early = true)
    (hd : after.departing = true → call.departing = true) :
    { self with shared, calls := self.calls.set index after }.Manners := by
  obtain ⟨hsc, hp, hop, hu, hde, ha, hun⟩ := h
  have hm := List.mem_of_getElem? hca
  have said (hu : self.shared.Unsaid) : shared.Unsaid := fun command hc =>
    hu command (hs ▸ hc)
  have hset {other : SocketCall platform options} (ho : other ∈ self.calls.set index after) :=
    List.mem_or_eq_of_mem_set ho
  refine ⟨hs ▸ hsc, ?_, ?_, ?_, ?_, ?_, ?_⟩ <;> grind

theorem Manners.keep (h : self.Manners) (hca : next.calls = self.calls)
    (hs : next.shared.commands.sent = self.shared.commands.sent)
    (hop : next.shared.isOpen = true → self.shared.isOpen = true) : next.Manners := by
  obtain ⟨hsc, hp, ho, hu, hd, ha, hun⟩ := h
  have said (hu : self.shared.Unsaid) : next.shared.Unsaid := fun command hc =>
    hu command (hs ▸ hc)
  refine ⟨hs ▸ hsc, ?_, ?_, ?_, ?_, ?_, ?_⟩ <;> grind

theorem Manners.enter (h : self.Manners) (hpo : call.polite = true)
    (hse : call.sending = true → self.shared.isOpen = true)
    (hd : call.departing = false) :
    { self with calls := self.calls ++ [call] }.Manners := by
  obtain ⟨hs, hp, ho, hun, hde, ha, hu⟩ := h
  have hea (h : call.early = true) : call.departing = true := SocketCall.departing_of_early h
  refine ⟨hs, ?_, ho, ?_, ?_, ?_, ?_⟩ <;> grind

theorem Manners.queue (h : self.Manners) {waiting : Nat} {run : FrameRun platform options}
    (hc : self.calls[index]? = some (.counted run waiting)) :
    { self with
      shared := { self.shared with commands := self.shared.commands.send (.chunks run) }
      calls := self.calls.set index (.queued waiting) }.Manners := by
  have hm := List.mem_of_getElem? hc
  have hu := h.unsaid _ hm (.inl rfl)
  have hr : (WriteCommand.chunks run).isPlain = true := h.polite _ hm
  have hq : { self with calls := self.calls.set index (.queued waiting) }.Manners :=
    h.quiet hc rfl id (fun _ => rfl) nofun nofun nofun
  have said : SocketShared.Unsaid { self.shared with
      commands := self.shared.commands.send (.chunks run) } := by
    grind [SocketShared.Unsaid, Channel.sent_send]
  exact ⟨List.pairwise_append.mpr ⟨h.script, List.pairwise_singleton _ _, fun earlier hea _ _ _ =>
    hu earlier hea⟩, hq.polite, fun _ => said, fun _ _ _ => said, hq.departed,
    hq.apart, hq.unique⟩

theorem Manners.lower (h : self.Manners) (index : Nat) (request : CloseRequest)
    (hop : self.shared.isOpen = true)
    (hse : ∀ call ∈ self.calls, call.sending = false) :
    { self with
      shared := { self.shared with isOpen := false }
      calls := self.calls.set index (.lowered request) }.Manners := by
  obtain ⟨hs, hp, ho, hun, hd, ha, hu⟩ := h
  have hset {other : SocketCall platform options}
      (hot : other ∈ self.calls.set index (.lowered request)) := List.mem_or_eq_of_mem_set hot
  refine ⟨hs, ?_, nofun, fun _ _ _ => ho hop, fun _ _ _ => rfl, ?_, ?_⟩ <;>
    grind [SocketCall.polite, SocketCall.sending]

theorem Manners.say (h : self.Manners) {command : WriteCommand platform options}
    (hc : self.calls[index]? = some call) (hd : call.departing = true)
    (hpo : after.polite = true) (hs : after.sending = false)
    (hear : after.early = false) (hsa : command.isRun = true → self.shared.Unsaid) :
    { self with
      shared := { self.shared with commands := self.shared.commands.send command }
      calls := self.calls.set index after }.Manners := by
  have hm := List.mem_of_getElem? hc
  have hcl := h.departed call hm hd
  have ha := h.apart call hm hd
  have hu (position : Nat) (other : SocketCall platform options) :=
    h.unique position index other call
  have hq : { self with calls := self.calls.set index after }.Manners :=
    h.quiet hc rfl id (fun _ => hpo) (fun hk => by cases hs.symm.trans hk)
      (fun hk => by cases hear.symm.trans hk) (fun _ => hd)
  refine ⟨List.pairwise_append.mpr ⟨h.script, List.pairwise_singleton _ _, ?_⟩, hq.polite,
    fun hop => ?_, fun other ho hk => ?_, hq.departed, hq.apart, hq.unique⟩
  · intro earlier hea later hl hr
    rw [List.mem_singleton.mp hl] at hr
    exact hsa hr earlier hea
  · cases hcl.symm.trans hop
  -- Nobody else is about to queue a run: the other calls neither send nor depart.
  · obtain ⟨position, hp⟩ := List.mem_iff_getElem?.mp ho
    rcases getElem?_set_eq_some hp with ⟨-, rfl⟩ | ⟨hne, hold⟩
    · grind
    · have ho := List.mem_of_getElem? hold
      grind [SocketCall.departing_of_early]

theorem Manners.turn (h : self.Manners) (hco : self.courteous (.advance index) = true)
    (hc : self.calls[index]? = some call) (ht : SocketCall.Turn self.shared call shared after)
    : { self with shared, calls := self.calls.set index after }.Manners := by
  cases ht with
  | queue run waiting => exact h.queue hc
  | lower request ho =>
    refine h.lower index request ho fun other hot => ?_
    simp only [courteous, hc, ho, Bool.true_and, Bool.not_eq_true', List.any_eq_false]
      at hco
    simpa using hco other hot
  | bid request run =>
    exact h.say hc rfl rfl rfl rfl fun _ => h.unsaid _ (List.mem_of_getElem? hc) (.inr rfl)
  | leave request => exact h.say hc rfl rfl rfl rfl nofun
  | count run => exact h.quiet hc rfl id id (fun _ => rfl) nofun nofun
  | lost => exact h.quiet hc rfl nofun (fun _ => rfl) nofun nofun nofun
  | part => exact h.quiet hc rfl id (fun _ => rfl) nofun (fun _ => rfl) (fun _ => rfl)
  | bare | unheard => exact h.quiet hc rfl id (fun _ => rfl) nofun nofun (fun _ => rfl)
  | unqueue | stall | sent | uncount | late | gone =>
    exact h.quiet hc rfl id (fun _ => rfl) nofun nofun nofun

theorem Shift.keeps (h : Shift self label next) : next.calls = self.calls ∧
    next.shared.commands.sent = self.shared.commands.sent ∧
    (next.shared.isOpen = true → self.shared.isOpen = true) := by
  cases h with
  | take _ _ _ hr | takeClose _ _ _ _ hr | drain _ _ _ hr | discard _ _ _ _ hr =>
    exact ⟨rfl, Channel.recv_sent hr, id⟩
  | lower | broken => exact ⟨rfl, rfl, nofun⟩
  | _ => exact ⟨rfl, rfl, id⟩

theorem Manners.step (h : self.Manners) (hc : self.courteous label = true)
    (hm : Move self label next) : next.Manners := by
  cases hm with
  | send frame run hf ho =>
    refine h.enter ?_ (fun _ => ho) rfl
    rw [SocketCall.polite, hf]
    exact hc
  | unsent | close => exact h.enter rfl nofun rfl
  | markClosed => exact h.keep rfl rfl nofun
  | turn index call after shared hcal ht => exact h.turn hc hcal ht
  | task _ _ hs =>
    obtain ⟨hca, hse, ho⟩ := hs.keeps
    exact h.keep hca hse ho

end SocketWriter

end MangoProtocol
