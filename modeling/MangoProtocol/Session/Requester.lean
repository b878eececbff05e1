import MangoProtocol.Session.Requesting

/-! What a session keeps to about its requests.  What was cancelled had been sent, a call that gives
its request up tells the driver, and the map of the driver holds nothing that was given up. -/

namespace MangoProtocol

open ProofKit ProofKit.Tables

variable {H : Type} {config : Config}

def Call.Gone (call : Call) : Prop :=
  call.stage = .dropped ∨ ∃ timeout, call.options.timeout = some timeout ∧
    call.stage = .done (.failed (timeoutError call.method timeout))

/-- The stages that no step moves on from. -/
def CallStage.final : CallStage → Bool
  | .done _ | .dropped => true
  | _ => false

theorem Call.Gone.final {call : Call} (h : call.Gone) : call.stage.final = true := by
  rcases h with h | ⟨timeout, -, h⟩
  · rw [h]
    rfl
  · rw [h]
    rfl

theorem Call.Moves.not_final {isOpen : Bool} {call : Call} {stage : CallStage}
    (h : call.Moves isOpen stage) : call.stage.final = false := by
  have unsent {stage : CallStage} (h : stage.unsent = true) : stage.final = false := by
    cases stage <;> first | rfl | cases h
  cases h with
  | refused _ h | dropped h => exact unsent h
  | advanced _ h => exact unsent h
  | replied _ _ _ h | abandoned _ _ _ h | polled _ _ h | parked _ _ h => rw [h]; rfl

theorem Call.Leaves.not_final {call : Call} {id : String} {stage : CallStage}
    (h : call.Leaves id stage) : call.stage.final = false := by
  cases h with
  | timeout _ _ h | dropped _ h => rw [h]; rfl

theorem Call.Leaves.sentId {call : Call} {id : String} {stage : CallStage}
    (h : call.Leaves id stage) : call.stage.sentId = some id := by
  cases h with
  | timeout _ _ h | dropped _ h => rw [h]; rfl

theorem Call.Leaves.gone {call : Call} {id : String} {stage : CallStage}
    (h : call.Leaves id stage) : Call.Gone { call with stage } := by
  cases h with
  | timeout _ timeout _ ht => exact .inr ⟨timeout, ht, rfl⟩
  | dropped => exact .inl rfl

namespace Requests

variable {self next : Requests}

/-! ### One call in one step -/

/-- What a step did to one call. -/
inductive CallStep (before after : Requests) (index : Nat) (call : Call) : Prop
  | same (h : before.calls[index]? = some call)
  | fresh (h : index = before.calls.length) (hreply : call.reply = none)
    (hstage : call.stage = .awaitingReady ∨ ∃ error, call.stage = .done (.failed error))
  | moved (earlier : Call) (stage : CallStage) (h : before.calls[index]? = some earlier)
    (hmoves : earlier.Moves before.isOpen stage) (hcall : call = { earlier with stage })
  | waits (earlier : Call) (id : String) (cancelSent : Bool)
    (h : before.calls[index]? = some earlier)
    (hstage : earlier.stage.final = false)
    (hcall : call = { earlier with stage := .waiting id cancelSent })
  | left (earlier : Call) (id : String) (stage : CallStage)
    (h : before.calls[index]? = some earlier)
    (hleaves : earlier.Leaves id stage) (hcall : call = { earlier with stage })
    (horders : after.orders = before.orders ++ if before.isOpen then [.cancel id false] else [])
  | told (earlier : Call) (id : String) (request : PendingRequest)
    (result : Except RemoteError Value) (h : before.calls[index]? = some earlier)
    (hserving : before.serving = true) (hpending : before.pending.lookup id = some request)
    (hreply : request.reply = index)
    (hcall : call = { earlier with reply := some (.wire result) })
    (hanswered : after.answered = before.answered ++ [(id, result)])
    (herased : after.pending = before.pending.erase id)
  | failed (earlier : Call) (error : RemoteError) (h : before.calls[index]? = some earlier)
    (hcode : error.code = codes.unavailable)
    (hcall : call = { earlier with reply := some (.teardown error) })
    (hserving : before.serving = true)
    (hpending : ∃ id request, before.pending.lookup id = some request ∧ request.reply = index)
    (herased : after.pending = ∅)

theorem Step.call {index : Nat} {call : Call} (h : self.Step next)
    (hc : next.calls[index]? = some call) : CallStep self next index call := by
  cases h with
  | idle | issue | dismiss | ignore => exact .same hc
  | start other hr hst =>
    rcases getElem?_concat hc with hc | ⟨hi, rfl⟩
    · exact .same hc
    · exact .fresh hi hr hst
  | fail calls hs hca hk =>
    by_cases hp : ∃ id request, self.pending.lookup id = some request ∧ request.reply = index
    · obtain ⟨earlier, hea, rfl | ⟨error, hco, rfl⟩⟩ := hca.related index call hc
      · exact .same hea
      · exact .failed earlier error hea hco rfl hs hp rfl
    · exact .same (by grind)
  | _ =>
    rcases getElem?_modify_eq_some hc with ⟨rfl, earlier, hea, rfl⟩ | ⟨-, hc⟩
    · grind [CallStep, order, setStage, CallStage.final]
    · exact .same hc

/-! ### One order in one step -/

/-- What a step did to the orders. -/
inductive OrderStep (before after : Requests) : Prop
  | none (h : after.orders = before.orders)
  | issue (index : Nat) (call : Call) (id : String) (hcall : before.calls[index]? = some call)
    (hstage : call.stage = .fitted id)
    (h : after.orders = before.orders ++ [.issue (call.request id) index])
    (hlater : after.calls[index]? = some { call with stage := .waiting id false })
  | cancel (index : Nat) (call : Call) (id : String) (forget : Bool)
    (hcall : before.calls[index]? = some call) (hid : call.stage.sentId = some id)
    (h : after.orders = before.orders ++ [.cancel id forget])
    (hgone : forget = false → ∃ later, after.calls[index]? = some later ∧ later.Gone)

theorem Step.orders (h : self.Step next) : OrderStep self next := by
  cases h with
  | request index call id hc hs ho =>
    refine .issue index call id hc hs ?_ ?_ <;> grind [order, setStage]
  | cancel index call id hc hs =>
    by_cases ho : self.isOpen = true
    · exact .cancel index call id true hc (by rw [hs]; rfl) (by grind [order, setStage]) nofun
    · exact .none (by grind [order, setStage])
  | leave index call id stage hc hs =>
    by_cases ho : self.isOpen = true
    · refine .cancel index call id false hc hs.sentId (by grind [order, setStage]) fun _ => ?_
      exact ⟨{ call with stage }, by grind [order, setStage], hs.gone⟩
    · exact .none (by grind [order, setStage])
  | _ => exact .none rfl

theorem Step.orders_mono {order : Order} (h : self.Step next) (ho : order ∈ self.orders) :
    order ∈ next.orders := by
  cases h.orders with
  | none h => rw [h]; exact ho
  | issue _ _ _ _ _ h | cancel _ _ _ _ _ _ h => rw [h]; exact List.mem_append_left _ ho

theorem Step.issued {request : Request} {index : Nat} (h : self.Step next)
    (hi : .issue request index ∈ next.orders) : .issue request index ∈ self.orders ∨
      ∃ call id, next.calls[index]? = some call ∧ call.stage = .waiting id false := by
  cases h.orders <;> grind

theorem Step.isOpen (h : self.Step next) (ho : next.isOpen = true) : self.isOpen = true := by
  cases h with
  | idle _ _ h => exact h ho
  | _ => exact ho

theorem Step.serving (h : self.Step next) (hs : next.serving = true) :
    self.serving = true := by
  cases h with
  | idle _ _ _ h => exact h hs
  | fail => cases hs
  | _ => exact hs

theorem Step.taken_mono {order : Order} (h : self.Step next) (ho : order ∈ self.taken) :
    order ∈ next.taken := by
  cases h with
  | issue | dismiss => exact List.mem_append_left _ ho
  | _ => exact ho

theorem Step.gone {index : Nat} {call later : Call} (h : self.Step next)
    (hc : self.calls[index]? = some call) (hg : call.Gone)
    (hl : next.calls[index]? = some later) : later.Gone := by
  have hf := hg.final
  cases h.call hl <;> grind [Call.Moves.not_final, Call.Leaves.not_final, Call.Gone]

theorem Step.calls_mono {index : Nat} {call : Call} (h : self.Step next)
    (hca : self.calls[index]? = some call) : ∃ later, next.calls[index]? = some later := by
  have hi : index < next.calls.length := by
    have hs := (List.getElem?_eq_some_iff.mp hca).1
    cases h with
    | fail calls _ hc => grind [hc.length]
    | _ => grind [setStage, order, take]
  exact ⟨_, List.getElem?_eq_getElem hi⟩

/-! ### What every step keeps -/

/-- The ids and the orders of a session that was reached. -/
structure Sound (requests : Requests) : Prop where
  sent : ∀ (index : Nat) (call : Call) (id : String), requests.calls[index]? = some call →
    call.stage.sentId = some id → .issue (call.request id) index ∈ requests.orders
  unsent : ∀ (index : Nat) (call : Call), requests.calls[index]? = some call →
    call.stage.unsent = true → ∀ request, .issue request index ∉ requests.orders
  unique : ∀ (first second : Request) (index : Nat), .issue first index ∈ requests.orders →
    .issue second index ∈ requests.orders → first = second
  owner : ∀ (first second : Request) (index other : Nat), .issue first index ∈ requests.orders →
    .issue second other ∈ requests.orders → first.id = second.id → index = other
  inCalls : ∀ (request : Request) (index : Nat), .issue request index ∈ requests.orders →
    ∃ call, requests.calls[index]? = some call
  taken : ∃ waiting, requests.orders = requests.taken ++ waiting
  isOpen : requests.serving = true → requests.isOpen = true

theorem Sound.mem_of_taken {order : Order} (sound : self.Sound) (h : order ∈ self.taken) :
    order ∈ self.orders := by
  obtain ⟨waiting, hw⟩ := sound.taken
  rw [hw]
  exact List.mem_append_left _ h

theorem Sound.id_eq {index : Nat} {call : Call} {id : String} {request : Request}
    (sound : self.Sound) (hc : self.calls[index]? = some call)
    (hid : call.stage.sentId = some id) (hi : .issue request index ∈ self.orders) :
    request.id = id := by
  rw [sound.unique request _ index hi (sound.sent index call id hc hid)]
  rfl

/-- What a call that sent its request may end with. -/
inductive Outcome (id method : String) (options : RequestOptions) : CallResult → Prop
  | replied (reply : Reply)
    (h : ∀ error, reply = .teardown error → error.code = codes.unavailable) :
    Outcome id method options (.replied id reply)
  | timeout (timeout : Nat) (h : options.timeout = some timeout) :
    Outcome id method options (.failed (timeoutError method timeout))
  | unavailable (error : RemoteError) (h : error.code = codes.unavailable) :
    Outcome id method options (.failed error)

/-- What the requesting part of a session keeps to. -/
structure Kept (requests : Requests) : Prop where
  ordered : ∀ before id forget after, requests.orders = before ++ .cancel id forget :: after →
    ∃ request index, .issue request index ∈ before ∧ request.id = id
  written : requests.written = requests.taken.map Order.frame
  left : ∀ id, .cancel id false ∈ requests.orders → ∃ request index call,
    .issue request index ∈ requests.orders ∧ request.id = id ∧
      requests.calls[index]? = some call ∧ call.Gone
  leaves : requests.isOpen = true → ∀ (request : Request) (index : Nat) (call : Call),
    .issue request index ∈ requests.orders → requests.calls[index]? = some call → call.Gone →
      .cancel request.id false ∈ requests.orders
  pending : ∀ id entry, requests.pending.lookup id = some entry →
    ∃ request, .issue request entry.reply ∈ requests.taken ∧ request.id = id
  gone : ∀ id, .cancel id false ∈ requests.taken → id ∉ requests.pending
  failed : ∀ (index : Nat) (call : Call) (error : RemoteError),
    requests.calls[index]? = some call → call.reply = some (.teardown error) →
      error.code = codes.unavailable
  outcome : ∀ (request : Request) (index : Nat) (call : Call) (result : CallResult),
    .issue request index ∈ requests.orders → requests.calls[index]? = some call →
      call.stage = .done result → Outcome request.id call.method call.options result

theorem Step.ordered (h : self.Step next) (sound : self.Sound) (kept : self.Kept) :
    ∀ before id forget after, next.orders = before ++ .cancel id forget :: after →
      ∃ request index, .issue request index ∈ before ∧ request.id = id := by
  intro before id forget after heq
  -- The list of orders grows at its end only.
  have grown {order : Order} (ho : next.orders = self.orders ++ [order])
      (hn : ∀ id forget, order = .cancel id forget →
        ∃ request index, .issue request index ∈ self.orders ∧ request.id = id) :
      ∃ request index, .issue request index ∈ before ∧ request.id = id := by
    rw [ho] at heq
    rcases List.eq_nil_or_concat after with rfl | ⟨rest, last, rfl⟩
    · obtain ⟨rfl, hl⟩ := List.append_inj' heq rfl
      exact hn id forget (List.singleton_inj.mp hl)
    · rw [List.concat_eq_append, ← List.cons_append, ← List.append_assoc] at heq
      obtain ⟨heq, -⟩ := List.append_inj' heq rfl
      exact kept.ordered before id forget rest heq
  cases h.orders with
  | none h =>
    rw [h] at heq
    exact kept.ordered before id forget after heq
  | issue index call new hc hs h => exact grown h fun _ _ => nofun
  | cancel index call new _ hc hid h =>
    refine grown h fun other _ hot => ?_
    cases hot
    exact ⟨call.request new, index, sound.sent index call new hc hid, rfl⟩

theorem Step.written (h : self.Step next) (kept : self.Kept) :
    next.written = next.taken.map Order.frame := by
  cases h with
  | issue | dismiss => simp [take, kept.written]
  | _ => exact kept.written

theorem Step.left (h : self.Step next) (sound : self.Sound) (kept : self.Kept) :
    ∀ id, .cancel id false ∈ next.orders → ∃ request index call,
      .issue request index ∈ next.orders ∧ request.id = id ∧
        next.calls[index]? = some call ∧ call.Gone := by
  intro id hid
  have earlier (hs : .cancel id false ∈ self.orders) : ∃ request index call,
      .issue request index ∈ next.orders ∧ request.id = id ∧
        next.calls[index]? = some call ∧ call.Gone := by
    obtain ⟨request, index, call, hi, hr, hc, hg⟩ := kept.left id hs
    obtain ⟨later, hl⟩ := h.calls_mono hc
    exact ⟨request, index, later, h.orders_mono hi, hr, hl,
      h.gone hc hg hl⟩
  cases h.orders with
  | cancel index call new forget hc hse ho hg =>
    have hi := h.orders_mono (sound.sent index call new hc hse)
    grind [Call.request]
  | _ => grind

theorem moves_outcome {index : Nat} {call : Call} {stage : CallStage} {result : CallResult}
    {request : Request} (h : call.Moves self.isOpen stage) (sound : self.Sound) (kept : self.Kept)
    (hc : self.calls[index]? = some call) (hi : .issue request index ∈ self.orders)
    (hs : stage = .done result) :
    Outcome request.id call.method call.options result := by
  have hu := sound.unsent
  cases h with
  | replied id cancelSent reply h hr =>
    cases hs
    have hid : call.stage.sentId = some id := by rw [h]; rfl
    rw [sound.id_eq hc hid hi]
    exact .replied reply fun error he =>
      kept.failed index call error hc (by rw [hr, he])
  | abandoned id cancelSent error h hr hcl hco =>
    cases hs
    exact .unavailable error hco
  | _ => grind [CallStage.unsent]

theorem Step.leaves (h : self.Step next) (sound : self.Sound) (kept : self.Kept) :
    next.isOpen = true → ∀ (request : Request) (index : Nat) (call : Call),
      .issue request index ∈ next.orders → next.calls[index]? = some call → call.Gone →
        .cancel request.id false ∈ next.orders := by
  intro hop request index call hi hc hg
  have hf := hg.final
  have hin := sound.inCalls
  have hu := sound.unsent
  have hl := kept.leaves
  have hope := h.isOpen hop
  have hi : .issue request index ∈ self.orders := by grind [h.issued hi, CallStage.final]
  have hmon {order : Order} (ho : order ∈ self.orders) : order ∈ next.orders :=
    h.orders_mono ho
  cases h.call hc with
  | moved earlier stage hea hm =>
    cases hm <;> grind [CallStage.final, Call.Gone]
  | left earlier id stage hea hl hmo hor =>
    grind [sound.id_eq hea hl.sentId hi]
  | _ => grind [CallStage.final, Call.Gone]

theorem Step.pending (h : self.Step next) (kept : self.Kept) :
    ∀ id entry, next.pending.lookup id = some entry →
      ∃ request, .issue request entry.reply ∈ next.taken ∧ request.id = id := by
  intro id entry he
  have earlier (hs : self.pending.lookup id = some entry) :
      ∃ request, .issue request entry.reply ∈ next.taken ∧ request.id = id := by
    obtain ⟨request, hi, hid⟩ := kept.pending id entry hs
    exact ⟨request, h.taken_mono hi, hid⟩
  cases h with
  | issue request index =>
    rw [lookup_insert_eq] at he
    split at he
    · rename_i hid
      cases he
      exact ⟨request, List.mem_append_right _ (List.mem_singleton_self _), hid.symm⟩
    · exact earlier he
  | dismiss other forget =>
    cases forget
    · exact earlier (lookup_of_erase he)
    · exact earlier he
  | settle => exact earlier (lookup_of_erase he)
  | fail => cases he
  | idle | start | move | request | cancel | leave | ignore => exact earlier he

theorem Kept.taken_issue {id : String} {forget : Bool} (kept : self.Kept) (sound : self.Sound)
    (h : .cancel id forget ∈ self.taken) :
    ∃ request index, .issue request index ∈ self.taken ∧ request.id = id := by
  obtain ⟨before, after, ht⟩ := List.append_of_mem h
  obtain ⟨waiting, hw⟩ := sound.taken
  rw [ht, List.append_assoc] at hw
  obtain ⟨request, index, hi, hid⟩ := kept.ordered before id forget (after ++ waiting) hw
  rw [ht]
  exact ⟨request, index, List.mem_append_left _ hi, hid⟩

theorem Step.dismissed (h : self.Step next) (sound : self.Sound) (kept : self.Kept) :
    ∀ id, .cancel id false ∈ next.taken → id ∉ next.pending := by
  intro id hid
  cases h with
  | issue request index _ hf =>
    have hid : .cancel id false ∈ self.taken := by
      rcases List.mem_append.mp hid with hid | hid
      · exact hid
      · cases List.mem_singleton.mp hid
    obtain ⟨other, position, hi, rfl⟩ := kept.taken_issue sound hid
    rw [AList.mem_insert, not_or]
    exact ⟨hf other position hi, kept.gone _ hid⟩
  | dismiss other forget =>
    rcases List.mem_append.mp hid with hid | hid
    · have hg := kept.gone id hid
      cases forget
      · exact fun hm => hg (AList.mem_erase.mp hm).2
      · exact hg
    · cases List.mem_singleton.mp hid
      exact fun hm => (AList.mem_erase.mp hm).1 rfl
  | settle => exact fun hm => kept.gone id hid (AList.mem_erase.mp hm).2
  | fail => exact AList.notMem_empty id
  | idle | start | move | request | cancel | leave | ignore => exact kept.gone id hid

theorem Step.failed (h : self.Step next) (kept : self.Kept) :
    ∀ (index : Nat) (call : Call) (error : RemoteError), next.calls[index]? = some call →
      call.reply = some (.teardown error) → error.code = codes.unavailable := by
  intro index call error hc hr
  have hf := kept.failed
  cases h.call hc <;> grind

theorem Step.outcome (h : self.Step next) (sound : self.Sound) (kept : self.Kept) :
    ∀ (request : Request) (index : Nat) (call : Call) (result : CallResult),
      .issue request index ∈ next.orders → next.calls[index]? = some call →
        call.stage = .done result → Outcome request.id call.method call.options result := by
  intro request index call result hi hc hs
  have hin := sound.inCalls
  have ho := kept.outcome
  have hi : .issue request index ∈ self.orders := by grind [h.issued hi]
  cases h.call hc with
  | moved earlier stage hea hmo hm =>
    subst hm
    have ho := moves_outcome hmo sound kept hea hi hs
    exact ho
  | left earlier id stage hea hl => cases hl <;> grind [Outcome]
  | _ => grind

theorem Step.kept (h : self.Step next) (sound : self.Sound) (kept : self.Kept) : next.Kept where
  ordered := h.ordered sound kept
  written := h.written kept
  left := h.left sound kept
  leaves := h.leaves sound kept
  pending := h.pending kept
  gone := h.dismissed sound kept
  failed := h.failed kept
  outcome := h.outcome sound kept

end Requests

namespace Session

variable {self : Session H}

theorem Reachable.sound (h : self.Reachable config) : self.requests.Sound := by
  obtain ⟨numbered, -⟩ := h.numbered_routed
  refine ⟨?_, ?_, ?_, ?_, ?_, ?_, ?_⟩
  · intro index call id hc hid
    exact mem_ordersOf_issue.mpr (numbered.sent index call id hc hid)
  · intro index call hc hu request hi
    exact numbered.unsent index call hc hu request (mem_ordersOf_issue.mp hi)
  · intro first second index hf hs
    exact numbered.posted_unique (mem_ordersOf_issue.mp hf) (mem_ordersOf_issue.mp hs)
  · intro first second index other hf hs hid
    exact numbered.owner index other first.id (.inr ⟨first, mem_ordersOf_issue.mp hf, rfl⟩)
      (.inr ⟨second, mem_ordersOf_issue.mp hs, hid.symm⟩)
  · intro request index hi
    exact ⟨_, List.getElem?_eq_getElem (numbered.inCalls _ (mem_ordersOf_issue.mp hi))⟩
  · grind [requests, ordersOf_append, Channel.received, Channel.waiting, List.take_append_drop]
  · exact commandsOpen_of_serving

theorem initial_kept (handlers : List (String × H)) : (initial handlers).requests.Kept where
  ordered before _ _ after h := by
    have he : [] = before ++ .cancel _ _ :: after := h
    simp at he
  written := rfl
  left _ h := absurd h List.not_mem_nil
  leaves _ _ _ _ h := absurd h List.not_mem_nil
  pending _ _ h := by cases h
  gone _ h := absurd h List.not_mem_nil
  failed _ _ _ h := by cases h
  outcome _ _ _ _ h := absurd h List.not_mem_nil

theorem Reachable.kept (h : self.Reachable config) : self.requests.Kept := by
  obtain ⟨handlers, labels, hru⟩ := h
  refine Reachable.run_invariant (fun session => session.requests.Kept) ?_ ⟨handlers, [], rfl⟩
    (initial_kept handlers) hru
  intro session label next hr kept hs
  exact (step_requests hr hs).kept hr.sound kept

end Session

end MangoProtocol
