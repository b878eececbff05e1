import MangoProtocol.Session.Requester

/-! What the calls of a session are told.  A call is told something once at most, while the driver
serves and its request is in the map, and what it ends with is what it was told. -/

namespace MangoProtocol

open ProofKit ProofKit.Tables

variable {H : Type} {config : Config}

namespace Requests

variable {self next : Requests}

/-- What the calls of a session have been told. -/
structure Heard (requests : Requests) : Prop where
  told : ∀ (index : Nat) (call : Call) (reply : Reply), requests.calls[index]? = some call →
    call.reply = some reply → ∃ request, .issue request index ∈ requests.taken
  unheard : ∀ (id : String) (entry : PendingRequest) (call : Call),
    requests.pending.lookup id = some entry → requests.calls[entry.reply]? = some call →
      call.reply = none
  replied : ∀ (index : Nat) (call : Call) (id : String) (reply : Reply),
    requests.calls[index]? = some call → call.stage = .done (.replied id reply) →
      call.reply = some reply
  abandoned : ∀ (request : Request) (index : Nat) (call : Call) (error : RemoteError),
    .issue request index ∈ requests.orders → requests.calls[index]? = some call →
      call.stage = .done (.failed error) → error.code = codes.unavailable →
        call.reply = none ∧ requests.isOpen = false

theorem Step.told (h : self.Step next) (kept : self.Kept) (heard : self.Heard) :
    ∀ (index : Nat) (call : Call) (reply : Reply), next.calls[index]? = some call →
      call.reply = some reply → ∃ request, .issue request index ∈ next.taken := by
  intro index call reply hc hr
  have earlier {before : Call} (hb : self.calls[index]? = some before)
      (hr : before.reply = some reply) : ∃ request, .issue request index ∈ next.taken := by
    obtain ⟨request, his⟩ := heard.told index before reply hb hr
    exact ⟨request, h.taken_mono his⟩
  have waited {id : String} {entry : PendingRequest}
      (he : self.pending.lookup id = some entry) (hi : entry.reply = index) :
      ∃ request, .issue request index ∈ next.taken := by
    obtain ⟨request, his, -⟩ := kept.pending id entry he
    exact ⟨request, h.taken_mono (hi ▸ his)⟩
  cases h.call hc with
  | same hb => exact earlier hb hr
  | fresh _ hn =>
    rw [hn] at hr
    cases hr
  | moved _ _ hb _ hm | waits _ _ _ hb _ hm | left _ _ _ hb _ hm =>
    subst hm
    exact earlier hb hr
  | told _ id entry _ _ _ he hi => exact waited he hi
  | failed _ _ _ _ _ _ hp =>
    obtain ⟨id, entry, he, hi⟩ := hp
    exact waited he hi

theorem Step.entry {id : String} {entry : PendingRequest} (h : self.Step next) (sound : next.Sound)
    (he : next.pending.lookup id = some entry) : self.pending.lookup id = some entry ∨
      ∀ other, .issue other entry.reply ∉ self.taken := by
  have hm {order : Order} (hor : order ∈ self.taken) : order ∈ next.orders :=
    sound.mem_of_taken (h.taken_mono hor)
  cases h with
  | issue request index _ hf =>
    rw [lookup_insert_eq] at he
    split at he
    · cases he
      right
      intro other ho
      have hn := sound.mem_of_taken (List.mem_append_right _ (List.mem_singleton_self _))
      exact hf other index ho
        (congrArg Request.id (sound.unique other request index (hm ho) hn))
    · exact .inl he
  | dismiss other forget =>
    cases forget
    · exact .inl (lookup_of_erase he)
    · exact .inl he
  | settle => exact .inl (lookup_of_erase he)
  | fail => cases he
  | idle | start | move | request | cancel | leave | ignore => exact .inl he

theorem Kept.entry_unique {id other : String} {entry found : PendingRequest} (kept : self.Kept)
    (sound : self.Sound) (he : self.pending.lookup id = some entry)
    (hf : self.pending.lookup other = some found) (hr : entry.reply = found.reply) :
    id = other := by
  obtain ⟨request, hi, rfl⟩ := kept.pending id entry he
  obtain ⟨second, hs, rfl⟩ := kept.pending other found hf
  rw [hr] at hi
  rw [sound.unique request second _ (sound.mem_of_taken hi) (sound.mem_of_taken hs)]

theorem Step.unheard (h : self.Step next) (sound : self.Sound) (soundNext : next.Sound)
    (kept : self.Kept) (heard : self.Heard) :
    ∀ (id : String) (entry : PendingRequest) (call : Call),
      next.pending.lookup id = some entry → next.calls[entry.reply]? = some call →
        call.reply = none := by
  intro id entry call he hc
  have earlier {before : Call} (hb : self.calls[entry.reply]? = some before) :
      before.reply = none := by
    rcases h.entry soundNext he with hold | hfr
    · exact heard.unheard id entry before hold hb
    · cases hr : before.reply with
      | none => rfl
      | some reply =>
        obtain ⟨other, ho⟩ := heard.told _ before reply hb hr
        exact absurd ho (hfr other)
  cases h.call hc with
  | same hb => exact earlier hb
  | fresh _ hn => exact hn
  | moved _ _ hb _ hm | waits _ _ _ hb _ hm | left _ _ _ hb _ hm =>
    subst hm
    have hn := earlier hb
    exact hn
  | told _ other found _ _ _ hf hi _ _ her =>
    -- The entry that was answered is the only one for its call, and it is gone.
    rw [her, lookup_erase_eq] at he
    split at he
    · cases he
    · rename_i hne
      exact absurd (kept.entry_unique sound he hf hi.symm) hne
  | failed _ _ _ _ _ _ _ her =>
    rw [her] at he
    cases he

theorem Step.replied (h : self.Step next) (heard : self.Heard) :
    ∀ (index : Nat) (call : Call) (id : String) (reply : Reply), next.calls[index]? = some call →
      call.stage = .done (.replied id reply) → call.reply = some reply := by
  intro index call id reply hc hs
  cases h.call hc with
  | same hb => exact heard.replied index call id reply hb hs
  | fresh _ _ hf => grind
  | moved before stage _ hmo hm =>
    subst hm
    cases hmo with
    | replied _ _ _ _ hr =>
      cases hs
      exact hr
    | advanced _ _ hu =>
      dsimp only at hs
      rw [hs] at hu
      cases hu
    | refused | dropped | abandoned | polled | parked => cases hs
  | waits _ _ _ _ _ hm =>
    subst hm
    cases hs
  | left _ _ _ _ hl hm =>
    subst hm
    cases hl with
    | timeout | dropped => cases hs
  | told before other entry _ hb _ he hi hm =>
    subst hm hi
    have hn := heard.unheard other entry before he hb
    rw [heard.replied _ before id reply hb hs] at hn
    cases hn
  | failed before _ hb _ hm _ hp =>
    obtain ⟨other, entry, he, rfl⟩ := hp
    subst hm
    have hn := heard.unheard other entry before he hb
    rw [heard.replied _ before id reply hb hs] at hn
    cases hn

theorem Step.abandoned (h : self.Step next) (sound : self.Sound) (heard : self.Heard) :
    ∀ (request : Request) (index : Nat) (call : Call) (error : RemoteError),
      .issue request index ∈ next.orders → next.calls[index]? = some call →
        call.stage = .done (.failed error) → error.code = codes.unavailable →
          call.reply = none ∧ next.isOpen = false := by
  intro request index call error hi hca hs hco
  have hi : .issue request index ∈ self.orders := by
    rcases h.issued hi with hi | ⟨other, id, ho, hw⟩
    · exact hi
    · cases hca.symm.trans ho
      rw [hw] at hs
      cases hs
  have closed (hc : self.isOpen = false) : next.isOpen = false := by
    cases hn : next.isOpen with
    | false => rfl
    | true => rw [← hc, h.isOpen hn]
  -- Once a call was abandoned, the driver is gone and tells it nothing.
  have silent {before : Call} (hb : self.calls[index]? = some before)
      (hs : before.stage = .done (.failed error)) : ¬self.serving = true := by
    intro hse
    have hc := (heard.abandoned request index before error hi hb hs hco).2
    rw [sound.isOpen hse] at hc
    cases hc
  cases h.call hca with
  | same hb =>
    obtain ⟨hr, hc⟩ :=
      heard.abandoned request index call error hi hb hs hco
    exact ⟨hr, closed hc⟩
  | fresh hin =>
    obtain ⟨other, ho⟩ := sound.inCalls request index hi
    rw [hin, List.getElem?_eq_none le_rfl] at ho
    cases ho
  | moved before stage hb hmo hm =>
    subst hm
    cases hmo with
    | refused _ h => exact absurd hi (sound.unsent index before hb h request)
    | advanced _ h => exact absurd hi (sound.unsent index before hb h request)
    | abandoned _ _ _ _ hr hc => exact ⟨hr, closed hc⟩
    | replied | dropped | polled | parked => cases hs
  | waits _ _ _ _ _ hm =>
    subst hm
    cases hs
  | left _ _ _ _ hl hm =>
    subst hm
    cases hl with
    | timeout =>
      cases hs
      have hcod : codes.timeout = codes.unavailable := hco
      exact absurd hcod (by decide)
    | dropped => cases hs
  | told before _ _ _ hb hse _ _ hm =>
    subst hm
    exact absurd hse (silent hb hs)
  | failed before _ hb _ hm hse =>
    subst hm
    exact absurd hse (silent hb hs)

theorem Step.heard (h : self.Step next) (sound : self.Sound) (soundNext : next.Sound)
    (kept : self.Kept) (heard : self.Heard) : next.Heard where
  told := h.told kept heard
  unheard := h.unheard sound soundNext kept heard
  replied := h.replied heard
  abandoned := h.abandoned sound heard

end Requests

namespace Session

variable {self next : Session H}

theorem initial_heard (handlers : List (String × H)) : (initial handlers).requests.Heard where
  told _ _ _ h := by cases h
  unheard _ _ _ h := by cases h
  replied _ _ _ _ h := by cases h
  abandoned _ _ _ _ h := absurd h List.not_mem_nil

theorem Reachable.heard (h : self.Reachable config) : self.requests.Heard := by
  obtain ⟨handlers, labels, hru⟩ := h
  refine Reachable.run_invariant (fun session => session.requests.Heard) ?_ ⟨handlers, [], rfl⟩
    (initial_heard handlers) hru
  intro session label next hr heard hs
  exact (step_requests hr hs).heard hr.sound (hr.step hs).sound
    hr.kept heard

end Session

end MangoProtocol
