import MangoProtocol.ProofKit.Allocation
import MangoProtocol.ProofKit.Lists
import MangoProtocol.ProofKit.Tables
import MangoProtocol.TypeScript.Session

/-! The requests of a TypeScript session: the calls of `request` with their promises, timers and
abort listeners, and the map `#pending` from the ids in flight to them. -/

namespace MangoProtocol.TypeScript

open ProofKit ProofKit.Tables

/-! ### Calls -/

/-- What rejects a request before it is registered: a `RemoteError`, or the codec's error. -/
inductive Rejection where
  | remote (error : ErrorPayload)
  | codec (message : JsString)

inductive Settlement where
  | refused (error : Rejection)
  | answered (result : JsValue)
  | failed (error : ErrorPayload)
  | timedOut (error : ErrorPayload)
  | sendFailed (error : ErrorPayload)
  | closed (error : ErrorPayload)

inductive RequestStage where
  /-- The call waits for `ready`. -/
  | waiting
  /-- The request is in flight. -/
  | registered
  | settled (settlement : Settlement)

structure RequestOptions where
  timeoutMs : Option Nat
  /-- The caller passed a signal. -/
  signal : Bool

/-- A call of `request`.  `timer` and `listener` say what is set for it. -/
structure RequestCall where
  method : JsString
  params : JsValue
  options : RequestOptions
  id : Option JsString
  stage : RequestStage
  timer : Bool
  listener : Bool

namespace RequestCall

def cleanup (self : RequestCall) : RequestCall := { self with timer := false, listener := false }

/-- A promise settles once. -/
def settle (self : RequestCall) (settlement : Settlement) : RequestCall :=
  match self.stage with
  | .settled _ => self
  | .waiting | .registered => { self with stage := .settled settlement }

theorem settle_id (settlement : Settlement) (self : RequestCall) :
    (self.settle settlement).id = self.id := by
  unfold settle
  split <;> rfl

variable {self : RequestCall} {settlement : Settlement}

theorem settle_of_unsettled (h : self.stage = .waiting ∨ self.stage = .registered) :
    self.settle settlement = { self with stage := .settled settlement } := by
  unfold settle
  rcases h with h | h <;> rw [h]

theorem settle_of_settled {earlier : Settlement} (h : self.stage = .settled earlier) :
    self.settle settlement = self := by
  unfold settle
  rw [h]

end RequestCall

/-! ### What rejects a request -/

def invalidMethodName (method : JsString) : ErrorPayload :=
  ⟨reservedErrorCodes.invalidRequest, js "Method \"" ++ method ++ js ("\" is not a valid, " ++
    "unreserved method name; expected two or more dot-separated lowercase segments outside rpc."),
    none⟩

def undefinedMethod (method : JsString) (effectiveMinor : Nat) : ErrorPayload :=
  ⟨reservedErrorCodes.invalidRequest, js "Method \"" ++ method ++
    js ("\" is defined from wire minor 1; this session negotiated minor " ++ effectiveMinor.repr ++
      "."),
    some (plainObject [("method", .string method), ("effectiveMinor", .number effectiveMinor)])⟩

/-- `#unavailable`. -/
def unavailable (method : JsString) (closure : Option SessionClosure) (id : Option JsString) :
    ErrorPayload :=
  let why := match closure with
    | none => []
    | some closure => js (" (closed with " ++ closure.code.repr) ++
        (match closure.reason with
          | none | some [] => []
          | some reason => js ": " ++ reason) ++ js ")"
  ⟨reservedErrorCodes.unavailable,
    js "Request \"" ++ method ++ js "\" cannot complete: the session is closed" ++ why ++ js ".",
    some (plainObject [("method", .string method), ("id", .option .string id),
      ("closeCode", .option .number (closure.map SessionClosure.code))])⟩

def requestTooLarge (method : JsString) (bytes limit : Nat) : ErrorPayload :=
  ⟨reservedErrorCodes.frameTooLarge, js "Request \"" ++ method ++ js ("\" encodes to " ++
    bytes.repr ++ " bytes; the session limit is " ++ limit.repr ++ " bytes."),
    some (plainObject [("bytes", .number bytes), ("limit", .number limit)])⟩

def requestTimedOut (method : JsString) (timeoutMs : Nat) : ErrorPayload :=
  ⟨js "TIMEOUT", js "Request \"" ++ method ++ js ("\" timed out after " ++ timeoutMs.repr ++ "ms."),
    some (plainObject [("method", .string method), ("timeoutMs", .number timeoutMs)])⟩

/-- A `RemoteError` that the port threw is handed on as it is. -/
def sendFailure (method : JsString) : SendThrown → ErrorPayload
  | .remote error => error
  | .other words =>
    ⟨reservedErrorCodes.unavailable,
      js "Request \"" ++ method ++ js "\" could not be sent: " ++ words,
      some (plainObject [("method", .string method)])⟩

/-! ### The pending map -/

structure Requests where
  sequence : Nat := 0
  calls : List RequestCall := []
  pending : AList fun _ : JsString => Nat := ∅

/-- The id of the request with a number. -/
def requestId (requestIdPrefix : JsString) (number : Nat) : JsString :=
  requestIdPrefix ++ js "-" ++ js number.repr

theorem requestId_injective (requestIdPrefix : JsString) :
    Function.Injective (requestId requestIdPrefix) := by
  intro first second h
  have hr : first.repr = second.repr :=
    JsString.js_injective (List.append_cancel_left h)
  have hd := congrArg (fun text : String => Nat.ofDigitChars 10 text.toList 0) hr
  simpa using hd

namespace Requests

def update (self : Requests) (index : Nat) (change : RequestCall → RequestCall) : Requests :=
  { self with calls := self.calls.modify index change }

def release (self : Requests) (id : JsString) (index : Nat) : Requests :=
  update { self with pending := self.pending.erase id } index RequestCall.cleanup

def settleAt (self : Requests) (index : Nat) (settlement : Settlement) : Requests :=
  self.update index (·.settle settlement)

def settle (self : Requests) (id : JsString) (settlement : Settlement) : Requests :=
  match self.pending.lookup id with
  | none => self
  | some index => (self.release id index).settleAt index settlement

/-- The entry of a call that takes the next number, with its listener and its timer. -/
def register (self : Requests) (requestIdPrefix : JsString) (index : Nat) : Requests :=
  let id := requestId requestIdPrefix (self.sequence + 1)
  update { self with
      sequence := self.sequence + 1
      pending := self.pending.insert id index } index fun call =>
    { call with
      id := some id
      stage := .registered
      timer := call.options.timeoutMs.isSome
      listener := call.options.signal }

/-- The loop of `#teardown` over the pending map, which it then clears. -/
def flush (self : Requests) (closure : Option SessionClosure) : Requests :=
  { self with
    calls := self.calls.mapIdx fun index call =>
      match self.pending.entries.find? (·.2 == index) with
      | none => call
      | some entry => call.cleanup.settle (.closed (unavailable call.method closure (some entry.1)))
    pending := ∅ }

/-! ### The map and the promises -/

/-- The call has taken the id. -/
def Owns (self : Requests) (index : Nat) (id : JsString) : Prop :=
  ∃ call, self.calls[index]? = some call ∧ call.id = some id

/-- The pending map holds the calls in flight under their ids, and nothing else has a timer or a
listener. -/
structure Kept (requestIdPrefix : JsString) (requests : Requests) : Prop where
  pending : ∀ id index, requests.pending.lookup id = some index ↔
    ∃ call, requests.calls[index]? = some call ∧ call.id = some id ∧ call.stage = .registered
  allocated : Allocated (requestId requestIdPrefix) requests.sequence requests.Owns
  named : ∀ (index : Nat) (call : RequestCall), requests.calls[index]? = some call →
    call.stage = .registered → ∃ id, call.id = some id
  idle : ∀ (index : Nat) (call : RequestCall), requests.calls[index]? = some call →
    call.stage ≠ .registered → call.timer = false ∧ call.listener = false

variable {requestIdPrefix id : JsString} {self next : Requests} {index : Nat} {call : RequestCall}

variable {change : RequestCall → RequestCall} {position : Nat}

theorem getElem?_update {found : RequestCall}
    (h : (self.update index change).calls[position]? = some found) :
    (position = index ∧ ∃ earlier, self.calls[index]? = some earlier ∧ found = change earlier) ∨
      position ≠ index ∧ self.calls[position]? = some found :=
  getElem?_modify_eq_some h

theorem update_same (h : self.calls[index]? = some call) :
    (self.update index change).calls[index]? = some (change call) := by
  rw [update, List.getElem?_modify, h]
  simp

theorem update_other (hne : position ≠ index) :
    (self.update index change).calls[position]? = self.calls[position]? := by
  rw [update, List.getElem?_modify]
  simp [Ne.symm hne]

theorem owns_update (hid : ∀ call, (change call).id = call.id)
    (h : (self.update index change).Owns position id) : self.Owns position id := by
  obtain ⟨found, hfo, hf⟩ := h
  grind [getElem?_update, Owns]

theorem owns_finish {settlement : Settlement} {other : JsString}
    (h : ((self.release id index).settleAt index settlement).Owns position other) :
    self.Owns position other := by
  have hr : (self.release id index).Owns position other :=
    owns_update (RequestCall.settle_id settlement) h
  have hid : ∀ call : RequestCall, call.cleanup.id = call.id := fun _ => rfl
  have he : Owns { self with pending := self.pending.erase id } position other :=
    owns_update hid hr
  exact he

namespace Kept

theorem update {change : RequestCall → RequestCall} (h : self.Kept requestIdPrefix)
    (hid : ∀ call, (change call).id = call.id)
    (hs : ∀ call, self.calls[index]? = some call →
      ((change call).stage = .registered ↔ call.stage = .registered))
    (hi : ∀ call, self.calls[index]? = some call → call.timer = false ∧ call.listener = false →
      (change call).timer = false ∧ (change call).listener = false) :
    (self.update index change).Kept requestIdPrefix := by
  obtain ⟨hp, ha, hn, hidl⟩ := h
  have hsa {call : RequestCall} (hc : self.calls[index]? = some call) :
      (self.update index change).calls[index]? = some (change call) := update_same hc
  have ho {position : Nat} (hne : position ≠ index) :
      (self.update index change).calls[position]? = self.calls[position]? := update_other hne
  have he : (self.update index change).pending = self.pending := rfl
  refine ⟨?_, ha.mono (owns_update hid), ?_, ?_⟩ <;> grind [getElem?_update]

theorem entry (h : self.Kept requestIdPrefix) (hl : self.pending.lookup id = some index) :
    ∃ call, self.calls[index]? = some call ∧ call.id = some id ∧ call.stage = .registered :=
  (h.pending id index).mp hl

theorem finish (h : self.Kept requestIdPrefix) (hl : self.pending.lookup id = some index)
    (settlement : Settlement) :
    ((self.release id index).settleAt index settlement).Kept requestIdPrefix := by
  obtain ⟨call, hc, hid, hr⟩ := h.entry hl
  have hs : ((self.release id index).settleAt index settlement).calls[index]? =
      some (call.cleanup.settle settlement) := update_same (update_same hc)
  have ho : ∀ {position}, position ≠ index →
      ((self.release id index).settleAt index settlement).calls[position]? =
        self.calls[position]? := fun hne => (update_other hne).trans (update_other hne)
  have he (other : JsString) :
      ((self.release id index).settleAt index settlement).pending.lookup other =
        if other = id then none else self.pending.lookup other := lookup_erase_eq ..
  obtain ⟨hp, ha, hn, hi⟩ := h
  refine ⟨?_, ha.mono owns_finish, ?_, ?_⟩ <;>
    grind [RequestCall.settle, RequestCall.cleanup]

theorem drop (h : self.Kept requestIdPrefix) (ho : self.Owns index id) (settlement : Settlement)
    (hpa : ∀ call, self.calls[index]? = some call → call.stage ≠ .waiting) :
    ((self.release id index).settleAt index settlement).Kept requestIdPrefix := by
  obtain ⟨call, hc, hid⟩ := ho
  cases hs : call.stage with
  | waiting => exact absurd hs (hpa call hc)
  | registered =>
    exact h.finish ((h.pending id index).mpr ⟨call, hc, hid, hs⟩) settlement
  | settled earlier =>
    -- Nothing is left to do: the entry is gone and the call is clean.
    have hn : self.pending.lookup id = none := by
      by_contra hso
      obtain ⟨position, hp⟩ := Option.ne_none_iff_exists'.mp hso
      obtain ⟨found, hf, hfo, hre⟩ := h.entry hp
      cases h.allocated.owner index position id ⟨call, hc, hid⟩ ⟨found, hf, hfo⟩
      grind
    have he : Kept requestIdPrefix { self with pending := self.pending.erase id } := by
      refine ⟨fun other position => ?_, h.allocated, h.named, h.idle⟩
      have hpe := h.pending other position
      grind [lookup_erase_eq]
    have hr : (self.release id index).Kept requestIdPrefix :=
      he.update (fun _ => rfl) (fun _ _ => Iff.rfl) fun _ _ _ => ⟨rfl, rfl⟩
    have hsa : ∀ found, (self.release id index).calls[index]? = some found →
        found.settle settlement = found := by
      intro found hf
      cases (update_same hc).symm.trans hf
      exact RequestCall.settle_of_settled hs
    refine hr.update (RequestCall.settle_id settlement) ?_ ?_ <;> grind

theorem refuse (h : self.Kept requestIdPrefix) (hc : self.calls[index]? = some call)
    (hw : call.stage = .waiting) (settlement : Settlement) :
    (self.settleAt index settlement).Kept requestIdPrefix := by
  refine h.update (RequestCall.settle_id settlement) ?_ ?_ <;> grind [RequestCall.settle]

theorem skip (h : self.Kept requestIdPrefix) :
    Kept requestIdPrefix { self with sequence := self.sequence + 1 } where
  pending := h.pending
  allocated := h.allocated.skip
  named := h.named
  idle := h.idle

theorem register (h : self.Kept requestIdPrefix) (hc : self.calls[index]? = some call)
    (hw : call.stage = .waiting) :
    (self.register requestIdPrefix index).Kept requestIdPrefix := by
  have hfr {position : Nat} {found : RequestCall} (hf : self.calls[position]? = some found)
      (hid : found.id = some (requestId requestIdPrefix (self.sequence + 1))) : False :=
    h.allocated.fresh (requestId_injective requestIdPrefix) position ⟨found, hf, hid⟩
  have ho : ∀ {position id}, (self.register requestIdPrefix index).Owns position id →
      position = index ∧ id = requestId requestIdPrefix (self.sequence + 1) ∨
        self.Owns position id := by
    rintro position id ⟨found, hf, hfo⟩
    rcases getElem?_update hf with ⟨rfl, earlier, -, rfl⟩ | ⟨-, hf⟩
    · exact .inl ⟨rfl, (Option.some.inj hfo).symm⟩
    · exact .inr ⟨found, hf, hfo⟩
  have hs : (self.register requestIdPrefix index).calls[index]? = some _ := update_same hc
  have hot {position : Nat} (hne : position ≠ index) :
      (self.register requestIdPrefix index).calls[position]? = self.calls[position]? :=
    update_other hne
  have he (other : JsString) :
      (self.register requestIdPrefix index).pending.lookup other =
        if other = requestId requestIdPrefix (self.sequence + 1) then some index
        else self.pending.lookup other := lookup_insert_eq ..
  obtain ⟨hp, ha, hn, hi⟩ := h
  refine ⟨?_, ha.assign (requestId_injective requestIdPrefix) ho, ?_, ?_⟩ <;> grind

theorem append (h : self.Kept requestIdPrefix) (hid : call.id = none)
    (hs : call.stage ≠ .registered) (hi : call.timer = false ∧ call.listener = false) :
    Kept requestIdPrefix { self with calls := self.calls ++ [call] } := by
  obtain ⟨hp, ha, hn, hidl⟩ := h
  refine ⟨?_, ha.mono ?_, ?_, ?_⟩ <;> grind [Owns]

theorem find_registered (h : self.Kept requestIdPrefix) (hc : self.calls[index]? = some call)
    (hid : call.id = some id) (hr : call.stage = .registered) :
    self.pending.entries.find? (·.2 == index) = some ⟨id, index⟩ := by
  have hl := (h.pending id index).mpr ⟨call, hc, hid, hr⟩
  have hm : ⟨id, index⟩ ∈ self.pending.entries := AList.mem_lookup_iff.mp hl
  cases hf : self.pending.entries.find? (·.2 == index) with
  | none => simpa using List.find?_eq_none.mp hf _ hm
  | some entry =>
    obtain ⟨other, position⟩ := entry
    have he : self.pending.lookup other = some position :=
      AList.mem_lookup_iff.mpr (List.mem_of_find?_eq_some hf)
    have hfo := h.entry he
    grind

theorem find_other (h : self.Kept requestIdPrefix) (hc : self.calls[index]? = some call)
    (hs : call.stage ≠ .registered) :
    self.pending.entries.find? (·.2 == index) = none := by
  cases hf : self.pending.entries.find? (·.2 == index) with
  | none => rfl
  | some entry =>
    have he : self.pending.lookup entry.1 = some entry.2 :=
      AList.mem_lookup_iff.mpr (List.mem_of_find?_eq_some hf)
    have hfo := h.entry he
    grind

theorem flush_registered (h : self.Kept requestIdPrefix) (hc : self.calls[index]? = some call)
    (hid : call.id = some id) (hr : call.stage = .registered)
    (closure : Option SessionClosure) :
    (self.flush closure).calls[index]? = some { call.cleanup with
      stage := .settled (.closed (unavailable call.method closure call.id)) } := by
  rw [Requests.flush, List.getElem?_mapIdx, hc]
  have hcl : call.cleanup.stage = .registered := hr
  simp only [Option.map_some, h.find_registered hc hid hr, ← hid]
  rw [RequestCall.settle_of_unsettled (.inr hcl)]

theorem flush_other (h : self.Kept requestIdPrefix) (hc : self.calls[index]? = some call)
    (hs : call.stage ≠ .registered) (closure : Option SessionClosure) :
    (self.flush closure).calls[index]? = some call := by
  rw [Requests.flush, List.getElem?_mapIdx, hc]
  simp only [Option.map_some, h.find_other hc hs]

variable {closure : Option SessionClosure}

theorem getElem?_flush (h : self.Kept requestIdPrefix)
    (hc : (self.flush closure).calls[index]? = some call) :
    self.calls[index]? = some call ∧ call.stage ≠ .registered ∨
      ∃ earlier, self.calls[index]? = some earlier ∧ earlier.stage = .registered ∧
        call = { earlier.cleanup with
          stage := .settled (.closed (unavailable earlier.method closure earlier.id)) } := by
  obtain ⟨earlier, hea⟩ : ∃ earlier, self.calls[index]? = some earlier := by
    rw [Requests.flush, List.getElem?_mapIdx] at hc
    grind
  by_cases hs : earlier.stage = .registered
  · obtain ⟨id, hid⟩ := h.named index earlier hea hs
    have hf := h.flush_registered hea hid hs closure
    grind
  · have hf := h.flush_other hea hs closure
    grind

theorem flush (h : self.Kept requestIdPrefix) (closure : Option SessionClosure) :
    (self.flush closure).Kept requestIdPrefix := by
  obtain ⟨hp, ha, hn, hid⟩ := id h
  have hf {index : Nat} {call : RequestCall}
      (hc : (self.flush closure).calls[index]? = some call) := h.getElem?_flush hc
  have he (id : JsString) : (self.flush closure).pending.lookup id = none := rfl
  refine ⟨?_, ha.mono ?_, ?_, ?_⟩ <;> grind [Owns, RequestCall.cleanup]

theorem settle (h : self.Kept requestIdPrefix) (id : JsString) (settlement : Settlement) :
    (self.settle id settlement).Kept requestIdPrefix := by
  unfold Requests.settle
  split
  next => exact h
  next hl => exact h.finish hl settlement

end Kept

theorem settle_same (hl : self.pending.lookup id = some index)
    (hc : self.calls[index]? = some call) (settlement : Settlement) :
    (self.settle id settlement).calls[index]? = some (call.cleanup.settle settlement) := by
  rw [settle, hl]
  exact update_same (update_same hc)

theorem settle_other (hl : self.pending.lookup id ≠ some position) (settlement : Settlement) :
    (self.settle id settlement).calls[position]? = self.calls[position]? := by
  unfold settle
  split
  next => rfl
  next index hi => grind [settleAt, release, update_other]

theorem flush_update {closure : Option SessionClosure}
    (hn : self.pending.entries.find? (·.2 == index) = none) :
    (self.update index change).flush closure = (self.flush closure).update index change := by
  have hc : ((self.update index change).flush closure).calls =
      ((self.flush closure).update index change).calls := by
    apply List.ext_getElem?
    intro position
    simp only [flush, update, List.getElem?_mapIdx, List.getElem?_modify]
    by_cases hp : index = position
    · subst hp
      cases self.calls[index]? <;> simp [hn]
    · cases self.calls[position]? <;> simp [hp]
  exact congrArg (fun calls => ({ sequence := self.sequence, calls, pending := ∅ } : Requests))
    hc

end Requests

end MangoProtocol.TypeScript
