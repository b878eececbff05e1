import MangoProtocol.ProofKit.Lists
import MangoProtocol.ProofKit.Machine

/-! Local sockets: any number of calls of `listen_ipc` on one path, each with the listener that it
returns and the `close` of it, with their steps on the file system interleaved.  A comparison of
inode numbers with the unlink that follows it is one step.  A new socket may get any number that no
socket has which still has a name or an open handle.  Each call stages in a directory of its own. -/

namespace MangoProtocol

open ProofKit

/-! ### Files and calls -/

/-- What sits at the path: something that is no socket, or a socket, of one of the calls or left by
an earlier process. -/
inductive AddressFile where
  | other
  | socket (owner : Option Nat)
  deriving DecidableEq, Repr

structure AddressEntry where
  inode : Nat
  file : AddressFile
  deriving DecidableEq, Repr

def AddressEntry.owner (self : AddressEntry) : Option Nat :=
  match self.file with
  | .other => none
  | .socket owner => owner

inductive IpcStage where
  | starting
  /-- The socket at the path has this inode number; `probe` is next. -/
  | probing (inode : Nat)
  /-- The probe said stale; `remove_if_still` is next. -/
  | removing (inode : Nat)
  /-- The path is free; `stage` is next. -/
  | staging
  /-- Bound and restricted, with the inode number read; `publish` is next. -/
  | staged
  /-- Published; `discard` is next. -/
  | published
  | listening
  /-- `close` dropped the listener, which recorded this inode number; the comparison is next. -/
  | closing (inode : Nat)
  /-- `publish` found the name taken, and the listener was dropped; `discard` is next. -/
  | refused
  | over
  deriving DecidableEq, Repr

structure IpcCall where
  stage : IpcStage
  inode : Option Nat
  stagingName : Bool
  deriving DecidableEq, Repr

namespace IpcCall

def new : IpcCall := ⟨.starting, none, false⟩

/-- The socket has an open listener. -/
def isOpen (self : IpcCall) : Bool :=
  match self.stage with
  | .staged | .published | .listening => true
  | _ => false

/-- The listener is open and was published. -/
def serving (self : IpcCall) : Bool :=
  match self.stage with
  | .published | .listening => true
  | _ => false

/-- The socket has not been bound yet. -/
def unbound (self : IpcCall) : Bool :=
  match self.stage with
  | .starting | .probing _ | .removing _ | .staging => true
  | _ => false

def aims (self : IpcCall) : Option Nat :=
  match self.stage with
  | .removing inode | .closing inode => some inode
  | _ => none

def remembers (self : IpcCall) : Option Nat :=
  match self.stage with
  | .probing inode => some inode
  | _ => self.aims

end IpcCall

/-! ### Steps -/

structure IpcAddress where
  entry : Option AddressEntry
  calls : List IpcCall
  deriving DecidableEq, Repr

inductive IpcLabel where
  | listen
  /-- The `symlink_metadata` of `remove_stale_socket`. -/
  | inspect (index : Nat)
  | probe (index : Nat) (stale : Bool)
  | removeIfStill (index : Nat)
  | bind (index inode : Nat)
  | publish (index : Nat)
  | discard (index : Nat)
  /-- The `drop` of the listener in `close`. -/
  | drop (index : Nat)
  /-- The comparison and the unlink in `close`. -/
  | removeOwn (index : Nat)
  /-- The process is killed, the future or the listener is dropped, or another step fails. -/
  | abandon (index : Nat)
  deriving DecidableEq, Repr

namespace IpcAddress

/-- Before the first call: nothing at the path, or a file with its inode number, a socket or not. -/
def start (found : Option (Nat × Bool)) : IpcAddress :=
  ⟨found.map fun (inode, isSocket) => ⟨inode, if isSocket then .socket none else .other⟩, []⟩

def live (self : IpcAddress) : Bool :=
  self.entry.any fun entry => entry.owner.any fun owner => self.calls[owner]?.any IpcCall.isOpen

/-- A file has this inode number and still has a name or an open handle. -/
def inUse (self : IpcAddress) (inode : Nat) : Bool :=
  self.entry.any (·.inode == inode) ||
    self.calls.any fun call => call.inode == some inode && (call.isOpen || call.stagingName)

def setCall (self : IpcAddress) (index : Nat) (call : IpcCall) : IpcAddress :=
  { self with calls := self.calls.set index call }

def unlinkIf (self : IpcAddress) (inode : Nat) : IpcAddress :=
  if self.entry.any (·.inode == inode) then { self with entry := none } else self

def inspect (self : IpcAddress) (index : Nat) (call : IpcCall) : IpcAddress :=
  self.setCall index { call with stage :=
    match self.entry with
    | none => .staging
    | some entry =>
      match entry.file with
      | .other => .over
      | .socket _ => .probing entry.inode }

/-- A link refuses a name that exists. -/
def publish (self : IpcAddress) (index inode : Nat) (call : IpcCall) : IpcAddress :=
  match self.entry with
  | none => { self with entry := some ⟨inode, .socket (some index)⟩ }.setCall index
      { call with stage := .published }
  | some _ => self.setCall index { call with stage := .refused }

def callStep (self : IpcAddress) (call : IpcCall) : IpcLabel → Option IpcAddress
  | .listen => none
  | .inspect index => if call.stage = .starting then some (self.inspect index call) else none
  | .probe index stale =>
    match call.stage with
    | .probing inode =>
      if stale then
        if self.live then none
        else some (self.setCall index { call with stage := .removing inode })
      else some (self.setCall index { call with stage := .over })
    | _ => none
  | .removeIfStill index =>
    match call.stage with
    | .removing inode =>
      some ((self.unlinkIf inode).setCall index { call with stage := .staging })
    | _ => none
  | .bind index inode =>
    if call.stage = .staging ∧ self.inUse inode = false then
      some (self.setCall index ⟨.staged, some inode, true⟩)
    else none
  | .publish index =>
    if call.stage = .staged then call.inode.map fun inode => self.publish index inode call else none
  | .discard index =>
    match call.stage with
    | .published =>
      some (self.setCall index { call with stage := .listening, stagingName := false })
    | .refused => some (self.setCall index { call with stage := .over, stagingName := false })
    | _ => none
  | .drop index =>
    if call.stage = .listening then
      call.inode.map fun inode => self.setCall index { call with stage := .closing inode }
    else none
  | .removeOwn index =>
    match call.stage with
    | .closing inode => some ((self.unlinkIf inode).setCall index { call with stage := .over })
    | _ => none
  | .abandon index => some (self.setCall index { call with stage := .over })

end IpcAddress

/-- The call that takes the step. -/
def IpcLabel.index : IpcLabel → Option Nat
  | .listen => none
  | .inspect index | .probe index _ | .removeIfStill index | .bind index _ | .publish index
  | .discard index | .drop index | .removeOwn index | .abandon index => some index

namespace IpcAddress

def step (self : IpcAddress) (label : IpcLabel) : Option IpcAddress :=
  match label.index with
  | none => some { self with calls := self.calls ++ [.new] }
  | some index => self.calls[index]?.bind fun call => self.callStep call label

def removesLive (self next : IpcAddress) : Bool := self.live && next.entry != self.entry

/-- A new socket does not get an inode number that a call still compares with. -/
def unremembered (self : IpcAddress) : IpcLabel → Bool
  | .bind _ inode => self.calls.all fun call => call.remembers != some inode
  | _ => true

end IpcAddress

/-! ### What every step keeps -/

variable {call : IpcCall} {inode : Nat}

theorem IpcCall.isOpen_of_serving (h : call.serving = true) : call.isOpen = true := by
  grind [serving, isOpen]

theorem IpcCall.closed_of_aims (h : call.aims = some inode) : call.isOpen = false := by
  grind [aims, isOpen]

structure IpcCall.Quiet (before after : IpcCall) : Prop where
  inode : after.inode = before.inode
  isOpen : after.isOpen = true → before.isOpen = true
  serving : after.isOpen = true → after.serving = before.serving
  unbound : after.unbound = true → before.unbound = true

theorem IpcCall.Quiet.closed {before after : IpcCall} (hi : after.inode = before.inode)
    (hc : after.isOpen = false) (hu : after.unbound = true → before.unbound = true) :
    before.Quiet after := by
  have hn (ho : after.isOpen = true) : False := by cases hc.symm.trans ho
  exact ⟨hi, fun ho => (hn ho).elim, fun ho => (hn ho).elim, hu⟩

namespace IpcAddress

variable {world next : IpcAddress} {index : Nat} {call after : IpcCall}

/-- The call at an index. -/
def Has (world : IpcAddress) (index : Nat) (call : IpcCall) : Prop :=
  world.calls[index]? = some call

/-- What holds as long as no number in hand is given out again. -/
structure Kept (world : IpcAddress) : Prop where
  owner {entry : AddressEntry} {index : Nat} : world.entry = some entry →
    entry.owner = some index → ∃ call, world.Has index call ∧ call.inode = some entry.inode ∧
      (call.isOpen = true → call.serving = true)
  unbound {index : Nat} {call : IpcCall} : world.Has index call → call.unbound = true →
    call.inode = none
  /-- An open listener that was published still has the address. -/
  serving {index : Nat} {call : IpcCall} : world.Has index call → call.serving = true →
    ∃ entry, world.entry = some entry ∧ entry.owner = some index
  entry {entry : AddressEntry} {index : Nat} {call : IpcCall} : world.entry = some entry →
    world.Has index call → call.isOpen = true → call.inode = some entry.inode →
    entry.owner = some index
  distinct {index other : Nat} {call call' : IpcCall} : world.Has index call →
    world.Has other call' → call.isOpen = true → call'.isOpen = true →
    call.inode = call'.inode → index = other
  probing {index other inode : Nat} {call call' : IpcCall} : world.Has index call →
    call.stage = .probing inode → world.Has other call' → call'.isOpen = true →
    call'.inode = some inode → call'.serving = true
  aims {index other inode : Nat} {call call' : IpcCall} : world.Has index call →
    call.aims = some inode → world.Has other call' → call'.inode = some inode →
    call'.isOpen = false

variable {label : IpcLabel} {found : IpcCall} {inode other : Nat} {entry : AddressEntry}

theorem get_setCall (h : (world.setCall index after).Has other found) :
    other = index ∧ found = after ∨ other ≠ index ∧ world.Has other found := by
  grind [Has, setCall]

theorem has_setCall (h : world.Has index call) : (world.setCall index after).Has index after :=
  List.getElem?_set_self (List.getElem?_eq_some_iff.mp h).1

theorem has_setCall_ne (hne : other ≠ index) (h : world.Has other found) :
    (world.setCall index after).Has other found :=
  (List.getElem?_set_ne (Ne.symm hne)).trans h

theorem Kept.update (h : world.Kept) (hc : world.Has index call) (hq : call.Quiet after)
    (hp : ∀ inode, after.stage = .probing inode → ∀ other call', world.Has other call' →
      call'.isOpen = true → call'.inode = some inode → call'.serving = true)
    (ha : ∀ inode, after.aims = some inode → ∀ other call', other ≠ index →
      world.Has other call' → call'.inode = some inode → call'.isOpen = false) :
    (world.setCall index after).Kept := by
  obtain ⟨how, hu, hs, he, hd, hp', ha'⟩ := h
  obtain ⟨hi, hop, hse, hb⟩ := hq
  have hcl {inode : Nat} : after.aims = some inode → after.isOpen = false :=
    IpcCall.closed_of_aims
  have ho : after.serving = true → after.isOpen = true := IpcCall.isOpen_of_serving
  have hen : (world.setCall index after).entry = world.entry := rfl
  have hun {found : IpcCall} (h : world.Has index found) : found = call :=
    Option.some.inj (h.symm.trans hc)
  constructor <;> grind [get_setCall, has_setCall, has_setCall_ne]

theorem Kept.forget (h : world.Kept) (hc : world.Has index call) (hq : call.Quiet after)
    (ho : after.remembers = none) : (world.setCall index after).Kept := by
  refine h.update hc hq ?_ ?_ <;> grind [IpcCall.remembers, IpcCall.aims]

theorem Kept.dead (h : world.Kept) (hc : world.Has index call) (ha : call.aims = some inode)
    (he : world.entry = some entry) (hi : entry.inode = inode) : world.live = false := by
  rw [live, he, Option.any_some]
  cases how : entry.owner with
  | none => rfl
  | some owner =>
    obtain ⟨call', ho, hs, -⟩ := h.owner he how
    have hcl := h.aims hc ha ho
    grind [Has]

theorem Kept.live_of_serving (h : world.Kept) (hc : world.Has index call)
    (hs : call.serving = true) : world.live = true := by
  obtain ⟨entry, he, ho⟩ := h.serving hc hs
  have hop := IpcCall.isOpen_of_serving hs
  grind [live, Has]

theorem Kept.unlinkIf (h : world.Kept) (hc : world.Has index call)
    (ha : call.aims = some inode) : (world.unlinkIf inode).Kept := by
  unfold IpcAddress.unlinkIf
  split
  · rename_i hso
    obtain ⟨entry, he, hi⟩ := (Option.any_eq_true _ _).mp hso
    have hd := h.dead hc ha he (eq_of_beq hi)
    refine { h with owner := nofun, entry := nofun, serving := fun ho hs => ?_ }
    cases hd.symm.trans (h.live_of_serving ho hs)
  · exact h

theorem not_inUse_entry (h : world.inUse inode = false) (he : world.entry = some entry) :
    entry.inode ≠ inode := by
  grind [inUse]

theorem not_inUse_call (h : world.inUse inode = false) (hc : world.Has index call)
    (ho : call.isOpen = true) : call.inode ≠ some inode := by
  have hm := List.mem_of_getElem? hc
  grind [inUse]

theorem Kept.bind (h : world.Kept) (hc : world.Has index call) (hs : call.stage = .staging)
    (hf : world.inUse inode = false)
    (hun : ∀ other call', world.Has other call' → call'.remembers ≠ some inode) :
    (world.setCall index ⟨.staged, some inode, true⟩).Kept := by
  obtain ⟨ho, hu, hse, he, hd, hp, ha⟩ := h
  have hn := hu hc (by rw [IpcCall.unbound, hs])
  have hen : (world.setCall index ⟨.staged, some inode, true⟩).entry = world.entry := rfl
  have huni {found : IpcCall} (h : world.Has index found) : found = call :=
    Option.some.inj (h.symm.trans hc)
  constructor <;>
    grind [get_setCall, has_setCall_ne, not_inUse_call, not_inUse_entry, IpcCall.remembers,
    IpcCall.aims, IpcCall.unbound, IpcCall.serving, IpcCall.isOpen]

theorem Kept.publish (h : world.Kept) (hc : world.Has index call) (hs : call.stage = .staged)
    (hi : call.inode = some inode) (hf : world.entry = none) :
    ({ world with entry := some ⟨inode, .socket (some index)⟩ }.setCall index
      { call with stage := .published }).Kept := by
  obtain ⟨ho, hu, hse, he, hd, hp, ha⟩ := h
  have hop : call.isOpen = true := by rw [IpcCall.isOpen, hs]
  have hg {other : Nat} {found : IpcCall}
      (h : ({ world with entry := some ⟨inode, .socket (some index)⟩ }.setCall index
        { call with stage := .published }).Has other found) :
      other = index ∧ found = { call with stage := .published } ∨
        other ≠ index ∧ world.Has other found := get_setCall h
  constructor
  case owner =>
    intro entry owner he ho
    cases he
    cases ho
    exact ⟨_, has_setCall hc, hi, fun _ => rfl⟩
  all_goals grind [setCall, IpcCall.aims, IpcCall.unbound, IpcCall.serving, AddressEntry.owner]

theorem get_listen (h : { world with calls := world.calls ++ [IpcCall.new] }.Has other found) :
    found = .new ∨ world.Has other found := by
  rcases getElem?_concat h with hold | ⟨-, hn⟩
  · exact .inr hold
  · exact .inl hn

theorem Kept.listen (h : world.Kept) :
    { world with calls := world.calls ++ [IpcCall.new] }.Kept := by
  obtain ⟨ho, hu, hs, he, hd, hp, ha⟩ := h
  have hl {index : Nat} {call : IpcCall} (h : world.Has index call) :
      { world with calls := world.calls ++ [IpcCall.new] }.Has index call := by grind [Has]
  constructor <;> grind [get_listen, IpcCall.new, IpcCall.aims, IpcCall.unbound, IpcCall.serving,
    IpcCall.isOpen]

theorem Kept.inspect (h : world.Kept) (hc : world.Has index call)
    (hst : call.stage = .starting) : (world.inspect index call).Kept := by
  have hu : call.unbound = true := by rw [IpcCall.unbound, hst]
  unfold IpcAddress.inspect
  split
  · exact h.update hc (.closed rfl rfl fun _ => hu) nofun nofun
  · rename_i entry he
    split
    · exact h.update hc (.closed rfl rfl fun _ => hu) nofun nofun
    · refine h.update hc (.closed rfl rfl fun _ => hu) ?_ nofun
      rintro inode hp other call' ho hop hi
      cases hp
      -- The socket at the path is the one with this number, and it was published.
      have how := h.entry he ho hop hi
      obtain ⟨found, hf, -, hs⟩ := h.owner he how
      cases ho.symm.trans hf
      exact hs hop

theorem Kept.stale (h : world.Kept) (hc : world.Has index call)
    (hs : call.stage = .probing inode) (hd : world.live = false) :
    (world.setCall index { call with stage := .removing inode }).Kept := by
  have hu : call.unbound = true := by rw [IpcCall.unbound, hs]
  refine h.update hc (.closed rfl rfl fun _ => hu) nofun ?_
  rintro number ha other call' - ho hi
  cases ha
  rw [Bool.eq_false_iff]
  intro hop
  have hse := h.probing hc hs ho hop hi
  cases hd.symm.trans (h.live_of_serving ho hse)

theorem Kept.compared (h : world.Kept) (hc : world.Has index call)
    (ha : call.aims = some inode) (hq : call.Quiet after) (ho : after.remembers = none) :
    ((world.unlinkIf inode).setCall index after).Kept := by
  have ht : (world.unlinkIf inode).Has index call := by
    unfold IpcAddress.unlinkIf
    split <;> exact hc
  exact (h.unlinkIf hc ha).forget ht hq ho

theorem Kept.drop (h : world.Kept) (hc : world.Has index call) (hs : call.stage = .listening)
    (hi : call.inode = some inode) :
    (world.setCall index { call with stage := .closing inode }).Kept := by
  refine h.update hc (.closed rfl rfl nofun) nofun ?_
  rintro number ha other call' hne ho hsa
  cases ha
  rw [Bool.eq_false_iff]
  intro hop
  have hl : call.isOpen = true := by rw [IpcCall.isOpen, hs]
  exact hne (h.distinct ho hc hop hl (hsa.trans hi.symm))

/-! ### Whole runs -/

/-- What one step can do. -/
inductive Move (world : IpcAddress) : IpcLabel → IpcAddress → Prop
  | listen : Move world .listen { world with calls := world.calls ++ [IpcCall.new] }
  | inspect (index : Nat) (call : IpcCall) (hcall : world.Has index call)
    (hstage : call.stage = .starting) : Move world (.inspect index) (world.inspect index call)
  | stale (index inode : Nat) (call : IpcCall) (hcall : world.Has index call)
    (hstage : call.stage = .probing inode) (hdead : world.live = false) :
    Move world (.probe index true) (world.setCall index { call with stage := .removing inode })
  | compare (label : IpcLabel) (index inode : Nat) (call after : IpcCall)
    (hcall : world.Has index call) (haim : call.aims = some inode) (hquiet : call.Quiet after)
    (hover : after.remembers = none) :
    Move world label ((world.unlinkIf inode).setCall index after)
  | bind (index inode : Nat) (call : IpcCall) (hcall : world.Has index call)
    (hstage : call.stage = .staging) (hfree : world.inUse inode = false) :
    Move world (.bind index inode) (world.setCall index ⟨.staged, some inode, true⟩)
  | publish (index inode : Nat) (call : IpcCall) (hcall : world.Has index call)
    (hstage : call.stage = .staged) (hinode : call.inode = some inode)
    (hfree : world.entry = none) :
    Move world (.publish index) ({ world with entry := some ⟨inode, .socket (some index)⟩ }.setCall
      index { call with stage := .published })
  | drop (index inode : Nat) (call : IpcCall) (hcall : world.Has index call)
    (hstage : call.stage = .listening) (hinode : call.inode = some inode) :
    Move world (.drop index) (world.setCall index { call with stage := .closing inode })
  | quiet (label : IpcLabel) (index : Nat) (call after : IpcCall) (hcall : world.Has index call)
    (hquiet : call.Quiet after) (hover : after.remembers = none) :
    Move world label (world.setCall index after)

theorem callStep_move (hi : label.index = some index) (hc : world.Has index call)
    (h : world.callStep call label = some next) : world.Move label next := by
  cases label with
  | listen => cases hi
  | publish =>
    cases hi
    obtain ⟨hs, h⟩ := Option.ite_none_right_eq_some.mp h
    obtain ⟨inode, hino, rfl⟩ := Option.map_eq_some_iff.mp h
    unfold IpcAddress.publish
    split
    · exact .publish index inode call hc hs hino ‹_›
    · exact .quiet _ index call _ hc (.closed rfl rfl nofun) rfl
  | drop =>
    cases hi
    obtain ⟨hs, h⟩ := Option.ite_none_right_eq_some.mp h
    obtain ⟨inode, hino, rfl⟩ := Option.map_eq_some_iff.mp h
    exact .drop index inode call hc hs hino
  | _ =>
    cases hi
    simp only [callStep] at h
    grind [Move.inspect, Move.stale, Move.compare, Move.bind, Move.quiet, IpcCall.Quiet,
      IpcCall.isOpen, IpcCall.serving, IpcCall.unbound, IpcCall.remembers, IpcCall.aims]

theorem step_move (h : world.step label = some next) : world.Move label next := by
  unfold step at h
  split at h
  · rename_i hi
    cases h
    cases label with
    | listen => exact .listen
    | _ => cases hi
  · rename_i index hi
    obtain ⟨call, hc, h⟩ := Option.bind_eq_some_iff.mp h
    exact callStep_move hi hc h

theorem Kept.step (h : world.Kept) (hfr : world.unremembered label = true)
    (hst : world.step label = some next) : next.Kept := by
  cases step_move hst with
  | listen => exact h.listen
  | inspect index call hc hs => exact h.inspect hc hs
  | stale index inode call hc hs hd => exact h.stale hc hs hd
  | compare _ index inode call after hc ha hq ho =>
    exact h.compared hc ha hq ho
  | bind index inode call hc hs hf =>
    refine h.bind hc hs hf fun other call' hot hr => ?_
    have hn := List.all_eq_true.mp hfr call' (List.mem_of_getElem? hot)
    rw [hr, bne_self_eq_false] at hn
    cases hn
  | publish index inode call hc hs hi hf => exact h.publish hc hs hi hf
  | drop index inode call hc hs hi => exact h.drop hc hs hi
  | quiet _ index call after hc hq ho => exact h.forget hc hq ho

theorem Kept.removesLive (h : world.Kept) (hst : world.step label = some next) :
    world.removesLive next = false := by
  have hs (he : next.entry = world.entry) : world.removesLive next = false := by
    rw [IpcAddress.removesLive, he, bne_self_eq_false, Bool.and_false]
  cases step_move hst with
  | listen | inspect | stale | bind | drop | quiet => exact hs rfl
  | publish _ _ _ _ _ _ hf =>
    rw [IpcAddress.removesLive, live, hf, Option.any_none, Bool.false_and]
  | compare _ index inode call after hc hai =>
    by_cases ha : world.entry.any (·.inode == inode) = true
    · obtain ⟨entry, he, hi⟩ := (Option.any_eq_true _ _).mp ha
      rw [IpcAddress.removesLive, h.dead hc hai he (eq_of_beq hi), Bool.false_and]
    · refine hs ?_
      rw [IpcAddress.unlinkIf, if_neg ha]
      rfl

theorem start_kept (found : Option (Nat × Bool)) : (start found).Kept := by
  have ho {entry : AddressEntry} (h : (start found).entry = some entry) :
      entry.owner = none := by
    obtain ⟨⟨inode, isSocket⟩, -, rfl⟩ := Option.map_eq_some_iff.mp h
    cases isSocket <;> rfl
  constructor <;> grind [Has, start]

/-- While no new socket gets an inode number that a call still compares with, no step takes the
socket of an open listener from the path. -/
theorem run_keeps_live {found : Option (Nat × Bool)} {labels : List IpcLabel} {label : IpcLabel}
    (hevery : Machine.Every step (fun world label => world.unremembered label = true) (start found)
      labels)
    (hrun : Machine.run step (start found) labels = some world)
    (hstep : world.step label = some next) : world.removesLive next = false := by
  have hk : world.Kept :=
    hevery.run_invariant Kept (fun _ _ _ hk hf hn => hk.step hf hn)
      (start_kept found) hrun
  exact hk.removesLive hstep

def listenLabels (index inode : Nat) : List IpcLabel :=
  [.inspect index, .bind index inode, .publish index, .discard index]

/-- The first listener is being closed when the second call removes its stale socket; the third
call, which found the path free before all this, binds and publishes. -/
def takeoverLabels (inode : Nat) : List IpcLabel :=
  [.listen, .listen, .listen, .inspect 2] ++ listenLabels 0 7 ++
    [.drop 0, .inspect 1, .probe 1 true, .removeIfStill 1, .bind 2 inode, .publish 2, .discard 2]

theorem run_keeps_live_takeover :
    ∃ world next, Machine.run step (start none) (takeoverLabels 8) = some world ∧
      world.live = true ∧ world.step (.removeOwn 0) = some next ∧
      world.removesLive next = false := by
  obtain ⟨world, next, hr, hl, hs, -⟩ : ∃ world next,
      Machine.run step (start none) (takeoverLabels 8) = some world ∧ world.live = true ∧
        world.step (.removeOwn 0) = some next ∧ next.entry.isSome = true :=
    Machine.exists_run_step (by decide)
  exact ⟨world, next, hr, hl, hs, run_keeps_live (by decide) hr hs⟩

/-- The new socket gets the inode number that the removal freed, and the `close` of the first
listener, which has not compared yet, takes it from the path. -/
theorem close_removes_live :
    ∃ world next, Machine.run step (start none) (takeoverLabels 7) = some world ∧
      world.live = true ∧ world.step (.removeOwn 0) = some next ∧
      world.removesLive next = true := by
  obtain ⟨world, hru, hl, ha⟩ : ∃ world,
      Machine.run step (start none) (takeoverLabels 7) = some world ∧ world.live = true ∧
        (world.step (.removeOwn 0)).any (fun next => world.removesLive next) = true :=
    Machine.exists_run (by decide)
  obtain ⟨next, hs, hr⟩ := (Option.any_eq_true _ _).mp ha
  exact ⟨world, next, hru, hl, hs, hr⟩

end IpcAddress

end MangoProtocol
