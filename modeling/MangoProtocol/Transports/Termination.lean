import MangoProtocol.ProofKit.Machine

/-! The termination sequence of a launched child, with its clock.  Any number of callers start it,
one escalation runs in the background and asks the reaper for signals, and the callers of
`LaunchedPeer::terminate` wait for what it settled on.  A step is one access to what they share. -/

namespace MangoProtocol

open ProofKit

structure ExitStatus where
  code : Option Int := none
  signal : Option Int := none
  deriving DecidableEq

inductive KillRequest where
  | terminate
  | kill
  deriving DecidableEq

/-- What an escalation settled on. -/
inductive TerminationOutcome where
  | pending
  | exited (status : ExitStatus)
  | gaveUp
  deriving DecidableEq

/-- The graces of a launch, in any unit of time. -/
structure Graces where
  terminate : Nat
  kill : Nat
  exit : Nat

def Graces.after (graces : Graces) : Option KillRequest → Nat
  | none => graces.terminate
  | some .terminate => graces.kill
  | some .kill => graces.exit

/-- Where the background task of `start` is. -/
inductive Escalation where
  | idle
  | spawned
  /-- Inside `settled_within`, after a request or none. -/
  | waiting (last : Option KillRequest) (deadline : Nat)
  /-- A grace ran out, and the request is sent next. -/
  | asking (request : KillRequest)
  | asked (request : KillRequest)
  /-- `escalate` returned, and its outcome is sent next. -/
  | settled (status : Option ExitStatus)
  | finished (status : Option ExitStatus)
  deriving DecidableEq

/-- Where a call of `terminate` is. -/
inductive TerminateCall where
  | starting
  | subscribing
  /-- It holds a receiver of the outcome. -/
  | checking
  /-- The escalation gave up, and the exit watch is read next. -/
  | rereading
  | returned (status : Option ExitStatus) (time : Nat)
  | cancelled
  deriving DecidableEq

/-- A launched child's termination.  `startedAt`, `recordedAt` and the times of the requests are
histories. -/
structure Termination where
  now : Nat
  started : Bool
  startedAt : Option Nat
  escalation : Escalation
  requests : List (KillRequest × Nat)
  exit : Option ExitStatus
  recordedAt : Option Nat
  outcome : TerminationOutcome
  calls : List TerminateCall

inductive TerminationLabel where
  | tick
  /-- The reaper records the exit of the child. -/
  | record (status : ExitStatus)
  | start
  | terminate
  | advance (call : Nat)
  | cancel (call : Nat)
  | escalate

namespace Termination

/-- A child that runs. -/
def new : Termination := ⟨0, false, none, .idle, [], none, none, .pending, []⟩

def unspawned : Termination :=
  ⟨0, true, none, .idle, [], some {}, some 0, .exited {}, []⟩

def start (self : Termination) : Termination :=
  if self.started then self
  else { self with started := true, startedAt := some self.now, escalation := .spawned }

def nextRequest : Option KillRequest → Option KillRequest
  | none => some .terminate
  | some .terminate => some .kill
  | some .kill => none

def publish (self : Termination) (status : Option ExitStatus) : TerminationOutcome :=
  if self.calls.any (· = .checking) then
    match status with
    | some status => .exited status
    | none => .gaveUp
  else self.outcome

def escalate (graces : Graces) (self : Termination) : Option Termination :=
  match self.escalation with
  | .idle | .finished _ => none
  | .spawned => some { self with escalation := .waiting none (self.now + graces.terminate) }
  | .waiting last deadline =>
    match self.exit with
    | some status => some { self with escalation := .settled (some status) }
    | none =>
      if deadline ≤ self.now then
        match nextRequest last with
        | some request => some { self with escalation := .asking request }
        | none => some { self with escalation := .settled none }
      else none
  | .asking request => some { self with
      requests := self.requests ++ [(request, self.now)], escalation := .asked request }
  | .asked request => some { self with
      escalation := .waiting (some request) (self.now + graces.after (some request)) }
  | .settled status => some { self with
      outcome := self.publish status, escalation := .finished status }

/-- The next step of a call of `terminate`.  One that finds the outcome pending waits for it. -/
def advance (self : Termination) (index : Nat) : Option Termination :=
  self.calls[index]?.bind fun call =>
    match call with
    | .starting => some { self.start with calls := self.calls.set index .subscribing }
    | .subscribing => some { self with calls := self.calls.set index .checking }
    | .checking =>
      match self.outcome with
      | .pending => none
      | .exited status =>
        some { self with calls := self.calls.set index (.returned (some status) self.now) }
      | .gaveUp => some { self with calls := self.calls.set index .rereading }
    | .rereading => some { self with calls := self.calls.set index (.returned self.exit self.now) }
    | .returned _ _ | .cancelled => none

def step (graces : Graces) (self : Termination) : TerminationLabel → Option Termination
  | .tick => some { self with now := self.now + 1 }
  | .record status =>
    if self.exit = none then
      some { self with exit := some status, recordedAt := some self.now }
    else none
  | .start => some self.start
  | .terminate => some { self with calls := self.calls ++ [.starting] }
  | .advance index => self.advance index
  | .cancel index =>
    self.calls[index]?.map fun _ => { self with calls := self.calls.set index .cancelled }
  | .escalate => self.escalate graces

/-! ### What has lapsed -/

structure Lapsed (child : Termination) (since grace : Nat) : Prop where
  reached : since + grace ≤ child.now
  unrecorded : ∀ time, child.recordedAt = some time → since + grace ≤ time

/-- The requests so far, the last of them, and the time from which its grace counts. -/
inductive Asked (graces : Graces) (self : Termination) : Option KillRequest → Nat → Prop
  | nothing (since : Nat) (hstart : self.startedAt = some since) (hrequests : self.requests = []) :
    Asked graces self none since
  | terminate (first since : Nat) (hstart : self.startedAt = some first)
    (hrequests : self.requests = [(.terminate, since)])
    (hlapsed : self.Lapsed first graces.terminate) (hafter : first + graces.terminate ≤ since) :
    Asked graces self (some .terminate) since
  | kill (first second since : Nat) (hstart : self.startedAt = some first)
    (hrequests : self.requests = [(.terminate, second), (.kill, since)])
    (hlapsed : self.Lapsed first graces.terminate) (hafter : first + graces.terminate ≤ second)
    (hlapsed' : self.Lapsed second graces.kill) (hafter' : second + graces.kill ≤ since) :
    Asked graces self (some .kill) since

/-- All three graces ran out. -/
def GaveUp (graces : Graces) (self : Termination) : Prop :=
  ∃ since, self.Asked graces (some .kill) since ∧ self.Lapsed since graces.exit

/-- What holds where the escalation is. -/
def Stage (graces : Graces) (self : Termination) : Escalation → Prop
  | .idle => self.requests = []
  | .spawned => ∃ since, self.Asked graces none since ∧ since ≤ self.now
  | .waiting last deadline => ∃ since, self.Asked graces last since ∧
    since + graces.after last ≤ deadline
  | .asking request => ∃ last since, nextRequest last = some request ∧
    self.Asked graces last since ∧ self.Lapsed since (graces.after last)
  | .asked request => ∃ since, self.Asked graces (some request) since ∧ since ≤ self.now
  | .settled none | .finished none => self.GaveUp graces
  | .settled (some status) | .finished (some status) => self.exit = some status ∧
    ∃ last since, self.Asked graces last since

/-- A call returned nothing: the graces had run out by then, and no exit was recorded. -/
structure CameBackEmpty (graces : Graces) (child : Termination) (time : Nat) : Prop where
  past : time ≤ child.now
  lapsed : ∃ first second third, child.startedAt = some first ∧
    child.requests = [(.terminate, second), (.kill, third)] ∧
    first + graces.terminate ≤ second ∧ second + graces.kill ≤ third ∧ third + graces.exit ≤ time
  unrecorded : ∀ recorded, child.recordedAt = some recorded → time ≤ recorded

def CallKept (graces : Graces) (self : Termination) : TerminateCall → Prop
  | .rereading => self.GaveUp graces
  | .returned (some status) _ => self.exit = some status
  | .returned none time => self.CameBackEmpty graces time
  | _ => True

structure Kept (graces : Graces) (child : Termination) : Prop where
  stage : child.Stage graces child.escalation
  calls : ∀ call ∈ child.calls, child.CallKept graces call
  exited : ∀ status, child.outcome = .exited status → child.exit = some status
  gaveUp : child.outcome = .gaveUp → child.GaveUp graces
  fresh : child.started = false → child.escalation = .idle
  recorded : child.exit = none → child.recordedAt = none

/-- Time passes, and an exit may be recorded. -/
structure Later (child next : Termination) : Prop where
  now : child.now ≤ next.now
  startedAt : next.startedAt = child.startedAt
  requests : next.requests = child.requests
  recorded : ∀ time, next.recordedAt = some time → child.recordedAt = some time ∨ child.now ≤ time
  exit : ∀ status, child.exit = some status → next.exit = some status

section Later

variable {graces : Graces} {self next : Termination}

theorem Lapsed.later {since grace : Nat} (h : self.Lapsed since grace) (hl : Later self next) :
    next.Lapsed since grace := by
  obtain ⟨hre, hu⟩ := h
  obtain ⟨hn, -, -, hr, -⟩ := hl
  constructor <;> grind

theorem Asked.later {last : Option KillRequest} {since : Nat} (h : self.Asked graces last since)
    (hl : Later self next) : next.Asked graces last since := by
  cases h with
  | nothing _ hs hr =>
    exact .nothing since (hl.startedAt.trans hs) (hl.requests.trans hr)
  | terminate first _ hs hr hla ha =>
    exact .terminate first since (hl.startedAt.trans hs) (hl.requests.trans hr)
      (hla.later hl) ha
  | kill first second _ hs hr hla ha hl' ha' =>
    exact .kill first second since (hl.startedAt.trans hs)
      (hl.requests.trans hr) (hla.later hl) ha (hl'.later hl)
      ha'

theorem GaveUp.later (h : self.GaveUp graces) (hl : Later self next) : next.GaveUp graces := by
  obtain ⟨since, ha, hla⟩ := h
  exact ⟨since, ha.later hl, hla.later hl⟩

theorem Stage.later {escalation : Escalation} (h : self.Stage graces escalation)
    (hl : Later self next) : next.Stage graces escalation := by
  have hn := hl.now
  have hex := hl.exit
  have hr := hl.requests
  have ha {last : Option KillRequest} {since : Nat} (h : self.Asked graces last since) :=
    h.later hl
  have hla {since grace : Nat} (h : self.Lapsed since grace) := h.later hl
  unfold Stage at h ⊢
  split <;> grind [GaveUp]

theorem CallKept.later {call : TerminateCall} (h : self.CallKept graces call)
    (hl : Later self next) : next.CallKept graces call := by
  cases call with
  | rereading => exact GaveUp.later h hl
  | returned status time =>
    cases status with
    | some status => exact hl.exit status h
    | none =>
      obtain ⟨hp, hla, hu⟩ : self.CameBackEmpty graces time := h
      obtain ⟨hn, hs, hre, hr, -⟩ := hl
      constructor <;> grind
  | _ => trivial

end Later

/-! ### Steps -/

section Steps

variable {graces : Graces} {self next : Termination}

theorem Kept.pass (h : self.Kept graces) (hl : Later self next)
    (hes : next.escalation = self.escalation) (ho : next.outcome = self.outcome)
    (hs : next.started = self.started)
    (hc : ∀ call ∈ next.calls, call ∈ self.calls ∨ next.CallKept graces call)
    (hr : next.exit = none → next.recordedAt = none) : next.Kept graces where
  stage := hes ▸ h.stage.later hl
  calls call hca := by
    rcases hc call hca with hold | hn
    · exact (h.calls call hold).later hl
    · exact hn
  exited status hst := hl.exit status (h.exited status (ho.symm.trans hst))
  gaveUp hg := (h.gaveUp (ho.symm.trans hg)).later hl
  fresh hf := hes.trans (h.fresh (hs.symm.trans hf))
  recorded := hr

theorem Kept.replace (h : self.Kept graces) (index : Nat) {call : TerminateCall}
    (hc : self.CallKept graces call) :
    { self with calls := self.calls.set index call }.Kept graces := by
  have hl : Later self { self with calls := self.calls.set index call } :=
    ⟨le_rfl, rfl, rfl, fun _ h => .inl h, fun _ h => h⟩
  refine h.pass hl rfl rfl rfl (fun other ho => ?_) h.recorded
  rcases List.mem_or_eq_of_mem_set ho with hold | rfl
  · exact .inl hold
  · exact .inr (hc.later hl)

theorem CallKept.requests {call : TerminateCall} (h : self.CallKept graces call) :
    (∀ other : Termination, other.exit = self.exit → other.CallKept graces call) ∨
      self.requests.length = 2 := by
  cases call with
  | rereading =>
    obtain ⟨since, ha, -⟩ := h
    cases ha with
    | kill _ _ _ _ hr => exact .inr (by rw [hr]; rfl)
  | returned status time =>
    cases status with
    | some status => exact .inl fun other hex => hex.trans h
    | none =>
      obtain ⟨_, _, _, _, hr, -⟩ := CameBackEmpty.lapsed h
      exact .inr (by rw [hr]; rfl)
  | _ => exact .inl fun _ _ => trivial

theorem GaveUp.requests (h : self.GaveUp graces) : self.requests.length = 2 := by
  obtain ⟨since, ha, -⟩ := h
  cases ha with
  | kill _ _ _ _ hr => rw [hr]; rfl

theorem Kept.early (h : self.Kept graces) (hea : self.requests.length < 2)
    (hsta : next.Stage graces next.escalation) (hc : next.calls = self.calls)
    (ho : next.outcome = self.outcome) (hex : next.exit = self.exit)
    (hr : next.recordedAt = self.recordedAt) (hs : next.started = true) :
    next.Kept graces where
  stage := hsta
  calls call hca := by
    rcases (h.calls call (hc ▸ hca)).requests with ha | ht
    · exact ha next hex
    · omega
  exited status hst := hex.trans (h.exited status (ho.symm.trans hst))
  gaveUp hg := by
    have ht := (h.gaveUp (ho.symm.trans hg)).requests
    omega
  fresh hf := by cases hs.symm.trans hf
  recorded hn := hr.trans (h.recorded (hex.symm.trans hn))

theorem Kept.start (h : self.Kept graces) : self.start.Kept graces := by
  unfold Termination.start
  split
  · exact h
  · rename_i hf
    have hs := h.stage
    rw [h.fresh (Bool.not_eq_true _ ▸ hf)] at hs
    have hn : self.requests = [] := hs
    exact h.early (by simp [hn]) ⟨self.now, .nothing self.now rfl hn, le_rfl⟩ rfl rfl rfl rfl
      rfl

theorem Kept.move (h : self.Kept graces) {escalation : Escalation} {outcome : TerminationOutcome}
    (hr : self.escalation ≠ .idle) (hs : self.Stage graces escalation)
    (hex : ∀ status, outcome = .exited status → self.exit = some status)
    (hg : outcome = .gaveUp → self.GaveUp graces) :
    { self with escalation, outcome }.Kept graces := by
  have hl : Later self { self with escalation, outcome } :=
    ⟨le_rfl, rfl, rfl, fun _ h => .inl h, fun _ h => h⟩
  exact ⟨hs.later hl, fun call hc => (h.calls call hc).later hl, hex,
    fun heq => (hg heq).later hl, fun hf => absurd (h.fresh hf) hr,
    h.recorded⟩

theorem Kept.wait (h : self.Kept graces) {last : Option KillRequest} {deadline : Nat}
    (hw : self.escalation = .waiting last deadline)
    (hs : self.escalate graces = some next) : next.Kept graces := by
  have hr : self.escalation ≠ .idle := by simp [hw]
  have hst := h.stage
  rw [hw] at hst
  obtain ⟨since, ha, hd⟩ := hst
  rw [escalate, hw] at hs
  dsimp only at hs
  split at hs
  · rename_i status hex
    cases hs
    exact h.move hr ⟨hex, last, since, ha⟩ h.exited h.gaveUp
  · rename_i hex
    obtain ⟨hrea, hs⟩ := Option.ite_none_right_eq_some.mp hs
    -- The exit watch is empty past the deadline.
    have hl : self.Lapsed since (graces.after last) := by
      have hre := h.recorded hex
      exact ⟨hd.trans hrea, by simp [hre]⟩
    split at hs <;> cases hs <;> refine h.move hr ?_ h.exited h.gaveUp
    · exact ⟨last, since, ‹_›, ha, hl⟩
    · cases ha with
      | nothing | terminate => contradiction
      | kill first second _ hsta hreq hb haf hb' ha' =>
        exact ⟨since, .kill first second since hsta hreq hb haf hb' ha',
          hl⟩

theorem Kept.ask (h : self.Kept graces) {request : KillRequest}
    (ha : self.escalation = .asking request)
    (hste : self.escalate graces = some next) : next.Kept graces := by
  have hsta := h.stage
  rw [ha] at hsta
  obtain ⟨last, since, hn, has, hl⟩ := hsta
  have hst : self.started = true := by
    have hf := h.fresh
    grind
  rw [escalate, ha] at hste
  cases hste
  cases has with
  | nothing _ hs hr =>
    cases hn
    refine h.early (by simp [hr]) ⟨self.now, ?_, le_rfl⟩ rfl rfl rfl rfl hst
    exact .terminate since self.now hs (by simp [hr])
      ⟨hl.reached, hl.unrecorded⟩ hl.reached
  | terminate first _ hs hr hb haf =>
    cases hn
    refine h.early (by simp [hr]) ⟨self.now, ?_, le_rfl⟩ rfl rfl rfl rfl hst
    exact .kill first since self.now hs (by simp [hr])
      ⟨hb.reached, hb.unrecorded⟩ haf ⟨hl.reached, hl.unrecorded⟩
      hl.reached
  | kill => cases hn

theorem Kept.escalate (h : self.Kept graces) (hs : self.escalate graces = some next) :
    next.Kept graces := by
  have hst := h.stage
  have hex := h.exited
  have hg := h.gaveUp
  cases hw : self.escalation with
  | waiting last deadline => exact h.wait hw hs
  | asking request => exact h.ask hw hs
  | idle | finished =>
    rw [Termination.escalate, hw] at hs
    cases hs
  | spawned | asked =>
    rw [hw] at hst
    obtain ⟨since, ha, hp⟩ := hst
    rw [Termination.escalate, hw] at hs
    cases hs
    exact h.move (by simp [hw]) ⟨since, ha, Nat.add_le_add_right hp _⟩ hex hg
  | settled status =>
    rw [hw] at hst
    rw [Termination.escalate, hw] at hs
    cases hs
    cases status <;> refine h.move (by simp [hw]) hst ?_ ?_ <;> grind [publish, Stage]

theorem GaveUp.cameBackEmpty (h : self.GaveUp graces) (hu : self.recordedAt = none) :
    self.CameBackEmpty graces self.now := by
  obtain ⟨since, has, hl⟩ := h
  cases has with
  | kill first second _ hs hr _ ha _ ha' =>
    exact ⟨le_rfl, ⟨first, second, since, hs, hr, ha, ha', hl.reached⟩,
      by simp [hu]⟩

theorem Kept.advance (h : self.Kept graces) {index : Nat}
    (hs : self.advance index = some next) : next.Kept graces := by
  obtain ⟨call, hca, hs⟩ := Option.bind_eq_some_iff.mp hs
  have hk := h.calls call (List.mem_of_getElem? hca)
  cases call with
  | starting =>
    cases hs
    have hc : self.start.calls = self.calls := by grind [Termination.start]
    rw [← hc]
    exact h.start.replace index trivial
  | subscribing =>
    cases hs
    exact h.replace index trivial
  | checking =>
    dsimp only at hs
    split at hs <;> cases hs <;> refine h.replace index ?_
    · exact h.exited _ ‹_›
    · exact h.gaveUp ‹_›
  | rereading =>
    cases hs
    refine h.replace index ?_
    cases hex : self.exit with
    | some status => exact hex
    | none => exact GaveUp.cameBackEmpty hk (h.recorded hex)
  | returned | cancelled => cases hs

theorem Kept.step (h : self.Kept graces) {label : TerminationLabel}
    (hs : self.step graces label = some next) : next.Kept graces := by
  have hr := h.recorded
  cases label with
  | tick =>
    cases hs
    exact h.pass ⟨Nat.le_succ _, rfl, rfl, fun _ h => .inl h, fun _ h => h⟩ rfl rfl rfl
      (fun _ hc => .inl hc) hr
  | record status =>
    obtain ⟨hn, hs⟩ := Option.ite_none_right_eq_some.mp hs
    cases hs
    exact h.pass ⟨le_rfl, rfl, rfl, by grind, by grind⟩ rfl rfl rfl (fun _ hc => .inl hc)
      (by simp)
  | start =>
    cases hs
    exact h.start
  | terminate =>
    cases hs
    exact h.pass ⟨le_rfl, rfl, rfl, fun _ h => .inl h, fun _ h => h⟩ rfl rfl rfl
      (by grind [CallKept]) hr
  | advance index => exact h.advance hs
  | cancel index =>
    obtain ⟨call, hc, rfl⟩ := Option.map_eq_some_iff.mp hs
    exact h.replace index trivial
  | escalate => exact h.escalate hs

theorem new_kept : new.Kept graces where
  stage := rfl
  calls _ h := absurd h List.not_mem_nil
  exited _ h := TerminationOutcome.noConfusion h
  gaveUp h := TerminationOutcome.noConfusion h
  fresh _ := rfl
  recorded _ := rfl

theorem unspawned_kept : unspawned.Kept graces where
  stage := rfl
  calls _ h := absurd h List.not_mem_nil
  exited status h := by
    cases h
    rfl
  gaveUp h := TerminationOutcome.noConfusion h
  fresh h := Bool.noConfusion h
  recorded h := by cases h

/-! ### Runs -/

/-- The escalation has seen the child's exit. -/
def observed (self : Termination) : Bool :=
  match self.escalation with
  | .settled (some _) | .finished (some _) => true
  | _ => false

theorem observed_step (h : self.Kept graces) (ho : self.observed = true)
    {label : TerminationLabel} (hs : self.step graces label = some next) :
    next.observed = true ∧ next.requests = self.requests := by
  have hf := h.fresh
  have hst : self.start = self := by grind [Termination.start, observed]
  cases label with
  | escalate =>
    rw [Termination.step, escalate] at hs
    grind [observed]
  | advance index =>
    rw [Termination.step, Termination.advance] at hs
    obtain ⟨call, hc, hs⟩ := Option.bind_eq_some_iff.mp hs
    grind [observed]
  | _ => grind [Termination.step, observed]

/-- The order of a termination: what was asked for and when, and what the callers were told. -/
structure Orderly (graces : Graces) (child : Termination) : Prop where
  sequence : child.requests.map Prod.fst <+: [.terminate, .kill]
  terminate : ∀ time, (.terminate, time) ∈ child.requests → ∃ first,
    child.startedAt = some first ∧ first + graces.terminate ≤ time ∧
      ∀ recorded, child.recordedAt = some recorded → first + graces.terminate ≤ recorded
  kill : ∀ time, (.kill, time) ∈ child.requests → ∃ second,
    (.terminate, second) ∈ child.requests ∧ second + graces.kill ≤ time ∧
      ∀ recorded, child.recordedAt = some recorded → second + graces.kill ≤ recorded
  status : ∀ status time, .returned (some status) time ∈ child.calls → child.exit = some status
  empty : ∀ time, .returned none time ∈ child.calls → child.CameBackEmpty graces time

theorem Kept.asked (h : self.Kept graces) :
    self.requests = [] ∨ ∃ last since, self.Asked graces last since := by
  have hs := h.stage
  unfold Stage at hs
  grind [GaveUp]

theorem Kept.orderly (h : self.Kept graces) : self.Orderly graces := by
  have hs := fun status time hc => h.calls (.returned (some status) time) hc
  have he := fun time hc => h.calls (.returned none time) hc
  rcases h.asked with hn | ⟨last, since, has⟩
  · refine ⟨?_, ?_, ?_, hs, he⟩
    all_goals simp [hn]
  · cases has with
    | nothing _ _ hr =>
      refine ⟨?_, ?_, ?_, hs, he⟩
      all_goals simp [hr]
    | terminate first _ hst hr hl ha =>
      have hu := hl.unrecorded
      refine ⟨by simp [hr], ?_, ?_, hs, he⟩ <;> grind
    | kill first second _ hst hr hl ha hl' ha' =>
      have hu := hl.unrecorded
      have hu' := hl'.unrecorded
      refine ⟨by simp [hr], ?_, ?_, hs, he⟩ <;> grind

/-- Every run over a child that runs or never started is orderly, and asks for nothing more once the
exit is seen. -/
theorem run_orderly {init : Termination} (hinit : init = new ∨ init = unspawned)
    {labels : List TerminationLabel} (hrun : Machine.run (step graces) init labels = some self) :
    self.Orderly graces ∧ ∀ more final, self.observed = true →
      Machine.run (step graces) self more = some final → final.requests = self.requests := by
  have hsta : init.Kept graces := by
    rcases hinit with rfl | rfl
    · exact new_kept
    · exact unspawned_kept
  have hk : self.Kept graces :=
    Machine.run_invariant (Kept graces) (fun _ _ _ h hs => h.step hs) hsta hrun
  refine ⟨hk.orderly, fun more final ho hm => ?_⟩
  have hf : final.Kept graces ∧ final.observed = true ∧ final.requests = self.requests := by
    refine Machine.run_invariant (fun later => later.Kept graces ∧ later.observed = true ∧
      later.requests = self.requests) ?_ ⟨hk, ho, rfl⟩ hm
    rintro state label next ⟨hst, hse, hr⟩ hs
    obtain ⟨hs', hsa⟩ := observed_step hst hse hs
    exact ⟨hst.step hs, hs', hsa.trans hr⟩
  exact hf.2.2

end Steps

def politeLabels : List TerminationLabel :=
  [.terminate, .advance 0, .advance 0, .escalate, .tick, .escalate, .escalate, .escalate,
    .record ⟨some 0, none⟩, .escalate, .escalate, .advance 0]

theorem run_orderly_polite :
    ∃ child : Termination, Machine.run (step ⟨1, 1, 1⟩) new politeLabels = some child ∧
      child.requests = [(.terminate, 1)] ∧
      child.calls = [.returned (some ⟨some 0, none⟩) 1] ∧ child.Orderly ⟨1, 1, 1⟩ := by
  obtain ⟨child, hr, hre, hc⟩ :
      ∃ child : Termination, Machine.run (step ⟨1, 1, 1⟩) new politeLabels = some child ∧
        child.requests = [(.terminate, 1)] ∧
        child.calls = [.returned (some ⟨some 0, none⟩) 1] :=
    Machine.exists_run (by decide +kernel)
  exact ⟨child, hr, hre, hc, (run_orderly (.inl rfl) hr).1⟩

end Termination

end MangoProtocol
