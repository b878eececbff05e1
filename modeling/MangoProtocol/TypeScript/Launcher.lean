import MangoProtocol.ProofKit.Machine

/-! The launcher of `spawn.ts` around a child that did start: the deferred `exited`, the escalation
and the calls of `terminate`.  A step is one task of the event loop, run to completion with the
promise jobs it leaves behind. -/

namespace MangoProtocol.TypeScript

open ProofKit

structure ExitStatus where
  code : Option Int
  signal : Option String
  deriving DecidableEq

def ExitStatus.unknown : ExitStatus := ⟨none, none⟩

/-- The arguments of the child's `exit` event.  Exactly one of the two is not `null`. -/
inductive ChildExit where
  | left (code : Int)
  | killed (signal : String)
  deriving DecidableEq

def ChildExit.status : ChildExit → ExitStatus
  | .left code => ⟨some code, none⟩
  | .killed signal => ⟨none, some signal⟩

theorem ChildExit.status_ne_unknown (ho : ChildExit) : ho.status ≠ .unknown := by
  cases ho <;> simp [status, ExitStatus.unknown]

inductive KillSignal where
  | sigterm
  | sigkill
  deriving DecidableEq

/-- What `child.kill` did: it signalled the child, returned `false`, or emitted `error`. -/
inductive KillOutcome where
  | sent
  | refused
  | failed
  deriving DecidableEq

/-- A call of `child.kill`: the signal `escalate` named, the argument that was passed and the time.
Windows passes none. -/
structure KillCall where
  signal : KillSignal
  argument : Option KillSignal
  time : Nat
  deriving DecidableEq

/-- The three bounded waits, in milliseconds. -/
structure Graces where
  terminateMs : Nat
  killMs : Nat
  exitMs : Nat

def Graces.after (graces : Graces) : Option KillSignal → Nat
  | none => graces.terminateMs
  | some .sigterm => graces.killMs
  | some .sigkill => graces.exitMs

def timerDelay (ms : Nat) : Nat :=
  if ms < 1 ∨ 2147483647 < ms then 1 else ms

/-- Where the promise `termination` is. -/
inductive Escalation where
  | idle
  /-- Inside `settledWithin`, after a signal or none. -/
  | waiting (last : Option KillSignal) (deadline : Nat)
  | returned (status : Option ExitStatus) (time : Nat)
  deriving DecidableEq

/-- Where a call of `terminate` is. -/
inductive TerminateCall where
  | awaiting
  /-- Inside `settledStatus`. -/
  | rechecking (deadline : Nat)
  | returned (status : Option ExitStatus)
  deriving DecidableEq

/-- What the launcher holds.  `childExit` is the child's own `exit` event and its time. -/
structure Launcher where
  now : Nat := 0
  childExit : Option (ChildExit × Nat) := none
  exited : Option ExitStatus := none
  portOpen : Bool := true
  escalation : Escalation := .idle
  kills : List KillCall := []
  calls : List TerminateCall := []
  deriving DecidableEq

inductive LaunchEvent where
  | tick (ms : Nat)
  | exit (how : ChildExit)
  | error
  /-- The child's stdout ended, a line was refused, or a pipe broke. -/
  | portEnds
  | terminate
  /-- `close` of the port that was handed out. -/
  | close
  /-- The timer of the first or second grace fires. -/
  | grace (outcome : KillOutcome)
  /-- The timer of the last grace fires. -/
  | giveUp
  /-- The timer of a call's `settledStatus` fires. -/
  | recheck (index : Nat)
  deriving DecidableEq

/-- An `error` event of the child, emitted on its own or by a failed `child.kill`. -/
def LaunchEvent.isError : LaunchEvent → Bool
  | .error | .grace .failed => true
  | .tick _ | .exit _ | .portEnds | .terminate | .close | .grace .sent | .grace .refused
  | .giveUp | .recheck _ => false

namespace Launcher

/-- What `spawnPort` returns with, once the spawn produced a process. -/
def spawnPort : Launcher := {}

def settle (launcher : Launcher) (status : ExitStatus) : Launcher :=
  match launcher.exited with
  | some _ => launcher
  | none => { launcher with exited := some status }

/-- The listener of the child's `exit` event. -/
def onExit (launcher : Launcher) (how : ChildExit) : Launcher :=
  settle { launcher with childExit := some (how, launcher.now) } how.status

section Events

variable (graces : Graces) (windows : Bool)

def settledWithin (launcher : Launcher) (last : Option KillSignal) : Launcher :=
  { launcher with
    escalation := .waiting last (launcher.now + timerDelay (graces.after last)) }

/-- `escalate` up to its first `await`. -/
def escalate (launcher : Launcher) : Launcher :=
  settledWithin graces { launcher with portOpen := false } none

def terminate (launcher : Launcher) : Launcher :=
  let launcher := if launcher.escalation = .idle then launcher.escalate graces else launcher
  { launcher with calls := launcher.calls ++ [.awaiting] }

/-- `eof`, `failed` and `#refuse` of the port, with the closure listener of `spawnPort`. -/
def endPort (launcher : Launcher) : Launcher :=
  if launcher.portOpen then terminate graces { launcher with portOpen := false } else launcher

/-- The listener of the child's `error` event. -/
def onError (launcher : Launcher) : Launcher :=
  (launcher.endPort graces).settle .unknown

def kill (launcher : Launcher) (signal : KillSignal) (outcome : KillOutcome) : Launcher :=
  match launcher.childExit with
  | some _ => launcher
  | none =>
    let call := ⟨signal, if windows then none else some signal, launcher.now⟩
    let launcher := { launcher with kills := launcher.kills ++ [call] }
    match outcome with
    | .failed => launcher.onError graces
    | .sent | .refused => launcher

def afterGrace (launcher : Launcher) (signal : KillSignal) (outcome : KillOutcome) : Launcher :=
  settledWithin graces (launcher.kill graces windows signal outcome) (some signal)

end Events

def resumeEscalation (launcher : Launcher) : Launcher :=
  match launcher.escalation, launcher.exited with
  | .waiting _ _, some status =>
    { launcher with escalation := .returned (some status) launcher.now }
  | _, _ => launcher

def resumeCall (launcher : Launcher) : TerminateCall → TerminateCall
  | .awaiting =>
    match launcher.escalation with
    | .returned (some status) _ => .returned (some status)
    | .returned none _ =>
      match launcher.exited with
      | some status => .returned (some status)
      | none => .rechecking (launcher.now + timerDelay 0)
    | .idle | .waiting _ _ => .awaiting
  | .rechecking deadline =>
    match launcher.exited with
    | some status => .returned (some status)
    | none => .rechecking deadline
  | .returned status => .returned status

/-- The promise jobs a task leaves behind. -/
def runJobs (launcher : Launcher) : Launcher :=
  let launcher := launcher.resumeEscalation
  { launcher with calls := launcher.calls.map launcher.resumeCall }

def step (graces : Graces) (windows : Bool) (launcher : Launcher) :
    LaunchEvent → Option Launcher
  | .tick ms => some { launcher with now := launcher.now + ms }
  | .exit how =>
    match launcher.childExit with
    | some _ => none
    | none => some (launcher.onExit how).runJobs
  | .error => some (launcher.onError graces).runJobs
  | .portEnds => some (launcher.endPort graces).runJobs
  | .terminate => some (launcher.terminate graces).runJobs
  | .close => some (terminate graces { launcher with portOpen := false }).runJobs
  | .grace outcome =>
    match launcher.escalation with
    | .waiting none deadline =>
      if deadline ≤ launcher.now then
        some (launcher.afterGrace graces windows .sigterm outcome).runJobs
      else none
    | .waiting (some .sigterm) deadline =>
      if deadline ≤ launcher.now then
        some (launcher.afterGrace graces windows .sigkill outcome).runJobs
      else none
    | .waiting (some .sigkill) _ | .idle | .returned _ _ => none
  | .giveUp =>
    match launcher.escalation with
    | .waiting (some .sigkill) deadline =>
      if deadline ≤ launcher.now then
        some (runJobs { launcher with escalation := .returned none launcher.now })
      else none
    | .waiting none _ | .waiting (some .sigterm) _ | .idle | .returned _ _ => none
  | .recheck index =>
    match launcher.calls[index]? with
    | some (.rechecking deadline) =>
      if deadline ≤ launcher.now then
        some { launcher with calls := launcher.calls.set index (.returned none) }
      else none
    | some .awaiting | some (.returned _) | none => none

/-! ### What an exit means -/

/-- `escalate` went as far as `SIGKILL`. -/
def SentSigkill (windows : Bool) (launcher : Launcher) : Prop :=
  ∃ call ∈ launcher.kills, call.signal = .sigkill ∧
    call.argument = if windows then none else some .sigkill

structure Truthful (graces : Graces) (windows : Bool) (launcher : Launcher) : Prop where
  exited : ∀ status, launcher.exited = some status →
    ∃ how time, launcher.childExit = some (how, time) ∧ how.status = status
  /-- A wait that ended without `SIGKILL` ended after the child's exit. -/
  returned : ∀ status time, launcher.escalation = .returned status time →
    launcher.SentSigkill windows ∨
      ∃ how exitTime, launcher.childExit = some (how, exitTime) ∧ exitTime ≤ time
  /-- The end of the second grace sends it. -/
  due : ∀ deadline, launcher.escalation = .waiting (some .sigterm) deadline →
    deadline ≤ launcher.now → ∀ outcome, ∃ next,
      launcher.step graces windows (.grace outcome) = some next ∧ next.SentSigkill windows
  sent : ∀ deadline, launcher.escalation = .waiting (some .sigkill) deadline →
    launcher.SentSigkill windows

def Reported (launcher : Launcher) (event : LaunchEvent) : Prop :=
  launcher.childExit = none → event.isError = false

instance (launcher : Launcher) (event : LaunchEvent) : Decidable (launcher.Reported event) :=
  inferInstanceAs (Decidable (_ → _))

/-! ### Every run -/

/-- What holds in the middle of a task too. -/
structure Coherent (windows : Bool) (launcher : Launcher) : Prop where
  past : ∀ how time, launcher.childExit = some (how, time) →
    time ≤ launcher.now ∧ launcher.exited ≠ none
  told : ∀ status, launcher.exited = some status → status = .unknown ∨
    ∃ how time, launcher.childExit = some (how, time) ∧ how.status = status
  sent : ∀ deadline, launcher.escalation = .waiting (some .sigkill) deadline →
    launcher.SentSigkill windows

/-- What holds in the middle of a task of a run without early `error` events. -/
structure Honest (windows : Bool) (launcher : Launcher) : Prop where
  exited : ∀ status, launcher.exited = some status →
    ∃ how time, launcher.childExit = some (how, time) ∧ how.status = status
  returned : ∀ status time, launcher.escalation = .returned status time →
    launcher.SentSigkill windows ∨
      ∃ how exitTime, launcher.childExit = some (how, exitTime) ∧ exitTime ≤ time

/-- No wait is left over between two tasks once `exited` is settled. -/
def Quiet (launcher : Launcher) : Prop :=
  ∀ last deadline, launcher.escalation = .waiting last deadline → launcher.exited = none

variable {graces : Graces} {windows : Bool} {launcher next : Launcher}

theorem SentSigkill.mono (h : launcher.SentSigkill windows) (hk : launcher.kills ⊆ next.kills) :
    next.SentSigkill windows := by
  obtain ⟨call, hc, hs⟩ := h
  exact ⟨call, hk hc, hs⟩

theorem Coherent.move (h : launcher.Coherent windows) (hn : launcher.now ≤ next.now)
    (hc : next.childExit = launcher.childExit) (hex : next.exited = launcher.exited)
    (hk : launcher.kills ⊆ next.kills)
    (hs : ∀ deadline, next.escalation = .waiting (some .sigkill) deadline →
      launcher.escalation = .waiting (some .sigkill) deadline ∨ next.SentSigkill windows) :
    next.Coherent windows := by
  obtain ⟨hp, ht, hw⟩ := h
  constructor <;> grind [SentSigkill.mono]

theorem Honest.move (h : launcher.Honest windows)
    (hc : next.childExit = launcher.childExit) (hex : next.exited = launcher.exited)
    (hk : launcher.kills ⊆ next.kills)
    (hr : ∀ status time, next.escalation = .returned status time →
      launcher.escalation = .returned status time ∨ next.SentSigkill windows ∨
        ∃ ho exitTime, next.childExit = some (ho, exitTime) ∧ exitTime ≤ time) :
    next.Honest windows := by
  obtain ⟨hw, he⟩ := h
  constructor <;> grind [SentSigkill.mono]

/-- What a call of `terminate` does besides being recorded: it may start the first wait. -/
structure Starts (launcher next : Launcher) : Prop where
  now : next.now = launcher.now
  childExit : next.childExit = launcher.childExit
  exited : next.exited = launcher.exited
  kills : next.kills = launcher.kills
  escalation : next.escalation = launcher.escalation ∨
    launcher.escalation = .idle ∧ ∃ deadline, next.escalation = .waiting none deadline

theorem starts_terminate (graces : Graces) (launcher : Launcher) :
    launcher.Starts (launcher.terminate graces) := by
  constructor <;> grind [terminate, escalate, settledWithin]

theorem starts_closed (graces : Graces) (launcher : Launcher) :
    launcher.Starts (terminate graces { launcher with portOpen := false }) :=
  have h := starts_terminate graces { launcher with portOpen := false }
  ⟨h.now, h.childExit, h.exited, h.kills, h.escalation⟩

theorem starts_endPort (graces : Graces) (launcher : Launcher) :
    launcher.Starts (launcher.endPort graces) := by
  unfold endPort
  split
  · exact starts_closed graces launcher
  · exact ⟨rfl, rfl, rfl, rfl, .inl rfl⟩

theorem Starts.coherent (h : launcher.Starts next) (hk : launcher.Coherent windows) :
    next.Coherent windows := by
  refine hk.move h.now.ge h.childExit h.exited (fun _ hc => h.kills ▸ hc) ?_
  grind [h.escalation]

theorem Starts.honest (h : launcher.Starts next) (hk : launcher.Honest windows) :
    next.Honest windows := by
  refine hk.move h.childExit h.exited (fun _ hc => h.kills ▸ hc) ?_
  grind [h.escalation]

theorem runJobs_frame (launcher : Launcher) :
    launcher.runJobs.now = launcher.now ∧ launcher.runJobs.childExit = launcher.childExit ∧
      launcher.runJobs.exited = launcher.exited ∧ launcher.runJobs.kills = launcher.kills := by
  simp only [runJobs, resumeEscalation]
  split <;> exact ⟨rfl, rfl, rfl, rfl⟩

theorem runJobs_escalation (launcher : Launcher) :
    (launcher.runJobs.escalation = launcher.escalation ∧ launcher.Quiet) ∨
      ∃ status, launcher.exited = some status ∧
        launcher.runJobs.escalation = .returned (some status) launcher.now := by
  simp only [runJobs, resumeEscalation]
  split
  next last deadline status hw hex => exact .inr ⟨status, hex, rfl⟩
  next ho =>
    refine .inl ⟨rfl, fun last deadline hw => ?_⟩
    cases hex : launcher.exited with
    | none => rfl
    | some status => exact absurd hex (ho last deadline status hw)

theorem quiet_runJobs (launcher : Launcher) : launcher.runJobs.Quiet := by
  grind [Quiet, runJobs_frame, runJobs_escalation]

theorem Coherent.runJobs (h : launcher.Coherent windows) : launcher.runJobs.Coherent windows := by
  obtain ⟨hn, hc, hex, hk⟩ := runJobs_frame launcher
  refine h.move hn.ge hc hex (fun _ hca => hk ▸ hca) ?_
  grind [runJobs_escalation]

theorem Honest.runJobs (h : launcher.Honest windows) (hke : launcher.Coherent windows) :
    launcher.runJobs.Honest windows := by
  obtain ⟨hn, hc, hex, hk⟩ := runJobs_frame launcher
  refine h.move hc hex (fun _ hca => hk ▸ hca) ?_
  have hw := h.exited
  have hp := hke.past
  grind [runJobs_escalation]

theorem settle_frame (launcher : Launcher) (status : ExitStatus) :
    (launcher.settle status).now = launcher.now ∧
      (launcher.settle status).childExit = launcher.childExit ∧
      (launcher.settle status).kills = launcher.kills ∧
      (launcher.settle status).escalation = launcher.escalation := by
  unfold settle
  split <;> exact ⟨rfl, rfl, rfl, rfl⟩

theorem settle_exited (launcher : Launcher) (status : ExitStatus) :
    (launcher.settle status).exited = some (launcher.exited.getD status) := by
  grind [settle]

theorem Coherent.settle (h : launcher.Coherent windows) {status : ExitStatus}
    (ht : status = .unknown ∨
      ∃ ho time, launcher.childExit = some (ho, time) ∧ ho.status = status) :
    (launcher.settle status).Coherent windows := by
  obtain ⟨hp, ht', hs⟩ := h
  obtain ⟨hn, hc, hk, hes⟩ := settle_frame launcher status
  have hex := settle_exited launcher status
  constructor <;> cases hb : launcher.exited <;> grind [SentSigkill]

theorem Coherent.onError (h : launcher.Coherent windows) :
    (launcher.onError graces).Coherent windows :=
  ((starts_endPort graces launcher).coherent h).settle (.inl rfl)

theorem onError_exited (graces : Graces) (launcher : Launcher) :
    (launcher.onError graces).exited = some (launcher.exited.getD .unknown) := by
  rw [Launcher.onError, settle_exited, (starts_endPort graces launcher).exited]

theorem Honest.onError (h : launcher.Honest windows) (hex : launcher.exited ≠ none) :
    (launcher.onError graces).Honest windows := by
  have hs := starts_endPort graces launcher
  obtain ⟨-, hc, hk, hes⟩ := settle_frame (launcher.endPort graces) .unknown
  refine (hs.honest h).move hc ?_ (fun _ hca => hk ▸ hca)
    fun status time hr => .inl (hes ▸ hr)
  obtain ⟨status, hst⟩ := Option.ne_none_iff_exists'.mp hex
  rw [onError_exited, hs.exited, hst, Option.getD_some]

theorem onExit_exited (launcher : Launcher) (ho : ChildExit) :
    (launcher.onExit ho).exited = some (launcher.exited.getD ho.status) :=
  settle_exited _ _

theorem Coherent.onExit (h : launcher.Coherent windows) (hn : launcher.childExit = none)
    (ho : ChildExit) : (launcher.onExit ho).Coherent windows := by
  obtain ⟨hp, ht, hs⟩ := h
  have hex := onExit_exited launcher ho
  have hf := settle_frame { launcher with childExit := some (ho, launcher.now) } ho.status
  rw [← Launcher.onExit] at hf
  constructor <;> cases hb : launcher.exited <;> grind [SentSigkill]

theorem Honest.onExit (h : launcher.Honest windows) (hn : launcher.childExit = none)
    (ho : ChildExit) : (launcher.onExit ho).Honest windows := by
  obtain ⟨hw, he⟩ := h
  have hex := onExit_exited launcher ho
  have hf := settle_frame { launcher with childExit := some (ho, launcher.now) } ho.status
  rw [← Launcher.onExit] at hf
  constructor <;> cases hb : launcher.exited <;> grind [SentSigkill]

/-! ### The graces -/

section Grace

variable {signal : KillSignal} {outcome : KillOutcome}

def withKill (launcher : Launcher) (windows : Bool) (signal : KillSignal) : Launcher :=
  { launcher with
    kills := launcher.kills ++ [⟨signal, if windows then none else some signal, launcher.now⟩] }

theorem kill_running (hn : launcher.childExit = none) :
    launcher.kill graces windows signal outcome =
      if outcome = .failed then (launcher.withKill windows signal).onError graces
      else launcher.withKill windows signal := by
  grind [kill, withKill]

theorem withKill_sigkill (launcher : Launcher) :
    (launcher.withKill windows .sigkill).SentSigkill windows :=
  ⟨_, List.mem_append_right _ List.mem_cons_self, rfl, rfl⟩

theorem onError_kills (launcher : Launcher) :
    (launcher.onError graces).kills = launcher.kills :=
  (settle_frame _ _).2.2.1.trans (starts_endPort graces launcher).kills

theorem afterGrace_sigkill (hn : launcher.childExit = none) :
    (launcher.afterGrace graces windows .sigkill outcome).SentSigkill windows := by
  refine (withKill_sigkill launcher).mono ?_
  grind [afterGrace, settledWithin, kill_running, onError_kills, List.Subset.refl]

theorem afterGrace_exited (launcher : Launcher) :
    (launcher.afterGrace graces windows signal outcome).exited =
      if launcher.childExit = none ∧ outcome = .failed
      then some (launcher.exited.getD .unknown) else launcher.exited := by
  grind [afterGrace, settledWithin, kill, kill_running, onError_exited, withKill]

theorem Coherent.afterGrace (h : launcher.Coherent windows) (hn : launcher.childExit = none) :
    (launcher.afterGrace graces windows signal outcome).Coherent windows := by
  have hc : (launcher.withKill windows signal).Coherent windows :=
    h.move (le_refl _) rfl rfl (List.subset_append_left _ _) fun _ hw => .inl hw
  have hk : (launcher.kill graces windows signal outcome).Coherent windows := by
    grind [kill_running, hc.onError]
  refine hk.move (le_refl _) rfl rfl (List.Subset.refl _) ?_
  intro deadline hw
  cases signal with
  | sigterm => cases hw
  | sigkill => exact .inr (afterGrace_sigkill hn)

theorem Honest.afterGrace (h : launcher.Honest windows) (hn : launcher.childExit = none)
    (ho : outcome ≠ .failed) :
    (launcher.afterGrace graces windows signal outcome).Honest windows := by
  rw [Launcher.afterGrace, kill_running hn, if_neg ho]
  refine h.move rfl rfl (List.subset_append_left _ _) ?_
  intro status time hr
  cases hr

end Grace

/-! ### Steps and runs -/

/-- What holds between two tasks of every run. -/
structure Kept (windows : Bool) (launcher : Launcher) : Prop where
  coherent : launcher.Coherent windows
  quiet : launcher.Quiet

theorem Coherent.kept (h : launcher.Coherent windows) : launcher.runJobs.Kept windows :=
  ⟨h.runJobs, quiet_runJobs launcher⟩

theorem Kept.running (h : launcher.Kept windows) {last : Option KillSignal} {deadline : Nat}
    (hw : launcher.escalation = .waiting last deadline) : launcher.childExit = none := by
  have hp := h.coherent.past
  have hq := h.quiet last deadline hw
  rcases hc : launcher.childExit with _ | ⟨ho, time⟩ <;> grind

variable {event : LaunchEvent}

theorem step_grace {outcome : KillOutcome}
    (hs : launcher.step graces windows (.grace outcome) = some next) :
    ∃ last deadline signal, launcher.escalation = .waiting last deadline ∧
      next = (launcher.afterGrace graces windows signal outcome).runJobs := by
  simp only [step] at hs
  grind

theorem step_giveUp (hs : launcher.step graces windows .giveUp = some next) :
    ∃ deadline, launcher.escalation = .waiting (some .sigkill) deadline ∧
      next = runJobs { launcher with escalation := .returned none launcher.now } := by
  simp only [step] at hs
  grind

theorem step_exit {ho : ChildExit}
    (hs : launcher.step graces windows (.exit ho) = some next) :
    launcher.childExit = none ∧ next = (launcher.onExit ho).runJobs := by
  simp only [step] at hs
  grind

theorem step_recheck {index : Nat}
    (hs : launcher.step graces windows (.recheck index) = some next) :
    next = { launcher with calls := launcher.calls.set index (.returned none) } := by
  simp only [step] at hs
  grind

theorem Kept.step (h : launcher.Kept windows)
    (hs : launcher.step graces windows event = some next) : next.Kept windows := by
  cases event with
  | tick ms =>
    cases hs
    exact ⟨h.coherent.move (Nat.le_add_right _ _) rfl rfl (List.Subset.refl _)
      fun _ hw => .inl hw, h.quiet⟩
  | exit ho =>
    obtain ⟨hn, rfl⟩ := step_exit hs
    exact (h.coherent.onExit hn ho).kept
  | error =>
    cases hs
    exact h.coherent.onError.kept
  | portEnds =>
    cases hs
    exact ((starts_endPort graces launcher).coherent h.coherent).kept
  | terminate =>
    cases hs
    exact ((starts_terminate graces launcher).coherent h.coherent).kept
  | close =>
    cases hs
    exact ((starts_closed graces launcher).coherent h.coherent).kept
  | grace outcome =>
    obtain ⟨last, deadline, signal, hw, rfl⟩ := step_grace hs
    exact (h.coherent.afterGrace (h.running hw)).kept
  | giveUp =>
    obtain ⟨deadline, -, rfl⟩ := step_giveUp hs
    refine Coherent.kept (h.coherent.move (le_refl _) rfl rfl (List.Subset.refl _) ?_)
    intro deadline hw
    cases hw
  | recheck index =>
    rw [step_recheck hs]
    exact ⟨h.coherent.move (le_refl _) rfl rfl (List.Subset.refl _)
      fun _ hw => .inl hw, h.quiet⟩

theorem Honest.step (h : launcher.Honest windows) (hk : launcher.Kept windows)
    (hre : launcher.Reported event)
    (hs : launcher.step graces windows event = some next) : next.Honest windows := by
  have hc := hk.coherent
  cases event with
  | tick ms =>
    cases hs
    exact h.move rfl rfl (List.Subset.refl _) fun _ _ hr => .inl hr
  | exit how =>
    obtain ⟨hn, rfl⟩ := step_exit hs
    exact (h.onExit hn how).runJobs (hc.onExit hn how)
  | error =>
    cases hs
    -- The child has exited, so `exited` is settled and the event changes nothing of it.
    have hex : launcher.exited ≠ none := by
      intro hn
      obtain ⟨⟨how, time⟩, hh⟩ := Option.ne_none_iff_exists'.mp fun hch =>
        Bool.noConfusion (hre hch)
      exact (hc.past how time hh).2 hn
    exact (h.onError hex).runJobs hc.onError
  | portEnds =>
    cases hs
    have hst := starts_endPort graces launcher
    exact (hst.honest h).runJobs (hst.coherent hc)
  | terminate =>
    cases hs
    have hst := starts_terminate graces launcher
    exact (hst.honest h).runJobs (hst.coherent hc)
  | close =>
    cases hs
    have hst := starts_closed graces launcher
    exact (hst.honest h).runJobs (hst.coherent hc)
  | grace outcome =>
    obtain ⟨last, deadline, signal, hw, rfl⟩ := step_grace hs
    have hn := hk.running hw
    have ho : outcome ≠ .failed := by
      rintro rfl
      cases hre hn
    exact (h.afterGrace hn ho).runJobs (hc.afterGrace hn)
  | giveUp =>
    obtain ⟨deadline, hw, rfl⟩ := step_giveUp hs
    have hse := hc.sent deadline hw
    refine Honest.runJobs ?_ ?_
    · exact h.move rfl rfl (List.Subset.refl _) fun _ _ _ =>
        .inr (.inl (hse.mono (List.Subset.refl _)))
    · refine hc.move (le_refl _) rfl rfl (List.Subset.refl _) ?_
      intro deadline hw
      cases hw
  | recheck index =>
    rw [step_recheck hs]
    exact h.move rfl rfl (List.Subset.refl _) fun _ _ hr => .inl hr

theorem exited_step {status : ExitStatus} (h : launcher.exited = some status)
    (hs : launcher.step graces windows event = some next) : next.exited = some status := by
  cases event with
  | exit ho =>
    obtain ⟨-, rfl⟩ := step_exit hs
    rw [(runJobs_frame _).2.2.1, onExit_exited, h, Option.getD_some]
  | grace outcome =>
    obtain ⟨last, deadline, signal, -, rfl⟩ := step_grace hs
    grind [runJobs_frame, afterGrace_exited]
  | giveUp =>
    obtain ⟨deadline, -, rfl⟩ := step_giveUp hs
    grind [runJobs_frame]
  | recheck index => grind [step_recheck hs]
  | _ =>
    cases hs
    grind [runJobs_frame, onError_exited, (starts_endPort graces launcher).exited,
      (starts_terminate graces launcher).exited, (starts_closed graces launcher).exited]

theorem Kept.spoiled (h : launcher.Kept windows) (hr : ¬launcher.Reported event)
    (hs : launcher.step graces windows event = some next) : next.exited = some .unknown := by
  obtain ⟨hn, he⟩ := Classical.not_imp.mp hr
  have ht := h.coherent.told
  have hex : launcher.exited.getD .unknown = .unknown := by
    cases hex : launcher.exited <;> grind
  cases event with
  | error =>
    cases hs
    rw [(runJobs_frame _).2.2.1, onError_exited, hex]
  | grace outcome =>
    cases outcome with
    | failed =>
      obtain ⟨last, deadline, signal, -, rfl⟩ := step_grace hs
      rw [(runJobs_frame _).2.2.1, afterGrace_exited, if_pos ⟨hn, rfl⟩, hex]
    | sent | refused => exact absurd rfl he
  | _ => exact absurd rfl he

theorem kept_spawnPort : spawnPort.Kept windows where
  coherent := {
    past := fun _ _ hc => by cases hc
    told := fun _ hex => by cases hex
    sent := fun _ hw => by cases hw }
  quiet := fun _ _ hw => by cases hw

theorem honest_spawnPort : spawnPort.Honest windows where
  exited := fun _ hex => by cases hex
  returned := fun _ _ hr => by cases hr

theorem Kept.due (h : launcher.Kept windows) {deadline : Nat}
    (hw : launcher.escalation = .waiting (some .sigterm) deadline)
    (hd : deadline ≤ launcher.now) (outcome : KillOutcome) :
    ∃ next, launcher.step graces windows (.grace outcome) = some next ∧
      next.SentSigkill windows := by
  refine ⟨(launcher.afterGrace graces windows .sigkill outcome).runJobs, ?_, ?_⟩
  · simp only [Launcher.step, hw, if_pos hd]
  · have hk := (runJobs_frame (launcher.afterGrace graces windows .sigkill outcome)).2.2.2
    exact (afterGrace_sigkill (h.running hw)).mono fun _ hc => hk ▸ hc

theorem Kept.truthful (h : launcher.Kept windows) (hh : launcher.Honest windows) :
    launcher.Truthful graces windows where
  exited := hh.exited
  returned := hh.returned
  due _ hw hd outcome := h.due hw hd outcome
  sent := h.coherent.sent

/-- The launcher tells the truth in exactly the runs in which no `error` event comes before the
child's exit. -/
theorem run_truthful_iff {events : List LaunchEvent} {final : Launcher}
    (hrun : Machine.run (step graces windows) spawnPort events = some final) :
    final.Truthful graces windows ↔
      Machine.Every (step graces windows) Reported spawnPort events := by
  constructor
  · intro ht
    refine Machine.every_of_run (fun state => state.Kept windows)
      (fun state => state.exited = some .unknown) (fun _ _ _ => Kept.step)
      (fun _ _ _ => exited_step) (fun _ _ _ => Kept.spoiled) kept_spawnPort hrun ?_
    intro hsp
    obtain ⟨ho, time, -, hh⟩ := ht.exited .unknown hsp
    exact ho.status_ne_unknown hh
  · intro he
    have hf : final.Kept windows ∧ final.Honest windows :=
      he.run_invariant (fun state => state.Kept windows ∧ state.Honest windows)
        (fun _ _ _ hs hm hst =>
          ⟨hs.1.step hst, hs.2.step hs.1 hm hst⟩)
        ⟨kept_spawnPort, honest_spawnPort⟩ hrun
    exact hf.1.truthful hf.2

/-- A child that outlives the first grace and leaves on `SIGTERM`. -/
def politeExit : List LaunchEvent :=
  [.terminate, .tick 2000, .grace .sent, .tick 10, .exit (.killed "SIGTERM")]

/-- The reference graces of `spawn.ts`. -/
def defaultGraces : Graces := ⟨2000, 2000, 2000⟩

theorem run_truthful_polite :
    ∃ final, Machine.run (step defaultGraces false) spawnPort politeExit = some final ∧
      final.exited = some ⟨none, some "SIGTERM"⟩ ∧ final.Truthful defaultGraces false := by
  obtain ⟨final, hr, he⟩ : ∃ final,
      Machine.run (step defaultGraces false) spawnPort politeExit = some final ∧
        final.exited = some ⟨none, some "SIGTERM"⟩ := Machine.exists_run (by decide +kernel)
  have hev : Machine.Every (step defaultGraces false) Reported spawnPort politeExit := by
    decide +kernel
  exact ⟨final, hr, he, (run_truthful_iff hr).mpr hev⟩

/-- A `SIGTERM` that cannot be delivered: the child runs on, `exited` is settled all the same, and
`SIGKILL` is never sent. -/
theorem failed_kill_settles_exited :
    ∃ final, Machine.run (step defaultGraces false) spawnPort
        [.terminate, .tick 2000, .grace .failed, .tick 1000000] = some final ∧
      final.childExit = none ∧ final.exited = some .unknown ∧
      final.escalation = .returned (some .unknown) 2000 ∧
      final.kills = [⟨.sigterm, some .sigterm, 2000⟩] ∧
      final.calls = [.returned (some .unknown)] :=
  Machine.exists_run (by decide +kernel)

end Launcher

end MangoProtocol.TypeScript
