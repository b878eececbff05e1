import MangoProtocol.TypeScript.InProcess

/-! The order of deliveries on an in-process pair.  Whatever calls are made on the two ends, and
wherever the microtasks run among them, the listener of an end is given what the other end sent, in
order and once, until the end closes; and what the other end sent before it closed comes before the
closure that is reported. -/

namespace MangoProtocol.TypeScript

open ProofKit

variable {φ : Type}

/-! ### Logs -/

structure PairEvent.Foreign (end_ : PairEnd) (event : PairEvent φ) : Prop where
  sent : event.sentBy end_.peer = none
  received : event.receivedBy end_ = none
  reported : event.reportedTo end_ = none
  closed : event ≠ .closed end_

/-- The listener of an end was given the first of the frames that the other end sent.  A closure
that was reported comes after all of them, nothing comes after it, and the end did not close itself.
Nothing comes after the end closed itself. -/
structure Ordered (end_ : PairEnd) (log : List (PairEvent φ)) : Prop where
  inOrder : receivedBy end_ log <+: sentBy end_.peer log
  closure : ∀ before closure after, log = before ++ .reported end_ closure :: after →
    receivedBy end_ before = sentBy end_.peer log ∧ .closed end_.peer ∈ before ∧
      .closed end_ ∉ log ∧ receivedBy end_ after = [] ∧ reportedTo end_ before = [] ∧
      reportedTo end_ after = []
  ownClose : ∀ before after, log = before ++ .closed end_ :: after →
    receivedBy end_ after = [] ∧ reportedTo end_ log = []

section Log

variable {end_ : PairEnd} {log : List (PairEvent φ)} {event : PairEvent φ}

theorem sentBy_foreign (h : event.Foreign end_) :
    sentBy end_.peer (log ++ [event]) = sentBy end_.peer log := by
  simp [sentBy, h.sent]

theorem receivedBy_foreign (h : event.Foreign end_) :
    receivedBy end_ (log ++ [event]) = receivedBy end_ log := by
  simp [receivedBy, h.received]

theorem reportedTo_foreign (h : event.Foreign end_) :
    reportedTo end_ (log ++ [event]) = reportedTo end_ log := by
  simp [reportedTo, h.reported]

theorem mem_closed_foreign (h : event.Foreign end_) :
    .closed end_ ∈ log ++ [event] ↔ .closed end_ ∈ log := by
  simp [h.closed.symm]

theorem ordered_of_live (hc : .closed end_ ∉ log) (hr : reportedTo end_ log = [])
    (hi : receivedBy end_ log <+: sentBy end_.peer log) : Ordered end_ log := by
  refine ⟨hi, fun before closure after hl => ?_, fun before after hl => ?_⟩
  · rw [hl] at hr
    simp [reportedTo, PairEvent.reportedTo] at hr
  · rw [hl] at hc
    exact absurd (List.mem_append_right before List.mem_cons_self) hc

theorem Ordered.foreign (h : Ordered end_ log) (hf : event.Foreign end_) :
    Ordered end_ (log ++ [event]) := by
  refine ⟨?_, fun before closure after hl => ?_, fun before after hl => ?_⟩
  · rw [receivedBy_foreign hf, sentBy_foreign hf]
    exact h.inOrder
  · rcases concat_eq_append_cons.mp hl with ⟨-, heq, -⟩ | ⟨middle, rfl, hb⟩
    · have hr := hf.reported
      simp [← heq, PairEvent.reportedTo] at hr
    · grind [sentBy_foreign, receivedBy_foreign, reportedTo_foreign, mem_closed_foreign, closure]
  · rcases concat_eq_append_cons.mp hl with ⟨-, heq, -⟩ | ⟨middle, rfl, hb⟩
    · exact absurd heq.symm hf.closed
    · rw [receivedBy_foreign hf, reportedTo_foreign hf]
      exact h.ownClose before middle hb

theorem ordered_closed (hc : .closed end_ ∉ log) (hre : reportedTo end_ log = [])
    (hi : receivedBy end_ log <+: sentBy end_.peer log) :
    Ordered end_ (log ++ [.closed end_]) := by
  have hn : reportedTo end_ (log ++ [.closed end_]) = [] := by
    rw [reportedTo_append, hre]
    rfl
  refine ⟨?_, fun before closure after hl => ?_, fun before after hl => ⟨?_, hn⟩⟩
  · have hr : receivedBy end_ [(.closed end_ : PairEvent φ)] = [] := rfl
    have hs : sentBy end_.peer [(.closed end_ : PairEvent φ)] = [] := rfl
    rw [receivedBy_append, sentBy_append, hr, hs, List.append_nil, List.append_nil]
    exact hi
  · rw [hl] at hn
    simp [reportedTo, PairEvent.reportedTo] at hn
  · rcases concat_eq_append_cons.mp hl with ⟨-, -, rfl⟩ | ⟨middle, -, hb⟩
    · rfl
    · exact absurd (hb ▸ List.mem_append_right before List.mem_cons_self) hc

theorem ordered_reported {closure : PortClosure} (hc : .closed end_ ∉ log)
    (hr : reportedTo end_ log = []) (hp : .closed end_.peer ∈ log)
    (ha : receivedBy end_ log = sentBy end_.peer log) :
    Ordered end_ (log ++ [.reported end_ closure]) := by
  have hn : .closed end_ ∉ log ++ [PairEvent.reported end_ closure] := by simp [hc]
  have hs : sentBy end_.peer (log ++ [.reported end_ closure]) = sentBy end_.peer log := by
    simp [sentBy, PairEvent.sentBy]
  refine ⟨?_, fun before found after hl => ?_, fun before after hl => ?_⟩
  · have hre : receivedBy end_ [(.reported end_ closure : PairEvent φ)] = [] := rfl
    rw [receivedBy_append, hs, ha, hre, List.append_nil]
  · rcases concat_eq_append_cons.mp hl with ⟨rfl, -, rfl⟩ | ⟨middle, -, hb⟩
    · exact ⟨by rw [hs, ha], hp, hn, rfl, hr, rfl⟩
    · rw [hb] at hr
      simp [reportedTo, PairEvent.reportedTo] at hr
  · rw [hl] at hn
    exact absurd (List.mem_append_right before List.mem_cons_self) hn

end Log

/-! ### The queue -/

namespace InProcessPair

variable {options : InProcessOptions} {format : FrameFormat φ} {structured : φ → Except Thrown φ}
  {self next : InProcessPair φ} {end_ : PairEnd}

def Queued (pair : InProcessPair φ) (end_ : PairEnd) (waiting : List (Microtask φ))
    (frames : List φ) : Prop :=
  pair.isOpen end_.peer = true ∧ waiting = frames.map (.frame end_) ∨
    pair.isOpen end_.peer = false ∧ .closed end_.peer ∈ pair.log ∧ ∃ code reason,
      waiting = frames.map (.frame end_) ++ [.closure end_ code reason]

variable {reason : Option JsString} {frames : List φ} {event : PairEvent φ} {task : Microtask φ}
  {target : PairEnd} {code : Nat} {frame : φ}

theorem Queued.mono {waiting : List (Microtask φ)} (h : self.Queued end_ waiting frames)
    (hp : next.isOpen end_.peer = self.isOpen end_.peer) (hl : self.log ⊆ next.log) :
    next.Queued end_ waiting frames := by
  unfold Queued at h ⊢
  rw [hp]
  exact h.imp_right fun he => ⟨he.1, hl he.2.1, he.2.2⟩

structure Waits (pair : InProcessPair φ) (end_ : PairEnd) (frames : List φ) : Prop where
  account : receivedBy end_ pair.log ++ frames = sentBy end_.peer pair.log
  queue : pair.Queued end_ (waitingFor end_ pair.tasks) frames

structure Tracks (pair : InProcessPair φ) (end_ : PairEnd) : Prop where
  open_iff : pair.isOpen end_ = true ↔ .closed end_ ∉ pair.log ∧ reportedTo end_ pair.log = []
  waits : pair.isOpen end_ = true → ∃ frames, pair.Waits end_ frames
  ordered : Ordered end_ pair.log

theorem start_tracks : Tracks (start : InProcessPair φ) end_ :=
  ⟨by simp [isOpen, start, reportedTo], fun _ => ⟨[], rfl, .inl ⟨rfl, rfl⟩⟩,
    ordered_of_live List.not_mem_nil rfl (List.prefix_refl _)⟩

theorem Tracks.foreign (h : self.Tracks end_) (hf : event.Foreign end_)
    (hl : next.log = self.log ++ [event]) (ho : next.isOpen end_ = self.isOpen end_)
    (hp : next.isOpen end_.peer = self.isOpen end_.peer ∨ self.isOpen end_ = false)
    (ht : self.isOpen end_ = true → waitingFor end_ next.tasks = waitingFor end_ self.tasks) :
    next.Tracks end_ := by
  obtain ⟨hif, hw, hor⟩ := h
  refine ⟨?_, fun hn => ?_, hl ▸ hor.foreign hf⟩
  · rwa [ho, hl, mem_closed_foreign hf, reportedTo_foreign hf]
  · rw [ho] at hn
    obtain ⟨frames, hfr, hq⟩ := hw hn
    refine ⟨frames, ?_, ht hn ▸ hq.mono (by grind) (by grind)⟩
    rwa [hl, receivedBy_foreign hf, sentBy_foreign hf]

theorem Tracks.dropped (h : self.Tracks end_) (ht : self.tasks = task :: next.tasks)
    (hc : self.isOpen task.target = false) (ho : ∀ e, next.isOpen e = self.isOpen e)
    (hl : next.log = self.log) : next.Tracks end_ := by
  obtain ⟨hif, hw, hor⟩ := h
  refine ⟨by rwa [ho, hl], fun hn => ?_, hl ▸ hor⟩
  rw [ho] at hn
  have hot : task.target ≠ end_ := by grind
  obtain ⟨frames, ha, hq⟩ := hw hn
  rw [ht, waitingFor_cons_other hot] at hq
  exact ⟨frames, hl ▸ ha, hq.mono (ho _) (by simp [hl])⟩

theorem Tracks.live (h : self.Tracks end_) (how : self.isOpen end_ = true)
    (ho : next.isOpen end_ = true) (hl : next.log = self.log ++ [event])
    (hc : event ≠ .closed end_) (hr : event.reportedTo end_ = none)
    (hw : next.Waits end_ frames) : next.Tracks end_ := by
  obtain ⟨hnot, hnon⟩ := h.open_iff.mp how
  have hno : .closed end_ ∉ next.log := by simp [hl, hnot, hc.symm]
  have hn : reportedTo end_ next.log = [] := by
    rw [hl, reportedTo_append, hnon]
    simp [reportedTo, hr]
  exact ⟨iff_of_true ho ⟨hno, hn⟩, fun _ => ⟨frames, hw⟩,
    ordered_of_live hno hn ⟨frames, hw.account⟩⟩

theorem Tracks.sent (h : self.Tracks end_) {sender : PairEnd} (how : self.isOpen sender = true)
    (hp : self.isOpen sender.peer = true)
    (ht : next.tasks = self.tasks ++ [.frame sender.peer frame])
    (ho : ∀ e, next.isOpen e = self.isOpen e)
    (hl : next.log = self.log ++ [.sent sender frame]) : next.Tracks end_ := by
  rcases PairEnd.eq_or_eq_peer end_ sender with rfl | rfl
  · refine h.foreign ⟨?_, rfl, rfl, by simp⟩ hl (ho _) (.inl (ho _)) fun _ => ?_
    · exact if_neg (PairEnd.peer_ne _).symm
    · simp [ht, waitingFor, Microtask.target, PairEnd.peer_ne]
  · rw [PairEnd.peer_peer] at hp ht
    obtain ⟨frames, ha, hq⟩ := h.waits hp
    have hw : next.Waits end_ (frames ++ [frame]) := by
      refine ⟨?_, .inl ⟨by rw [ho, how], ?_⟩⟩
      · grind [receivedBy_append, sentBy_append, receivedBy, sentBy, PairEvent.receivedBy,
          PairEvent.sentBy]
      · rcases hq with ⟨-, hq⟩ | ⟨he, -⟩
        · rw [ht, waitingFor_append, hq]
          simp [waitingFor, Microtask.target]
        · grind
    exact h.live hp (by rw [ho, hp]) hl (by simp) rfl hw

theorem Tracks.closed (h : self.Tracks end_) {closer : PairEnd} (how : self.isOpen closer = true)
    (ht : next.tasks = self.tasks ++
      if self.isOpen closer.peer then [.closure closer.peer code reason] else [])
    (he : next.isOpen closer = false)
    (hs : next.isOpen closer.peer = self.isOpen closer.peer)
    (hl : next.log = self.log ++ [.closed closer]) : next.Tracks end_ := by
  rcases PairEnd.eq_or_eq_peer end_ closer with rfl | rfl
  · obtain ⟨hno, hn⟩ := h.open_iff.mp how
    exact ⟨by simp [he, hl], by grind, hl ▸ ordered_closed hno hn h.ordered.inOrder⟩
  · rw [PairEnd.peer_peer] at ht hs
    have hf : (PairEvent.closed end_.peer : PairEvent φ).Foreign end_ :=
      ⟨rfl, rfl, rfl, by simp [PairEnd.peer_ne]⟩
    by_cases ho : self.isOpen end_ = true
    · obtain ⟨frames, ha, hq⟩ := h.waits ho
      have hw : next.Waits end_ frames := by
        refine ⟨?_, .inr ⟨he, by simp [hl], code, reason, ?_⟩⟩
        · rwa [hl, receivedBy_foreign hf, sentBy_foreign hf]
        · rcases hq with ⟨-, hq⟩ | ⟨hend, -⟩
          · rw [ht, if_pos ho, waitingFor_append, hq]
            simp [waitingFor, Microtask.target]
          · grind
      exact h.live ho (by rw [hs, ho]) hl hf.closed rfl hw
    · exact h.foreign hf hl hs (.inr (by simpa using ho)) fun htr => absurd htr ho

theorem Waits.head {tasks : List (Microtask φ)} (h : self.Waits end_ frames)
    (hta : self.tasks = task :: tasks) (ht : task.target = end_) :
    (∃ frame rest, frames = frame :: rest ∧ task = .frame end_ frame ∧
        self.Queued end_ (waitingFor end_ tasks) rest) ∨
      frames = [] ∧ (∃ code reason, task = .closure end_ code reason) ∧
        self.isOpen end_.peer = false ∧ .closed end_.peer ∈ self.log := by
  have hq := h.queue
  rw [hta, waitingFor_cons_self ht] at hq
  cases frames <;> grind [Queued]

theorem Tracks.received (h : self.Tracks end_) (how : self.isOpen target = true)
    (ht : self.tasks = .frame target frame :: next.tasks)
    (ho : ∀ e, next.isOpen e = self.isOpen e)
    (hl : next.log = self.log ++ [.received target frame]) : next.Tracks end_ := by
  rcases PairEnd.eq_or_eq_peer end_ target with rfl | rfl
  · obtain ⟨frames, hw⟩ := h.waits how
    obtain ⟨_, rest, rfl, hf, hq⟩ | ⟨-, ⟨_, _, hc⟩, -⟩ := hw.head ht rfl
    · cases hf
      have hr : next.Waits target rest := by
        refine ⟨?_, hq.mono (ho _) (by simp [hl])⟩
        rw [hl, receivedBy_append, sentBy_append, ← hw.account]
        simp [receivedBy, sentBy, PairEvent.receivedBy, PairEvent.sentBy]
      exact h.live how (by rw [ho, how]) hl (by simp) rfl hr
    · cases hc
  · have hot : (Microtask.frame end_.peer frame).target ≠ end_ := end_.peer_ne
    refine h.foreign ⟨rfl, ?_, rfl, by simp⟩ hl (ho _) (.inl (ho _)) fun _ => ?_
    · exact if_neg (PairEnd.peer_ne _)
    · rw [ht, waitingFor_cons_other hot]

theorem Tracks.reported (h : ∀ e, self.Tracks e) (ho : self.isOpen target = true)
    (hta : self.tasks = .closure target code reason :: next.tasks)
    (he : next.isOpen target = false)
    (hs : next.isOpen target.peer = self.isOpen target.peer)
    (hl : next.log = self.log ++ [.reported target (.closed (some code) reason)]) :
    next.Tracks end_ := by
  obtain ⟨frames, hw⟩ := (h target).waits ho
  obtain ⟨_, _, -, hf, -⟩ | ⟨rfl, -, hp, hc⟩ := hw.head hta rfl
  · cases hf
  have ha := hw.account
  rw [List.append_nil] at ha
  rcases PairEnd.eq_or_eq_peer end_ target with rfl | rfl
  · obtain ⟨hnot, hno⟩ := (h _).open_iff.mp ho
    refine ⟨?_, fun hn => ?_, ?_⟩
    · rw [he, hl]
      simp [reportedTo, PairEvent.reportedTo]
    · rw [he] at hn
      cases hn
    · rw [hl]
      exact ordered_reported hnot hno hc ha
  · rw [PairEnd.peer_peer] at hp hs
    refine (h end_).foreign ⟨rfl, rfl, ?_, by simp⟩ hl hs (.inr hp) fun ht => ?_
    · exact if_neg (PairEnd.peer_ne _)
    · rw [hp] at ht
      cases ht

theorem Tracks.step {call : PairCall φ} (hli : self.Listening) (h : ∀ e, self.Tracks e)
    (hst : self.step options format structured call = some next) : next.Tracks end_ := by
  cases step_moves hli hst with
  | idle hsa => exact hsa ▸ h end_
  | dropped task ht hc hop hl => exact (h end_).dropped ht hc hop hl
  | sent sender frame ho hp ht hop hl =>
    exact (h end_).sent ho hp ht hop hl
  | closed closer code reason ho ht he hs hl =>
    exact (h end_).closed ho ht he hs hl
  | received target frame ho ht hop hl =>
    exact (h end_).received ho ht hop hl
  | reported target code reason ho ht he hs hl =>
    exact Tracks.reported h ho ht he hs hl

theorem run_tracks {calls : List (PairCall φ)} {pair : InProcessPair φ}
    (hr : Machine.run (step options format structured) start calls = some pair) :
    ∀ e, pair.Tracks e := by
  have hst : (start : InProcessPair φ).Listening ∧ ∀ e, (start : InProcessPair φ).Tracks e :=
    ⟨fun _ _ => ⟨rfl, rfl⟩, fun _ => start_tracks⟩
  refine (Machine.run_invariant (fun pair => pair.Listening ∧ ∀ e, pair.Tracks e) ?_ hst hr).2
  rintro state call after ⟨hl, ht⟩ hs
  exact ⟨hl.step hs, fun e => Tracks.step hl ht hs⟩

/-! ### Deliveries -/

theorem Waits.framesFor_eq (h : self.Waits end_ frames) : framesFor end_ self.tasks = frames := by
  have hf : (frames.map (Microtask.frame end_)).filterMap Microtask.frame? = frames := by
    rw [List.filterMap_map]
    exact List.filterMap_some
  unfold framesFor
  rcases h.queue with ⟨-, hw⟩ | ⟨-, -, code, reason, hw⟩
  · rw [hw, hf]
  · rw [hw, List.filterMap_append, hf]
    exact List.append_nil frames

end InProcessPair

variable {log : List (PairEvent φ)} {end_ : PairEnd}

theorem exists_reported (h : reportedTo end_ log ≠ []) :
    ∃ before closure after, log = before ++ .reported end_ closure :: after := by
  obtain ⟨closure, hc⟩ := List.exists_mem_of_ne_nil _ h
  obtain ⟨event, hev, hf⟩ := List.mem_filterMap.mp hc
  obtain ⟨before, after, hl⟩ := List.append_of_mem hev
  refine ⟨before, closure, after, ?_⟩
  cases event <;> grind [PairEvent.reportedTo]

theorem Ordered.reported_once (h : Ordered end_ log) (hre : reportedTo end_ log ≠ []) :
    receivedBy end_ log = sentBy end_.peer log ∧ (reportedTo end_ log).length = 1 := by
  obtain ⟨before, closure, after, hl⟩ := exists_reported hre
  obtain ⟨hal, -, -, hr, hb, ha⟩ := h.closure before closure after hl
  have hev : receivedBy end_ (.reported end_ closure :: after) = receivedBy end_ after := rfl
  have hc : reportedTo end_ (.reported end_ closure :: after) =
      closure :: reportedTo end_ after := by
    simp [reportedTo, PairEvent.reportedTo]
  constructor
  · rw [← hal, hl, receivedBy_append, hev, hr, List.append_nil]
  · rw [hl, reportedTo_append, hb, hc, ha]
    rfl

/-- What the listeners of an end make of a run: its log is in order; while the end is open, nothing
that was sent to it is lost; it reports one closure at most; and once no microtask is left, an end
that did not close itself was given everything and has reported the closure of the other end. -/
structure InProcessPair.Delivers (pair : InProcessPair φ) (end_ : PairEnd) : Prop where
  ordered : Ordered end_ pair.log
  open_iff : pair.isOpen end_ = true ↔ .closed end_ ∉ pair.log ∧ reportedTo end_ pair.log = []
  complete : pair.isOpen end_ = true →
    receivedBy end_ pair.log ++ framesFor end_ pair.tasks = sentBy end_.peer pair.log
  once : (reportedTo end_ pair.log).length ≤ 1
  drained : pair.tasks = [] → .closed end_ ∉ pair.log →
    receivedBy end_ pair.log = sentBy end_.peer pair.log ∧
      (.closed end_.peer ∈ pair.log → (reportedTo end_ pair.log).length = 1)

/-- The order of deliveries, in every run of a pair. -/
theorem InProcessPair.run_delivers_in_order {options : InProcessOptions} {format : FrameFormat φ}
    {structured : φ → Except Thrown φ} {calls : List (PairCall φ)} {pair : InProcessPair φ}
    (hrun : Machine.run (step options format structured) start calls = some pair)
    (end_ : PairEnd) : pair.Delivers end_ := by
  have ht := run_tracks hrun
  obtain ⟨hop, hw, ho⟩ := ht end_
  refine ⟨ho, hop, fun htr => ?_, ?_, fun hta hc => ?_⟩
  · obtain ⟨frames, hf⟩ := hw htr
    rw [hf.framesFor_eq]
    exact hf.account
  · by_cases hn : reportedTo end_ pair.log = []
    · rw [hn]
      exact Nat.zero_le 1
    · exact (ho.reported_once hn).2.le
  · by_cases hn : reportedTo end_ pair.log = []
    · obtain ⟨frames, ha, hq⟩ := hw (hop.mpr ⟨hc, hn⟩)
      have he : waitingFor end_ pair.tasks = [] := by rw [hta]; rfl
      rw [he] at hq
      rcases hq with ⟨hp, hf⟩ | ⟨-, -, code, reason, hf⟩
      · have hni : frames = [] := List.map_eq_nil_iff.mp hf.symm
        rw [hni, List.append_nil] at ha
        exact ⟨ha, fun hen => absurd hen ((ht end_.peer).open_iff.mp hp).1⟩
      · exact absurd hf (by simp)
    · obtain ⟨hal, hl⟩ := ho.reported_once hn
      exact ⟨hal, fun _ => hl⟩

def numberStep : InProcessPair Nat → PairCall Nat → Option (InProcessPair Nat) :=
  InProcessPair.step ⟨some false, none⟩
    ⟨fun _ => "", fun _ => .ok [], fun _ _ => .ok 0, fun _ _ => 0⟩
    .ok

def farewellCalls : List (PairCall Nat) :=
  [.send .a 1, .send .a 2, .task, .send .b 3, .close .a 4000 none, .task, .task, .task]

theorem run_delivers_farewell :
    ∃ pair, Machine.run numberStep .start farewellCalls = some pair ∧
      receivedBy .b pair.log = [1, 2] ∧ (reportedTo .b pair.log).length = 1 := by
  obtain ⟨pair, hr, ht, hs, ho, hp⟩ :
      ∃ pair, Machine.run numberStep .start farewellCalls = some pair ∧ pair.tasks = [] ∧
        sentBy .a pair.log = [1, 2] ∧ .closed .b ∉ pair.log ∧ .closed .a ∈ pair.log :=
    Machine.exists_run (by decide)
  obtain ⟨ha, hre⟩ := (InProcessPair.run_delivers_in_order hr .b).drained ht ho
  exact ⟨pair, hr, ha.trans hs, hre hp⟩

end MangoProtocol.TypeScript
