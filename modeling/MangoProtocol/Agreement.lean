import MangoProtocol.Codec.Limits
import MangoProtocol.Pair
import MangoProtocol.Session.Introduction

/-! The handshake of two sessions.  Each takes the hello that the other built, so both come to the
same minor and the same limit, or both refuse; and what one may send within that limit, the port of
the other can take. -/

namespace MangoProtocol

open ProofKit

variable {H : Type}

/-- The hello that a frame is. -/
def Frame.greeting : Frame → Option Hello
  | .hello built => some built
  | _ => none

namespace Pair

variable {configs : Side → Config} {handlers : Side → List (String × H)}
  {pair next : Pair H} {side : Side} {label : Label H} {labels : List (Side × Label H)}

/-! ### One hello each -/

def Introduced (configs : Side → Config) (pair : Pair H) (side : Side) : Prop :=
  ∀ hello ∈ (pair side).inbound.sent.filterMap (carried Frame.greeting),
    hello = buildHello (configs side.other)

variable {own other : ProtocolVersion} {move : Side × Label H} {session : Session H}
  {final : Pair H} {config : Config} {mover : Side} {hello : Hello}

theorem Introduced.eq (h : Introduced configs pair side)
    (hs : some (.frame (.hello hello)) ∈ (pair side).inbound.sent) :
    hello = buildHello (configs side.other) :=
  h hello (List.mem_filterMap.mpr ⟨_, hs, rfl⟩)

theorem delivers_greeting (hp : session.Plain)
    (h : (session.delivers config label).bind Frame.greeting = some hello) :
    hello = buildHello config := by
  obtain ⟨frame, hf, hg⟩ := Option.bind_eq_some_iff.mp h
  cases frame with
  | hello sent =>
    cases hg
    cases label with
    | api step => cases hf
    | driver step => grind [Session.delivers]
    | port step =>
      cases step with
      | arrive item => cases hf
      | transmit outcome =>
        cases outcome with
        | sent =>
          exact absurd (Channel.waiting_subset_sent _ (List.mem_of_head? hf))
            (hp.frames hello)
        | closed | refused => cases hf
  | _ => cases hg

/-- What holds of each side of a pair as it was opened and after every step. -/
structure Acquainted (configs : Side → Config) (pair : Pair H) (side : Side) : Prop where
  reachable : (pair side).Reachable (configs side)
  plain : (pair side).Plain
  introduced : Introduced configs pair side
  concluded : (pair side).TookHello →
    (pair side).Concluded (configs side) (buildHello (configs side.other))

theorem Acquainted.agreed (h : Acquainted configs pair side) :
    (pair side).Agreed (configs side) := by
  obtain ⟨handlers, labels, hr⟩ := h.reachable
  exact (Session.run_greeted hr).agreed

theorem Acquainted.moves {own : Label H} (h : Acquainted configs pair side)
    (hs : (pair side).step (configs side) own = some (next side))
    (hi : Introduced configs next side) : Acquainted configs next side := by
  refine ⟨h.reachable.step hs, h.plain.step hs, hi, ?_⟩
  refine Session.TookHello.concluded h.agreed h.concluded (fun hello hr => ?_) hs
  exact hi.eq (Channel.mem_sent_of_mem_received hr)

theorem Acquainted.step (h : ∀ side, Acquainted configs pair side)
    (hst : step configs pair (mover, label) = some next) (side : Side) :
    Acquainted configs next side := by
  obtain ⟨hm, ha, hl⟩ := step_eq_some hst
  rcases side.eq_or_eq_other mover with rfl | rfl
  · refine (h side).moves hm ?_
    unfold Introduced
    rw [step_carried hm hl]
    exact (h side).introduced
  · have hi : Introduced configs next mover.other := by
      intro hello hh
      rw [ha, accept_carried] at hh
      rcases List.mem_append.mp hh with hold | hn
      · exact (h mover.other).introduced hello hold
      · rw [Side.other_other]
        exact delivers_greeting (h mover).plain (Option.mem_toList.mp hn)
    rcases accept_step (configs mover.other) (pair mover.other)
      ((pair mover).delivers (configs mover) label) with hsa | ⟨own, ho⟩
    · rw [hsa] at ha
      have hs := h mover.other
      exact ⟨ha ▸ hs.reachable, ha ▸ hs.plain, hi,
        ha ▸ hs.concluded⟩
    · rw [← ha] at ho
      exact (h mover.other).moves ho hi

theorem initial_acquainted (side : Side) : Acquainted configs (initial handlers) side := by
  refine ⟨⟨handlers side, [], rfl⟩, ⟨?_, ?_⟩, ?_, ?_⟩
  · exact fun _ hc => absurd hc List.not_mem_nil
  · exact fun _ => List.not_mem_nil
  · exact fun _ hh => absurd hh List.not_mem_nil
  · rintro ⟨hello, hr⟩
    exact absurd hr List.not_mem_nil

theorem run_acquainted (hr : Machine.run (step configs) (initial handlers) labels = some pair)
    (side : Side) : Acquainted configs pair side := by
  refine Machine.run_invariant (fun pair => ∀ side, Acquainted configs pair side) ?_
    initial_acquainted hr side
  rintro pair ⟨mover, label⟩ next h hs
  exact Acquainted.step h hs

/-! ### The handshake alone -/

/-- The steps of the handshake itself: the greeting goes out, and an item is taken from the port. -/
def IsHandshake : Label H → Prop
  | .driver (.greet .sent) | .driver (.inbound _) => True
  | _ => False

/-- How far the handshake of a side is: its hello is with the other side once it has greeted, and
its loop runs until it takes something. -/
structure Underway (configs : Side → Config) (pair : Pair H) (side : Side) : Prop where
  handed : (pair side).phase = .greeting ∧ (pair side.other).inbound.sent = [] ∨
    (pair side).phase ≠ .greeting ∧
      (pair side.other).inbound.sent = [some (.frame (.hello (buildHello (configs side))))]
  looping : (pair side).inbound.received = [] → (pair side).phase.looping = true

theorem initial_underway (side : Side) : Underway configs (initial handlers) side :=
  ⟨.inl ⟨rfl, rfl⟩, fun _ => rfl⟩

def Presentable (configs : Side → Config) : Prop :=
  ∀ side, ∃ bytes, encodeFrameBytes (configs side).platform (.hello (buildHello (configs side)))
    (min (configs side).localMaxFrameBytes defaultMaxFrameBytes) = .ok bytes

theorem greet_sent {bytes : List UInt8} (hr : session.shared.remote = none)
    (hf : encodeFrameBytes config.platform (.hello (buildHello config))
      (min config.localMaxFrameBytes defaultMaxFrameBytes) = .ok bytes) :
    session.greet config .sent = { session with phase := .running } ∧
      session.delivers config (.driver (.greet .sent)) = some (.hello (buildHello config)) := by
  have ha : session.shared.assertFits config (.hello (buildHello config)) "The hello" =
      .ok () := by
    refine Shared.assertFits_eq_ok.mpr ⟨bytes, ?_⟩
    rw [Shared.sendLimitBytes, hr]
    exact hf
  grind [Session.greet, refusedHello, Session.delivers]

theorem Underway.greet (hpr : Presentable configs)
    (hag : (pair mover).Agreed (configs mover)) (h : ∀ side, Underway configs pair side)
    (hs : step configs pair (mover, .driver (.greet .sent)) = some next) (side : Side) :
    Underway configs next side := by
  obtain ⟨hm, ha, -⟩ := step_eq_some hs
  cases Session.step_move hm with | driver _ _ move =>
  generalize ho : next mover = own at move
  cases move with | greet _ hp =>
  obtain ⟨bytes, hb⟩ := hpr mover
  obtain ⟨hg, hd⟩ := greet_sent (hag.handshaking (hag.greeting hp)) hb
  rw [hg] at ho
  rw [hd] at ha
  rcases side.eq_or_eq_other mover with rfl | rfl
  · refine ⟨.inr ⟨by rw [ho]; nofun, ?_⟩, fun _ => by rw [ho]; rfl⟩
    rcases (h side).handed with ⟨-, he⟩ | ⟨hpa, -⟩
    · rw [ha, Session.accept, Channel.sent_send, he]
      rfl
    · exact absurd hp hpa
  · obtain ⟨handed, looping⟩ := h mover.other
    rw [Side.other_other] at handed
    refine ⟨?_, ?_⟩
    · rw [Side.other_other, ho, ha]
      exact handed
    · grind [Session.accept, Channel.received_send]

theorem Underway.take {call : HandlerCall} (h : ∀ side, Underway configs pair side)
    (hst : step configs pair (mover, .driver (.inbound call)) = some next) (side : Side) :
    Underway configs next side := by
  obtain ⟨hm, hac, -⟩ := step_eq_some hst
  have ho : next mover.other = pair mover.other := hac
  have ha := (Session.step_samePort hm fun _ => nofun).arrived
  cases Session.step_move hm with | driver _ _ move =>
  generalize how : next mover = own at move ha
  cases move with | inbound _ item inbound hph _ hre =>
  rcases side.eq_or_eq_other mover with rfl | rfl
  · have hp : (pair side).phase ≠ .greeting := by
      rw [hph]
      nofun
    refine ⟨.inr ⟨Session.step_ne_greeting hp hm, ?_⟩, fun hr => ?_⟩
    · rcases (h side).handed with ⟨hg, -⟩ | ⟨-, hs⟩
      · exact absurd hg hp
      · rw [ho, hs]
    · rw [how, Session.onInbound_inbound, Channel.recv_received hre] at hr
      simp at hr
  · obtain ⟨handed, looping⟩ := h mover.other
    rw [Side.other_other] at handed
    refine ⟨?_, by rw [ho]; exact looping⟩
    rw [Side.other_other, how, ho, ha]
    exact handed

/-- A pair in its handshake, as all runs from its opening leave it. -/
structure Meeting (configs : Side → Config) (pair : Pair H) : Prop where
  acquainted : ∀ side, Acquainted configs pair side
  underway : ∀ side, Underway configs pair side

theorem Meeting.step (hp : Presentable configs) (h : Meeting configs pair)
    (hm : IsHandshake move.2) (hs : step configs pair move = some next) :
    Meeting configs next := by
  obtain ⟨mover, label⟩ := move
  refine ⟨Acquainted.step h.acquainted hs, ?_⟩
  match label, hm with
  | .driver (.greet .sent), _ =>
    exact Underway.greet hp (h.acquainted mover).agreed h.underway hs
  | .driver (.inbound call), _ => exact Underway.take h.underway hs

def Meets (configs : Side → Config) (pair final : Pair H) : Prop :=
  ∃ labels, Machine.run (step configs) pair labels = some final ∧
    ∀ label ∈ labels, IsHandshake label.2

theorem Meets.refl (pair : Pair H) : Meets configs pair pair :=
  ⟨[], rfl, fun _ hl => absurd hl List.not_mem_nil⟩

theorem Meets.single (hs : step configs pair move = some next) (hm : IsHandshake move.2) :
    Meets configs pair next :=
  ⟨[move], Machine.run_cons.mpr ⟨next, hs, rfl⟩, fun _ hl =>
    List.mem_singleton.mp hl ▸ hm⟩

theorem Meets.trans (h : Meets configs pair next) (hn : Meets configs next final) :
    Meets configs pair final := by
  obtain ⟨labels, hr, hl⟩ := h
  obtain ⟨more, hm, hre⟩ := hn
  refine ⟨labels ++ more, Machine.run_append.mpr ⟨next, hr, hm⟩, fun label hla => ?_⟩
  grind

theorem Meets.meeting (hpr : Presentable configs) (h : Meets configs pair final)
    (hp : Meeting configs pair) : Meeting configs final := by
  obtain ⟨labels, hr, hl⟩ := h
  induction labels generalizing pair with
  | nil =>
    cases hr
    exact hp
  | cons move labels ih =>
    obtain ⟨between, hs, hre⟩ := Machine.run_cons.mp hr
    exact ih (hp.step hpr (hl move List.mem_cons_self) hs) hre
      fun label hla => hl label (List.mem_cons_of_mem _ hla)

theorem step_driver {driver : DriverStep} {after : Session H}
    (ho : (pair side).step (configs side) (.driver driver) = some after) :
    ∃ next, step configs pair (side, .driver driver) = some next ∧ next side = after := by
  have hs : step configs pair (side, .driver driver) =
      some (Function.update (Function.update pair side after) side.other
        ((pair side.other).accept ((pair side).delivers (configs side) (.driver driver)))) := by
    simp only [step, ho, Option.map_some]
  exact ⟨_, hs, Option.some.inj ((step_eq_some hs).1.symm.trans ho)⟩

theorem exists_greeted (pair : Pair H) (side : Side) :
    ∃ next, Meets configs pair next ∧ (next side).phase ≠ .greeting := by
  by_cases hp : (pair side).phase = .greeting
  · have ho : (pair side).step (configs side) (.driver (.greet .sent)) =
        some ((pair side).greet (configs side) .sent) := by
      rw [Session.step, Session.driverStep, hp]
    obtain ⟨next, hs, hn⟩ := step_driver ho
    refine ⟨next, .single hs trivial, ?_⟩
    rw [hn]
    exact (Session.greet_branched _ _).ne_greeting
  · exact ⟨pair, .refl pair, hp⟩

theorem exists_took (hpa : Meeting configs pair)
    (hg : ∀ side, (pair side).phase ≠ .greeting) (side : Side) :
    ∃ next, Meets configs pair next ∧ (next side).TookHello := by
  have hs : (pair side).inbound.sent =
      [some (.frame (.hello (buildHello (configs side.other))))] := by
    have hh := (hpa.underway side.other).handed
    rw [Side.other_other] at hh
    rcases hh with ⟨hgr, -⟩ | ⟨-, hs⟩
    · exact absurd hgr (hg side.other)
    · exact hs
  cases hr : (pair side).inbound.received with
  | cons item items =>
    have hi : item ∈ (pair side).inbound.received := by
      rw [hr]
      exact List.mem_cons_self
    have hhe := Channel.mem_sent_of_mem_received hi
    rw [hs, List.mem_singleton] at hhe
    exact ⟨pair, .refl pair, _, hhe ▸ hi⟩
  | nil =>
    have hp : (pair side).phase = .running := by
      have hl := (hpa.underway side).looping hr
      cases hp : (pair side).phase with
      | greeting => exact absurd hp (hg side)
      | running => rfl
      | closing | finished | crashed =>
        rw [hp] at hl
        cases hl
    have hw : (pair side).inbound.waiting =
        [some (.frame (.hello (buildHello (configs side.other))))] := by
      rw [← hs, ← Channel.received_append_waiting, hr, List.nil_append]
    obtain ⟨inbound, hre, -⟩ := Channel.recv_of_waiting hw
    have hf : (pair side).freshCall .panic = true := rfl
    obtain ⟨next, hst, hn⟩ := step_driver (Session.step_inbound hp hf hre)
    refine ⟨next, .single hst trivial, buildHello (configs side.other), ?_⟩
    rw [hn, Session.onInbound_inbound, Channel.recv_received hre]
    exact List.mem_append_right _ (List.mem_singleton_self _)

theorem Meets.keeps {holds : Session H → Prop} (hk : ∀ side session label next,
      session.step (configs side) label = some next → holds session → holds next)
    (h : Meets configs pair final) (hh : holds (pair side)) : holds (final side) := by
  obtain ⟨labels, hr, -⟩ := h
  refine Machine.run_invariant (fun pair : Pair H => holds (pair side)) ?_ hh hr
  intro pair move next hp hs
  rcases step_side hs side with heq | ⟨own, ho⟩
  · rw [heq]
    exact hp
  · exact hk side _ _ _ ho hp

theorem Meeting.completes (hp : Presentable configs) (h : Meeting configs pair) :
    ∃ final, Meets configs pair final ∧ ∀ side, (final side).TookHello := by
  have greeted {pair final : Pair H} (hm : Meets configs pair final) (side : Side)
      (hph : (pair side).phase ≠ .greeting) : (final side).phase ≠ .greeting :=
    hm.keeps (fun _ _ _ _ hst hb => Session.step_ne_greeting hb hst) hph
  have took {pair final : Pair H} (hm : Meets configs pair final) (side : Side)
      (hh : (pair side).TookHello) : (final side).TookHello :=
    hm.keeps (fun _ _ _ _ hst hb => hb.step hst) hh
  obtain ⟨first, hfi, hl⟩ := exists_greeted pair .left
  obtain ⟨second, hs, hr⟩ := exists_greeted first .right
  have hme := (hfi.trans hs).meeting hp h
  have hg : ∀ side, (second side).phase ≠ .greeting
    | .left => greeted hs .left hl
    | .right => hr
  obtain ⟨third, ht, hl⟩ := exists_took hme hg .left
  obtain ⟨final, hf, hr⟩ := exists_took (ht.meeting hp hme)
    (fun side => greeted ht side (hg side)) .right
  refine ⟨final, ((hfi.trans hs).trans ht).trans hf, ?_⟩
  intro side
  cases side with
  | left => exact took hf .left hl
  | right => exact hr

/-! ### What both sides come to -/

def commonLimit (configs : Side → Config) : Nat :=
  min (min (configs .left).localMaxFrameBytes (configs .right).localMaxFrameBytes)
    defaultMaxFrameBytes

theorem commonLimit_eq (configs : Side → Config) (side : Side) :
    commonLimit configs = min (configs side).localMaxFrameBytes
      (min (configs side.other).localMaxFrameBytes defaultMaxFrameBytes) := by
  cases side with
  | left => exact min_assoc _ _ _
  | right => exact (congrArg (min · _) (min_comm _ _)).trans (min_assoc _ _ _)

theorem sendLimitBytes_eq {shared : Shared H} {remote : RemotePeer}
    (hr : shared.remote = some remote)
    (hl : remote.limits = (buildHello (configs side.other)).limits) :
    shared.sendLimitBytes (configs side) = commonLimit configs := by
  have ha := announced_limit (configs side.other)
  rw [commonLimit_eq configs side, ← ha, ← hl, Shared.sendLimitBytes,
    Shared.remoteLimit, hr]
  grind

/-- A frame that a side puts on the wire after its preflight: its hello, or a frame that fits. -/
def Passes (config : Config) (session : Session H) (frame : Frame) : Prop :=
  frame = .hello (buildHello config) ∨ ∃ what, session.shared.assertFits config frame what = .ok ()

/-- What the sides of a pair have come to.  Of one major, a side that took the other's hello is
ready, at the lower minor and the common limit; of two majors, it refuses.  A side that is ready
took the hello, and what it then sends is not too large for the other's port. -/
structure Agreement (platforms : Side → Platform) (ports : Side → Option UInt64)
    (protocols : Side → ProtocolVersion) (configs : Side → Config) (pair : Pair H) : Prop where
  ready : (protocols .left).major = (protocols .right).major → ∀ side, (pair side).TookHello →
    ∃ remote, (pair side).shared.ready = some (.ok remote) ∧
      (pair side).shared.remote = some remote ∧
      ((pair side).phase = .running → (pair side).shared.state = .ready) ∧
      remote.effectiveMinor = min (protocols .left).minor (protocols .right).minor ∧
      (pair side).shared.sendLimitBytes (configs side) = commonLimit configs
  refused : (protocols .left).major ≠ (protocols .right).major → ∀ side, (pair side).TookHello →
    (pair side).shared.remote = none ∧
      (pair side).Ending (.localClose closeCodes.protocolMismatch
        (some "protocol version unsupported"))
  only : ∀ side, (pair side).shared.remote.isSome → (pair side).TookHello
  admitted : ∀ side, (pair side).shared.remote.isSome → ∀ frames,
    (∀ frame ∈ frames, Passes (configs side) (pair side) frame) →
    Admitted (platforms side) (platforms side.other) (portLimit (ports side))
      (portLimit (ports side.other)) frames

theorem negotiate_same (h : own.major = other.major) :
    negotiate own other = .compatible (min own.minor other.minor) := by
  rw [negotiate, if_neg (not_not.mpr h)]

theorem negotiate_differ (h : own.major ≠ other.major) :
    negotiate own other = .mismatch closeCodes.protocolMismatch := by
  rw [negotiate, if_pos h]

theorem lower_minor_comm (own other : UInt32) : min own other = min other own := by
  change (if own ≤ other then own else other) = if other ≤ own then other else own
  grind

theorem Acquainted.ready (h : Acquainted configs pair side)
    (hm : (configs side).localProtocol.major = (configs side.other).localProtocol.major)
    (ht : (pair side).TookHello) :
    ∃ remote, (pair side).shared.ready = some (.ok remote) ∧
      (pair side).shared.remote = some remote ∧
      ((pair side).phase = .running → (pair side).shared.state = .ready) ∧
      remote.effectiveMinor =
        min (configs side).localProtocol.minor (configs side.other).localProtocol.minor ∧
      (pair side).shared.sendLimitBytes (configs side) = commonLimit configs := by
  have hc := h.concluded ht
  have hn : negotiate (configs side).localProtocol
      (buildHello (configs side.other)).protocol = _ := negotiate_same hm
  unfold Session.Concluded at hc
  rw [hn] at hc
  refine ⟨_, (h.agreed.remote _).mp hc, hc, ?_, rfl, sendLimitBytes_eq hc rfl⟩
  intro hp
  cases hs : (pair side).shared.state with
  | ready => rfl
  | handshaking =>
    rw [h.agreed.handshaking hs] at hc
    cases hc
  | closed => exact absurd hs (h.agreed.opened (by rw [hp]; rfl))

theorem Acquainted.only (h : Acquainted configs pair side)
    (hre : (pair side).shared.remote.isSome) :
    (pair side).TookHello ∧
      (configs side).localProtocol.major = (configs side.other).localProtocol.major := by
  obtain ⟨hello, hr, hm⟩ := h.agreed.hello hre
  cases h.introduced.eq (Channel.mem_sent_of_mem_received hr)
  exact ⟨⟨_, hr⟩, hm.symm⟩

theorem Acquainted.refused (h : Acquainted configs pair side)
    (hm : (configs side).localProtocol.major ≠ (configs side.other).localProtocol.major)
    (ht : (pair side).TookHello) :
    (pair side).shared.remote = none ∧
      (pair side).Ending (.localClose closeCodes.protocolMismatch
        (some "protocol version unsupported")) := by
  have hc := h.concluded ht
  have hn : negotiate (configs side).localProtocol
      (buildHello (configs side.other)).protocol = _ := negotiate_differ hm
  unfold Session.Concluded at hc
  rw [hn] at hc
  exact ⟨Option.not_isSome_iff_eq_none.mp fun hr => hm (h.only hr).2, hc⟩

section Opening

variable {platforms : Side → Platform} {ports : Side → Option UInt64}
  {options : Side → SessionOptions H}

/-- Both sides open over their ports, whose ceilings an announcement can name, and their hellos are
valid frames that every port takes. -/
structure Openings (platforms : Side → Platform) (ports : Side → Option UInt64)
    (options : Side → SessionOptions H) (configs : Side → Config) : Prop where
  opened : ∀ side, openSession (platforms side) (ports side) (options side) = .ok (configs side)
  ceiling : ∀ side, portLimit (ports side) ≤ maxAnnouncedFrameBytes
  hello : ∀ side, ∃ bytes, encodeFrameBytes (platforms side)
    (.hello (buildHello (configs side))) minMaxFrameBytes = .ok bytes

theorem Openings.presentable (h : Openings platforms ports options configs) :
    Presentable configs := by
  intro side
  obtain ⟨bytes, hb⟩ := h.hello side
  rw [(openSession_opened (h.opened side)).platform]
  exact ⟨bytes, encodeFrameBytes_mono hb (le_min (configs side).frameFloor (by decide))⟩

theorem Openings.commonLimit_le (h : Openings platforms ports options configs) (side : Side) :
    commonLimit configs ≤ portLimit (ports side) := by
  refine le_trans ?_ (openSession_opened (h.opened side)).ceiling
  cases side with
  | left => exact min_le_min_right _ (min_le_left _ _)
  | right => exact min_le_min_right _ (min_le_right _ _)

theorem Openings.admitted (h : Openings platforms ports options configs)
    (hl : (pair side).shared.sendLimitBytes (configs side) = commonLimit configs)
    {frames : List Frame} (hfr : ∀ frame ∈ frames, Passes (configs side) (pair side) frame) :
    Admitted (platforms side) (platforms side.other) (portLimit (ports side))
      (portLimit (ports side.other)) frames := by
  have hbo (side : Side) : portLimit (ports side) ≤ 2 ^ 42 := (h.ceiling side).trans (by decide)
  have hp (frame : Frame) (hf : frame ∈ frames) (own : Side) : ∃ bytes,
      encodeFrameBytes (platforms side) frame (portLimit (ports own)) = .ok bytes := by
    rcases hfr frame hf with rfl | ⟨what, hfi⟩
    · obtain ⟨bytes, hb⟩ := h.hello side
      exact ⟨bytes, encodeFrameBytes_mono hb (openSession_opened (h.opened own)).floor⟩
    · obtain ⟨bytes, hb⟩ := Shared.assertFits_eq_ok.mp hfi
      rw [(openSession_opened (h.opened side)).platform, hl] at hb
      exact ⟨bytes, encodeFrameBytes_mono hb (h.commonLimit_le own)⟩
  refine admitted_of_within (hbo side) (hbo side.other)
    (fun frame hf => hp frame hf side) fun frame hf => ?_
  obtain ⟨bytes, hb⟩ := hp frame hf side.other
  exact (encodeFrameBytes_eq_ok.mp hb).2.2.1

/-- Both sides of a pair come to the same: of one major both are ready, at the lower minor and the
common limit, within which no port refuses a frame for its size; of two majors both refuse.  From
everywhere in a handshake that nothing else disturbs, it can go on until both took the hello. -/
theorem run_agreement (h : Openings platforms ports options configs)
    (hrun : Machine.run (step configs) (initial fun side => (options side).handlers) labels =
      some pair) :
    Agreement platforms ports (fun side => (options side).protocol) configs pair ∧
      ((∀ label ∈ labels, IsHandshake label.2) →
        ∃ final, Meets configs pair final ∧ ∀ side, (final side).TookHello) := by
  have hp (side : Side) : (options side).protocol = (configs side).localProtocol :=
    (openSession_opened (h.opened side)).protocol.symm
  have ha := run_acquainted hrun
  constructor
  · simp only [hp]
    refine ⟨fun hm side ht => ?_, fun hm side ht => ?_, fun side hr => ?_,
      fun side hr frames hf => ?_⟩
    · cases side with
      | left => exact (ha .left).ready hm ht
      | right =>
        obtain ⟨remote, hre, hr, hst, hmi, hl⟩ :=
          (ha .right).ready hm.symm ht
        exact ⟨remote, hre, hr, hst, hmi.trans (lower_minor_comm _ _), hl⟩
    · cases side with
      | left => exact (ha .left).refused hm ht
      | right => exact (ha .right).refused hm.symm ht
    · exact ((ha side).only hr).1
    · obtain ⟨ht, hm⟩ := (ha side).only hr
      obtain ⟨-, -, -, -, -, hl⟩ := (ha side).ready hm ht
      exact h.admitted hl hf
  · intro hla
    have hs : Meeting configs (initial fun side => (options side).handlers) :=
      ⟨initial_acquainted, initial_underway⟩
    have hme : Meets configs _ pair := ⟨labels, hrun, hla⟩
    exact (hme.meeting h.presentable hs).completes h.presentable

end Opening

/-! ### Small pairs -/

/-- What both sides below open with. -/
def sampleOptions (protocol : ProtocolVersion) (maxFrameBytes : Option UInt64) :
    SessionOptions Unit where
  peer := ⟨"clock", "1.0.0", "runtime"⟩
  capabilities := .empty
  protocol := protocol
  maxFrameBytes := maxFrameBytes
  maxInFlight := 256
  maxStreamKeys := 1024
  handshakeTimeout := 15000
  livenessInterval := some 20000
  requestIdPrefix := defaultRequestIdPrefix
  handlers := []

/-- The left side takes at most 5000 bytes for its port and speaks a later minor than the right. -/
def unequalConfigs : Side → Config
  | .left => { sampleConfig [] with
      localProtocol := ⟨1, 3⟩, localMaxFrameBytes := 5000, frameFloor := by decide,
      frameWord := by decide }
  | .right => { sampleConfig [] with
      localMaxFrameBytes := 20000000, frameFloor := by decide, frameWord := by decide }

def unequalPorts : Side → Option UInt64
  | .left => some 5000
  | .right => none

def unequalOptions : Side → SessionOptions Unit
  | .left => sampleOptions ⟨1, 3⟩ (some 8192)
  | .right => sampleOptions ⟨1, 1⟩ (some 20000000)

theorem unequal_openings :
    Openings (fun _ => tablePlatform []) unequalPorts unequalOptions unequalConfigs := by
  refine ⟨?_, ?_, ?_⟩
  · intro side
    cases side <;> rfl
  · intro side
    cases side <;> decide
  · intro side
    refine ⟨_, encodeFrameBytes_eq_ok.mpr ⟨le_rfl, ?_, ?_, rfl⟩⟩
    · cases side <;> rfl
    · cases side <;> decide +kernel

theorem run_agreement_unequal :
    ∃ final : Pair Unit,
      Meets unequalConfigs (initial fun side => (unequalOptions side).handlers) final ∧
      ∀ side, ∃ remote, (final side).shared.ready = some (.ok remote) ∧
        remote.effectiveMinor = 1 ∧
        (final side).shared.sendLimitBytes (unequalConfigs side) = 5000 := by
  have hs : Machine.run (step unequalConfigs)
      (initial fun side => (unequalOptions side).handlers) [] = some _ := rfl
  obtain ⟨final, hm, ht⟩ :=
    (run_agreement unequal_openings hs).2 fun _ hl => absurd hl List.not_mem_nil
  refine ⟨final, hm, fun side => ?_⟩
  obtain ⟨labels, hru, -⟩ := hm
  obtain ⟨remote, hr, -, -, hmi, hli⟩ :=
    (run_agreement unequal_openings hru).1.ready rfl side (ht side)
  exact ⟨remote, hr, hmi, hli⟩

def zeroConfig : Config := { sampleConfig [] with localProtocol := ⟨0, 0⟩ }

/-- Two sides of version 0.0 open, and in no run is one of them ready or does one refuse the version
of the other: each ends because its own hello cannot be sent. -/
theorem version_zero_unsent :
    openSession (tablePlatform []) none (sampleOptions ⟨0, 0⟩ (some 4096)) = .ok zeroConfig ∧
      ∀ (labels : List (Side × Label Unit)) (pair : Pair Unit),
        Machine.run (step fun _ => zeroConfig) (initial fun _ => []) labels = some pair →
        ∀ side, (pair side).shared.state ≠ .ready ∧
          ∀ reason, ¬(pair side).Ending (.localClose closeCodes.protocolMismatch reason) := by
  refine ⟨rfl, fun labels pair hru side => ?_⟩
  have hr : ∀ bytes, encodeFrameBytes zeroConfig.platform (.hello (buildHello zeroConfig))
      (min zeroConfig.localMaxFrameBytes defaultMaxFrameBytes) ≠ .ok bytes := by
    intro bytes hb
    obtain ⟨-, hv, -, -⟩ := encodeFrameBytes_eq_ok.mp hb
    cases hv
  have ha := run_acquainted hru side
  obtain ⟨hre, hp⟩ := ha.reachable.unsent hr
  constructor
  · intro hst
    have hs := ha.agreed.ready hst
    rw [hre] at hs
    cases hs
  · intro reason he
    rcases hp with ⟨hg, -⟩ | hu
    · rcases he with ⟨_, hc⟩ | ⟨_, hf⟩
      · cases hg.symm.trans hc
      · cases hg.symm.trans hf
    · have hco : closeCodes.released = closeCodes.protocolMismatch := hu.code_eq he
      exact absurd hco (by decide)

end Pair

end MangoProtocol
