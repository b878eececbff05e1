import MangoProtocol.Session.HandshakeRuns

/-! The hello of the other side: what a session announces in its own, and what follows when it takes
the one it is sent. -/

namespace MangoProtocol

open ProofKit

variable {H : Type} {config : Config}

/-! ### Limits -/

def portLimit (ceiling : Option UInt64) : Nat :=
  (ceiling.map UInt64.toNat).getD defaultMaxFrameBytes

variable {name : String} {floor : Nat}

theorem checkAtLeast_eq_ok {value : UInt64} {checked : AtLeast floor}
    (h : checkAtLeast name floor value = .ok checked) : checked.val = value := by
  unfold checkAtLeast at h
  split at h
  · cases h
    rfl
  · cases h

theorem mapM_checkAtLeast {value : Option UInt64} {checked : Option (AtLeast floor)}
    (h : value.mapM (checkAtLeast name floor) = .ok checked) : value = checked.map Subtype.val := by
  cases value with
  | none =>
    cases h
    rfl
  | some value =>
    change some <$> checkAtLeast name floor value = .ok checked at h
    cases hc : checkAtLeast name floor value with
    | error message =>
      rw [hc] at h
      cases h
    | ok one =>
      rw [hc] at h
      cases h
      rw [← checkAtLeast_eq_ok hc]
      rfl

theorem localCeiling_le_port (session port : Option (AtLeast minMaxFrameBytes)) :
    min (localCeiling session port) defaultMaxFrameBytes ≤ portLimit (port.map Subtype.val) := by
  match session, port with
  | some session, some port => exact (min_le_left _ _).trans (min_le_right _ _)
  | some only, none => exact min_le_right _ _
  | none, some only => exact min_le_left _ _
  | none, none => exact min_le_right _ _

theorem portLimit_ge (port : Option (AtLeast minMaxFrameBytes)) :
    minMaxFrameBytes ≤ portLimit (port.map Subtype.val) := by
  cases port with
  | none => decide
  | some port => exact port.property

structure Opened (platform : Platform) (port : Option UInt64) (options : SessionOptions H)
    (config : Config) : Prop where
  platform : config.platform = platform
  protocol : config.localProtocol = options.protocol
  floor : minMaxFrameBytes ≤ portLimit port
  ceiling : min config.localMaxFrameBytes defaultMaxFrameBytes ≤ portLimit port

theorem openSession_opened {platform : Platform} {port : Option UInt64} {options : SessionOptions H}
    (h : openSession platform port options = .ok config) : Opened platform port options config := by
  cases hs : options.maxFrameBytes.mapM (checkAtLeast "max_frame_bytes" minMaxFrameBytes) with
  | error message => simp [openSession, hs, bind, Except.bind] at h
  | ok sessionCeiling =>
  cases hp : port.mapM (checkAtLeast "port max_frame_bytes" minMaxFrameBytes) with
  | error message => simp [openSession, hs, hp, bind, Except.bind] at h
  | ok portCeiling =>
  cases hf : checkAtLeast "max_in_flight" minAnnouncedInFlight options.maxInFlight with
  | error message => simp [openSession, hs, hp, hf, bind, Except.bind] at h
  | ok maxInFlight =>
  cases hk : checkAtLeast "max_stream_keys" minOpenStreamKeys options.maxStreamKeys with
  | error message => simp [openSession, hs, hp, hf, hk, bind, Except.bind] at h
  | ok maxStreamKeys =>
  simp only [openSession, hs, hp, hf, hk, bind, Except.bind, pure, Except.pure,
    Except.ok.injEq] at h
  subst h
  rw [mapM_checkAtLeast hp]
  exact ⟨rfl, rfl, portLimit_ge _, localCeiling_le_port _ _⟩

theorem toNat_ofNat_usize {n : Nat} (h : n ≤ usizeMax) : (UInt64.ofNat n).toNat = n := by
  rw [UInt64.toNat_ofNat', Nat.mod_eq_of_lt]
  exact Nat.lt_of_le_sub_one (by decide) h

theorem announced_limit (config : Config) :
    ((buildHello config).limits.bind Limits.maxFrameBytes).elim defaultMaxFrameBytes UInt64.toNat =
      min config.localMaxFrameBytes defaultMaxFrameBytes := by
  have hw := toNat_ofNat_usize config.frameWord
  by_cases hb : config.localMaxFrameBytes < defaultMaxFrameBytes
  · simp [buildHello, hb, hw, Nat.le_of_lt hb]
  · grind [buildHello]

theorem Shared.assertFits_eq_ok {shared : Shared H} {frame : Frame} {what : String} :
    shared.assertFits config frame what = .ok () ↔
      ∃ bytes, encodeFrameBytes config.platform frame
        (shared.sendLimitBytes config) = .ok bytes := by
  unfold Shared.assertFits
  dsimp only
  cases encodeFrameBytes config.platform frame (shared.sendLimitBytes config) with
  | ok bytes => simp
  | error error =>
    constructor
    · intro h
      dsimp only at h
      split at h <;> cases h
    · nofun

namespace Session

variable {self next : Session H}

/-! ### Taking the hello -/

/-- The session took a hello from its port. -/
def TookHello (session : Session H) : Prop :=
  ∃ hello, some (.frame (.hello hello)) ∈ session.inbound.received

variable {label : Label H} {hello : Hello}

theorem TookHello.step (h : self.TookHello) (hs : self.step config label = some next) :
    next.TookHello := by
  obtain ⟨hello, hr⟩ := h
  obtain ⟨items, hi⟩ := step_received hs
  exact ⟨hello, hi ▸ List.mem_append_left items hr⟩

/-- What a session makes of the hello it took first: the record of its peer, or a refusal. -/
def Concluded (config : Config) (hello : Hello) (session : Session H) : Prop :=
  match negotiate config.localProtocol hello.protocol with
  | .compatible effectiveMinor => session.shared.remote =
      some ⟨hello.peer, hello.protocol, hello.capabilities, hello.limits, effectiveMinor⟩
  | .mismatch closeCode =>
    session.Ending (.localClose closeCode (some "protocol version unsupported"))

theorem Concluded.step (h : self.Concluded config hello) (ha : self.Agreed config)
    (hs : self.step config label = some next) : next.Concluded config hello := by
  unfold Concluded at h ⊢
  split at h
  · cases step_control hs with
    | same _ hr => exact hr.trans h
    | refuse _ _ _ _ hr => exact hr.trans h
    | accept _ _ _ hh =>
      rw [ha.handshaking hh] at h
      cases h
    | close _ _ _ hr => exact hr.trans h
    | settle _ _ _ _ hr => exact hr.trans h
  · exact h.step hs

theorem onHello_concluded (self : Session H) (hs : self.shared.state = .handshaking) :
    (self.onHello config hello).Concluded config hello := by
  unfold Concluded onHello
  rw [if_neg (not_not.mpr hs)]
  split <;> rename_i hn <;> rw [hn]
  · exact (settleReady_control _ _).2
  · exact .inl ⟨.marking, rfl⟩

theorem Agreed.handshaking_of_running (h : self.Agreed config) (hp : self.phase = .running)
    (hn : ¬self.TookHello) : self.shared.state = .handshaking := by
  cases hs : self.shared.state with
  | handshaking => rfl
  | ready =>
    obtain ⟨hello, hr, -⟩ := h.hello (h.ready hs)
    exact absurd ⟨hello, hr⟩ hn
  | closed => exact absurd hs (h.opened (by rw [hp]; rfl))

theorem TookHello.concluded (ha : self.Agreed config)
    (h : self.TookHello → self.Concluded config hello)
    (ho : ∀ other, some (.frame (.hello other)) ∈ next.inbound.received → other = hello)
    (hst : self.step config label = some next) (hn : next.TookHello) :
    next.Concluded config hello := by
  by_cases hs : self.TookHello
  · exact (h hs).step ha hst
  · obtain ⟨other, hr⟩ := hn
    cases ho other hr
    obtain ⟨call, inbound, hp, -, rfl⟩ :=
      step_took hst (fun hb => hs ⟨_, hb⟩) hr
    have hsta := ha.handshaking_of_running hp hs
    exact onHello_concluded { self with inbound } hsta

/-! ### A hello that is not sent -/

theorem Reachable.unsent (hre : ∀ bytes, encodeFrameBytes config.platform
      (.hello (buildHello config)) (min config.localMaxFrameBytes defaultMaxFrameBytes) ≠ .ok bytes)
    (h : self.Reachable config) :
    self.shared.remote = none ∧ (self.phase = .greeting ∧ self.writer.sent = [] ∨
      self.Ending (.localClose closeCodes.released (some "hello could not be sent"))) := by
  refine h.invariant (fun session => session.shared.remote = none ∧
    (session.phase = .greeting ∧ session.writer.sent = [] ∨
      session.Ending (.localClose closeCodes.released (some "hello could not be sent")))) ?_ ?_
  · intro handlers
    obtain ⟨registry, generation, heq⟩ := Shared.initial_eq handlers
    refine ⟨?_, .inl ⟨rfl, rfl⟩⟩
    rw [initial, heq]
  · rintro session label next ⟨hr, hp⟩ hst
    constructor
    · cases step_control hst with
      | same _ hs => exact hs.trans hr
      | refuse _ _ _ _ hs => exact hs.trans hr
      | accept _ _ hru =>
        rcases hp with ⟨hg, -⟩ | ⟨_, hc⟩ | ⟨_, hf⟩
        · cases hru.symm.trans hg
        · cases hru.symm.trans hc
        · cases hru.symm.trans hf
      | close _ _ _ hs => exact hs.trans hr
      | settle _ _ _ _ hs => exact hs.trans hr
    · rcases hp with ⟨hg, hw⟩ | he
      · rcases greeting_step hg hw hst with ⟨hn, hse, -⟩ | ⟨outcome, -, rfl⟩
        · exact .inl ⟨hn, hse⟩
        · right
          cases ha : session.shared.assertFits config (.hello (buildHello config)) "The hello" with
          | ok =>
            obtain ⟨bytes, hb⟩ := Shared.assertFits_eq_ok.mp ha
            rw [Shared.sendLimitBytes, hr] at hb
            exact absurd hb (hre bytes)
          | error error =>
            simp only [greet, ha]
            exact .inl ⟨.marking, rfl⟩
      · exact .inr (he.step hst)

end Session

end MangoProtocol
