import MangoProtocol.ProofKit.Fallible
import MangoProtocol.Schema
import MangoProtocol.Session.AnswerSize
import MangoProtocol.Session.Introduction

/-! The preflight of a session's own hello.  Opening a session puts a floor under each ceiling and
nothing above them, and a hello announces the ceiling on requests whenever it is not the default:
a session that was opened with a ceiling past what a hello may carry cannot greet. -/

namespace MangoProtocol

open ProofKit

variable {H : Type} {platform : Platform} {port : Option UInt64} {options : SessionOptions H}
  {config : Config}

/-! ### The options -/

/-- The defaults, and who this side is. -/
def SessionOptions.new (peer : PeerInfo) : SessionOptions H where
  peer := peer
  capabilities := .empty
  protocol := protocolVersion
  maxFrameBytes := none
  maxInFlight := 256
  maxStreamKeys := 1024
  handshakeTimeout := 15000
  livenessInterval := some 20000
  requestIdPrefix := defaultRequestIdPrefix
  handlers := []

/-- Sets the ceiling on requests; the error is the text of the panic. -/
def SessionOptions.withMaxInFlight (options : SessionOptions H) (maxInFlight : UInt64) :
    Except String (SessionOptions H) :=
  (checkAtLeast "max_in_flight" minAnnouncedInFlight maxInFlight).map fun checked =>
    { options with maxInFlight := checked.val }

def SessionOptions.introduction (options : SessionOptions H) : Hello :=
  ⟨options.protocol, options.peer, options.capabilities, none⟩

/-- The version, the peer and the capabilities are valid, and each takes 1024 bytes or less. -/
structure SessionOptions.Presents (platform : Platform) (options : SessionOptions H) : Prop where
  valid : validate platform (.hello options.introduction) = .ok ()
  protocol : options.protocol.serialize.toVec.length ≤ 1024
  peer : options.peer.serialize.toVec.length ≤ 1024
  capabilities : (Json.object options.capabilities.members).toVec.length ≤ 1024

/-- What a session takes over into its hello. -/
structure Introduces (platform : Platform) (options : SessionOptions H) (config : Config) :
    Prop where
  platform : config.platform = platform
  protocol : config.localProtocol = options.protocol
  peer : config.localPeer = options.peer
  capabilities : config.localCapabilities = options.capabilities
  maxInFlight : config.maxInFlight = options.maxInFlight.toNat

theorem openSession_introduces (h : openSession platform port options = .ok config) :
    Introduces platform options config := by
  unfold openSession at h
  obtain ⟨_, -, h⟩ := bind_eq_ok_iff.mp h
  obtain ⟨_, -, h⟩ := bind_eq_ok_iff.mp h
  obtain ⟨maxInFlight, hf, h⟩ := bind_eq_ok_iff.mp h
  obtain ⟨_, -, h⟩ := bind_eq_ok_iff.mp h
  cases h
  exact ⟨rfl, rfl, rfl, rfl, congrArg UInt64.toNat (checkAtLeast_eq_ok hf)⟩

/-! ### Validity -/

theorem buildHello_limits {limits : Limits} (h : limits ∈ (buildHello config).limits) :
    (limits.maxFrameBytes = if config.localMaxFrameBytes < defaultMaxFrameBytes then
        some (UInt64.ofNat config.localMaxFrameBytes) else none) ∧
      limits.maxInFlight = if config.maxInFlight ≠ defaultMaxInFlight then
        some (UInt64.ofNat config.maxInFlight) else none := by
  obtain ⟨-, heq⟩ := Option.ite_none_left_eq_some.mp h
  cases heq
  exact ⟨rfl, rfl⟩

theorem exists_announced_maxInFlight (h : config.maxInFlight ≠ defaultMaxInFlight) :
    ∃ limits ∈ (buildHello config).limits,
      limits.maxInFlight = some (UInt64.ofNat config.maxInFlight) := by
  simp [buildHello, h]

theorem validateLimits_buildHello_iff :
    (∀ limits ∈ (buildHello config).limits, validateLimits limits = .ok ()) ↔
      config.maxInFlight ≤ maxAnnouncedInFlight := by
  have hw := toNat_ofNat_usize config.inFlightWord
  constructor
  · intro h
    by_cases hd : config.maxInFlight = defaultMaxInFlight
    · rw [hd]
      decide
    · grind [exists_announced_maxInFlight, validateLimits_eq_ok]
  · intro hc limits hl
    obtain ⟨hby, hf⟩ := buildHello_limits hl
    refine validateLimits_eq_ok.mpr ⟨fun n hn => ?_, fun n hn => ?_⟩
    · rw [hby] at hn
      obtain ⟨hb, hs⟩ := Option.ite_none_right_eq_some.mp hn
      cases hs
      rw [toNat_ofNat_usize config.frameWord]
      have hd : defaultMaxFrameBytes ≤ maxAnnouncedFrameBytes := by decide
      exact ⟨config.frameFloor, hb.le.trans hd⟩
    · rw [hf] at hn
      obtain ⟨-, hs⟩ := Option.ite_none_right_eq_some.mp hn
      cases hs
      rw [hw]
      exact ⟨config.inFlightFloor, hc⟩

theorem validate_buildHello_iff (hi : Introduces platform options config)
    (hva : validate platform (.hello options.introduction) = .ok ()) :
    validate platform (.hello (buildHello config)) = .ok () ↔
      config.maxInFlight ≤ maxAnnouncedInFlight := by
  rw [← validateLimits_buildHello_iff]
  refine ⟨validate_hello_limits, fun hl => ?_⟩
  obtain ⟨hc, hd⟩ := validate_hello_iff.mp hva
  obtain ⟨hm, hn, hv, hr, -⟩ := Hello.conforms_iff.mp hc
  have hp : (buildHello config).protocol = options.protocol := hi.protocol
  have hpe : (buildHello config).peer = options.peer := hi.peer
  rw [validate_hello_iff, Hello.conforms_iff, hp, hpe]
  exact ⟨⟨hm, hn, hv, hr, fun limits h => Limits.conforms_iff.mpr (hl limits h)⟩,
    hd⟩

/-! ### Size -/

theorem limits_length_le (limits : Limits) : limits.serialize.toVec.length ≤ 194 := by
  have hb : (escape "maxFrameBytes").length = 13 := rfl
  have hf : (escape "maxInFlight").length = 11 := rfl
  have ho : ∀ (name : String) (value : Option UInt64),
      ((optional name value .u64).map memberBytes).sum ≤ (escape name).length + 84 := by
    intro name value
    cases value with
    | none => exact Nat.zero_le _
    | some n =>
      have hn : (Json.u64 n).toVec.length ≤ 80 := u64_toVec_length_le n
      simp only [optional, List.map_cons, List.map_nil, List.sum_cons, List.sum_nil, memberBytes]
      omega
  refine (object_length_le _).trans ?_
  have hfi := ho "maxFrameBytes" limits.maxFrameBytes
  have hs := ho "maxInFlight" limits.maxInFlight
  rw [List.map_append, List.sum_append]
  omega

theorem hello_length_le (hello : Hello) :
    (Frame.hello hello).toVec.length ≤ hello.protocol.serialize.toVec.length +
      hello.peer.serialize.toVec.length + (Json.object hello.capabilities.members).toVec.length +
        256 := by
  have ht : memberBytes ("type", .string "hello") = 15 := rfl
  have hp : (escape "protocol").length = 8 := rfl
  have hpe : (escape "peer").length = 4 := rfl
  have hc : (escape "capabilities").length = 12 := rfl
  have hli : ((optional "limits" hello.limits Limits.serialize).map memberBytes).sum ≤ 204 := by
    cases hello.limits with
    | none => exact Nat.zero_le _
    | some limits =>
      have hn : (escape "limits").length = 6 := rfl
      have hl := limits_length_le limits
      simp only [optional, List.map_cons, List.map_nil, List.sum_cons, List.sum_nil, memberBytes,
        hn]
      omega
  simp only [Frame.toVec, Frame.serialize, Frame.typeName, Frame.members, List.cons_append,
    List.nil_append, object_length_cons, List.map_cons, List.sum_cons, ht]
  simp only [memberBytes, hp, hpe, hc]
  omega

/-! ### The preflight -/

/-- A session that opened, with a valid introduction in members of 1024 bytes or less: its hello
passes the preflight exactly when its ceiling on requests is one that a hello may announce. -/
theorem openSession_greets_iff (hopen : openSession platform port options = .ok config)
    (hpresents : options.Presents platform) :
    (Shared.initial options.handlers).assertFits config (.hello (buildHello config)) "The hello" =
        .ok () ↔
      options.maxInFlight.toNat ≤ maxAnnouncedInFlight := by
  have hi := openSession_introduces hopen
  have hr : (Shared.initial options.handlers).remote = none := by
    obtain ⟨registry, generation, heq⟩ := Shared.initial_eq options.handlers
    rw [heq]
  have hf : minMaxFrameBytes ≤ min config.localMaxFrameBytes defaultMaxFrameBytes :=
    le_min config.frameFloor (by decide)
  have hl : (Frame.hello (buildHello config)).toVec.length ≤ minMaxFrameBytes := by
    have hpa := hello_length_le (buildHello config)
    have hp := hpresents.protocol
    have hpe := hpresents.peer
    have hc := hpresents.capabilities
    rw [← hi.protocol] at hp
    rw [← hi.peer] at hpe
    rw [← hi.capabilities] at hc
    have hs : minMaxFrameBytes = 4096 := rfl
    simp only [buildHello] at hpa ⊢
    omega
  rw [Shared.assertFits_eq_ok, Shared.sendLimitBytes, hr, hi.platform,
    ← hi.maxInFlight, ← validate_buildHello_iff hi hpresents.valid]
  constructor
  · rintro ⟨bytes, hb⟩
    exact (encodeFrameBytes_eq_ok.mp hb).2.1
  · intro hv
    exact ⟨_, encodeFrameBytes_eq_ok.mpr ⟨hf, hv, hl.trans hf, rfl⟩⟩

def hubOptions (maxInFlight : UInt64) : SessionOptions Unit :=
  { SessionOptions.new ⟨"hub", "1.0.0", "hub"⟩ with maxInFlight }

theorem hubOptions_presents (maxInFlight : UInt64) :
    (hubOptions maxInFlight).Presents (tablePlatform []) := by
  have hd : (hubOptions 256).Presents (tablePlatform []) :=
    ⟨rfl, by decide +kernel, by decide +kernel, by decide +kernel⟩
  exact ⟨hd.valid, hd.protocol, hd.peer, hd.capabilities⟩

/-- A hub that answers eight requests at once greets. -/
theorem openSession_greets_iff_hub :
    ∃ config, openSession (tablePlatform []) none (hubOptions 8) = .ok config ∧
      (Shared.initial ([] : List (String × Unit))).assertFits config (.hello (buildHello config))
        "The hello" = .ok () := by
  obtain ⟨config, ho⟩ : ∃ config,
      openSession (tablePlatform []) none (hubOptions 8) = .ok config := ⟨_, rfl⟩
  exact ⟨config, ho, (openSession_greets_iff ho (hubOptions_presents 8)).mpr (by decide)⟩

/-- The builder and the session take 2147483648 requests at once, and the hello is refused. -/
theorem unbounded_inFlight_unsent :
    (SessionOptions.new ⟨"hub", "1.0.0", "hub"⟩).withMaxInFlight 2147483648 =
        .ok (hubOptions 2147483648) ∧
      (hubOptions 2147483648).Presents (tablePlatform []) ∧
      ∃ config, openSession (tablePlatform []) none (hubOptions 2147483648) = .ok config ∧
        (Shared.initial ([] : List (String × Unit))).assertFits config (.hello (buildHello config))
          "The hello" ≠ .ok () := by
  refine ⟨rfl, hubOptions_presents _, _, rfl, ?_⟩
  rw [Ne, Shared.assertFits_eq_ok]
  rintro ⟨bytes, hb⟩
  have hv := (encodeFrameBytes_eq_ok.mp hb).2.1
  exact absurd (validateLimits_buildHello_iff.mp (validate_hello_limits hv)) (by decide)

end MangoProtocol
