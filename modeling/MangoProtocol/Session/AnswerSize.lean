import MangoProtocol.Session.Step

/-! The size of an answer: how many bytes an `err` frame takes, and whether the session's own
refusals fit the smallest frame limit that a peer may announce. -/

namespace MangoProtocol

/-! ### Texts -/

theorem escape_append (a b : String) : escape (a ++ b) = escape a ++ escape b := by
  simp only [escape, String.toList_append, List.flatMap_append]

theorem escape_replicate (n : Nat) (c : Char) :
    (escape (String.ofList (List.replicate n c))).length = n * (escapeChar c).length := by
  simp [escape, List.length_flatMap]

theorem escape_length_le (s : String) : (escape s).length ≤ 6 * s.length := by
  rw [← String.length_toList, escape, List.length_flatMap]
  induction s.toList with
  | nil => simp
  | cons c cs ih =>
    have := (escapeChar_length c).2
    simp only [List.map_cons, List.sum_cons, List.length_cons]
    omega

theorem length_le_escape (s : String) : s.length ≤ (escape s).length := by
  rw [← String.length_toList, escape, List.length_flatMap]
  induction s.toList with
  | nil => simp
  | cons c cs ih =>
    have := (escapeChar_length c).1
    simp only [List.map_cons, List.sum_cons, List.length_cons]
    omega

theorem utf8_length_le (s : String) : (utf8 s).length ≤ 4 * s.length := by
  rw [← String.length_toList, utf8, List.length_flatMap]
  induction s.toList with
  | nil => simp
  | cons c cs ih =>
    grind [String.utf8EncodeChar, String.length_utf8EncodeChar, List.length_cons]

variable {error : RemoteError} {n : Nat}

theorem repr_length_le (h : n ≤ usizeMax) : n.repr.length ≤ 20 := by
  rw [Nat.length_repr_le_iff (by decide)]
  simp only [usizeMax] at h
  omega

/-! ### Objects -/

/-- The bytes that a member adds to an object: its key in quotes, a colon, its value and a comma or
the brace. -/
def memberBytes (member : String × Json) : Nat :=
  (escape member.1).length + member.2.toVec.length + 4

theorem quoted_length (s : String) : (quoted s).length = (escape s).length + 2 := by
  simp [quoted]

theorem restMembers_length (members : List (String × Json)) :
    (Json.restMembers members).length = 1 + (members.map memberBytes).sum := by
  induction members with
  | nil => rfl
  | cons member members ih =>
    grind [Json.restMembers, List.length_cons, List.length_append, quoted_length, memberBytes]

theorem object_length_cons (member : String × Json) (members : List (String × Json)) :
    (Json.object (member :: members)).toVec.length =
      1 + ((member :: members).map memberBytes).sum := by
  obtain ⟨key, value⟩ := member
  simp only [Json.toVec, List.length_cons, List.length_append, quoted_length, restMembers_length,
    List.map_cons, List.sum_cons, memberBytes]
  omega

theorem object_length_le (members : List (String × Json)) :
    (Json.object members).toVec.length ≤ 2 + (members.map memberBytes).sum := by
  cases members with
  | nil => simp [Json.toVec]
  | cons member members =>
    rw [object_length_cons]
    omega

theorem insertMember_bytes_le (key : String) (value : Json) (members : List (String × Json)) :
    ((insertMember key value members).map memberBytes).sum ≤
      memberBytes (key, value) + (members.map memberBytes).sum := by
  induction members with
  | nil => simp [insertMember]
  | cons member members ih => grind [insertMember]

/-! ### Errors -/

/-- The bytes of the details of an error, with the key they stand under. -/
def detailsBytes : Option Map → Nat
  | none => 0
  | some details => 11 + (Json.object details.members).toVec.length

/-- The bytes of an `err` frame. -/
def answerBytes (id : String) (error : RemoteError) : Nat :=
  55 + (escape id).length + (escape error.code).length + (escape error.message).length +
    detailsBytes error.details

theorem string_toVec_length (s : String) :
    (Json.string s).toVec.length = (escape s).length + 2 := by
  rw [Json.toVec, quoted_length]

theorem errorPayload_length (payload : ErrorPayload) :
    payload.serialize.toVec.length =
      24 + (escape payload.code).length + (escape payload.message).length +
        detailsBytes payload.details := by
  have hc : (escape "code").length = 4 := rfl
  have hm : (escape "message").length = 7 := rfl
  have hde : (escape "details").length = 7 := rfl
  cases hd : payload.details <;>
  · grind [ErrorPayload.serialize, optional, object_length_cons, memberBytes, string_toVec_length,
      detailsBytes]

theorem errorFrame_length (id : String) (error : RemoteError) :
    (errorFrame id error).toVec.length = answerBytes id error := by
  have ht : (escape "type").length = 4 := rfl
  have he : (escape "err").length = 3 := rfl
  have hid : (escape "id").length = 2 := rfl
  have her : (escape "error").length = 5 := rfl
  simp only [errorFrame, Frame.toVec, Frame.serialize, Frame.typeName, Frame.members,
    object_length_cons, List.map_cons, List.map_nil, List.sum_cons, List.sum_nil, memberBytes,
    string_toVec_length, errorPayload_length, ht, he, hid, her, answerBytes]
  omega

def RemoteError.weight (error : RemoteError) : Nat :=
  (escape error.code).length + (escape error.message).length +
    ((error.details.getD .empty).members.map memberBytes).sum

theorem RemoteError.weight_new (code message : String) :
    (RemoteError.new code message).weight = (escape code).length + (escape message).length := by
  simp [weight, new, Map.empty]

theorem RemoteError.weight_withDetail_le (error : RemoteError) (key : String) (value : Value) :
    (error.withDetail key value).weight ≤
      error.weight + (escape key).length + value.json.toVec.length + 4 := by
  have h := insertMember_bytes_le key value.json (error.details.getD .empty).members
  simp only [weight, withDetail, Option.getD_some, Map.insert, memberBytes] at h ⊢
  omega

theorem RemoteError.weight_string_le (key text : String) (h : error.weight ≤ n) :
    (error.withDetail key (.string text)).weight ≤
      n + (escape key).length + (escape text).length + 6 := by
  have hd := error.weight_withDetail_le key (.string text)
  have ht : (Value.string text).json.toVec.length = (escape text).length + 2 :=
    string_toVec_length text
  omega

theorem u64_toVec_length_le (n : UInt64) : (Value.u64 n).json.toVec.length ≤ 80 := by
  have hw : n.toNat ≤ usizeMax := Nat.le_sub_one_of_lt n.toNat_lt
  have hd := repr_length_le hw
  have hb := utf8_length_le n.toNat.repr
  simp only [Value.u64, Json.toVec, Number.toVec, decimal]
  omega

theorem RemoteError.weight_u64_le (key : String) (value : UInt64) (h : error.weight ≤ n) :
    (error.withDetail key (.u64 value)).weight ≤ n + (escape key).length + 84 := by
  have hd := error.weight_withDetail_le key (.u64 value)
  have hv := u64_toVec_length_le value
  omega

theorem answer_fits {id : String} (hid : id.length ≤ maxIdChars) (h : error.weight ≤ 2492) :
    answerBytes id error ≤ minMaxFrameBytes := by
  have hes := escape_length_le id
  have hd : detailsBytes error.details ≤
      13 + ((error.details.getD .empty).members.map memberBytes).sum := by
    cases error.details with
    | none => simp [detailsBytes]
    | some details =>
      have := object_length_le details.members
      simp only [detailsBytes, Option.getD_some]
      omega
  simp only [answerBytes, RemoteError.weight, maxIdChars, minMaxFrameBytes,
    minAnnouncedFrameBytes] at *
  omega

/-! ### The session's own refusals -/

theorem escape_literal {chars : List Char} {bytes : Nat}
    (h : (chars.flatMap escapeChar).length = bytes) :
    (escape (String.ofList chars)).length = bytes := by
  rw [escape, String.toList_ofList, h]

section Refusals

variable {id method : String}

theorem notReadyRefusal_fits (hid : id.length ≤ maxIdChars) :
    answerBytes id notReadyRefusal ≤ minMaxFrameBytes := by
  refine answer_fits hid ?_
  obtain ⟨hc, ht, hte⟩ : (escape codes.unavailable).length = 11 ∧
      (escape "The session handshake has not completed; requests are refused until ").length = 68 ∧
      (escape "both hellos have crossed.").length = 25 := by
    and_intros <;> exact escape_literal (by decide +kernel)
  simp only [notReadyRefusal, RemoteError.weight_new, escape_append, List.length_append, hc, ht,
    hte]
  omega

theorem inFlightRefusal_fits {limit : Nat} (hid : id.length ≤ maxIdChars)
    (hme : method.length ≤ maxNameChars) (hli : limit ≤ usizeMax) :
    answerBytes id (inFlightRefusal limit method) ≤ minMaxFrameBytes := by
  refine answer_fits hid (le_trans (RemoteError.weight_string_le _ _
    (RemoteError.weight_u64_le _ _ (RemoteError.weight_string_le _ _ le_rfl))) ?_)
  have hes := escape_length_le method
  have he := escape_length_le limit.repr
  have hd := repr_length_le hli
  obtain ⟨ht, hte, htex⟩ : (escape "This peer is already answering ").length = 31 ∧
      (escape " requests; retry \"").length = 19 ∧
      (escape "\" once one of yours has settled.").length = 33 := by
    and_intros <;> exact escape_literal (by decide +kernel)
  obtain ⟨hc, hki, hk, hl, hm⟩ :
      (escape codes.unavailable).length = 11 ∧ (escape "kind").length = 4 ∧
      (escape inFlightLimitKind).length = 15 ∧ (escape "limit").length = 5 ∧
      (escape "method").length = 6 := by
    and_intros <;> exact escape_literal (by decide +kernel)
  simp only [RemoteError.weight_new, escape_append, List.length_append, ht, hte, htex, hc, hki, hk,
    hl, hm]
  simp only [maxNameChars] at hme
  omega

theorem reservedRefusal_fits {effectiveMinor : UInt32} (hid : id.length ≤ maxIdChars)
    (hme : method.length ≤ maxNameChars) :
    answerBytes id (reservedRefusal method effectiveMinor) ≤ minMaxFrameBytes := by
  refine answer_fits hid (le_trans (RemoteError.weight_u64_le _ _
    (RemoteError.weight_string_le _ _ le_rfl)) ?_)
  have hes := escape_length_le method
  have he := escape_length_le effectiveMinor.toNat.repr
  have hw : effectiveMinor.toNat ≤ usizeMax :=
    (Nat.le_of_lt effectiveMinor.toNat_lt).trans (by decide)
  have hd := repr_length_le hw
  obtain ⟨ht, hte, htex, htext⟩ : (escape "Method \"").length = 9 ∧
      (escape
        "\" is reserved; the rpc. segment belongs to the protocol and defines no such method at "
        ).length = 87 ∧
      (escape "wire minor ").length = 11 ∧ (escape ".").length = 1 := by
    and_intros <;> exact escape_literal (by decide +kernel)
  obtain ⟨hc, hm, hmi⟩ : (escape codes.invalidRequest).length = 15 ∧
      (escape "method").length = 6 ∧ (escape "effectiveMinor").length = 14 := by
    and_intros <;> exact escape_literal (by decide +kernel)
  simp only [RemoteError.weight_new, escape_append, List.length_append, ht, hte, htex, htext, hc,
    hm, hmi]
  simp only [maxNameChars] at hme
  omega

theorem unsupportedRefusal_fits (hid : id.length ≤ maxIdChars)
    (hme : method.length ≤ maxNameChars) :
    answerBytes id (unsupportedRefusal method) ≤ minMaxFrameBytes := by
  refine answer_fits hid (le_trans (RemoteError.weight_string_le _ _ le_rfl) ?_)
  have hes := escape_length_le method
  obtain ⟨ht, hte⟩ : (escape "Method \"").length = 9 ∧
      (escape "\" has no handler on this peer.").length = 31 := by
    and_intros <;> exact escape_literal (by decide +kernel)
  obtain ⟨hc, hm⟩ : (escape codes.methodUnsupported).length = 18 ∧
      (escape "method").length = 6 := by
    and_intros <;> exact escape_literal (by decide +kernel)
  simp only [RemoteError.weight_new, escape_append, List.length_append, ht, hte, hc,
    hm]
  simp only [maxNameChars] at hme
  omega

theorem duplicateRefusal_bytes (id : String) :
    answerBytes id (duplicateRefusal id) = 3 * (escape id).length + 186 := by
  obtain ⟨ht, hte⟩ : (escape "Request id \"").length = 13 ∧
      (escape
        "\" is already in flight; expected an id unique among the sender's pending requests."
        ).length = 83 := by
    and_intros <;> exact escape_literal (by decide +kernel)
  obtain ⟨hc, hid⟩ : (escape codes.invalidRequest).length = 15 ∧ (escape "id").length = 2 := by
    and_intros <;> exact escape_literal (by decide +kernel)
  simp only [answerBytes, duplicateRefusal, RemoteError.withDetail, RemoteError.new,
    Option.getD_none, Map.insert, Map.empty, insertMember, detailsBytes, object_length_cons,
    List.map_cons, List.map_nil, List.sum_cons, List.sum_nil, memberBytes, Value.string,
    string_toVec_length, escape_append, List.length_append, ht, hte, hc, hid]
  omega

end Refusals

/-! ### What `on_request` refuses with -/

namespace Session

variable {H : Type} {config : Config} {self : Session H} {request : Request} {error : RemoteError}

/-- A duplicate reaches the check on its id. -/
structure Duplicate (config : Config) (session : Session H) (request : Request) : Prop where
  ready : session.shared.readyRemote.isSome
  room : session.tracking.active.entries.length < config.maxInFlight
  active : request.id ∈ session.tracking.active

theorem judgeRequest_duplicate (h : Duplicate config self request) :
    self.judgeRequest config request = .refuse (duplicateRefusal request.id) := by
  obtain ⟨remote, hr⟩ := Option.isSome_iff_exists.mp h.ready
  simp only [judgeRequest, hr, if_neg (Nat.not_le.mpr h.room), if_pos h.active]

theorem judgeRequest_refuse (h : self.judgeRequest config request = .refuse error) :
    Duplicate config self request ∨ error = notReadyRefusal ∨
      error = inFlightRefusal config.maxInFlight request.method ∨
      (∃ effectiveMinor, error = reservedRefusal request.method effectiveMinor) ∨
      error = unsupportedRefusal request.method := by
  unfold judgeRequest at h
  split at h
  · cases h
    simp
  · rename_i remote hr
    split at h
    · cases h
      simp
    split at h
    · rename_i hro ha
      exact .inl ⟨by simp [hr], Nat.not_le.mp hro, ha⟩
    split at h
    · cases h
      simp
    split at h
    · cases h
    · cases h
      simp

/-- A refusal is one frame, and it fits the smallest frame limit unless it refuses a duplicate whose
id takes more than 1303 bytes as JSON text. -/
theorem onRequest_refusal_fits_iff {line : List UInt8} {maxFrameBytes : Nat}
    (accepted : decodeLine config.platform line maxFrameBytes = .ok (.req request))
    (refused : self.judgeRequest config request = .refuse error) (call : HandlerCall) :
    (self.onRequest config request call).writer.sent =
        self.writer.sent ++ [errorFrame request.id error] ∧
      ((errorFrame request.id error).toVec.length ≤ 4096 ↔
        (Duplicate config self request → (escape request.id).length ≤ 1303)) := by
  obtain ⟨⟨-, hid⟩, hn⟩ := validate_req.mp (decodeLine_valid accepted)
  have hm := isValidMethodName_length hn
  refine ⟨by simp only [onRequest, refused]; rfl, ?_⟩
  rw [errorFrame_length]
  by_cases hd : Duplicate config self request
  · rw [judgeRequest_duplicate hd] at refused
    cases refused
    rw [duplicateRefusal_bytes]
    simp only [hd, forall_const]
    omega
  · simp only [hd, false_imp_iff, iff_true]
    rcases judgeRequest_refuse refused with h | rfl | rfl | ⟨effectiveMinor, rfl⟩ | rfl
    · exact absurd h hd
    · exact notReadyRefusal_fits hid
    · exact inFlightRefusal_fits hid hm config.inFlightWord
    · exact reservedRefusal_fits hid hm
    · exact unsupportedRefusal_fits hid hm

/-- A ready session that answers this request. -/
def answering (request : Request) : Session Unit :=
  { Session.initial [] with
    shared := { Shared.initial [] with
      state := .ready
      remote := some ⟨sampleHello.peer, protocolVersion, .empty, none, 1⟩
      inFlight := 1 }
    phase := .running
    tracking := {
      tasks := AList.singleton 0 ⟨0, request.id, request.method, request.params, ()⟩
      active := AList.singleton request.id ⟨false, request.method⟩
      byTaskId := AList.singleton 0 request.id } }

theorem duplicate_answering (frames : List Frame) (request : Request) :
    Duplicate (sampleConfig frames) (answering request) request where
  ready := rfl
  room := by change 1 < defaultMaxInFlight; decide
  active := AList.mem_keys.mpr (by simp [answering, AList.keys_singleton])

theorem clockRequest_length (id : String) :
    (Frame.req (clockRequest id)).toVec.length = 58 + (escape id).length := by
  obtain ⟨ht, hr, hid, hm, hp, hn⟩ : (escape "type").length = 4 ∧
      (escape "req").length = 3 ∧ (escape "id").length = 2 ∧ (escape "method").length = 6 ∧
      (escape "params").length = 6 ∧ (escape "clock.read").length = 10 := by decide +kernel
  have hnu : (Value.ofJson .null).json.toVec.length = 4 := by decide +kernel
  simp only [Frame.toVec, Frame.serialize, Frame.typeName, Frame.members, clockRequest,
    object_length_cons, List.map_cons, List.map_nil, List.sum_cons, List.sum_nil, memberBytes,
    string_toVec_length, hnu, ht, hr, hid, hm, hp, hn]
  omega

variable {id : String}

theorem decodeLine_clockRequest (hp : 1 ≤ id.length) (hid : id.length ≤ maxIdChars) :
    decodeLine (sampleConfig [.req (clockRequest id)]).platform (Frame.req (clockRequest id)).toVec
      4096 = .ok (.req (clockRequest id)) := by
  have hes := escape_length_le id
  have hl := clockRequest_length id
  simp only [maxIdChars] at hid
  have reads : (sampleConfig [.req (clockRequest id)]).platform.ReadsBack
      (.req (clockRequest id)) := by
    simp [sampleConfig, Platform.ReadsBack, tablePlatform]
  have hm : isValidMethodName "clock.read" = true := by decide +kernel
  exact decodeLine_toVec reads (by decide) (validate_req.mpr ⟨⟨hp, hid⟩, hm⟩) (by omega)

/-- An id as long as an id may be, of characters that take six bytes each. -/
def longId : String := String.ofList (List.replicate maxIdChars (Char.ofNat 1))

theorem longId_length : longId.length = maxIdChars := by
  simp [longId]

theorem longId_escape : (escape longId).length = 1536 := by
  have hc : (escapeChar (Char.ofNat 1)).length = 6 := by decide
  rw [longId, escape_replicate, hc, maxIdChars]

theorem duplicate_too_large (hl : id.length = maxIdChars) (hes : (escape id).length = 1536)
    : let config := sampleConfig [.req (clockRequest id)]
    decodeLine config.platform (Frame.req (clockRequest id)).toVec 4096 =
        .ok (.req (clockRequest id)) ∧
      (answering (clockRequest id)).judgeRequest config (clockRequest id) =
        .refuse (duplicateRefusal id) ∧
      ((answering (clockRequest id)).onRequest config (clockRequest id) .panic).writer.sent =
        [errorFrame id (duplicateRefusal id)] ∧
      4096 < (errorFrame id (duplicateRefusal id)).toVec.length := by
  intro config
  have refused : (answering (clockRequest id)).judgeRequest config (clockRequest id) =
      .refuse (duplicateRefusal id) := judgeRequest_duplicate (duplicate_answering _ _)
  refine ⟨decodeLine_clockRequest (by rw [hl]; decide) hl.le, refused, ?_, ?_⟩
  · simp only [onRequest, refused]
    rfl
  · rw [errorFrame_length, duplicateRefusal_bytes, hes]
    decide

/-- The same request twice, with the longest id: its refusal is over the smallest frame limit. -/
theorem onRequest_duplicate_too_large :
    let config := sampleConfig [.req (clockRequest longId)]
    decodeLine config.platform (Frame.req (clockRequest longId)).toVec 4096 =
        .ok (.req (clockRequest longId)) ∧
      (answering (clockRequest longId)).judgeRequest config (clockRequest longId) =
        .refuse (duplicateRefusal longId) ∧
      ((answering (clockRequest longId)).onRequest config (clockRequest longId)
          .panic).writer.sent =
        [errorFrame longId (duplicateRefusal longId)] ∧
      4096 < (errorFrame longId (duplicateRefusal longId)).toVec.length :=
  duplicate_too_large longId_length longId_escape

/-- The refusal of a duplicate with an ordinary id. -/
theorem onRequest_refusal_fits_iff_sample :
    let config := sampleConfig [.req (clockRequest "r-1")]
    (errorFrame "r-1" (duplicateRefusal "r-1")).toVec.length ≤ 4096 ↔
      (Duplicate config (answering (clockRequest "r-1")) (clockRequest "r-1") →
        (escape "r-1").length ≤ 1303) :=
  (onRequest_refusal_fits_iff (decodeLine_clockRequest (by decide) (by decide))
    (judgeRequest_duplicate (duplicate_answering _ (clockRequest "r-1"))) .panic).2

end Session

end MangoProtocol
