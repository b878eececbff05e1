import MangoProtocol.Codec.RoundTrip
import MangoProtocol.ProofKit.Regex

/-! The constraints that the published schema states for the members of a frame, and what the
validator makes of them.  The two agree on every frame but a `hello` whose role ends with a dash:
the validator reads a role as a segment of a method name, and the pattern of a role does not forbid
the dash. -/

namespace MangoProtocol

open ProofKit

/-! ### Constraints -/

structure StringSchema where
  minLength : Nat := 0
  maxLength : Option Nat := none
  pattern : Option String := none

/-- The schema of an integer. -/
structure IntegerSchema where
  minimum : Nat
  maximum : Option Nat := none

structure StringSchema.Accepts (schema : StringSchema) (value : String) : Prop where
  minLength : schema.minLength ≤ value.length
  maxLength : ∀ most, schema.maxLength = some most → value.length ≤ most
  pattern : ∀ text, schema.pattern = some text →
    ∃ regex, Regex.parse text = some regex ∧ value.toList ∈ regex.language

structure IntegerSchema.Accepts (schema : IntegerSchema) (value : Nat) : Prop where
  minimum : schema.minimum ≤ value
  maximum : ∀ most, schema.maximum = some most → value ≤ most

theorem StringSchema.accepts_least {least : Nat} {value : String} :
    (⟨least, none, none⟩ : StringSchema).Accepts value ↔ least ≤ value.length :=
  ⟨fun h => h.minLength, fun h => ⟨h, nofun, nofun⟩⟩

theorem StringSchema.accepts_bounds {least most : Nat} {value : String} :
    (⟨least, some most, none⟩ : StringSchema).Accepts value ↔
      least ≤ value.length ∧ value.length ≤ most := by
  refine ⟨fun h => ⟨h.minLength, h.maxLength most rfl⟩, fun h => ⟨h.1, fun other ho => ?_, nofun⟩⟩
  cases ho
  exact h.2

theorem StringSchema.accepts_pattern {least most : Nat} {text value : String} :
    (⟨least, some most, some text⟩ : StringSchema).Accepts value ↔
      (least ≤ value.length ∧ value.length ≤ most) ∧
        ∃ regex, Regex.parse text = some regex ∧ value.toList ∈ regex.language := by
  constructor
  · intro h
    exact ⟨⟨h.minLength, h.maxLength most rfl⟩, h.pattern text rfl⟩
  · rintro ⟨⟨hmi, hma⟩, hm⟩
    refine ⟨hmi, fun other ho => ?_, fun other ho => ?_⟩
    · cases ho
      exact hma
    · cases ho
      exact hm

theorem IntegerSchema.accepts_least {least value : Nat} :
    (⟨least, none⟩ : IntegerSchema).Accepts value ↔ least ≤ value :=
  ⟨fun h => h.minimum, fun h => ⟨h, nofun⟩⟩

theorem IntegerSchema.accepts_bounds {least most value : Nat} :
    (⟨least, some most⟩ : IntegerSchema).Accepts value ↔ least ≤ value ∧ value ≤ most := by
  refine ⟨fun h => ⟨h.minimum, h.maximum most rfl⟩, fun h => ⟨h.1, fun other ho => ?_⟩⟩
  cases ho
  exact h.2

namespace constraints

def minNameChars : Nat := 3

def id : StringSchema := ⟨1, some maxIdChars, none⟩

def methodName : StringSchema := ⟨minNameChars, some maxNameChars, some methodNamePattern⟩

def peerLabel : StringSchema := ⟨1, some maxNameChars, none⟩

def role : StringSchema := ⟨1, some maxCodeChars, some "^[a-z][a-z0-9-]*$"⟩

def errorCode : StringSchema := ⟨1, some maxCodeChars, some "^[A-Z][A-Z0-9_]*$"⟩

def errorMessage : StringSchema := ⟨1, none, none⟩

def major : IntegerSchema := ⟨1, none⟩

def nonNegative : IntegerSchema := ⟨0, none⟩

def maxFrameBytes : IntegerSchema := ⟨minAnnouncedFrameBytes, some maxAnnouncedFrameBytes⟩

def maxInFlight : IntegerSchema := ⟨minAnnouncedInFlight, some maxAnnouncedInFlight⟩

def closeCode : IntegerSchema := ⟨minCloseCode.toNat, some maxCloseCode.toNat⟩

def closeReason : StringSchema := ⟨0, some maxReasonChars, none⟩

end constraints

/-! ### Frames -/

structure ProtocolVersion.Conforms (version : ProtocolVersion) : Prop where
  major : constraints.major.Accepts version.major.toNat
  minor : constraints.nonNegative.Accepts version.minor.toNat

structure PeerInfo.Conforms (peer : PeerInfo) : Prop where
  name : constraints.peerLabel.Accepts peer.name
  version : constraints.peerLabel.Accepts peer.version
  role : constraints.role.Accepts peer.role

structure Limits.Conforms (limits : Limits) : Prop where
  maxFrameBytes : ∀ n ∈ limits.maxFrameBytes, constraints.maxFrameBytes.Accepts n.toNat
  maxInFlight : ∀ n ∈ limits.maxInFlight, constraints.maxInFlight.Accepts n.toNat

structure Hello.Conforms (hello : Hello) : Prop where
  protocol : hello.protocol.Conforms
  peer : hello.peer.Conforms
  limits : ∀ limits ∈ hello.limits, limits.Conforms

structure Request.Conforms (request : Request) : Prop where
  id : constraints.id.Accepts request.id
  method : constraints.methodName.Accepts request.method

structure ErrorPayload.Conforms (payload : ErrorPayload) : Prop where
  code : constraints.errorCode.Accepts payload.code
  message : constraints.errorMessage.Accepts payload.message

structure ErrorResponse.Conforms (error : ErrorResponse) : Prop where
  id : constraints.id.Accepts error.id
  error : error.error.Conforms

structure Event.Conforms (event : Event) : Prop where
  topic : constraints.methodName.Accepts event.topic
  seq : constraints.nonNegative.Accepts event.seq.toNat
  streamId : ∀ streamId ∈ event.streamId, constraints.id.Accepts streamId

structure Close.Conforms (close : Close) : Prop where
  code : constraints.closeCode.Accepts close.code.toNat
  reason : ∀ reason ∈ close.reason, constraints.closeReason.Accepts reason

/-- Every member of a frame satisfies the constraint that the schema emits for it.  A member without
a constraint has a type that carries it. -/
def Frame.Conforms : Frame → Prop
  | .hello body => body.Conforms
  | .req body => body.Conforms
  | .res body => constraints.id.Accepts body.id
  | .err body => body.Conforms
  | .evt body => body.Conforms
  | .cancel body => constraints.id.Accepts body.id
  | .ping | .pong => True
  | .close body => body.Conforms

/-! ### Patterns -/

def lower : Regex := .set [('a', 'z')]

def lowerDigit : Regex := .set [('a', 'z'), ('0', '9')]

def lowerDigitDash : Regex := .set [('a', 'z'), ('0', '9'), ('-', '-')]

/-- `[a-z](?:[a-z0-9-]*[a-z0-9])?`. -/
def segmentRegex : Regex := .seq lower (.opt (.seq (.star lowerDigitDash) lowerDigit))

theorem parse_methodNamePattern : Regex.parse methodNamePattern =
    some (.seq lower (.seq (.opt (.seq (.star lowerDigitDash) lowerDigit))
      (.plus (.seq (.single '.') segmentRegex)))) := by
  rfl

theorem parse_rolePattern : Regex.parse "^[a-z][a-z0-9-]*$" =
    some (.seq lower (.star lowerDigitDash)) := by
  rfl

theorem parse_errorCodePattern : Regex.parse "^[A-Z][A-Z0-9_]*$" =
    some (.seq (.set [('A', 'Z')]) (.star (.set [('A', 'Z'), ('0', '9'), ('_', '_')]))) := by
  rfl

/-! ### The hand-written grammars -/

theorem isLower_iff (c : Char) : c.isLower = true ↔ 'a' ≤ c ∧ c ≤ 'z' := by
  delta Char.isLower
  simp only [Char.le_def, Bool.and_eq_true, decide_eq_true_eq]

theorem isUpper_iff (c : Char) : c.isUpper = true ↔ 'A' ≤ c ∧ c ≤ 'Z' := by
  delta Char.isUpper
  simp only [Char.le_def, decide_eq_true_eq]

theorem isDigit_iff (c : Char) : c.isDigit = true ↔ '0' ≤ c ∧ c ≤ '9' := by
  simp only [Char.isDigit, Char.le_def, Bool.and_eq_true, decide_eq_true_eq]

theorem eq_iff_le (c d : Char) : c = d ↔ d ≤ c ∧ c ≤ d := by rw [eq_comm, le_antisymm_iff]

theorem inRanges_lower (c : Char) : Regex.inRanges [('a', 'z')] c = c.isLower := by
  rw [Bool.eq_iff_iff, isLower_iff]
  simp [Regex.inRanges]

theorem inRanges_upper (c : Char) : Regex.inRanges [('A', 'Z')] c = c.isUpper := by
  rw [Bool.eq_iff_iff, isUpper_iff]
  simp [Regex.inRanges]

theorem inRanges_segment (c : Char) :
    Regex.inRanges [('a', 'z'), ('0', '9'), ('-', '-')] c = isSegmentChar c := by
  rw [Bool.eq_iff_iff]
  simp only [isSegmentChar, Regex.inRanges, List.any_cons, List.any_nil, Bool.or_false,
    Bool.or_eq_true, decide_eq_true_eq, beq_iff_eq, isLower_iff, isDigit_iff, eq_iff_le c '-',
    or_assoc]

theorem inRanges_code (c : Char) :
    Regex.inRanges [('A', 'Z'), ('0', '9'), ('_', '_')] c = isCodeChar c := by
  rw [Bool.eq_iff_iff]
  simp only [isCodeChar, Regex.inRanges, List.any_cons, List.any_nil, Bool.or_false,
    Bool.or_eq_true, decide_eq_true_eq, beq_iff_eq, isUpper_iff, isDigit_iff, eq_iff_le c '_',
    or_assoc]

theorem inRanges_lowerDigit (c : Char) :
    Regex.inRanges [('a', 'z'), ('0', '9')] c = (isSegmentChar c && c != '-') := by
  have hd : Regex.inRanges [('a', 'z'), ('0', '9')] '-' = false := by decide
  by_cases h : c = '-'
  · rw [h, hd]
    rfl
  · rw [← inRanges_segment, Bool.eq_iff_iff]
    simp [Regex.inRanges, h, ← eq_iff_le]

theorem isLower_segment {c : Char} (h : c.isLower = true) : isSegmentChar c = true ∧ c ≠ '-' := by
  refine ⟨by simp [isSegmentChar, h], fun hd => ?_⟩
  rw [hd] at h
  exact absurd h (by decide)

theorem isValidSegment_iff (segment : List Char) :
    isValidSegment segment = true ↔ segment ∈ segmentRegex.language := by
  rw [segmentRegex, lower, Regex.mem_set_seq]
  cases segment with
  | nil => simp [isValidSegment]
  | cons first rest =>
    simp only [List.cons.injEq, inRanges_lower, Regex.mem_opt, lowerDigit, Regex.mem_seq_set,
      lowerDigitDash, Regex.mem_star_set, inRanges_segment, inRanges_lowerDigit, isValidSegment]
    constructor
    · intro h
      simp only [Bool.and_eq_true, List.all_cons, Bool.not_eq_true', beq_eq_false_iff_ne] at h
      obtain ⟨⟨hf, hl⟩, -, hr⟩ := h
      refine ⟨first, rest, ⟨rfl, rfl⟩, hf, ?_⟩
      rcases List.eq_nil_or_concat rest with rfl | ⟨front, last, rfl⟩
      · exact .inl rfl
      · rw [List.concat_eq_append] at hl hr ⊢
        rw [← List.cons_append, List.getLast?_concat] at hl
        rw [List.all_append, Bool.and_eq_true, List.all_eq_true] at hr
        refine .inr ⟨front, last, rfl, hr.1, ?_⟩
        rw [Bool.and_eq_true, bne_iff_ne]
        exact ⟨by simpa using hr.2, fun hd => hl (by rw [hd])⟩
    · rintro ⟨_, _, ⟨rfl, rfl⟩, hf, hr⟩
      obtain ⟨hs, hd⟩ := isLower_segment hf
      rcases hr with rfl | ⟨front, last, rfl, hfr, hl⟩
      · simp [hf, hs, hd]
      · rw [Bool.and_eq_true, bne_iff_ne] at hl
        rw [← List.cons_append, List.getLast?_concat]
        simp [hf, hs, hl.1, hl.2, List.all_eq_true.mpr hfr]

theorem dot_not_mem_of_isValidSegment {segment : List Char} (h : isValidSegment segment = true) :
    '.' ∉ segment := by
  intro hm
  cases segment with
  | nil => cases hm
  | cons first rest =>
    rw [isValidSegment, Bool.and_eq_true] at h
    exact absurd (List.all_eq_true.mp h.2 '.' hm) (by decide)

theorem intercalate_dot (first : List Char) (segments : List (List Char)) :
    ['.'].intercalate (first :: segments) = first ++ (segments.map ('.' :: ·)).flatten := by
  induction segments generalizing first with
  | nil => simp
  | cons second segments ih =>
    rw [List.intercalate_cons_cons, ih second]
    simp

theorem mem_dot_segment {part : List Char} :
    part ∈ (Regex.seq (.single '.') segmentRegex).language ↔
      ∃ segment, part = '.' :: segment ∧ isValidSegment segment = true := by
  have hd : ∀ c, Regex.inRanges [('.', '.')] c = true ↔ c = '.' := fun c => by
    simp [Regex.inRanges, ← eq_iff_le]
  rw [Regex.single, Regex.mem_set_seq]
  constructor
  · rintro ⟨c, segment, rfl, hc, hs⟩
    exact ⟨segment, by rw [(hd c).mp hc], (isValidSegment_iff segment).mpr hs⟩
  · rintro ⟨segment, rfl, hs⟩
    exact ⟨'.', segment, rfl, (hd '.').mpr rfl, (isValidSegment_iff segment).mp hs⟩

theorem mem_methodName {word : List Char} :
    (∃ regex, Regex.parse methodNamePattern = some regex ∧ word ∈ regex.language) ↔
      ∃ first segments, segments ≠ [] ∧ word = ['.'].intercalate (first :: segments) ∧
        ∀ segment ∈ first :: segments, isValidSegment segment = true := by
  have ha : (Regex.seq lower (.seq (.opt (.seq (.star lowerDigitDash) lowerDigit))
      (.plus (.seq (.single '.') segmentRegex)))).language =
        (Regex.seq segmentRegex (.plus (.seq (.single '.') segmentRegex))).language :=
    (mul_assoc _ _ _).symm
  rw [parse_methodNamePattern]
  simp only [Option.some.injEq, exists_eq_left', ha, Regex.mem_seq, Regex.mem_plus]
  constructor
  · rintro ⟨first, hf, _, ⟨words, hne, rfl, hw⟩, rfl⟩
    have hpa : ∀ part ∈ words, part = '.' :: part.tail ∧ isValidSegment part.tail = true := by
      intro part hp
      obtain ⟨segment, rfl, hs⟩ := mem_dot_segment.mp (hw part hp)
      exact ⟨rfl, hs⟩
    have hm : (words.map List.tail).map ('.' :: ·) = words := by
      rw [List.map_map]
      exact (List.map_congr_left fun part hp => (hpa part hp).1.symm).trans
        (List.map_id words)
    refine ⟨first, words.map List.tail, by simpa using hne, ?_, ?_⟩
    · rw [intercalate_dot, hm]
    · refine List.forall_mem_cons.mpr ⟨(isValidSegment_iff first).mpr hf, ?_⟩
      intro segment hs
      obtain ⟨part, hp, rfl⟩ := List.mem_map.mp hs
      exact (hpa part hp).2
  · rintro ⟨first, segments, hne, rfl, hse⟩
    obtain ⟨hf, hr⟩ := List.forall_mem_cons.mp hse
    refine ⟨first, (isValidSegment_iff first).mp hf, _,
      ⟨segments.map ('.' :: ·), by simpa using hne, rfl, ?_⟩, (intercalate_dot _ _).symm⟩
    intro part hp
    obtain ⟨segment, hs, rfl⟩ := List.mem_map.mp hp
    exact mem_dot_segment.mpr ⟨segment, rfl, hr segment hs⟩

theorem splitOn_methodName {word : List Char} :
    ((word.splitOn '.').all isValidSegment = true ∧ 2 ≤ (word.splitOn '.').length) ↔
      ∃ regex, Regex.parse methodNamePattern = some regex ∧ word ∈ regex.language := by
  rw [mem_methodName, List.all_eq_true]
  constructor
  · rintro ⟨hv, hl⟩
    have hw : ['.'].intercalate (word.splitOn '.') = word := List.intercalate_splitOn '.'
    match hsp : word.splitOn '.', hl with
    | first :: second :: segments, _ =>
      rw [hsp] at hw hv
      exact ⟨first, second :: segments, List.cons_ne_nil _ _, hw.symm, hv⟩
  · rintro ⟨first, segments, hne, rfl, hs⟩
    rw [List.splitOn_intercalate '.' (fun segment hse =>
      dot_not_mem_of_isValidSegment (hs segment hse)) (List.cons_ne_nil _ _)]
    refine ⟨hs, ?_⟩
    have hp := List.length_pos_of_ne_nil hne
    rw [List.length_cons]
    omega

theorem methodName_length {word : List Char}
    (h : ∃ regex, Regex.parse methodNamePattern = some regex ∧ word ∈ regex.language) :
    constraints.minNameChars ≤ word.length := by
  obtain ⟨first, segments, hne, rfl, hs⟩ := mem_methodName.mp h
  obtain ⟨second, segments, rfl⟩ := List.exists_cons_of_ne_nil hne
  have hp : ∀ segment ∈ first :: second :: segments, 0 < segment.length := by
    intro segment hse
    have hv := hs segment hse
    cases segment with
    | nil => cases hv
    | cons _ _ => exact Nat.succ_pos _
  have hf := hp first (by simp)
  have hsec := hp second (by simp)
  rw [intercalate_dot]
  simp only [List.map_cons, List.flatten_cons, List.length_append, List.length_cons,
    constraints.minNameChars]
  omega

theorem isValidMethodName_matches (name : String) :
    isValidMethodName name = true ↔ name.length ≤ maxNameChars ∧
      ∃ regex, Regex.parse methodNamePattern = some regex ∧ name.toList ∈ regex.language := by
  rw [← splitOn_methodName, isValidMethodName]
  by_cases hl : maxNameChars < name.length
  · simp [hl]
  · simp [hl, Nat.not_lt.mp hl]

/-- The recogniser of method names takes the words of its pattern that have 128 characters or
less. -/
theorem isValidMethodName_iff_pattern (name : String) :
    isValidMethodName name = true ↔
      (∃ regex, Regex.parse methodNamePattern = some regex ∧ name.toList ∈ regex.language) ∧
        name.length ≤ 128 := by
  rw [isValidMethodName_matches, and_comm, maxNameChars]

theorem isValidMethodName_iff (name : String) :
    isValidMethodName name = true ↔ constraints.methodName.Accepts name := by
  rw [isValidMethodName_matches, constraints.methodName, StringSchema.accepts_pattern]
  constructor
  · rintro ⟨hl, hm⟩
    refine ⟨⟨?_, hl⟩, hm⟩
    rw [← String.length_toList]
    exact methodName_length hm
  · rintro ⟨⟨-, hl⟩, hm⟩
    exact ⟨hl, hm⟩

theorem isValidErrorCode_iff (code : String) :
    isValidErrorCode code = true ↔ constraints.errorCode.Accepts code := by
  have hm : (∃ regex, Regex.parse "^[A-Z][A-Z0-9_]*$" = some regex ∧
      code.toList ∈ regex.language) ↔
        ∃ first rest, code.toList = first :: rest ∧ first.isUpper = true ∧
          rest.all isCodeChar = true := by
    simp only [parse_errorCodePattern, Option.some.injEq, exists_eq_left', Regex.mem_set_seq,
      Regex.mem_star_set, inRanges_upper, inRanges_code, List.all_eq_true]
  have hc : isValidErrorCode code = true ↔
      (1 ≤ code.length ∧ code.length ≤ maxCodeChars) ∧
        ∃ first rest, code.toList = first :: rest ∧ first.isUpper = true ∧
          rest.all isCodeChar = true := by
    unfold isValidErrorCode
    split
    · rename_i hl
      cases hco : code.toList with
      | nil => simp
      | cons first rest => simp [hl]
    · rename_i hl
      simp [hl]
  rw [hc, constraints.errorCode, StringSchema.accepts_pattern, hm]

theorem role_accepts_iff {role : String} :
    constraints.role.Accepts role ↔ (1 ≤ role.length ∧ role.length ≤ maxCodeChars) ∧
      ∃ first rest, role.toList = first :: rest ∧ first.isLower = true ∧
        rest.all isSegmentChar = true := by
  rw [constraints.role, StringSchema.accepts_pattern]
  simp only [parse_rolePattern, Option.some.injEq, exists_eq_left', lower, lowerDigitDash,
    Regex.mem_set_seq, Regex.mem_star_set, inRanges_lower, inRanges_segment, List.all_eq_true]

theorem isValidRole_iff (role : String) :
    isValidRole role = true ↔
      constraints.role.Accepts role ∧ role.toList.getLast? ≠ some '-' := by
  have hc : isValidSegment role.toList = true ↔
      (∃ first rest, role.toList = first :: rest ∧ first.isLower = true ∧
        rest.all isSegmentChar = true) ∧ role.toList.getLast? ≠ some '-' := by
    cases role.toList with
    | nil => simp [isValidSegment]
    | cons first rest =>
      simp only [isValidSegment, Bool.and_eq_true, List.all_cons, Bool.not_eq_true',
        beq_eq_false_iff_ne, List.cons.injEq]
      constructor
      · rintro ⟨⟨hf, hl⟩, -, hr⟩
        exact ⟨⟨first, rest, ⟨rfl, rfl⟩, hf, hr⟩, hl⟩
      · rintro ⟨⟨_, _, ⟨rfl, rfl⟩, hf, hr⟩, hl⟩
        exact ⟨⟨hf, hl⟩, (isLower_segment hf).1, hr⟩
  rw [isValidRole, Bool.and_eq_true, decide_eq_true_eq, hc, role_accepts_iff, ← and_assoc]

/-! ### Every frame -/

def Frame.roleEndsWithDash : Frame → Bool
  | .hello body => body.peer.role.toList.getLast? == some '-'
  | _ => false

/-- The message of an error is no longer than a string of the language can be. -/
def Frame.messageFits : Frame → Prop
  | .err body => body.error.message.length ≤ usizeMax
  | _ => True

theorem Limits.conforms_iff {limits : Limits} :
    limits.Conforms ↔ validateLimits limits = .ok () := by
  rw [validateLimits_eq_ok]
  constructor
  · intro h
    exact ⟨fun n hn => IntegerSchema.accepts_bounds.mp (h.maxFrameBytes n hn),
      fun n hn => IntegerSchema.accepts_bounds.mp (h.maxInFlight n hn)⟩
  · rintro ⟨hb, hf⟩
    exact ⟨fun n hn => IntegerSchema.accepts_bounds.mpr (hb n hn),
      fun n hn => IntegerSchema.accepts_bounds.mpr (hf n hn)⟩

variable {platform : Platform}

theorem Hello.conforms_iff {hello : Hello} :
    hello.Conforms ↔ 1 ≤ hello.protocol.major.toNat ∧
      (1 ≤ hello.peer.name.length ∧ hello.peer.name.length ≤ maxNameChars) ∧
      (1 ≤ hello.peer.version.length ∧ hello.peer.version.length ≤ maxNameChars) ∧
      constraints.role.Accepts hello.peer.role ∧ ∀ limits ∈ hello.limits, limits.Conforms := by
  constructor
  · rintro ⟨hpr, hp, hl⟩
    exact ⟨IntegerSchema.accepts_least.mp hpr.major, StringSchema.accepts_bounds.mp hp.name,
      StringSchema.accepts_bounds.mp hp.version, hp.role, hl⟩
  · rintro ⟨hm, hn, hv, hr, hl⟩
    exact ⟨⟨IntegerSchema.accepts_least.mpr hm, IntegerSchema.accepts_least.mpr (Nat.zero_le _)⟩,
      ⟨StringSchema.accepts_bounds.mpr hn, StringSchema.accepts_bounds.mpr hv, hr⟩,
      hl⟩

theorem validate_hello_iff {hello : Hello} :
    validate platform (.hello hello) = .ok () ↔
      hello.Conforms ∧ hello.peer.role.toList.getLast? ≠ some '-' := by
  have hm : (!decide (hello.protocol.major < 1)) = true ↔ 1 ≤ hello.protocol.major.toNat := by
    rw [Bool.not_eq_true', decide_eq_false_iff_not, UInt32.not_lt, UInt32.le_iff_toNat_le]
    rfl
  obtain ⟨protocol, peer, capabilities, limits⟩ := hello
  simp only [Hello.conforms_iff, validate, validateHello, check_bind_eq_ok, require_eq_ok,
    checkLength_eq_ok, hm, isValidRole_iff]
  cases limits with
  | none => simp only [reduceCtorEq, Option.mem_def, false_implies, implies_true]; tauto
  | some limits => simp only [Option.mem_some, forall_eq', Limits.conforms_iff]; tauto

theorem validate_event_iff {event : Event} :
    validate platform (.evt event) = .ok () ↔ event.Conforms := by
  obtain ⟨topic, seq, streamId, payload, end_⟩ := event
  simp only [validate, validateEvent, check_bind_eq_ok, checkMethodName_eq_ok,
    isValidMethodName_iff]
  cases streamId with
  | none =>
    exact ⟨fun h => ⟨h.1, IntegerSchema.accepts_least.mpr (Nat.zero_le _), by simp⟩,
      fun h => ⟨h.topic, rfl⟩⟩
  | some streamId =>
    have hs : checkId platform "evt.streamId" streamId = .ok () ↔
        ∀ other ∈ some streamId, constraints.id.Accepts other := by
      simp [constraints.id, StringSchema.accepts_bounds]
    exact ⟨fun h => ⟨h.1, IntegerSchema.accepts_least.mpr (Nat.zero_le _), hs.mp h.2⟩,
      fun h => ⟨h.topic, hs.mpr h.streamId⟩⟩

theorem validate_close_iff {close : Close} :
    validate platform (.close close) = .ok () ↔ close.Conforms := by
  obtain ⟨code, reason⟩ := close
  have hc : (decide (minCloseCode ≤ code) && decide (code ≤ maxCloseCode)) = true ↔
      constraints.closeCode.Accepts code.toNat := by
    rw [constraints.closeCode, IntegerSchema.accepts_bounds, Bool.and_eq_true, decide_eq_true_eq,
      decide_eq_true_eq, UInt16.le_iff_toNat_le, UInt16.le_iff_toNat_le]
  simp only [validate, validateClose, check_bind_eq_ok, require_eq_ok, hc]
  cases reason with
  | none => exact ⟨fun h => ⟨h.1, by simp⟩, fun h => ⟨h.code, rfl⟩⟩
  | some reason =>
    have hr : checkLength platform "close.reason" reason 0 maxReasonChars = .ok () ↔
        ∀ other ∈ some reason, constraints.closeReason.Accepts other := by
      simp [constraints.closeReason, StringSchema.accepts_bounds]
    exact ⟨fun h => ⟨h.1, hr.mp h.2⟩, fun h => ⟨h.code, hr.mpr h.reason⟩⟩

theorem validate_eq_ok_iff {frame : Frame} (hf : frame.messageFits) :
    validate platform frame = .ok () ↔
      frame.Conforms ∧ frame.roleEndsWithDash = false := by
  cases frame with
  | hello body =>
    rw [validate_hello_iff]
    simp [Frame.Conforms, Frame.roleEndsWithDash]
  | req body =>
    rw [validate_req, isValidMethodName_iff, ← StringSchema.accepts_bounds]
    exact ⟨fun h => ⟨⟨h.1, h.2⟩, rfl⟩, fun h => ⟨h.1.id, h.1.method⟩⟩
  | res body =>
    rw [validate_res, ← StringSchema.accepts_bounds]
    exact (and_iff_left rfl).symm
  | err body =>
    rw [validate_err, isValidErrorCode_iff, ← StringSchema.accepts_bounds]
    exact ⟨fun h => ⟨⟨h.1, h.2.1, StringSchema.accepts_least.mpr h.2.2.1⟩, rfl⟩,
      fun h => ⟨h.1.id, h.1.error.code, StringSchema.accepts_least.mp h.1.error.message, hf⟩⟩
  | evt body =>
    rw [validate_event_iff]
    exact (and_iff_left rfl).symm
  | cancel body =>
    rw [validate, checkId_eq_ok, ← StringSchema.accepts_bounds]
    exact (and_iff_left rfl).symm
  | ping => exact ⟨fun _ => ⟨trivial, rfl⟩, fun _ => rfl⟩
  | pong => exact ⟨fun _ => ⟨trivial, rfl⟩, fun _ => rfl⟩
  | close body =>
    rw [validate_close_iff]
    exact (and_iff_left rfl).symm

/-- The validator and the schema agree on a frame exactly when it is not a `hello` that satisfies
the schema and whose role ends with a dash. -/
theorem validate_agrees_iff {frame : Frame} (hfits : frame.messageFits) :
    (validate platform frame = .ok () ↔ frame.Conforms) ↔
      ¬(frame.Conforms ∧ frame.roleEndsWithDash = true) := by
  rw [validate_eq_ok_iff hfits]
  cases frame.roleEndsWithDash <;> simp

/-- A hello with a role. -/
def helloOf (role : String) : Hello :=
  ⟨⟨1, 0⟩, ⟨"mango", "1.0.0", role⟩, Map.empty, none⟩

theorem helloOf_conforms {role : String} (h : constraints.role.Accepts role) :
    (Frame.hello (helloOf role)).Conforms := by
  have hn : 1 ≤ "mango".length ∧ "mango".length ≤ maxNameChars := by decide +kernel
  have hv : 1 ≤ "1.0.0".length ∧ "1.0.0".length ≤ maxNameChars := by decide +kernel
  exact ⟨⟨IntegerSchema.accepts_least.mpr le_rfl, IntegerSchema.accepts_least.mpr le_rfl⟩,
    ⟨StringSchema.accepts_bounds.mpr hn, StringSchema.accepts_bounds.mpr hv, h⟩, nofun⟩

/-- A hello whose role is a label. -/
theorem validate_agrees_iff_runtime :
    (Frame.hello (helloOf "runtime")).Conforms ∧
      validate (tablePlatform []) (.hello (helloOf "runtime")) = .ok () := by
  have hc : (Frame.hello (helloOf "runtime")).Conforms :=
    helloOf_conforms (role_accepts_iff.mpr ⟨by decide +kernel, 'r', "untime".toList, rfl, rfl, rfl⟩)
  have hf : (Frame.hello (helloOf "runtime")).messageFits := trivial
  have ha : validate (tablePlatform []) (.hello (helloOf "runtime")) = .ok () ↔
      (Frame.hello (helloOf "runtime")).Conforms :=
    (validate_agrees_iff hf).mpr fun h => absurd h.2 (by decide +kernel)
  exact ⟨hc, ha.mpr hc⟩

/-- A hello whose role ends with a dash satisfies the schema, and the validator refuses it. -/
theorem validate_refuses_dash :
    (Frame.hello (helloOf "runtime-")).Conforms ∧
      validate (tablePlatform []) (.hello (helloOf "runtime-")) ≠ .ok () := by
  refine ⟨helloOf_conforms
    (role_accepts_iff.mpr ⟨by decide +kernel, 'r', "untime-".toList, rfl, rfl, rfl⟩), ?_⟩
  rw [Ne, validate_hello_iff, not_and, not_not]
  intro _
  decide +kernel

end MangoProtocol
