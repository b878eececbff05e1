import MangoProtocol.TypeScript.Session

/-! The size of the refusals of a TypeScript session.  An id has at most 256 characters and a
method at most 128.  Where a character takes at most six bytes of JSON, as a code point does, every
refusal but the one that names an id twice more fits the smallest frame limit that a port may
have. -/

namespace MangoProtocol.TypeScript

/-! ### Texts -/

/-- The bytes of a string between its quotes. -/
def escapedSize (text : JsString) : Nat :=
  ((JsString.codePoints text).flatMap CodePoint.escape).length

theorem quoted_length (text : JsString) : (JsString.quoted text).length = escapedSize text + 2 := by
  simp [JsString.quoted, escapedSize]

theorem CodePoint.escape_length_le (point : CodePoint) : point.escape.length ≤ 6 := by
  cases point with
  | char value => exact (escapeChar_length value).2
  | lone surrogate => exact le_rfl

theorem escapedSize_le (text : JsString) : escapedSize text ≤ 6 * schemaLength text := by
  unfold escapedSize schemaLength
  induction JsString.codePoints text with
  | nil => exact le_rfl
  | cons point points ih =>
    have hp := point.escape_length_le
    rw [List.flatMap_cons, List.length_append, List.length_cons]
    omega

variable {members : List (String × Visit)} {low high : UInt16} {id : JsString}

theorem escapedSize_pair (h : (isHighSurrogate high && isLowSurrogate low) = true)
    (rest : JsString) :
    escapedSize (high :: low :: rest) =
      (CodePoint.ofPair high low).escape.length + escapedSize rest := by
  rw [escapedSize, JsString.codePoints, if_pos h, List.flatMap_cons, List.length_append,
    escapedSize]

theorem escapedSize_unit (h : ¬(isHighSurrogate high && isLowSurrogate low) = true)
    (rest : JsString) :
    escapedSize (high :: low :: rest) =
      (CodePoint.ofUnit high).escape.length + escapedSize (low :: rest) := by
  rw [escapedSize, JsString.codePoints, if_neg h, List.flatMap_cons, List.length_append,
    escapedSize]

theorem escapedSize_singleton (unit : UInt16) :
    escapedSize [unit] = (CodePoint.ofUnit unit).escape.length := by
  simp only [escapedSize, JsString.codePoints, List.flatMap_cons, List.flatMap_nil, List.append_nil]

theorem escapedSize_cons {unit : UInt16} (h : isHighSurrogate unit = false) (rest : JsString) :
    escapedSize (unit :: rest) = (CodePoint.ofUnit unit).escape.length + escapedSize rest := by
  cases rest with
  | nil => exact escapedSize_singleton unit
  | cons next rest =>
    exact escapedSize_unit (by rw [h, Bool.false_and]; exact Bool.false_ne_true) rest

theorem escapedSize_low (h : isLowSurrogate low = true) (rest : JsString) :
    escapedSize (low :: rest) = 6 + escapedSize rest := by
  have hh : isHighSurrogate low = false := by
    simp only [isLowSurrogate, Bool.and_eq_true, decide_eq_true_eq] at h
    simp only [isHighSurrogate, Bool.and_eq_false_iff, decide_eq_false_iff_not]
    refine .inr fun hle => ?_
    have hl := h.1
    rw [UInt16.le_iff_toNat_le] at hle hl
    exact absurd (hl.trans hle) (by decide)
  have hes : (CodePoint.ofUnit low).escape.length = 6 := by
    rw [CodePoint.ofUnit, h, Bool.or_true, if_pos rfl]
    rfl
  rw [escapedSize_cons hh, hes]

theorem escapedSize_append_le (first second : JsString) :
    escapedSize (first ++ second) ≤ escapedSize first + escapedSize second := by
  induction first using JsString.codePoints.induct with
  | case1 => simp [escapedSize, JsString.codePoints]
  | case2 unit =>
    cases second with
    | nil => exact Nat.le_add_right _ _
    | cons low rest =>
      rw [List.singleton_append]
      by_cases hp : (isHighSurrogate unit && isLowSurrogate low) = true
      · have hs := (CodePoint.ofPair unit low).escape_length_le
        rw [escapedSize_pair hp, escapedSize_low (Bool.and_eq_true_iff.mp hp).2]
        omega
      · rw [escapedSize_unit hp, escapedSize_singleton]
  | case3 high low rest hp ih =>
    rw [List.cons_append, List.cons_append, escapedSize_pair hp, escapedSize_pair hp]
    omega
  | case4 high low rest hp ih => grind [escapedSize_unit]

/-! ### Numbers -/

theorem digit_units {c : Char} (h : c.isDigit = true) :
    ∃ unit, utf16Units c = [unit] ∧ isHighSurrogate unit = false ∧
      (CodePoint.ofUnit unit).escape.length = 1 ∧ (String.utf8EncodeChar c).length = 1 := by
  have hr : 48 ≤ c.toNat ∧ c.toNat ≤ 57 := by
    simp_all [Char.isDigit, Bool.and_eq_true, UInt32.le_iff_toNat_le]
  obtain ⟨hl, hh⟩ := hr
  obtain ⟨n, hn⟩ : ∃ n, c = Char.ofNat n ∧ 48 ≤ n ∧ n ≤ 57 :=
    ⟨c.toNat, (Char.ofNat_toNat c).symm, hl, hh⟩
  obtain ⟨rfl, hn⟩ := hn
  have hn : n = 48 ∨ n = 49 ∨ n = 50 ∨ n = 51 ∨ n = 52 ∨ n = 53 ∨ n = 54 ∨ n = 55 ∨ n = 56 ∨
      n = 57 := by omega
  rcases hn with rfl | rfl | rfl | rfl | rfl | rfl | rfl | rfl | rfl | rfl <;>
    exact ⟨_, rfl, by decide, by decide, by decide⟩

theorem repr_digits (n : Nat) : ∀ c ∈ n.repr.toList, c.isDigit = true := by
  intro c hc
  rw [Nat.toList_repr] at hc
  exact Nat.isDigit_of_mem_toDigits (by decide) (by decide) hc

theorem decimal_length (n : Nat) : (decimal n).length = n.repr.length := by
  rw [decimal, utf8, ← String.length_toList]
  have hd := repr_digits n
  generalize n.repr.toList = digits at hd ⊢
  induction digits with
  | nil => rfl
  | cons c cs ih =>
    obtain ⟨-, -, -, -, hb⟩ := digit_units (hd c List.mem_cons_self)
    rw [List.flatMap_cons, List.length_append, hb, List.length_cons,
      ih fun other ho => hd other (List.mem_cons_of_mem c ho)]
    exact Nat.add_comm 1 _

theorem escapedSize_repr (n : Nat) : escapedSize (js n.repr) = n.repr.length := by
  rw [js, ← String.length_toList]
  have hd := repr_digits n
  generalize n.repr.toList = digits at hd ⊢
  induction digits with
  | nil => rfl
  | cons c cs ih =>
    obtain ⟨unit, hu, hp, hs, -⟩ := digit_units (hd c List.mem_cons_self)
    rw [List.flatMap_cons, hu, List.singleton_append, escapedSize_cons hp, hs,
      List.length_cons, ih fun other ho => hd other (List.mem_cons_of_mem c ho)]
    exact Nat.add_comm 1 _

/-! ### Objects -/

namespace Visit

/-- The bytes that a visit writes. -/
def size : Visit → Nat
  | .text bytes => bytes.length
  | _ => 0

def plain : Visit → Bool
  | .throws _ => false
  | _ => true

end Visit

/-- What a member adds to an object: its key in quotes, a colon, its value and a comma. -/
def memberSize (member : String × Visit) : Nat :=
  (MangoProtocol.quoted member.1).length + 2 + member.2.size

theorem intercalate_cons_length_le (text : List UInt8) (texts : List (List UInt8)) :
    ([44].intercalate (text :: texts)).length ≤
      text.length + 1 + ([44].intercalate texts).length := by
  cases texts with
  | nil => simp
  | cons next texts =>
    rw [List.intercalate_cons_cons, List.length_append, List.length_append, List.length_singleton]

theorem stringifyMembers_ok (h : ∀ member ∈ members, member.2.plain = true) :
    ∃ texts, stringifyMembers members = .ok texts ∧
      ([44].intercalate texts).length ≤ (members.map memberSize).sum := by
  induction members with
  | nil => exact ⟨[], rfl, le_rfl⟩
  | cons member members ih =>
    obtain ⟨key, visit⟩ := member
    obtain ⟨texts, hr, hl⟩ := ih fun other ho => h other (List.mem_cons_of_mem _ ho)
    cases visit with
    | throws reason => cases h _ List.mem_cons_self
    | omitted =>
      refine ⟨texts, hr, hl.trans ?_⟩
      rw [List.map_cons, List.sum_cons]
      exact Nat.le_add_left _ _
    | text bytes =>
      refine ⟨((MangoProtocol.quoted key ++ [58]) ++ bytes) :: texts,
        by rw [stringifyMembers, hr]; rfl, ?_⟩
      have hc := intercalate_cons_length_le ((MangoProtocol.quoted key ++ [58]) ++ bytes) texts
      rw [List.length_append, List.length_append, List.length_singleton] at hc
      simp only [List.map_cons, List.sum_cons, memberSize, Visit.size]
      omega

theorem object_ok (h : ∀ member ∈ members, member.2.plain = true) :
    ∃ bytes, stringifyObject members = .ok bytes ∧ Visit.object members = .text bytes ∧
      bytes.length ≤ 2 + (members.map memberSize).sum := by
  obtain ⟨texts, ht, hl⟩ := stringifyMembers_ok h
  have ho : stringifyObject members = .ok (123 :: ([44].intercalate texts ++ [125])) := by
    rw [stringifyObject, ht]
    rfl
  refine ⟨_, ho, by rw [Visit.object, ho], ?_⟩
  rw [List.length_cons, List.length_append, List.length_singleton]
  omega

/-! ### Frames -/

def Frame.fits (self : Frame) (limit : Option Nat) : Bool :=
  match self.stringify with
  | .error _ => false
  | .ok bytes => limit.all fun bound => bytes.length ≤ bound

/-- The frame limit of a port, if it has one, is at least the smallest that there is. -/
def LimitFloor (limit : Option Nat) : Prop := ∀ bound, limit = some bound → minMaxFrameBytes ≤ bound

/-- The bytes of an `err` frame, at most. -/
def answerSize (id : JsString) (error : ErrorPayload) : Nat :=
  68 + escapedSize id + escapedSize error.code + escapedSize error.message +
    (Visit.option JsValue.now error.details).size

theorem text_size (bytes : List UInt8) : (Visit.text bytes).size = bytes.length := by
  rw [Visit.size]

theorem string_size (text : JsString) : (Visit.string text).size = escapedSize text + 2 :=
  quoted_length text

theorem number_size (n : Nat) : (Visit.number n).size = n.repr.length := decimal_length n

theorem err_fits {limit : Option Nat} {error : ErrorPayload} (hli : LimitFloor limit)
    (hp : (Visit.option JsValue.now error.details).plain = true)
    (hs : answerSize id error ≤ minMaxFrameBytes) : (Frame.err id error).fits limit = true := by
  have hme : ∀ member ∈ error.members, member.2.plain = true := by
    intro member hm
    simp only [ErrorPayload.members, List.mem_cons, List.not_mem_nil, or_false] at hm
    rcases hm with rfl | rfl | rfl
    · rfl
    · rfl
    · exact hp
  obtain ⟨inner, -, hi, hinn⟩ := object_ok hme
  have ho : ∀ member ∈ ("type", Visit.text (MangoProtocol.quoted "err")) ::
      (Frame.err id error).members, member.2.plain = true := by
    intro member hm
    simp only [Frame.members, hi, List.mem_cons, List.not_mem_nil, or_false] at hm
    rcases hm with rfl | rfl | rfl <;> rfl
  obtain ⟨bytes, hb, -, hl⟩ := object_ok ho
  have ht : bytes.length ≤ answerSize id error := by
    refine hl.trans ?_
    have hk : (MangoProtocol.quoted "type").length = 6 ∧
        (MangoProtocol.quoted "err").length = 5 ∧ (MangoProtocol.quoted "id").length = 4 ∧
        (MangoProtocol.quoted "error").length = 7 ∧ (MangoProtocol.quoted "code").length = 6 ∧
        (MangoProtocol.quoted "message").length = 9 ∧
        (MangoProtocol.quoted "details").length = 9 := by decide +kernel
    obtain ⟨hty, he, hid, her, hc, hmes, hd⟩ := hk
    simp only [ErrorPayload.members, List.map_cons, List.map_nil, List.sum_cons, List.sum_nil,
      memberSize, string_size, hc, hmes, hd] at hinn
    simp only [Frame.members, hi, List.map_cons, List.map_nil, List.sum_cons, List.sum_nil,
      memberSize, string_size, text_size, hty, he, hid, her, answerSize]
    omega
  rw [Frame.fits, Frame.stringify, show (Frame.err id error).type = "err" from rfl, hb]
  cases limit with
  | none => rfl
  | some bound =>
    exact decide_eq_true (ht.trans (hs.trans (hli bound rfl)))

/-! ### The refusals of a session -/

theorem escapedSize_around_le (before after : String) (text : JsString) :
    escapedSize (js before ++ text ++ js after) ≤
      escapedSize (js before) + escapedSize text + escapedSize (js after) := by
  have hf := escapedSize_append_le (js before ++ text) (js after)
  have hs := escapedSize_append_le (js before) text
  omega

theorem escapedSize_number_le (before after : String) (n : Nat) :
    escapedSize (js (before ++ n.repr ++ after)) ≤
      escapedSize (js before) + n.repr.length + escapedSize (js after) := by
  rw [js_append, js_append, ← escapedSize_repr]
  exact escapedSize_around_le before after (js n.repr)

theorem repr_length_le {n digits : Nat} (hd : 0 < digits) (h : n < 10 ^ digits) :
    n.repr.length ≤ digits :=
  (Nat.length_repr_le_iff hd).mpr h

def numberBound : Nat := 2 ^ 1024

section Refusals

variable {limit : Option Nat} {id method : JsString}

variable {code message : JsString}

theorem refusal_fits {members : List (String × Visit)} (hl : LimitFloor limit)
    (hid : escapedSize id ≤ 1536) (hp : ∀ member ∈ members, member.2.plain = true)
    (hs : escapedSize code + escapedSize message + (members.map memberSize).sum ≤ 2490) :
    (Frame.err id ⟨code, message, some (plainObject members)⟩).fits limit = true := by
  obtain ⟨bytes, -, ho, hle⟩ := object_ok hp
  have hn : Visit.option JsValue.now (some (plainObject members)) = .text bytes := ho
  refine err_fits hl (by rw [hn]; rfl) ?_
  simp only [answerSize, hn, text_size, minMaxFrameBytes]
  omega

theorem plain_fits (hl : LimitFloor limit) (hid : escapedSize id ≤ 1536)
    (hs : escapedSize code + escapedSize message ≤ 2490) :
    (Frame.err id ⟨code, message, none⟩).fits limit = true := by
  refine err_fits hl rfl ?_
  have hn : (Visit.option JsValue.now none).size = 0 := rfl
  simp only [answerSize, hn, minMaxFrameBytes]
  omega

theorem inFlightLimit_fits {held : Nat} (hl : LimitFloor limit) (hid : escapedSize id ≤ 1536)
    (hm : escapedSize method ≤ 768) (hh : held ≤ maxAnnouncedInFlight) :
    (Frame.err id (.inFlightLimit held method)).fits limit = true := by
  refine refusal_fits hl hid (by simp [Visit.plain, Visit.string, Visit.number]) ?_
  have hd : held.repr.length ≤ 10 :=
    repr_length_le (by decide) (Nat.lt_of_le_of_lt hh (by decide))
  have ho := escapedSize_around_le
    ("This peer is already answering " ++ held.repr ++ " requests; retry \"")
    "\" once one of yours has settled." method
  have hi := escapedSize_number_le "This peer is already answering " " requests; retry \"" held
  have hc : escapedSize reservedErrorCodes.unavailable +
      escapedSize (js "This peer is already answering ") + escapedSize (js " requests; retry \"") +
      escapedSize (js "\" once one of yours has settled.") +
      escapedSize (js "in_flight_limit") + (MangoProtocol.quoted "kind").length +
      (MangoProtocol.quoted "limit").length + (MangoProtocol.quoted "method").length ≤ 300 := by
    decide +kernel
  simp only [List.map_cons, List.map_nil, List.sum_cons, List.sum_nil, memberSize, string_size,
    number_size]
  omega

theorem reservedMethod_fits {effectiveMinor : Nat} (hl : LimitFloor limit)
    (hid : escapedSize id ≤ 1536) (hm : escapedSize method ≤ 768)
    (hmi : effectiveMinor < numberBound) :
    (Frame.err id (.reservedMethod method effectiveMinor)).fits limit = true := by
  refine refusal_fits hl hid (by simp [Visit.plain, Visit.string, Visit.number]) ?_
  have hd : effectiveMinor.repr.length ≤ 309 :=
    repr_length_le (by decide) (Nat.lt_of_lt_of_le hmi (by decide +kernel))
  have ho := escapedSize_around_le "Method \""
    ("\" is reserved; the rpc. segment belongs to the protocol and " ++
      "defines no such method at wire minor " ++ effectiveMinor.repr ++ ".") method
  have hi := escapedSize_number_le
    ("\" is reserved; the rpc. segment belongs to the protocol and " ++
      "defines no such method at wire minor ") "." effectiveMinor
  have hc : escapedSize reservedErrorCodes.invalidRequest + escapedSize (js "Method \"") +
      escapedSize (js ("\" is reserved; the rpc. segment belongs to the protocol and " ++
        "defines no such method at wire minor ")) + escapedSize (js ".") +
      (MangoProtocol.quoted "method").length +
      (MangoProtocol.quoted "effectiveMinor").length ≤ 300 := by decide +kernel
  simp only [List.map_cons, List.map_nil, List.sum_cons, List.sum_nil, memberSize, string_size,
    number_size]
  omega

theorem noHandler_fits (hl : LimitFloor limit) (hid : escapedSize id ≤ 1536)
    (hm : escapedSize method ≤ 768) : (Frame.err id (.noHandler method)).fits limit = true := by
  refine refusal_fits hl hid (by simp [Visit.plain, Visit.string]) ?_
  have ha := escapedSize_around_le "Method \"" "\" has no handler on this peer." method
  have hc : escapedSize reservedErrorCodes.methodUnsupported + escapedSize (js "Method \"") +
      escapedSize (js "\" has no handler on this peer.") +
      (MangoProtocol.quoted "method").length ≤ 300 := by decide +kernel
  simp only [List.map_cons, List.map_nil, List.sum_cons, List.sum_nil, memberSize, string_size]
  omega

theorem frameTooLarge_fits {bytes bound : Nat} (hl : LimitFloor limit)
    (hid : escapedSize id ≤ 1536) (hm : escapedSize method ≤ 768) (hby : bytes < 2 ^ 55)
    (hb : bound ≤ maxAnnouncedFrameBytes) :
    (Frame.err id (.frameTooLarge method bytes bound)).fits limit = true := by
  refine refusal_fits hl hid (by simp [Visit.plain, Visit.string, Visit.number]) ?_
  have hd : bytes.repr.length ≤ 17 :=
    repr_length_le (by decide) (Nat.lt_of_lt_of_le hby (by decide))
  have hbo : bound.repr.length ≤ 10 :=
    repr_length_le (by decide) (Nat.lt_of_le_of_lt hb (by decide))
  have ho := escapedSize_around_le "The result of \"" ("\" encodes to " ++ bytes.repr ++
    " bytes; the session limit is " ++ bound.repr ++ " bytes.") method
  have hs := escapedSize_number_le ("\" encodes to " ++ bytes.repr ++
    " bytes; the session limit is ") " bytes." bound
  have hf := escapedSize_number_le "\" encodes to " " bytes; the session limit is " bytes
  have hc : escapedSize reservedErrorCodes.frameTooLarge +
      escapedSize (js "The result of \"") + escapedSize (js "\" encodes to ") +
      escapedSize (js " bytes; the session limit is ") + escapedSize (js " bytes.") +
      (MangoProtocol.quoted "method").length + (MangoProtocol.quoted "bytes").length +
      (MangoProtocol.quoted "limit").length ≤ 300 := by decide +kernel
  simp only [List.map_cons, List.map_nil, List.sum_cons, List.sum_nil, memberSize, string_size,
    number_size]
  omega

end Refusals

end MangoProtocol.TypeScript
