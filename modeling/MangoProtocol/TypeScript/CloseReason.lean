import MangoProtocol.Transports.SocketWriter
import MangoProtocol.TypeScript.WebSocketPort

/-! The close reason that the WebSocket port of the TypeScript package sends.  The clamp measures
UTF-8 and drops code units, and the first half of a surrogate pair measures one byte less than the
pair: where that byte is the one too many, the cut leaves the half. -/

namespace MangoProtocol.TypeScript

/-! ### Code units of a text -/

theorem encode_units_append (chars : List Char) (rest : JsString) :
    (JsString.encode (chars.flatMap utf16Units ++ rest)).length =
      (chars.flatMap String.utf8EncodeChar).length + (JsString.encode rest).length := by
  rw [JsString.encode, codePoints_units_append, List.flatMap_append, List.length_append,
    List.flatMap_map]
  rfl

theorem encode_js (text : String) :
    (JsString.encode (js text)).length = (utf8 text).length := by
  have h := encode_units_append text.toList []
  rw [List.append_nil] at h
  exact h

theorem utf8Size_astral {c : Char} (h : 0x10000 ≤ c.toNat) : c.utf8Size = 4 := by
  have hl : ∀ bound : UInt32, bound.toNat < 0x10000 → ¬c.val ≤ bound := by
    intro bound hb hle
    rw [UInt32.le_iff_toNat_le] at hle
    exact absurd (h.trans hle) (Nat.not_le.mpr hb)
  rw [Char.utf8Size, if_neg (hl _ (by decide)), if_neg (hl _ (by decide)),
    if_neg (hl _ (by decide))]

theorem units_length_le (chars : List Char) :
    (chars.flatMap utf16Units).length ≤ (chars.flatMap String.utf8EncodeChar).length := by
  induction chars with
  | nil => exact le_rfl
  | cons c chars ih =>
    rw [List.flatMap_cons, List.flatMap_cons, List.length_append, List.length_append]
    have hs : (utf16Units c).length ≤ (String.utf8EncodeChar c).length := by
      rw [String.length_utf8EncodeChar]
      unfold utf16Units
      split
      · exact c.utf8Size_pos
      · rename_i ha
        rw [utf8Size_astral (by omega)]
        exact Nat.le_add_left 2 2
    omega

/-! ### The loop -/

theorem dropToFit_eq {text : JsString} {stop : Nat} (hst : stop ≤ text.length)
    (hfits : (JsString.encode (text.take stop)).length ≤ maxCloseReasonBytes)
    (ho : ∀ later, stop < later → later ≤ text.length →
      maxCloseReasonBytes < (JsString.encode (text.take later)).length) :
    dropToFit text = text.take stop := by
  induction hlen : text.length - stop generalizing text with
  | zero =>
    have ha : text.take stop = text := List.take_of_length_le (by omega)
    rw [ha] at hfits ⊢
    rw [dropToFit, if_neg fun h => absurd h.2 (Nat.not_lt.mpr hfits)]
  | succ steps ih =>
    have hl := ho text.length (by omega) le_rfl
    rw [List.take_length] at hl
    have hea : ∀ n < text.length, text.dropLast.take n = text.take n := by
      intro n hn
      rw [List.dropLast_eq_take, List.take_take, min_eq_left (by omega)]
    have hs : text.dropLast.length = text.length - 1 := List.length_dropLast
    rw [dropToFit, if_pos ⟨by omega, hl⟩, ih (by omega) ?_ ?_ (by omega),
      hea stop (by omega)]
    · rw [hea stop (by omega)]
      exact hfits
    · intro later hla hle
      rw [hea later (by omega)]
      exact ho later hla (by omega)

theorem clampCloseReason_eq {reason : JsString} {stop : Nat}
    (hlo : maxCloseReasonBytes < (JsString.encode reason).length)
    (hst : stop < reason.length) (hsl : stop ≤ maxCloseReasonBytes)
    (hfits : (JsString.encode (reason.take stop)).length ≤ maxCloseReasonBytes)
    (ho : ∀ later, stop < later →
      maxCloseReasonBytes < (JsString.encode (reason.take later)).length) :
    clampCloseReason (some reason) = some (reason.take stop) := by
  have hs : ∀ n ≤ maxCloseReasonBytes,
      (reason.take maxCloseReasonBytes).take n = reason.take n := by
    intro n hn
    rw [List.take_take, min_eq_left hn]
  have hloo : dropToFit (reason.take maxCloseReasonBytes) =
      (reason.take maxCloseReasonBytes).take stop := by
    refine dropToFit_eq ?_ ?_ fun later hl hle => ?_
    · rw [List.length_take]
      omega
    · rw [hs stop hsl]
      exact hfits
    · rw [List.length_take] at hle
      rw [hs later (by omega)]
      exact ho later hl
  rw [clampCloseReason, Option.map_some, if_neg (Nat.not_le.mpr hlo), hloo, hs stop hsl]

/-! ### Where the cut comes -/

/-- The text has a character outside the Basic Multilingual Plane that starts at a byte. -/
def AstralAt (offset : Nat) (text : String) : Prop :=
  ∃ front c rest, text.toList = front ++ c :: rest ∧
    (front.flatMap String.utf8EncodeChar).length = offset ∧ 0x10000 ≤ c.toNat

theorem encode_high {high : UInt16} (h : isHighSurrogate high = true) :
    (JsString.encode [high]).length = 3 := by
  simp [JsString.encode, JsString.codePoints, CodePoint.ofUnit, h, CodePoint.encode]

section Cut

variable {front rest : List Char} {c : Char}

theorem encode_take_past (later : Nat)
    (hl : (front.flatMap utf16Units).length + (utf16Units c).length ≤ later) :
    (front.flatMap String.utf8EncodeChar).length + c.utf8Size ≤
      (JsString.encode (((front ++ c :: rest).flatMap utf16Units).take later)).length := by
  have ht : ((front ++ c :: rest).flatMap utf16Units).take later =
      (front ++ [c]).flatMap utf16Units ++ (rest.flatMap utf16Units).take
        (later - ((front ++ [c]).flatMap utf16Units).length) := by
    have hs : front ++ c :: rest = (front ++ [c]) ++ rest := by simp
    rw [hs, List.flatMap_append, List.take_append, List.take_of_length_le]
    rw [List.flatMap_append, List.length_append, List.flatMap_singleton]
    exact hl
  rw [ht, encode_units_append, List.flatMap_append, List.length_append,
    List.flatMap_singleton, String.length_utf8EncodeChar]
  exact Nat.le_add_right _ _

theorem take_units : ((front ++ c :: rest).flatMap utf16Units).take
    (front.flatMap utf16Units).length = front.flatMap utf16Units := by
  rw [List.flatMap_append, List.take_left]

theorem encode_units : (JsString.encode (front.flatMap utf16Units)).length =
    (front.flatMap String.utf8EncodeChar).length := by
  have h := encode_units_append front []
  rw [List.append_nil] at h
  exact h

theorem encode_take_half (rest : List Char) {high low : UInt16}
    (hu : utf16Units c = [high, low]) (hh : isHighSurrogate high = true) :
    ((front ++ c :: rest).flatMap utf16Units).take ((front.flatMap utf16Units).length + 1) =
        front.flatMap utf16Units ++ [high] ∧
      (JsString.encode (front.flatMap utf16Units ++ [high])).length =
        (front.flatMap String.utf8EncodeChar).length + 3 := by
  refine ⟨?_, by rw [encode_units_append, encode_high hh]⟩
  rw [List.flatMap_append, List.take_length_add_append, List.flatMap_cons, hu]
  rfl

theorem units_length : ((front ++ c :: rest).flatMap utf16Units).length =
    (front.flatMap utf16Units).length + (utf16Units c).length +
      (rest.flatMap utf16Units).length := by
  rw [List.flatMap_append, List.length_append, List.flatMap_cons, List.length_append,
    Nat.add_assoc]

variable (hfits : (front.flatMap String.utf8EncodeChar).length ≤ maxCloseReasonBytes)
  (hnext : maxCloseReasonBytes < (front.flatMap String.utf8EncodeChar).length + c.utf8Size)

include hnext in
theorem clampCloseReason_too_long :
    maxCloseReasonBytes < (JsString.encode ((front ++ c :: rest).flatMap utf16Units)).length := by
  have hp : (front.flatMap String.utf8EncodeChar).length + c.utf8Size ≤
      (JsString.encode (((front ++ c :: rest).flatMap utf16Units).take
        ((front ++ c :: rest).flatMap utf16Units).length)).length :=
    encode_take_past _ (by rw [units_length]; omega)
  rw [List.take_length] at hp
  omega

include hfits hnext

theorem clampCloseReason_front
    (hh : 0x10000 ≤ c.toNat → (front.flatMap String.utf8EncodeChar).length ≠ 120) :
    clampCloseReason (some ((front ++ c :: rest).flatMap utf16Units)) =
      some (front.flatMap utf16Units) := by
  have hu := units_length_le front
  have hp {later : Nat}
      (hl : (front.flatMap utf16Units).length + (utf16Units c).length ≤ later) :
      maxCloseReasonBytes <
        (JsString.encode (((front ++ c :: rest).flatMap utf16Units).take later)).length :=
    hnext.trans_le (encode_take_past later hl)
  have hcu : clampCloseReason (some ((front ++ c :: rest).flatMap utf16Units)) =
      some (((front ++ c :: rest).flatMap utf16Units).take (front.flatMap utf16Units).length) := by
    refine clampCloseReason_eq (clampCloseReason_too_long hnext) ?_ (hu.trans hfits) ?_ ?_
    · grind [units_length, Nat.lt_or_ge, utf16Units_plain, List.length_singleton, utf16Units_astral,
        List.length_cons]
    · rw [take_units, encode_units]
      exact hfits
    · intro later hl
      rcases Nat.lt_or_ge c.toNat 0x10000 with hpl | ha
      · grind [utf16Units_plain, List.length_singleton]
      · obtain ⟨high, low, hc, hhi, -⟩ := utf16Units_astral ha
        rcases Nat.lt_or_ge (front.flatMap utf16Units).length.succ later with ht | ho
        · exact hp (by rw [hc]; exact ht)
        · obtain ⟨hhe, hle⟩ := encode_take_half rest hc hhi
          have hs := utf8Size_astral ha
          have hne := hh ha
          have heq : later = (front.flatMap utf16Units).length + 1 := by omega
          rw [heq, hhe, hle]
          simp only [maxCloseReasonBytes] at hnext ⊢
          omega
  rw [hcu, take_units]

omit hfits hnext in
theorem clampCloseReason_half (rest : List Char) (ha : 0x10000 ≤ c.toNat)
    (hb : (front.flatMap String.utf8EncodeChar).length = 120) :
    ∃ high, isHighSurrogate high = true ∧
      clampCloseReason (some ((front ++ c :: rest).flatMap utf16Units)) =
        some (front.flatMap utf16Units ++ [high]) := by
  obtain ⟨high, low, hc, hhi, -⟩ := utf16Units_astral ha
  obtain ⟨hh, hl⟩ := encode_take_half rest hc hhi
  have hu := units_length_le front
  have hnext : maxCloseReasonBytes <
      (front.flatMap String.utf8EncodeChar).length + c.utf8Size := by
    rw [hb, utf8Size_astral ha]
    decide
  refine ⟨high, hhi, ?_⟩
  rw [← hh]
  refine clampCloseReason_eq (clampCloseReason_too_long hnext) ?_ ?_ ?_ fun later hla => ?_
  · rw [units_length, hc, List.length_cons, List.length_singleton]
    omega
  · simp only [maxCloseReasonBytes]
    omega
  · rw [hh, hl, hb]
    exact le_rfl
  · refine hnext.trans_le (encode_take_past later ?_)
    rw [hc]
    exact hla

end Cut

/-- A reason that is cut as it should be: to the longest beginning in whole characters that a close
frame carries, as the Rust crate cuts it, with no surrogate left alone. -/
structure WholeCut (text : String) (cut : JsString) : Prop where
  longest : ∃ front, LongestFit maxCloseReasonBytes text front ∧ cut = js front
  agrees : cut = js (MangoProtocol.clampCloseReason text)
  paired : ∀ point ∈ JsString.codePoints cut, ∃ c, point = .char c

theorem codePoints_paired (text : String) :
    ∀ point ∈ JsString.codePoints (js text), ∃ c, point = .char c := by
  intro point hp
  rw [JsString.codePoints_js] at hp
  obtain ⟨c, -, rfl⟩ := List.mem_map.mp hp
  exact ⟨c, rfl⟩

theorem wholeCut_longest {text front : String} (h : LongestFit maxCloseReasonBytes text front) :
    WholeCut text (js front) where
  longest := ⟨front, h, rfl⟩
  agrees := by rw [h.unique (clampCloseReason_longest text)]
  paired := codePoints_paired front

/-- The clamp cuts on a character boundary if and only if no character outside the Basic
Multilingual Plane starts at byte 120. -/
theorem clampCloseReason_whole_iff (text : String) :
    (∃ cut, clampCloseReason (some (js text)) = some cut ∧ WholeCut text cut) ↔
      ¬AstralAt 120 text := by
  constructor
  · rintro ⟨cut, hc, hw⟩ ⟨front, c, rest, ht, hb, ha⟩
    obtain ⟨high, hhi, hh⟩ := clampCloseReason_half rest ha hb
    rw [js, ht, hh] at hc
    cases hc
    -- The half is a code point of its own.
    obtain ⟨c, hp⟩ := hw.paired (.lone high) (by
      rw [codePoints_units_append]
      simp [JsString.codePoints, CodePoint.ofUnit, hhi])
    cases hp
  · intro hn
    have hl := clampCloseReason_longest text
    refine ⟨_, ?_, wholeCut_longest hl⟩
    rcases Nat.lt_or_ge maxCloseReasonBytes (utf8 text).length with hlo | hs
    · obtain ⟨c, rest, ht, hnext⟩ := hl.next hlo
      rw [js, ht]
      refine clampCloseReason_front hl.fits hnext fun ha hb => ?_
      exact hn ⟨_, c, rest, ht, hb, ha⟩
    · have hsa := (LongestFit.whole hs).unique hl
      rw [clampCloseReason, Option.map_some, encode_js, if_pos hs, hsa]

/-- 120 letters and an emoji. -/
def splitReason : String := String.ofList (List.replicate 120 'a' ++ ['😀'])

/-- The cut leaves the first half of the emoji. -/
theorem split_reason_ends_alone :
    clampCloseReason (some (js splitReason)) =
        some (List.replicate 120 97 ++ [0xd83d]) ∧
      ¬∃ cut, clampCloseReason (some (js splitReason)) = some cut ∧
        WholeCut splitReason cut := by
  have hc : clampCloseReason (some (js splitReason)) =
      some (List.replicate 120 97 ++ [0xd83d]) := by
    have hu : js splitReason =
        List.replicate 120 97 ++ [0xd83d] ++ [0xde00] := by decide +kernel
    rw [hu, clampCloseReason, Option.map_some, if_neg (by decide +kernel),
      List.take_of_length_le (by decide +kernel), dropToFit, if_pos (by decide +kernel),
      List.dropLast_concat, dropToFit, if_neg (by decide +kernel)]
  refine ⟨hc, ?_⟩
  rintro ⟨cut, hs, hw⟩
  cases hc.symm.trans hs
  obtain ⟨c, hp⟩ := hw.paired (.lone 0xd83d) (by decide +kernel)
  cases hp

end MangoProtocol.TypeScript
