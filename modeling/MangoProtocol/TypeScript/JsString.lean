import MangoProtocol.Codec.Utf8

/-! Strings of the TypeScript package.  A string is a sequence of UTF-16 code units, and a surrogate
may stand in it without its partner: a `TextEncoder` writes U+FFFD for such a unit, and
`JSON.stringify` escapes it. -/

namespace MangoProtocol.TypeScript

/-- A string of the language: its code units. -/
abbrev JsString := List UInt16

instance JsString.lawfulBEq : LawfulBEq JsString := List.instLawfulBEq

def isHighSurrogate (unit : UInt16) : Bool := 0xd800 ≤ unit && unit ≤ 0xdbff

def isLowSurrogate (unit : UInt16) : Bool := 0xdc00 ≤ unit && unit ≤ 0xdfff

/-- A character, or a surrogate without its partner. -/
inductive CodePoint where
  | char (value : Char)
  | lone (surrogate : UInt16)
  deriving DecidableEq, Repr

namespace CodePoint

/-- The code point of one unit on its own. -/
def ofUnit (unit : UInt16) : CodePoint :=
  if isHighSurrogate unit || isLowSurrogate unit then .lone unit else .char (Char.ofNat unit.toNat)

def ofPair (high low : UInt16) : CodePoint :=
  .char (Char.ofNat (0x10000 + (high.toNat - 0xd800) * 0x400 + (low.toNat - 0xdc00)))

/-- `TextEncoder` writes a surrogate without its partner as U+FFFD. -/
def encode : CodePoint → List UInt8
  | .char value => String.utf8EncodeChar value
  | .lone _ => [0xef, 0xbf, 0xbd]

def escape : CodePoint → List UInt8
  | .char value => escapeChar value
  | .lone surrogate =>
    [92, 117, hexDigit (surrogate.toNat / 4096), hexDigit (surrogate.toNat / 256 % 16),
      hexDigit (surrogate.toNat / 16 % 16), hexDigit (surrogate.toNat % 16)]

end CodePoint

/-- The UTF-16 code units of a character. -/
def utf16Units (c : Char) : List UInt16 :=
  if c.toNat < 0x10000 then [UInt16.ofNat c.toNat]
  else
    [UInt16.ofNat (0xd800 + (c.toNat - 0x10000) / 0x400),
      UInt16.ofNat (0xdc00 + (c.toNat - 0x10000) % 0x400)]

/-- The string of the same characters in the JavaScript runtime, in UTF-16. -/
def js (text : String) : JsString := text.toList.flatMap utf16Units

theorem js_append (first second : String) : js (first ++ second) = js first ++ js second := by
  simp only [js, String.toList_append, List.flatMap_append]

namespace JsString

def codePoints : JsString → List CodePoint
  | [] => []
  | [unit] => [.ofUnit unit]
  | high :: low :: rest =>
    if isHighSurrogate high && isLowSurrogate low then .ofPair high low :: codePoints rest
    else .ofUnit high :: codePoints (low :: rest)

/-- `TextEncoder.encode`. -/
def encode (self : JsString) : List UInt8 := (codePoints self).flatMap CodePoint.encode

/-- A string as `JSON.stringify` writes it. -/
def quoted (self : JsString) : List UInt8 :=
  34 :: ((codePoints self).flatMap CodePoint.escape ++ [34])

end JsString

/-! ### Code units of a text -/

theorem isHighSurrogate_iff {unit : UInt16} :
    isHighSurrogate unit = true ↔ 0xd800 ≤ unit.toNat ∧ unit.toNat ≤ 0xdbff := by
  simp [isHighSurrogate, UInt16.le_iff_toNat_le]

theorem isLowSurrogate_iff {unit : UInt16} :
    isLowSurrogate unit = true ↔ 0xdc00 ≤ unit.toNat ∧ unit.toNat ≤ 0xdfff := by
  simp [isLowSurrogate, UInt16.le_iff_toNat_le]

theorem utf16Units_plain {c : Char} (h : c.toNat < 0x10000) :
    ∃ unit, utf16Units c = [unit] ∧ isHighSurrogate unit = false ∧
      CodePoint.ofUnit unit = .char c := by
  have hv := toNat_valid c
  have hu : (UInt16.ofNat c.toNat).toNat = c.toNat := UInt16.toNat_ofNat_of_lt' h
  have hh : isHighSurrogate (UInt16.ofNat c.toNat) = false := by
    rw [Bool.eq_false_iff, Ne, isHighSurrogate_iff, hu]
    omega
  have hl : isLowSurrogate (UInt16.ofNat c.toNat) = false := by
    rw [Bool.eq_false_iff, Ne, isLowSurrogate_iff, hu]
    omega
  refine ⟨UInt16.ofNat c.toNat, if_pos h, hh, ?_⟩
  rw [CodePoint.ofUnit, hh, hl, hu, Char.ofNat_toNat]
  rfl

theorem utf16Units_astral {c : Char} (h : 0x10000 ≤ c.toNat) :
    ∃ high low, utf16Units c = [high, low] ∧ isHighSurrogate high = true ∧
      isLowSurrogate low = true ∧ CodePoint.ofPair high low = .char c := by
  have hva := toNat_valid c
  have hu : ∀ n < 65536, (UInt16.ofNat n).toNat = n := fun n hn => UInt16.toNat_ofNat_of_lt' hn
  have hh := hu (0xd800 + (c.toNat - 0x10000) / 0x400) (by omega)
  have hl := hu (0xdc00 + (c.toNat - 0x10000) % 0x400) (by omega)
  refine ⟨_, _, if_neg (by omega), ?_, ?_, ?_⟩
  · rw [isHighSurrogate_iff, hh]
    omega
  · rw [isLowSurrogate_iff, hl]
    omega
  · have hv : 0x10000 + (0xd800 + (c.toNat - 0x10000) / 0x400 - 0xd800) * 0x400 +
        (0xdc00 + (c.toNat - 0x10000) % 0x400 - 0xdc00) = c.toNat := by omega
    rw [CodePoint.ofPair, hh, hl, hv, Char.ofNat_toNat]

theorem codePoints_utf16Units (c : Char) (rest : JsString) :
    JsString.codePoints (utf16Units c ++ rest) = .char c :: JsString.codePoints rest := by
  rcases Nat.lt_or_ge c.toNat 0x10000 with hpl | ha
  · obtain ⟨unit, hu, hh, hp⟩ := utf16Units_plain hpl
    rw [hu, List.singleton_append]
    cases rest with
    | nil => simp only [JsString.codePoints, hp]
    | cons next rest => simp [JsString.codePoints, hh, hp]
  · obtain ⟨high, low, hu, hh, hl, hp⟩ := utf16Units_astral ha
    rw [hu]
    simp [JsString.codePoints, hh, hl, hp]

theorem codePoints_units_append (chars : List Char) (rest : JsString) :
    JsString.codePoints (chars.flatMap utf16Units ++ rest) =
      chars.map .char ++ JsString.codePoints rest := by
  induction chars with
  | nil => rfl
  | cons c chars ih =>
    rw [List.flatMap_cons, List.append_assoc, codePoints_utf16Units, ih]
    rfl

namespace JsString

theorem codePoints_js (text : String) :
    codePoints (js text) = text.toList.map .char := by
  have h := codePoints_units_append text.toList []
  rw [List.append_nil] at h
  rw [js, h, codePoints, List.append_nil]

theorem js_injective : Function.Injective js := by
  intro first second h
  have hp := congrArg codePoints h
  rw [codePoints_js, codePoints_js] at hp
  have hc : Function.Injective CodePoint.char := fun _ _ heq => CodePoint.char.inj heq
  exact String.toList_inj.mp (List.map_injective_iff.mpr hc hp)

end JsString

end MangoProtocol.TypeScript
