import MangoProtocol.Codec.Ndjson

/-! UTF-8 text.  Decoding the bytes of a text gives the text back, so the bytes that are valid UTF-8
are those that a decoded text encodes to. -/

namespace MangoProtocol

variable {b lead c : UInt8}

theorem isContinuation_iff : isContinuation b ↔ 0x80 ≤ b.toNat ∧ b.toNat ≤ 0xBF := by
  simp [isContinuation, UInt8.le_iff_toNat_le]

theorem decodeCharLossy_one (rest : List UInt8) (h : lead.toNat < 0x80) :
    decodeCharLossy lead rest = (Char.ofNat lead.toNat, rest) := by
  unfold decodeCharLossy
  rw [if_pos (UInt8.lt_iff_toNat_lt.mpr h)]

theorem decodeCharLossy_two (after : List UInt8) (hl : 0xC2 ≤ lead.toNat ∧ lead.toNat ≤ 0xDF)
    (hb : isContinuation b) :
    decodeCharLossy lead (b :: after) =
      (Char.ofNat (lead.toNat % 32 * 64 + low6 b), after) := by
  unfold decodeCharLossy
  dsimp only
  simp only [UInt8.lt_iff_toNat_lt, UInt8.le_iff_toNat_le, UInt8.reduceToNat]
  rw [if_neg (by omega), if_pos hl, if_pos hb]

theorem decodeCharLossy_three (after : List UInt8) (hl : 0xE0 ≤ lead.toNat ∧ lead.toNat ≤ 0xEF)
    (hb : inRange (secondRange lead) b) (hc : isContinuation c) :
    decodeCharLossy lead (b :: c :: after) =
      (Char.ofNat (lead.toNat % 16 * 4096 + low6 b * 64 + low6 c), after) := by
  unfold decodeCharLossy
  dsimp only
  simp only [UInt8.lt_iff_toNat_lt, UInt8.le_iff_toNat_le, UInt8.reduceToNat]
  rw [if_neg (by omega), if_neg (by omega), if_pos hl, if_pos hb, if_pos hc]

theorem decodeCharLossy_four {d : UInt8} (after : List UInt8)
    (hl : 0xF0 ≤ lead.toNat ∧ lead.toNat ≤ 0xF4) (hb : inRange (secondRange lead) b)
    (hc : isContinuation c) (hd : isContinuation d) :
    decodeCharLossy lead (b :: c :: d :: after) =
      (Char.ofNat (lead.toNat % 8 * 262144 + low6 b * 4096 + low6 c * 64 + low6 d), after) := by
  unfold decodeCharLossy
  dsimp only
  simp only [UInt8.lt_iff_toNat_lt, UInt8.le_iff_toNat_le, UInt8.reduceToNat]
  rw [if_neg (by omega), if_neg (by omega), if_neg (by omega), if_pos hl, if_pos hb, if_pos hc,
    if_pos hd]

theorem inRange_iff {range : UInt8 × UInt8} :
    inRange range b ↔ range.1.toNat ≤ b.toNat ∧ b.toNat ≤ range.2.toNat := by
  simp [inRange, UInt8.le_iff_toNat_le]

theorem inRange_secondRange (hb : 0x80 ≤ b.toNat ∧ b.toNat ≤ 0xBF)
    (hE0 : lead.toNat = 0xE0 → 0xA0 ≤ b.toNat) (hED : lead.toNat = 0xED → b.toNat ≤ 0x9F)
    (hF0 : lead.toNat = 0xF0 → 0x90 ≤ b.toNat) (hF4 : lead.toNat = 0xF4 → b.toNat ≤ 0x8F) :
    inRange (secondRange lead) b := by
  rw [inRange_iff]
  simp only [secondRange, ← UInt8.toNat_inj, UInt8.reduceToNat]
  split_ifs <;> simp only [UInt8.reduceToNat] <;> omega

theorem toNat_valid (c : Char) : c.toNat < 0xd800 ∨ (0xdfff < c.toNat ∧ c.toNat < 0x110000) := by
  rcases c.valid with h | ⟨h1, h2⟩
  · exact .inl h
  · exact .inr ⟨h1, h2⟩

theorem decodeCharLossy_encode (c : Char) (rest : List UInt8) :
    ∃ lead tail, String.utf8EncodeChar c = lead :: tail ∧
      decodeCharLossy lead (tail ++ rest) = (c, rest) := by
  have hv := toNat_valid c
  have hch : ∀ n, n = c.toNat → Char.ofNat n = c := fun n hn => by rw [hn, Char.ofNat_toNat]
  have hby : ∀ n < 256, (UInt8.ofNat n).toNat = n := fun n hn => UInt8.toNat_ofNat_of_lt' hn
  simp only [String.utf8EncodeChar, show c.val.toNat = c.toNat from rfl]
  split
  · grind [decodeCharLossy_one]
  split
  · grind [decodeCharLossy_two, isContinuation_iff, low6]
  split
  · refine ⟨_, _, rfl, ?_⟩
    have hl := hby (c.toNat / 4096 % 16 + 0xe0) (by omega)
    have hb := hby (c.toNat / 64 % 64 + 0x80) (by omega)
    have hc := hby (c.toNat % 64 + 0x80) (by omega)
    simp only [List.cons_append, List.nil_append]
    rw [decodeCharLossy_three _ (by omega)
      (inRange_secondRange (by omega) (by omega) (by omega) (by omega) (by omega))
      (isContinuation_iff.mpr (by omega)), low6, low6, hch _ (by omega)]
  · refine ⟨_, _, rfl, ?_⟩
    have hl := hby (c.toNat / 262144 % 8 + 0xf0) (by omega)
    have hb := hby (c.toNat / 4096 % 64 + 0x80) (by omega)
    have hc := hby (c.toNat / 64 % 64 + 0x80) (by omega)
    have hd := hby (c.toNat % 64 + 0x80) (by omega)
    simp only [List.cons_append, List.nil_append]
    rw [decodeCharLossy_four _ (by omega)
      (inRange_secondRange (by omega) (by omega) (by omega) (by omega) (by omega))
      (isContinuation_iff.mpr (by omega)) (isContinuation_iff.mpr (by omega)), low6, low6, low6,
      hch _ (by omega)]

theorem fromUtf8Lossy_utf8 (s : String) : fromUtf8Lossy (utf8 s) = s := by
  have hc : ∀ (chars : List Char) (fuel : Nat),
      (chars.flatMap String.utf8EncodeChar).length ≤ fuel →
        lossyChars fuel (chars.flatMap String.utf8EncodeChar) = chars := by
    intro chars
    induction chars with
    | nil => intro fuel _; cases fuel <;> rfl
    | cons c chars ih =>
      intro fuel hf
      obtain ⟨lead, tail, he, hd⟩ :=
        decodeCharLossy_encode c (chars.flatMap String.utf8EncodeChar)
      rw [List.flatMap_cons, he] at hf ⊢
      simp only [List.cons_append, List.length_cons, List.length_append] at hf ⊢
      obtain ⟨fuel, rfl⟩ : ∃ less, fuel = less + 1 := ⟨fuel - 1, by omega⟩
      rw [lossyChars, hd, ih fuel (by omega)]
  rw [fromUtf8Lossy, utf8, hc _ _ le_rfl, String.ofList_toList]

def fromUtf8 (bytes : List UInt8) : Option String :=
  if utf8 (fromUtf8Lossy bytes) = bytes then some (fromUtf8Lossy bytes) else none

theorem fromUtf8_eq_some {bytes : List UInt8} {text : String} :
    fromUtf8 bytes = some text ↔ bytes = utf8 text := by
  unfold fromUtf8
  constructor
  · intro h
    split at h
    · rename_i hb
      rw [← Option.some.inj h, hb]
    · cases h
  · intro h
    subst h
    rw [fromUtf8Lossy_utf8, if_pos rfl]

end MangoProtocol
