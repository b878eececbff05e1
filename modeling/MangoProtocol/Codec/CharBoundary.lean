import MangoProtocol.Codec.Utf8

/-! Texts cut to a number of bytes on a character boundary.  A boundary is where the bytes of some
beginning of the text end, and the last one within a number of bytes is where the longest beginning
ends that fits. -/

namespace MangoProtocol

def isCharBoundary (bytes : List UInt8) (index : Nat) : Bool :=
  index == 0 || match bytes[index]? with
    | some byte => !isContinuation byte
    | none => index == bytes.length

def boundaryBelow (bytes : List UInt8) : Nat → Nat
  | 0 => 0
  | index + 1 =>
    if isCharBoundary bytes (index + 1) then index + 1 else boundaryBelow bytes index

/-- The longest beginning of a text whose UTF-8 is within some bytes. -/
structure LongestFit (room : Nat) (text front : String) : Prop where
  starts : front.toList <+: text.toList
  fits : (utf8 front).length ≤ room
  longest : ∀ other : String, other.toList <+: text.toList → (utf8 other).length ≤ room →
    other.toList <+: front.toList

theorem LongestFit.whole {room : Nat} {text : String} (h : (utf8 text).length ≤ room) :
    LongestFit room text text :=
  ⟨List.prefix_refl _, h, fun _ ho _ => ho⟩

theorem LongestFit.unique {room : Nat} {text front other : String}
    (h : LongestFit room text front) (ho : LongestFit room text other) : other = front := by
  have hle := h.longest other ho.starts ho.fits
  have hge := ho.longest front h.starts h.fits
  exact String.toList_injective (hle.eq_of_length_le hge.length_le)

theorem LongestFit.next {room : Nat} {text front : String} (h : LongestFit room text front)
    (hlon : room < (utf8 text).length) :
    ∃ c rest, text.toList = front.toList ++ c :: rest ∧
      room < (utf8 front).length + c.utf8Size := by
  obtain ⟨rest, hr⟩ := h.starts
  cases rest with
  | nil =>
    rw [List.append_nil] at hr
    have hf := h.fits
    rw [utf8, hr] at hf
    exact absurd hlon (Nat.not_lt.mpr hf)
  | cons c rest =>
    refine ⟨c, rest, hr.symm, ?_⟩
    by_contra hf
    have hm : (String.ofList (front.toList ++ [c])).toList <+: text.toList := by
      rw [String.toList_ofList, ← hr]
      exact ⟨rest, by simp⟩
    have hlo := h.longest _ hm (by
      rw [utf8, String.toList_ofList, List.flatMap_append, List.length_append,
        List.flatMap_singleton, String.length_utf8EncodeChar]
      exact Nat.not_lt.mp hf)
    have hl := hlo.length_le
    rw [String.toList_ofList, List.length_append] at hl
    simp at hl

theorem utf8EncodeChar_bytes (c : Char) :
    ∃ lead tail, String.utf8EncodeChar c = lead :: tail ∧ isContinuation lead = false ∧
      ∀ byte ∈ tail, isContinuation byte = true := by
  have hv := toNat_valid c
  have hl : ∀ n < 256, n < 0x80 ∨ 0xBF < n → isContinuation (UInt8.ofNat n) = false := by
    intro n hn ho
    rw [Bool.eq_false_iff, Ne, isContinuation_iff, UInt8.toNat_ofNat_of_lt' hn]
    omega
  have ht : ∀ n, isContinuation (UInt8.ofNat (n % 64 + 0x80)) = true := by
    intro n
    rw [isContinuation_iff, UInt8.toNat_ofNat_of_lt' (show n % 64 + 0x80 < 256 by omega)]
    omega
  simp only [String.utf8EncodeChar, show c.val.toNat = c.toNat from rfl]
  split
  · exact ⟨_, _, rfl, hl _ (by omega) (by omega), fun _ h => absurd h List.not_mem_nil⟩
  split
  · grind
  split
  · grind
  · grind

theorem isCharBoundary_front (front rest : List Char) :
    isCharBoundary ((front ++ rest).flatMap String.utf8EncodeChar)
      (front.flatMap String.utf8EncodeChar).length = true := by
  rw [isCharBoundary, List.flatMap_append, List.getElem?_append_right le_rfl, Nat.sub_self]
  cases rest with
  | nil => simp
  | cons c rest =>
    obtain ⟨lead, tail, hb, hl, -⟩ := utf8EncodeChar_bytes c
    rw [List.flatMap_cons, hb]
    simp [hl]

theorem exists_of_isCharBoundary {chars : List Char} {index : Nat}
    (h : isCharBoundary (chars.flatMap String.utf8EncodeChar) index = true) :
    ∃ front rest, chars = front ++ rest ∧ (front.flatMap String.utf8EncodeChar).length = index := by
  induction chars generalizing index with
  | nil =>
    simp_all [isCharBoundary, List.flatMap_nil, List.length_nil]
  | cons c chars ih =>
    obtain ⟨lead, tail, hb, -, ht⟩ := utf8EncodeChar_bytes c
    rw [List.flatMap_cons, hb] at h
    cases index with
    | zero => exact ⟨[], c :: chars, rfl, rfl⟩
    | succ index =>
      rcases Nat.lt_or_ge index tail.length with hi | ha
      · grind [isCharBoundary, List.getElem?_cons_succ]
      · obtain ⟨front, rest, rfl, hl⟩ : ∃ front rest, chars = front ++ rest ∧
            (front.flatMap String.utf8EncodeChar).length = index - tail.length := by
          refine ih ?_
          rw [isCharBoundary, List.cons_append, List.getElem?_cons_succ,
            List.getElem?_append_right ha] at h
          rw [isCharBoundary]
          cases hby : (chars.flatMap String.utf8EncodeChar)[index - tail.length]? with
          | some byte =>
            rw [hby] at h
            simpa using Or.inr h
          | none =>
            rw [hby] at h
            simp at h ⊢
            omega
        refine ⟨c :: front, rest, rfl, ?_⟩
        rw [List.flatMap_cons, hb, List.length_append, hl, List.length_cons]
        omega

theorem boundaryBelow_spec (bytes : List UInt8) (index : Nat) :
    boundaryBelow bytes index ≤ index ∧
      isCharBoundary bytes (boundaryBelow bytes index) = true ∧
      ∀ other ≤ index, isCharBoundary bytes other = true → other ≤ boundaryBelow bytes index := by
  induction index with
  | zero => exact ⟨le_rfl, rfl, fun other ho _ => ho⟩
  | succ index ih => grind [boundaryBelow]

theorem fromUtf8_boundaryBelow (room : Nat) (text : String) :
    ∃ front, fromUtf8 ((utf8 text).take (boundaryBelow (utf8 text) room)) = some front ∧
      LongestFit room text front := by
  obtain ⟨hle, hbo, hla⟩ := boundaryBelow_spec (utf8 text) room
  obtain ⟨front, rest, hs, hl⟩ := exists_of_isCharBoundary hbo
  have hf : utf8 (String.ofList front) = front.flatMap String.utf8EncodeChar := by
    rw [utf8, String.toList_ofList]
  refine ⟨String.ofList front, fromUtf8_eq_some.mpr ?_, ?_, ?_, ?_⟩
  · rw [hf, ← hl, utf8, hs, List.flatMap_append, List.take_left]
  · rw [String.toList_ofList, hs]
    exact List.prefix_append _ _
  · rw [hf, hl]
    exact hle
  · intro other ho hfi
    rw [String.toList_ofList]
    obtain ⟨after, ha⟩ := ho
    have hb : (utf8 other).length ≤ boundaryBelow (utf8 text) room := by
      refine hla _ hfi ?_
      rw [utf8, utf8, ← ha]
      exact isCharBoundary_front _ _
    rw [← hl] at hb
    rcases List.prefix_or_prefix_of_prefix ⟨after, ha⟩ ⟨rest, hs.symm⟩ with
      h | ⟨more, hm⟩
    · exact h
    · -- No character is without bytes.
      rw [utf8, ← hm, List.flatMap_append, List.length_append] at hb
      cases more with
      | nil =>
        rw [← hm, List.append_nil]
      | cons c more =>
        obtain ⟨lead, tail, hby, -⟩ := utf8EncodeChar_bytes c
        simp [List.flatMap_cons, hby] at hb

end MangoProtocol
