import MangoProtocol.Codec.Positions

/-! The close code of a line that `decode_line` refuses.  A `hello` that cannot be read is labelled
with its type on both paths of a refusal, the one that parses the line again and the validator's.
The label is also given to an array that is read as a `hello`, and to an object with several members
`type` of which the last is the string `hello`. -/

namespace MangoProtocol

/-! ### The type of a record -/

/-- The values of the members named `type`, in the order of the text. -/
def Json.typeMembers : Json → List Json
  | .object members => (members.filter fun member => member.1 == "type").map Prod.snd
  | _ => []

structure Json.IsHello (document : Json) : Prop where
  object : document.isObject = true
  types : document.typeMembers = [.string "hello"]

structure Json.OneType (document : Json) : Prop where
  top : document.isArray = false
  types : document.typeMembers.length ≤ 1

theorem find_insertMember (name key : String) (value : Json) (members : List (String × Json)) :
    (insertMember key value members).find? (fun member => member.1 == name) =
      if key = name then some (key, value)
      else members.find? fun member => member.1 == name := by
  induction members with
  | nil => by_cases hn : key = name <;> simp [insertMember, hn]
  | cons head members ih => grind [insertMember]

theorem find_collect (name : String) (members collected : List (String × Json)) :
    (Json.collect members collected).find? (fun member => member.1 == name) =
      match (members.filter fun member => member.1 == name).getLast? with
      | some last => some (name, last.2.normalize)
      | none => collected.find? fun member => member.1 == name := by
  induction members generalizing collected with
  | nil => rfl
  | cons head members ih =>
    obtain ⟨key, value⟩ := head
    rw [Json.collect, ih, find_insertMember]
    by_cases hn : key = name
    · grind
    · rw [if_neg hn, List.filter_cons_of_neg (by simpa using hn)]

theorem frameTypeOf_eq {platform : Platform} {line : List UInt8} {document : Json}
    (h : platform.parse line = some document) :
    frameTypeOf platform line =
      match document.typeMembers.getLast? with
      | some (.string frameType) => some frameType
      | _ => none := by
  simp only [frameTypeOf, h, Option.bind_eq_bind, Option.bind_some]
  cases document with
  | object members =>
    simp only [Json.normalize, find_collect, Json.typeMembers, List.getLast?_map]
    cases (members.filter fun member => member.1 == "type").getLast? with
    | none => rfl
    | some last =>
      obtain ⟨name, value⟩ := last
      cases value <;> simp [Json.normalize]
  | null | bool | number | string | array => simp [Json.normalize, Json.typeMembers]

/-! ### What is labelled `hello` -/

section Labels

variable {platform : Platform} {line : List UInt8} {document : Json}

theorem readUnit_eq_some {content : Json} {frame read : Frame}
    (h : readUnit frame content = some read) : frame = read := by
  unfold readUnit at h
  split at h
  · exact Option.some.inj h
  · exact Option.some.inj h
  · cases h

theorem Frame.ofTagged_typeName {tag : String} {content : Json} {frame : Frame}
    (h : Frame.ofTagged tag content = some frame) : frame.typeName = tag := by
  have hr : ∀ {α : Type} {value : Option α} {make : α → Frame} {name : String},
      value.map make = some frame → tag = name → (∀ inner, (make inner).typeName = name) →
        frame.typeName = tag := by
    intro α value make name hv ht hm
    obtain ⟨inner, -, rfl⟩ := Option.map_eq_some_iff.mp hv
    exact (hm inner).trans ht.symm
  unfold Frame.ofTagged at h
  split at h
  · exact hr h ‹_› fun _ => rfl
  split at h
  · exact hr h ‹_› fun _ => rfl
  split at h
  · exact hr h ‹_› fun _ => rfl
  split at h
  · exact hr h ‹_› fun _ => rfl
  split at h
  · exact hr h ‹_› fun _ => rfl
  split at h
  · exact hr h ‹_› fun _ => rfl
  split at h
  · rename_i ht
    cases readUnit_eq_some h
    exact ht.symm
  split at h
  · rename_i ht
    cases readUnit_eq_some h
    exact ht.symm
  split at h
  · exact hr h ‹_› fun _ => rfl
  · cases h

theorem Frame.deserialize_hello {hello : Hello}
    (h : Frame.deserialize document = some (.hello hello)) :
    document.isArray = true ∨ document.IsHello := by
  rcases Frame.deserialize_shape h with ⟨members, rfl⟩ | ha
  · refine .inr ⟨rfl, ?_⟩
    simp only [Frame.deserialize] at h
    split at h
    · rename_i key tag ht
      have hta : "hello" = tag := Frame.ofTagged_typeName h
      rw [Json.typeMembers, ht, ← hta]
      rfl
    · cases h
  · exact .inl ha

theorem Json.IsHello.deserialize (h : document.IsHello) :
    Frame.deserialize document = none ∨
      ∃ hello, Frame.deserialize document = some (.hello hello) := by
  cases document with
  | object members =>
    have ht := h.types
    rw [Json.typeMembers] at ht
    obtain ⟨⟨key, value⟩, hty, hv⟩ := List.map_eq_singleton_iff.mp ht
    cases hv
    simp only [Frame.deserialize, hty, Frame.ofTagged, if_true]
    cases Hello.deserialize (.object (members.filter fun member => member.1 != "type")) with
    | none => exact .inl rfl
    | some hello => exact .inr ⟨hello, rfl⟩
  | null | bool | number | string | array => cases h.object

theorem closeCodeForCodecError_eq_mismatch {error : CodecError} :
    closeCodeForCodecError error = closeCodes.protocolMismatch ↔
      error.kind = .schema ∧ error.frameType = some "hello" := by
  unfold closeCodeForCodecError
  split
  · rename_i h
    exact iff_of_true rfl h
  · rename_i h
    exact iff_of_false (by decide) h

theorem decodeLine_labelled {maxFrameBytes : Nat} {error : CodecError}
    (h : decodeLine platform line maxFrameBytes = .error error)
    (hl : error.frameType = some "hello") :
    ∃ document, platform.parse (stripCarriageReturn line) = some document ∧
      (frameTypeOf platform (stripCarriageReturn line) = some "hello" ∨
        ∃ hello, Frame.deserialize document = some (.hello hello)) := by
  unfold decodeLine at h
  dsimp only at h
  split at h
  · cases h
    cases hl
  split at h
  · cases h
    cases hl
  split at h
  · cases h
    cases hl
  split at h
  · split at h
    · rename_i frameType ht
      cases hp : platform.parse (stripCarriageReturn line) with
      | none =>
        rw [frameTypeOf, hp] at ht
        cases ht
      | some document =>
        refine ⟨document, rfl, .inl ?_⟩
        cases h
        split at hl
        · exact ht.trans hl
        · cases hl
    · cases h
      cases hl
  · rename_i frame hs
    split at h
    · cases h
      unfold fromSlice at hs
      split at hs
      · cases hs
      rename_i document hp
      split at hs
      · cases hs
      rename_i read hr
      cases hs
      have hn : frame.typeName = "hello" := Option.some.inj hl
      cases frame with
      | hello hello => exact ⟨document, hp, .inr ⟨hello, hr⟩⟩
      | req | res | err | evt | cancel | ping | pong | close => simp [Frame.typeName] at hn
    · cases h

theorem Json.OneType.isHello (h : document.OneType)
    (hp : platform.parse line = some document)
    (hla : frameTypeOf platform line = some "hello" ∨
      ∃ hello, Frame.deserialize document = some (.hello hello)) : document.IsHello := by
  rcases hla with ht | ⟨hello, hr⟩
  · rw [frameTypeOf_eq hp] at ht
    have hl := h.types
    cases document with
    | object members =>
      refine ⟨rfl, ?_⟩
      generalize Json.typeMembers (.object members) = types at ht hl ⊢
      rcases types with _ | ⟨value, _ | ⟨second, rest⟩⟩
      · cases ht
      · grind
      · rw [List.length_cons, List.length_cons] at hl
        omega
    | null | bool | number | string | array => cases ht
  · rcases Frame.deserialize_hello hr with ha | hh
    · rw [h.top] at ha
      cases ha
    · exact hh

theorem Json.IsHello.oneType (h : document.IsHello) : document.OneType := by
  refine ⟨?_, (congrArg List.length h.types).le⟩
  cases document with
  | array => cases h.object
  | null | bool | number | string | object => rfl

theorem Json.IsHello.decodeLine (h : document.IsHello) {maxFrameBytes : Nat}
    (hm : minMaxFrameBytes ≤ maxFrameBytes)
    (hp : platform.parse (stripCarriageReturn line) = some document)
    (hb : isBlank (stripCarriageReturn line) = false)
    (hf : (stripCarriageReturn line).length ≤ maxFrameBytes) :
    (∃ hello, MangoProtocol.decodeLine platform line maxFrameBytes = .ok (.hello hello)) ∨
      ∃ error, MangoProtocol.decodeLine platform line maxFrameBytes = .error error ∧
        closeCodeForCodecError error = closeCodes.protocolMismatch := by
  have ht : frameTypeOf platform (stripCarriageReturn line) = some "hello" := by
    rw [frameTypeOf_eq hp, h.types]
    rfl
  simp only [MangoProtocol.decodeLine, checkedAtLeast, if_neg (Nat.not_lt.mpr hm),
    if_neg (Nat.not_lt.mpr hf), hb, Bool.false_eq_true, if_false, fromSlice, hp, ht]
  rcases h.deserialize with hn | ⟨hello, hr⟩
  · rw [hn]
    exact .inr ⟨_, rfl, closeCodeForCodecError_eq_mismatch.mpr ⟨rfl, rfl⟩⟩
  · rw [hr]
    dsimp only
    cases validate platform (.hello hello) with
    | error error => exact .inr ⟨_, rfl, closeCodeForCodecError_eq_mismatch.mpr ⟨rfl, rfl⟩⟩
    | ok => exact .inl ⟨hello, rfl⟩

/-- A `hello` object is accepted or refused with the code of a mismatch.  A line that is refused
with this code is a `hello` object if and only if it is no array and has one `type` at most. -/
theorem decodeLine_mismatch_iff (hblank : ∀ line, isBlank line = true → platform.parse line = none)
    (line : List UInt8) (maxFrameBytes : Nat) :
    (∀ document, platform.parse (stripCarriageReturn line) = some document →
      minMaxFrameBytes ≤ maxFrameBytes → (stripCarriageReturn line).length ≤ maxFrameBytes →
      document.IsHello →
        (∃ hello, decodeLine platform line maxFrameBytes = .ok (.hello hello)) ∨
          ∃ error, decodeLine platform line maxFrameBytes = .error error ∧
            closeCodeForCodecError error = closeCodes.protocolMismatch) ∧
    ∀ error, decodeLine platform line maxFrameBytes = .error error →
      closeCodeForCodecError error = closeCodes.protocolMismatch →
        ∃ document, platform.parse (stripCarriageReturn line) = some document ∧
          (document.IsHello ↔ document.OneType) := by
  constructor
  · intro document hp hm hfi hh
    have hf : isBlank (stripCarriageReturn line) = false := by
      by_contra ha
      rw [hblank _ (Bool.eq_true_of_not_eq_false ha)] at hp
      cases hp
    exact hh.decodeLine hm hp hf hfi
  · intro error he hc
    obtain ⟨-, hl⟩ := closeCodeForCodecError_eq_mismatch.mp hc
    obtain ⟨document, hp, hr⟩ := decodeLine_labelled he hl
    exact ⟨document, hp, Json.IsHello.oneType, fun ho => ho.isHello hp hr⟩

end Labels

/-- A `hello` without its members. -/
def bareHello : Json := .object [("type", .string "hello")]

theorem decodeLine_mismatch_iff_bare :
    (∃ hello, decodeLine (documentPlatform [bareHello]) bareHello.toVec 4096 =
        .ok (.hello hello)) ∨
      ∃ error, decodeLine (documentPlatform [bareHello]) bareHello.toVec 4096 = .error error ∧
        closeCodeForCodecError error = closeCodes.protocolMismatch := by
  have hb : ∀ line, isBlank line = true → (documentPlatform [bareHello]).parse line = none := by
    intro line ha
    refine List.find?_eq_none.mpr fun document hm heq => ?_
    rw [List.mem_singleton.mp hm] at heq
    rw [← eq_of_beq heq] at ha
    exact absurd ha (by decide +kernel)
  exact (decodeLine_mismatch_iff hb bareHello.toVec 4096).1 bareHello (by rfl) (by decide)
    (by decide +kernel) ⟨rfl, rfl⟩

def helloArray : Json :=
  .array [.string "hello", .array [.u64 0, .u64 0],
    .array [.string "a", .string "1", .string "host"], .object []]

/-- An object with two types. -/
def pingHello : Json := .object [("type", .string "ping"), ("type", .string "hello")]

/-- Neither is a `hello` object, and both are refused with the code of a mismatch. -/
theorem others_mismatch :
    (∃ error, decodeLine (documentPlatform [helloArray]) helloArray.toVec 4096 = .error error ∧
      closeCodeForCodecError error = closeCodes.protocolMismatch) ∧
    (documentPlatform [helloArray]).parse helloArray.toVec = some helloArray ∧
    ¬helloArray.IsHello ∧
    (∃ error, decodeLine (documentPlatform [pingHello]) pingHello.toVec 4096 = .error error ∧
      closeCodeForCodecError error = closeCodes.protocolMismatch) ∧
    (documentPlatform [pingHello]).parse pingHello.toVec = some pingHello ∧
    ¬pingHello.IsHello := by
  refine ⟨⟨_, rfl, by decide⟩, rfl, ?_, ⟨_, rfl, by decide⟩, rfl, ?_⟩
  · intro hh
    cases hh.object
  · intro hh
    have hl := congrArg List.length hh.types
    cases hl

end MangoProtocol
