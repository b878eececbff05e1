import MangoProtocol.Codec.Ndjson

/-! Which JSON values the line decoder takes.  A frame is described as an object whose `type` member
names it, and four of its members as objects too; the derived readers of `serde` take an array, by
position, in each of these places. -/

namespace MangoProtocol

namespace Json

def isObject : Json → Bool
  | .object _ => true
  | _ => false

def isArray : Json → Bool
  | .array _ => true
  | _ => false

/-- The value of a member. -/
def member (name : String) : Json → Option Json
  | .object members => (members.find? fun member => member.1 == name).map Prod.snd
  | _ => none

end Json

/-- The members of a frame that hold a struct. -/
def structMembers (tag : String) : List String :=
  if tag = "hello" then ["protocol", "peer", "limits"]
  else if tag = "err" then ["error"]
  else []

/-- The values in a document that the structs within a frame are read from. -/
def Json.structs (document : Json) : List Json :=
  match document.member "type" with
  | some (.string tag) => (structMembers tag).filterMap fun name => document.member name
  | _ => []

/-- A document that is a frame as the protocol describes one. -/
structure Json.ByName (document : Json) : Prop where
  object : document.isObject = true
  tagged : ∃ tag, document.member "type" = some (.string tag)
  structs : ∀ value ∈ document.structs, value.isObject = true

/-- A document with no array where a struct is read. -/
structure Json.NoArrays (document : Json) : Prop where
  top : document.isArray = false
  structs : ∀ value ∈ document.structs, value.isArray = false

variable {members : List (String × Json)} {document value : Json} {names : List String}
  {frame : Frame} {name : String} {α : Type}

theorem isObject_of_structFields {read : List (Option Json) → Option α} {value : α}
    (h : (structFields names document >>= read) = some value) :
    document.isObject = !document.isArray := by
  cases document with
  | object | array => rfl
  | _ => cases h

theorem ProtocolVersion.deserialize_shape {value : ProtocolVersion}
    (h : ProtocolVersion.deserialize document = some value) :
    document.isObject = !document.isArray := isObject_of_structFields h

theorem PeerInfo.deserialize_shape {value : PeerInfo}
    (h : PeerInfo.deserialize document = some value) : document.isObject = !document.isArray :=
    isObject_of_structFields h

theorem Limits.deserialize_shape {value : Limits} (h : Limits.deserialize document = some value) :
    document.isObject = !document.isArray := isObject_of_structFields h

theorem ErrorPayload.deserialize_shape {value : ErrorPayload}
    (h : ErrorPayload.deserialize document = some value) :
    document.isObject = !document.isArray := isObject_of_structFields h

theorem member_untagged (hn : name ≠ "type") :
    Json.member name (.object (members.filter fun member => member.1 != "type")) =
      Json.member name (.object members) := by
  have hk : ∀ member : String × Json,
      (member.1 == name) = true → (member.1 != "type") = true := by
    intro member hm
    rw [beq_iff_eq] at hm
    rw [hm, bne_iff_ne]
    exact hn
  rw [Json.member, Json.member, List.find?_filter]
  congr 2
  funext member
  by_cases hm : (member.1 == name) = true
  · simp only [hk member hm, hm, and_self, decide_true]
  · simp only [hm, and_false, decide_false, Bool.false_eq_true]

theorem structFields_object {fields : List (Option Json)}
    (h : structFields names (.object members) = some fields) :
    fields = names.map fun name => Json.member name (.object members) := by
  simp only [structFields] at h
  split at h
  · exact (Option.some.inj h).symm
  · cases h

theorem readOptional_eq_some {read : Json → Option α} {found : Option Json} {value : Option α}
    (h : readOptional read found = some value) (hf : found = some document) :
    ∃ inner, read document = some inner := by
  subst hf
  obtain ⟨inner, hi, -⟩ := Option.map_eq_some_iff.mp h
  exact ⟨inner, hi⟩

theorem Hello.deserialize_members {hello : Hello}
    (h : Hello.deserialize (.object members) = some hello) (hn : name ∈ structMembers "hello")
    (hv : Json.member name (.object members) = some value) :
    value.isObject = !value.isArray := by
  obtain ⟨fields, hf, hr⟩ := Option.bind_eq_some_iff.mp h
  rw [structFields_object hf] at hr
  simp only [List.map_cons, List.map_nil] at hr
  split at hr
  · rename_i protocol peer capabilities limits heq
    injection heq with hp heq
    injection heq with hpe heq
    injection heq with hc heq
    injection heq with hl
    simp only [Option.bind_eq_bind, Option.bind_eq_some_iff] at hr
    obtain ⟨version, hve, info, hi, map, hm, limit, hli, -⟩ := hr
    simp only [structMembers, if_true, List.mem_cons, List.not_mem_nil, or_false] at hn
    rcases hn with rfl | rfl | rfl
    · cases hp.symm.trans hv
      exact ProtocolVersion.deserialize_shape hve
    · cases hpe.symm.trans hv
      exact PeerInfo.deserialize_shape hi
    · obtain ⟨inner, hin⟩ := readOptional_eq_some hli (hl.symm.trans hv)
      exact Limits.deserialize_shape hin
  · cases hr

theorem ErrorResponse.deserialize_members {response : ErrorResponse}
    (h : ErrorResponse.deserialize (.object members) = some response)
    (hv : Json.member "error" (.object members) = some value) :
    value.isObject = !value.isArray := by
  obtain ⟨fields, hf, hr⟩ := Option.bind_eq_some_iff.mp h
  rw [structFields_object hf] at hr
  simp only [List.map_cons, List.map_nil] at hr
  split at hr
  · rename_i id error heq
    injection heq with hid heq
    injection heq with he
    simp only [Option.bind_eq_bind, Option.bind_eq_some_iff] at hr
    obtain ⟨_, _, payload, hp, -⟩ := hr
    cases he.symm.trans hv
    exact ErrorPayload.deserialize_shape hp
  · cases hr

theorem Frame.deserialize_object (h : Frame.deserialize (.object members) = some frame) :
    (∃ tag, Json.member "type" (.object members) = some (.string tag)) ∧
      ∀ value ∈ Json.structs (.object members), value.isObject = !value.isArray := by
  simp only [Frame.deserialize] at h
  split at h
  · rename_i key tag hty
    have ht : Json.member "type" (.object members) = some (.string tag) := by
      rw [Json.member, ← List.head?_filter, hty]
      rfl
    refine ⟨⟨tag, ht⟩, fun value hv => ?_⟩
    rw [Json.structs, ht] at hv
    obtain ⟨name, hn, hm⟩ := List.mem_filterMap.mp hv
    have hu (hne : name ≠ "type") : Json.member name
        (.object (members.filter fun member => member.1 != "type")) = some value :=
      (member_untagged hne).trans hm
    simp only [Frame.ofTagged] at h
    by_cases hh : tag = "hello"
    · subst hh
      obtain ⟨hello, hr, -⟩ := Option.map_eq_some_iff.mp (by simpa using h)
      refine Hello.deserialize_members hr hn (hu ?_)
      rintro rfl
      exact absurd hn (by decide)
    by_cases he : tag = "err"
    · subst he
      obtain ⟨response, hr, -⟩ := Option.map_eq_some_iff.mp (by simpa using h)
      have hn : name = "error" := by simpa [structMembers] using hn
      subst hn
      exact ErrorResponse.deserialize_members hr (hu (by decide))
    · simp [structMembers, hh, he] at hn
  · cases h

theorem Frame.deserialize_shape (h : Frame.deserialize document = some frame) :
    (∃ members, document = .object members) ∨ document.isArray = true := by
  cases document with
  | object members => exact .inl ⟨members, rfl⟩
  | array => exact .inr rfl
  | _ => cases h

theorem Frame.deserialize_byName_iff (h : Frame.deserialize document = some frame) :
    document.ByName ↔ document.NoArrays := by
  constructor
  · intro hn
    refine ⟨?_, fun value hv => ?_⟩
    · cases document with
      | array => cases hn.object
      | _ => rfl
    · have ho := hn.structs value hv
      cases value with
      | array => cases ho
      | _ => rfl
  · intro hno
    rcases Frame.deserialize_shape h with ⟨members, rfl⟩ | ha
    · obtain ⟨ht, hs⟩ := Frame.deserialize_object h
      refine ⟨rfl, ht, fun value hv => ?_⟩
      rw [hs value hv, hno.structs value hv]
      rfl
    · cases ha.symm.trans hno.top

theorem decodeLine_document {platform : Platform} {line : List UInt8} {maxFrameBytes : Nat}
    (h : decodeLine platform line maxFrameBytes = .ok frame) :
    ∃ document, platform.parse (stripCarriageReturn line) = some document ∧
      Frame.deserialize document = some frame := by
  unfold decodeLine at h
  dsimp only at h
  split at h
  · cases h
  split at h
  · cases h
  split at h
  · cases h
  split at h
  · split at h <;> cases h
  · grind [fromSlice]

/-- A line that `decode_line` accepts holds objects in all places that the protocol describes as
objects if and only if none of them holds an array. -/
theorem decodeLine_objects_iff {platform : Platform} {line : List UInt8} {maxFrameBytes : Nat}
    {frame : Frame} (h : decodeLine platform line maxFrameBytes = .ok frame) :
    ∃ document, platform.parse (stripCarriageReturn line) = some document ∧
      (document.ByName ↔ document.NoArrays) := by
  obtain ⟨document, hp, hr⟩ := decodeLine_document h
  exact ⟨document, hp, Frame.deserialize_byName_iff hr⟩

/-- A platform that reads the compact text of some documents and no other text. -/
def documentPlatform (documents : List Json) : Platform where
  parse bytes := documents.find? fun document => document.toVec == bytes
  parseError _ := (.malformed, "expected value")
  dataError _ := "unknown variant"
  printable _ := true

def pingObject : Json := .object [("type", .string "ping")]

theorem decodeLine_objects_iff_ping :
    ∃ document, (documentPlatform [pingObject]).parse (stripCarriageReturn pingObject.toVec) =
      some document ∧ (document.ByName ↔ document.NoArrays) := by
  have hd : decodeLine (documentPlatform [pingObject]) pingObject.toVec 4096 = .ok .ping := by
    rfl
  exact decodeLine_objects_iff hd

/-- The array `["ping"]`. -/
def pingArray : Json := .array [.string "ping"]

/-- An `err` frame with its error by position. -/
def errArray : Json :=
  .object [("type", .string "err"), ("id", .string "1"),
    ("error", .array [.string "FAILED", .string "failed"])]

/-- Both are accepted as frames. -/
theorem arrays_accepted :
    (decodeLine (documentPlatform [pingArray, errArray]) (utf8 "[\"ping\"]") 4096).isOk = true ∧
      (documentPlatform [pingArray, errArray]).parse (utf8 "[\"ping\"]") = some pingArray ∧
      ¬pingArray.ByName ∧
      (decodeLine (documentPlatform [pingArray, errArray]) errArray.toVec 4096).isOk = true ∧
      (documentPlatform [pingArray, errArray]).parse errArray.toVec = some errArray ∧
      ¬errArray.ByName := by
  refine ⟨by decide +kernel, by rfl, ?_, by decide +kernel, by rfl, ?_⟩
  · intro hn
    cases hn.object
  · intro hn
    cases hn.structs (.array [.string "FAILED", .string "failed"]) (List.mem_singleton.mpr rfl)

end MangoProtocol
