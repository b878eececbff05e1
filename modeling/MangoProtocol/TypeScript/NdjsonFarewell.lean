import MangoProtocol.TypeScript.CloseFrame
import MangoProtocol.TypeScript.CloseReason
import MangoProtocol.TypeScript.NdjsonPort

/-! The farewell of the NDJSON port and the Rust peer.  The port cuts the reason after 1024 code
units.  A cut between the two halves of a surrogate pair leaves the first half, which
`JSON.stringify` escapes and `serde_json` refuses, and the peer then reads no `close` frame.  In
every other case the peer reads the code, with a beginning of the reason or without a reason. -/

namespace MangoProtocol.TypeScript

open ProofKit

/-! ### The cut -/

/-- The text has a character outside the Basic Multilingual Plane that starts at a code unit. -/
def AstralAtUnit (offset : Nat) (text : String) : Prop :=
  ∃ front c rest, text.toList = front ++ c :: rest ∧
    (front.flatMap utf16Units).length = offset ∧ 0x10000 ≤ c.toNat

theorem take_split {offset : Nat} {text : String} (h : AstralAtUnit offset text) :
    ∃ surrogate, CodePoint.lone surrogate ∈
      JsString.codePoints ((js text).take (offset + 1)) := by
  obtain ⟨front, c, rest, ht, ho, ha⟩ := h
  obtain ⟨high, low, hu, hh, -⟩ := utf16Units_astral ha
  have hc : ((front ++ c :: rest).flatMap utf16Units).take
      ((front.flatMap utf16Units).length + 1) = front.flatMap utf16Units ++ [high] :=
    (encode_take_half rest hu hh).1
  refine ⟨high, ?_⟩
  rw [js, ht, ← ho, hc, codePoints_units_append]
  simp [JsString.codePoints, CodePoint.ofUnit, hh]

theorem utf16Units_length (c : Char) :
    (utf16Units c).length = if c.toNat < 0x10000 then 1 else 2 := by
  unfold utf16Units
  split <;> rfl

theorem take_units_whole (chars : List Char) (offset : Nat)
    (h : ∀ front c rest, chars = front ++ c :: rest →
      (front.flatMap utf16Units).length = offset → c.toNat < 0x10000) :
    ∃ front, front <+: chars ∧
      (chars.flatMap utf16Units).take (offset + 1) = front.flatMap utf16Units := by
  induction chars generalizing offset with
  | nil => exact ⟨[], List.prefix_rfl, rfl⟩
  | cons c chars ih =>
    have hl := utf16Units_length c
    rw [List.flatMap_cons]
    rcases Nat.lt_trichotomy (offset + 1) (utf16Units c).length with hw | he | hb
    · -- Within the first character, which would have to be a pair.
      have hp := h [] c chars rfl (by
        split at hl
        · omega
        · simp only [List.flatMap_nil, List.length_nil]
          omega)
      rw [if_pos hp] at hl
      omega
    · refine ⟨[c], ⟨chars, rfl⟩, ?_⟩
      rw [List.take_left' he.symm, List.flatMap_singleton]
    · obtain ⟨left, rfl⟩ := Nat.exists_eq_add_of_le (Nat.lt_succ_iff.mp hb)
      obtain ⟨front, hf, ht⟩ := ih left fun front d rest hc hle =>
        h (c :: front) d rest (by rw [hc]; rfl)
          (by rw [List.flatMap_cons, List.length_append, hle])
      refine ⟨c :: front, (List.prefix_cons_inj c).mpr hf, ?_⟩
      rw [Nat.add_assoc, List.take_length_add_append, ht, List.flatMap_cons]

theorem take_whole {offset : Nat} {text : String} (h : ¬AstralAtUnit offset text) :
    ∃ front : String, front.toList <+: text.toList ∧
      (js text).take (offset + 1) = js front := by
  obtain ⟨front, hf, ht⟩ := take_units_whole text.toList offset
    fun front c rest hte ho =>
      Nat.not_le.mp fun ha => h ⟨front, c, rest, hte, ho, ha⟩
  refine ⟨String.ofList front, ?_, ?_⟩
  · rw [String.toList_ofList]
    exact hf
  · rw [js, ht, js, String.toList_ofList]

/-! ### The peer -/

/-- The parser refuses a `close` frame whose reason has the escape of a surrogate without its
partner. -/
def RefusesUnpaired (platform : Platform) : Prop :=
  ∀ (code : Nat) (reason : JsString),
    (∃ surrogate, CodePoint.lone surrogate ∈ JsString.codePoints reason) →
      platform.parse (closeLine code (some reason)) = none

/-- A record that the Rust peer reads as the farewell: its line decodes to a `close` frame with the
code, and with a beginning of the reason in whole characters or without a reason. -/
def ReadAsFarewell (platform : Platform) (limit code : Nat) (reason : String)
    (record : List UInt8) : Prop :=
  ∃ line close, record = line ++ [lineFeed] ∧
    MangoProtocol.decodeLine platform line limit = .ok (.close close) ∧ close.code.toNat = code ∧
    ∀ kept, close.reason = some kept → kept.toList <+: reason.toList

section Peer

variable {platform : Platform} {limit code : Nat}

theorem toNat_code (hc : isCloseCode code = true) : (UInt16.ofNat code).toNat = code :=
  UInt16.toNat_ofNat_of_lt' ((code_lt hc).trans (by decide))

theorem validate_close {kept : Option String} (hc : isCloseCode code = true)
    (hs : ∀ given, kept = some given → given.length ≤ maxReasonChars) :
    validate platform (.close ⟨UInt16.ofNat code, kept⟩) = .ok () := by
  have hr := isCloseCode_iff.mp hc
  have hn : (UInt16.ofNat code).toNat = code := toNat_code hc
  have hmi : minCloseCode ≤ UInt16.ofNat code := by
    rw [UInt16.le_iff_toNat_le, hn]
    exact hr.1
  have hm : UInt16.ofNat code ≤ maxCloseCode := by
    rw [UInt16.le_iff_toNat_le, hn]
    exact hr.2
  cases kept with
  | none => simp [validate, validateClose, check_bind_eq_ok, hmi, hm]
  | some given =>
    simp [validate, validateClose, check_bind_eq_ok, hmi, hm, hs given rfl]

theorem decodeLine_close {kept : Option String} (hl : minMaxFrameBytes ≤ limit)
    (hc : isCloseCode code = true)
    (hs : ∀ given, kept = some given → given.length ≤ maxReasonChars)
    (hf : (closeLine code (kept.map js)).length ≤ limit)
    (reads : platform.ReadsBack (.close ⟨UInt16.ofNat code, kept⟩)) :
    MangoProtocol.decodeLine platform (closeLine code (kept.map js)) limit =
      .ok (.close ⟨UInt16.ofNat code, kept⟩) := by
  have hw : code < 2 ^ 16 := (code_lt hc).trans (by decide)
  rw [closeLine_eq_toVec hw] at hf ⊢
  exact decodeLine_toVec reads hl (validate_close hc hs) hf

theorem decodeLine_unparsed {line : List UInt8} {frame : MangoProtocol.Frame}
    (hs : MangoProtocol.stripCarriageReturn line = line)
    (hp : platform.parse line = none) :
    MangoProtocol.decodeLine platform line limit ≠ .ok frame := by
  intro h
  unfold MangoProtocol.decodeLine at h
  split at h
  · cases h
  simp only [hs, fromSlice, hp] at h
  split at h
  · cases h
  split at h
  · cases h
  split at h <;> cases h

theorem stripCarriageReturn_closeLine (reason : Option JsString) :
    MangoProtocol.stripCarriageReturn (closeLine code reason) = closeLine code reason := by
  have hl : (closeLine code reason).getLast? = some 125 := by
    rw [closeLine, closeLine_back, List.getLast?_concat]
  rw [MangoProtocol.stripCarriageReturn, hl]
  rfl

end Peer

/-! ### The farewell -/

section Farewell

variable {count : JsString → Nat} {describe : Frame → String}
  {parse : String → Nat → Except CodecError Frame} {port : NdjsonPort Frame} {code : Nat}

/-- The reason as the port cuts it. -/
def cutReason (reason : String) : JsString := (js reason).take closeReasonMaxLength

theorem cutReason_short (hn : LengthCount count) (reason : String) :
    count (cutReason reason) ≤ closeReasonMaxLength :=
  (hn.le_length _).trans (List.length_take_le _ _)

theorem encodeRecord_close {reason : Option JsString} (hco : isCloseCode code = true)
    (hc : ∀ given, reason = some given → Carries count port.maxFrameBytes code given) :
    port.encodeRecord (Frame.format count describe parse) (.close code reason) =
      .ok (closeLine code reason ++ [lineFeed]) := by
  have he : encodeFrameBytes (Frame.serialise count describe) (.close code reason)
      (some port.maxFrameBytes) = .ok (closeLine code reason) :=
    (encodeFrameBytes_close port.atLeast hco).mpr ⟨hc, rfl⟩
  rw [NdjsonPort.encodeRecord, Frame.format, he]
  rfl

theorem encodeRecord_refused {reason : JsString} (hco : isCloseCode code = true)
    (hr : ¬Carries count port.maxFrameBytes code reason) :
    (port.encodeRecord (Frame.format count describe parse) (.close code (some reason))).toOption =
      none := by
  rw [NdjsonPort.encodeRecord, Frame.format]
  cases he : encodeFrameBytes (Frame.serialise count describe) (.close code (some reason))
      (some port.maxFrameBytes) with
  | error thrown => rfl
  | ok bytes =>
    have hc := ((encodeFrameBytes_close port.atLeast hco).mp he).1
    exact absurd (hc reason rfl) hr

def farewellReason (limit code : Nat) (reason : String) : Option JsString :=
  if (closeLine code (some (cutReason reason))).length ≤ limit then some (cutReason reason)
  else none

theorem encodeClose_eq (hn : LengthCount count) (hc : isCloseCode code = true) (reason : String) :
    port.encodeClose (Frame.format count describe parse) code (some (cutReason reason)) =
      some (closeLine code (farewellReason port.maxFrameBytes code reason) ++ [lineFeed]) := by
  have he : port.encodeClose (Frame.format count describe parse) code (some (cutReason reason)) =
      [some (cutReason reason), none].findSome? fun candidate =>
        (port.encodeRecord (Frame.format count describe parse) (.close code candidate)).toOption :=
    rfl
  rw [he, farewellReason, List.findSome?_cons]
  by_cases hf : (closeLine code (some (cutReason reason))).length ≤ port.maxFrameBytes
  · rw [if_pos hf, encodeRecord_close hc fun given hg => by
      cases hg
      exact ⟨cutReason_short hn reason, hf⟩]
    rfl
  · rw [if_neg hf, encodeRecord_refused hc fun hca => hf hca.fits,
      List.findSome?_cons, encodeRecord_close hc fun given hg => by cases hg]
    rfl

theorem writeClose_eq (hn : LengthCount count) (told : NdjsonPort Frame)
    (hw : told.sinkWritable = true) (hc : isCloseCode code = true) (reason : String) :
    told.writeClose (Frame.format count describe parse) code
      (some (js reason)) none =
      (told, [.wrote (closeLine code (farewellReason told.maxFrameBytes code reason) ++
        [lineFeed])]) := by
  have he : told.encodeClose (Frame.format count describe parse) code
      (some ((js reason).take closeReasonMaxLength)) = _ :=
    encodeClose_eq hn hc reason
  rw [NdjsonPort.writeClose, if_neg (not_not_intro hw), Option.map_some, he]

theorem close_eq (hn : LengthCount count) (hs : port.Sound) (ho : port.state = .open_)
    (hc : isCloseCode code = true) (reason : String) :
    (port.close (Frame.format count describe parse) code (some (js reason)) none).2 =
      [.wrote (closeLine code (farewellReason port.maxFrameBytes code reason) ++ [lineFeed]),
        .ended] := by
  obtain ⟨he, hw⟩ := hs.isOpen ho
  rw [NdjsonPort.close, if_neg (not_not_intro ho), writeClose_eq hn, NdjsonPort.andThen,
    NdjsonPort.andThen, NdjsonPort.endSink_open]
  · rfl
  · exact he
  · exact hw
  · exact hc

theorem close_record_iff (hn : LengthCount count) (hs : port.Sound) (ho : port.state = .open_)
    (hc : isCloseCode code = true) (reason : String) (holds : List UInt8 → Prop) :
    (∃ record, (port.close (Frame.format count describe parse) code
        (some (js reason)) none).2 = [.wrote record, .ended] ∧ holds record) ↔
      holds (closeLine code (farewellReason port.maxFrameBytes code reason) ++ [lineFeed]) := by
  rw [close_eq hn hs ho hc reason]
  constructor
  · rintro ⟨record, hr, hh⟩
    cases hr
    exact hh
  · exact fun hh => ⟨_, rfl, hh⟩

end Farewell

section Reading

variable {platform : Platform} {limit code : Nat} {reason : String}

theorem farewellReason_text (hl : minMaxFrameBytes ≤ limit) (hc : isCloseCode code = true)
    (h : ¬(AstralAtUnit 1023 reason ∧ (closeLine code (some (cutReason reason))).length ≤ limit)) :
    ∃ kept : Option String, farewellReason limit code reason = kept.map js ∧
      (∀ given, kept = some given → given.toList <+: reason.toList) ∧
      (∀ given, kept = some given → given.length ≤ maxReasonChars) ∧
      (closeLine code (kept.map js)).length ≤ limit := by
  by_cases hf : (closeLine code (some (cutReason reason))).length ≤ limit
  · obtain ⟨front, hfr, hcu⟩ := take_whole fun ha => h ⟨ha, hf⟩
    have hsh := cutReason_short lengthCount_schemaLength reason
    have hs : cutReason reason = js front := hcu
    rw [hs, schemaLength_js] at hsh
    refine ⟨some front, ?_, fun given hg => ?_, fun given hg => ?_, ?_⟩
    · rw [farewellReason, if_pos hf, hs]
      rfl
    · cases hg
      exact hfr
    · cases hg
      exact hsh
    · rw [hs] at hf
      exact hf
  · refine ⟨none, ?_, fun given hg => (by cases hg), fun given hg => (by cases hg),
      ?_⟩
    · rw [farewellReason, if_neg hf]
      rfl
    · exact (closeLine_none_length hc).trans hl

theorem farewell_unreadable (refuses : RefusesUnpaired platform) (ha : AstralAtUnit 1023 reason)
    (hf : (closeLine code (some (cutReason reason))).length ≤ limit) :
    ¬ReadAsFarewell platform limit code reason
      (closeLine code (farewellReason limit code reason) ++ [lineFeed]) := by
  rintro ⟨line, close, hl, hd, -⟩
  rw [farewellReason, if_pos hf] at hl
  cases List.append_inj_left' hl rfl
  refine decodeLine_unparsed (stripCarriageReturn_closeLine _) ?_ hd
  exact refuses code (cutReason reason) (take_split ha)

theorem farewell_readable_iff (hl : minMaxFrameBytes ≤ limit) (hc : isCloseCode code = true)
    (reads : ∀ kept : Option String, (∀ given, kept = some given → given.toList <+: reason.toList) →
      platform.ReadsBack (.close ⟨UInt16.ofNat code, kept⟩))
    (refuses : RefusesUnpaired platform) :
    ReadAsFarewell platform limit code reason
        (closeLine code (farewellReason limit code reason) ++ [lineFeed]) ↔
      ¬(AstralAtUnit 1023 reason ∧
        (closeLine code (some (cutReason reason))).length ≤ limit) := by
  constructor
  · rintro hre ⟨ha, hf⟩
    exact farewell_unreadable refuses ha hf hre
  · intro h
    obtain ⟨kept, hr, hfr, hs, hf⟩ := farewellReason_text hl hc h
    rw [hr]
    exact ⟨_, _, rfl, decodeLine_close hl hc hs hf (reads kept hfr),
      toNat_code hc, hfr⟩

end Reading

/-- In every run of a port that is still open, the record that `close` writes is read by the Rust
peer as the farewell, unless a character outside the Basic Multilingual Plane starts at code unit
1023 of the reason and the line with the cut reason fits the frame limit. -/
theorem NdjsonRun.close_readable_iff {count : JsString → Nat} {describe : Frame → String}
    {parse : String → Nat → Except CodecError Frame} {platform : Platform}
    {maxFrameBytes : Option Nat} {port : NdjsonPort Frame} {calls : List (NdjsonCall Frame)}
    {run : NdjsonRun Frame} {code : Nat} {reason : String}
    (hcount : LengthCount count) (hnew : NdjsonPort.new maxFrameBytes = .ok port)
    (hrun : Machine.run (step (Frame.format count describe parse)) (start port) calls = some run)
    (hopen : run.port.state = .open_) (hcode : isCloseCode code = true)
    (reads : ∀ kept : Option String, (∀ given, kept = some given → given.toList <+: reason.toList) →
      platform.ReadsBack (.close ⟨UInt16.ofNat code, kept⟩))
    (refuses : RefusesUnpaired platform) :
    (∃ record, (run.port.close (Frame.format count describe parse) code
          (some (js reason)) none).2 = [.wrote record, .ended] ∧
        ReadAsFarewell platform run.port.maxFrameBytes code reason record) ↔
      ¬(AstralAtUnit 1023 reason ∧
        (closeLine code (some (cutReason reason))).length ≤ run.port.maxFrameBytes) := by
  rw [close_record_iff hcount (run_settled hnew hrun).sound hopen hcode reason]
  exact farewell_readable_iff run.port.atLeast hcode reads refuses

theorem backslash_mem_closeLine {code : Nat} {reason : JsString} {surrogate : UInt16}
    (h : CodePoint.lone surrogate ∈ JsString.codePoints reason) :
    92 ∈ closeLine code (some reason) := by
  have hes : 92 ∈ JsString.quoted reason := by
    refine List.mem_cons_of_mem _ (List.mem_append_left _ (List.mem_flatMap.mpr ⟨_, h, ?_⟩))
    exact List.mem_cons_self
  rw [closeLine, Option.elim_some]
  exact List.mem_append_left _ (List.mem_append_right _ (List.mem_append_right _ hes))

theorem refusesUnpaired_table {frames : List MangoProtocol.Frame}
    (h : ∀ frame ∈ frames, 92 ∉ frame.toVec) : RefusesUnpaired (tablePlatform frames) := by
  intro code reason hl
  obtain ⟨surrogate, hm⟩ := hl
  have hn : frames.find? (fun frame => frame.toVec == closeLine code (some reason)) = none := by
    rw [List.find?_eq_none]
    intro frame hf heq
    refine h frame hf ?_
    rw [beq_iff_eq.mp heq]
    exact backslash_mem_closeLine hm
  simp only [tablePlatform, hn, Option.map_none]

/-- The beginnings of a short reason. -/
def byeFrames : List MangoProtocol.Frame :=
  [none, some "", some "b", some "by", some "bye"].map fun kept => .close ⟨4401, kept⟩

def byeFormat : FrameFormat Frame :=
  Frame.format schemaLength (fun _ => "") fun _ _ => .error ⟨.schema, "", none⟩

theorem NdjsonRun.close_readable_iff_bye :
    ∃ (port : NdjsonPort Frame) (run : NdjsonRun Frame),
      NdjsonPort.new (some 4096) = .ok port ∧
      Machine.run (step byeFormat) (start port) [.onFrame] = some run ∧
      ∃ record, (run.port.close byeFormat 4401 (some (js "bye")) none).2 =
          [.wrote record, .ended] ∧
        ReadAsFarewell (tablePlatform byeFrames) run.port.maxFrameBytes 4401 "bye" record := by
  obtain ⟨port, run, hn, hr, ho⟩ : ∃ (port : NdjsonPort Frame) (run : NdjsonRun Frame),
      NdjsonPort.new (some 4096) = .ok port ∧
      Machine.run (step byeFormat) (start port) [.onFrame] = some run ∧ run.port.state = .open_ :=
    ⟨_, _, rfl, rfl, rfl⟩
  refine ⟨port, run, hn, hr, ?_⟩
  refine (close_readable_iff lengthCount_schemaLength hn hr ho (by decide) ?_ ?_).mpr ?_
  · intro kept hk
    have ht : "bye".toList = ['b', 'y', 'e'] := by decide
    cases kept with
    | none => rfl
    | some given =>
      have hi := (List.mem_inits _ _).mpr (hk given rfl)
      rw [ht] at hi
      simp only [List.inits, List.map_cons, List.map_nil, List.mem_cons, List.not_mem_nil,
        or_false] at hi
      rcases hi with hg | hg | hg | hg
      · cases String.toList_inj.mp (hg.trans (by decide : [] = "".toList))
        rfl
      · cases String.toList_inj.mp (hg.trans (by decide : ['b'] = "b".toList))
        rfl
      · cases String.toList_inj.mp (hg.trans (by decide : ['b', 'y'] = "by".toList))
        rfl
      · cases String.toList_inj.mp (hg.trans ht.symm)
        rfl
  · exact refusesUnpaired_table (by decide +kernel)
  · rintro ⟨⟨front, c, rest, ht, hl, -⟩, -⟩
    have hu : ((front ++ c :: rest).flatMap utf16Units).length = _ := units_length
    rw [← ht, hl] at hu
    have hs : ("bye".toList.flatMap utf16Units).length = 3 := by decide +kernel
    omega

def straddlingReason : String := String.ofList (List.replicate 1023 'x' ++ ['😀'])

theorem straddlingReason_toList :
    straddlingReason.toList = List.replicate 1023 'x' ++ ['😀'] :=
  String.toList_ofList

theorem letters_units (count : Nat) :
    (List.replicate count 'x').flatMap utf16Units = List.replicate count 120 := by
  have hu : utf16Units 'x' = [120] := by decide
  rw [List.flatMap_replicate, hu, List.flatten_replicate_singleton]

theorem straddling_astral : AstralAtUnit 1023 straddlingReason := by
  refine ⟨List.replicate 1023 'x', '😀', [], straddlingReason_toList, ?_, by decide⟩
  rw [letters_units, List.length_replicate]

theorem straddling_cut : cutReason straddlingReason =
    (List.replicate 1023 'x').flatMap utf16Units ++ [0xd83d] := by
  have hu : utf16Units '😀' = [0xd83d, 0xde00] := by decide
  have hl : ((List.replicate 1023 'x').flatMap utf16Units).length + 1 =
      closeReasonMaxLength := by
    rw [letters_units, List.length_replicate]
    rfl
  rw [cutReason, js, straddlingReason_toList, ← hl]
  exact (encode_take_half [] hu (by decide)).1

theorem straddling_line : closeLine 4401 (some (cutReason straddlingReason)) =
    utf8 "\x7b\"type\":\"close\",\"code\":4401,\"reason\":\"" ++
      (List.replicate 1023 120 ++ utf8 "\\ud83d\"\x7d") := by
  have hes : CodePoint.escape (.char 'x') = [120] := by decide
  have hh : JsString.codePoints [0xd83d] = [.lone 0xd83d] := by decide
  have hf : utf8 "\x7b\"type\":\"close\",\"code\":4401,\"reason\":\"" =
      utf8 "\x7b\"type\":\"close\",\"code\":" ++ decimal 4401 ++ utf8 ",\"reason\":" ++ [34] := by
    decide +kernel
  have hb : utf8 "\\ud83d\"\x7d" = CodePoint.escape (.lone 0xd83d) ++ 34 :: utf8 "\x7d" := by
    decide +kernel
  rw [closeLine, Option.elim_some, straddling_cut, JsString.quoted, codePoints_units_append, hh,
    List.map_replicate, List.flatMap_append, List.flatMap_replicate, hes,
    List.flatten_replicate_singleton, List.flatMap_singleton, hf, hb]
  simp only [List.append_assoc, List.cons_append, List.nil_append]

/-- The line ends with the escape of the first half of the emoji, and the peer reads no farewell. -/
theorem straddling_reason_unreadable :
    ∃ port : NdjsonPort Frame, NdjsonPort.new (some 4096) = .ok port ∧ port.state = .open_ ∧
      isCloseCode 4401 = true ∧
      ∀ (count : JsString → Nat) (describe : Frame → String)
        (parse : String → Nat → Except CodecError Frame) (platform : Platform),
        LengthCount count → RefusesUnpaired platform →
        (port.close (Frame.format count describe parse) 4401
            (some (js straddlingReason)) none).2 =
          [.wrote (utf8 "\x7b\"type\":\"close\",\"code\":4401,\"reason\":\"" ++
            (List.replicate 1023 120 ++ utf8 "\\ud83d\"\x7d") ++ [lineFeed]), .ended] ∧
        ¬∃ record, (port.close (Frame.format count describe parse) 4401
            (some (js straddlingReason)) none).2 = [.wrote record, .ended] ∧
          ReadAsFarewell platform port.maxFrameBytes 4401 straddlingReason record := by
  obtain ⟨port, hn, hl, ho⟩ : ∃ port : NdjsonPort Frame,
      NdjsonPort.new (some 4096) = .ok port ∧ port.maxFrameBytes = 4096 ∧ port.state = .open_ :=
    ⟨_, rfl, rfl, rfl⟩
  have hs : port.Sound := (NdjsonRun.start_settled hn).sound
  have hc : isCloseCode 4401 = true := by decide
  have hf : (closeLine 4401 (some (cutReason straddlingReason))).length ≤ 4096 := by
    have hfr : (utf8 "\x7b\"type\":\"close\",\"code\":4401,\"reason\":\"").length = 38 := by
      decide +kernel
    have hb : (utf8 "\\ud83d\"\x7d").length = 8 := by decide +kernel
    rw [straddling_line, List.length_append, List.length_append, List.length_replicate, hfr,
      hb]
    decide
  refine ⟨port, hn, ho, hc, fun count describe parse platform hco refuses => ?_⟩
  rw [close_record_iff hco hs ho hc, close_eq hco hs ho hc, hl]
  refine ⟨?_, farewell_unreadable refuses straddling_astral hf⟩
  rw [farewellReason, if_pos hf, straddling_line]

end MangoProtocol.TypeScript
