import MangoProtocol.Codec.RoundTrip
import MangoProtocol.TypeScript.FrameSize
import MangoProtocol.TypeScript.WebSocketPort

/-! The `close` frame as the TypeScript package writes it.  Where its reason is a text, the line is
the line of the Rust crate.  A string that is not a text has a surrogate without its partner, and
the line then has the escape of that surrogate. -/

namespace MangoProtocol.TypeScript

/-! ### The codec of the frames -/

def Frame.serialise (count : JsString → Nat) (describe : Frame → String) (self : Frame) :
    Except CodecError (List UInt8) :=
  if ¬self.isFrame count then .error ⟨.schema, describe self, some self.type⟩
  else
    match self.stringify with
    | .error reason => .error ⟨.schema, "frame is not JSON-serialisable: " ++
        decodeText (JsString.encode reason) ++ "; expected a frame of plain JSON values", none⟩
    | .ok bytes => .ok bytes

/-- What the package does with its frames; `parse` is `JSON.parse` and `assertFrame`. -/
def Frame.format (count : JsString → Nat) (describe : Frame → String)
    (parse : String → Nat → Except CodecError Frame) : FrameFormat Frame :=
  ⟨Frame.type, Frame.serialise count describe, parse, .close⟩

/-! ### The line of a `close` frame -/

def closeLine (code : Nat) (reason : Option JsString) : List UInt8 :=
  utf8 "\x7b\"type\":\"close\",\"code\":" ++ decimal code ++
    (reason.elim [] fun reason => utf8 ",\"reason\":" ++ JsString.quoted reason) ++ utf8 "\x7d"

theorem closeLine_front : utf8 "\x7b\"type\":\"close\",\"code\":" =
    123 :: (MangoProtocol.quoted "type" ++ [58] ++ MangoProtocol.quoted "close" ++ [44] ++
      (MangoProtocol.quoted "code" ++ [58])) := by
  decide

theorem closeLine_reason : utf8 ",\"reason\":" = 44 :: (MangoProtocol.quoted "reason" ++ [58]) := by
  decide

theorem closeLine_back : utf8 "\x7d" = [125] := by decide

theorem stringify_close (code : Nat) (reason : Option JsString) :
    (Frame.close code reason).stringify = .ok (closeLine code reason) := by
  cases reason with
  | none =>
    simp [Frame.stringify, Frame.members, Frame.type, stringifyObject, stringifyMembers,
      Visit.option, Visit.number, Except.map, closeLine, closeLine_front, closeLine_back,
      List.intercalate]
  | some reason =>
    simp [Frame.stringify, Frame.members, Frame.type, stringifyObject, stringifyMembers,
      Visit.option, Visit.number, Visit.string, Except.map, closeLine, closeLine_front,
      closeLine_reason, closeLine_back, List.intercalate]

theorem quoted_js (text : String) :
    JsString.quoted (js text) = MangoProtocol.quoted text := by
  rw [JsString.quoted, JsString.codePoints_js, List.flatMap_map]
  rfl

variable {reason : Option JsString} {bytes : List UInt8} {describe : Frame → String}
  {count : JsString → Nat}
  {code limit : Nat}

theorem closeLine_eq_toVec (hc : code < 2 ^ 16) (reason : Option String) :
    closeLine code (reason.map js) =
      (MangoProtocol.Frame.close ⟨UInt16.ofNat code, reason⟩).toVec := by
  have hn : (UInt16.ofNat code).toUInt64.toNat = code := by
    rw [UInt16.toNat_toUInt64, UInt16.toNat_ofNat_of_lt' hc]
  cases reason with
  | none =>
    simp [closeLine, closeLine_front, closeLine_back, MangoProtocol.Frame.toVec,
      MangoProtocol.Frame.serialize, MangoProtocol.Frame.members, MangoProtocol.Frame.typeName,
      optional, Json.toVec, Json.restMembers, Json.u64, Number.toVec, hn]
  | some reason =>
    simp [closeLine, closeLine_front, closeLine_reason, closeLine_back, MangoProtocol.Frame.toVec,
      MangoProtocol.Frame.serialize, MangoProtocol.Frame.members, MangoProtocol.Frame.typeName,
      optional, Json.toVec, Json.restMembers, Json.u64, Number.toVec, hn, quoted_js]

/-! ### What the codec takes -/

theorem isCloseCode_iff : isCloseCode code = true ↔ closeCodeMin ≤ code ∧ code ≤ closeCodeMax := by
  simp only [isCloseCode, Bool.and_eq_true, decide_eq_true_eq]

theorem code_lt (h : isCloseCode code = true) : code < 10 ^ 4 :=
  Nat.lt_of_le_of_lt (isCloseCode_iff.mp h).2 (by decide)

theorem closeLine_none_length (h : isCloseCode code = true) :
    (closeLine code none).length ≤ minMaxFrameBytes := by
  have hd : code.repr.length ≤ 4 := repr_length_le (by decide) (code_lt h)
  have hf : (utf8 "\x7b\"type\":\"close\",\"code\":").length = 23 := by decide
  have hb : (utf8 "\x7d").length = 1 := by decide
  simp only [closeLine, Option.elim_none, List.append_nil, List.length_append, decimal_length,
    hf, hb, minMaxFrameBytes]
  omega

/-- The reason passes the schema, and the line with it fits the limit. -/
structure Carries (count : JsString → Nat) (limit code : Nat) (reason : JsString) : Prop where
  short : count reason ≤ closeReasonMaxLength
  fits : (closeLine code (some reason)).length ≤ limit

theorem closeLine_fits (hl : minMaxFrameBytes ≤ limit) (hco : isCloseCode code = true)
    (hc : ∀ given, reason = some given → Carries count limit code given) :
    (closeLine code reason).length ≤ limit := by
  cases reason with
  | none => exact (closeLine_none_length hco).trans hl
  | some given => exact (hc given rfl).fits

theorem encodeFrameBytes_eq_ok {φ : Type} {serialise : φ → Except CodecError (List UInt8)}
    {frame : φ} (hli : minMaxFrameBytes ≤ limit) :
    encodeFrameBytes serialise frame (some limit) = .ok bytes ↔
      serialise frame = .ok bytes ∧ bytes.length ≤ limit := by
  simp only [encodeFrameBytes, resolveFrameLimit, resolveIntegerAtLeast, Option.getD_some,
    if_neg (Nat.not_lt.mpr hli), bind, Except.bind]
  cases serialise frame with
  | error error => simp [Except.mapError]
  | ok written =>
    by_cases hl : limit < written.length
    · simp only [Except.mapError, if_pos hl, throw, throwThe, MonadExceptOf.throw]
      constructor
      · intro h
        cases h
      · grind
    · simp only [Except.mapError, if_neg hl, pure, Except.pure, Except.ok.injEq]
      exact ⟨fun h => ⟨h, h ▸ Nat.not_lt.mp hl⟩, fun h => h.1⟩

theorem isFrame_close (hc : isCloseCode code = true) :
    (Frame.close code reason).isFrame count = true ↔
      ∀ given, reason = some given → count given ≤ closeReasonMaxLength := by
  cases reason <;> simp [Frame.isFrame, hc]

theorem serialise_close (hc : isCloseCode code = true) :
    (Frame.close code reason).serialise count describe = .ok bytes ↔
      (∀ given, reason = some given → count given ≤ closeReasonMaxLength) ∧
        closeLine code reason = bytes := by
  unfold Frame.serialise
  rw [stringify_close, ← isFrame_close hc]
  by_cases h : (Frame.close code reason).isFrame count = true <;> simp [h]

theorem encodeFrameBytes_close (hl : minMaxFrameBytes ≤ limit) (hco : isCloseCode code = true) :
    encodeFrameBytes (Frame.serialise count describe) (.close code reason)
      (some limit) = .ok bytes ↔
      (∀ given, reason = some given → Carries count limit code given) ∧
        closeLine code reason = bytes := by
  rw [encodeFrameBytes_eq_ok hl, serialise_close hco]
  constructor
  · rintro ⟨⟨hs, rfl⟩, hf⟩
    refine ⟨fun given hg => ⟨hs given hg, ?_⟩, rfl⟩
    cases hg
    exact hf
  · rintro ⟨hc, rfl⟩
    exact ⟨⟨fun given hg => (hc given hg).short, rfl⟩,
      closeLine_fits hl hco hc⟩

end MangoProtocol.TypeScript
