import MangoProtocol.Session.State
import MangoProtocol.Transports.Farewell

/-! The receive half of an NDJSON port.  A record that it refuses is answered with a farewell on the
shared writer, inside the call of `recv` that read the record; a `recv` may be dropped at any await
and called again. -/

namespace MangoProtocol

open ProofKit ProofKit.Records

/-- Where a call of `recv` is. -/
inductive RecvFuture where
  | idle
  | reading
  /-- Inside `end` or `shut_down`, which is this call on the writer. -/
  | ending (call : Nat)
  deriving DecidableEq

/-- The receive half and the writer it shares.  `returned` is a history, what the calls of `recv`
returned. -/
structure NdjsonRx where
  decoder : LineDecoder
  pending : List Frame
  closure : Option PortClosure
  terminal : Bool
  future : RecvFuture
  returned : List (Option Inbound)
  writer : SharedWriter

inductive RxLabel where
  | recv
  | read (bytes : List UInt8)
  | eof
  | failure (message : String)
  | resume
  | drop
  | writer (label : WriterLabel)

namespace NdjsonRx

def new (maxFrameBytes : Nat) (atLeast : minMaxFrameBytes ≤ maxFrameBytes) : NdjsonRx :=
  ⟨.new maxFrameBytes atLeast, [], none, false, .idle, [], .new⟩

def poll (self : NdjsonRx) : NdjsonRx :=
  match self.pending, self.closure with
  | frame :: pending, _ =>
    { self with pending, future := .idle, returned := self.returned ++ [some (.frame frame)] }
  | [], some closure =>
    { self with
      closure := none
      terminal := true
      future := .idle
      returned := self.returned ++ [some (.closed closure)] }
  | [], none =>
    if self.terminal then { self with future := .idle, returned := self.returned ++ [none] }
    else { self with future := .reading }

/-- Records the closure, and then says goodbye with the code that the refusal maps to. -/
def refuse (platform : Platform) (self : NdjsonRx) (error : CodecError) : NdjsonRx :=
  let code := closeCodeForCodecError error
  { self with
    closure := some (.protocolError error code)
    writer := self.writer.end_ platform self.decoder.maxFrameBytes code (some error.toText)
    future := .ending self.writer.calls.length }

/-- A read gave some bytes. -/
def decodeChunk (platform : Platform) (self : NdjsonRx) (bytes : List UInt8) : NdjsonRx :=
  let (decoder, outcome) := self.decoder.push (decodeLine platform) bytes
  let decoded := { self with decoder, pending := self.pending ++ outcome.frames }
  match outcome.error with
  | some error => decoded.refuse platform error
  | none => decoded.poll

/-- The input ended or broke. -/
def onEnd (self : NdjsonRx) (reason : Option String) : NdjsonRx :=
  { self with
    closure := some (.closed none reason)
    writer := self.writer.shutDown
    future := .ending self.writer.calls.length }

def resume (self : NdjsonRx) : Option NdjsonRx :=
  match self.future with
  | .ending index =>
    if self.writer.calls[index]?.any fun call => call.stage = .over then some self.poll else none
  | _ => none

def drop (self : NdjsonRx) : Option NdjsonRx :=
  match self.future with
  | .idle => none
  | .reading => some { self with future := .idle }
  | .ending index =>
    (self.writer.drop index).map fun writer => { self with writer, future := .idle }

def step (platform : Platform) (self : NdjsonRx) : RxLabel → Option NdjsonRx
  | .recv => if self.future = .idle then some self.poll else none
  | .read bytes =>
    if self.future = .reading ∧ bytes ≠ [] then some (self.decodeChunk platform bytes) else none
  | .eof => if self.future = .reading then some (self.onEnd none) else none
  | .failure message =>
    if self.future = .reading then some (self.onEnd (some message)) else none
  | .resume => self.resume
  | .drop => self.drop
  | .writer label =>
    (self.writer.step platform self.decoder.maxFrameBytes label).map fun writer =>
      { self with writer }

def alone (self : NdjsonRx) : RxLabel → Bool
  | .writer label => self.writer.alone label
  | _ => true

def refusing (self : NdjsonRx) : Bool :=
  match self.future, self.closure with
  | .ending _, some (.protocolError _ _) => true
  | _, _ => false

/-- The step does not drop a `recv` inside the farewell of a refusal. -/
def undropped (self : NdjsonRx) : RxLabel → Bool
  | .drop => !self.refusing
  | _ => true

end NdjsonRx

/-! ### The farewell of a refusal -/

variable {maxFrameBytes : Nat}

theorem farewell_refusal (platform : Platform) (atLeast : minMaxFrameBytes ≤ maxFrameBytes)
    (error : CodecError) (text : Option String) :
    ∃ reason, farewell platform maxFrameBytes (closeCodeForCodecError error) text =
      some (.close ⟨closeCodeForCodecError error, reason⟩) := by
  have hc : closeCodeForCodecError error = closeCodes.protocolMismatch ∨
      closeCodeForCodecError error = closeCodes.protocolError := by
    grind [closeCodeForCodecError]
  obtain ⟨line, hl⟩ : ∃ line, encodeLine platform (.close ⟨closeCodeForCodecError error, none⟩)
      maxFrameBytes = .ok line := by
    have hb : encodeFrameBytes platform (.close ⟨closeCodeForCodecError error, none⟩)
        maxFrameBytes = .ok (Frame.close ⟨closeCodeForCodecError error, none⟩).toVec := by
      refine encodeFrameBytes_eq_ok.mpr ⟨atLeast, ?_, le_trans ?_ atLeast, rfl⟩
      · rcases hc with h | h <;> rw [h] <;> rfl
      · rcases hc with h | h <;> rw [h] <;> decide +kernel
    exact ⟨_, by rw [encodeLine, hb]; rfl⟩
  unfold farewell
  dsimp only
  split
  · exact ⟨_, rfl⟩
  · rw [hl]
    exact ⟨none, rfl⟩

theorem SharedWriter.Tended.end_ {writer : SharedWriter} {platform : Platform} {code : UInt16}
    {text : Option String} {frame : Frame} (h : writer.Tended)
    (hs : ∀ call ∈ writer.calls, call.ends = false)
    (hf : farewell platform maxFrameBytes code text = some frame) :
    (writer.end_ platform maxFrameBytes code text).Tended ∧
      (writer.end_ platform maxFrameBytes code text).calls[writer.calls.length]? =
        some ⟨some frame, true, .starting, .pending⟩ := by
  have hm : SharedWriter.Move writer (.end_ code text)
      (writer.end_ platform maxFrameBytes code text) := SharedWriter.step_move rfl
  have heq : writer.end_ platform maxFrameBytes code text =
      { writer with calls := writer.calls ++ [⟨some frame, true, .starting, .pending⟩] } := by
    rw [SharedWriter.end_, hf]
  have hu : writer.Undecided := fun call hc he => by
    cases (hs call hc).symm.trans he
  have hk {index : Nat} {call : WriterCall} (hc : writer.calls[index]? = some call) :
      call.ends = false := hs call (List.mem_of_getElem? hc)
  refine ⟨⟨h.sound.step hm, h.split.step hm, ?_, ?_, ?_, h.written_step hm⟩, ?_⟩
  all_goals rw [heq]
  · intro index call hc
    rcases getElem?_concat hc with hold | ⟨-, rfl⟩
    · exact h.regular index call hold
    · exact ⟨nofun, fun _ => .inl ⟨rfl, rfl⟩⟩
  · grind
  · exact fun _ => h.opened hu
  · simp

namespace NdjsonRx

variable {platform : Platform} {self next : NdjsonRx} {label : RxLabel}

/-! ### The course of a receive half -/

/-- The item is the refusal of a record. -/
def refusalItem (error : CodecError) (code : UInt16) : Option Inbound :=
  some (.closed (.protocolError error code))

/-- How far a receive half is: it listens, it refused a record and says goodbye, or its input
ended. -/
inductive Course (rx : NdjsonRx) : Prop
  | listening (htended : rx.writer.Tended) (hsends : ∀ call ∈ rx.writer.calls, call.ends = false)
    (hclosure : rx.closure = none) (hterminal : rx.terminal = false)
    (hreturned : ∀ error code, refusalItem error code ∉ rx.returned)
    (hfuture : ∀ index, rx.future ≠ .ending index)
  | refused (htended : rx.writer.Tended) (index : Nat) (call : WriterCall) (code : UInt16)
    (reason : Option String) (hcall : rx.writer.calls[index]? = some call)
    (hends : call.ends = true) (hframe : call.frame = some (.close ⟨code, reason⟩))
    (hclosure : ∀ closure, rx.closure = some closure → ∃ error, closure = .protocolError error code)
    (hdone : rx.closure.isSome ∨ rx.terminal = true)
    (hreturned : ∀ error other, refusalItem error other ∈ rx.returned →
      other = code ∧ call.fate ≠ .pending)
    (hfuture : rx.future = .ending index ∧ rx.closure.isSome ∨
      rx.future = .idle ∧ call.fate ≠ .pending)
  | ended (hclosure : ∀ error code, rx.closure ≠ some (.protocolError error code))
    (hdone : rx.closure.isSome ∨ rx.terminal = true)
    (hreturned : ∀ error code, refusalItem error code ∉ rx.returned)
    (hfuture : rx.future ≠ .reading)

variable {returned : List (Option Inbound)} {code : UInt16} {error : CodecError}

theorem not_mem_concat_frame {frame : Frame} (h : refusalItem error code ∉ returned) :
    refusalItem error code ∉ returned ++ [some (.frame frame)] := by
  intro hm
  rcases List.mem_append.mp hm with hold | hn
  · exact h hold
  · cases List.mem_singleton.mp hn

theorem poll_listening (hte : self.writer.Tended)
    (hs : ∀ call ∈ self.writer.calls, call.ends = false) (hc : self.closure = none)
    (ht : self.terminal = false)
    (hr : ∀ error code, refusalItem error code ∉ self.returned) : self.poll.Course := by
  unfold poll
  rw [hc]
  split
  · exact .listening hte hs rfl ht
      (fun error code => not_mem_concat_frame (hr error code)) (fun _ => nofun)
  · grind
  · rw [if_neg (by simp [ht])]
    exact .listening hte hs rfl ht hr (fun _ => nofun)

theorem poll_refused (ht : self.writer.Tended) {index : Nat} {call : WriterCall}
    {reason : Option String} (hc : self.writer.calls[index]? = some call)
    (he : call.ends = true) (hf : call.frame = some (.close ⟨code, reason⟩))
    (hcl : ∀ closure, self.closure = some closure →
      ∃ error, closure = .protocolError error code)
    (hd : self.closure.isSome ∨ self.terminal = true)
    (hr : ∀ error other, refusalItem error other ∈ self.returned → other = code)
    (hfa : call.fate ≠ .pending) : self.poll.Course := by
  unfold poll
  split
  · exact .refused ht index call code reason hc he hf hcl hd
      (by grind [refusalItem]) (.inr ⟨rfl, hfa⟩)
  · exact .refused ht index call code reason hc he hf nofun (.inr rfl)
      (by grind [refusalItem]) (.inr ⟨rfl, hfa⟩)
  · rw [if_pos (by grind)]
    exact .refused ht index call code reason hc he hf hcl hd
      (by grind [refusalItem]) (.inr ⟨rfl, hfa⟩)

theorem poll_ended (hc : ∀ error code, self.closure ≠ some (.protocolError error code))
    (hd : self.closure.isSome ∨ self.terminal = true)
    (hr : ∀ error code, refusalItem error code ∉ self.returned) : self.poll.Course := by
  unfold poll
  split
  · exact .ended hc hd (by grind [refusalItem]) nofun
  · exact .ended nofun (.inr rfl) (by grind [refusalItem]) nofun
  · rw [if_pos (by grind)]
    exact .ended hc hd (by grind [refusalItem]) nofun

/-! ### Steps -/

theorem refuse_course (error : CodecError) (ht : self.writer.Tended)
    (hs : ∀ call ∈ self.writer.calls, call.ends = false)
    (hr : ∀ error code, refusalItem error code ∉ self.returned) :
    (self.refuse platform error).Course := by
  obtain ⟨reason, hf⟩ := farewell_refusal platform self.decoder.atLeast error (some error.toText)
  obtain ⟨ha, hc⟩ := ht.end_ hs hf
  exact .refused ha _ _ _ reason hc rfl rfl (by grind [refuse]) (.inl rfl)
    (fun other code hm => absurd hm (hr other code)) (.inl ⟨rfl, rfl⟩)

theorem decodeChunk_course (bytes : List UInt8) (ht : self.writer.Tended)
    (hs : ∀ call ∈ self.writer.calls, call.ends = false) (hc : self.closure = none)
    (hte : self.terminal = false)
    (hr : ∀ error code, refusalItem error code ∉ self.returned) :
    (self.decodeChunk platform bytes).Course := by
  unfold decodeChunk
  dsimp only
  split
  · rename_i error _
    exact refuse_course error ht hs hr
  · exact poll_listening ht hs hc hte hr

theorem Course.writer {action : WriterLabel} {writer : SharedWriter} (h : self.Course)
    (ha : self.writer.alone action = true)
    (hm : SharedWriter.Move self.writer action writer) : { self with writer }.Course := by
  cases h with
  | listening ht hse hc hte hr hf =>
    refine .listening (ht.step ha hm) (fun call hme => ?_) hc hte hr
      hf
    obtain ⟨index, hca⟩ := List.mem_iff_getElem?.mp hme
    have hb := hm.farewell_before ha hca
    grind [List.mem_of_getElem?]
  | refused ht index call code reason hca he hfr hc hd hr hf =>
    obtain ⟨later, hl, hs, hk, hp⟩ := hm.call_after hca
    exact .refused (ht.step ha hm) index later code reason hl (hk.trans he)
      (hs.trans hfr) hc hd (by grind) (by grind)
  | ended hc hd hr hf => exact .ended hc hd hr hf

theorem onEnd_course (reason : Option String) (h : self.Course) (hr : self.future = .reading) :
    (self.onEnd reason).Course := by
  refine .ended nofun (.inl rfl) ?_ nofun
  cases h <;> grind [onEnd]

theorem Course.step (h : self.Course) (ha : self.alone label = true)
    (hu : self.undropped label = true) (hs : self.step platform label = some next) :
    next.Course := by
  cases label with
  | recv =>
    obtain ⟨hid, ⟨⟩⟩ := Option.ite_none_right_eq_some.mp hs
    cases h with
    | listening ht hse hc hte hr =>
      exact poll_listening ht hse hc hte hr
    | refused ht index call code reason hca he hf hc hd =>
      exact poll_refused ht hca he hf hc hd (by grind) (by grind)
    | ended hc hd hr => exact poll_ended hc hd hr
  | read bytes =>
    obtain ⟨⟨hre, -⟩, ⟨⟩⟩ := Option.ite_none_right_eq_some.mp hs
    cases h with
    | listening ht hse hc hte hr =>
      exact decodeChunk_course bytes ht hse hc hte hr
    | _ => grind
  | eof | failure =>
    obtain ⟨hre, ⟨⟩⟩ := Option.ite_none_right_eq_some.mp hs
    exact onEnd_course _ h hre
  | resume =>
    simp only [NdjsonRx.step, resume] at hs
    split at hs
    · obtain ⟨ho, ⟨⟩⟩ := Option.ite_none_right_eq_some.mp hs
      cases h with
      | listening _ _ _ _ _ hfu => grind
      | refused ht index call code reason hca he hf hc hd hr hfu =>
        have hfa := (ht.regular index call hca).over_fate he
        exact poll_refused ht hca he hf hc hd (by grind) (by grind)
      | ended hc hd hr => exact poll_ended hc hd hr
    · cases hs
  | drop =>
    simp only [NdjsonRx.step, drop] at hs
    split at hs
    · cases hs
    · cases hs
      cases h with
      | listening ht hse hc hte hr =>
        exact .listening ht hse hc hte hr (fun _ => nofun)
      | _ => grind
    · obtain ⟨writer, -, rfl⟩ := Option.map_eq_some_iff.mp hs
      cases h with
      | ended hc hd hr => exact .ended hc hd hr nofun
      | listening => grind
      | refused =>
        simp only [undropped, refusing] at hu
        cases hcl : self.closure <;> grind
  | writer action =>
    obtain ⟨writer, hw, rfl⟩ := Option.map_eq_some_iff.mp hs
    exact h.writer ha (SharedWriter.step_move hw)

theorem Course.told (h : self.Course) (hr : refusalItem error code ∈ self.returned) :
    ∃ call reason, call ∈ self.writer.calls ∧ call.frame = some (.close ⟨code, reason⟩) ∧
      (call.fate = .written ∧ (Frame.close ⟨code, reason⟩).record <:+: self.writer.output ∨
        call.fate = .failed ∨ call.fate = .timedOut) := by
  cases h with
  | listening _ _ _ _ hn | ended _ _ hn => exact absurd hr (hn error code)
  | refused ht index call _ reason hc he hf _ _ hto =>
    obtain ⟨rfl, hfat⟩ := hto error code hr
    refine ⟨call, reason, List.mem_of_getElem? hc, hf, ?_⟩
    have hfa := (ht.regular index call hc).farewell he
    have hw := ht.written index call _ hc hf
    cases hwa : call.fate <;> grind [RecordFate.decided]

theorem new_course (maxFrameBytes : Nat) (atLeast : minMaxFrameBytes ≤ maxFrameBytes) :
    (new maxFrameBytes atLeast).Course :=
  .listening SharedWriter.new_tended (fun _ hc => absurd hc List.not_mem_nil) rfl rfl
    (fun _ _ => List.not_mem_nil) (fun _ => nofun)

/-- The refusal of a record is only reported once its farewell was written, failed or ran out its
grace, provided no `recv` is dropped inside the farewell and nothing else closes the port. -/
theorem run_farewell {maxFrameBytes : Nat} {atLeast : minMaxFrameBytes ≤ maxFrameBytes}
    {labels : List RxLabel} {error : CodecError} {code : UInt16}
    (hkept : Machine.Every (step platform) (fun rx label =>
      rx.alone label = true ∧ rx.undropped label = true) (new maxFrameBytes atLeast) labels)
    (hrun : Machine.run (step platform) (new maxFrameBytes atLeast) labels = some self)
    (hreturned : refusalItem error code ∈ self.returned) :
    ∃ call reason, call ∈ self.writer.calls ∧ call.frame = some (.close ⟨code, reason⟩) ∧
      (call.fate = .written ∧ (Frame.close ⟨code, reason⟩).record <:+: self.writer.output ∨
        call.fate = .failed ∨ call.fate = .timedOut) := by
  have hc : self.Course := by
    refine hkept.run_invariant Course ?_ (new_course maxFrameBytes atLeast) hrun
    rintro rx label next hc ⟨ha, hu⟩ hs
    exact hc.step ha hu hs
  exact hc.told hreturned

/-! ### Two runs -/

def refusalCode : Option Inbound → Option UInt16
  | some (.closed (.protocolError _ code)) => some code
  | _ => none

theorem refusalItem_of_code (h : some code ∈ returned.map refusalCode) :
    ∃ error, refusalItem error code ∈ returned := by
  obtain ⟨item, hi, hc⟩ := List.mem_map.mp h
  unfold refusalCode at hc
  split at hc
  · rename_i error code'
    cases hc
    exact ⟨error, hi⟩
  · cases hc

/-- A half that takes frames of 4096 bytes. -/
def sampleRx : NdjsonRx := new 4096 minMaxFrameBytes_le

/-- `recv` reads a line that is no frame. -/
def refusedLabels : List RxLabel := [.recv, .read [0x7b, newline]]

def answeredLabels : List RxLabel :=
  refusedLabels ++ [.writer (.lock 0), .writer .acquire, .writer (.write 120), .writer .flush,
    .writer (.signal 0), .writer (.lock 0), .writer .acquire, .resume]

theorem run_farewell_written :
    ∃ rx error, Machine.run (step (tablePlatform [])) sampleRx answeredLabels = some rx ∧
      refusalItem error closeCodes.protocolError ∈ rx.returned ∧
      ∃ call reason, call ∈ rx.writer.calls ∧
        call.frame = some (.close ⟨closeCodes.protocolError, reason⟩) ∧
        (call.fate = .written ∧
            (Frame.close ⟨closeCodes.protocolError, reason⟩).record <:+: rx.writer.output ∨
          call.fate = .failed ∨ call.fate = .timedOut) := by
  obtain ⟨rx, hru, hc⟩ : ∃ rx,
      Machine.run (step (tablePlatform [])) sampleRx answeredLabels = some rx ∧
        some closeCodes.protocolError ∈ rx.returned.map refusalCode :=
    Machine.exists_run (by decide +kernel)
  have hk : Machine.Every (step (tablePlatform [])) (fun rx label =>
      rx.alone label = true ∧ rx.undropped label = true) sampleRx answeredLabels := by
    decide +kernel
  obtain ⟨error, hr⟩ := refusalItem_of_code hc
  exact ⟨rx, error, hru, hr, run_farewell hk hru hr⟩

/-- The `recv` is dropped inside the farewell, and the next one reports the refusal. -/
def droppedLabels : List RxLabel := refusedLabels ++ [.drop, .recv]

/-- The refusal is reported though nothing was written, failed or timed out. -/
theorem farewell_lost :
    ∃ rx error, Machine.run (step (tablePlatform [])) sampleRx droppedLabels = some rx ∧
      Machine.Every (step (tablePlatform [])) (fun rx label => rx.alone label = true)
        sampleRx droppedLabels ∧
      refusalItem error closeCodes.protocolError ∈ rx.returned ∧ rx.writer.writable = true ∧
      rx.writer.output = [] ∧ ∀ call ∈ rx.writer.calls, call.fate = .dropped := by
  obtain ⟨rx, hru, hc, ha⟩ : ∃ rx,
      Machine.run (step (tablePlatform [])) sampleRx droppedLabels = some rx ∧
        some closeCodes.protocolError ∈ rx.returned.map refusalCode ∧ rx.writer.writable = true ∧
        rx.writer.output = [] ∧ ∀ call ∈ rx.writer.calls, call.fate = .dropped :=
    Machine.exists_run (by decide +kernel)
  obtain ⟨error, hr⟩ := refusalItem_of_code hc
  exact ⟨rx, error, hru, by decide +kernel, hr, ha⟩

end NdjsonRx

end MangoProtocol
