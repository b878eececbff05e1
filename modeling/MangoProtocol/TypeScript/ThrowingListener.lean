import MangoProtocol.TypeScript.LineCuts
import MangoProtocol.TypeScript.NdjsonPort

/-! A frame listener of the NDJSON port that throws.  The exception leaves the call of `feed` that
called the listener, and the caller catches it and feeds on.  By then the decoder has consumed the
whole piece, so the frames that were still to come from it are gone.  A refusal is not: the decoder
answers every later piece with it. -/

namespace MangoProtocol.TypeScript

open ProofKit

inductive ListenerCall (φ : Type) where
  | call (call : NdjsonCall φ)
  | throws

/-- A port whose listeners stay attached.  `yielded` holds the frames that the decoder returned to
`feed`, and `inside` says that the frame listener was called and has not returned. -/
structure ListenedRun (φ : Type) where
  run : NdjsonRun φ
  yielded : List φ
  inside : Bool

def NdjsonAction.frame? {φ : Type} : NdjsonAction φ → Option φ
  | .frame held => some held
  | .wrote _ | .ended | .closure _ => none

namespace ListenedRun

variable {φ : Type}

def port (self : ListenedRun φ) : NdjsonPort φ := self.run.port

def emitted (self : ListenedRun φ) : List φ := self.run.actions.filterMap NdjsonAction.frame?

def pending (self : ListenedRun φ) : List φ := self.port.feeding.flatMap LineDecoderOutcome.frames

def start (port : NdjsonPort φ) : ListenedRun φ :=
  ⟨.start { port with frames := true, closed := true }, [], false⟩

def enabled (self : ListenedRun φ) : NdjsonCall φ → Bool
  | .feed _ => self.port.feeding.isEmpty
  | .onFrame | .detachFrames | .onClosed | .detachClosed => false
  | .send .. | .close .. | .deliver _ | .eof | .failed _ => true

variable (format : FrameFormat φ)

def yields (self : ListenedRun φ) : NdjsonCall φ → List φ
  | .feed bytes =>
    if self.port.state ≠ .open_ then []
    else (self.port.decoder.push format.parse bytes).2.frames
  | _ => []

/-- A turn of the loop of `feed` calls the listener or ends the call.  Any other call comes from the
listener if that is running. -/
def listens (self : ListenedRun φ) (call : NdjsonCall φ) (after : NdjsonRun φ) : Bool :=
  match call with
  | .deliver _ =>
    decide ((self.run.actions.filterMap NdjsonAction.frame?).length <
      (after.actions.filterMap NdjsonAction.frame?).length)
  | _ => self.inside

def step (self : ListenedRun φ) : ListenerCall φ → Option (ListenedRun φ)
  | .call call =>
    if self.enabled call then
      (self.run.step format call).map fun after =>
        ⟨after, self.yielded ++ self.yields format call, self.listens call after⟩
    else none
  | .throws =>
    if self.inside then
      some ⟨{ self.run with port := { self.port with feeding := self.port.feeding.tail } },
        self.yielded, false⟩
    else none

def Harmless (self : ListenedRun φ) : ListenerCall φ → Prop
  | .call _ => True
  | .throws => self.port.state = .open_ → self.pending = []

/-- The calls between two states ended the port with a refusal and its close code. -/
def EndedBy (self : ListenedRun φ) (error : CodecError) (after : ListenedRun φ) : Prop :=
  after.port.state = .protocolError ∧ ∃ records : List (List UInt8),
    after.run.actions = self.run.actions ++ (records.map .wrote ++
      [.ended, .closure (.protocolError error (closeCodeForCodecError error))])

/-- What becomes of a refusal: the running `feed` carries it, and after that call was ended by an
exception the next one ends the port, whatever it is fed. -/
structure Refuses (state : ListenedRun φ) (error : CodecError) : Prop where
  carried : state.port.feeding = [] ∨ ∃ frames, state.port.feeding = [⟨frames, some error⟩]
  running : state.port.feeding = [⟨[], some error⟩] → ∀ pipe, ∃ after,
    state.step format (.call (.deliver pipe)) = some after ∧ state.EndedBy error after
  next : state.port.feeding = [] → ∀ bytes pipe, ∃ after,
    Machine.run (step format) state [.call (.feed bytes), .call (.deliver pipe)] = some after ∧
      state.EndedBy error after

/-! ### What a step does to an open port -/

/-- What holds of the port while it is open: its listeners are attached, its sink is not ended, and
the running `feed`, of which there is one at most, carries the refusal of the decoder. -/
structure Listening (state : ListenedRun φ) : Prop where
  frames : state.port.frames = true
  closed : state.port.closed = true
  searched : state.port.decoder.Searched
  feeding : state.port.feeding = [] ∨
    ∃ frames, state.port.feeding = [⟨frames, state.port.decoder.refusal⟩]

variable {format} {self next final : ListenedRun φ} {call : NdjsonCall φ} {port : NdjsonPort φ}
  {calls : List (ListenerCall φ)}

theorem step_call (hs : self.step format (.call call) = some next) :
    self.enabled call = true ∧ self.run.step format call = some next.run ∧
      next.yielded = self.yielded ++ self.yields format call := by
  obtain ⟨he, hm⟩ := Option.ite_none_right_eq_some.mp hs
  obtain ⟨after, ha, rfl⟩ := Option.map_eq_some_iff.mp hm
  exact ⟨he, ha, rfl⟩

theorem exists_step_call {after : NdjsonRun φ} (he : self.enabled call = true)
    (hc : self.run.step format call = some after) :
    ∃ next, self.step format (.call call) = some next ∧ next.run = after ∧
      next.yielded = self.yielded ++ self.yields format call := by
  refine ⟨⟨after, self.yielded ++ self.yields format call, self.listens call after⟩, ?_, rfl, rfl⟩
  rw [step, if_pos he, hc]
  rfl

theorem step_throws (hs : self.step format .throws = some next) :
    next.run = { self.run with port := { self.port with feeding := self.port.feeding.tail } } ∧
      next.yielded = self.yielded := by
  grind [step]

theorem step_sound {call : ListenerCall φ} (h : self.port.Sound)
    (hst : self.step format call = some next) :
    next.port.Sound ∧ (next.port.state = .open_ → self.port.state = .open_) := by
  cases call with
  | throws =>
    obtain ⟨hru, -⟩ := step_throws hst
    rw [port, hru]
    exact ⟨⟨h.writable, h.ended⟩, id⟩
  | call call =>
    obtain ⟨-, hc, -⟩ := step_call hst
    obtain ⟨result, hr, hs, hm⟩ := NdjsonRun.step_moves h hc
    rw [port, hr]
    refine ⟨hs, fun ho => ?_⟩
    by_contra hsh
    have he := h.ended.mpr hsh
    cases hm with
    | stays _ hsa => exact hs.ended.mp (hsa.trans he) ho
    | ends _ hb =>
      rw [port, hb] at he
      cases he

end ListenedRun

namespace NdjsonPort

variable {φ : Type} {told : NdjsonPort φ}

theorem endSink_state (told : NdjsonPort φ) : told.endSink.1.state = told.state := by
  unfold endSink
  split <;> rfl

theorem writeClose_closed (told : NdjsonPort φ) (format : FrameFormat φ) (code : Nat)
    (reason pipe : Option JsString) :
    (told.writeClose format code reason pipe).1.closed = told.closed := by
  grind [writeClose]

theorem refuse_state (told : NdjsonPort φ) (format : FrameFormat φ) (error : CodecError)
    (pipe : Option JsString) : (told.refuse format error pipe).1.state = .protocolError :=
  (endSink_state _).trans (writeClose_spec _ format _ _ pipe).1

theorem refuse_open (told : NdjsonPort φ) (format : FrameFormat φ)
    (hs : told.sinkEnded = false) (hc : told.closed = true) (error : CodecError)
    (pipe : Option JsString) :
    ∃ records : List (List UInt8), (told.refuse format error pipe).2 = records.map .wrote ++
        [.ended, .closure (.protocolError error (closeCodeForCodecError error))] := by
  unfold refuse
  extract_lets code message
  generalize hre : ({ told with state := .protocolError, why := message } : NdjsonPort φ) =
    refused
  obtain ⟨-, he, records, hr⟩ :=
    writeClose_spec refused format code (some message) pipe
  have ha := writeClose_closed refused format code (some message) pipe
  generalize refused.writeClose format code (some message) pipe = written at *
  grind [andThen, endSink_open, report]

theorem failed_state (told : NdjsonPort φ) (ho : told.state = .open_) (message : JsString) :
    (told.failed message).1.state = .failed := by
  rw [failed, if_neg (not_not.mpr ho)]
  exact endSink_state _

theorem eof_state (ho : told.state = .open_) : told.eof.1.state = .ended := by
  rw [eof, if_neg (not_not.mpr ho)]
  exact endSink_state _

theorem close_state (ho : told.state = .open_) (format : FrameFormat φ) (code : Nat)
    (reason pipe : Option JsString) :
    (told.close format code reason pipe).1.state = .closed := by
  rw [close, if_neg (not_not.mpr ho)]
  exact (endSink_state _).trans (writeClose_spec _ format code reason pipe).1

theorem send_open (ho : told.state = .open_) (format : FrameFormat φ) (frame : φ)
    (pipe : Option JsString) (ha : (told.send format frame pipe).1.1.state = .open_) :
    (told.send format frame pipe).1.1 = told ∧
      (told.send format frame pipe).1.2.filterMap NdjsonAction.frame? = [] := by
  rw [send, if_neg (not_not.mpr ho)] at ha ⊢
  cases hr : told.encodeRecord format frame with
  | error thrown => exact ⟨rfl, rfl⟩
  | ok record =>
    rw [hr] at ha
    dsimp only [writeLine] at ha ⊢
    have hf := failed_state { told with sinkWritable := false } ho
    cases pipe <;> grind [NdjsonAction.frame?]

end NdjsonPort

namespace ListenedRun

variable {φ : Type} {format : FrameFormat φ} {self next final : ListenedRun φ}
  {call : NdjsonCall φ} {port : NdjsonPort φ} {calls : List (ListenerCall φ)}

variable {result : NdjsonPort φ × List (NdjsonAction φ)} {maxFrameBytes : Option Nat}
  {label : ListenerCall φ} {error : CodecError} {bytes : List UInt8}

theorem deliver_refuses (format : FrameFormat φ) (h : self.Listening) (hs : self.port.Sound)
    (ho : self.port.state = .open_) (hf : self.port.feeding = [⟨[], some error⟩])
    (pipe : Option JsString) :
    ∃ after, self.step format (.call (.deliver pipe)) = some after ∧ self.EndedBy error after := by
  obtain ⟨hsi, -⟩ := hs.isOpen ho
  let told : NdjsonPort φ := { self.port with feeding := [] }
  have hd : self.run.step format (.deliver pipe) =
      some (self.run.record (told.refuse format error pipe)) := by
    change (self.port.deliver format pipe).map self.run.record = _
    rw [NdjsonPort.deliver, hf]
    rfl
  have ht : told.sinkEnded = false := hsi
  obtain ⟨records, ha⟩ := told.refuse_open format ht h.closed error pipe
  obtain ⟨after, hst, hr, -⟩ := exists_step_call rfl hd
  refine ⟨after, hst, ?_⟩
  rw [EndedBy, port, hr]
  exact ⟨told.refuse_state format error pipe, records, congrArg (self.run.actions ++ ·) ha⟩

theorem step_feed {pushed : LineDecoder × LineDecoderOutcome φ} (ho : self.port.state = .open_)
    (hid : self.port.feeding = []) (hp : self.port.decoder.push format.parse bytes = pushed) :
    self.step format (.call (.feed bytes)) = some
      ⟨⟨{ self.port with decoder := pushed.1, feeding := [pushed.2] }, self.run.actions⟩,
        self.yielded ++ pushed.2.frames, self.inside⟩ := by
  have hf : self.port.feed format bytes =
      { self.port with decoder := pushed.1, feeding := [pushed.2] } := by
    rw [NdjsonPort.feed, if_neg (not_not.mpr ho), hp, hid]
  have hc : self.run.step format (.feed bytes) =
      some ⟨self.port.feed format bytes, self.run.actions⟩ :=
    congrArg (fun actions => some (⟨_, actions⟩ : NdjsonRun φ)) (List.append_nil _)
  rw [step, enabled, hid, if_pos List.isEmpty_nil, hc, hf, yields,
    if_neg (not_not.mpr ho), hp]
  rfl

/-! ### Accounts -/

/-- A call that leaves the port open delivers a frame or keeps it for later: what was emitted and
what is pending grow by what the decoder yields. -/
structure Accounts (before after : ListenedRun φ) : Prop where
  listening : after.Listening
  frames : ∃ news, after.emitted ++ after.pending = before.emitted ++ before.pending ++ news ∧
    after.yielded = before.yielded ++ news

theorem accounts_quiet (h : self.Listening) (hp : result.1 = self.port)
    (hq : result.2.filterMap NdjsonAction.frame? = [])
    (hr : next.run = self.run.record result) (hy : next.yielded = self.yielded) :
    self.Accounts next := by
  have hs : next.port = self.port := by rw [port, hr]; exact hp
  have he : next.emitted = self.emitted := by
    rw [emitted, hr, NdjsonRun.record, List.filterMap_append, hq, List.append_nil, emitted]
  refine ⟨⟨?_, ?_, ?_, ?_⟩, [], ?_, ?_⟩ <;>
    simp only [pending, hs, he, hy, List.append_nil, h.frames, h.closed, h.searched,
      h.feeding]

theorem feed_accounts (h : self.Listening) (ho : self.port.state = .open_)
    (hs : self.step format (.call (.feed bytes)) = some next) : self.Accounts next := by
  have hid : self.port.feeding = [] := List.isEmpty_iff.mp (step_call hs).1
  obtain ⟨hse, -, -⟩ := h.searched.push format.parse bytes
  have he := h.searched.push_error format.parse bytes
  rw [step_feed ho hid rfl] at hs
  cases hs
  generalize self.port.decoder.push format.parse bytes = pushed at *
  refine ⟨⟨h.frames, h.closed, hse, .inr ⟨pushed.2.frames, ?_⟩⟩, pushed.2.frames, ?_, rfl⟩
  · exact congrArg (fun error => [(⟨pushed.2.frames, error⟩ : LineDecoderOutcome φ)]) he
  · have hp : self.pending = [] := by rw [pending, hid]; rfl
    rw [hp, List.append_nil]
    exact congrArg (self.emitted ++ ·) (List.append_nil _)

theorem deliver_accounts (h : self.Listening) (ho : self.port.state = .open_)
    {pipe : Option JsString} (hd : self.port.deliver format pipe = some result)
    (hru : next.run = self.run.record result) (hy : next.yielded = self.yielded)
    (ha : next.port.state = .open_) : self.Accounts next := by
  have hp : next.port = result.1 := by rw [port, hru]; rfl
  have he : next.emitted = self.emitted ++ result.2.filterMap NdjsonAction.frame? := by
    rw [emitted, hru]
    exact List.filterMap_append
  rw [hp] at ha
  have hn : ∀ feeding, (feeding = [] ∨
        ∃ frames, feeding = [⟨frames, self.port.decoder.refusal⟩]) →
      result.1 = { self.port with feeding } → next.Listening := by
    intro feeding hf hre
    rw [← hp] at hre
    constructor <;> simp only [hre, h.frames, h.closed, h.searched, hf]
  rcases h.feeding with hid | ⟨frames, hf⟩
  · rw [NdjsonPort.deliver, hid] at hd
    cases hd
  rw [NdjsonPort.deliver, hf] at hd
  cases frames with
  | cons frame frames =>
    dsimp only at hd
    rw [if_neg (not_not.mpr ho), if_pos h.frames] at hd
    cases hd
    refine ⟨hn _ (.inr ⟨frames, rfl⟩) rfl, [], ?_, by rw [hy, List.append_nil]⟩
    rw [he, pending, hp, pending, hf]
    simp [NdjsonAction.frame?]
  | nil =>
    cases hr : self.port.decoder.refusal with
    | none =>
      rw [hr] at hd
      cases hd
      refine ⟨hn _ (.inl rfl) rfl, [], ?_, by rw [hy, List.append_nil]⟩
      rw [he, pending, hp, pending, hf]
      simp
    | some error =>
      rw [hr] at hd
      cases hd
      cases (NdjsonPort.refuse_state _ format error pipe).symm.trans ha

theorem call_accounts (h : self.Listening) (ho : self.port.state = .open_)
    (hs : self.step format (.call call) = some next) (ha : next.port.state = .open_) :
    self.Accounts next := by
  obtain ⟨he, hc, hy⟩ := step_call hs
  cases call with
  | send frame pipe =>
    have hr := (Option.some.inj hc).symm
    have hst : (self.port.send format frame pipe).1.1.state = .open_ := by
      rw [port, hr] at ha
      exact ha
    obtain ⟨hsa, hq⟩ := NdjsonPort.send_open ho format frame pipe hst
    exact accounts_quiet h hsa hq hr (hy.trans (List.append_nil _))
  | feed bytes => exact feed_accounts h ho hs
  | deliver pipe =>
    obtain ⟨result, hd, hr⟩ := Option.map_eq_some_iff.mp hc
    exact deliver_accounts h ho hd hr.symm (hy.trans (List.append_nil _)) ha
  | close code reason pipe =>
    rw [port, ← Option.some.inj hc] at ha
    cases (NdjsonPort.close_state ho format code reason pipe).symm.trans ha
  | eof =>
    rw [port, ← Option.some.inj hc] at ha
    cases (NdjsonPort.eof_state ho).symm.trans ha
  | failed message =>
    rw [port, ← Option.some.inj hc] at ha
    cases (NdjsonPort.failed_state _ ho message).symm.trans ha
  | _ => cases he

theorem throws_accounts (h : self.Listening) (hs : self.step format .throws = some next) :
    next.Listening ∧ next.emitted = self.emitted ∧ next.pending = [] ∧
      next.yielded = self.yielded := by
  obtain ⟨hr, hy⟩ := step_throws hs
  have hp : next.port = { self.port with feeding := self.port.feeding.tail } := by
    rw [port, hr]
  have hid : next.port.feeding = [] := by
    rw [hp]
    rcases h.feeding with hf | ⟨frames, hf⟩ <;> rw [hf] <;> rfl
  refine ⟨⟨?_, ?_, ?_, .inl hid⟩, by rw [emitted, hr, emitted], by rw [pending, hid]; rfl, hy⟩
  all_goals rw [hp]
  exacts [h.frames, h.closed, h.searched]

/-! ### Runs -/

/-- What every run keeps: no frame is emitted twice. -/
structure Kept (state : ListenedRun φ) : Prop where
  sound : state.port.Sound
  listening : state.port.state = .open_ → state.Listening
  count : state.port.state = .open_ →
    (state.emitted ++ state.pending).length ≤ state.yielded.length

theorem start_kept (hn : NdjsonPort.new maxFrameBytes = .ok port) : (start port).Kept := by
  have hs := NdjsonRun.start_settled hn
  unfold NdjsonPort.new at hn
  split at hn
  · cases hn
  · cases hn
    exact ⟨⟨hs.sound.writable, hs.sound.ended⟩,
      fun _ => ⟨rfl, rfl, LineDecoder.searched_new _ _, .inl rfl⟩, fun _ => Nat.le_refl 0⟩

theorem Kept.step (h : self.Kept) (hs : self.step format label = some next) : next.Kept := by
  obtain ⟨hso, hb⟩ := step_sound h.sound hs
  suffices hop : next.port.state = .open_ → next.Listening ∧
      (next.emitted ++ next.pending).length ≤ next.yielded.length from
    ⟨hso, fun ho => (hop ho).1, fun ho => (hop ho).2⟩
  intro ho
  have hc := h.count (hb ho)
  cases label with
  | call call =>
    have ha := call_accounts (h.listening (hb ho)) (hb ho) hs ho
    exact ⟨ha.listening, by grind [ha.frames]⟩
  | throws => grind [throws_accounts (h.listening (hb ho)) hs]

theorem run_kept (hn : NdjsonPort.new maxFrameBytes = .ok port)
    (hr : Machine.run (step format) (start port) calls = some final) : final.Kept :=
  Machine.run_invariant Kept (fun _ _ _ h hs => h.step hs) (start_kept hn) hr

theorem every_harmless_keeps (hne : NdjsonPort.new maxFrameBytes = .ok port)
    (hr : Machine.run (step format) (start port) calls = some final)
    (ho : final.port.state = .open_)
    (every : Machine.Every (step format) Harmless (start port) calls) :
    final.emitted ++ final.pending = final.yielded := by
  suffices hk : final.Kept ∧ (final.port.state = .open_ →
      final.emitted ++ final.pending = final.yielded) from hk.2 ho
  have hsta := start_kept hne
  refine every.run_invariant (fun state => state.Kept ∧ (state.port.state = .open_ →
      state.emitted ++ state.pending = state.yielded)) ?_ ⟨hsta, fun ho => ?_⟩ hr
  case refine_2 => exact List.eq_nil_of_length_eq_zero (Nat.le_zero.mp (hsta.count ho))
  rintro state label next ⟨hke, hk⟩ hh hst
  refine ⟨hke.step hst, fun hn => ?_⟩
  have hs := (step_sound hke.sound hst).2 hn
  cases label with
  | call call =>
    obtain ⟨-, news, hf, hy⟩ :=
      call_accounts (hke.listening hs) hs hst hn
    rw [hf, hy, hk hs]
  | throws =>
    obtain ⟨-, he, hp, hy⟩ := throws_accounts (hke.listening hs) hst
    rw [he, hp, hy, ← hk hs, hh hs]

def Spoiled (state : ListenedRun φ) : Prop :=
  state.port.state = .open_ → (state.emitted ++ state.pending).length < state.yielded.length

theorem Spoiled.step (hk : self.Kept) (h : self.Spoiled)
    (hst : self.step format label = some next) : next.Spoiled := by
  intro hn
  have hs := (step_sound hk.sound hst).2 hn
  have hl := h hs
  cases label with
  | call call => grind [(call_accounts (hk.listening hs) hs hst hn).frames]
  | throws => grind [throws_accounts (hk.listening hs) hst]

theorem every_harmless_of_keeps (hn : NdjsonPort.new maxFrameBytes = .ok port)
    (hr : Machine.run (step format) (start port) calls = some final)
    (ho : final.port.state = .open_) (hke : final.emitted ++ final.pending = final.yielded) :
    Machine.Every (step format) Harmless (start port) calls := by
  refine Machine.every_of_run Kept (fun state => state.Kept ∧ state.Spoiled)
    (fun _ _ _ h hs => h.step hs)
    (fun _ _ _ h hs => ⟨h.1.step hs, h.2.step h.1 hs⟩) ?_ (start_kept hn) hr ?_
  · intro state label next hk hh hs
    refine ⟨hk.step hs, fun hne => ?_⟩
    cases label with
    | call call => exact absurd trivial hh
    | throws =>
      obtain ⟨hst, hle⟩ := Classical.not_imp.mp hh
      obtain ⟨-, he, hp, hy⟩ := throws_accounts (hk.listening hst) hs
      have hc := hk.count hst
      grind [List.length_pos_iff, List.length_append]
  · rintro ⟨-, hsp⟩
    have hl := hsp ho
    rw [hke] at hl
    exact Nat.lt_irrefl _ hl

theorem Kept.refuses (h : final.Kept) (ho : final.port.state = .open_)
    (hr : final.port.decoder.refusal = some error) : final.Refuses format error := by
  have hl := h.listening ho
  refine ⟨?_, fun hf pipe => ?_, fun hid bytes pipe => ?_⟩
  · have hf := hl.feeding
    rw [hr] at hf
    exact hf
  · exact deliver_refuses format hl h.sound ho hf pipe
  · -- the decoder answers the next piece with its refusal
    have hp : final.port.decoder.push format.parse bytes =
        (final.port.decoder, ⟨[], some error⟩) := by
      simp only [LineDecoder.push, hr]
    have hs := step_feed ho hid hp
    have hk := h.step hs
    obtain ⟨after, ha, he⟩ :=
      deliver_refuses format (hk.listening ho) hk.sound ho rfl pipe
    refine ⟨after, Machine.run_cons.mpr ⟨_, hs, ?_⟩, he⟩
    exact Machine.run_cons.mpr ⟨after, ha, rfl⟩

/-- While the port is open, the frames emitted and those still to come from the running `feed` are
the frames that the decoder yielded, exactly when every exception came from the last frame of its
piece.  A record that was refused ends the port with its close code in any case. -/
theorem run_keeps_iff {maxFrameBytes : Option Nat}
    (hnew : NdjsonPort.new maxFrameBytes = .ok port)
    (hrun : Machine.run (step format) (start port) calls = some final)
    (hopen : final.port.state = .open_) :
    (final.emitted ++ final.pending = final.yielded ↔
      Machine.Every (step format) Harmless (start port) calls) ∧
    ∀ error, final.port.decoder.refusal = some error → final.Refuses format error :=
  ⟨⟨every_harmless_of_keeps hnew hrun hopen, every_harmless_keeps hnew hrun hopen⟩,
    fun _ hr => (run_kept hnew hrun).refuses hopen hr⟩

/-! ### Two records -/

def textFormat : FrameFormat String :=
  ⟨fun _ => "evt", fun text => .ok (utf8 text), fun text _ => .ok text, fun code _ => code.repr⟩

end ListenedRun

theorem LineDecoder.push_lines {φ : Type} {parse : String → Nat → Except CodecError φ} {limit : Nat}
    (atLeast : minMaxFrameBytes ≤ limit) (lines : List (List UInt8 × φ))
    (hl : ∀ line ∈ lines, newline ∉ line.1 ∧ judgeLine parse limit line.1 = .item line.2) :
    (new limit atLeast).push parse (lines.flatMap fun line => line.1 ++ [newline]) =
      (new limit atLeast, ⟨lines.map Prod.snd, none⟩) := by
  have hsc : Records.scan newline (judgeLine parse limit)
      (lines.flatMap fun line => line.1 ++ [newline]) = ⟨lines.map Prod.snd, none, []⟩ := by
    induction lines with
    | nil => exact Records.scan_open _ List.not_mem_nil
    | cons line lines ih =>
      obtain ⟨hf, hj⟩ := hl line List.mem_cons_self
      have hsp : Records.splitRecord newline
          ((line :: lines).flatMap fun line => line.1 ++ [newline]) =
            some (line.1, lines.flatMap fun line => line.1 ++ [newline]) :=
        Records.splitRecord_eq_some.mpr ⟨hf, by simp⟩
      rw [Records.scan_record hsp, hj,
        ih fun other hot => hl other (List.mem_cons_of_mem line hot)]
      rfl
  obtain ⟨hs, hli, hpu⟩ := (searched_new limit atLeast).push parse
    (lines.flatMap fun line => line.1 ++ [newline])
  have he : overlongLine limit [] = none := by simp [overlongLine, stripCarriageReturn]
  have hre : Records.push newline (judgeLine parse limit) (overlongLine limit) ⟨[], none⟩
      (lines.flatMap fun line => line.1 ++ [newline]) =
        (⟨[], none⟩, ⟨lines.map Prod.snd, none⟩) := by
    simp only [Records.push, List.nil_append, hsc, he]
    rfl
  have hp := hpu.trans hre
  generalize (new limit atLeast).push parse (lines.flatMap fun line => line.1 ++ [newline]) =
    pushed at *
  obtain ⟨decoder, frames, error⟩ := pushed
  obtain ⟨hd, ho⟩ := Prod.mk.inj hp
  obtain ⟨hb, hr⟩ := Records.Decoder.mk.inj hd
  obtain ⟨rfl, rfl⟩ := Records.Outcome.mk.inj ho
  change decoder.refusal = none at hr
  rw [hr] at hb
  change decoder.pending = [] at hb
  refine Prod.ext (LineDecoder.ext hli hb ?_ hr) rfl
  exact (hs.whole hr).trans (congrArg List.length hb)

def textLine (text : String) : List UInt8 × String := (utf8 text, text)

theorem judgeLine_textLine {text : String} (hl : (utf8 text).length ≤ 4096)
    (hr : (utf8 text).getLast? ≠ some carriageReturn) (hb : blankLine text = false) :
    judgeLine ListenedRun.textFormat.parse 4096 (textLine text).1 = .item (textLine text).2 := by
  have hs : stripCarriageReturn (utf8 text) = utf8 text := by
    rw [stripCarriageReturn, if_neg hr]
  have hd : decodeText (utf8 text) = text := fromUtf8Lossy_utf8 text
  simp only [judgeLine, textLine, hs, hd, hb, if_neg (Nat.not_lt.mpr hl)]
  rfl

def heartbeat : List (List UInt8 × String) :=
  [textLine "\x7b\"type\":\"ping\"\x7d", textLine "\x7b\"type\":\"pong\"\x7d"]

theorem heartbeat_lines : ∀ line ∈ heartbeat, newline ∉ line.1 ∧
    judgeLine ListenedRun.textFormat.parse 4096 line.1 = .item line.2 := by
  rintro line hl
  rcases List.mem_cons.mp hl with rfl | hl
  · exact ⟨by decide +kernel,
      judgeLine_textLine (by decide +kernel) (by decide +kernel) (by decide +kernel)⟩
  · cases List.mem_singleton.mp hl
    exact ⟨by decide +kernel,
      judgeLine_textLine (by decide +kernel) (by decide +kernel) (by decide +kernel)⟩

namespace ListenedRun

def freshPort : NdjsonPort String :=
  ⟨4096, .new 4096 minMaxFrameBytes_le, false, false, .open_, [], true, false, [],
    minMaxFrameBytes_le⟩

def throwingRounds : List (ListenerCall String) :=
  heartbeat.flatMap fun line =>
    [.call (.feed (line.1 ++ [newline])), .call (.deliver none), .throws]

theorem run_keeps_iff_heartbeat :
    ∃ final, NdjsonPort.new (some 4096) = .ok freshPort ∧
      Machine.run (step textFormat) (start freshPort) throwingRounds = some final ∧
      final.port.state = .open_ ∧
      final.emitted = ["\x7b\"type\":\"ping\"\x7d", "\x7b\"type\":\"pong\"\x7d"] ∧
      Machine.Every (step textFormat) Harmless (start freshPort) throwingRounds := by
  have hp : ∀ line ∈ heartbeat, (LineDecoder.new 4096 minMaxFrameBytes_le).push textFormat.parse
      (line.1 ++ [newline]) = (.new 4096 minMaxFrameBytes_le, ⟨[line.2], none⟩) := by
    intro line hli
    have hl := LineDecoder.push_lines minMaxFrameBytes_le [line] fun other hot =>
      heartbeat_lines other (List.mem_singleton.mp hot ▸ hli)
    rw [List.flatMap_singleton] at hl
    exact hl
  have hn : NdjsonPort.new (some 4096) = .ok freshPort := rfl
  have hpi := hp _ List.mem_cons_self
  have hpo := hp _ (List.mem_cons_of_mem _ List.mem_cons_self)
  obtain ⟨final, hr, ho, he, hk⟩ : ∃ final,
      Machine.run (step textFormat) (start freshPort) throwingRounds = some final ∧
      final.port.state = .open_ ∧
      final.emitted = ["\x7b\"type\":\"ping\"\x7d", "\x7b\"type\":\"pong\"\x7d"] ∧
      final.emitted ++ final.pending = final.yielded :=
    ⟨_, Machine.run_cons.mpr ⟨_, step_feed rfl rfl hpi, Machine.run_cons.mpr ⟨_, rfl,
      Machine.run_cons.mpr ⟨_, rfl, Machine.run_cons.mpr ⟨_, step_feed rfl rfl hpo, rfl⟩⟩⟩⟩,
      rfl, rfl, rfl⟩
  exact ⟨final, hn, hr, ho, he, (run_keeps_iff hn hr ho).1.mp hk⟩

/-- Both records in one piece, and a listener that throws on the first: the port stays open and the
second frame is gone. -/
theorem second_frame_lost :
    ∃ final, NdjsonPort.new (some 4096) = .ok freshPort ∧
      Machine.run (step textFormat) (start freshPort)
        [.call (.feed (heartbeat.flatMap fun line => line.1 ++ [newline])), .call (.deliver none),
          .throws] = some final ∧
      final.port.state = .open_ ∧ final.port.feeding = [] ∧
      final.yielded = ["\x7b\"type\":\"ping\"\x7d", "\x7b\"type\":\"pong\"\x7d"] ∧
      final.emitted = ["\x7b\"type\":\"ping\"\x7d"] := by
  have hp := LineDecoder.push_lines minMaxFrameBytes_le heartbeat heartbeat_lines
  have ho : (start freshPort).port.state = .open_ := rfl
  have hf := step_feed ho rfl hp
  refine ⟨_, rfl, Machine.run_cons.mpr ⟨_, hf, rfl⟩, rfl, rfl, rfl, rfl⟩

end ListenedRun

end MangoProtocol.TypeScript
