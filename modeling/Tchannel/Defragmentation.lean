import Tchannel.Messages

/-!
# Reading a message from its frames

`defragmentation.rs`. A defragmenter receives the frames of one message from a channel (`FrameInput`:
what has been sent, and whether all senders are gone) and puts the args together again
(`ArgsDefragmenter`). Besides an error, a read can stop in a panic, or be `pending` on a channel that is
empty but open.
-/

namespace Tchannel
open Wire

/-! ### Putting args together -/

structure ArgsDefragmenter where
  args : List Bytes
deriving DecidableEq, Repr

namespace ArgsDefragmenter

def default : ArgsDefragmenter := ⟨[]⟩

def addFirstArg (self : ArgsDefragmenter) (frameArg : Option Bytes) : ArgsDefragmenter :=
  match frameArg with
  | some frameArgBytes =>
    match self.args.getLast? with
    | some previousIncompleteArg => ⟨self.args.dropLast ++ [previousIncompleteArg ++ frameArgBytes]⟩
    | none => ⟨self.args ++ [frameArgBytes]⟩
  | none => ⟨self.args ++ [[]]⟩

def addRemainingArgs (self : ArgsDefragmenter) (frameArgs : List (Option Bytes)) : ArgsDefragmenter :=
  ⟨frameArgs.foldl (fun args frameArg => args ++ [frameArg.getD []]) self.args⟩

def add (self : ArgsDefragmenter) (frameArgs : List (Option Bytes)) : ArgsDefragmenter :=
  match frameArgs with
  | [] => self
  | frameArg :: frameArgs => (self.addFirstArg frameArg).addRemainingArgs frameArgs

/-- Adds the args of one frame after another. -/
def addAll (self : ArgsDefragmenter) (frames : List (List (Option Bytes))) : ArgsDefragmenter :=
  frames.foldl add self

end ArgsDefragmenter

/-! ### Receiving frames -/

/-- The receiving end of a frame channel: the frames sent and not received yet, and whether every
sender has been dropped. -/
structure FrameInput where
  frames : List TFrameId
  closed : Bool
deriving DecidableEq, Repr

/-- Why a read ends, or rests, without a result. -/
inductive Stop where
  | err (e : TChannelError)
  | panic
  | pending
deriving DecidableEq, Repr

abbrev Recv (α : Type) := EStateM Stop FrameInput α

namespace Recv

variable {α : Type}

def fail (e : TChannelError) : Recv α := fun input => .error (.err e) input

def recv : Recv (Option TFrameId) := fun input =>
  match input.frames with
  | frame :: frames => .ok (some frame) { input with frames := frames }
  | [] => if input.closed then .ok none input else .error .pending input

/-- The `?` on a codec result. -/
def liftCodec : CodecResult α → Recv α
  | .ok a => pure a
  | .error e => fail (.codecError e)

end Recv

/-- Runs a decoder on a payload, for its value. -/
def decodePayload {α : Type} (decode : Cursor CodecError α) (payload : Bytes) : Except Stop α :=
  match decode.run payload with
  | .ok a _ => .ok a
  | .error (.err e) _ => .error (.err (.codecError e))
  | .error .panic _ => .error .panic

theorem decodePayload_eq_ok {α : Type} {decode : Cursor CodecError α} {payload : Bytes} {a : α} :
    decodePayload decode payload = .ok a ↔ ∃ rest, decode.run payload = .ok a rest := by
  unfold decodePayload
  cases decode.run payload with
  | ok a rest => simp
  | error e rest => cases e <;> simp

/-- Only frames without a checksum are read; the others are `todo!()`. -/
def verifyArgs (callArgs : CallArgs) : Except Stop (List (Option Bytes)) :=
  match callArgs.checksumType with
  | .none => .ok callArgs.args
  | _ => .error .panic

/-- `Debug` of `Bytes`. -/
def debugBytes (b : Bytes) : String :=
  "b\"" ++ String.join (b.map debugByte) ++ "\""
where
  debugByte (b : UInt8) : String :=
    if b = 0x0a then "\\n"
    else if b = 0x0d then "\\r"
    else if b = 0x09 then "\\t"
    else if b = 0x5c then "\\\\"
    else if b = 0x22 then "\\\""
    else if b = 0x00 then "\\0"
    else if 0x20 ≤ b ∧ b < 0x7f then String.singleton (Char.ofNat b.toNat)
    else "\\x" ++ String.ofList [Nat.digitChar (b.toNat / 16), Nat.digitChar (b.toNat % 16)]

/-- `Debug` of `TFrame`. -/
def TFrame.debug (f : TFrame) : String :=
  "TFrame \x7b frame_type: " ++ f.frameType.debug ++ ", payload: " ++ debugBytes f.payload ++ " \x7d"

class CallFields (F : Type) where
  headers : F → HashMap String String

class Call (C : Type) (F : outParam Type) where
  fields : C → F
  flags : C → Flags
  args : C → CallArgs

instance : CallFields CallRequestFields := ⟨CallRequestFields.headers⟩

instance : CallFields CallResponseFields := ⟨CallResponseFields.headers⟩

instance : Call CallRequest CallRequestFields := ⟨CallRequest.fields, CallRequest.flags, CallRequest.args⟩

instance : Call CallResponse CallResponseFields :=
  ⟨CallResponse.fields, CallResponse.flags, CallResponse.args⟩

/-! ### The defragmenter -/

def getArgsScheme {F : Type} [CallFields F] (fields : F) : CodecResult ArgSchemeValue :=
  match (CallFields.headers fields).lookup TransportHeaderKey.argScheme.toString with
  | some scheme => ArgSchemeValue.fromStr scheme
  | none => .error (.error "Missing arg schema arg")

/-- `ArgSchemeChecker::check`. -/
def checkArgScheme {F : Type} [CallFields F] (expected : ArgSchemeValue) (fields : F) :
    CodecResult ArgSchemeValue := do
  let argScheme ← getArgsScheme fields
  if argScheme ≠ expected then
    .error (.error s!"Expected {expected.toString} got {argScheme.toString}")
  else
    return argScheme

namespace Defragmenter

/-- The first frame of a message: its type must be `frameType`. -/
def beginFrame {C F : Type} [Call C F] (frameType : FrameType) (decode : Cursor CodecError C)
    (frame : TFrame) : Except Stop (F × Flags × ArgsDefragmenter) :=
  if frameType = frame.frameType then do
    let call ← decodePayload decode frame.payload
    let args ← verifyArgs (Call.args call)
    return (Call.fields call, Call.flags call, ArgsDefragmenter.default.add args)
  else
    .error (.err (.error s!"Expected '{frameType.debug}' got '{frame.frameType.debug}'"))

/-- A later frame; the flag tells whether it is the last. -/
def continueFrame (d : ArgsDefragmenter) (frame : TFrame) : Except Stop (ArgsDefragmenter × Bool) :=
  match frame.frameType with
  | .callResponseContinue | .callRequestContinue => do
    let continuation ← decodePayload CallContinue.decode frame.payload
    let args ← verifyArgs continuation.args
    return (d.add args, !continuation.flags.contains Flags.moreFragmentsFollow)
  | .error => .error (.err (.error ("Transport error: " ++ frame.debug)))
  | frameType => .error (.err (.error ("Unexpected frame: " ++ frameType.debug)))

def readBeginning {C F : Type} [Call C F] (frameType : FrameType) (decode : Cursor CodecError C) :
    Recv (F × Flags × ArgsDefragmenter) := do
  match ← Recv.recv with
  | some frameId => fun input =>
    match beginFrame frameType decode frameId.frame with
    | .ok r => .ok r input
    | .error e => .error e input
  | none => Recv.fail (.error "Received no response")

/-- The loop of `read_continuation` over the frames of the channel. -/
def continueFrames (closed : Bool) : List TFrameId → ArgsDefragmenter →
    EStateM.Result Stop FrameInput ArgsDefragmenter
  | [], d => if closed then .ok d ⟨[], closed⟩ else .error .pending ⟨[], closed⟩
  | frameId :: frames, d =>
    match continueFrame d frameId.frame with
    | .error e => .error e ⟨frames, closed⟩
    | .ok (d, true) => .ok d ⟨frames, closed⟩
    | .ok (d, false) => continueFrames closed frames d

def readContinuation (d : ArgsDefragmenter) : Recv ArgsDefragmenter := fun input =>
  continueFrames input.closed input.frames d

def readAndCheck {C F : Type} [Call C F] (frameType : FrameType) (decode : Cursor CodecError C)
    (checkFields : F → CodecResult ArgSchemeValue) : Recv (F × MessageArgs) := do
  let (fields, flags, d) ← readBeginning frameType decode
  let argsScheme ← Recv.liftCodec (checkFields fields)
  if !flags.contains Flags.moreFragmentsFollow then
    return (fields, ⟨argsScheme, d.args⟩)
  else
    let d ← readContinuation d
    return (fields, ⟨argsScheme, d.args⟩)

def read {C F : Type} [CallFields F] [Call C F] (frameType : FrameType) (decode : Cursor CodecError C) :
    Recv (F × MessageArgs) :=
  readAndCheck frameType decode getArgsScheme

theorem readAndCheck_run {C F : Type} [Call C F] (frameType : FrameType) (decode : Cursor CodecError C)
    (checkFields : F → CodecResult ArgSchemeValue) (input : FrameInput) :
    (readAndCheck frameType decode checkFields).run input =
      match input.frames with
      | [] =>
        if input.closed then .error (.err (.error "Received no response")) input else .error .pending input
      | frameId :: frames =>
        match beginFrame frameType decode frameId.frame with
        | .error e => .error e { input with frames := frames }
        | .ok (fields, flags, d) =>
          match checkFields fields with
          | .error e => .error (.err (.codecError e)) { input with frames := frames }
          | .ok argsScheme =>
            if flags.contains Flags.moreFragmentsFollow then
              match continueFrames input.closed frames d with
              | .error e rest => .error e rest
              | .ok d rest => .ok (fields, ⟨argsScheme, d.args⟩) rest
            else .ok (fields, ⟨argsScheme, d.args⟩) { input with frames := frames } := by
  obtain ⟨frames, closed⟩ := input
  cases frames with
  | nil => cases closed <;> rfl
  | cons frameId frames =>
    simp only [readAndCheck, readBeginning, Recv.recv, Recv.liftCodec, EStateM.run, bind, EStateM.bind, pure]
    cases beginFrame frameType decode frameId.frame with
    | error e => rfl
    | ok r =>
      obtain ⟨fields, flags, d⟩ := r
      cases hcheck : checkFields fields with
      | error e => simp only [hcheck, Recv.fail]
      | ok argsScheme =>
        cases hmore : flags.contains Flags.moreFragmentsFollow with
        | false => simp [hcheck, hmore, EStateM.pure]
        | true =>
          simp only [hcheck, hmore, Bool.not_true, Bool.false_eq_true, if_false, if_true, EStateM.bind,
            EStateM.pure, readContinuation]
          cases continueFrames closed frames d <;> rfl

theorem beginFrame_eq_ok {C F : Type} [Call C F] {frameType : FrameType} {decode : Cursor CodecError C}
    {payload rest : Bytes} {call : C} {args : List (Option Bytes)}
    (hdecode : decode.run payload = .ok call rest) (hargs : verifyArgs (Call.args call) = .ok args) :
    beginFrame frameType decode ⟨frameType, payload⟩ =
      .ok (Call.fields call, Call.flags call, ArgsDefragmenter.default.add args) := by
  simp [beginFrame, decodePayload, hdecode, hargs, bind, Except.bind, pure, Except.pure]

/-- A first frame that can be read, with its call and chunks. -/
def Beginning {C F : Type} [Call C F] (frameType : FrameType) (decode : Cursor CodecError C) (frame : TFrame)
    (call : C) (chunks : List (Option Bytes)) : Prop :=
  frameType = frame.frameType ∧ decodePayload decode frame.payload = .ok call ∧
    verifyArgs (Call.args call) = .ok chunks

/-- A continuation frame that can be read, with its flags and chunks. -/
def Continuation (frame : TFrame) (flags : Flags) (chunks : List (Option Bytes)) : Prop :=
  (frame.frameType = .callResponseContinue ∨ frame.frameType = .callRequestContinue) ∧
    ∃ args, decodePayload CallContinue.decode frame.payload = .ok ⟨flags, args⟩ ∧ verifyArgs args = .ok chunks

theorem beginFrame_ok_iff {C F : Type} [Call C F] {frameType : FrameType} {decode : Cursor CodecError C}
    {frame : TFrame} {fields : F} {flags : Flags} {d : ArgsDefragmenter} :
    beginFrame frameType decode frame = .ok (fields, flags, d) ↔ ∃ call chunks,
      Beginning frameType decode frame call chunks ∧ fields = Call.fields call ∧ flags = Call.flags call ∧
        d = ArgsDefragmenter.default.add chunks := by
  unfold beginFrame Beginning
  by_cases htype : frameType = frame.frameType
  · simp only [if_pos htype, except_bind_eq_ok]
    constructor
    · rintro ⟨call, hcall, chunks, hchunks, heq⟩
      obtain ⟨rfl, rfl, rfl⟩ : Call.fields call = fields ∧ Call.flags call = flags ∧
          ArgsDefragmenter.default.add chunks = d := by simpa [pure, Except.pure] using heq
      exact ⟨call, chunks, ⟨htype, hcall, hchunks⟩, rfl, rfl, rfl⟩
    · rintro ⟨call, chunks, ⟨-, hcall, hchunks⟩, rfl, rfl, rfl⟩
      exact ⟨call, hcall, chunks, hchunks, rfl⟩
  · rw [if_neg htype]
    refine iff_of_false (fun h => by cases h) ?_
    rintro ⟨call, chunks, ⟨htype', -⟩, -⟩
    exact htype htype'

theorem continueFrame_ok_iff {d d' : ArgsDefragmenter} {frame : TFrame} {last : Bool} :
    continueFrame d frame = .ok (d', last) ↔ ∃ flags chunks, Continuation frame flags chunks ∧
      d' = d.add chunks ∧ last = !flags.contains Flags.moreFragmentsFollow := by
  have hread : (do
      let continuation ← decodePayload CallContinue.decode frame.payload
      let args ← verifyArgs continuation.args
      return (d.add args, !continuation.flags.contains Flags.moreFragmentsFollow)) = Except.ok (d', last) ↔
      ∃ flags chunks, (∃ args, decodePayload CallContinue.decode frame.payload = .ok ⟨flags, args⟩ ∧
        verifyArgs args = .ok chunks) ∧ d' = d.add chunks ∧ last = !flags.contains Flags.moreFragmentsFollow := by
    simp only [except_bind_eq_ok]
    constructor
    · rintro ⟨⟨flags, args⟩, hcall, chunks, hchunks, heq⟩
      obtain ⟨rfl, rfl⟩ : d.add chunks = d' ∧ (!flags.contains Flags.moreFragmentsFollow) = last := by
        simpa [pure, Except.pure] using heq
      exact ⟨flags, chunks, ⟨args, hcall, hchunks⟩, rfl, rfl⟩
    · rintro ⟨flags, chunks, ⟨args, hcall, hchunks⟩, rfl, rfl⟩
      exact ⟨⟨flags, args⟩, hcall, chunks, hchunks, rfl⟩
  unfold continueFrame Continuation
  by_cases htype : frame.frameType = .callResponseContinue ∨ frame.frameType = .callRequestContinue
  · simp only [htype, true_and]
    rcases htype with h | h <;> simp only [h] <;> exact hread
  · refine iff_of_false ?_ fun ⟨_, _, h, _⟩ => htype h.1
    cases h : frame.frameType <;> simp_all

/-- A reader returns a message that one frame holds, or a first frame and what follows it. -/
theorem readAndCheck_eq_ok {C F : Type} [Call C F] {frameType : FrameType} {decode : Cursor CodecError C}
    {checkFields : F → CodecResult ArgSchemeValue} {input rest : FrameInput} {fields : F} {margs : MessageArgs} :
    (readAndCheck frameType decode checkFields).run input = .ok (fields, margs) rest ↔
      ∃ first frames call chunks scheme, input.frames = first :: frames ∧
        Beginning frameType decode first.frame call chunks ∧ checkFields (Call.fields call) = .ok scheme ∧
        fields = Call.fields call ∧
        (((Call.flags call).contains Flags.moreFragmentsFollow = false ∧
            margs = ⟨scheme, (ArgsDefragmenter.default.add chunks).args⟩ ∧ rest = { input with frames }) ∨
          ((Call.flags call).contains Flags.moreFragmentsFollow = true ∧ ∃ d,
            continueFrames input.closed frames (ArgsDefragmenter.default.add chunks) = .ok d rest ∧
              margs = ⟨scheme, d.args⟩)) := by
  rw [readAndCheck_run]
  constructor
  · intro h
    cases hframes : input.frames with
    | nil =>
      simp only [hframes] at h
      split at h <;> cases h
    | cons first frames =>
      simp only [hframes] at h
      cases hbegin : beginFrame frameType decode first.frame with
      | error e =>
        rw [hbegin] at h
        cases h
      | ok r =>
        obtain ⟨fields', flags, d⟩ := r
        obtain ⟨call, chunks, hfirst, rfl, rfl, rfl⟩ := beginFrame_ok_iff.1 hbegin
        simp only [hbegin] at h
        cases hcheck : checkFields (Call.fields call) with
        | error e =>
          rw [hcheck] at h
          cases h
        | ok scheme =>
          simp only [hcheck] at h
          refine ⟨first, frames, call, chunks, scheme, rfl, hfirst, hcheck, ?_⟩
          split at h
          · rename_i hmore
            split at h
            · cases h
            · rename_i d rest' hd
              simp only [EStateM.Result.ok.injEq, Prod.mk.injEq] at h
              obtain ⟨⟨rfl, rfl⟩, rfl⟩ := h
              exact ⟨rfl, .inr ⟨hmore, d, hd, rfl⟩⟩
          · rename_i hmore
            simp only [EStateM.Result.ok.injEq, Prod.mk.injEq] at h
            obtain ⟨⟨rfl, rfl⟩, rfl⟩ := h
            exact ⟨rfl, .inl ⟨Bool.not_eq_true _ ▸ hmore, rfl, rfl⟩⟩
  · rintro ⟨first, frames, call, chunks, scheme, hframes, hfirst, hcheck, rfl, h⟩
    have hbegin : beginFrame frameType decode first.frame = _ :=
      beginFrame_ok_iff.2 ⟨call, chunks, hfirst, rfl, rfl, rfl⟩
    simp only [hframes, hbegin, hcheck]
    rcases h with ⟨hmore, rfl, rfl⟩ | ⟨hmore, d, hd, rfl⟩
    · rw [if_neg (by simp [hmore])]
    · rw [if_pos hmore, hd]

end Defragmenter

def RequestDefragmenter.readRequest : Recv (CallRequestFields × MessageArgs) :=
  Defragmenter.read .callRequest CallRequest.decode

def RequestDefragmenter.readRequestMsg (MSG : Type) [Message MSG] : Recv MSG := do
  let (_, messageArgs) ← Defragmenter.readAndCheck .callRequest CallRequest.decode
    (checkArgScheme (Message.argsScheme MSG))
  Recv.liftCodec (Message.tryFrom messageArgs)

def ResponseDefragmenter.readResponse : Recv (CallResponseFields × MessageArgs) :=
  Defragmenter.read .callResponse CallResponse.decode

def ResponseDefragmenter.readResponseMsg (MSG : Type) [Message MSG] : Recv (ResponseCode × MSG) := do
  let (fields, messageArgs) ← Defragmenter.readAndCheck .callResponse CallResponse.decode
    (checkArgScheme (Message.argsScheme MSG))
  let msg ← Recv.liftCodec (Message.tryFrom messageArgs)
  return (fields.code, msg)

end Tchannel
