import Tchannel.Confinement
import Tchannel.Draining
import Tchannel.RpcResult

/-!
# Answers, as the caller reads them

An answer is the frames of a response or one Error frame (`FrameHandler.responseFrames_eq_ok`). Reading it comes
to an end, and does not panic (`FrameHandler.respond_reads`); and once a response is read, what follows in the
channel does not matter.
-/

namespace Tchannel
open Wire

theorem Defragmenter.readAndCheck_append {C F : Type} [Call C F] (t : FrameType) (decode : Cursor CodecError C)
    (checkFields : F → CodecResult ArgSchemeValue) (xs ys : List TFrameId) :
    (∃ rest, (readAndCheck t decode checkFields).run ⟨xs, false⟩ = .error .pending rest) ∨
      (∃ e rest rest', (readAndCheck t decode checkFields).run ⟨xs, false⟩ = .error e rest ∧
        (readAndCheck t decode checkFields).run ⟨xs ++ ys, false⟩ = .error e rest') ∨
      ∃ r rest rest', (readAndCheck t decode checkFields).run ⟨xs, false⟩ = .ok r rest ∧
        (readAndCheck t decode checkFields).run ⟨xs ++ ys, false⟩ = .ok r rest' := by
  cases xs with
  | nil => exact .inl ⟨_, rfl⟩
  | cons x xs =>
    simp only [readAndCheck_run, List.cons_append]
    cases hfirst : beginFrame t decode x.frame with
    | error e => exact .inr (.inl ⟨e, _, _, rfl, rfl⟩)
    | ok r =>
      obtain ⟨fields, flags, d⟩ := r
      simp only
      cases hcheck : checkFields fields with
      | error e => exact .inr (.inl ⟨_, _, _, rfl, rfl⟩)
      | ok argsScheme =>
        simp only
        cases hmore : flags.contains Flags.moreFragmentsFollow with
        | false => exact .inr (.inr ⟨_, _, _, rfl, rfl⟩)
        | true =>
          simp only [if_true]
          rcases continueFrames_append xs ys d with ⟨rest, hp⟩ | ⟨e, rest, rest', he, he'⟩ |
            ⟨d', rest, rest', hok, hok'⟩
          · rw [hp]
            exact .inl ⟨_, rfl⟩
          · rw [he, he']
            exact .inr (.inl ⟨_, _, _, rfl, rfl⟩)
          · rw [hok, hok']
            exact .inr (.inr ⟨_, _, _, rfl, rfl⟩)

/-- A message that can be read is refused if its fields are. -/
theorem Defragmenter.readAndCheck_refuses {C F : Type} [Call C F] {t : FrameType} {decode : Cursor CodecError C}
    {checkFields checkFields' : F → CodecResult ArgSchemeValue} {input rest : FrameInput} {fields : F}
    {margs : MessageArgs} {e : CodecError} (h : (readAndCheck t decode checkFields).run input = .ok (fields, margs) rest)
    (hcheck : checkFields' fields = .error e) :
    ∃ rest', (readAndCheck t decode checkFields').run input = .error (.err (.codecError e)) rest' := by
  obtain ⟨first, frames, call, chunks, scheme, hframes, hfirst, -, rfl, -⟩ := readAndCheck_eq_ok.1 h
  refine ⟨{ input with frames := frames }, ?_⟩
  simp only [readAndCheck_run, hframes, beginFrame_ok_iff.2 ⟨call, chunks, hfirst, rfl, rfl, rfl⟩, hcheck]

namespace ResponseDefragmenter

variable {RES : Type} [Message RES]

theorem readResponseMsg_run (input : FrameInput) : (readResponseMsg RES).run input =
    match (Defragmenter.readAndCheck .callResponse CallResponse.decode
      (checkArgScheme (Message.argsScheme RES))).run input with
    | .ok (fields, margs) rest =>
      match Message.tryFrom margs with
      | .ok m => .ok (fields.code, m) rest
      | .error e => .error (.err (.codecError e)) rest
    | .error e rest => .error e rest := by
  show EStateM.bind (Defragmenter.readAndCheck .callResponse CallResponse.decode
    (checkArgScheme (Message.argsScheme RES))) _ _ = _
  unfold EStateM.bind EStateM.run
  cases hread : Defragmenter.readAndCheck .callResponse CallResponse.decode
    (checkArgScheme (Message.argsScheme RES)) input with
  | error e rest => rfl
  | ok r rest =>
    obtain ⟨fields, margs⟩ := r
    simp only [bind, EStateM.bind]
    cases hfrom : (Message.tryFrom margs : CodecResult RES) with
    | ok m => rfl
    | error e => rfl

end ResponseDefragmenter

namespace SubChannel

variable {RES : Type} [Message RES]

theorem receiveFrom_append {xs : List TFrameId} {result : HandlerResult RES} (ys : List TFrameId)
    (h : receiveFrom RES ⟨xs, false⟩ = some result) : receiveFrom RES ⟨xs ++ ys, false⟩ = some result := by
  rw [receiveFrom, ResponseDefragmenter.readResponseMsg_run] at h ⊢
  rcases Defragmenter.readAndCheck_append .callResponse CallResponse.decode
    (checkArgScheme (Message.argsScheme RES)) xs ys with ⟨rest, hp⟩ | ⟨e, rest, rest', he, he'⟩ |
      ⟨⟨fields, margs⟩, rest, rest', hok, hok'⟩
  · rw [hp] at h
    cases h
  · rw [he] at h
    rw [he']
    cases e <;> exact h
  · rw [hok] at h
    rw [hok']
    cases hfrom : (Message.tryFrom margs : CodecResult RES) <;> simp only [hfrom] at h ⊢ <;> exact h

theorem receiveFrom_error {frame : TFrameId} (h : frame.frame.frameType = .error) (rest : List TFrameId) :
    receiveFrom RES ⟨frame :: rest, false⟩ =
      some (.error (.internalError (.error "Expected 'CallResponse' got 'Error'"))) := by
  rw [receiveFrom, ResponseDefragmenter.readResponseMsg_run, Defragmenter.readAndCheck_run]
  have hbegin : Defragmenter.beginFrame .callResponse CallResponse.decode frame.frame =
      .error (.err (.error "Expected 'CallResponse' got 'Error'")) := by
    rw [Defragmenter.beginFrame, h, if_neg (by decide)]
    rfl
  simp only [hbegin]
  rfl

end SubChannel

namespace FrameHandler

variable {self : FrameHandler} {order : (headers : HashMap String String) → Iter headers} {id : UInt32}
  {fields : CallRequestFields} {args : MessageArgs} {answer : List TFrameId}

/-- The handler that the request `args` to `service` gets to. -/
def Registers (self : FrameHandler) (service : String) (args : MessageArgs) (registered : MessageArgsHandler) : Prop :=
  ∃ subchannel endpoint, self.subchannels.lookup service = some subchannel ∧
    SubChannel.readEndpointName args = .ok endpoint ∧ subchannel.handlers.lookup endpoint = some registered

theorem getSubchannel_eq_ok {service : String} {subchannel : SubChannel} :
    self.getSubchannel service = .ok subchannel ↔ self.subchannels.lookup service = some subchannel := by
  unfold getSubchannel
  split <;> simp_all

theorem getHandler_eq_ok {subchannel : SubChannel} {endpoint : String} {registered : MessageArgsHandler} :
    subchannel.getHandler endpoint = .ok registered ↔ subchannel.handlers.lookup endpoint = some registered := by
  unfold SubChannel.getHandler
  split <;> simp_all

theorem respond_eq_ok (h : self.respond order id fields args = .ok answer) :
    ∃ registered code response, self.Registers fields.service args registered ∧
      registered.handle args = .ok (code, response) ∧ self.responseFrames id
        ((ResponseFragmenter.new fields.service code response).createFrames (order _)) = .ok answer := by
  obtain ⟨subchannel, hsub, h⟩ := except_bind_eq_ok.1 h
  obtain ⟨⟨code, response⟩, hhandle, h⟩ := except_bind_eq_ok.1 h
  obtain ⟨endpoint, hend, hhandle⟩ := except_bind_eq_ok.1 hhandle
  obtain ⟨registered, hregistered, hhandle⟩ := except_bind_eq_ok.1 hhandle
  exact ⟨registered, code, response, ⟨subchannel, endpoint, getSubchannel_eq_ok.1 hsub, liftCodec_eq_ok.1 hend,
    getHandler_eq_ok.1 hregistered⟩, hhandle, h⟩

/-- What `handle_input` makes of the handler's response. -/
def finish (self : FrameHandler) (order : (headers : HashMap String String) → Iter headers) (id : UInt32)
    (requestFields : CallRequestFields) (response : MessageArgsResponse) : TResult (List TFrameId) := do
  let (responseCode, responseArgs) ← response
  self.responseFrames id
    ((ResponseFragmenter.new requestFields.service responseCode responseArgs).createFrames (order _))

theorem errorFrames_eq_ok {code : ErrorCode} {msg : String} (h : errorFrames code msg id = .ok answer) :
    ∃ frame, answer = [frame] ∧ frame.frame.frameType = .error := by
  obtain ⟨frame, hframe, h⟩ := except_bind_eq_ok.1 h
  obtain ⟨payload, -, heq⟩ := except_bind_eq_ok.1 (liftCodec_eq_ok.1 hframe)
  refine ⟨frame, (Except.ok.inj h).symm, ?_⟩
  rw [← Except.ok.inj heq]

/-- An answer: the frames of the response, or one Error frame where it has none. -/
theorem responseFrames_eq_ok {response : TResult (List TFrame)} (h : self.responseFrames id response = .ok answer) :
    (∃ frames, response = .ok frames ∧ answer = frames.map (TFrameId.mk id)) ∨
      (∃ e, response = .error e) ∧ ∃ frame, answer = [frame] ∧ frame.frame.frameType = .error := by
  cases response with
  | ok frames => exact .inl ⟨frames, rfl, (Except.ok.inj h).symm⟩
  | error e =>
    refine .inr ⟨⟨e, rfl⟩, ?_⟩
    cases e with
    | error msg => exact errorFrames_eq_ok h
    | codecError e => exact errorFrames_eq_ok h
    | connectionError e => exact errorFrames_eq_ok h
    | connectionPoolError e => cases h

theorem respond_reads (RES : Type) [Message RES] (h : self.respond order id fields args = .ok answer) :
    ∃ result, SubChannel.receiveFrom RES ⟨answer, false⟩ = some result := by
  obtain ⟨registered, code, response, -, -, hframes⟩ := respond_eq_ok h
  rcases responseFrames_eq_ok hframes with ⟨frames, hcut, rfl⟩ | ⟨-, frame, rfl, htype⟩
  · obtain ⟨args, hread⟩ := ResponseFragmenter.read_createFrames hcut id false
    rw [SubChannel.receiveFrom, ResponseDefragmenter.readResponseMsg_run]
    cases hcheck : checkArgScheme (Message.argsScheme RES)
        (ResponseFragmenter.new fields.service code response).createResponseFields with
    | ok scheme =>
      rw [hread _ _ hcheck]
      cases hfrom : (Message.tryFrom ⟨scheme, args⟩ : CodecResult RES) <;> simp only [hfrom] <;> exact ⟨_, rfl⟩
    | error e =>
      obtain ⟨rest, herror⟩ := Defragmenter.readAndCheck_refuses (hread (fun _ => .ok .raw) .raw rfl) hcheck
      rw [herror]
      exact ⟨_, rfl⟩
  · exact ⟨_, SubChannel.receiveFrom_error htype []⟩

end FrameHandler

end Tchannel
