import Tchannel.SubChannel
import Tchannel.MessageRoundTrip

/-!
# What the caller gets

A handler's result goes through `convert`, the frames of a response and `SubChannel.received` to the
caller. A message that the handler returns arrives as a message. A message that it returns as an error
arrives as a message too, because `convert` gives both the response code `Ok`
(`result_arrives_iff`); the documentation of `MessageChannel::send` has it arrive as `MessageError`.
-/

namespace Tchannel
open Wire ArgsFragmenter Fragmenter

namespace ResponseFragmenter

variable {service : String} {code : ResponseCode} {margs : MessageArgs}
  {it : Iter (new service code margs).createResponseFields.headers} {frames : List TFrame}

/-- Whatever is checked of the fields, the same args are read from the frames of a response. -/
theorem read_createFrames (h : (new service code margs).createFrames it = .ok frames) (id : UInt32)
    (closed : Bool) :
    ∃ args, ∀ (checkFields : CallResponseFields → CodecResult ArgSchemeValue) (scheme : ArgSchemeValue),
      checkFields (new service code margs).createResponseFields = .ok scheme →
      (Defragmenter.readAndCheck .callResponse CallResponse.decode checkFields).run
          ⟨frames.map (TFrameId.mk id), closed⟩ =
        .ok ((new service code margs).createResponseFields, ⟨scheme, args⟩) ⟨[], closed⟩ := by
  obtain ⟨-, fb, hfb, -, hle⟩ := (encodedFields it).of_createFrames h
  unfold createFrames at h
  rw [hfb] at h
  exact ⟨_, fun checkFields scheme hcheck => readAndCheck_createFrames (readsCall_createResponseFields hfb)
    hcheck (.inr rfl) (by omega) h id closed⟩

end ResponseFragmenter

/-- The args of the response `margs` are read from `frames` as they were. -/
def ArgsSurvive (frames : List TFrame) (id : UInt32) (closed : Bool) (margs : MessageArgs) : Prop :=
  ∃ fields rest, ResponseDefragmenter.readResponse.run ⟨frames.map (TFrameId.mk id), closed⟩ =
    .ok (fields, margs) rest

section

variable {RES : Type} [Message RES] [LawfulMessage RES] {service : String} {code : ResponseCode}
  {margs : MessageArgs} {it : Iter (ResponseFragmenter.new service code margs).createResponseFields.headers}
  {frames : List TFrame} {id : UInt32} {closed : Bool} {m : RES}

theorem readResponseMsg_eq (hm : Message.tryInto m = .ok margs)
    (h : (ResponseFragmenter.new service code margs).createFrames it = .ok frames)
    (hsurvive : ArgsSurvive frames id closed margs) :
    (ResponseDefragmenter.readResponseMsg RES).run ⟨frames.map (TFrameId.mk id), closed⟩ =
      .ok (code, m) ⟨[], closed⟩ := by
  obtain ⟨args, hread⟩ := ResponseFragmenter.read_createFrames h id closed
  obtain ⟨fields, rest, hsurvive⟩ := hsurvive
  have hscheme : getArgsScheme (ResponseFragmenter.new service code margs).createResponseFields =
      .ok margs.argScheme :=
    getArgsScheme_createHeaders (show _ = (Fragmenter.new service margs).createHeaders from rfl)
  have hargs : args = margs.args := by
    rw [ResponseDefragmenter.readResponse, Defragmenter.read, hread getArgsScheme _ hscheme] at hsurvive
    simp only [EStateM.Result.ok.injEq, Prod.mk.injEq] at hsurvive
    exact congrArg MessageArgs.args hsurvive.1.2
  have hcheck : checkArgScheme (Message.argsScheme RES)
      (ResponseFragmenter.new service code margs).createResponseFields = .ok margs.argScheme := by
    rw [checkArgScheme, hscheme, codec_ok_bind, if_neg]
    · rfl
    · rw [LawfulMessage.argScheme_tryInto m margs hm]
      exact fun hne => hne rfl
  have hrun := hread _ _ hcheck
  rw [hargs] at hrun
  show EStateM.bind (Defragmenter.readAndCheck .callResponse CallResponse.decode
    (checkArgScheme (Message.argsScheme RES))) _ _ = _
  unfold EStateM.bind
  rw [show Defragmenter.readAndCheck _ _ _ _ = _ from hrun]
  show EStateM.bind (Recv.liftCodec (Message.tryFrom margs)) _ _ = _
  rw [LawfulMessage.tryFrom_tryInto m margs hm]
  rfl

theorem receiveFrom_eq (hm : Message.tryInto m = .ok margs)
    (h : (ResponseFragmenter.new service code margs).createFrames it = .ok frames)
    (hsurvive : ArgsSurvive frames id closed margs) :
    SubChannel.receiveFrom RES ⟨frames.map (TFrameId.mk id), closed⟩ =
      some (SubChannel.received (.ok (code, m))) := by
  rw [SubChannel.receiveFrom, readResponseMsg_eq hm h hsurvive]

end

/-- `convert` answers a message and an error message alike. -/
theorem convert_eq_ok {RES : Type} [Message RES] {m : RES} {r : HandlerResult RES}
    (hr : r = .ok m ∨ r = .error (.messageError m)) {code : ResponseCode} {margs : MessageArgs}
    (h : convert r = .ok (code, margs)) : code = .ok ∧ Message.tryInto m = .ok margs := by
  have h : (do return (ResponseCode.ok, ← liftCodec (Message.tryInto m)) : MessageArgsResponse) =
      .ok (code, margs) := by
    rcases hr with rfl | rfl <;> exact h
  obtain ⟨a, ha, heq⟩ := except_bind_eq_ok.1 h
  obtain ⟨rfl, rfl⟩ := Prod.mk.inj (Except.ok.inj heq)
  exact ⟨rfl, liftCodec_eq_ok.1 ha⟩

/-- The result of a handler that answers with a message reaches the caller, through the frames of a
response whose args survive fragmentation, exactly if it is no error message. -/
theorem result_arrives_iff {REQ RES : Type} [Message REQ] [Message RES] [LawfulMessage RES]
    (handler : RequestHandler REQ RES) {requestArgs : MessageArgs} {request : REQ}
    (hrequest : Message.tryFrom requestArgs = .ok request) {m : RES}
    (hresult : handler request = .ok m ∨ handler request = .error (.messageError m))
    {code : ResponseCode} {margs : MessageArgs}
    (hadapter : RequestHandlerAdapter.handle handler requestArgs = .ok (code, margs) ∨
      RequestHandlerAsyncAdapter.handle handler requestArgs = .ok (code, margs))
    {service : String} {it : Iter (ResponseFragmenter.new service code margs).createResponseFields.headers}
    {frames : List TFrame} (hframes : (ResponseFragmenter.new service code margs).createFrames it = .ok frames)
    {id : UInt32} {closed : Bool} (hsurvive : ArgsSurvive frames id closed margs) :
    SubChannel.receiveFrom RES ⟨frames.map (TFrameId.mk id), closed⟩ = some (handler request) ↔
      handler request = .ok m := by
  have hconvert : convert (handler request) = .ok (code, margs) := by
    have h : RequestHandlerAdapter.handle handler requestArgs = .ok (code, margs) := by
      rcases hadapter with h | h <;> exact h
    rw [RequestHandlerAdapter.handle, hrequest] at h
    exact h
  obtain ⟨rfl, hm⟩ := convert_eq_ok hresult hconvert
  rw [receiveFrom_eq hm hframes hsurvive]
  show some (.ok m : HandlerResult RES) = some (handler request) ↔ _
  rw [Option.some.injEq]
  exact eq_comm

theorem small_response (code : ResponseCode) :
    ∃ frames, (ResponseFragmenter.new "s" code ⟨.raw, [[101], [], []]⟩).createFrames
        (Fragmenter.new "s" ⟨.raw, [[101], [], []]⟩).headersIter = .ok frames ∧
      ArgsSurvive frames 1 false ⟨.raw, [[101], [], []]⟩ := by
  have hback : ResponseComesBack "s" code .raw [[101], [], []]
      (Fragmenter.new "s" ⟨.raw, [[101], [], []]⟩).headersIter 1 false :=
    (response_round_trip_iff (by decide) (by decide) (by decide) _ 1 false).2 (.inr (by decide))
  obtain ⟨frames, hframes⟩ : ∃ frames, (ResponseFragmenter.new "s" code ⟨.raw, [[101], [], []]⟩).createFrames
      (Fragmenter.new "s" ⟨.raw, [[101], [], []]⟩).headersIter = .ok frames :=
    (ResponseFragmenter.createFrames_ok_iff (by decide) (by decide) (by decide) _).2 (by decide)
  obtain ⟨fields, rest, hread, -⟩ := hback frames hframes
  exact ⟨frames, hframes, fields, rest, hread⟩

theorem ok_result_arrives :
    ∃ frames : List TFrame, SubChannel.receiveFrom RawMessage ⟨frames.map (TFrameId.mk 1), false⟩ =
      some (.ok ⟨"e", "", []⟩) := by
  obtain ⟨frames, hframes, hsurvive⟩ := small_response .ok
  have hrequest : Message.tryFrom ⟨.raw, [[101], [], []]⟩ = .ok (RawMessage.mk "e" "" []) := rfl
  have hadapter : RequestHandlerAdapter.handle (Except.ok : RequestHandler RawMessage RawMessage)
      ⟨.raw, [[101], [], []]⟩ = .ok (.ok, ⟨.raw, [[101], [], []]⟩) := rfl
  exact ⟨frames, (result_arrives_iff .ok hrequest (.inl rfl) (.inl hadapter) hframes hsurvive).2 rfl⟩

/-- An error message reaches the caller as a message. -/
theorem message_error_not_arrives :
    ¬ ∀ (REQ RES : Type) [Message REQ] [Message RES] [LawfulMessage RES] (handler : RequestHandler REQ RES)
      (requestArgs : MessageArgs) (request : REQ) (m : RES), Message.tryFrom requestArgs = .ok request →
      handler request = .ok m ∨ handler request = .error (.messageError m) → ∀ code margs,
      RequestHandlerAdapter.handle handler requestArgs = .ok (code, margs) → ∀ service it frames,
      (ResponseFragmenter.new service code margs).createFrames it = .ok frames → ∀ id closed,
      ArgsSurvive frames id closed margs →
      SubChannel.receiveFrom RES ⟨frames.map (TFrameId.mk id), closed⟩ = some (handler request) := by
  intro h
  obtain ⟨frames, hframes, hsurvive⟩ := small_response .ok
  have hm : Message.tryInto (RawMessage.mk "e" "" []) = .ok ⟨.raw, [[101], [], []]⟩ := rfl
  have harrives := h RawMessage RawMessage (fun m => .error (.messageError m)) ⟨.raw, [[101], [], []]⟩
    ⟨"e", "", []⟩ ⟨"e", "", []⟩ rfl (.inr rfl) .ok _ rfl "s" _ frames hframes 1 false hsurvive
  rw [receiveFrom_eq hm hframes hsurvive] at harrives
  cases harrives

end Tchannel
