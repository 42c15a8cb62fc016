import Tchannel.OwnAnswers
import Tchannel.Responses
import Tchannel.RpcCalls

/-!
# A call returns what the handler made of its request

The layers put together: a typed request is cut into frames by its call, goes with the frames of other calls
over a connection, is read and handled by the server, and the response comes back the same way
(`RpcConnection.AnswerOf.responds`, `FrameHandler.respond_received`). In between, nothing but the cutting can change
it, where it leaves an arg changed (`Survives`), or where the response has no frames.
-/

namespace Tchannel
open Wire ArgsFragmenter Fragmenter

/-- A message of one to three args that survives being cut. -/
structure MessageArgs.Carried (margs : MessageArgs) (room : Int) : Prop where
  one : 1 ≤ margs.args.length
  three : margs.args.length ≤ 3
  short : ∀ a ∈ margs.args, a.length < 2147483648
  survives : Survives room margs.args

namespace FrameHandler

variable {self : FrameHandler} {order : (headers : HashMap String String) → Iter headers} {id : UInt32}
  {fields : CallRequestFields} {args : MessageArgs} {answer : List TFrameId}

/-- What a caller makes of the answer when the handler of its request is done with `result`. -/
theorem finish_received (RES : Type) [Message RES] [LawfulMessage RES] {result : HandlerResult RES}
    (hservice : (utf8 fields.service).length ≤ 255) (h : self.finish order id fields (convert result) = .ok answer) :
    ∃ m response, (result = .ok m ∨ result = .error (.messageError m)) ∧ Message.tryInto m = .ok response ∧
      (response.Carried (responseRoom fields.service response.argScheme) →
        SubChannel.receiveFrom RES ⟨answer, false⟩ = some
          (if ∃ p ∈ starts (responseRoom fields.service response.argScheme) (response.args.map List.length),
            Overdrawn p then .error (.internalError (.error "Expected 'CallResponse' got 'Error'"))
          else .ok m)) := by
  obtain ⟨⟨code, response⟩, hconvert, hframes⟩ := except_bind_eq_ok.1 h
  obtain ⟨m, hm⟩ : ∃ m, result = .ok m ∨ result = .error (.messageError m) := by
    cases result with
    | ok m => exact ⟨m, .inl rfl⟩
    | error err =>
      cases err with
      | messageError m => exact ⟨m, .inr rfl⟩
      | generalError msg => cases hconvert
      | internalError e => cases hconvert
  obtain ⟨rfl, hinto⟩ := convert_eq_ok hm hconvert
  refine ⟨m, response, hm, hinto, fun hcarried => ?_⟩
  have hok := ResponseFragmenter.createFrames_ok_iff hcarried.one hcarried.three hcarried.short
    (order (ResponseFragmenter.new fields.service .ok response).createResponseFields.headers)
  rcases responseFrames_eq_ok hframes with ⟨frames, hcut, rfl⟩ | ⟨⟨e, hcut⟩, frame, rfl, htype⟩
  · rw [if_neg (hok.1 ⟨frames, hcut⟩).2]
    have hback : ResponseComesBack fields.service .ok response.argScheme response.args (order _) id false :=
      (response_round_trip_iff hcarried.one hcarried.three hcarried.short _ id false).2 (.inr hcarried.survives)
    obtain ⟨fields', rest, hread, -⟩ := hback frames hcut
    exact receiveFrom_eq hinto hcut ⟨fields', rest, hread⟩
  · rw [if_pos, SubChannel.receiveFrom_error htype]
    by_contra hnot
    obtain ⟨frames, hframes⟩ := hok.2 ⟨hservice, hnot⟩
    rw [hcut] at hframes
    cases hframes

theorem respond_received {REQ : Type} (RES : Type) [Message REQ] [LawfulMessage REQ] [Message RES] [LawfulMessage RES]
    {request : REQ} (hargs : Message.tryInto request = .ok args)
    (hservice : (utf8 fields.service).length ≤ 255)
    (h : self.respond order id fields args = .ok answer) :
    ∃ registered, self.Registers fields.service args registered ∧
      ∀ f : RequestHandler REQ RES, registered.handle = RequestHandlerAdapter.handle f → ∃ m response,
        (f request = .ok m ∨ f request = .error (.messageError m)) ∧ Message.tryInto m = .ok response ∧
          (response.Carried (responseRoom fields.service response.argScheme) →
            SubChannel.receiveFrom RES ⟨answer, false⟩ = some
              (if ∃ p ∈ starts (responseRoom fields.service response.argScheme) (response.args.map List.length),
                Overdrawn p then .error (.internalError (.error "Expected 'CallResponse' got 'Error'"))
              else .ok m)) := by
  obtain ⟨registered, code, response, hregisters, hhandle, hframes⟩ := respond_eq_ok h
  refine ⟨registered, hregisters, fun f hf => ?_⟩
  rw [hf, RequestHandlerAdapter.handle, LawfulMessage.tryFrom_tryInto request args hargs] at hhandle
  have hconvert : convert (f request) = .ok (code, response) := hhandle
  have hfinish : self.finish order id fields (convert (f request)) = .ok answer := by
    rw [finish, hconvert]
    exact hframes
  exact finish_received RES hservice hfinish

end FrameHandler

/-- A request that survives being cut is read back, whatever its id. -/
theorem readPhase_createFrames {service : String} {margs : MessageArgs}
    {it : Iter (RequestFragmenter.new service margs).createFields.headers} {frames : List TFrame}
    (h : (RequestFragmenter.new service margs).createFrames it = .ok frames)
    (hcarried : margs.Carried (requestRoom service margs.argScheme)) (id : UInt32) :
    ∃ fields, readPhase (frames.map (TFrameId.mk id)) = .read (fields, margs) ∧ fields.service = service := by
  obtain ⟨scheme, args⟩ := margs
  have hback := (request_round_trip_iff hcarried.one hcarried.three hcarried.short it id false).2
    (.inr hcarried.survives)
  obtain ⟨fields, rest, hrun, hservice⟩ := hback frames h
  refine ⟨fields, ?_, hservice⟩
  rw [readPhase, hrun]

namespace RpcConnection

variable {cfg : RpcConfig} {call : ClientCall}

variable {task : Task} {answer : List TFrameId} {REQ RES : Type} [Message REQ] [Message RES] {subchannel : SubChannel}
  {order : (headers : HashMap String String) → Iter headers} {request : REQ} {margs : MessageArgs}

theorem AnswerOf.asSent (h : AnswerOf cfg call task answer)
    (hop : call.operation = .send (SubChannel.exchange RES subchannel order request))
    (hmargs : Message.tryInto request = .ok margs)
    (hcarried : margs.Carried (requestRoom subchannel.serviceName margs.argScheme)) :
    ∃ fields, task.phase = .answered (fields, margs) answer ∧ fields.service = subchannel.serviceName ∧
      (utf8 fields.service).length ≤ 255 := by
  obtain ⟨-, frames, ⟨fields, args⟩, hframes, hreceived, hread, hphase, -⟩ := h
  have hframes : subchannel.createFrames order request = .ok frames := by
    rw [hop] at hframes
    exact hframes
  obtain ⟨margs', hmargs', hcut⟩ := SubChannel.createFrames_eq_ok.1 hframes
  obtain rfl := Except.ok.inj (hmargs'.symm.trans hmargs)
  rw [hreceived] at hread
  obtain ⟨fields', hread', hservice⟩ := readPhase_createFrames hcut hcarried call.id
  obtain ⟨rfl, rfl⟩ := Prod.mk.inj (TaskPhase.read.inj (hread.symm.trans hread'))
  refine ⟨fields, hphase, hservice, ?_⟩
  rw [hservice]
  exact ((RequestFragmenter.encodedFields _).of_createFrames hcut).1

theorem AnswerOf.responds (h : AnswerOf cfg call task answer)
    (hop : call.operation = .send (SubChannel.exchange RES subchannel order request))
    (hmargs : Message.tryInto request = .ok margs)
    (hcarried : margs.Carried (requestRoom subchannel.serviceName margs.argScheme)) :
    ∃ handler order' fields, cfg.server.handlers handler ∧ fields.service = subchannel.serviceName ∧
      (utf8 fields.service).length ≤ 255 ∧ handler.respond order' call.id fields margs = .ok answer := by
  obtain ⟨fields, hphase, hservice, hlen⟩ := h.asSent hop hmargs hcarried
  obtain ⟨-, frames, request', -, -, -, hphase', handler, order', hhandler, hrespond⟩ := h
  obtain ⟨rfl, -⟩ := TaskPhase.answered.inj (hphase.symm.trans hphase')
  exact ⟨handler, order', fields, hhandler, hservice, hlen, hrespond⟩

end RpcConnection

end Tchannel
