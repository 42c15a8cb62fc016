import Tchannel.FrameHandler
import Tchannel.MessageRoundTrip
import Mathlib.Data.Nat.Digits.Defs

/-!
# Which failures stay with their request

A request that was read is answered with response frames or with one Error frame exactly if its service
and endpoint are registered and the handler answers it with a message that can be converted
(`handle_replies_iff`). Of all later failures only those of fragmentation become an Error frame, and these
always do: their texts are short. Every other failure is returned by `handle` and ends the connection.
-/

namespace Tchannel
open Wire ArgsFragmenter Fragmenter

/-! ### The errors of fragmentation -/

/-- The two ways in which a frame is refused, with the number they mention. -/
def FrameError (n : Nat) (e : CodecError) : Prop :=
  e = .error s!"Wrong number of frame args {n}" ∨ e = .error s!"Frame too long: {n}"

theorem encodeArgs_eq_error {args : List (Option Bytes)} {dst : Bytes} {e : CodecError}
    (h : encodeArgs args dst = .error e) : FrameError args.length e ∨ FrameError (dst.length + chunksLen args) e := by
  have hlen : (dst ++ args.flatMap putArg).length = dst.length + chunksLen args := by
    simp [chunksLen, List.length_flatMap]
  unfold encodeArgs at h
  rw [foldl_putArg] at h
  split at h
  · exact .inl (.inl (Except.error.inj h).symm)
  · dsimp only at h
    split at h
    · rw [hlen] at h
      exact .inr (.inr (Except.error.inj h).symm)
    · cases h

theorem length_le_chunksLen (chunks : List (Option Bytes)) : chunks.length ≤ chunksLen chunks := by
  induction chunks with
  | nil => simp
  | cons c cs ih =>
    rw [List.length_cons, chunksLen_cons]
    omega

theorem plainArgs_encode_eq_error {chunks : List (Option Bytes)} {dst : Bytes} {e : CodecError}
    (h : (plainArgs chunks).encode dst = .error e) : ∃ n ≤ dst.length + 1 + chunksLen chunks, FrameError n e := by
  have hcount := length_le_chunksLen chunks
  have h : encodeArgs chunks (dst ++ [0x00]) = .error e := h
  rcases encodeArgs_eq_error h with h | h
  · exact ⟨_, by omega, h⟩
  · exact ⟨_, by simp, h⟩

theorem chunksLen_nextFrameArgsVec (queue : List Bytes) (room : Int) :
    chunksLen (ArgsFragmenter.nextFrameArgsVec queue room).1 ≤ 2 * queueSize queue := by
  induction queue generalizing room with
  | nil => simp [ArgsFragmenter.nextFrameArgsVec]
  | cons arg queue ih =>
    rw [queueSize_cons]
    rcases nextFrameArgsVec_cons arg queue (rfl : asI32 (room - argLenLen) = _) with
      ⟨-, heq⟩ | ⟨-, -, heq⟩ | ⟨-, -, heq⟩ | ⟨-, -, -, heq⟩ | ⟨-, -, -, heq⟩ <;>
      simp only [heq, chunksLen_cons, chunksLen_nil, argLen_chunk, argLen_none, argLen_some, List.length_take]
    · have := ih (asI32 (room - argLenLen))
      omega
    · omega
    · omega
    · omega
    · have := ih (asI32 (asI32 (room - argLenLen) - asI32 arg.length))
      omega

theorem continuationFrames_eq_error {t : FrameType} {queue : List Bytes} {e : TChannelError}
    (h : continuationFrames t queue = .error e) :
    ∃ n ≤ 2 + 2 * queueSize queue, ∃ ce, e = .codecError ce ∧ FrameError n ce := by
  induction queue using continuation_induction with
  | nil =>
    rw [continuationFrames_nil] at h
    cases h
  | next queue hq ih =>
    rw [continuationFrames_ne hq] at h
    have hsize := continuation_size_lt hq
    have hchunks := chunksLen_nextFrameArgsVec queue continuationRoom
    simp only at h
    cases henc : (CallContinue.mk
        (currentFrameFlag (ArgsFragmenter.nextFrameArgsVec queue continuationRoom).2)
        (plainArgs (ArgsFragmenter.nextFrameArgsVec queue continuationRoom).1)).encodeBytes with
    | error ce =>
      rw [henc] at h
      obtain ⟨k, hk, hce⟩ := plainArgs_encode_eq_error henc
      simp only [List.nil_append, List.length_singleton] at hk
      exact ⟨k, by omega, ce, (Except.error.inj h).symm, hce⟩
    | ok payload =>
      rw [henc, liftCodec_ok] at h
      cases hrest : continuationFrames t (ArgsFragmenter.nextFrameArgsVec queue continuationRoom).2 with
      | error e' =>
        rw [hrest] at h
        obtain rfl : e' = e := Except.error.inj h
        obtain ⟨k, hk, ce, he, hce⟩ := ih hrest
        exact ⟨k, by omega, ce, he, hce⟩
      | ok frames =>
        rw [hrest] at h
        cases h

/-- A message whose fields are encoded fails to be cut only with a frame that is refused. -/
theorem createFrames_eq_error {fragmenter : Fragmenter} {fb : Bytes} {t ct : FrameType} {e : TChannelError}
    (hfb : fb.length ≤ 65516) (h : fragmenter.createFrames (.ok fb) t ct = .error e) :
    ∃ n ≤ 65520 + 2 * queueSize fragmenter.argsFragmenter.args, ∃ ce, e = .codecError ce ∧ FrameError n ce := by
  have hargs := nextFrameArgs_eq hfb fragmenter.argsFragmenter.args
  have hchunks := chunksLen_nextFrameArgsVec fragmenter.argsFragmenter.args (continuationRoom - fb.length)
  have hsize := nextFrameArgsVec_size_le fragmenter.argsFragmenter.args (continuationRoom - fb.length)
  unfold createFrames at h
  rw [liftCodec_ok] at h
  simp only [bind, Except.bind, hargs] at h
  cases henc : (CallWithFieldsEncoded.mk
      (currentFrameFlag (ArgsFragmenter.nextFrameArgsVec fragmenter.argsFragmenter.args
        (continuationRoom - fb.length)).2) fb
      (plainArgs (ArgsFragmenter.nextFrameArgsVec fragmenter.argsFragmenter.args
        (continuationRoom - fb.length)).1)).encodeBytes with
  | error ce =>
    rw [henc] at h
    obtain ⟨k, hk, hce⟩ := plainArgs_encode_eq_error henc
    simp only [List.nil_append, List.length_append, List.length_singleton] at hk
    exact ⟨k, by omega, ce, (Except.error.inj h).symm, hce⟩
  | ok payload =>
    rw [henc, liftCodec_ok] at h
    cases hrest : continuationFrames ct (ArgsFragmenter.nextFrameArgsVec fragmenter.argsFragmenter.args
        (continuationRoom - fb.length)).2 with
    | error e' =>
      rw [hrest] at h
      obtain rfl : e' = e := Except.error.inj h
      obtain ⟨k, hk, ce, he, hce⟩ := continuationFrames_eq_error hrest
      exact ⟨k, by omega, ce, he, hce⟩
    | ok frames =>
      rw [hrest] at h
      cases h

/-- The text of such an error is short, unless the number is beyond anything that can be counted. -/
theorem frameError_text_short {n : Nat} {e : CodecError} (h : FrameError n e) (hn : n < 10 ^ 50) :
    (utf8 e.toString).length ≤ 400 := by
  have hdigits : n.repr.length ≤ 50 := Nat.repr_length n 50 (by decide) hn
  have htext : e.toString.length ≤ 100 := by
    rcases h with rfl | rfl
    · show ("Codec error: " ++ ("Wrong number of frame args " ++ n.repr)).length ≤ 100
      simp only [String.length_append]
      have : "Codec error: ".length = 13 := by decide
      have : "Wrong number of frame args ".length = 27 := by decide
      omega
    · show ("Codec error: " ++ ("Frame too long: " ++ n.repr)).length ≤ 100
      simp only [String.length_append]
      have : "Codec error: ".length = 13 := by decide
      have : "Frame too long: ".length = 16 := by decide
      omega
  have := utf8_length_le e.toString
  omega

/-! ### A request that was read -/

theorem decodeStringField_length {w : Nat} {b b' : Bytes} {s : String}
    (h : (decodeStringField w).run b = .ok s b') : (utf8 s).length < 256 ^ w := by
  obtain ⟨len, b₁, hlen, h⟩ := Cursor.bind_eq_ok.1 h
  obtain ⟨bytes, b₂, hbytes, h⟩ := Cursor.bind_eq_ok.1 h
  have hw : w ≤ b.length := by
    by_contra hw
    rw [Cursor.getUInt_of_lt (Nat.lt_of_not_le hw)] at hlen
    cases hlen
  have hlt := getBE_lt (b.take w)
  rw [List.length_take, Nat.min_eq_left hw] at hlt
  rw [Cursor.getUInt_of_le hw] at hlen
  obtain ⟨rfl, rfl⟩ : getBE (b.take w) = len ∧ b.drop w = b₁ := by simpa using hlen
  have htake : getBE (b.take w) ≤ (b.drop w).length := by
    by_contra htake
    rw [Cursor.take_of_lt (Nat.lt_of_not_le htake)] at hbytes
    cases hbytes
  rw [Cursor.take_of_le htake] at hbytes
  obtain ⟨rfl, rfl⟩ : (b.drop w).take (getBE (b.take w)) = bytes ∧ _ = b₂ := by simpa using hbytes
  cases hs : fromUtf8 ((b.drop w).take (getBE (b.take w))) with
  | none =>
    rw [hs] at h
    cases h
  | some s' =>
    rw [hs] at h
    obtain ⟨rfl, -⟩ : s' = s ∧ _ := by simpa [Cursor.ofOption] using h
    rw [utf8_of_fromUtf8 hs, List.length_take]
    omega

theorem CallRequestFields.decode_service {b b' : Bytes} {fields : CallRequestFields}
    (h : CallRequestFields.decode.run b = .ok fields b') : (utf8 fields.service).length ≤ 255 := by
  obtain ⟨ttl, b₁, -, h⟩ := Cursor.bind_eq_ok.1 h
  obtain ⟨tracing, b₂, -, h⟩ := Cursor.bind_eq_ok.1 h
  obtain ⟨service, b₃, hservice, h⟩ := Cursor.bind_eq_ok.1 h
  obtain ⟨headers, b₄, -, h⟩ := Cursor.bind_eq_ok.1 h
  obtain ⟨rfl, -⟩ : CallRequestFields.mk ttl tracing service headers = fields ∧ b₄ = b' := by simpa using h
  have := decodeStringField_length hservice
  show (utf8 service).length ≤ 255
  omega

theorem CallRequest.decode_service {b b' : Bytes} {call : CallRequest}
    (h : CallRequest.decode.run b = .ok call b') : (utf8 call.fields.service).length ≤ 255 := by
  obtain ⟨byte, b₁, -, h⟩ := Cursor.bind_eq_ok.1 h
  obtain ⟨flags, b₂, -, h⟩ := Cursor.bind_eq_ok.1 h
  obtain ⟨fields, b₃, hfields, h⟩ := Cursor.bind_eq_ok.1 h
  obtain ⟨args, b₄, -, h⟩ := Cursor.bind_eq_ok.1 h
  obtain ⟨rfl, -⟩ : CallRequest.mk flags fields args = call ∧ b₄ = b' := by simpa using h
  exact CallRequestFields.decode_service hfields

namespace Defragmenter

theorem readAndCheck_fields {C F : Type} [Call C F] {t : FrameType} {decode : Cursor CodecError C}
    {checkFields : F → CodecResult ArgSchemeValue} {input rest : FrameInput} {fields : F} {margs : MessageArgs}
    (h : (readAndCheck t decode checkFields).run input = .ok (fields, margs) rest) :
    ∃ (payload b : Bytes) (call : C), decode.run payload = .ok call b ∧ Call.fields call = fields := by
  obtain ⟨first, -, call, -, -, -, ⟨-, hcall, -⟩, -, hfields, -⟩ := readAndCheck_eq_ok.1 h
  obtain ⟨rest, hdecode⟩ := decodePayload_eq_ok.1 hcall
  exact ⟨first.frame.payload, rest, call, hdecode, hfields.symm⟩

end Defragmenter

theorem readRequest_service {input rest : FrameInput} {fields : CallRequestFields} {margs : MessageArgs}
    (h : RequestDefragmenter.readRequest.run input = .ok (fields, margs) rest) :
    (utf8 fields.service).length ≤ 255 := by
  obtain ⟨payload, b, call, hdecode, rfl⟩ := Defragmenter.readAndCheck_fields h
  exact CallRequest.decode_service hdecode

/-! ### The reply -/

/-- The handler takes the request and gives a message, as its result or as its error, that can be
converted. -/
def MessageArgsHandler.Answers (self : MessageArgsHandler) (args : MessageArgs) : Prop :=
  ∃ (REQ RES : Type) (_ : Message REQ) (_ : Message RES) (handler : RequestHandler REQ RES),
    self.handle = RequestHandlerAdapter.handle handler ∧ ∃ request message margs,
      Message.tryFrom args = .ok request ∧
      (handler request = .ok message ∨ handler request = .error (.messageError message)) ∧
      Message.tryInto message = .ok margs

theorem MessageArgsHandler.answers_iff {self : MessageArgsHandler} {args : MessageArgs} :
    self.Answers args ↔ ∃ r, self.handle args = .ok r := by
  constructor
  · rintro ⟨REQ, RES, _, _, handler, heq, request, message, margs, hrequest, hresult, hmessage⟩
    refine ⟨(.ok, margs), ?_⟩
    rw [heq, RequestHandlerAdapter.handle, hrequest]
    show convert (handler request) = _
    rcases hresult with hresult | hresult <;> simp only [hresult, convert, hmessage] <;> rfl
  · rintro ⟨r, hr⟩
    obtain ⟨REQ, RES, _, _, handler, heq⟩ := self.adapts
    rw [heq, RequestHandlerAdapter.handle] at hr
    obtain ⟨request, hrequest, hr⟩ := except_bind_eq_ok.1 hr
    have hmessage : ∀ message : RES,
        (do return (ResponseCode.ok, ← liftCodec (Message.tryInto message)) : MessageArgsResponse) = .ok r →
        ∃ margs, Message.tryInto message = .ok margs := by
      intro message h
      obtain ⟨margs, hmargs, -⟩ := except_bind_eq_ok.1 h
      exact ⟨margs, liftCodec_eq_ok.1 hmargs⟩
    refine ⟨REQ, RES, _, _, handler, heq, request, ?_⟩
    unfold convert at hr
    cases hres : handler request with
    | ok message =>
      rw [hres] at hr
      obtain ⟨margs, hmargs⟩ := hmessage message hr
      exact ⟨message, margs, liftCodec_eq_ok.1 hrequest, .inl rfl, hmargs⟩
    | error err =>
      rw [hres] at hr
      cases err with
      | messageError message =>
        obtain ⟨margs, hmargs⟩ := hmessage message hr
        exact ⟨message, margs, liftCodec_eq_ok.1 hrequest, .inr rfl, hmargs⟩
      | generalError msg => cases hr
      | internalError e => cases hr

namespace FrameHandler

variable {self : FrameHandler} {order : (headers : HashMap String String) → Iter headers} {id : UInt32}
  {fields : CallRequestFields} {args : MessageArgs}

/-- The service and the endpoint of a request are registered, and the handler answers it. -/
def Answerable (self : FrameHandler) (fields : CallRequestFields) (args : MessageArgs) : Prop :=
  ∃ subchannel endpoint handler, self.subchannels.lookup fields.service = some subchannel ∧
    SubChannel.readEndpointName args = .ok endpoint ∧ subchannel.handlers.lookup endpoint = some handler ∧
    handler.Answers args

theorem answerable_iff :
    self.Answerable fields args ↔ ∃ subchannel r, self.subchannels.lookup fields.service = some subchannel ∧
      subchannel.handle args = .ok r := by
  constructor
  · rintro ⟨subchannel, endpoint, handler, hsub, hend, hhandler, hanswers⟩
    obtain ⟨r, hr⟩ := MessageArgsHandler.answers_iff.1 hanswers
    refine ⟨subchannel, r, hsub, ?_⟩
    simp only [SubChannel.handle, SubChannel.getHandler, hend, hhandler, liftCodec_ok, bind, Except.bind]
    exact hr
  · rintro ⟨subchannel, r, hsub, hr⟩
    obtain ⟨endpoint, hend, hr⟩ := except_bind_eq_ok.1 hr
    obtain ⟨handler, hhandler, hr⟩ := except_bind_eq_ok.1 hr
    refine ⟨subchannel, endpoint, handler, hsub, liftCodec_eq_ok.1 hend, ?_,
      MessageArgsHandler.answers_iff.2 ⟨r, hr⟩⟩
    unfold SubChannel.getHandler at hhandler
    split at hhandler
    · rename_i h
      rw [h, Except.ok.inj hhandler]
    · cases hhandler

theorem toErrorFrame_eq_ok {code : ErrorCode} {msg : String} (h : (utf8 msg).length < 256 ^ 2) :
    ∃ frame, toErrorFrame code msg id = .ok ⟨id, frame⟩ ∧ frame.frameType = .error := by
  obtain ⟨b, hb⟩ : ∃ b, (ErrorMsg.mk code Tracing.default msg).encodeBytes = .ok b :=
    ⟨_, ErrorMsg.encodeBytes_eq_ok.2 ⟨h, rfl⟩⟩
  refine ⟨⟨.error, b⟩, ?_, rfl⟩
  rw [toErrorFrame]
  simp only [hb]
  rfl

/-- The request `id` was answered: with the frames of the handler's response, or with one Error frame. -/
structure Replies (handler : FrameHandler) (order : (headers : HashMap String String) → Iter headers)
    (id : UInt32) (fields : CallRequestFields) (args : MessageArgs)
    (outcome : Except Stop Unit × List TFrameId) : Prop where
  returns : outcome.1 = .ok ()
  ids : ∀ f ∈ outcome.2, f.id = id
  frames : (∃ subchannel code margs frames, handler.subchannels.lookup fields.service = some subchannel ∧
      subchannel.handle args = .ok (code, margs) ∧
      (ResponseFragmenter.new fields.service code margs).createFrames (order _) = .ok frames ∧
      outcome.2 = frames.map (TFrameId.mk id)) ∨
    ∃ frame, outcome.2 = [⟨id, frame⟩] ∧ frame.frameType = .error

/-- A response to a service name that was received fails to be cut only with a refused frame. -/
theorem createFrames_error_text {code : ResponseCode} {margs : MessageArgs} {e : TChannelError}
    (hservice : (utf8 fields.service).length ≤ 255) (hsize : queueSize margs.args < 10 ^ 40)
    (h : (ResponseFragmenter.new fields.service code margs).createFrames (order _) = .error e) :
    ∃ ce : CodecError, e = .codecError ce ∧ (utf8 ce.toString).length ≤ 400 := by
  obtain ⟨fb, hfb, -, hle⟩ := (ResponseFragmenter.encodedFields
    (order (ResponseFragmenter.new fields.service code margs).createResponseFields.headers)).small hservice
  rw [ResponseFragmenter.createFrames, hfb] at h
  obtain ⟨n, hn, ce, he, hce⟩ := createFrames_eq_error (by omega) h
  have hn : n ≤ 65520 + 2 * queueSize margs.args := hn
  exact ⟨ce, he, frameError_text_short hce (by omega)⟩

theorem handleInput_eq {input rest : FrameInput}
    (hread : RequestDefragmenter.readRequest.run input = .ok (fields, args) rest) :
    (self.handleInput order id).run input =
      match self.respond order id fields args with
      | .ok frames => EStateM.Result.ok frames rest
      | .error err => .error (.err err) rest := by
  show EStateM.bind RequestDefragmenter.readRequest _ input = _
  unfold EStateM.bind
  rw [show RequestDefragmenter.readRequest input = _ from hread]
  cases hrespond : self.respond order id fields args <;> simp only [hrespond] <;> rfl

theorem handle_eq {input rest : FrameInput}
    (hread : RequestDefragmenter.readRequest.run input = .ok (fields, args) rest) :
    self.handle order id input =
      match self.respond order id fields args with
      | .ok frames => (.ok (), frames)
      | .error err => (.error (.err err), []) := by
  rw [handle, handleInput_eq hread]
  cases self.respond order id fields args <;> rfl

/-- Handling a request that was read ends in a reply exactly if the request is answerable. -/
theorem handle_replies_iff (self : FrameHandler) (order : (headers : HashMap String String) → Iter headers)
    (id : UInt32) (input rest : FrameInput) (fields : CallRequestFields) (args : MessageArgs)
    (hread : RequestDefragmenter.readRequest.run input = .ok (fields, args) rest)
    (hsize : ∀ subchannel code margs, self.subchannels.lookup fields.service = some subchannel →
      subchannel.handle args = .ok (code, margs) → queueSize margs.args < 2 ^ 64) :
    Replies self order id fields args (self.handle order id input) ↔ self.Answerable fields args := by
  rw [handle_eq hread]
  constructor
  · intro hreplies
    cases hrespond : self.respond order id fields args with
    | error err =>
      have := hreplies.returns
      rw [hrespond] at this
      cases this
    | ok frames =>
      obtain ⟨subchannel, hsub, h⟩ := except_bind_eq_ok.1 hrespond
      obtain ⟨r, hr, -⟩ := except_bind_eq_ok.1 h
      refine answerable_iff.2 ⟨subchannel, r, ?_, hr⟩
      unfold getSubchannel at hsub
      split at hsub
      · rename_i h
        rw [h, Except.ok.inj hsub]
      · cases hsub
  · intro hanswerable
    obtain ⟨subchannel, ⟨code, margs⟩, hsub, hr⟩ := answerable_iff.1 hanswerable
    have hrespond : self.respond order id fields args =
        self.responseFrames id ((ResponseFragmenter.new fields.service code margs).createFrames (order _)) := by
      simp only [respond, getSubchannel, hsub, bind, Except.bind, hr]
    rw [hrespond]
    cases hframes : (ResponseFragmenter.new fields.service code margs).createFrames (order _) with
    | ok frames =>
      exact ⟨rfl, by simp [responseFrames], .inl ⟨subchannel, code, margs, frames, hsub, hr, hframes, rfl⟩⟩
    | error e =>
      obtain ⟨ce, rfl, hce⟩ := createFrames_error_text (readRequest_service hread)
        ((hsize subchannel code margs hsub hr).trans (by decide)) hframes
      obtain ⟨frame, hframe, htype⟩ : ∃ frame, toErrorFrame .unexpectedError ce.toString id = .ok ⟨id, frame⟩ ∧
          frame.frameType = .error := toErrorFrame_eq_ok (by omega)
      have herror : self.responseFrames id (.error (.codecError ce)) = .ok [⟨id, frame⟩] := by
        show errorFrames .unexpectedError ce.toString id = _
        rw [errorFrames, hframe]
        rfl
      rw [herror]
      exact ⟨rfl, by simp, .inr ⟨frame, rfl, htype⟩⟩

theorem small_request : ∃ input rest fields,
    RequestDefragmenter.readRequest.run input = .ok (fields, ⟨.raw, [[101], [], []]⟩) rest ∧
      fields.service = "s" := by
  have hback : RequestComesBack "s" .raw [[101], [], []]
      (Fragmenter.new "s" ⟨.raw, [[101], [], []]⟩).headersIter 1 false :=
    (request_round_trip_iff (by decide) (by decide) (by decide) _ 1 false).2 (.inr (by decide))
  obtain ⟨frames, hframes⟩ : ∃ frames, (RequestFragmenter.new "s" ⟨.raw, [[101], [], []]⟩).createFrames
      (Fragmenter.new "s" ⟨.raw, [[101], [], []]⟩).headersIter = .ok frames :=
    (RequestFragmenter.createFrames_ok_iff (by decide) (by decide) (by decide) _).2 (by decide)
  obtain ⟨fields, rest, hread, hservice⟩ := hback frames hframes
  exact ⟨_, rest, fields, hread, hservice⟩

/-- The service "s" with its endpoint "e", which sends every request back. -/
def echoSubChannel : SubChannel where
  serviceName := "s"
  handlers := Finmap.singleton "e" ⟨RequestHandlerAdapter.handle (Except.ok : RequestHandler RawMessage RawMessage),
    RawMessage, RawMessage, _, _, .ok, rfl⟩

def echoServer : FrameHandler where
  subchannels := Finmap.singleton "s" echoSubChannel
  debugErrorMsg := fun msg => msg.message

theorem echoServer_replies : ∃ order input fields,
    Replies echoServer order 1 fields ⟨.raw, [[101], [], []]⟩ (echoServer.handle order 1 input) := by
  obtain ⟨input, rest, fields, hread, hservice⟩ := small_request
  refine ⟨fun headers => ⟨headers.entries.toList, Multiset.coe_toList _⟩, input, fields,
    (handle_replies_iff echoServer _ 1 input rest fields _ hread ?_).2 ?_⟩
  · intro subchannel code margs hsub hr
    rw [hservice] at hsub
    obtain rfl := Option.some.inj hsub
    have hr' : (.ok (.ok, ⟨.raw, [[101], [], []]⟩) : MessageArgsResponse) = .ok (code, margs) := hr
    obtain ⟨rfl, rfl⟩ := Prod.mk.inj (Except.ok.inj hr')
    decide
  · refine answerable_iff.2 ⟨echoSubChannel, (.ok, ⟨.raw, [[101], [], []]⟩), ?_, ?_⟩
    · rw [hservice]
      rfl
    · rfl

/-- A request to a service that is not registered gets no reply. -/
theorem unknown_service_no_reply :
    ¬ ∀ (handler : FrameHandler) (order : (headers : HashMap String String) → Iter headers) (id : UInt32)
      (input rest : FrameInput) (fields : CallRequestFields) (args : MessageArgs),
      RequestDefragmenter.readRequest.run input = .ok (fields, args) rest →
      Replies handler order id fields args (handler.handle order id input) := by
  intro h
  obtain ⟨input, rest, fields, hread, -⟩ := small_request
  have hreplies := h ⟨∅, fun msg => msg.message⟩
    (fun headers => ⟨headers.entries.toList, Multiset.coe_toList _⟩) 1 input rest fields _ hread
  have hreturns := hreplies.returns
  rw [handle_eq hread] at hreturns
  cases hreturns

end FrameHandler

end Tchannel
