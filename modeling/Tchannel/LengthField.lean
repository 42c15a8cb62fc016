import Tchannel.Confinement
import Tchannel.FrameStream

/-!
# The length field of the frames that are sent

The frame encoder writes a length that it computes in 16 bits without a check. `ProgramFrame` lists the frames
that the program hands to it: those of requests, those that answer a request, be they a response or an Error
frame, and those of the handshake and of pings. None of them is too long for the field.
-/

namespace Tchannel
open Wire ArgsFragmenter Fragmenter

/-! ### Handshake and ping -/

inductive InitHeaderKey where
  | tChannelLanguage

def InitHeaderKey.toString : InitHeaderKey → String
  | .tChannelLanguage => "tchannel_language"

/-- The frame of `init_handshake`. -/
def initHandshakeFrame (it : Iter Init.default.headers) : CodecResult TFrame := do
  return ⟨.initRequest, ← Init.default.encodeBytes it⟩

/-- What `send_init_res` answers. -/
def initRes : Init := ⟨protocolVersion, Finmap.insert InitHeaderKey.tChannelLanguage.toString "rust" ∅⟩

def initResFrame (it : Iter initRes.headers) : CodecResult TFrame := do
  return ⟨.initResponse, ← initRes.encodeBytes it⟩

/-- The frame of `ping`. -/
def pingFrame : TFrame := ⟨.pingRequest, []⟩

/-! ### Frames and their length -/

/-- A vector of byte strings, with lengths that a `usize` holds. -/
structure UsizeLengths (args : List Bytes) : Prop where
  count : args.length < 2 ^ 64
  each : ∀ a ∈ args, a.length < 2 ^ 64

theorem UsizeLengths.queueSize_lt {args : List Bytes} (h : UsizeLengths args) : queueSize args < 10 ^ 40 := by
  have hsum : (args.map List.length).sum ≤ args.length * 2 ^ 64 := by
    have := List.sum_le_card_nsmul (args.map List.length) (2 ^ 64) fun n hn => by
      obtain ⟨a, ha, rfl⟩ := List.mem_map.1 hn
      exact (h.each a ha).le
    rwa [List.length_map, nsmul_eq_mul, Nat.cast_id] at this
  have hmul : args.length * 2 ^ 64 ≤ 2 ^ 64 * 2 ^ 64 := Nat.mul_le_mul_right _ h.count.le
  have hcount := h.count
  unfold queueSize
  omega

/-- The frames that are handed to the encoder. -/
inductive ProgramFrame : TFrame → Prop
  | request {service margs it frames frame}
      (h : (RequestFragmenter.new service margs).createFrames it = .ok frames) (hmem : frame ∈ frames) :
      ProgramFrame frame
  | response {service code margs it frames frame}
      (h : (ResponseFragmenter.new service code margs).createFrames it = .ok frames) (hmem : frame ∈ frames) :
      ProgramFrame frame
  /-- A frame that `handle_input` returns for a request that it read. -/
  | reply {handler : FrameHandler} {order id input rest fields args frames} {frame : TFrameId}
      (hread : RequestDefragmenter.readRequest.run input = .ok (fields, args) rest)
      (hsize : ∀ subchannel code margs, handler.subchannels.lookup fields.service = some subchannel →
        subchannel.handle args = .ok (code, margs) → UsizeLengths margs.args)
      (h : (handler.handleInput order id).run input = .ok frames rest) (hmem : frame ∈ frames) :
      ProgramFrame frame.frame
  | initRequest {it frame} (h : initHandshakeFrame it = .ok frame) : ProgramFrame frame
  | initResponse {it frame} (h : initResFrame it = .ok frame) : ProgramFrame frame
  | ping : ProgramFrame pingFrame

/-- The cast and the addition of the length field are exact, and the two bytes that are written first tell how many
bytes are written. -/
structure LengthExact (frame : TFrame) : Prop where
  size : frame.size ≤ 65519
  cast : (UInt16.ofNat frame.size).toNat = frame.size
  add : frame.size + frameHeaderLength < 2 ^ 16
  written : ∀ id dst, ∃ bytes, TFrameIdCodec.encode ⟨id, frame⟩ dst = .ok (dst ++ bytes) ∧
    (TFrameIdCodec.lengthField frame).toNat = bytes.length ∧ getBE (bytes.take 2) = bytes.length

theorem lengthExact_of_size {frame : TFrame} (h : frame.size ≤ 65519) : LengthExact frame := by
  refine ⟨h, ?_, ?_, fun id dst => ⟨_, TFrameIdCodec.encode_eq _ dst, ?_, ?_⟩⟩
  · rw [UInt16.toNat_ofNat']
    omega
  · unfold frameHeaderLength
    omega
  · rw [TFrameIdCodec.lengthField_toNat h, TFrameIdCodec.wire_length]
  · have hread := TFrameIdCodec.getBE_wire (show (TFrameId.mk id frame).frame.size ≤ 65519 from h) []
    rwa [List.append_nil] at hread

/-! ### The frames of messages -/

theorem continuationFrames_size {t : FrameType} {queue : List Bytes} {frames : List TFrame}
    (h : continuationFrames t queue = .ok frames) : ∀ frame ∈ frames, frame.size ≤ maxPayload := by
  induction queue using continuation_induction generalizing frames with
  | nil =>
    rw [continuationFrames_nil] at h
    rw [← Except.ok.inj h]
    simp
  | next queue hq ih =>
    obtain ⟨payload, rest, hp, hr, rfl⟩ := (continuationFrames_eq_ok hq).1 h
    refine List.forall_mem_cons.2 ⟨?_, ih hr⟩
    show payload.length ≤ maxPayload
    rw [CallContinue.encodeBytes_length hp]
    exact (CallContinue.encodeBytes_eq_ok.1 hp).2.1

/-- Whatever the args: a frame that is too long is refused. -/
theorem createFrames_size {fragmenter : Fragmenter} {fields : CodecResult Bytes} {t ct : FrameType}
    {frames : List TFrame} (h : fragmenter.createFrames fields t ct = .ok frames) :
    ∀ frame ∈ frames, frame.size ≤ maxPayload := by
  obtain ⟨fb, -, h⟩ := except_bind_eq_ok.1 h
  obtain ⟨payload, hp, h⟩ := except_bind_eq_ok.1 h
  obtain ⟨rest, hr, h⟩ := except_bind_eq_ok.1 h
  rw [← Except.ok.inj h]
  refine List.forall_mem_cons.2 ⟨?_, continuationFrames_size hr⟩
  have hp := liftCodec_eq_ok.1 hp
  show payload.length ≤ maxPayload
  rw [CallWithFieldsEncoded.encodeBytes_length hp]
  exact (CallWithFieldsEncoded.encodeBytes_eq_ok.1 hp).2.1

theorem errorFrames_size {code : ErrorCode} {msg : String} {id : UInt32} {frames : List TFrameId}
    (hmsg : (utf8 msg).length ≤ 400) (h : FrameHandler.errorFrames code msg id = .ok frames) :
    ∀ frame ∈ frames, frame.frame.size ≤ maxPayload := by
  obtain ⟨frame, hframe, h⟩ := except_bind_eq_ok.1 h
  obtain ⟨payload, hp, heq⟩ := except_bind_eq_ok.1 (liftCodec_eq_ok.1 hframe)
  obtain ⟨-, rfl⟩ := ErrorMsg.encodeBytes_eq_ok.1 hp
  rw [← Except.ok.inj h, ← Except.ok.inj heq]
  refine List.forall_mem_singleton.2 ?_
  simp only [TFrame.size, List.length_append, List.length_singleton, Tracing.bytes_length, stringBytes_length,
    maxPayload, frameMaxLength, frameHeaderLength]
  omega

theorem respond_size {handler : FrameHandler} {order : (headers : HashMap String String) → Iter headers}
    {id : UInt32} {fields : CallRequestFields} {args : MessageArgs} {frames : List TFrameId}
    (hservice : (utf8 fields.service).length ≤ 255)
    (hsize : ∀ subchannel code margs, handler.subchannels.lookup fields.service = some subchannel →
      subchannel.handle args = .ok (code, margs) → UsizeLengths margs.args)
    (h : handler.respond order id fields args = .ok frames) :
    ∀ frame ∈ frames, frame.frame.size ≤ maxPayload := by
  obtain ⟨subchannel, hsub, h⟩ := except_bind_eq_ok.1 h
  obtain ⟨⟨code, margs⟩, hr, h⟩ := except_bind_eq_ok.1 h
  have hlookup : handler.subchannels.lookup fields.service = some subchannel := by
    unfold FrameHandler.getSubchannel at hsub
    split at hsub
    · rename_i hs
      rw [hs, Except.ok.inj hsub]
    · cases hsub
  cases hframes : (ResponseFragmenter.new fields.service code margs).createFrames (order _) with
  | ok response =>
    simp only [hframes] at h
    rw [← Except.ok.inj h]
    intro frame hmem
    obtain ⟨f, hf, rfl⟩ := List.mem_map.1 hmem
    exact createFrames_size hframes f hf
  | error e =>
    obtain ⟨ce, rfl, htext⟩ := FrameHandler.createFrames_error_text hservice (hsize _ _ _ hlookup hr).queueSize_lt hframes
    simp only [hframes] at h
    exact errorFrames_size htext h

theorem initFrame_size {t : FrameType} {init : Init} {it : Iter init.headers} {frame : TFrame}
    (h : (do return ⟨t, ← init.encodeBytes it⟩ : CodecResult TFrame) = .ok frame) :
    frame.size = 2 + headersLen 2 init.headers := by
  obtain ⟨payload, hp, heq⟩ := except_bind_eq_ok.1 h
  obtain ⟨-, rfl⟩ := encodeHeaderFields_eq_ok.1 hp
  rw [← Except.ok.inj heq]
  simp [TFrame.size, headerBytes_length]

/-- No frame that the program hands to the encoder is too long for its length field. -/
theorem program_frame_length_exact (frame : TFrame) (h : ProgramFrame frame) : LengthExact frame := by
  refine lengthExact_of_size (Nat.le_succ_of_le ?_)
  show frame.size ≤ maxPayload
  cases h with
  | request h hmem => exact createFrames_size h frame hmem
  | response h hmem => exact createFrames_size h frame hmem
  | @reply handler order id input rest fields args frames frame hread hsize h hmem =>
    rw [FrameHandler.handleInput_eq hread] at h
    cases hrespond : handler.respond order id fields args with
    | ok response =>
      rw [hrespond] at h
      injection h with h
      rw [← h] at hmem
      exact respond_size (readRequest_service hread) hsize hrespond frame hmem
    | error err =>
      rw [hrespond] at h
      cases h
  | initRequest h => exact (initFrame_size h).trans_le (by decide)
  | initResponse h => exact (initFrame_size h).trans_le (by decide)
  | ping => exact Nat.zero_le _

theorem small_request_length_exact :
    ∃ frames, (RequestFragmenter.new "service" ⟨.raw, [[1], [], [2, 3]]⟩).createFrames
        (Fragmenter.new "service" ⟨.raw, [[1], [], [2, 3]]⟩).headersIter = .ok frames ∧
      ∀ frame ∈ frames, LengthExact frame := by
  obtain ⟨frames, h⟩ := small_frames
  exact ⟨frames, h, fun frame hmem => program_frame_length_exact frame (.request h hmem)⟩

end Tchannel
