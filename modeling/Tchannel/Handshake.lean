import Tchannel.ClientConnection
import Tchannel.HostileStreams
import Tchannel.LengthField
import Tchannel.Reencoding

/-!
# The handshake

`verify`, `init_handshake` and `ping` of `connection/pool.rs`, and `handle_init_handshake` of `server.rs`. The
client sends an Init frame and looks at the one frame that comes back; the server looks at the first frame of
the stream and answers it if it is an Init frame. Either side accepts exactly the Init frames of its own
protocol version, with any headers and any bytes behind them (`verifyInit_eq_ok`), so that the two agree
whatever the order of the headers is and wherever the streams are cut (`handshake_agrees`).

Connecting a socket, and the errors of reading and writing it, are not part of this.
-/

namespace Tchannel
open Wire Wire.Cursor

/-- The `?` on a payload that is decoded, in a function that returns a `ConnectionResult`. -/
def decodeInto {α : Type} (decode : Cursor CodecError α) (payload : Bytes) : Except (Fault ConnectionError) α :=
  match decode.run payload with
  | .ok a _ => .ok a
  | .error (.err e) _ => .error (.err (.frameError e))
  | .error .panic _ => .error .panic

/-- An Init frame of the type `expected` is checked for its version. -/
def verifyInit (expected : FrameType) (frameId : TFrameId) : Except (Fault ConnectionError) Unit :=
  if frameId.frame.frameType = expected then do
    let init ← decodeInto Init.decode frameId.frame.payload
    if init.version = protocolVersion then
      return ()
    else
      .error (.err (.error s!"Unsupported protocol version: {init.version} "))
  else if frameId.frame.frameType = .error then do
    let error ← decodeInto ErrorMsg.decode frameId.frame.payload
    .error (.err (.messageErrorId error frameId.id))
  else
    .error (.err (.unexpectedResponseError frameId.frame.frameType))

/-- What `verify` makes of the frame that came back. -/
def verify (frameId : TFrameId) : Except (Fault ConnectionError) Unit := verifyInit .initResponse frameId

/-- `framed_read.next()` on a stream that comes in `chunks` and then ends. -/
def TFrameIdCodec.next (chunks : List Bytes) : Option (Except (Fault CodecError) TFrameId) :=
  match feed chunks [] with
  | (item :: _, _) => some item
  | ([], []) => none
  | ([], _ :: _) => some (.error (.err (.ioError ⟨"bytes remaining on stream"⟩)))

namespace Server

def checkInitReq (frameId : TFrameId) : Except (Fault ConnectionError) Unit := verifyInit .initRequest frameId

/-- The frame that `send_init_res` writes. -/
def sendInitRes (order : Iter initRes.headers) (id : UInt32) : Except (Fault ConnectionError) TFrameId :=
  match initResFrame order with
  | .ok frame => .ok ⟨id, frame⟩
  | .error e => .error (.err (.frameError e))

/-- The `?` on a `ConnectionResult` in a function that returns a `TResult`. -/
def liftConnection {α : Type} : Except (Fault ConnectionError) α → Except (Fault TChannelError) α
  | .ok a => .ok a
  | .error (.err e) => .error (.err (.connectionError e))
  | .error .panic => .error .panic

/-- The frame that is written for the first item of the stream, or how the connection ends. -/
def handleInitHandshake (order : Iter initRes.headers) (next : Option (Except (Fault CodecError) TFrameId)) :
    Except (Fault TChannelError) TFrameId :=
  match next with
  | some (.ok frameId) => do
    liftConnection (checkInitReq frameId)
    liftConnection (sendInitRes order frameId.id)
  | some (.error (.err e)) => .error (.err (.codecError e))
  | some (.error .panic) => .error .panic
  | none => .error (.err (.error "Received no Init request."))

end Server

/-! ### What is accepted -/

/-- An Init frame of the supported version. -/
structure IsInit (t : FrameType) (frame : TFrame) : Prop where
  frameType : frame.frameType = t
  payload : ∃ entries headers rest, HeaderPairs 2 entries headers ∧
    frame.payload = putBE 2 protocolVersion.toNat ++ headerBytes 2 entries ++ rest

theorem decodeInto_eq_ok {α : Type} {decode : Cursor CodecError α} {payload : Bytes} {a : α} :
    decodeInto decode payload = .ok a ↔ ∃ rest, decode.run payload = .ok a rest := by
  unfold decodeInto
  cases decode.run payload with
  | ok a rest => simp
  | error e rest => cases e <;> simp

theorem Init.decode_eq_ok {payload rest : Bytes} {init : Init} :
    Init.decode.run payload = .ok init rest ↔ ∃ entries, HeaderPairs 2 entries init.headers ∧
      payload = putBE 2 init.version.toNat ++ headerBytes 2 entries ++ rest := by
  constructor
  · intro h
    obtain ⟨version, _, b₁, rfl, rfl, h₁⟩ := takes_getU16.bind_run h
    obtain ⟨headers, _, b₂, ⟨entries, hpairs, rfl⟩, rfl, h₂⟩ := (takes_decodeHeadersField 2).bind_run h₁
    cases h₂
    exact ⟨entries, hpairs, by rw [List.append_assoc]⟩
  · rintro ⟨entries, hpairs, rfl⟩
    exact (reads_getU16 _).bind (hpairs.reads.bind_pure (Init.mk init.version)) rest

theorem verifyInit_eq_ok {t : FrameType} {frameId : TFrameId} :
    verifyInit t frameId = .ok () ↔ IsInit t frameId.frame := by
  unfold verifyInit
  by_cases htype : frameId.frame.frameType = t
  · rw [if_pos htype]
    simp only [except_bind_eq_ok, decodeInto_eq_ok, Init.decode_eq_ok]
    constructor
    · rintro ⟨init, ⟨rest, entries, hpairs, hpayload⟩, h⟩
      by_cases hversion : init.version = protocolVersion
      · rw [hversion] at hpayload
        exact ⟨htype, entries, _, rest, hpairs, hpayload⟩
      · rw [if_neg hversion] at h
        cases h
    · rintro ⟨-, entries, headers, rest, hpairs, hpayload⟩
      exact ⟨⟨protocolVersion, headers⟩, ⟨rest, entries, hpairs, hpayload⟩, if_pos rfl⟩
  · rw [if_neg htype]
    refine iff_of_false (fun h => ?_) fun h => htype h.frameType
    split at h
    · obtain ⟨error, -, h⟩ := except_bind_eq_ok.1 h
      cases h
    · cases h

theorem isInit_of_encode {t : FrameType} {init : Init} {it : Iter init.headers} {frame : TFrame}
    (hversion : init.version = protocolVersion)
    (h : (do return ⟨t, ← init.encodeBytes it⟩ : CodecResult TFrame) = .ok frame) : IsInit t frame := by
  obtain ⟨payload, hp, heq⟩ := except_bind_eq_ok.1 h
  obtain ⟨hfit, rfl⟩ := encodeHeaderFields_eq_ok.1 hp
  rw [← Except.ok.inj heq]
  refine ⟨rfl, it.entries, init.headers, [], hfit.pairs it, ?_⟩
  rw [hversion, List.nil_append, List.append_nil]

theorem initHandshakeFrame_ok (it : Iter Init.default.headers) : ∃ frame, initHandshakeFrame it = .ok frame := by
  have hfit : HeadersFit 2 Init.default.headers := ⟨by decide, by decide, by decide⟩
  refine ⟨⟨.initRequest, _⟩, except_bind_eq_ok.2 ⟨_, encodeHeaderFields_eq_ok.2 ⟨hfit, rfl⟩, rfl⟩⟩

theorem initResFrame_ok (it : Iter initRes.headers) : ∃ frame, initResFrame it = .ok frame := by
  have hfit : HeadersFit 2 initRes.headers := ⟨by decide, by decide, by decide⟩
  refine ⟨⟨.initResponse, _⟩, except_bind_eq_ok.2 ⟨_, encodeHeaderFields_eq_ok.2 ⟨hfit, rfl⟩, rfl⟩⟩

namespace TFrameIdCodec

/-- The first frame of a stream does not depend on how the stream is cut. -/
theorem next_eq_ok {chunks : List Bytes} {item : TFrameId} :
    next chunks = some (.ok item) ↔ ∃ rest, decode.run chunks.flatten = .ok (some item) rest := by
  have hdrain : (feed chunks []).1 = (drain chunks.flatten).1 := feed_eq_drain chunks (decode_of_buffering rfl)
  have hnext : next chunks = some (.ok item) ↔ ∃ items, (feed chunks []).1 = .ok item :: items := by
    unfold next
    cases hfeed : feed chunks [] with
    | mk items buf =>
      cases items with
      | cons first items => simp
      | nil => cases buf <;> simp
  rw [hnext, hdrain]
  rcases decode_consumes chunks.flatten with h | ⟨item', rest, h, -⟩ | ⟨e, rest, h, -⟩
  · simp [drain_of_none h, h]
  · simp [drain_of_some h, h]
  · simp [drain_of_error h, h]

end TFrameIdCodec

namespace Server

/-- A server answers exactly the streams that begin with an Init frame of its version, with the id of that
frame. -/
theorem handleInitHandshake_eq_ok {order : Iter initRes.headers} {chunks : List Bytes} {answer : TFrameId} :
    handleInitHandshake order (TFrameIdCodec.next chunks) = .ok answer ↔ ∃ item rest frame,
      TFrameIdCodec.decode.run chunks.flatten = .ok (some item) rest ∧ IsInit .initRequest item.frame ∧
        initResFrame order = .ok frame ∧ answer = ⟨item.id, frame⟩ := by
  obtain ⟨frame, hframe⟩ := initResFrame_ok order
  have hsend : ∀ id, sendInitRes order id = .ok ⟨id, frame⟩ := fun id => by rw [sendInitRes, hframe]
  have hfirst : ∀ item, handleInitHandshake order (some (.ok item)) = .ok answer ↔
      IsInit .initRequest item.frame ∧ answer = ⟨item.id, frame⟩ := by
    intro item
    rw [handleInitHandshake, hsend, ← verifyInit_eq_ok, checkInitReq]
    cases verifyInit .initRequest item with
    | ok => simp [liftConnection, bind, Except.bind, eq_comm]
    | error e => cases e <;> simp [liftConnection, bind, Except.bind]
  constructor
  · intro h
    cases hnext : TFrameIdCodec.next chunks with
    | none =>
      rw [hnext] at h
      cases h
    | some first =>
      rw [hnext] at h
      cases first with
      | ok item =>
        obtain ⟨hinit, hanswer⟩ := (hfirst item).1 h
        obtain ⟨rest, hdecode⟩ := TFrameIdCodec.next_eq_ok.1 hnext
        exact ⟨item, rest, frame, hdecode, hinit, hframe, hanswer⟩
      | error e => cases e <;> cases h
  · rintro ⟨item, rest, frame', hdecode, hinit, hframe', hanswer⟩
    obtain rfl := Except.ok.inj (hframe.symm.trans hframe')
    rw [TFrameIdCodec.next_eq_ok.2 ⟨rest, hdecode⟩]
    exact (hfirst item).2 ⟨hinit, hanswer⟩

end Server

/-! ### Agreement -/

/-- The server accepts what the client sends, and the client what the server answers. -/
def Agree (it : Iter Init.default.headers) (order : Iter initRes.headers) : Prop :=
  ∃ request answer, initHandshakeFrame it = .ok request ∧
    (∀ chunks more, chunks.flatten = TFrameIdCodec.wire ⟨0, request⟩ ++ more →
      Server.handleInitHandshake order (TFrameIdCodec.next chunks) = .ok answer) ∧
    ∀ chunks more, chunks.flatten = TFrameIdCodec.wire answer ++ more →
      TFrameIdCodec.next chunks = some (.ok answer) ∧ answer.id = 0 ∧ verify answer = .ok ()

/-- Whatever the order of the headers and however the streams are cut, the two sides accept each other; and
neither accepts anything but an Init frame of the version. -/
theorem handshake_agrees (it : Iter Init.default.headers) (order : Iter initRes.headers) :
    Agree it order ∧ (∀ frameId, verify frameId = .ok () ↔ IsInit .initResponse frameId.frame) ∧
      ∀ chunks answer, Server.handleInitHandshake order (TFrameIdCodec.next chunks) = .ok answer ↔
        ∃ item rest frame, TFrameIdCodec.decode.run chunks.flatten = .ok (some item) rest ∧
          IsInit .initRequest item.frame ∧ initResFrame order = .ok frame ∧ answer = ⟨item.id, frame⟩ := by
  refine ⟨?_, fun frameId => verifyInit_eq_ok, fun chunks answer => Server.handleInitHandshake_eq_ok⟩
  obtain ⟨request, hrequest⟩ := initHandshakeFrame_ok it
  obtain ⟨frame, hframe⟩ := initResFrame_ok order
  have hrequestSize : request.size ≤ 65519 := (initFrame_size hrequest).trans_le (by decide)
  have hframeSize : frame.size ≤ 65519 := (initFrame_size hframe).trans_le (by decide)
  refine ⟨request, ⟨0, frame⟩, hrequest, fun chunks more hchunks => ?_, fun chunks more hchunks => ⟨?_, rfl, ?_⟩⟩
  · refine Server.handleInitHandshake_eq_ok.2 ⟨⟨0, request⟩, more, frame, ?_, isInit_of_encode rfl hrequest, hframe, rfl⟩
    rw [hchunks]
    exact TFrameIdCodec.decode_wire hrequestSize more
  · refine TFrameIdCodec.next_eq_ok.2 ⟨more, ?_⟩
    rw [hchunks]
    exact TFrameIdCodec.decode_wire hframeSize more
  · exact verifyInit_eq_ok.2 (isInit_of_encode rfl hframe)

theorem exists_handshake : ∃ it order request answer, initHandshakeFrame it = .ok request ∧
    Server.sendInitRes order 0 = .ok answer := by
  have it : Iter Init.default.headers := ⟨_, Multiset.coe_toList _⟩
  have order : Iter initRes.headers := ⟨_, Multiset.coe_toList _⟩
  obtain ⟨request, hrequest⟩ := initHandshakeFrame_ok it
  obtain ⟨frame, hframe⟩ := initResFrame_ok order
  refine ⟨it, order, request, ⟨0, frame⟩, hrequest, ?_⟩
  rw [Server.sendInitRes, hframe]

/-! ### The connection of the client -/

namespace ClientConnection

/-- A connection that the pool hands out: the call of `init_handshake` has returned. -/
def connected (init : TFrame) (response : TFrameId) : ClientConnection where
  nextMessageId := 1
  pendingIds := FramesDispatcher.new
  outgoing := Channel.new
  receiver := .idle
  calls := [⟨.sendOne init, 0, ⟨[], false⟩, [response], .returned (.ok ()), some 0, some 1⟩]
  incoming := [response]

theorem connected_reachable {bufferSize : ℕ} (hpos : 0 < bufferSize) (init : TFrame) {response : TFrameId}
    (hid : response.id = 0) : (system bufferSize).Reachable (connected init response) := by
  have h₀ := TransitionSystem.Reachable.start (show (system bufferSize).init new from rfl)
  have h₁ := h₀.step (.calls (.sendOne init))
  have h₂ := h₁.step (@Step.registers bufferSize _ 0 _ rfl rfl rfl)
  have h₃ := h₂.step (@Step.runs bufferSize _ 0 _ _ _ rfl (.creates rfl))
  have h₄ := h₃.step (@Step.runs bufferSize _ 0 _ _ _ rfl (.sends rfl ⟨rfl, hpos⟩))
  have h₅ := h₄.step (@Step.runs bufferSize _ 0 _ _ _ rfl (.sent rfl))
  have h₆ := h₅.step (.writes rfl)
  have hlookup : lookup { new with pendingIds := FramesDispatcher.new.insert 0 0 } response = .sending response 0 := by
    unfold lookup
    rw [hid]
    rfl
  have h₇ := h₆.step (@Step.arrives bufferSize _ response rfl)
  have h₈ := h₇.step (@Step.delivers bufferSize _ response 0 _ hlookup rfl ⟨rfl, hpos⟩)
  have h₉ := h₈.step (@Step.runs bufferSize _ 0 _ _ _ rfl (.receives rfl rfl))
  have h₁₀ := h₉.step (@Step.closes bufferSize _ 0 _ _ _ rfl rfl rfl)
  have hfree : (FramesDispatcher.new.insert 0 0).deregister 0 = FramesDispatcher.new := rfl
  have hends : (system bufferSize).Reachable { connected init response with
      pendingIds := (FramesDispatcher.new.insert 0 0).deregister 0 } := h₁₀
  rw [hfree] at hends
  exact hends

end ClientConnection

end Tchannel
