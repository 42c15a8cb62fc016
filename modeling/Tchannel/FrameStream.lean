import Tchannel.Frames

/-!
# The frame codec on a stream

A framed reader appends what it reads from the socket to a buffer and calls `TFrameIdCodec.decode`
until it returns `None` (`drain`), for one chunk after another (`feed`). `feed_encodeAll`: however the
encodings of some frames are cut into chunks, exactly these frames come out, and nothing is left in
the buffer.
-/

namespace Tchannel
namespace TFrameIdCodec
open Wire Wire.Cursor

/-- The bytes of one frame on the wire. -/
def wire (item : TFrameId) : Bytes :=
  putBE 2 (lengthField item.frame).toNat ++ [item.frame.frameType.toU8] ++ [0] ++
    putBE 4 item.id.toNat ++ List.replicate 8 0 ++ item.frame.payload

theorem encode_eq (item : TFrameId) (dst : Bytes) : encode item dst = .ok (dst ++ wire item) := by
  simp [encode, wire]

@[simp] theorem wire_length (item : TFrameId) :
    (wire item).length = frameHeaderLength + item.frame.size := by
  simp [wire, frameHeaderLength, TFrame.size]
  omega

/-! ### One frame -/

theorem decode_of_buffering {src : Bytes} (h : isBuffering src = true) :
    decode.run src = .ok none src := by
  rw [decode, bind_ok (get_apply src)]
  simp [h]

theorem decode_of_not_buffering {src : Bytes} (h : isBuffering src = false) :
    decode.run src = (some <$> decodeFrame).run src := by
  rw [decode, bind_ok (get_apply src)]
  simp [h]

theorem decode_none {src rest : Bytes} (h : decode.run src = .ok none rest) : rest = src := by
  cases hb : isBuffering src with
  | true =>
    rw [decode_of_buffering hb] at h
    injection h with _ h
    exact h.symm
  | false =>
    rw [decode_of_not_buffering hb, map_apply] at h
    split at h <;> cases h

/-- `decodeFrame` on any buffer that holds as many bytes as its first two declare: a length below the
header's is refused after the length, an unknown type after the type byte. -/
theorem decodeFrame_eq {src : Bytes} {size : Nat} (hsize : getBE (src.take 2) = size)
    (h2 : 2 ≤ src.length) (hn : size ≤ src.length) :
    decodeFrame.run src =
      if size < frameHeaderLength then
        .error (.err (.error "Frame too short")) (src.drop 2)
      else
        match FrameType.fromU8 (UInt8.ofNat (getBE ((src.drop 2).take 1))) with
        | none =>
          .error (.err (.error s!"Unknown frame type {getBE ((src.drop 2).take 1)}")) (src.drop 3)
        | some t =>
          .ok ⟨UInt32.ofNat (getBE ((src.drop 4).take 4)),
            ⟨t, (src.drop 16).take (size - frameHeaderLength)⟩⟩ (src.drop size) := by
  rw [decodeFrame, bind_ok (getUInt_of_le h2), hsize]
  split
  · rfl
  · rename_i hs
    have hs16 : frameHeaderLength ≤ size := Nat.le_of_not_lt hs
    have hs16' : 16 ≤ size := hs16
    rw [bind_ok (getUInt_of_le (by simp; omega))]
    cases ht : FrameType.fromU8 (UInt8.ofNat (getBE ((src.drop 2).take 1))) with
    | none =>
      rw [bind_error (by rw [ofOption, fail_apply]), List.drop_drop]
    | some t =>
      rw [bind_ok (by rw [ofOption, pure_apply]), bind_ok (advance_of_le (by simp; omega)),
        bind_ok (getUInt_of_le (by simp; omega)), bind_ok (advance_of_le (by simp; omega)),
        bind_ok (checkedSub_of_le hs16 _),
        bind_ok (take_of_le (by simp [frameHeaderLength]; omega))]
      have hsum : 16 + (size - frameHeaderLength) = size := by
        rw [frameHeaderLength]
        omega
      simp only [List.drop_drop, pure_apply, Nat.reduceAdd, hsum]

theorem lengthField_toNat {f : TFrame} (h : f.size ≤ 65519) :
    (lengthField f).toNat = frameHeaderLength + f.size := by
  simp only [lengthField, frameHeaderLength, UInt16.toNat_add, UInt16.toNat_ofNat']
  omega

theorem reads_decodeFrame {item : TFrameId} (h : item.frame.size ≤ 65519) :
    Reads decodeFrame (wire item) item := by
  have hlen := lengthField_toNat h
  have hpay : item.frame.payload.length = (lengthField item.frame).toNat - frameHeaderLength := by
    rw [hlen, TFrame.size]
    omega
  have hty : FrameType.fromU8 (UInt8.ofNat item.frame.frameType.toU8.toNat) =
      some item.frame.frameType := by simp
  have key : Reads decodeFrame
      (putBE 2 (lengthField item.frame).toNat ++ (putBE 1 item.frame.frameType.toU8.toNat ++
        ([] ++ ([0] ++ (putBE 4 item.id.toNat ++ (List.replicate 8 0 ++ ([] ++
          (item.frame.payload ++ [])))))))) item := by
    refine (reads_getUInt (lengthField item.frame).toNat_lt).bind ?_
    rw [if_neg (by rw [hlen]; omega)]
    refine (reads_getUInt item.frame.frameType.toU8.toNat_lt).bind ?_
    refine (reads_ofOption hty).bind ?_
    refine (reads_advance [0]).bind ?_
    refine (reads_getUInt item.id.toNat_lt).bind ?_
    refine (reads_advance (List.replicate 8 0)).bind ?_
    refine (reads_checkedSub (by rw [hlen]; omega)).bind ?_
    rw [← hpay]
    refine (reads_take item.frame.payload).bind ?_
    rw [UInt32.ofNat_toNat]
    exact Reads.pure item
  simpa [wire] using key

theorem getBE_wire {item : TFrameId} (h : item.frame.size ≤ 65519) (rest : Bytes) :
    getBE ((wire item ++ rest).take 2) = (wire item).length := by
  have h2 : (wire item ++ rest).take 2 = putBE 2 (lengthField item.frame).toNat := by
    simp [wire]
  rw [h2, getBE_putBE (lengthField item.frame).toNat_lt, lengthField_toNat h, wire_length]

theorem decode_wire {item : TFrameId} (h : item.frame.size ≤ 65519) (rest : Bytes) :
    decode.run (wire item ++ rest) = .ok (some item) rest := by
  have hlen := wire_length item
  have hb : isBuffering (wire item ++ rest) = false := by
    rw [isBuffering, getBE_wire h, if_neg (by simp [frameHeaderLength]; omega)]
    simp
  rw [decode_of_not_buffering hb]
  exact (reads_decodeFrame h).map some rest

/-- A frame that is not complete yet is left in the buffer, wherever it is cut. -/
theorem decode_wire_cut {item : TFrameId} (h : item.frame.size ≤ 65519) {p q : Bytes}
    (hpq : p ++ q = wire item) (hq : q ≠ []) : decode.run p = .ok none p := by
  apply decode_of_buffering
  have hlen := congrArg List.length hpq
  rw [List.length_append] at hlen
  have hq0 := List.length_pos_of_ne_nil hq
  unfold isBuffering
  split
  · rfl
  · have h2 : p.take 2 = (wire item ++ []).take 2 := by
      rw [List.append_nil, ← hpq, List.take_append_of_le_length (by omega)]
    rw [h2, getBE_wire h, decide_eq_true_eq]
    omega

/-! ### Streams -/

/-- Encodes the items one after another into one buffer. -/
def encodeAll (items : List TFrameId) (dst : Bytes) : CodecResult Bytes :=
  items.foldlM (fun dst item => encode item dst) dst

theorem encodeAll_eq (items : List TFrameId) (dst : Bytes) :
    encodeAll items dst = .ok (dst ++ items.flatMap wire) := by
  induction items generalizing dst with
  | nil => simp [encodeAll, pure, Except.pure]
  | cons item items ih =>
    show (encode item dst >>= fun dst => encodeAll items dst) = _
    rw [encode_eq]
    show encodeAll items (dst ++ wire item) = _
    rw [ih]
    simp

theorem isBuffering_eq_false {src : Bytes} (h : isBuffering src = false) :
    2 ≤ src.length ∧ getBE (src.take 2) ≤ src.length := by
  unfold isBuffering at h
  split at h
  · cases h
  · rename_i h2
    exact ⟨by omega, by simpa using h⟩

theorem decode_some {src rest : Bytes} {item : TFrameId} (h : decode.run src = .ok (some item) rest) :
    frameHeaderLength ≤ getBE (src.take 2) ∧ getBE (src.take 2) ≤ src.length ∧
      rest = src.drop (getBE (src.take 2)) := by
  cases hb : isBuffering src with
  | true => rw [decode_of_buffering hb] at h; cases h
  | false =>
    obtain ⟨h2, hn⟩ := isBuffering_eq_false hb
    rw [decode_of_not_buffering hb, map_apply, decodeFrame_eq rfl h2 hn] at h
    by_cases hs : getBE (src.take 2) < frameHeaderLength
    · rw [if_pos hs] at h; cases h
    · rw [if_neg hs] at h
      cases ht : FrameType.fromU8 (UInt8.ofNat (getBE ((src.drop 2).take 1))) with
      | none => simp only [ht] at h; cases h
      | some t =>
        simp only [ht] at h
        injection h with _ h
        exact ⟨Nat.le_of_not_lt hs, hn, h.symm⟩

theorem decode_some_length {src rest : Bytes} {item : TFrameId} (h : decode.run src = .ok (some item) rest) :
    rest.length < src.length := by
  obtain ⟨h16, hn, rfl⟩ := decode_some h
  simp only [frameHeaderLength, List.length_drop] at *
  omega

/-- Calls `decode` until it returns `None` or an error; what it returned, and the buffer left. -/
def drain (src : Bytes) : List (Except (Fault CodecError) TFrameId) × Bytes :=
  match h : decode.run src with
  | .ok none rest => ([], rest)
  | .ok (some item) rest =>
    have := decode_some_length h
    ((.ok item) :: (drain rest).1, (drain rest).2)
  | .error e rest => ([.error e], rest)
termination_by src.length

theorem drain_of_none {src : Bytes} (h : decode.run src = .ok none src) : drain src = ([], src) := by
  rw [drain]
  split
  · rename_i rest h'
    rw [h] at h'
    injection h' with _ h'
    rw [h']
  · rename_i h'
    rw [h] at h'
    cases h'
  · rename_i h'
    rw [h] at h'
    cases h'

theorem drain_of_some {src rest : Bytes} {item : TFrameId} (h : decode.run src = .ok (some item) rest) :
    drain src = (.ok item :: (drain rest).1, (drain rest).2) := by
  rw [drain]
  split
  · rename_i h'
    rw [h] at h'
    cases h'
  · rename_i h'
    rw [h] at h'
    injection h' with h₁ h₂
    obtain rfl := Option.some.inj h₁
    obtain rfl := h₂
    rfl
  · rename_i h'
    rw [h] at h'
    cases h'

/-- Appends the chunks one by one to the buffer and drains it after each, up to the first error. -/
def feed : List Bytes → Bytes → List (Except (Fault CodecError) TFrameId) × Bytes
  | [], buf => ([], buf)
  | chunk :: chunks, buf =>
    let (out, buf) := drain (buf ++ chunk)
    if out.any (fun r => r matches .error _) then (out, buf)
    else (out ++ (feed chunks buf).1, (feed chunks buf).2)

/-- Draining a buffer that holds a first part of some frames' encodings: the complete frames come out,
and what is left is the first part of the encodings of the others, with no complete frame in it. -/
theorem drain_cut {items : List TFrameId} (hsize : ∀ f ∈ items, f.frame.size ≤ 65519) :
    ∀ {buf rest : Bytes}, buf ++ rest = items.flatMap wire → ∃ done todo buf',
      items = done ++ todo ∧ drain buf = (done.map .ok, buf') ∧ buf' ++ rest = todo.flatMap wire ∧
        (todo = [] ∨ rest ≠ []) := by
  induction items with
  | nil =>
    intro buf rest h
    obtain ⟨rfl, rfl⟩ := List.append_eq_nil_iff.1 (h.trans (by simp))
    exact ⟨[], [], [], rfl, drain_of_none (decode_of_buffering rfl), rfl, .inl rfl⟩
  | cons item items ih =>
    intro buf rest h
    rw [List.flatMap_cons] at h
    have hitem := hsize item (by simp)
    rcases List.append_eq_append_iff.1 h with ⟨q, hq, hrest⟩ | ⟨buf₁, hbuf, hitems⟩
    · -- the buffer ends inside the first frame, or with it
      by_cases hq0 : q = []
      · subst hq0
        simp only [List.append_nil] at hq
        obtain ⟨done, todo, buf', hsplit, hdrain, hleft, htodo⟩ :=
          ih (fun f hf => hsize f (by simp [hf])) (show [] ++ rest = _ by simpa using hrest)
        refine ⟨item :: done, todo, buf', by rw [hsplit, List.cons_append], ?_, hleft, htodo⟩
        have hd := decode_wire hitem []
        rw [List.append_nil, hq] at hd
        rw [drain_of_some hd, hdrain, List.map_cons]
      · refine ⟨[], item :: items, buf, rfl, drain_of_none (decode_wire_cut hitem hq.symm hq0), ?_, ?_⟩
        · rw [h, List.flatMap_cons]
        · rw [hrest]
          exact .inr (by simp [hq0])
    · obtain ⟨done, todo, buf', hsplit, hdrain, hleft, htodo⟩ :=
        ih (fun f hf => hsize f (by simp [hf])) hitems.symm
      refine ⟨item :: done, todo, buf', by rw [hsplit, List.cons_append], ?_, hleft, htodo⟩
      rw [hbuf, drain_of_some (decode_wire hitem buf₁), hdrain, List.map_cons]

theorem feed_cut {items : List TFrameId} (hsize : ∀ f ∈ items, f.frame.size ≤ 65519)
    {chunks : List Bytes} {buf : Bytes} (h : buf ++ chunks.flatten = items.flatMap wire)
    (hbuf : chunks = [] → buf = []) : feed chunks buf = (items.map .ok, []) := by
  induction chunks generalizing items buf with
  | nil =>
    obtain rfl := hbuf rfl
    cases items with
    | nil => rfl
    | cons item items =>
      have := congrArg List.length h
      simp [frameHeaderLength] at this
      omega
  | cons chunk chunks ih =>
    rw [List.flatten_cons, ← List.append_assoc] at h
    obtain ⟨done, todo, buf', rfl, hdrain, hleft, htodo⟩ := drain_cut hsize h
    have hrest := ih (fun f hf => hsize f (by simp [hf])) hleft (by
      rintro rfl
      rcases htodo with rfl | hne
      · simpa using hleft
      · simp at hne)
    have hany : (done.map Except.ok).any (fun r : Except (Fault CodecError) TFrameId => r matches .error _) = false := by
      simp
    simp only [feed, hdrain, hany, hrest, Bool.false_eq_true, if_false, List.map_append]

/-- Stream round trip: the encodings of any frames whose payloads leave room for the header, cut into
chunks in any way, give back exactly these frames and leave the buffer empty; and a call that asks
for more bytes never touches the buffer. -/
theorem feed_encodeAll (items : List TFrameId) (hsize : ∀ f ∈ items, f.frame.size ≤ 65519) :
    (∃ stream, encodeAll items [] = .ok stream ∧
      ∀ chunks : List Bytes, chunks.flatten = stream → feed chunks [] = (items.map .ok, [])) ∧
    ∀ src rest, decode.run src = .ok none rest → rest = src := by
  refine ⟨⟨items.flatMap wire, by rw [encodeAll_eq, List.nil_append], fun chunks h => ?_⟩,
    fun src rest => decode_none⟩
  exact feed_cut hsize h fun _ => rfl

/-- Two frames, cut inside the header of the first one and inside that of the second. -/
theorem feed_encodeAll_two :
    feed [[0, 19, 0x13], [0, 0, 0, 0, 7, 0, 0, 0, 0, 0, 0, 0, 0, 1, 2, 3, 0, 17], [],
        [0x14, 0, 0, 0, 0, 8, 0, 0, 0, 0, 0, 0, 0, 0, 4]] [] =
      ([.ok ⟨7, ⟨.callRequestContinue, [1, 2, 3]⟩⟩, .ok ⟨8, ⟨.callResponseContinue, [4]⟩⟩], []) := by
  obtain ⟨⟨stream, hs, h⟩, -⟩ :=
    feed_encodeAll [⟨7, ⟨.callRequestContinue, [1, 2, 3]⟩⟩, ⟨8, ⟨.callResponseContinue, [4]⟩⟩] (by decide)
  refine h _ ?_
  rw [encodeAll_eq] at hs
  rw [← Except.ok.inj hs]
  decide

end TFrameIdCodec
end Tchannel
