import Tchannel.FrameStream

/-!
# The frame codec on any stream

`TFrameIdCodec.decode` on bytes that no encoder wrote. Once it returns a frame or an error, more bytes
behind what it saw do not change that (`decode_append`), so the cuts of a stream into chunks do not show in
the results (`feed_eq_drain`). It never reads past the end of the buffer, and what it returns for a frame
is worth as many bytes as the frame declares.
-/

namespace Tchannel
open Wire Wire.Cursor

theorem FrameType.toU8_of_fromU8 {b : UInt8} {t : FrameType} (h : fromU8 b = some t) : t.toU8 = b := by
  have hif : ∀ {c : UInt8} {t' : FrameType} {rest : Option FrameType},
      (if b = c then some t' else rest) = some t → (b = c ∧ t' = t) ∨ rest = some t := by
    intro c t' rest h
    by_cases hb : b = c
    · rw [if_pos hb] at h
      exact .inl ⟨hb, Option.some.inj h⟩
    · rw [if_neg hb] at h
      exact .inr h
  unfold fromU8 at h
  iterate 11
    rcases hif h with ⟨rfl, rfl⟩ | h
    · rfl
  cases h

namespace TFrameIdCodec

/-- What a call can do: ask for more bytes, refuse the length or the type, or return a frame. -/
inductive Outcome (src : Bytes) : EStateM.Result (Fault CodecError) Bytes (Option TFrameId) → Prop
  | buffering (h : isBuffering src = true) : Outcome src (.ok none src)
  | short (h2 : 2 ≤ src.length) (hn : getBE (src.take 2) ≤ src.length)
      (hsize : getBE (src.take 2) < frameHeaderLength) :
      Outcome src (.error (.err (.error "Frame too short")) (src.drop 2))
  | unknown (hn : getBE (src.take 2) ≤ src.length) (hsize : frameHeaderLength ≤ getBE (src.take 2))
      (htype : FrameType.fromU8 (UInt8.ofNat (getBE ((src.drop 2).take 1))) = none) :
      Outcome src (.error (.err (.error s!"Unknown frame type {getBE ((src.drop 2).take 1)}")) (src.drop 3))
  | frame {t} (hn : getBE (src.take 2) ≤ src.length) (hsize : frameHeaderLength ≤ getBE (src.take 2))
      (htype : FrameType.fromU8 (UInt8.ofNat (getBE ((src.drop 2).take 1))) = some t) :
      Outcome src (.ok
        (some ⟨UInt32.ofNat (getBE ((src.drop 4).take 4)),
          ⟨t, (src.drop 16).take (getBE (src.take 2) - frameHeaderLength)⟩⟩)
        (src.drop (getBE (src.take 2))))

theorem decode_outcome (src : Bytes) : Outcome src (decode.run src) := by
  cases hb : isBuffering src with
  | true =>
    rw [decode_of_buffering hb]
    exact .buffering hb
  | false =>
    obtain ⟨h2, hn⟩ := isBuffering_eq_false hb
    rw [decode_of_not_buffering hb, map_apply, decodeFrame_eq rfl h2 hn]
    by_cases hsize : getBE (src.take 2) < frameHeaderLength
    · rw [if_pos hsize]
      exact .short h2 hn hsize
    · rw [if_neg hsize]
      cases htype : FrameType.fromU8 (UInt8.ofNat (getBE ((src.drop 2).take 1))) with
      | none => exact .unknown hn (Nat.le_of_not_lt hsize) htype
      | some t => exact .frame hn (Nat.le_of_not_lt hsize) htype

theorem isBuffering_append {src more : Bytes} (h2 : 2 ≤ src.length) (hn : getBE (src.take 2) ≤ src.length) :
    isBuffering (src ++ more) = false := by
  rw [isBuffering, if_neg (by rw [List.length_append]; omega), List.take_append_of_le_length h2,
    decide_eq_false_iff_not, List.length_append]
  omega

/-- Bytes that come later do not change a result. -/
theorem decode_append {src : Bytes} (h : isBuffering src = false) (more : Bytes) :
    decode.run (src ++ more) = match decode.run src with
      | .ok item rest => .ok item (rest ++ more)
      | .error e rest => .error e (rest ++ more) := by
  obtain ⟨h2, hn⟩ := isBuffering_eq_false h
  have htake : (src ++ more).take 2 = src.take 2 := List.take_append_of_le_length h2
  rw [decode_of_not_buffering h, decode_of_not_buffering (isBuffering_append h2 hn), map_apply, map_apply,
    decodeFrame_eq rfl h2 hn, decodeFrame_eq (congrArg getBE htake) (by rw [List.length_append]; omega)
      (by rw [List.length_append]; omega)]
  by_cases hsize : getBE (src.take 2) < frameHeaderLength
  · rw [if_pos hsize, if_pos hsize, List.drop_append_of_le_length h2]
  · have h16 : 16 ≤ getBE (src.take 2) := Nat.le_of_not_lt hsize
    rw [if_neg hsize, if_neg hsize, List.drop_append_of_le_length h2,
      List.take_append_of_le_length (by rw [List.length_drop]; omega)]
    cases htype : FrameType.fromU8 (UInt8.ofNat (getBE ((src.drop 2).take 1))) with
    | none => rw [List.drop_append_of_le_length (show 3 ≤ src.length by omega)]
    | some t =>
      rw [List.drop_append_of_le_length (show 4 ≤ src.length by omega),
        List.drop_append_of_le_length (show 16 ≤ src.length by omega), List.drop_append_of_le_length hn,
        List.take_append_of_le_length (by rw [List.length_drop]; omega),
        List.take_append_of_le_length (by rw [List.length_drop]; unfold frameHeaderLength; omega)]

/-! ### Single calls -/

theorem decode_not_panic (src rest : Bytes) : decode.run src ≠ .error .panic rest := by
  have h := decode_outcome src
  intro heq
  rw [heq] at h
  cases h

theorem decode_consumes (src : Bytes) :
    decode.run src = .ok none src ∨
      (∃ item rest, decode.run src = .ok (some item) rest ∧ rest.length + 2 ≤ src.length) ∨
      ∃ e rest, decode.run src = .error e rest ∧ rest.length + 2 ≤ src.length := by
  have h := decode_outcome src
  generalize decode.run src = result at h
  cases h with
  | buffering _ => exact .inl rfl
  | short h2 _ _ => exact .inr (.inr ⟨_, _, rfl, by rw [List.length_drop]; omega⟩)
  | unknown hn hsize _ =>
    unfold frameHeaderLength at hsize
    exact .inr (.inr ⟨_, _, rfl, by rw [List.length_drop]; omega⟩)
  | frame hn hsize _ =>
    unfold frameHeaderLength at hsize
    exact .inr (.inl ⟨_, _, rfl, by rw [List.length_drop]; omega⟩)

/-- The bytes of a frame with its reserved bytes, one behind the type and the last eight of the header, set to
zero. -/
def clearReserved (bytes : Bytes) : Bytes :=
  bytes.take 3 ++ [0] ++ (bytes.drop 4).take 4 ++ List.replicate 8 0 ++ bytes.drop 16

theorem putBE_take_drop {src : Bytes} {w n : Nat} (h : n + w ≤ src.length) :
    putBE w (getBE ((src.drop n).take w)) = (src.drop n).take w := by
  have := putBE_getBE ((src.drop n).take w)
  rwa [List.length_take, List.length_drop, Nat.min_eq_left (by omega)] at this

theorem clearReserved_take {src : Bytes} {size : Nat} (h16 : 16 ≤ size) (hn : size ≤ src.length) :
    clearReserved (src.take size) =
      src.take 2 ++ [UInt8.ofNat (getBE ((src.drop 2).take 1))] ++ [0] ++
        putBE 4 (getBE ((src.drop 4).take 4)) ++ List.replicate 8 0 ++ (src.drop 16).take (size - 16) := by
  have htype : [UInt8.ofNat (getBE ((src.drop 2).take 1))] = (src.drop 2).take 1 := by
    rw [← putBE_one, putBE_take_drop (by omega)]
  have hid : ((src.take size).drop 4).take 4 = (src.drop 4).take 4 := by
    rw [List.drop_take, List.take_take, Nat.min_eq_left (by omega)]
  rw [clearReserved, List.take_take, Nat.min_eq_left (by omega), hid, List.drop_take, htype,
    putBE_take_drop (by omega), ← List.take_add]

/-- A returned frame is encoded to the bytes it was read from, but for the reserved ones. -/
theorem encode_of_decode {src rest : Bytes} {item : TFrameId} (h : decode.run src = .ok (some item) rest) :
    ∃ taken, src = taken ++ rest ∧ taken.length = getBE (src.take 2) ∧
      encode item [] = .ok (clearReserved taken) := by
  have hout := decode_outcome src
  rw [h] at hout
  cases hout with
  | @frame t hn hsize htype =>
    have hfield := @putBE_take_drop src 2 0
    rw [List.drop_zero] at hfield
    have hlt := getBE_lt (src.take 2)
    generalize getBE (src.take 2) = size at hn hsize hfield hlt
    have h16 : 16 ≤ size := hsize
    rw [List.length_take, Nat.min_eq_left (by omega)] at hlt
    have hid := getBE_lt ((src.drop 4).take 4)
    rw [List.length_take, List.length_drop, Nat.min_eq_left (by omega)] at hid
    have hpayload : (TFrame.mk t ((src.drop 16).take (size - frameHeaderLength))).size = size - 16 := by
      rw [TFrame.size, List.length_take, List.length_drop]
      unfold frameHeaderLength
      omega
    have hlen : (lengthField ⟨t, (src.drop 16).take (size - frameHeaderLength)⟩).toNat = size := by
      rw [lengthField_toNat (by omega), hpayload]
      unfold frameHeaderLength
      omega
    refine ⟨src.take size, (List.take_append_drop size src).symm, by rw [List.length_take]; omega, ?_⟩
    rw [clearReserved_take h16 hn, encode, hlen, hfield (by omega), FrameType.toU8_of_fromU8 htype,
      UInt32.toNat_ofNat_of_lt' hid]
    rfl

theorem isBuffering_of_decode_none {src rest : Bytes} (h : decode.run src = .ok none rest) :
    isBuffering src = true := by
  have hout := decode_outcome src
  rw [h] at hout
  cases hout with
  | buffering hb => exact hb

/-! ### Cutting a stream into chunks -/

theorem drain_of_error {src rest : Bytes} {e : Fault CodecError} (h : decode.run src = .error e rest) :
    drain src = ([.error e], rest) := by
  rw [drain]
  split
  · rename_i h'
    rw [h] at h'
    cases h'
  · rename_i h'
    rw [h] at h'
    cases h'
  · rename_i h'
    rw [h] at h'
    injection h' with h₁ h₂
    rw [h₁, h₂]

/-- Some result is an error. -/
def Failed (out : List (Except (Fault CodecError) TFrameId)) : Bool := out.any (fun r => r matches .error _)

/-- Draining goes on where it stopped, unless it stopped at an error. -/
theorem drain_append (src more : Bytes) :
    drain (src ++ more) =
      if Failed (drain src).1 then ((drain src).1, (drain src).2 ++ more)
      else ((drain src).1 ++ (drain ((drain src).2 ++ more)).1, (drain ((drain src).2 ++ more)).2) := by
  induction hn : src.length using Nat.strong_induction_on generalizing src with
  | _ n ih =>
    cases hb : isBuffering src with
    | true =>
      rw [drain_of_none (decode_of_buffering hb)]
      rfl
    | false =>
      have happend := decode_append hb more
      rcases decode_consumes src with h | ⟨item, rest, h, hlen⟩ | ⟨e, rest, h, -⟩
      · rw [isBuffering_of_decode_none h] at hb
        cases hb
      · rw [h] at happend
        rw [drain_of_some happend, drain_of_some h, ih _ (by omega) rest rfl]
        have hfailed : Failed (.ok item :: (drain rest).1) = Failed (drain rest).1 := rfl
        simp only [hfailed]
        split <;> rfl
      · rw [h] at happend
        rw [drain_of_error happend, drain_of_error h]
        rfl

theorem decode_drain {src : Bytes} (h : Failed (drain src).1 = false) :
    decode.run (drain src).2 = .ok none (drain src).2 := by
  induction hn : src.length using Nat.strong_induction_on generalizing src with
  | _ n ih =>
    rcases decode_consumes src with hd | ⟨item, rest, hd, hlen⟩ | ⟨e, rest, hd, -⟩
    · rw [drain_of_none hd]
      exact hd
    · rw [drain_of_some hd] at h ⊢
      exact ih _ (by omega) h rfl
    · rw [drain_of_error hd] at h
      cases h

theorem feed_cons (chunk : Bytes) (chunks : List Bytes) (buf : Bytes) :
    feed (chunk :: chunks) buf =
      if Failed (drain (buf ++ chunk)).1 then drain (buf ++ chunk)
      else ((drain (buf ++ chunk)).1 ++ (feed chunks (drain (buf ++ chunk)).2).1,
        (feed chunks (drain (buf ++ chunk)).2).2) := rfl

/-- A stream that is fed in chunks gives the results of draining it from one buffer. -/
theorem feed_eq_drain (chunks : List Bytes) {buf : Bytes} (hbuf : decode.run buf = .ok none buf) :
    (feed chunks buf).1 = (drain (buf ++ chunks.flatten)).1 := by
  induction chunks generalizing buf with
  | nil =>
    rw [List.flatten_nil, List.append_nil, drain_of_none hbuf]
    rfl
  | cons chunk chunks ih =>
    rw [feed_cons, List.flatten_cons, ← List.append_assoc, drain_append (buf ++ chunk)]
    cases hfailed : Failed (drain (buf ++ chunk)).1 with
    | true => rfl
    | false =>
      simp only [Bool.false_eq_true, if_false]
      rw [ih (decode_drain hfailed)]

theorem decode_hostile (chunks : List Bytes) :
    (feed chunks []).1 = (drain chunks.flatten).1 ∧
    (∀ src rest, decode.run src ≠ .error .panic rest) ∧
    (∀ src, decode.run src = .ok none src ∨
      (∃ item rest, decode.run src = .ok (some item) rest ∧ rest.length + 2 ≤ src.length) ∨
      ∃ e rest, decode.run src = .error e rest ∧ rest.length + 2 ≤ src.length) ∧
    ∀ src item rest, decode.run src = .ok (some item) rest →
      ∃ taken, src = taken ++ rest ∧ taken.length = getBE (src.take 2) ∧
        encode item [] = .ok (clearReserved taken) :=
  ⟨feed_eq_drain chunks (decode_of_buffering rfl), decode_not_panic, decode_consumes,
    fun _ _ _ => encode_of_decode⟩

end TFrameIdCodec
end Tchannel
