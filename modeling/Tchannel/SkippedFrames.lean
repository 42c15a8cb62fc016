import Tchannel.HostileStreams

/-!
# Frames of an unknown type

`TFrameIdCodec::decode` refuses a frame of an unknown type as soon as it has read the type byte, and leaves
all that comes behind it in the buffer (`decode_unknown`). So the next call does not start at the next frame
but inside the refused one, and takes its reserved byte and the first byte of its id for a length. What it finds
there is up to the peer: any frame can be put there (`decode_disguised`).
-/

namespace Tchannel
namespace TFrameIdCodec
open Wire Wire.Cursor

/-- A whole frame, as long as it declares, of a type that is not known. -/
structure UnknownFrame (frame : Bytes) : Prop where
  declared : getBE (frame.take 2) = frame.length
  header : frameHeaderLength ≤ frame.length
  type : frame[2]?.bind FrameType.fromU8 = none

/-- The frame is refused, and nothing of it is left in front of what follows. -/
def Skips (frame rest : Bytes) : Prop := ∃ e, decode.run (frame ++ rest) = .error (.err e) rest

variable {frame : Bytes}

/-- The three bytes that are looked at are gone, and no others. -/
theorem decode_unknown (h : UnknownFrame frame) (rest : Bytes) :
    ∃ e, decode.run (frame ++ rest) = .error (.err e) (frame.drop 3 ++ rest) := by
  have h16 : 16 ≤ frame.length := h.header
  have hsize : getBE ((frame ++ rest).take 2) = frame.length := by
    rw [List.take_append_of_le_length (by omega), h.declared]
  have hlen : frame.length ≤ (frame ++ rest).length := by simp
  have hbuffering : isBuffering (frame ++ rest) = false := by
    rw [isBuffering, if_neg (by omega), hsize, decide_eq_false_iff_not]
    omega
  have hbyte : ((frame ++ rest).drop 2).take 1 = [frame[2]] := by
    rw [List.drop_append_of_le_length (by omega), List.take_append_of_le_length (by simp; omega),
      List.drop_eq_getElem_cons (by omega)]
    rfl
  have htype : FrameType.fromU8 frame[2] = none := by
    have := h.type
    rwa [List.getElem?_eq_getElem (by omega), Option.bind_some] at this
  rw [decode_of_not_buffering hbuffering, map_apply, decodeFrame_eq hsize (by omega) hlen,
    if_neg (Nat.not_lt.2 h.header), hbyte, getBE_singleton, UInt8.ofNat_toNat, htype,
    List.drop_append_of_le_length (by omega)]
  exact ⟨_, rfl⟩

/-- No frame of an unknown type is skipped: all of it but three bytes is left in front of what follows. -/
theorem unknown_never_skipped (frame rest : Bytes) (h : UnknownFrame frame) :
    ¬ Skips frame rest ∧ ∃ e, decode.run (frame ++ rest) = .error (.err e) (frame.drop 3 ++ rest) := by
  obtain ⟨e, he⟩ := decode_unknown h rest
  refine ⟨?_, e, he⟩
  rintro ⟨e', he'⟩
  rw [he] at he'
  injection he' with _ hleft
  have hlen := congrArg List.length hleft
  have h16 : 16 ≤ frame.length := h.header
  rw [List.length_append, List.length_drop] at hlen
  omega

/-! ### A frame in disguise -/

/-- The encoding of a frame behind the first three bytes of one of the type `t`. -/
def disguise (t : UInt8) (item : TFrameId) : Bytes := putBE 2 (3 + (wire item).length) ++ [t] ++ wire item

variable {t : UInt8} {item : TFrameId}

theorem disguise_unknown (ht : FrameType.fromU8 t = none) (hsize : item.frame.size ≤ 65516) :
    UnknownFrame (disguise t item) := by
  have hwire := wire_length item
  have hlen : (disguise t item).length = 3 + (wire item).length := by
    simp only [disguise, List.length_append, putBE_length, List.length_singleton]
  refine ⟨?_, ?_, ?_⟩
  · have htake : (disguise t item).take 2 = putBE 2 (3 + (wire item).length) := by simp [disguise]
    rw [htake, hlen, getBE_putBE]
    unfold frameHeaderLength at hwire
    omega
  · rw [hlen, hwire]
    omega
  · simp [disguise, ht]

/-- Behind a refused frame the next call returns whatever frame the refused one had in its bytes. -/
theorem decode_disguised (ht : FrameType.fromU8 t = none) (hsize : item.frame.size ≤ 65516) (rest : Bytes) :
    ∃ e, decode.run (disguise t item ++ rest) = .error (.err e) (wire item ++ rest) ∧
      decode.run (wire item ++ rest) = .ok (some item) rest := by
  obtain ⟨e, he⟩ := decode_unknown (disguise_unknown ht hsize) rest
  have hdrop : (disguise t item).drop 3 = wire item := List.drop_left' (by simp)
  rw [hdrop] at he
  exact ⟨e, he, decode_wire (hsize.trans (by decide)) rest⟩

/-- A ping inside a frame of the type `0x05`. -/
theorem unknown_ping_not_skipped :
    ¬ Skips (disguise 0x05 ⟨7, ⟨.pingRequest, []⟩⟩) [] ∧ ∃ e,
      decode.run (disguise 0x05 ⟨7, ⟨.pingRequest, []⟩⟩ ++ []) =
        .error (.err e) ((disguise 0x05 ⟨7, ⟨.pingRequest, []⟩⟩).drop 3 ++ []) :=
  unknown_never_skipped _ [] (disguise_unknown (by decide) (by decide))

/-- That frame at the end of the stream leaves the ping in the buffer. -/
theorem unknown_ping_left : ¬ ∀ frame rest, UnknownFrame frame → Skips frame rest := by
  intro h
  obtain ⟨e, he⟩ := h (disguise 0x05 ⟨7, ⟨.pingRequest, []⟩⟩) [] (disguise_unknown (by decide) (by decide))
  obtain ⟨e', he', -⟩ := @decode_disguised 0x05 ⟨7, ⟨.pingRequest, []⟩⟩ (by decide) (by decide) []
  rw [he'] at he
  injection he with _ hleft
  have hlen := congrArg List.length hleft
  rw [List.append_nil, wire_length] at hlen
  cases hlen

end TFrameIdCodec
end Tchannel
