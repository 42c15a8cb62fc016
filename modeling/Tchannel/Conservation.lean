import Tchannel.FrameEnds
import Tchannel.MessageRoundTrip

/-!
# No byte is lost in cutting

Whatever room each frame gives it, `ArgsFragmenter` puts all bytes of the args into chunks or leaves them in
its queue, in their order (`nextFrameArgsVec_contents`), and `ArgsDefragmenter` keeps all bytes of the chunks
(`add_flatten`). Where one arg ends and the next one begins is another matter.
-/

namespace Tchannel
open Wire

/-- The bytes of the chunks of a frame. -/
def contents (chunks : List (Option Bytes)) : Bytes := chunks.flatMap (·.getD [])

@[simp] theorem contents_nil : contents [] = [] := rfl

@[simp] theorem contents_cons (c : Option Bytes) (cs : List (Option Bytes)) :
    contents (c :: cs) = c.getD [] ++ contents cs := List.flatMap_cons

theorem contents_eq_flatten (chunks : List (Option Bytes)) :
    contents chunks = (chunks.map (·.getD [])).flatten := List.flatMap_def

namespace ArgsFragmenter

/-- The chunks of the frames that are cut with these limits, and the queue behind them. -/
def nextFrames : List Int → List Bytes → List (List (Option Bytes)) × List Bytes
  | [], queue => ([], queue)
  | limit :: limits, queue =>
    let next := nextFrameArgsVec queue limit
    let rest := nextFrames limits next.2
    (next.1 :: rest.1, rest.2)

theorem nextFrameArgsVec_contents {queue : List Bytes} (hq : ∀ a ∈ queue, a.length < 2147483648) (limit : Int) :
    contents (nextFrameArgsVec queue limit).1 ++ (nextFrameArgsVec queue limit).2.flatten = queue.flatten := by
  induction queue generalizing limit with
  | nil => rfl
  | cons arg queue ih =>
    have hlen := asI32_length (hq arg (by simp))
    have hrec := ih fun a ha => hq a (by simp [ha])
    rcases nextFrameArgsVec_cons arg queue (rfl : asI32 (limit - argLenLen) = _) with
      ⟨h0, heq⟩ | ⟨-, -, heq⟩ | ⟨-, -, heq⟩ | ⟨-, -, -, heq⟩ | ⟨-, -, -, heq⟩ <;>
      rw [heq, List.flatten_cons]
    · obtain rfl : arg = [] := List.length_eq_zero_iff.1 (by omega)
      rw [contents_cons, Option.getD_none]
      exact hrec _
    · rfl
    · rw [contents_cons, getD_chunk, contents_nil, List.append_nil, List.flatten_cons, ← List.append_assoc,
        List.take_append_drop]
    · rw [contents_cons, contents_nil, List.append_nil]
      rfl
    · rw [contents_cons, Option.getD_some, List.append_assoc, hrec]

theorem nextFrames_contents {queue : List Bytes} (hq : ∀ a ∈ queue, a.length < 2147483648) (limits : List Int) :
    (nextFrames limits queue).1.flatMap contents ++ (nextFrames limits queue).2.flatten = queue.flatten := by
  induction limits generalizing queue with
  | nil => rfl
  | cons limit limits ih =>
    rw [nextFrames, List.flatMap_cons, List.append_assoc, ih (nextFrameArgsVec_short hq limit),
      nextFrameArgsVec_contents hq limit]

theorem nextFrames_length (limits : List Int) (queue : List Bytes) :
    (nextFrames limits queue).2.length ≤ queue.length := by
  induction limits generalizing queue with
  | nil => exact Nat.le_refl _
  | cons limit limits ih => exact (ih _).trans (nextFrameArgsVec_length queue limit).2

/-- All frames of a message hold the bytes of its args. -/
theorem frameChunks_contents {queue : List Bytes} (hq : ∀ a ∈ queue, a.length < 2147483648) (room : Int) :
    (frameChunks room queue).flatMap contents = queue.flatten := by
  induction room, queue using frames_induction with
  | step room queue ih =>
    have hfirst := nextFrameArgsVec_contents hq room
    rw [frameChunks, List.flatMap_cons]
    by_cases hrest : (nextFrameArgsVec queue room).2 = []
    · rw [hrest, List.flatten_nil] at hfirst
      rw [hrest, continuationChunks_nil, List.flatMap_nil, hfirst]
    · rw [continuationChunks_ne hrest, ih hrest (nextFrameArgsVec_short hq room), hfirst]

end ArgsFragmenter

namespace ArgsDefragmenter

theorem addFirstArg_flatten (d : ArgsDefragmenter) (c : Option Bytes) :
    (d.addFirstArg c).args.flatten = d.args.flatten ++ c.getD [] := by
  cases c with
  | none => rw [addFirstArg_none, List.flatten_concat, Option.getD_none]
  | some b =>
    rcases List.eq_nil_or_concat d.args with hnil | ⟨init, last, hargs⟩
    · simp [addFirstArg, hnil]
    · simp [addFirstArg, hargs]

theorem add_flatten (d : ArgsDefragmenter) (chunks : List (Option Bytes)) :
    (d.add chunks).args.flatten = d.args.flatten ++ contents chunks := by
  cases chunks with
  | nil => rw [contents_nil, List.append_nil, add]
  | cons c cs =>
    rw [add, addRemainingArgs_args, List.flatten_append, addFirstArg_flatten, contents_cons, List.append_assoc,
      contents_eq_flatten]

theorem addAll_flatten (d : ArgsDefragmenter) (frames : List (List (Option Bytes))) :
    (d.addAll frames).args.flatten = d.args.flatten ++ frames.flatMap contents := by
  induction frames generalizing d with
  | nil => rw [List.flatMap_nil, List.append_nil, addAll, List.foldl_nil]
  | cons f frames ih =>
    show ((d.add f).addAll frames).args.flatten = _
    rw [ih, add_flatten, List.flatMap_cons, List.append_assoc]

end ArgsDefragmenter

open ArgsFragmenter

/-- Cutting and putting together, frame by frame and with any limits, keeps every byte in its place; the queue
never gets longer. -/
theorem cutting_conserves (args : List Bytes) (hlen : ∀ a ∈ args, a.length < 2 ^ 31) (limits : List Int) :
    (nextFrames limits args).1.flatMap contents ++ (nextFrames limits args).2.flatten = args.flatten ∧
    (nextFrames limits args).2.length ≤ args.length ∧
    (ArgsDefragmenter.default.addAll (nextFrames limits args).1).args.flatten =
      (nextFrames limits args).1.flatMap contents :=
  ⟨nextFrames_contents hlen limits, nextFrames_length limits args, ArgsDefragmenter.addAll_flatten _ _⟩

/-- Two args, cut with limits of which one leaves no room and one is used up exactly. -/
theorem cutting_conserves_small :
    (nextFrames [4, 1, 3] [[1, 2, 3], [4]]).1.flatMap contents ++ (nextFrames [4, 1, 3] [[1, 2, 3], [4]]).2.flatten =
      [1, 2, 3, 4] ∧
    (nextFrames [4, 1, 3] [[1, 2, 3], [4]]).2.length ≤ 2 ∧
    (ArgsDefragmenter.default.addAll (nextFrames [4, 1, 3] [[1, 2, 3], [4]]).1).args.flatten =
      (nextFrames [4, 1, 3] [[1, 2, 3], [4]]).1.flatMap contents :=
  cutting_conserves [[1, 2, 3], [4]] (by decide) [4, 1, 3]

end Tchannel
