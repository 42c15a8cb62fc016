import Tchannel.Lib.Loop
import Tchannel.MessageShape

/-!
# The fragmentation loop ends

The loop of `create_frames` with a bound on its rounds (`createFramesWithin`). A round makes the number of bytes
and args in the queue smaller, also when it puts an empty arg into the queue or takes no byte from it, because
the limit leaves room for a chunk (`nextFrameArgs_progress`). So as many rounds as there are bytes and args in
the message are enough, and they return what `createFrames` does.
-/

namespace Tchannel
open Wire ArgsFragmenter

namespace Fragmenter

/-- A round of the loop, with the queue and the frames so far. -/
def round (continuationType : FrameType) :
    List Bytes × List TFrame → (List Bytes × List TFrame) ⊕ TResult (List TFrame)
  | (queue, frames) =>
    if queue.isEmpty then
      .inr (.ok frames)
    else
      let next := nextFrameArgs queue (calculatePayloadLimit 0)
      match CallContinue.encodeBytes ⟨currentFrameFlag next.2, next.1⟩ with
      | .ok payload => .inl (next.2, frames ++ [⟨continuationType, payload⟩])
      | .error e => .inr (.error (.codecError e))

/-- `create_frames`, if its loop ends within this number of rounds. -/
def createFramesWithin (rounds : ℕ) (self : Fragmenter) (fields : CodecResult Bytes)
    (firstType continuationType : FrameType) : Option (TResult (List TFrame)) :=
  match fields with
  | .error e => some (.error (.codecError e))
  | .ok fieldsBytes =>
    let next := nextFrameArgs self.argsFragmenter.args (calculatePayloadLimit fieldsBytes.length)
    match CallWithFieldsEncoded.encodeBytes ⟨currentFrameFlag next.2, fieldsBytes, next.1⟩ with
    | .error e => some (.error (.codecError e))
    | .ok payload => Loop.run (round continuationType) rounds (next.2, [⟨firstType, payload⟩])

/-- A frame with the continuation limit takes an arg or a byte off the queue, and carries a chunk. -/
theorem nextFrameArgs_progress {queue : List Bytes} (hq : queue ≠ []) :
    queueSize (nextFrameArgs queue (calculatePayloadLimit 0)).2 < queueSize queue ∧
      (nextFrameArgs queue (calculatePayloadLimit 0)).1.args ≠ [] :=
  ⟨nextFrameArgs_size_lt (List.isEmpty_eq_false_iff.2 hq), nextFrameArgsVec_ne_nil hq (by decide +kernel)⟩

/-- What the loop returns: the frames so far, and those of the args in the queue. -/
def remaining (ct : FrameType) (state : List Bytes × List TFrame) : TResult (List TFrame) :=
  (state.2 ++ ·) <$> continuationFrames ct state.1

theorem remaining_nil (ct : FrameType) (frames : List TFrame) : remaining ct ([], frames) = .ok frames := by
  rw [remaining, continuationFrames_nil]
  exact congrArg Except.ok (List.append_nil frames)

theorem round_cases (ct : FrameType) (state : List Bytes × List TFrame) :
    round ct state = .inr (remaining ct state) ∨
      ∃ next, round ct state = .inl next ∧ remaining ct state = remaining ct next ∧
        queueSize next.1 < queueSize state.1 := by
  obtain ⟨queue, frames⟩ := state
  by_cases hq : queue = []
  · rw [hq, remaining_nil]
    exact .inl rfl
  have hempty : ¬ queue.isEmpty = true := by simpa using hq
  have hlt := (nextFrameArgs_progress hq).1
  rw [remaining, continuationFrames, if_neg hempty, round, if_neg hempty]
  dsimp only
  generalize nextFrameArgs queue (calculatePayloadLimit 0) = next at hlt ⊢
  generalize CallContinue.encodeBytes _ = encoded
  cases encoded with
  | error e => exact .inl rfl
  | ok payload =>
    refine .inr ⟨(next.2, frames ++ [⟨ct, payload⟩]), rfl, ?_, hlt⟩
    simp only [liftCodec_ok, remaining]
    cases continuationFrames ct next.2 with
    | error e => rfl
    | ok rest => exact congrArg Except.ok (List.append_assoc frames [⟨ct, payload⟩] rest).symm

theorem round_computes (ct : FrameType) : Loop.Computes (round ct) (remaining ct) fun state => queueSize state.1 := by
  constructor <;> intro state out h <;> rcases round_cases ct state with hend | ⟨next, hnext, heq, hlt⟩
  · rw [h] at hend
    cases hend
  · obtain rfl := Sum.inl.inj (h.symm.trans hnext)
    exact ⟨heq, hlt⟩
  · exact Sum.inr.inj (hend.symm.trans h)
  · rw [h] at hnext
    cases hnext

/-- With more rounds than there are bytes and args in the message, the loop ends. -/
theorem createFramesWithin_eq {self : Fragmenter} {rounds : ℕ} (hrounds : queueSize self.argsFragmenter.args < rounds)
    (fields : CodecResult Bytes) (t ct : FrameType) :
    createFramesWithin rounds self fields t ct = some (self.createFrames fields t ct) := by
  cases fields with
  | error e => rfl
  | ok fieldsBytes =>
    have hle : queueSize (nextFrameArgs self.argsFragmenter.args (calculatePayloadLimit fieldsBytes.length)).2 ≤
        queueSize self.argsFragmenter.args := nextFrameArgsVec_size_le _ _
    simp only [createFramesWithin, createFrames, liftCodec_ok]
    show _ = some (liftCodec (CallWithFieldsEncoded.encodeBytes _) >>= _)
    generalize nextFrameArgs self.argsFragmenter.args (calculatePayloadLimit fieldsBytes.length) = next at hle ⊢
    cases CallWithFieldsEncoded.encodeBytes ⟨currentFrameFlag next.2, fieldsBytes, next.1⟩ with
    | error e => rfl
    | ok payload =>
      dsimp only
      rw [(round_computes ct).run_eq (Nat.lt_of_le_of_lt hle hrounds)]
      rfl

end Fragmenter

/-- The frames are read back, and each has a chunk. -/
def CarryChunks (frames : List TFrame) : Prop :=
  ∃ chunks, chunksOf frames = some chunks ∧ ∀ cs ∈ chunks, cs ≠ []

open Fragmenter

theorem Body.carryChunks {frames : List TFrame} {chunks : List (List (Option Bytes))} (h : Body frames chunks) :
    CarryChunks frames :=
  ⟨chunks, h.carry.chunksOf_eq, fun cs hcs => List.ne_nil_of_length_pos (h.counts cs hcs).1⟩

theorem RequestFragmenter.carryChunks {service : String} {margs : MessageArgs}
    (hlen : ∀ a ∈ margs.args, a.length < 2147483648) {it : Iter (new service margs).createFields.headers}
    {frames : List TFrame} (h : (new service margs).createFrames it = .ok frames) : CarryChunks frames :=
  ((encodedFields it).body (fun _ => callsAs) (.inl rfl) hlen h).1.carryChunks

theorem ResponseFragmenter.carryChunks {service : String} {code : ResponseCode} {margs : MessageArgs}
    (hlen : ∀ a ∈ margs.args, a.length < 2147483648)
    {it : Iter (new service code margs).createResponseFields.headers} {frames : List TFrame}
    (h : (new service code margs).createFrames it = .ok frames) : CarryChunks frames :=
  ((encodedFields it).body (fun _ => callsAs) (.inr rfl) hlen h).1.carryChunks

/-- Every frame takes something off the queue, so the loop ends; and no frame is without a chunk. -/
theorem fragmentation_ends (service : String) (scheme : ArgSchemeValue) (args : List Bytes)
    (hlen : ∀ a ∈ args, a.length < 2 ^ 31) :
    (∀ queue, queue ≠ [] →
      queueSize (nextFrameArgs queue (calculatePayloadLimit 0)).2 < queueSize queue ∧
        (nextFrameArgs queue (calculatePayloadLimit 0)).1.args ≠ []) ∧
    (∀ rounds fields t ct, queueSize args < rounds →
      createFramesWithin rounds (Fragmenter.new service ⟨scheme, args⟩) fields t ct =
        some ((Fragmenter.new service ⟨scheme, args⟩).createFrames fields t ct)) ∧
    (∀ it frames, (RequestFragmenter.new service ⟨scheme, args⟩).createFrames it = .ok frames →
      CarryChunks frames) ∧
    ∀ code it frames, (ResponseFragmenter.new service code ⟨scheme, args⟩).createFrames it = .ok frames →
      CarryChunks frames :=
  ⟨fun _ hq => nextFrameArgs_progress hq, fun _ fields t ct hrounds => createFramesWithin_eq hrounds fields t ct,
    fun _ _ => RequestFragmenter.carryChunks hlen, fun _ _ _ => ResponseFragmenter.carryChunks hlen⟩

/-- Seven rounds are enough for three bytes in three args. -/
theorem fragmentation_ends_small :
    ∃ frames, createFramesWithin 7 (Fragmenter.new "service" ⟨.raw, [[1], [], [2, 3]]⟩)
      ((RequestFragmenter.new "service" ⟨.raw, [[1], [], [2, 3]]⟩).createFields.encodeBytes
        (Fragmenter.new "service" ⟨.raw, [[1], [], [2, 3]]⟩).headersIter) .callRequest .callRequestContinue =
      some (.ok frames) ∧ CarryChunks frames := by
  obtain ⟨-, hends, hrequest, -⟩ := fragmentation_ends "service" .raw [[1], [], [2, 3]] (by simp)
  obtain ⟨frames, hframes⟩ := small_frames
  exact ⟨frames, (hends 7 _ _ _ (by decide)).trans (congrArg some hframes), hrequest _ _ hframes⟩

end Tchannel
