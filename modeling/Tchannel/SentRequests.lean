import Tchannel.ClientInvariant
import Tchannel.Draining
import Tchannel.MessageRoundTrip

/-!
# What a call sends is a request

Every frame of a request but the last one says that more fragments follow. So what is read from all frames of
a request cannot be read from fewer of them (`Operation.whole`), and the frames of a call make a `Request` in
the sense of `Demultiplexing`, whatever its args are.
-/

namespace Tchannel
open Wire ArgsFragmenter Fragmenter

/-! ### Reading leaves the frames behind a message alone -/

namespace Defragmenter

theorem continueFrames_append_of_ok {xs : List TFrameId} {d d' : ArgsDefragmenter} {rest : FrameInput}
    (ys : List TFrameId) (h : continueFrames false xs d = .ok d' rest) :
    continueFrames false (xs ++ ys) d = .ok d' ⟨rest.frames ++ ys, false⟩ := by
  induction xs generalizing d with
  | nil => cases h
  | cons x xs ih =>
    rw [continueFrames] at h
    rw [List.cons_append, continueFrames]
    cases hnext : continueFrame d x.frame with
    | error e =>
      rw [hnext] at h
      cases h
    | ok r =>
      obtain ⟨d₁, last⟩ := r
      rw [hnext] at h
      cases last with
      | true =>
        injection h with hd hrest
        rw [← hd, ← hrest]
      | false => exact ih h

theorem readAndCheck_append_of_ok {C F : Type} [Call C F] {t : FrameType} {decode : Cursor CodecError C}
    {checkFields : F → CodecResult ArgSchemeValue} {xs : List TFrameId} {r : F × MessageArgs} {rest : FrameInput}
    (ys : List TFrameId) (h : (readAndCheck t decode checkFields).run ⟨xs, false⟩ = .ok r rest) :
    (readAndCheck t decode checkFields).run ⟨xs ++ ys, false⟩ = .ok r ⟨rest.frames ++ ys, false⟩ := by
  obtain ⟨fields, margs⟩ := r
  obtain ⟨first, frames, call, chunks, scheme, hframes, hfirst, hcheck, rfl, hread⟩ := readAndCheck_eq_ok.1 h
  clear h
  have hframes : xs = first :: frames := hframes
  refine readAndCheck_eq_ok.2 ⟨first, frames ++ ys, call, chunks, scheme, ?_, hfirst, hcheck, rfl, ?_⟩
  · rw [hframes]
    rfl
  · rcases hread with ⟨hmore, rfl, rfl⟩ | ⟨hmore, d, hd, rfl⟩
    · exact .inl ⟨hmore, rfl, rfl⟩
    · exact .inr ⟨hmore, d, continueFrames_append_of_ok ys hd, rfl⟩

end Defragmenter

theorem readPhase_eq_read {frames : List TFrameId} {request : RequestRead} (h : readPhase frames = .read request) :
    ∃ rest, RequestDefragmenter.readRequest.run ⟨frames, false⟩ = .ok request rest := by
  unfold readPhase at h
  split at h
  · rename_i rest hrun
    rw [← TaskPhase.read.inj h]
    exact ⟨_, hrun⟩
  · cases h
  · cases h

namespace RequestFragmenter

variable {service : String} {margs : MessageArgs} {it : Iter (new service margs).createFields.headers}
  {frames : List TFrame}

theorem read_createFrames (h : (new service margs).createFrames it = .ok frames) (id : UInt32) (closed : Bool) :
    ∃ args, RequestDefragmenter.readRequest.run ⟨frames.map (TFrameId.mk id), closed⟩ =
      .ok ((new service margs).createFields, ⟨margs.argScheme, args⟩) ⟨[], closed⟩ := by
  obtain ⟨-, fb, hfb, -, hle⟩ := (encodedFields it).of_createFrames h
  have hscheme : getArgsScheme (new service margs).createFields = .ok margs.argScheme :=
    getArgsScheme_createHeaders (show _ = (Fragmenter.new service margs).createHeaders from rfl)
  unfold createFrames at h
  rw [hfb] at h
  exact ⟨_, readAndCheck_createFrames (readsCall_createFields hfb) hscheme (.inl rfl) (by omega) h id closed⟩

theorem whole (h : (new service margs).createFrames it = .ok frames) (id : UInt32) {n : ℕ}
    (hn : n < (frames.map (TFrameId.mk id)).length) (request : RequestRead) :
    readPhase ((frames.map (TFrameId.mk id)).take n) ≠ .read request := by
  intro hread
  obtain ⟨rest, hrun⟩ := readPhase_eq_read hread
  -- the frames behind the `n`-th one would be left over
  obtain ⟨args, hall⟩ := read_createFrames h id false
  have hmore := Defragmenter.readAndCheck_append_of_ok ((frames.map (TFrameId.mk id)).drop n) hrun
  rw [List.take_append_drop] at hmore
  have hrest := hall.symm.trans hmore
  injection hrest with _ hrest
  have hnil := congrArg FrameInput.frames hrest
  have hdrop : (frames.map (TFrameId.mk id)).drop n = [] := (List.append_eq_nil_iff.1 hnil.symm).2
  rw [List.drop_eq_nil_iff] at hdrop
  exact Nat.not_le.2 hn hdrop

theorem createFrames_ne_nil (h : (new service margs).createFrames it = .ok frames) : frames ≠ [] := by
  obtain ⟨-, fb, hfb, -, hle⟩ := (encodedFields it).of_createFrames h
  unfold createFrames at h
  rw [hfb] at h
  obtain ⟨payload, rest, -, -, rfl⟩ := (createFrames_eq_ok (by omega)).1 h
  exact List.cons_ne_nil _ _

end RequestFragmenter

theorem SubChannel.createFrames_eq_ok {REQ : Type} [Message REQ] {self : SubChannel}
    {order : (headers : HashMap String String) → Iter headers} {request : REQ} {frames : List TFrame} :
    self.createFrames order request = .ok frames ↔ ∃ margs, Message.tryInto request = .ok margs ∧
      (RequestFragmenter.new self.serviceName margs).createFrames (order _) = .ok frames := by
  simp only [SubChannel.createFrames, except_bind_eq_ok, liftCodec_eq_ok]

namespace Operation

variable {operation : Operation} {frames : List TFrame}

/-- No request is read from some of the frames of a call. -/
theorem whole (h : operation.frames = .ok frames) (id : UInt32) :
    ∀ n < (frames.map (TFrameId.mk id)).length, ∀ request,
      readPhase ((frames.map (TFrameId.mk id)).take n) ≠ .read request := by
  intro n hn request
  cases operation with
  | sendOne frame =>
    obtain rfl := Except.ok.inj h
    obtain rfl : n = 0 := Nat.lt_one_iff.1 hn
    exact nofun
  | send exchange =>
    obtain ⟨REQ, RES, _, _, self, message, order, hframes, -⟩ := exchange.sends
    obtain ⟨margs, -, hcut⟩ := SubChannel.createFrames_eq_ok.1 (hframes.symm.trans h)
    exact RequestFragmenter.whole hcut id hn request

theorem frames_ne_nil (h : operation.frames = .ok frames) : frames ≠ [] := by
  cases operation with
  | sendOne frame =>
    rw [← Except.ok.inj h]
    exact List.cons_ne_nil _ _
  | send exchange =>
    obtain ⟨REQ, RES, _, _, self, message, order, hframes, -⟩ := exchange.sends
    obtain ⟨margs, -, hcut⟩ := SubChannel.createFrames_eq_ok.1 (hframes.symm.trans h)
    exact RequestFragmenter.createFrames_ne_nil hcut

/-- The frames of a call with the id `id`. -/
def request (h : operation.frames = .ok frames) (id : UInt32) : Request where
  id := id
  frames := frames.map (TFrameId.mk id)
  frames_ne := by simpa using frames_ne_nil h
  ids := by simp
  whole := whole h id

end Operation

end Tchannel
