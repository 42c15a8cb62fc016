import Tchannel.FrameEnds
import Tchannel.MessageRoundTrip

/-!
# The frames of a message

What can be said of the frames that `create_frames` returns without looking at the defragmenter: when there
are any, what chunks they carry (`Body`), and their shape (`Shape`): types, flags, number of chunks and
size.
-/

namespace Tchannel
open Wire ArgsFragmenter Fragmenter

/-- The flags and args that a frame of a message carries, read with the codec of its type. -/
def TFrame.call (frame : TFrame) : Option (Flags × CallArgs) :=
  match frame.frameType with
  | .callRequest => (decodePayload CallRequest.decode frame.payload).toOption.map fun c => (c.flags, c.args)
  | .callResponse => (decodePayload CallResponse.decode frame.payload).toOption.map fun c => (c.flags, c.args)
  | .callRequestContinue | .callResponseContinue =>
    (decodePayload CallContinue.decode frame.payload).toOption.map fun c => (c.flags, c.args)
  | _ => none

def chunksOf (frames : List TFrame) : Option (List (List (Option Bytes))) :=
  frames.mapM fun frame => frame.call.map (·.2.args)

/-- The calls that carry these chunks: all but the last announce more. -/
def calls : List (List (Option Bytes)) → List (Flags × CallArgs)
  | [] => []
  | cs :: rest => (if rest.isEmpty then .none else .moreFragmentsFollow, plainArgs cs) :: calls rest

theorem calls_args (chunks : List (List (Option Bytes))) : (calls chunks).map (·.2.args) = chunks := by
  induction chunks with
  | nil => rfl
  | cons cs rest ih => rw [calls, List.map_cons, ih]; rfl

theorem calls_flags {chunks : List (List (Option Bytes))} {i : ℕ} {flags : Flags} {args : CallArgs}
    (h : (calls chunks)[i]? = some (flags, args)) :
    flags.contains Flags.moreFragmentsFollow = true ↔ i + 1 < chunks.length := by
  induction chunks generalizing i with
  | nil => cases h
  | cons cs rest ih =>
    cases i with
    | zero =>
      obtain ⟨rfl, -⟩ := Prod.mk.inj (Option.some.inj h)
      cases rest with
      | nil => exact iff_of_false Bool.false_ne_true (lt_irrefl _)
      | cons cs' rest =>
        rw [List.length_cons, List.length_cons]
        exact iff_of_true (by rw [List.isEmpty_cons]; rfl) (by omega)
    | succ i =>
      rw [List.length_cons, Nat.add_lt_add_iff_right]
      exact ih h

/-- The frames carry the chunks, read back one by one. -/
def Carry (frames : List TFrame) (chunks : List (List (Option Bytes))) : Prop :=
  frames.map TFrame.call = (calls chunks).map some

theorem Carry.chunksOf_eq {frames : List TFrame} {chunks : List (List (Option Bytes))} (h : Carry frames chunks) :
    chunksOf frames = some chunks := by
  unfold Carry at h
  unfold chunksOf
  induction frames generalizing chunks with
  | nil =>
    cases chunks with
    | nil => rfl
    | cons cs rest => cases h
  | cons frame frames ih =>
    cases chunks with
    | nil => cases h
    | cons cs rest =>
      obtain ⟨hframe, hrest⟩ := List.cons.inj h
      rw [List.mapM_cons, hframe, ih hrest]
      rfl

theorem Carry.length_eq {frames : List TFrame} {chunks : List (List (Option Bytes))} (h : Carry frames chunks) :
    frames.length = chunks.length := by
  have hcalls := congrArg List.length (calls_args chunks)
  have := congrArg List.length h
  simp only [List.length_map] at this hcalls
  omega

/-- The frames carry the chunks; none is too long, and only the last has room for more than a byte. -/
structure Body (frames : List TFrame) (chunks : List (List (Option Bytes))) : Prop where
  carry : Carry frames chunks
  counts : ∀ cs ∈ chunks, 1 ≤ cs.length ∧ cs.length ≤ 3
  size : ∀ frame ∈ frames, frame.payload.length ≤ 65518
  filled : ∀ frame ∈ frames.dropLast, 65517 ≤ frame.payload.length

theorem Body.nil : Body [] [] := ⟨rfl, by simp, by simp, by simp⟩

theorem Body.cons {frame : TFrame} {frames : List TFrame} {cs : List (Option Bytes)}
    {rest : List (List (Option Bytes))} (h : Body frames rest)
    (hcall : frame.call = some (if rest.isEmpty then .none else .moreFragmentsFollow, plainArgs cs))
    (hcount : (plainArgs cs).Encodable) (hsize : frame.payload.length ≤ 65518) (hfilled : rest ≠ [] → 65517 ≤ frame.payload.length) :
    Body (frame :: frames) (cs :: rest) := by
  refine ⟨?_, List.forall_mem_cons.2 ⟨plainArgs_encodable.1 hcount, h.counts⟩,
    List.forall_mem_cons.2 ⟨hsize, h.size⟩, ?_⟩
  · rw [Carry, List.map_cons, hcall, h.carry]
    rfl
  · by_cases hframes : frames = []
    · rw [hframes]
      simp
    · have hrest : rest ≠ [] := by
        rintro rfl
        exact hframes (List.length_eq_zero_iff.1 h.carry.length_eq)
      rw [List.dropLast_cons_of_ne_nil hframes, List.forall_mem_cons]
      exact ⟨hfilled hrest, h.filled⟩

/-! ### The frames of a fragmenter -/

theorem continuationChunks_isEmpty (queue : List Bytes) :
    (continuationChunks queue).isEmpty = queue.isEmpty := by
  by_cases hq : queue = []
  · rw [hq, continuationChunks_nil]
    rfl
  · rw [continuationChunks_ne hq, frameChunks, List.isEmpty_eq_false_iff.2 hq]
    rfl

namespace Fragmenter

variable {t ct : FrameType} {queue : List Bytes} {frames : List TFrame}

theorem call_continuation (ht : ct = .callRequestContinue ∨ ct = .callResponseContinue) {flags : Flags}
    {chunks : List (Option Bytes)} {payload : Bytes} (hnorm : ∀ c ∈ chunks, normArg c = c)
    (h : CallContinue.encodeBytes ⟨flags, plainArgs chunks⟩ = .ok payload) :
    TFrame.call ⟨ct, payload⟩ = some (flags, plainArgs chunks) := by
  have hdecode := CallContinue.decode_encodeBytes h
  rw [plainArgs_normalize hnorm] at hdecode
  rcases ht with rfl | rfl <;> simp only [TFrame.call, decodePayload, hdecode] <;> rfl

theorem filled_of_chunks {n : Nat} (hn : n ≤ 65516) (hshort : ∀ a ∈ queue, a.length < 2147483648)
    (hfit : n + chunksLen (ArgsFragmenter.nextFrameArgsVec queue (continuationRoom - n)).1 ≤ 65516)
    (hrest : continuationChunks (ArgsFragmenter.nextFrameArgsVec queue (continuationRoom - n)).2 ≠ []) :
    65515 ≤ n + chunksLen (ArgsFragmenter.nextFrameArgsVec queue (continuationRoom - n)).1 := by
  have hend : frameEnd queue (continuationRoom - n) ≠ .drained := by
    intro hend
    rw [(frameEnd_eq_drained hshort _).1 hend, continuationChunks_nil] at hrest
    exact hrest rfl
  have hroom : continuationRoom = 65516 := rfl
  have := chunksLen_of_not_drained hshort (by omega) (by omega) hend
  omega

theorem continuationFrames_body (ht : ct = .callRequestContinue ∨ ct = .callResponseContinue)
    (hshort : ∀ a ∈ queue, a.length < 2147483648) (h : continuationFrames ct queue = .ok frames) :
    Body frames (continuationChunks queue) ∧ frames.map TFrame.frameType = List.replicate frames.length ct := by
  induction queue using continuation_induction generalizing frames with
  | nil =>
    rw [continuationFrames_nil] at h
    obtain rfl := Except.ok.inj h
    rw [continuationChunks_nil]
    exact ⟨Body.nil, rfl⟩
  | next queue hq ih =>
    obtain ⟨payload, rest, hp, hr, rfl⟩ := (continuationFrames_eq_ok hq).1 h
    obtain ⟨hbody, htypes⟩ := ih (nextFrameArgsVec_short hshort _) hr
    have hcall := call_continuation ht (nextFrameArgsVec_norm queue continuationRoom) hp
    have hlen : payload.length = 1 + (1 + chunksLen (ArgsFragmenter.nextFrameArgsVec queue continuationRoom).1) :=
      CallContinue.encodeBytes_length hp
    have hmax : payload.length ≤ 65518 := by
      rw [hlen]
      exact (CallContinue.encodeBytes_eq_ok.1 hp).2.1
    rw [continuationChunks_ne hq, frameChunks]
    refine ⟨hbody.cons ?_ (CallContinue.encodeBytes_eq_ok.1 hp).1 hmax fun hrest => ?_,
      by rw [List.map_cons, htypes]; rfl⟩
    · rw [hcall, continuationChunks_isEmpty]
      rfl
    · have := filled_of_chunks (n := 0) (by omega) hshort (by rw [Nat.cast_zero, Int.sub_zero]; omega) hrest
      rw [Nat.cast_zero, Int.sub_zero] at this
      show 65517 ≤ payload.length
      omega

/-- The first frame is read with the codec of its type. -/
def CallsAs (t : FrameType) (fb : Bytes) : Prop :=
  ∀ flags chunks payload, (∀ c ∈ chunks, normArg c = c) →
    CallWithFieldsEncoded.encodeBytes ⟨flags, fb, plainArgs chunks⟩ = .ok payload →
    TFrame.call ⟨t, payload⟩ = some (flags, plainArgs chunks)

theorem createFrames_body {fragmenter : Fragmenter} {fb : Bytes} (hfirst : CallsAs t fb)
    (ht : ct = .callRequestContinue ∨ ct = .callResponseContinue) (hfb : fb.length ≤ 65516)
    (hshort : ∀ a ∈ fragmenter.argsFragmenter.args, a.length < 2147483648)
    (h : fragmenter.createFrames (.ok fb) t ct = .ok frames) :
    Body frames (frameChunks (continuationRoom - fb.length) fragmenter.argsFragmenter.args) ∧
      frames.map TFrame.frameType = t :: List.replicate (frames.length - 1) ct := by
  obtain ⟨payload, rest, hp, hr, rfl⟩ := (createFrames_eq_ok hfb).1 h
  obtain ⟨hbody, htypes⟩ := continuationFrames_body ht (nextFrameArgsVec_short hshort _) hr
  obtain ⟨hargs, hle, -⟩ := CallWithFieldsEncoded.encodeBytes_eq_ok.1 hp
  have hcall := hfirst _ _ _ (nextFrameArgsVec_norm _ _) hp
  have hlen : payload.length = 1 + fb.length + (1 + chunksLen (fragmenter.firstChunks fb).1) :=
    CallWithFieldsEncoded.encodeBytes_length hp
  have hmax : 1 + fb.length + (1 + chunksLen (fragmenter.firstChunks fb).1) ≤ 65518 := hle
  refine ⟨hbody.cons ?_ hargs (by show payload.length ≤ 65518; omega) fun hrest => ?_, ?_⟩
  · rw [hcall, continuationChunks_isEmpty]
    rfl
  · unfold firstChunks at hlen hmax
    have := filled_of_chunks hfb hshort (by omega) hrest
    show 65517 ≤ payload.length
    omega
  · rw [List.map_cons, htypes]
    rfl

end Fragmenter

/-- What holds of the frames of a message, with `room` for chunks in the first. -/
structure Sent (t ct : FrameType) (room : Int) (args : List Bytes) (frames : List TFrame) : Prop where
  body : Body frames (frameChunks room args)
  types : frames.map TFrame.frameType = t :: List.replicate (frames.length - 1) ct
  room_ge : 2 ≤ room
  room_le : room ≤ continuationRoom
  fits : ¬ ∃ p ∈ starts room (args.map List.length), Overdrawn p

namespace EncodedFields

variable {service : String} {room : Int} {fields : CodecResult Bytes} {fragmenter : Fragmenter}
  {t ct : FrameType} {frames : List TFrame}

/-- Whatever the number of args, the frames of a message carry its chunks. -/
theorem body (h : EncodedFields service room fields) (hfirst : ∀ fb, fields = .ok fb → CallsAs t fb)
    (ht : ct = .callRequestContinue ∨ ct = .callResponseContinue)
    (hlen : ∀ a ∈ fragmenter.argsFragmenter.args, a.length < 2147483648)
    (hframes : fragmenter.createFrames fields t ct = .ok frames) :
    Body frames (frameChunks room fragmenter.argsFragmenter.args) ∧
      frames.map TFrame.frameType = t :: List.replicate (frames.length - 1) ct := by
  obtain ⟨-, fb, rfl, rfl, hle⟩ := h.of_createFrames hframes
  exact createFrames_body (hfirst fb rfl) ht (by omega) hlen hframes

theorem sent (h : EncodedFields service room fields) (hfirst : ∀ fb, fields = .ok fb → CallsAs t fb)
    (ht : ct = .callRequestContinue ∨ ct = .callResponseContinue)
    (h1 : 1 ≤ fragmenter.argsFragmenter.args.length) (h3 : fragmenter.argsFragmenter.args.length ≤ 3)
    (hlen : ∀ a ∈ fragmenter.argsFragmenter.args, a.length < 2147483648)
    (hframes : fragmenter.createFrames fields t ct = .ok frames) :
    Sent t ct room fragmenter.argsFragmenter.args frames := by
  obtain ⟨hbody, htypes⟩ := h.body hfirst ht hlen hframes
  obtain ⟨-, fb, -, hroom, hle⟩ := h.of_createFrames hframes
  have hfits := ((h.createFrames_ok_iff h1 h3 hlen).1 ⟨frames, hframes⟩).2
  unfold continuationRoom at hroom
  refine ⟨hbody, htypes, by omega, ?_, hfits⟩
  unfold continuationRoom
  omega

end EncodedFields

namespace RequestFragmenter

variable {service : String} {margs : MessageArgs}

theorem callsAs {it : Iter (new service margs).createFields.headers} {fb : Bytes}
    (h : (new service margs).createFields.encodeBytes it = .ok fb) : CallsAs .callRequest fb := by
  intro flags chunks payload hnorm hp
  obtain ⟨c, hc, -, hflags, hargs⟩ := readsCall_createFields h flags chunks payload hnorm hp
  simp only [TFrame.call, decodePayload, hc, ← hflags, ← hargs]
  rfl

theorem sent (h1 : 1 ≤ margs.args.length) (h3 : margs.args.length ≤ 3)
    (hlen : ∀ a ∈ margs.args, a.length < 2147483648) {it : Iter (new service margs).createFields.headers}
    {frames : List TFrame} (h : (new service margs).createFrames it = .ok frames) :
    Sent .callRequest .callRequestContinue (requestRoom service margs.argScheme) margs.args frames :=
  (encodedFields it).sent (fun _ => callsAs) (.inl rfl) h1 h3 hlen h

end RequestFragmenter

namespace ResponseFragmenter

variable {service : String} {code : ResponseCode} {margs : MessageArgs}

theorem callsAs {it : Iter (new service code margs).createResponseFields.headers} {fb : Bytes}
    (h : (new service code margs).createResponseFields.encodeBytes it = .ok fb) :
    CallsAs .callResponse fb := by
  intro flags chunks payload hnorm hp
  obtain ⟨c, hc, -, hflags, hargs⟩ := readsCall_createResponseFields h flags chunks payload hnorm hp
  simp only [TFrame.call, decodePayload, hc, ← hflags, ← hargs]
  rfl

theorem sent (h1 : 1 ≤ margs.args.length) (h3 : margs.args.length ≤ 3)
    (hlen : ∀ a ∈ margs.args, a.length < 2147483648)
    {it : Iter (new service code margs).createResponseFields.headers} {frames : List TFrame}
    (h : (new service code margs).createFrames it = .ok frames) :
    Sent .callResponse .callResponseContinue (responseRoom service margs.argScheme) margs.args frames :=
  (encodedFields it).sent (fun _ => callsAs) (.inr rfl) h1 h3 hlen h

end ResponseFragmenter

/-! ### Shape -/

structure Shape (t ct : FrameType) (frames : List TFrame) : Prop where
  ne_nil : frames ≠ []
  types : frames.map TFrame.frameType = t :: List.replicate (frames.length - 1) ct
  reads : ∀ frame ∈ frames, ∃ flags args, frame.call = some (flags, args) ∧
    1 ≤ args.args.length ∧ args.args.length ≤ 3
  more : ∀ (i : ℕ) frame flags args, frames[i]? = some frame → frame.call = some (flags, args) →
    (flags.contains Flags.moreFragmentsFollow = true ↔ i + 1 < frames.length)
  size : ∀ frame ∈ frames, frame.payload.length ≤ 65518
  filled : ∀ frame ∈ frames.dropLast, frame.payload.length = 65517 ∨ frame.payload.length = 65518

theorem Carry.getElem? {frames : List TFrame} {chunks : List (List (Option Bytes))} (h : Carry frames chunks)
    (i : ℕ) : frames[i]?.map TFrame.call = (calls chunks)[i]?.map some := by
  rw [← List.getElem?_map, h, List.getElem?_map]

theorem Sent.shape {t ct : FrameType} {room : Int} {args : List Bytes} {frames : List TFrame}
    (h : Sent t ct room args frames) : Shape t ct frames := by
  have hcarry := h.body.carry
  refine ⟨?_, h.types, fun frame hframe => ?_, fun i frame flags callArgs hframe hcall => ?_, h.body.size,
    fun frame hframe => ?_⟩
  · rintro rfl
    cases h.types
  · have hmem : frame.call ∈ (calls (frameChunks room args)).map some := by
      rw [← hcarry]
      exact List.mem_map_of_mem hframe
    obtain ⟨⟨flags, callArgs⟩, hcall, heq⟩ := List.mem_map.1 hmem
    have hchunks := List.mem_map_of_mem (f := fun c : Flags × CallArgs => c.2.args) hcall
    rw [calls_args] at hchunks
    exact ⟨flags, callArgs, heq.symm, h.body.counts _ hchunks⟩
  · have hget := hcarry.getElem? i
    rw [hframe, Option.map_some, hcall] at hget
    obtain ⟨call, hcalls, heq⟩ := Option.map_eq_some_iff.1 hget.symm
    obtain rfl := Option.some.inj heq
    rw [hcarry.length_eq]
    exact calls_flags hcalls
  · have hle := h.body.size frame (List.mem_of_mem_dropLast hframe)
    have hge := h.body.filled frame hframe
    omega

theorem message_shape (service : String) (scheme : ArgSchemeValue) (args : List Bytes)
    (h1 : 1 ≤ args.length) (h3 : args.length ≤ 3) (hlen : ∀ a ∈ args, a.length < 2 ^ 31) :
    (∀ it frames, (RequestFragmenter.new service ⟨scheme, args⟩).createFrames it = .ok frames →
      Shape .callRequest .callRequestContinue frames) ∧
    (∀ code it frames, (ResponseFragmenter.new service code ⟨scheme, args⟩).createFrames it = .ok frames →
      Shape .callResponse .callResponseContinue frames) :=
  ⟨fun _ _ h => (RequestFragmenter.sent h1 h3 hlen h).shape,
    fun _ _ _ h => (ResponseFragmenter.sent h1 h3 hlen h).shape⟩

theorem small_message_shape :
    ∃ frames, (RequestFragmenter.new "service" ⟨.raw, [[1], [], [2, 3]]⟩).createFrames
        (Fragmenter.new "service" ⟨.raw, [[1], [], [2, 3]]⟩).headersIter = .ok frames ∧
      Shape .callRequest .callRequestContinue frames := by
  obtain ⟨frames, h⟩ := small_frames
  exact ⟨frames, h, (message_shape "service" .raw [[1], [], [2, 3]] (by decide) (by decide) (by decide)).1 _ _ h⟩

/-! ### Messages that are not sent -/

/-- Both fragmenters accept a message, whatever the order of its headers and the response code. -/
def CanBeSent (service : String) (scheme : ArgSchemeValue) (args : List Bytes) : Prop :=
  (∀ it, ∃ frames, (RequestFragmenter.new service ⟨scheme, args⟩).createFrames it = .ok frames) ∧
    ∀ code it, ∃ frames, (ResponseFragmenter.new service code ⟨scheme, args⟩).createFrames it = .ok frames

/-- A message with a service name of at most 255 bytes and one to three args can be sent exactly if no empty
arg starts where fewer than two bytes of its frame are left. -/
theorem can_be_sent_iff (service : String) (scheme : ArgSchemeValue) (args : List Bytes)
    (hs : (utf8 service).length ≤ 255) (h1 : 1 ≤ args.length) (h3 : args.length ≤ 3)
    (hlen : ∀ a ∈ args, a.length < 2 ^ 31) :
    CanBeSent service scheme args ↔
      (∀ p ∈ starts (requestRoom service scheme) (args.map List.length), ¬ Overdrawn p) ∧
        ∀ p ∈ starts (responseRoom service scheme) (args.map List.length), ¬ Overdrawn p := by
  have hrequest : ∀ it, (∃ frames, (RequestFragmenter.new service ⟨scheme, args⟩).createFrames it = .ok frames) ↔ _ :=
    fun it => RequestFragmenter.createFrames_ok_iff h1 h3 hlen it
  have hresponse : ∀ code it,
      (∃ frames, (ResponseFragmenter.new service code ⟨scheme, args⟩).createFrames it = .ok frames) ↔ _ :=
    fun code it => ResponseFragmenter.createFrames_ok_iff h1 h3 hlen it
  have horder := (Fragmenter.new service ⟨scheme, args⟩).headersIter
  unfold CanBeSent
  simp only [hrequest, hresponse, hs, true_and, not_exists, not_and]
  constructor
  · rintro ⟨h, h'⟩
    exact ⟨h horder, h' .ok horder⟩
  · rintro ⟨h, h'⟩
    exact ⟨fun _ => h, fun _ _ => h'⟩

theorem small_message_can_be_sent : CanBeSent "service" .raw [[1], [], [2, 3]] :=
  (can_be_sent_iff "service" .raw [[1], [], [2, 3]] (by decide) (by decide) (by decide) (by decide)).2
    (by decide)

/-- An empty arg that finds one byte left makes its frame too long. -/
theorem cramped_message_cannot_be_sent :
    ¬ ∀ (service : String) (scheme : ArgSchemeValue) (args : List Bytes), (utf8 service).length ≤ 255 →
      scheme = .raw ∨ scheme = .json → 1 ≤ args.length → args.length ≤ 3 →
      (∀ a ∈ args, a.length < 2 ^ 31) → CanBeSent service scheme args := by
  intro h
  obtain ⟨a, ha⟩ : ∃ a : Bytes, a.length = 65471 := ⟨List.replicate 65471 0, List.length_replicate⟩
  have hlen : ∀ b ∈ [a, []], b.length < 2 ^ 31 := by simp [ha]
  have hsent := (h "" .raw [a, []] (by decide) (.inl rfl) (by simp) (by simp) hlen).1
    (Fragmenter.new "" ⟨.raw, [a, []]⟩).headersIter
  have hover := ((RequestFragmenter.createFrames_ok_iff (by simp) (by simp) hlen _).1 hsent).2
  simp only [List.map_cons, List.map_nil, ha] at hover
  exact absurd hover (by decide)

end Tchannel
