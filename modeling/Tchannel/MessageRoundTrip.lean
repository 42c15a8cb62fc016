import Tchannel.Fragments
import Tchannel.PayloadRoundTrip

/-!
# From a fragmenter to a defragmenter

The frames that `createFrames` builds carry the chunks of `frameChunks` and are read back to them, so that
a message comes out of the defragmenter as `ArgsDefragmenter` puts these chunks together. It is the
message that was sent exactly if every arg is cut cleanly; `request_round_trip_iff` and
`response_round_trip_iff` say so in terms of the lengths of the service name and of the args.
-/

namespace Tchannel
open Wire

/-! ### What a frame carries -/

namespace ArgsFragmenter

theorem nextFrameArgsVec_norm (queue : List Bytes) (room : Int) :
    ∀ c ∈ (nextFrameArgsVec queue room).1, normArg c = c := by
  induction queue generalizing room with
  | nil => simp [nextFrameArgsVec]
  | cons arg queue ih =>
    have hsome : asI32 arg.length ≠ 0 → normArg (some arg) = some arg := by
      intro h
      obtain ⟨x, xs, rfl⟩ := List.exists_cons_of_length_pos (asI32_ne_zero h)
      rfl
    rcases nextFrameArgsVec_cons arg queue (rfl : asI32 (room - argLenLen) = _) with
      ⟨-, heq⟩ | ⟨-, -, heq⟩ | ⟨-, -, heq⟩ | ⟨h0, -, -, heq⟩ | ⟨h0, -, -, heq⟩ <;>
      simp only [heq, List.forall_mem_cons, List.not_mem_nil, false_implies, implies_true, and_true]
    · exact ⟨rfl, ih _⟩
    · unfold chunk
      split
      · rfl
      · rename_i hne
        obtain ⟨x, xs, h⟩ := List.exists_cons_of_ne_nil hne
        rw [h]
        rfl
    · exact hsome h0
    · exact ⟨hsome h0, ih _⟩

theorem nextFrameArgsVec_length (queue : List Bytes) (room : Int) :
    (nextFrameArgsVec queue room).1.length ≤ queue.length ∧
      (nextFrameArgsVec queue room).2.length ≤ queue.length := by
  induction queue generalizing room with
  | nil => simp [nextFrameArgsVec]
  | cons arg queue ih =>
    rcases nextFrameArgsVec_cons arg queue (rfl : asI32 (room - argLenLen) = _) with
      ⟨-, heq⟩ | ⟨-, -, heq⟩ | ⟨-, -, heq⟩ | ⟨-, -, -, heq⟩ | ⟨-, -, -, heq⟩ <;>
      simp only [heq, List.length_cons, List.length_nil]
    · have := ih (asI32 (room - argLenLen))
      omega
    · omega
    · omega
    · omega
    · have := ih (asI32 (asI32 (room - argLenLen) - asI32 arg.length))
      omega

theorem nextFrameArgsVec_ne_nil {queue : List Bytes} (hq : queue ≠ []) {room : Int}
    (hr : 0 ≤ asI32 (room - argLenLen)) : (nextFrameArgsVec queue room).1 ≠ [] := by
  cases queue with
  | nil => exact absurd rfl hq
  | cons arg queue =>
    rcases nextFrameArgsVec_cons arg queue (rfl : asI32 (room - argLenLen) = _) with
      ⟨-, heq⟩ | ⟨-, hneg, -⟩ | ⟨-, -, heq⟩ | ⟨-, -, -, heq⟩ | ⟨-, -, -, heq⟩
    · simp [heq]
    · omega
    · simp [heq]
    · simp [heq]
    · simp [heq]

end ArgsFragmenter

/-- Args without a checksum. -/
def plainArgs (chunks : List (Option Bytes)) : CallArgs := ⟨.none, none, chunks⟩

theorem plainArgs_encodable {chunks : List (Option Bytes)} :
    (plainArgs chunks).Encodable ↔ 1 ≤ chunks.length ∧ chunks.length ≤ 3 :=
  ⟨fun h => ⟨h.one_le, h.le_three⟩, fun h => ⟨h.1, h.2, fun hc => absurd rfl hc⟩⟩

theorem plainArgs_encodedLen (chunks : List (Option Bytes)) :
    (plainArgs chunks).encodedLen = 1 + chunksLen chunks := rfl

theorem plainArgs_normalize {chunks : List (Option Bytes)} (h : ∀ c ∈ chunks, normArg c = c) :
    (plainArgs chunks).normalize = plainArgs chunks := by
  have : chunks.map normArg = chunks := (List.map_congr_left h).trans (List.map_id chunks)
  simp [CallArgs.normalize, plainArgs, this]

namespace Fragmenter
open ArgsFragmenter

theorem limit_eq {n : Nat} (hn : n ≤ 65516) :
    asI32 (asI32 (calculatePayloadLimit n) - checksumLen .none) = continuationRoom - n := by
  have hcast : ((checksumLen .none : Nat) : Int) = 1 := rfl
  unfold calculatePayloadLimit frameMaxLength frameHeaderLength continuationRoom
  rw [hcast, asI32_of_lt (n := ((65534 - 16 - 1 - n : Nat) : Int)) (by omega) (by omega),
    asI32_of_lt (by omega) (by omega)]
  omega

theorem nextFrameArgs_eq {n : Nat} (hn : n ≤ 65516) (queue : List Bytes) :
    nextFrameArgs queue (calculatePayloadLimit n) =
      (plainArgs (ArgsFragmenter.nextFrameArgsVec queue (continuationRoom - n)).1,
        (ArgsFragmenter.nextFrameArgsVec queue (continuationRoom - n)).2) := by
  simp only [nextFrameArgs, Fragmenter.nextFrameArgsVec, limit_eq hn]
  rfl

theorem continuationFrames_nil (t : FrameType) : continuationFrames t [] = .ok [] := by
  rw [continuationFrames]
  rfl

theorem continuationFrames_ne {t : FrameType} {queue : List Bytes} (hq : queue ≠ []) :
    continuationFrames t queue = do
      let next := ArgsFragmenter.nextFrameArgsVec queue continuationRoom
      let payload ← liftCodec (CallContinue.encodeBytes ⟨currentFrameFlag next.2, plainArgs next.1⟩)
      let frames ← continuationFrames t next.2
      return ⟨t, payload⟩ :: frames := by
  have hargs := nextFrameArgs_eq (n := 0) (by omega) queue
  rw [show continuationRoom - ((0 : Nat) : Int) = continuationRoom from rfl] at hargs
  rw [continuationFrames, if_neg (by simpa using hq)]
  simp only [hargs]

theorem continuationFrames_eq_ok {t : FrameType} {queue : List Bytes} {frames : List TFrame}
    (hq : queue ≠ []) :
    continuationFrames t queue = .ok frames ↔ ∃ payload rest,
      CallContinue.encodeBytes ⟨currentFrameFlag (ArgsFragmenter.nextFrameArgsVec queue continuationRoom).2,
        plainArgs (ArgsFragmenter.nextFrameArgsVec queue continuationRoom).1⟩ = .ok payload ∧
      continuationFrames t (ArgsFragmenter.nextFrameArgsVec queue continuationRoom).2 = .ok rest ∧
      frames = ⟨t, payload⟩ :: rest := by
  rw [continuationFrames_ne hq]
  simp only [except_bind_eq_ok, liftCodec_eq_ok]
  constructor
  · rintro ⟨payload, hpayload, rest, hrest, heq⟩
    exact ⟨payload, rest, hpayload, hrest, (Except.ok.inj heq).symm⟩
  · rintro ⟨payload, rest, hpayload, hrest, rfl⟩
    exact ⟨payload, hpayload, rest, hrest, rfl⟩

theorem callContinue_encodes_iff (flags : Flags) {chunks : List (Option Bytes)} (h1 : chunks ≠ [])
    (h3 : chunks.length ≤ 3) :
    (∃ payload, CallContinue.encodeBytes ⟨flags, plainArgs chunks⟩ = .ok payload) ↔
      (chunksLen chunks : Int) ≤ continuationRoom := by
  have hpos := List.length_pos_of_ne_nil h1
  have hlen : (CallContinue.mk flags (plainArgs chunks)).encodedLen = 1 + (1 + chunksLen chunks) := rfl
  have hmax : maxPayload = 65518 := rfl
  simp only [CallContinue.encodeBytes_eq_ok, plainArgs_encodable, hlen, hmax, continuationRoom]
  constructor
  · rintro ⟨payload, -, hle, -⟩
    omega
  · intro hle
    exact ⟨_, ⟨hpos, h3⟩, by omega, rfl⟩

/-- The continuation frames of up to three args are built exactly if their chunks fit. -/
theorem continuationFrames_ok_iff (t : FrameType) {queue : List Bytes} (h3 : queue.length ≤ 3) :
    (∃ frames, continuationFrames t queue = .ok frames) ↔
      ∀ cs ∈ continuationChunks queue, (chunksLen cs : Int) ≤ continuationRoom := by
  induction queue using continuation_induction with
  | nil => simp [continuationFrames_nil, continuationChunks_nil]
  | next queue hq ih =>
    obtain ⟨hc, hl⟩ := nextFrameArgsVec_length queue continuationRoom
    have hne := nextFrameArgsVec_ne_nil hq continuationRoom_pos.le
    have hrest := ih (hl.trans h3)
    have hfirst := callContinue_encodes_iff
      (currentFrameFlag (ArgsFragmenter.nextFrameArgsVec queue continuationRoom).2) hne (hc.trans h3)
    rw [continuationChunks_ne hq, frameChunks, List.forall_mem_cons, ← hfirst, ← hrest]
    constructor
    · rintro ⟨frames, h⟩
      obtain ⟨payload, rest, hp, hr, -⟩ := (continuationFrames_eq_ok hq).1 h
      exact ⟨⟨payload, hp⟩, rest, hr⟩
    · rintro ⟨⟨payload, hp⟩, rest, hr⟩
      exact ⟨_, (continuationFrames_eq_ok hq).2 ⟨payload, rest, hp, hr, rfl⟩⟩

theorem currentFrameFlag_contains (queue : List Bytes) :
    (currentFrameFlag queue).contains Flags.moreFragmentsFollow = !queue.isEmpty := by
  unfold currentFrameFlag
  cases queue.isEmpty <;> rfl

theorem continueFrames_continuationFrames {t : FrameType}
    (ht : t = .callRequestContinue ∨ t = .callResponseContinue) (id : UInt32) (closed : Bool)
    {queue : List Bytes} (hq : queue ≠ []) {frames : List TFrame}
    (h : continuationFrames t queue = .ok frames) (d : ArgsDefragmenter) :
    Defragmenter.continueFrames closed (frames.map (TFrameId.mk id)) d =
      .ok (d.addAll (continuationChunks queue)) ⟨[], closed⟩ := by
  induction queue using continuation_induction generalizing frames d with
  | nil => exact absurd rfl hq
  | next queue hq ih =>
    obtain ⟨payload, rest, hp, hr, rfl⟩ := (continuationFrames_eq_ok hq).1 h
    have hdecode := CallContinue.decode_encodeBytes hp
    rw [plainArgs_normalize (nextFrameArgsVec_norm queue continuationRoom)] at hdecode
    have hframe : Defragmenter.continueFrame d ⟨t, payload⟩ =
        .ok (d.add (ArgsFragmenter.nextFrameArgsVec queue continuationRoom).1,
          (ArgsFragmenter.nextFrameArgsVec queue continuationRoom).2.isEmpty) := by
      have hflag := currentFrameFlag_contains (ArgsFragmenter.nextFrameArgsVec queue continuationRoom).2
      rcases ht with rfl | rfl <;>
      · simp only [Defragmenter.continueFrame, decodePayload, hdecode, bind, Except.bind, hflag, Bool.not_not]
        rfl
    rw [List.map_cons, Defragmenter.continueFrames, hframe, continuationChunks_ne hq, frameChunks]
    by_cases hend : (ArgsFragmenter.nextFrameArgsVec queue continuationRoom).2 = []
    · rw [hend, continuationFrames_nil] at hr
      rw [hend, continuationChunks_nil, ← Except.ok.inj hr]
      rfl
    · have hempty : (ArgsFragmenter.nextFrameArgsVec queue continuationRoom).2.isEmpty = false := by
        simpa using hend
      rw [hempty]
      exact ih hend hr _

/-! ### A whole message -/

section

variable {fragmenter : Fragmenter} {fb : Bytes} {t ct : FrameType} {frames : List TFrame}

def firstChunks (fragmenter : Fragmenter) (fb : Bytes) : List (Option Bytes) × List Bytes :=
  ArgsFragmenter.nextFrameArgsVec fragmenter.argsFragmenter.args (continuationRoom - fb.length)

theorem createFrames_eq_ok (hfb : fb.length ≤ 65516) :
    fragmenter.createFrames (.ok fb) t ct = .ok frames ↔ ∃ payload rest,
      CallWithFieldsEncoded.encodeBytes ⟨currentFrameFlag (fragmenter.firstChunks fb).2, fb,
        plainArgs (fragmenter.firstChunks fb).1⟩ = .ok payload ∧
      continuationFrames ct (fragmenter.firstChunks fb).2 = .ok rest ∧ frames = ⟨t, payload⟩ :: rest := by
  have hargs := nextFrameArgs_eq hfb fragmenter.argsFragmenter.args
  unfold createFrames firstChunks
  simp only [liftCodec_ok, except_bind_eq_ok, liftCodec_eq_ok]
  constructor
  · rintro ⟨_, hok, payload, hpayload, rest, hrest, heq⟩
    obtain rfl := Except.ok.inj hok
    rw [hargs] at hpayload hrest
    exact ⟨payload, rest, hpayload, hrest, (Except.ok.inj heq).symm⟩
  · rintro ⟨payload, rest, hpayload, hrest, rfl⟩
    exact ⟨fb, rfl, payload, by rw [hargs]; exact hpayload, rest, by rw [hargs]; exact hrest, rfl⟩

theorem createFrames_ok_iff (hfb : fb.length ≤ 65514)
    (h1 : 1 ≤ fragmenter.argsFragmenter.args.length) (h3 : fragmenter.argsFragmenter.args.length ≤ 3) :
    (∃ frames, fragmenter.createFrames (.ok fb) t ct = .ok frames) ↔
      (chunksLen (fragmenter.firstChunks fb).1 : Int) ≤ continuationRoom - fb.length ∧
        ∀ cs ∈ continuationChunks (fragmenter.firstChunks fb).2, (chunksLen cs : Int) ≤ continuationRoom := by
  obtain ⟨hc, hl⟩ : (fragmenter.firstChunks fb).1.length ≤ fragmenter.argsFragmenter.args.length ∧
      (fragmenter.firstChunks fb).2.length ≤ fragmenter.argsFragmenter.args.length :=
    nextFrameArgsVec_length _ _
  have hroom : asI32 (continuationRoom - fb.length - argLenLen) = continuationRoom - fb.length - 2 :=
    asI32_room (by unfold continuationRoom; omega) (by omega)
  have hne : (fragmenter.firstChunks fb).1 ≠ [] :=
    nextFrameArgsVec_ne_nil (List.ne_nil_of_length_pos h1) (by rw [hroom]; unfold continuationRoom; omega)
  have hpos := List.length_pos_of_ne_nil hne
  have hmax : maxPayload = 65518 := rfl
  rw [← continuationFrames_ok_iff ct (hl.trans h3)]
  simp only [createFrames_eq_ok (show fb.length ≤ 65516 by omega), CallWithFieldsEncoded.encodeBytes_eq_ok,
    plainArgs_encodable, plainArgs_encodedLen, hmax]
  unfold continuationRoom
  constructor
  · rintro ⟨frames, payload, rest, ⟨-, hle, -⟩, hrest, -⟩
    exact ⟨by omega, rest, hrest⟩
  · rintro ⟨hle, rest, hrest⟩
    exact ⟨_, _, rest, ⟨⟨hpos, hc.trans h3⟩, by omega, rfl⟩, hrest, rfl⟩

/-- `decode` reads the first frame of a message whose fields are encoded to `fb`. -/
def ReadsCall {C F : Type} [Call C F] (decode : Cursor CodecError C) (fb : Bytes) (fields : F) : Prop :=
  ∀ flags chunks payload, (∀ c ∈ chunks, normArg c = c) →
    CallWithFieldsEncoded.encodeBytes ⟨flags, fb, plainArgs chunks⟩ = .ok payload →
    ∃ c, decode.run payload = .ok c [] ∧ Call.fields c = fields ∧ Call.flags c = flags ∧
      Call.args c = plainArgs chunks

theorem readAndCheck_createFrames {C F : Type} [Call C F] {decode : Cursor CodecError C}
    {checkFields : F → CodecResult ArgSchemeValue} {fields : F} {scheme : ArgSchemeValue}
    (hdecode : ReadsCall decode fb fields)
    (hcheck : checkFields fields = .ok scheme) (hct : ct = .callRequestContinue ∨ ct = .callResponseContinue)
    (hfb : fb.length ≤ 65516) (h : fragmenter.createFrames (.ok fb) t ct = .ok frames)
    (id : UInt32) (closed : Bool) :
    (Defragmenter.readAndCheck t decode checkFields).run ⟨frames.map (TFrameId.mk id), closed⟩ =
      .ok (fields, ⟨scheme, (ArgsDefragmenter.default.addAll
        (frameChunks (continuationRoom - fb.length) fragmenter.argsFragmenter.args)).args⟩) ⟨[], closed⟩ := by
  obtain ⟨payload, rest, hp, hr, rfl⟩ := (createFrames_eq_ok hfb).1 h
  obtain ⟨c, hc, hfields, hflags, hargs⟩ := hdecode _ _ _ (nextFrameArgsVec_norm _ _) hp
  have hverify : verifyArgs (Call.args c) = .ok (fragmenter.firstChunks fb).1 := by rw [hargs]; rfl
  have hbegin : Defragmenter.beginFrame t decode ⟨t, payload⟩ = _ := Defragmenter.beginFrame_eq_ok hc hverify
  rw [hfields, hflags] at hbegin
  rw [Defragmenter.readAndCheck_run]
  simp only [List.map_cons, hbegin, hcheck, currentFrameFlag_contains]
  by_cases hend : (fragmenter.firstChunks fb).2 = []
  · rw [hend, continuationFrames_nil] at hr
    rw [hend, ← Except.ok.inj hr, frameChunks]
    have hchunks : continuationChunks (ArgsFragmenter.nextFrameArgsVec fragmenter.argsFragmenter.args
        (continuationRoom - fb.length)).2 = [] := by
      rw [show (ArgsFragmenter.nextFrameArgsVec _ _).2 = [] from hend, continuationChunks_nil]
    rw [hchunks]
    rfl
  · have hmore : (fragmenter.firstChunks fb).2.isEmpty = false := by simpa using hend
    rw [hmore]
    simp only [Bool.not_false, if_true, continueFrames_continuationFrames hct id closed hend hr]
    rfl

/-- The message survives being cut: it is not accepted, or every arg is cut cleanly. -/
def Survives (room : Int) (args : List Bytes) : Prop :=
  (∃ p ∈ starts room (args.map List.length), Overdrawn p) ∨
    ∀ p ∈ starts room (args.map List.length), CutCleanly p

instance (room : Int) (args : List Bytes) : Decidable (Survives room args) :=
  inferInstanceAs (Decidable (_ ∨ _))

/-- What a defragmenter makes of a message of one to three args. -/
theorem createFrames_rebuild (fragmenter : Fragmenter) (t ct : FrameType) (hfb : fb.length ≤ 1000)
    (h1 : 1 ≤ fragmenter.argsFragmenter.args.length)
    (h3 : fragmenter.argsFragmenter.args.length ≤ 3)
    (hlen : ∀ a ∈ fragmenter.argsFragmenter.args, a.length < 2147483648) :
    ((∃ frames, fragmenter.createFrames (.ok fb) t ct = .ok frames) ↔
      ¬ ∃ p ∈ starts (continuationRoom - fb.length) (fragmenter.argsFragmenter.args.map List.length),
        Overdrawn p) ∧
    ((∃ frames, fragmenter.createFrames (.ok fb) t ct = .ok frames) →
      (ArgsDefragmenter.default.addAll
          (frameChunks (continuationRoom - fb.length) fragmenter.argsFragmenter.args)).args =
        rebuild (continuationRoom - fb.length) [] fragmenter.argsFragmenter.args) := by
  have hroom : 2 ≤ continuationRoom - fb.length := by unfold continuationRoom; omega
  have hres := resume_eq_rebuild (by omega) (by omega : continuationRoom - fb.length ≤ _)
    (fun h => absurd h (by omega) : _ → ([] : List Bytes) ≠ []) hlen (by omega)
  rw [resume_first] at hres
  rw [createFrames_ok_iff (by omega) h1 h3]
  unfold firstChunks
  split at hres
  · rename_i hfit
    split at hres
    · cases hres
    · rename_i hover
      exact ⟨iff_of_true hfit hover, fun _ => Option.some.inj hres⟩
  · rename_i hfit
    split at hres
    · rename_i hover
      exact ⟨iff_of_false hfit (not_not.2 hover), fun h => absurd h hfit⟩
    · cases hres

/-- A message of one to three args is read back exactly if it survives. -/
theorem round_trip_iff (fragmenter : Fragmenter) (t : FrameType) {C F : Type} [Call C F] {decode : Cursor CodecError C}
    {checkFields : F → CodecResult ArgSchemeValue} {fields : F} {scheme : ArgSchemeValue}
    (hdecode : ReadsCall decode fb fields)
    (hcheck : checkFields fields = .ok scheme) (hct : ct = .callRequestContinue ∨ ct = .callResponseContinue)
    (hfb : fb.length ≤ 1000) (h1 : 1 ≤ fragmenter.argsFragmenter.args.length)
    (h3 : fragmenter.argsFragmenter.args.length ≤ 3)
    (hlen : ∀ a ∈ fragmenter.argsFragmenter.args, a.length < 2147483648)
    {Q : F → Prop} (hQ : Q fields) (id : UInt32) (closed : Bool) :
    (∀ frames, fragmenter.createFrames (.ok fb) t ct = .ok frames →
      ∃ f rest, (Defragmenter.readAndCheck t decode checkFields).run ⟨frames.map (TFrameId.mk id), closed⟩ =
        .ok (f, ⟨scheme, fragmenter.argsFragmenter.args⟩) rest ∧ Q f) ↔
      Survives (continuationRoom - fb.length) fragmenter.argsFragmenter.args := by
  obtain ⟨hok, hargs⟩ := createFrames_rebuild fragmenter t ct hfb h1 h3 hlen
  have hread := fun frames (h : fragmenter.createFrames (.ok fb) t ct = .ok frames) =>
    readAndCheck_createFrames hdecode hcheck hct (by omega) h id closed
  have hroom : ¬ continuationRoom - fb.length < 2 := by unfold continuationRoom; omega
  constructor
  · intro h
    by_cases hover : ∃ p ∈ starts (continuationRoom - fb.length)
        (fragmenter.argsFragmenter.args.map List.length), Overdrawn p
    · exact .inl hover
    · obtain ⟨frames, hframes⟩ := hok.2 hover
      obtain ⟨f, rest, hrun, -⟩ := h frames hframes
      rw [hread frames hframes, hargs ⟨frames, hframes⟩] at hrun
      simp only [EStateM.Result.ok.injEq, Prod.mk.injEq, MessageArgs.mk.injEq, true_and] at hrun
      exact .inr (clean_of_rebuild_eq (fun h => absurd h hroom) (by omega) hrun.1.2)
  · rintro hsurvives frames hframes
    rcases hsurvives with hover | hclean
    · exact absurd hover (hok.1 ⟨frames, hframes⟩)
    · refine ⟨fields, ⟨[], closed⟩, ?_, hQ⟩
      rw [hread frames hframes, hargs ⟨frames, hframes⟩, rebuild_eq_of_clean hclean, List.nil_append]

end

/-! ### The headers of a message -/

theorem createHeaders_entries (fragmenter : Fragmenter) :
    fragmenter.createHeaders.entries =
      {⟨"cn", fragmenter.serviceName⟩, ⟨"as", fragmenter.argScheme.toString⟩} := by
  have has : ("as" : String) ∉ (∅ : HashMap String String) := Finmap.notMem_empty
  have hcn : ("cn" : String) ∉ Finmap.insert "as" fragmenter.argScheme.toString (∅ : HashMap String String) := by
    rw [Finmap.mem_insert, not_or]
    exact ⟨by decide, Finmap.notMem_empty⟩
  show (Finmap.insert "cn" fragmenter.serviceName
    (Finmap.insert "as" fragmenter.argScheme.toString (∅ : HashMap String String))).entries = _
  rw [Finmap.entries_insert_of_notMem hcn, Finmap.entries_insert_of_notMem has]
  rfl

theorem argScheme_length (scheme : ArgSchemeValue) : (utf8 scheme.toString).length ≤ 7 := by
  cases scheme <;> decide

theorem utf8_key_length : (utf8 "cn").length = 2 ∧ (utf8 "as").length = 2 := by decide

theorem createHeaders_fit (fragmenter : Fragmenter) :
    HeadersFit 1 fragmenter.createHeaders ↔ (utf8 fragmenter.serviceName).length ≤ 255 := by
  obtain ⟨hcn, has⟩ := utf8_key_length
  have hscheme := argScheme_length fragmenter.argScheme
  constructor
  · intro h
    have : (utf8 fragmenter.serviceName).length < 256 ^ 1 :=
      h.val ⟨"cn", fragmenter.serviceName⟩ (by simp [createHeaders_entries])
    omega
  · intro h
    refine ⟨by simp [createHeaders_entries], ?_, ?_⟩ <;> intro e he <;>
      simp only [createHeaders_entries, Multiset.insert_eq_cons, Multiset.mem_cons,
        Multiset.mem_singleton] at he <;> rcases he with rfl | rfl <;> simp only <;> omega

theorem createHeaders_length (fragmenter : Fragmenter) :
    headersLen 1 fragmenter.createHeaders =
      9 + (utf8 fragmenter.serviceName).length + (utf8 fragmenter.argScheme.toString).length := by
  obtain ⟨hcn, has⟩ := utf8_key_length
  simp only [headersLen, createHeaders_entries, Multiset.insert_eq_cons, Multiset.map_cons,
    Multiset.map_singleton, Multiset.sum_cons, Multiset.sum_singleton, hcn, has]
  omega

theorem getArgsScheme_createHeaders {F : Type} [CallFields F] {fragmenter : Fragmenter} {fields : F}
    (h : CallFields.headers fields = fragmenter.createHeaders) :
    getArgsScheme fields = .ok fragmenter.argScheme := by
  have hlookup : fragmenter.createHeaders.lookup TransportHeaderKey.argScheme.toString =
      some fragmenter.argScheme.toString := by
    unfold createHeaders
    rw [Finmap.lookup_insert_of_ne _ (by decide), Finmap.lookup_insert]
  rw [getArgsScheme, h, hlookup]
  exact ArgSchemeValue.fromStr_toString _

theorem createFrames_error (fragmenter : Fragmenter) (e : CodecError) (t ct : FrameType) :
    fragmenter.createFrames (.error e) t ct = .error (.codecError e) := rfl

end Fragmenter

open ArgsFragmenter Fragmenter

/-! ### Encoded fields -/

/-- The encoded fields of a message: there are some unless the service name is too long, and then they leave
`room` for chunks in the first frame. -/
structure EncodedFields (service : String) (room : Int) (fields : CodecResult Bytes) : Prop where
  small : (utf8 service).length ≤ 255 →
    ∃ fb, fields = .ok fb ∧ continuationRoom - fb.length = room ∧ fb.length ≤ 1000
  large : ¬ (utf8 service).length ≤ 255 → ∃ e, fields = .error e

theorem Writes.encodedFields {service : String} {room : Int} {encode : Bytes → CodecResult Bytes} {P : Prop}
    {fb : Bytes} (h : Writes encode P fb) (hP : P ↔ (utf8 service).length ≤ 255)
    (hroom : continuationRoom - fb.length = room) (hle : (utf8 service).length ≤ 255 → fb.length ≤ 1000) :
    EncodedFields service room (encode []) := by
  refine ⟨fun hs => ⟨fb, (h _ _).2 ⟨hP.2 hs, rfl⟩, hroom, hle hs⟩, fun hs => ?_⟩
  cases hfields : encode [] with
  | ok d => exact absurd (hP.1 ((h _ _).1 hfields).1) hs
  | error e => exact ⟨e, rfl⟩

namespace EncodedFields

variable {service : String} {room : Int} {fields : CodecResult Bytes} {fragmenter : Fragmenter}
  {t ct : FrameType} {frames : List TFrame}

theorem of_createFrames (h : EncodedFields service room fields)
    (hframes : fragmenter.createFrames fields t ct = .ok frames) :
    (utf8 service).length ≤ 255 ∧
      ∃ fb, fields = .ok fb ∧ continuationRoom - fb.length = room ∧ fb.length ≤ 1000 := by
  by_cases hs : (utf8 service).length ≤ 255
  · exact ⟨hs, h.small hs⟩
  · obtain ⟨e, rfl⟩ := h.large hs
    rw [createFrames_error] at hframes
    cases hframes

variable (h : EncodedFields service room fields) (h1 : 1 ≤ fragmenter.argsFragmenter.args.length)
  (h3 : fragmenter.argsFragmenter.args.length ≤ 3)
  (hlen : ∀ a ∈ fragmenter.argsFragmenter.args, a.length < 2147483648)

include h h1 h3 hlen

theorem createFrames_ok_iff :
    (∃ frames, fragmenter.createFrames fields t ct = .ok frames) ↔
      (utf8 service).length ≤ 255 ∧
        ¬ ∃ p ∈ starts room (fragmenter.argsFragmenter.args.map List.length), Overdrawn p := by
  by_cases hs : (utf8 service).length ≤ 255
  · obtain ⟨fb, rfl, rfl, hle⟩ := h.small hs
    exact (createFrames_rebuild fragmenter t ct hle h1 h3 hlen).1.trans (and_iff_right hs).symm
  · exact iff_of_false (fun ⟨frames, hframes⟩ => hs (h.of_createFrames hframes).1) fun hsent => hs hsent.1

theorem round_trip_iff {C F : Type} [Call C F] {decode : Cursor CodecError C}
    {checkFields : F → CodecResult ArgSchemeValue} {f : F} {scheme : ArgSchemeValue}
    (hdecode : ∀ fb, fields = .ok fb → ReadsCall decode fb f) (hcheck : checkFields f = .ok scheme)
    (hct : ct = .callRequestContinue ∨ ct = .callResponseContinue) {Q : F → Prop} (hQ : Q f) (id : UInt32)
    (closed : Bool) :
    (∀ frames, fragmenter.createFrames fields t ct = .ok frames →
      ∃ f rest, (Defragmenter.readAndCheck t decode checkFields).run ⟨frames.map (TFrameId.mk id), closed⟩ =
        .ok (f, ⟨scheme, fragmenter.argsFragmenter.args⟩) rest ∧ Q f) ↔
      255 < (utf8 service).length ∨ Survives room fragmenter.argsFragmenter.args := by
  by_cases hs : (utf8 service).length ≤ 255
  · obtain ⟨fb, rfl, rfl, hle⟩ := h.small hs
    exact (Fragmenter.round_trip_iff fragmenter t (hdecode fb rfl) hcheck hct hle h1 h3 hlen hQ id closed).trans
      (or_iff_right (Nat.not_lt.2 hs)).symm
  · exact iff_of_true (fun frames hframes => absurd (h.of_createFrames hframes).1 hs) (.inl (Nat.not_le.1 hs))

end EncodedFields

/-! ### Requests -/

/-- The room for chunks in the first frame of a request. -/
def requestRoom (service : String) (scheme : ArgSchemeValue) : Int :=
  65477 - 2 * (utf8 service).length - (utf8 scheme.toString).length

namespace RequestFragmenter

variable {service : String} {margs : MessageArgs}

theorem createFields_encodable :
    (new service margs).createFields.Encodable ↔ (utf8 service).length ≤ 255 := by
  have hfit := createHeaders_fit (Fragmenter.new service margs)
  constructor
  · intro h
    exact hfit.1 h.headers
  · intro h
    refine ⟨?_, hfit.2 h⟩
    show (utf8 service).length < 256
    omega

theorem createFields_encodedLen :
    (new service margs).createFields.encodedLen =
      39 + 2 * (utf8 service).length + (utf8 margs.argScheme.toString).length := by
  show 4 + 25 + (1 + (utf8 service).length) + headersLen 1 (Fragmenter.new service margs).createHeaders = _
  rw [createHeaders_length]
  show 4 + 25 + (1 + (utf8 service).length) +
    (9 + (utf8 service).length + (utf8 margs.argScheme.toString).length) = _
  omega

theorem encodedFields (it : Iter (new service margs).createFields.headers) :
    EncodedFields service (requestRoom service margs.argScheme) ((new service margs).createFields.encodeBytes it) := by
  have hlen := (CallRequestFields.bytes_length (new service margs).createFields it).trans createFields_encodedLen
  have hscheme := argScheme_length margs.argScheme
  refine (CallRequestFields.writes _ it).encodedFields createFields_encodable ?_ fun hs => by omega
  unfold continuationRoom requestRoom
  omega

theorem readsCall_createFields {it : Iter (new service margs).createFields.headers} {fb : Bytes}
    (h : (new service margs).createFields.encodeBytes it = .ok fb) :
    ReadsCall CallRequest.decode fb (new service margs).createFields := by
  intro flags chunks payload hnorm hp
  have := CallWithFieldsEncoded.decode_request h hp
  rw [plainArgs_normalize hnorm] at this
  exact ⟨_, this, rfl, rfl, rfl⟩

theorem createFrames_ok_iff (h1 : 1 ≤ margs.args.length) (h3 : margs.args.length ≤ 3)
    (hlen : ∀ a ∈ margs.args, a.length < 2147483648) (it : Iter (new service margs).createFields.headers) :
    (∃ frames, (new service margs).createFrames it = .ok frames) ↔
      (utf8 service).length ≤ 255 ∧
        ¬ ∃ p ∈ starts (requestRoom service margs.argScheme) (margs.args.map List.length), Overdrawn p :=
  (encodedFields it).createFrames_ok_iff h1 h3 hlen

end RequestFragmenter

/-- The frames of a request, if there are any, are read back to the request. -/
def RequestComesBack (service : String) (scheme : ArgSchemeValue) (args : List Bytes)
    (it : Iter (RequestFragmenter.new service ⟨scheme, args⟩).createFields.headers) (id : UInt32)
    (closed : Bool) : Prop :=
  ∀ frames, (RequestFragmenter.new service ⟨scheme, args⟩).createFrames it = .ok frames →
    ∃ fields rest, RequestDefragmenter.readRequest.run ⟨frames.map (TFrameId.mk id), closed⟩ =
      .ok (fields, ⟨scheme, args⟩) rest ∧ fields.service = service

theorem request_round_trip_iff {service : String} {scheme : ArgSchemeValue} {args : List Bytes}
    (h1 : 1 ≤ args.length) (h3 : args.length ≤ 3) (hlen : ∀ a ∈ args, a.length < 2147483648)
    (it : Iter (RequestFragmenter.new service ⟨scheme, args⟩).createFields.headers) (id : UInt32)
    (closed : Bool) :
    RequestComesBack service scheme args it id closed ↔
      255 < (utf8 service).length ∨ Survives (requestRoom service scheme) args :=
  (RequestFragmenter.encodedFields it).round_trip_iff h1 h3 hlen
    (fun _ => RequestFragmenter.readsCall_createFields) (getArgsScheme_createHeaders rfl) (.inl rfl)
    (Q := fun f => f.service = service) rfl id closed

/-! ### Responses -/

/-- The room for chunks in the first frame of a response. -/
def responseRoom (service : String) (scheme : ArgSchemeValue) : Int :=
  65481 - (utf8 service).length - (utf8 scheme.toString).length

namespace ResponseFragmenter

variable {service : String} {code : ResponseCode} {margs : MessageArgs}

theorem createResponseFields_encodable :
    (new service code margs).createResponseFields.Encodable ↔ (utf8 service).length ≤ 255 := by
  have hfit := createHeaders_fit (Fragmenter.new service margs)
  constructor
  · intro h
    exact hfit.1 h.headers
  · intro h
    exact ⟨hfit.2 h⟩

theorem createResponseFields_encodedLen :
    (new service code margs).createResponseFields.encodedLen =
      35 + (utf8 service).length + (utf8 margs.argScheme.toString).length := by
  show 1 + 25 + headersLen 1 (Fragmenter.new service margs).createHeaders = _
  rw [createHeaders_length]
  show 1 + 25 + (9 + (utf8 service).length + (utf8 margs.argScheme.toString).length) = _
  omega

theorem encodedFields (it : Iter (new service code margs).createResponseFields.headers) :
    EncodedFields service (responseRoom service margs.argScheme)
      ((new service code margs).createResponseFields.encodeBytes it) := by
  have hlen := (CallResponseFields.bytes_length (new service code margs).createResponseFields it).trans
    createResponseFields_encodedLen
  have hscheme := argScheme_length margs.argScheme
  refine (CallResponseFields.writes _ it).encodedFields createResponseFields_encodable ?_ fun hs => by omega
  unfold continuationRoom responseRoom
  omega

theorem readsCall_createResponseFields {it : Iter (new service code margs).createResponseFields.headers}
    {fb : Bytes} (h : (new service code margs).createResponseFields.encodeBytes it = .ok fb) :
    ReadsCall CallResponse.decode fb (new service code margs).createResponseFields := by
  intro flags chunks payload hnorm hp
  have := CallWithFieldsEncoded.decode_response h hp
  rw [plainArgs_normalize hnorm] at this
  exact ⟨_, this, rfl, rfl, rfl⟩

theorem createFrames_ok_iff (h1 : 1 ≤ margs.args.length) (h3 : margs.args.length ≤ 3)
    (hlen : ∀ a ∈ margs.args, a.length < 2147483648)
    (it : Iter (new service code margs).createResponseFields.headers) :
    (∃ frames, (new service code margs).createFrames it = .ok frames) ↔
      (utf8 service).length ≤ 255 ∧
        ¬ ∃ p ∈ starts (responseRoom service margs.argScheme) (margs.args.map List.length), Overdrawn p :=
  (encodedFields it).createFrames_ok_iff h1 h3 hlen

end ResponseFragmenter

/-- The frames of a response, if there are any, are read back to the response. -/
def ResponseComesBack (service : String) (code : ResponseCode) (scheme : ArgSchemeValue) (args : List Bytes)
    (it : Iter (ResponseFragmenter.new service code ⟨scheme, args⟩).createResponseFields.headers) (id : UInt32)
    (closed : Bool) : Prop :=
  ∀ frames, (ResponseFragmenter.new service code ⟨scheme, args⟩).createFrames it = .ok frames →
    ∃ fields rest, ResponseDefragmenter.readResponse.run ⟨frames.map (TFrameId.mk id), closed⟩ =
      .ok (fields, ⟨scheme, args⟩) rest ∧ fields.code = code

theorem response_round_trip_iff {service : String} {code : ResponseCode} {scheme : ArgSchemeValue}
    {args : List Bytes} (h1 : 1 ≤ args.length) (h3 : args.length ≤ 3)
    (hlen : ∀ a ∈ args, a.length < 2147483648)
    (it : Iter (ResponseFragmenter.new service code ⟨scheme, args⟩).createResponseFields.headers) (id : UInt32)
    (closed : Bool) :
    ResponseComesBack service code scheme args it id closed ↔
      255 < (utf8 service).length ∨ Survives (responseRoom service scheme) args :=
  (ResponseFragmenter.encodedFields it).round_trip_iff h1 h3 hlen
    (fun _ => ResponseFragmenter.readsCall_createResponseFields) (getArgsScheme_createHeaders rfl) (.inr rfl)
    (Q := fun f => f.code = code) rfl id closed

/-- For messages of one to three args, fragmentation followed by defragmentation is the identity exactly
where the message survives being cut. -/
theorem fragmentation_round_trip_iff (service : String) (scheme : ArgSchemeValue) (args : List Bytes)
    (h1 : 1 ≤ args.length) (h3 : args.length ≤ 3) (hlen : ∀ a ∈ args, a.length < 2 ^ 31) (id : UInt32)
    (closed : Bool) :
    (∀ it, RequestComesBack service scheme args it id closed ↔
      255 < (utf8 service).length ∨ Survives (requestRoom service scheme) args) ∧
    (∀ code it, ResponseComesBack service code scheme args it id closed ↔
      255 < (utf8 service).length ∨ Survives (responseRoom service scheme) args) :=
  ⟨fun it => request_round_trip_iff h1 h3 hlen it id closed,
    fun _ it => response_round_trip_iff h1 h3 hlen it id closed⟩

/-- One of the two orders in which the headers of a message can be written. -/
def Fragmenter.headersIter (fragmenter : Fragmenter) : Iter fragmenter.createHeaders :=
  ⟨[⟨"cn", fragmenter.serviceName⟩, ⟨"as", fragmenter.argScheme.toString⟩],
    (createHeaders_entries fragmenter).symm⟩

theorem small_frames :
    ∃ frames, (RequestFragmenter.new "service" ⟨.raw, [[1], [], [2, 3]]⟩).createFrames
      (Fragmenter.new "service" ⟨.raw, [[1], [], [2, 3]]⟩).headersIter = .ok frames :=
  (RequestFragmenter.createFrames_ok_iff (by decide) (by decide) (by decide) _).2 (by decide)

theorem small_args_come_back :
    RequestComesBack "service" .raw [[1], [], [2, 3]]
      (Fragmenter.new "service" ⟨.raw, [[1], [], [2, 3]]⟩).headersIter 7 false :=
  ((fragmentation_round_trip_iff "service" .raw [[1], [], [2, 3]] (by decide) (by decide) (by decide) 7
    false).1 _).2 (.inr (by decide))

/-- An arg that fills the first frame comes back with an empty arg behind it. -/
theorem filling_arg_not_come_back :
    ¬ ∀ (service : String) (scheme : ArgSchemeValue) (args : List Bytes), scheme = .raw ∨ scheme = .json →
      1 ≤ args.length → args.length ≤ 3 → (∀ a ∈ args, a.length < 2 ^ 31) → ∀ (id : UInt32) (closed : Bool),
        (∀ it, RequestComesBack service scheme args it id closed) ∧
          ∀ code it, ResponseComesBack service code scheme args it id closed := by
  intro h
  obtain ⟨a, ha⟩ : ∃ a : Bytes, a.length = 65472 := ⟨List.replicate 65472 0, List.length_replicate⟩
  have hlen : ∀ b ∈ [a], b.length < 2 ^ 31 := by simp [ha]
  have hback := (h "" .raw [a] (.inl rfl) (by simp) (by simp) hlen 1 false).1
    (Fragmenter.new "" ⟨.raw, [a]⟩).headersIter
  rcases (request_round_trip_iff (by simp) (by simp) hlen _ 1 false).1 hback with hs | hs
  · exact absurd hs (by decide)
  · unfold Survives at hs
    rw [List.map_singleton, ha] at hs
    exact absurd hs (by decide)

end Tchannel
