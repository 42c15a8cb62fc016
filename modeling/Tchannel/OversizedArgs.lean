import Tchannel.Conservation
import Tchannel.MessageShape

/-!
# Args of 2 GiB and more

The length of an arg is cast to an `i32`. If it is a multiple of 2^32 the fragmenter takes the arg for an empty
one, and its bytes are lost (`createFrames_truncateArg`). Any other arg of 2^31 bytes or more is never sent:
as long as it is cut it stays such an arg, and in whole it is too long for a frame
(`createFrames_unsendable`).
-/

namespace Tchannel
open Wire

/-- An arg as the fragmenter sees it. -/
def truncateArg (arg : Bytes) : Bytes := if arg.length % 2 ^ 32 = 0 then [] else arg

/-- An arg with a length that is cast to something else, but not to zero. -/
def Unsendable (arg : Bytes) : Prop := 2 ^ 31 ≤ arg.length ∧ arg.length % 2 ^ 32 ≠ 0

theorem asI32_eq_zero {n : ℕ} : asI32 n = 0 ↔ n % 2 ^ 32 = 0 := by
  unfold asI32
  split <;> omega

@[simp] theorem truncateArg_nil : truncateArg [] = [] := rfl

theorem truncateArg_of_ne {arg : Bytes} (h : asI32 arg.length ≠ 0) : truncateArg arg = arg :=
  if_neg fun h0 => h (asI32_eq_zero.2 h0)

theorem truncateArg_length (arg : Bytes) : (truncateArg arg).length ≤ arg.length := by
  unfold truncateArg
  split <;> simp

theorem truncateArg_length_mod {arg : Bytes} (h : ¬ Unsendable arg) :
    (truncateArg arg).length = arg.length % 2 ^ 32 ∧ arg.length % 2 ^ 32 < 2147483648 := by
  unfold Unsendable at h
  unfold truncateArg
  split
  · rename_i h0
    rw [h0]
    exact ⟨rfl, by omega⟩
  · omega

theorem drop_length_mod {arg : Bytes} {limit : Int} (hpos : 0 ≤ limit) (hlt : limit < asI32 arg.length) :
    (arg.drop limit.toNat).length % 2 ^ 32 ≠ 0 ∧ (2 ^ 31 ≤ arg.length → 2 ^ 31 ≤ (arg.drop limit.toNat).length) := by
  rw [List.length_drop]
  unfold asI32 at hlt
  split at hlt <;> omega

namespace ArgsFragmenter

theorem nextArgFragment_truncateArg (arg : Bytes) (limit : Int) :
    nextArgFragment (truncateArg arg) limit =
      ((nextArgFragment arg limit).1, (nextArgFragment arg limit).2.1,
        truncateArg (nextArgFragment arg limit).2.2) := by
  by_cases h0 : asI32 arg.length = 0
  · have hnil : truncateArg arg = [] := if_pos (asI32_eq_zero.1 h0)
    rw [hnil]
    simp only [nextArgFragment, h0, if_true, hnil]
    rfl
  · rw [truncateArg_of_ne h0]
    rcases nextArgFragment_cases arg limit with
      ⟨h, -⟩ | ⟨-, -, heq⟩ | ⟨hpos, hlt, heq⟩ | ⟨-, -, -, heq⟩ | ⟨-, -, -, heq⟩
    · exact absurd h h0
    · rw [heq, truncateArg_of_ne h0]
    · rw [heq, truncateArg_of_ne fun h => (drop_length_mod hpos hlt).1 (asI32_eq_zero.1 h)]
    · rw [heq, truncateArg_nil]
    · rw [heq, truncateArg_nil]

/-- A frame is the same for the args as the fragmenter sees them. -/
theorem nextFrameArgsVec_truncateArg (queue : List Bytes) (limit : Int) :
    nextFrameArgsVec (queue.map truncateArg) limit =
      ((nextFrameArgsVec queue limit).1, (nextFrameArgsVec queue limit).2.map truncateArg) := by
  induction queue generalizing limit with
  | nil => rfl
  | cons arg queue ih =>
    simp only [List.map_cons, nextFrameArgsVec, nextArgFragment_truncateArg]
    cases (nextArgFragment arg (asI32 (limit - argLenLen))).1 with
    | incomplete => rfl
    | completeAtTheEnd => rfl
    | complete => simp only [ih]

theorem nextFrameArgsVec_unsendable {queue : List Bytes} (hq : ∃ a ∈ queue, Unsendable a) (limit : Int) :
    2147483648 ≤ chunksLen (nextFrameArgsVec queue limit).1 ∨
      ∃ a ∈ (nextFrameArgsVec queue limit).2, Unsendable a := by
  induction queue generalizing limit with
  | nil => simp at hq
  | cons arg queue ih =>
    rw [List.exists_mem_cons_iff] at hq
    rcases nextFrameArgsVec_cons arg queue (rfl : asI32 (limit - argLenLen) = _) with
      ⟨h0, heq⟩ | ⟨-, -, heq⟩ | ⟨hpos, hlt, heq⟩ | ⟨-, -, -, heq⟩ | ⟨-, -, -, heq⟩ <;>
      simp only [heq, chunksLen_cons, List.exists_mem_cons_iff]
    · have hqueue : ∃ a ∈ queue, Unsendable a := hq.resolve_left fun h => h.2 (asI32_eq_zero.1 h0)
      rcases ih hqueue (asI32 (limit - argLenLen)) with hlong | hrest
      · exact .inl (by omega)
      · exact .inr hrest
    · exact .inr hq
    · obtain ⟨hmod, hlong⟩ := drop_length_mod hpos hlt
      exact .inr (hq.imp_left fun h => ⟨hlong h.1, hmod⟩)
    · rcases hq with h | hqueue
      · exact .inl (by simp only [argLen, Option.getD_some]; have := h.1; omega)
      · exact .inr (.inr hqueue)
    · rcases hq with h | hqueue
      · exact .inl (by simp only [argLen, Option.getD_some]; have := h.1; omega)
      · rcases ih hqueue (asI32 (asI32 (limit - argLenLen) - asI32 arg.length)) with hlong | hrest
        · exact .inl (by omega)
        · exact .inr hrest

end ArgsFragmenter

namespace Fragmenter
open ArgsFragmenter

variable {t ct : FrameType} {frames : List TFrame}

theorem currentFrameFlag_map (f : Bytes → Bytes) (queue : List Bytes) :
    currentFrameFlag (queue.map f) = currentFrameFlag queue := by
  cases queue <;> rfl

theorem continuationFrames_truncateArg (ct : FrameType) (queue : List Bytes) :
    continuationFrames ct (queue.map truncateArg) = continuationFrames ct queue := by
  induction queue using continuation_induction with
  | nil => rfl
  | next queue hq ih =>
    rw [continuationFrames_ne (by simpa using hq), continuationFrames_ne hq]
    simp only [nextFrameArgsVec_truncateArg, currentFrameFlag_map, ih]

/-- A message has the frames of the args as the fragmenter sees them. -/
theorem createFrames_truncateArg (service : String) (scheme : ArgSchemeValue) (args : List Bytes)
    (fields : CodecResult Bytes) (t ct : FrameType) :
    (new service ⟨scheme, args.map truncateArg⟩).createFrames fields t ct =
      (new service ⟨scheme, args⟩).createFrames fields t ct := by
  simp only [createFrames, new, nextFrameArgs, Fragmenter.nextFrameArgsVec, nextFrameArgsVec_truncateArg,
    currentFrameFlag_map, continuationFrames_truncateArg]

theorem continuationFrames_unsendable {queue : List Bytes} (hq : ∃ a ∈ queue, Unsendable a) :
    continuationFrames ct queue ≠ .ok frames := by
  induction queue using continuation_induction generalizing frames with
  | nil => simp at hq
  | next queue hne ih =>
    intro h
    obtain ⟨payload, rest, hpayload, hrest, -⟩ := (continuationFrames_eq_ok hne).1 h
    rcases nextFrameArgsVec_unsendable hq continuationRoom with hlong | hleft
    · have hle : 1 + (1 + chunksLen (ArgsFragmenter.nextFrameArgsVec queue continuationRoom).1) ≤ 65518 :=
        (CallContinue.encodeBytes_eq_ok.1 hpayload).2.1
      omega
    · exact ih hleft hrest

theorem createFrames_unsendable {self : Fragmenter} {fb : Bytes} (hfb : fb.length ≤ 65516)
    (hargs : ∃ a ∈ self.argsFragmenter.args, Unsendable a) : self.createFrames (.ok fb) t ct ≠ .ok frames := by
  intro h
  obtain ⟨payload, rest, hpayload, hrest, -⟩ := (createFrames_eq_ok hfb).1 h
  rcases nextFrameArgsVec_unsendable hargs (continuationRoom - fb.length) with hlong | hleft
  · have hle : 1 + fb.length + (1 + chunksLen (self.firstChunks fb).1) ≤ 65518 :=
      (CallWithFieldsEncoded.encodeBytes_eq_ok.1 hpayload).2.1
    unfold firstChunks at hle
    omega
  · exact continuationFrames_unsendable hleft hrest

end Fragmenter

open ArgsFragmenter Fragmenter

/-- The service name is too long; an arg cannot be sent; or an arg that is taken for empty is without room. -/
def Refused (room : Int) (service : String) (args : List Bytes) : Prop :=
  255 < (utf8 service).length ∨ (∃ a ∈ args, Unsendable a) ∨
    ∃ p ∈ starts room (args.map fun a => a.length % 2 ^ 32), Overdrawn p

/-- The frames carry these bytes in their chunks. -/
def HoldBytes (frames : List TFrame) (bytes : Bytes) : Prop :=
  ∃ chunks, chunksOf frames = some chunks ∧ chunks.flatMap contents = bytes

theorem truncateArg_short {args : List Bytes} (h : ¬ ∃ a ∈ args, Unsendable a) :
    (∀ a ∈ args.map truncateArg, a.length < 2147483648) ∧
      (args.map truncateArg).map List.length = args.map fun a => a.length % 2 ^ 32 := by
  have hmod : ∀ a ∈ args, _ := fun a ha => truncateArg_length_mod fun hu => h ⟨a, ha, hu⟩
  constructor
  · rw [List.forall_mem_map]
    intro a ha
    rw [(hmod a ha).1]
    exact (hmod a ha).2
  · rw [List.map_map]
    exact List.map_congr_left fun a ha => (hmod a ha).1

theorem flatten_truncateArg_le (args : List Bytes) :
    (args.map truncateArg).flatten.length ≤ args.flatten.length := by
  induction args with
  | nil => exact Nat.le_refl _
  | cons arg args ih =>
    simp only [List.map_cons, List.flatten_cons, List.length_append]
    exact Nat.add_le_add (truncateArg_length arg) ih

theorem flatten_truncateArg_lt {args : List Bytes} (hbig : ∃ a ∈ args, 2147483648 ≤ a.length)
    (hsend : ¬ ∃ a ∈ args, Unsendable a) : (args.map truncateArg).flatten.length < args.flatten.length := by
  obtain ⟨arg, harg, hlong⟩ := hbig
  obtain ⟨before, after, rfl⟩ := List.append_of_mem harg
  have hbefore := flatten_truncateArg_le before
  have hafter := flatten_truncateArg_le after
  obtain ⟨hlen, hlt⟩ := truncateArg_length_mod fun hu => hsend ⟨arg, harg, hu⟩
  simp only [List.map_append, List.map_cons, List.flatten_append, List.flatten_cons, List.length_append]
  omega

namespace EncodedFields

variable {service : String} {room : Int} {fields : CodecResult Bytes} {scheme : ArgSchemeValue}
  {args : List Bytes} {t ct : FrameType}

theorem createFrames_ok_iff_not_refused (h : EncodedFields service room fields) (h1 : 1 ≤ args.length)
    (h3 : args.length ≤ 3) :
    (∃ frames, (Fragmenter.new service ⟨scheme, args⟩).createFrames fields t ct = .ok frames) ↔
      ¬ Refused room service args := by
  by_cases hsend : ∃ a ∈ args, Unsendable a
  · refine iff_of_false (fun ⟨frames, hframes⟩ => ?_) (not_not.2 (.inr (.inl hsend)))
    obtain ⟨-, fb, rfl, -, hle⟩ := h.of_createFrames hframes
    exact createFrames_unsendable (by omega) hsend hframes
  obtain ⟨hshort, hlens⟩ := truncateArg_short hsend
  have h1' : 1 ≤ (args.map truncateArg).length := by rwa [List.length_map]
  have h3' : (args.map truncateArg).length ≤ 3 := by rwa [List.length_map]
  have hok : (∃ frames, (Fragmenter.new service ⟨scheme, args.map truncateArg⟩).createFrames fields t ct = .ok frames) ↔
      (utf8 service).length ≤ 255 ∧
        ¬ ∃ p ∈ starts room ((args.map truncateArg).map List.length), Overdrawn p :=
    h.createFrames_ok_iff h1' h3' hshort
  rw [createFrames_truncateArg, hlens] at hok
  refine hok.trans ?_
  rw [Refused, not_or, not_or, not_lt]
  exact and_congr_right' (and_iff_right hsend).symm

theorem holdBytes (h : EncodedFields service room fields) (hfirst : ∀ fb, fields = .ok fb → CallsAs t fb)
    (ht : ct = .callRequestContinue ∨ ct = .callResponseContinue) {frames : List TFrame}
    (hframes : (Fragmenter.new service ⟨scheme, args⟩).createFrames fields t ct = .ok frames) :
    HoldBytes frames (args.map truncateArg).flatten := by
  have hsend : ¬ ∃ a ∈ args, Unsendable a := by
    obtain ⟨-, fb, rfl, -, hle⟩ := h.of_createFrames hframes
    exact fun hsend => createFrames_unsendable (by omega) hsend hframes
  have hshort := (truncateArg_short hsend).1
  rw [← createFrames_truncateArg] at hframes
  exact ⟨_, (h.body hfirst ht hshort hframes).1.carry.chunksOf_eq, frameChunks_contents hshort _⟩

/-- No byte is lost exactly if the message is refused. -/
theorem holdBytes_iff (h : EncodedFields service room fields) (hfirst : ∀ fb, fields = .ok fb → CallsAs t fb)
    (ht : ct = .callRequestContinue ∨ ct = .callResponseContinue) (h1 : 1 ≤ args.length) (h3 : args.length ≤ 3)
    (hbig : ∃ a ∈ args, 2147483648 ≤ a.length) :
    (∀ frames, (Fragmenter.new service ⟨scheme, args⟩).createFrames fields t ct = .ok frames →
      HoldBytes frames args.flatten) ↔ Refused room service args := by
  constructor
  · intro hkept
    by_contra hrefused
    obtain ⟨frames, hframes⟩ := (h.createFrames_ok_iff_not_refused h1 h3).2 hrefused
    obtain ⟨chunks, hchunks, hbytes⟩ := hkept frames hframes
    obtain ⟨chunks', hchunks', hbytes'⟩ := h.holdBytes hfirst ht hframes
    obtain rfl := Option.some.inj (hchunks.symm.trans hchunks')
    have := flatten_truncateArg_lt hbig fun hsend => hrefused (.inr (.inl hsend))
    rw [← hbytes', hbytes] at this
    exact lt_irrefl _ this
  · intro hrefused frames hframes
    exact absurd hrefused ((h.createFrames_ok_iff_not_refused h1 h3).1 ⟨frames, hframes⟩)

end EncodedFields

/-- Messages of one to three args of which one has 2^31 bytes or more: no byte is lost, in requests and in
responses, exactly if the message is refused. -/
theorem oversized_args_kept_iff (service : String) (scheme : ArgSchemeValue) (args : List Bytes)
    (h1 : 1 ≤ args.length) (h3 : args.length ≤ 3) (hbig : ∃ a ∈ args, 2 ^ 31 ≤ a.length) :
    (∀ it, (∀ frames, (RequestFragmenter.new service ⟨scheme, args⟩).createFrames it = .ok frames →
        HoldBytes frames args.flatten) ↔ Refused (requestRoom service scheme) service args) ∧
    (∀ code it, (∀ frames, (ResponseFragmenter.new service code ⟨scheme, args⟩).createFrames it = .ok frames →
        HoldBytes frames args.flatten) ↔ Refused (responseRoom service scheme) service args) :=
  ⟨fun it => (RequestFragmenter.encodedFields it).holdBytes_iff (fun _ => RequestFragmenter.callsAs) (.inl rfl)
      h1 h3 hbig,
    fun _ it => (ResponseFragmenter.encodedFields it).holdBytes_iff (fun _ => ResponseFragmenter.callsAs)
      (.inr rfl) h1 h3 hbig⟩

/-- An arg of 2 GiB is refused. -/
theorem two_gib_arg_refused :
    ∃ arg : Bytes, arg.length = 2 ^ 31 ∧ ∀ it frames,
      (RequestFragmenter.new "" ⟨.raw, [arg]⟩).createFrames it = .ok frames → HoldBytes frames [arg].flatten := by
  obtain ⟨arg, hlen⟩ : ∃ arg : Bytes, arg.length = 2 ^ 31 := ⟨List.replicate (2 ^ 31) 0, List.length_replicate⟩
  have hbig : ∃ a ∈ [arg], 2 ^ 31 ≤ a.length := ⟨arg, List.mem_singleton_self arg, hlen.ge⟩
  have hsend : Unsendable arg := ⟨hlen.ge, by rw [hlen]; decide⟩
  refine ⟨arg, hlen, fun it => ?_⟩
  exact ((oversized_args_kept_iff "" .raw [arg] (by simp) (by simp) hbig).1 it).2
    (.inr (.inl ⟨arg, List.mem_singleton_self arg, hsend⟩))

/-- An arg of 4 GiB is sent as an empty one. -/
theorem four_gib_arg_dropped :
    ¬ ∀ (service : String) (scheme : ArgSchemeValue) (args : List Bytes), 1 ≤ args.length → args.length ≤ 3 →
      (∃ a ∈ args, 2 ^ 31 ≤ a.length) → ∀ it frames,
        (RequestFragmenter.new service ⟨scheme, args⟩).createFrames it = .ok frames →
          HoldBytes frames args.flatten := by
  intro h
  obtain ⟨arg, hlen⟩ : ∃ arg : Bytes, arg.length = 2 ^ 32 := ⟨List.replicate (2 ^ 32) 0, List.length_replicate⟩
  have hbig : ∃ a ∈ [arg], 2 ^ 31 ≤ a.length := ⟨arg, by simp, by omega⟩
  have hkept := h "" .raw [arg] (by simp) (by simp) hbig (Fragmenter.new "" ⟨.raw, [arg]⟩).headersIter
  have hrefused : Refused (requestRoom "" .raw) "" [arg] :=
    ((RequestFragmenter.encodedFields _).holdBytes_iff (fun _ => RequestFragmenter.callsAs) (.inl rfl)
      (by simp) (by simp) hbig).1 hkept
  rcases hrefused with hs | ⟨a, ha, -, hmod⟩ | hover
  · exact absurd hs (by decide)
  · rw [List.mem_singleton.1 ha, hlen] at hmod
    exact hmod rfl
  · rw [List.map_singleton, hlen] at hover
    exact absurd hover (by decide)

end Tchannel
