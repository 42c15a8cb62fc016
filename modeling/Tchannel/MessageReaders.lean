import Tchannel.MessageShape

/-!
# What readers make of a message

Two readers of the frames that `create_frames` returns: one that follows the protocol's rule (`PeerReads`), and
`ArgsDefragmenter` (`Rebuilds`). How the frames end decides what they get. At a frame that was ended by
splitting an arg both go on with that arg, and at one that an arg filled the rule does the same with
the empty chunk that follows. A frame that was ended by an arg without room is followed by the start
of that arg, which both take for more of the arg before it.
-/

namespace Tchannel
open Wire

namespace ArgsFragmenter

theorem reassemble_eq_foldl {first : List (Option Bytes)} (hfirst : first ≠ [])
    (frames : List (List (Option Bytes))) :
    reassemble (first :: frames) = (first :: frames).foldl reassembleNext [[]] := by
  cases first with
  | nil => exact absurd rfl hfirst
  | cons c cs => rfl

/-- The number of args by the protocol's rule: one less for each arg that found no room. -/
theorem foldl_frameChunks_length {queue : List Bytes} (hq : queue ≠ [])
    (hshort : ∀ a ∈ queue, a.length < 2147483648) {room : Int} (hroom : 0 ≤ asI32 (room - argLenLen))
    {args : List Bytes} (hargs : args ≠ []) :
    ((frameChunks room queue).foldl reassembleNext args).length + 1 + (frameEnds room queue).count .full =
      args.length + queue.length := by
  induction room, queue using frames_induction generalizing args with
  | step room queue ih =>
    have hspec := frameEnd_spec hshort room
    have hnext := reassembleNext_length hargs (nextFrameArgsVec_ne_nil hq hroom)
    have hrest : (nextFrameArgsVec queue room).2 ≠ [] →
        ((continuationChunks (nextFrameArgsVec queue room).2).foldl reassembleNext
            (reassembleNext args (nextFrameArgsVec queue room).1)).length + 1 +
          (continuationEnds (nextFrameArgsVec queue room).2).count .full =
        (reassembleNext args (nextFrameArgsVec queue room).1).length + (nextFrameArgsVec queue room).2.length := by
      intro hne
      rw [continuationChunks_ne hne, continuationEnds_ne hne]
      exact ih hne hne (nextFrameArgsVec_short hshort room) continuationRoom_pos.le (reassembleNext_ne_nil hargs _)
    rw [frameChunks, frameEnds, List.foldl_cons, List.count_cons]
    cases hend : frameEnd queue room with
    | drained =>
      rw [hend] at hspec
      obtain ⟨hnil, hchunks⟩ := hspec
      have hlen := congrArg List.length hchunks
      rw [List.length_map] at hlen
      rw [hnil, continuationChunks_nil, continuationEnds_nil, List.foldl_nil]
      simp
      omega
    | split | filled =>
      rw [hend] at hspec
      obtain ⟨pre, x, y, more, hchunks, hmore, rfl⟩ := hspec
      have hlen := congrArg List.length hchunks
      have hmorelen := congrArg List.length hmore
      have hrec := hrest (by rw [hmore]; simp)
      simp at hlen hmorelen ⊢
      omega
    | full =>
      rw [hend] at hspec
      obtain ⟨hne, heq⟩ := hspec
      have hlen := congrArg List.length heq
      have hrec := hrest hne
      simp at hlen ⊢
      omega

theorem foldl_frameChunks_eq {arg : Bytes} {queue : List Bytes}
    (hshort : ∀ a ∈ arg :: queue, a.length < 2147483648) {room : Int} (hroom : 0 ≤ asI32 (room - argLenLen))
    (hends : FrameEnd.full ∉ frameEnds room (arg :: queue)) (args : List Bytes) (last : Bytes) :
    (frameChunks room (arg :: queue)).foldl reassembleNext (args ++ [last]) = args ++ [last ++ arg] ++ queue := by
  generalize hall : arg :: queue = all at *
  induction room, all using frames_induction generalizing arg queue args last with
  | step room all ih =>
    have hspec := frameEnd_spec hshort room
    have hall_ne : all ≠ [] := by
      rw [← hall]
      simp
    have hne := nextFrameArgsVec_ne_nil hall_ne hroom
    obtain ⟨c, cs, hcs⟩ := List.exists_cons_of_ne_nil hne
    have hnext : reassembleNext (args ++ [last]) (c :: cs) =
        args ++ [last ++ c.getD []] ++ cs.map (·.getD []) := by
      rw [reassembleNext, List.dropLast_concat, List.getLastD_concat]
    rw [frameEnds, List.mem_cons, not_or] at hends
    rw [frameChunks, List.foldl_cons, hcs, hnext]
    rw [hcs] at hspec
    cases hend : frameEnd all room with
    | drained =>
      rw [hend] at hspec
      obtain ⟨hnil, hchunks⟩ := hspec
      rw [← hall] at hchunks
      obtain ⟨harg, hqueue⟩ : c.getD [] = arg ∧ cs.map (·.getD []) = queue := List.cons.inj hchunks
      rw [hnil, continuationChunks_nil, List.foldl_nil, harg, hqueue]
    | split | filled =>
      rw [hend] at hspec
      obtain ⟨pre, x, y, more, hchunks, hmore, heq⟩ := hspec
      have hmne : (nextFrameArgsVec all room).2 ≠ [] := by rw [hmore]; simp
      have hrec := fun args last => @ih hmne y more continuationRoom_pos.le args last hmore.symm
        (nextFrameArgsVec_short hshort room) (by rw [← continuationEnds_ne hmne]; exact hends.2)
      rw [continuationChunks_ne hmne]
      rw [← hall] at heq
      cases pre with
      | nil =>
        obtain ⟨hx, hnil⟩ : c.getD [] = x ∧ cs.map (·.getD []) = [] := List.cons.inj hchunks
        obtain ⟨harg, hqueue⟩ := List.cons.inj heq
        rw [hx, hnil, List.append_nil, hrec, harg, hqueue, List.append_assoc last]
      | cons p pre =>
        obtain ⟨hx, htail⟩ : c.getD [] = p ∧ cs.map (·.getD []) = pre ++ [x] := List.cons.inj hchunks
        obtain ⟨harg, hqueue⟩ := List.cons.inj heq
        rw [hx, htail, ← List.append_assoc, hrec, harg, hqueue]
        simp
    | full => exact absurd hend.symm hends.1

/-- The protocol's rule gives the args back exactly if every arg finds room for its length. -/
theorem reassemble_frameChunks_iff {queue : List Bytes} (hq : queue ≠ [])
    (hshort : ∀ a ∈ queue, a.length < 2147483648) {room : Int} (hroom : 0 ≤ asI32 (room - argLenLen)) :
    reassemble (frameChunks room queue) = queue ↔ FrameEnd.full ∉ frameEnds room queue := by
  rw [frameChunks, reassemble_eq_foldl (nextFrameArgsVec_ne_nil hq hroom), ← frameChunks]
  constructor
  · intro h
    have hlen := foldl_frameChunks_length hq hshort hroom (List.cons_ne_nil [] [])
    rw [h, List.length_singleton] at hlen
    exact List.count_eq_zero.1 (by omega)
  · intro h
    obtain ⟨arg, rest, rfl⟩ := List.exists_cons_of_ne_nil hq
    exact foldl_frameChunks_eq hshort hroom h [] []

theorem mem_faults_iff {room : Int} {queue : List Bytes} {e : FrameEnd} (he : faulty e = true) :
    e ∈ faults room queue ↔ e ∈ frameEnds room queue := by
  rw [faults, List.mem_filter, and_iff_left he]

end ArgsFragmenter

open ArgsFragmenter

/-- A reader that follows the protocol's rule gets these args. -/
def PeerReads (frames : List TFrame) (args : List Bytes) : Prop :=
  ∃ chunks, chunksOf frames = some chunks ∧ reassemble chunks = args

/-- `ArgsDefragmenter` gets these args. -/
def Rebuilds (frames : List TFrame) (args : List Bytes) : Prop :=
  ∃ chunks, chunksOf frames = some chunks ∧ (ArgsDefragmenter.default.addAll chunks).args = args

namespace Sent

variable {t ct : FrameType} {room : Int} {args : List Bytes} {frames : List TFrame}

theorem chunksOf_eq (h : Sent t ct room args frames) : chunksOf frames = some (frameChunks room args) :=
  h.body.carry.chunksOf_eq

theorem full_mem_iff (h : Sent t ct room args frames) (hlen : ∀ a ∈ args, a.length < 2147483648) :
    FrameEnd.full ∈ frameEnds room args ↔ ∃ p ∈ starts room (args.map List.length), Postponed p := by
  have hroom := h.room_ge
  rw [← mem_faults_iff rfl]
  exact (mem_faults (by omega) h.room_le hlen h.fits).1

theorem filled_mem_iff (h : Sent t ct room args frames) (hlen : ∀ a ∈ args, a.length < 2147483648) :
    FrameEnd.filled ∈ frameEnds room args ↔ ∃ p ∈ starts room (args.map List.length), Filling p := by
  have hroom := h.room_ge
  rw [← mem_faults_iff rfl]
  exact (mem_faults (by omega) h.room_le hlen h.fits).2

theorem peerReads_iff (h : Sent t ct room args frames) (hargs : args ≠ [])
    (hlen : ∀ a ∈ args, a.length < 2147483648) :
    PeerReads frames args ↔ ∀ p ∈ starts room (args.map List.length), ¬ Postponed p := by
  have hroom := h.room_ge
  have hge : 0 ≤ asI32 (room - argLenLen) := by
    rw [asI32_room (by omega) h.room_le]
    omega
  have hfull := (reassemble_frameChunks_iff hargs hlen hge).trans (not_congr (h.full_mem_iff hlen))
  unfold PeerReads
  simp only [h.chunksOf_eq, Option.some.injEq, exists_eq_left', hfull, not_exists, not_and]

/-- Only frames that are ended by splitting an arg are followed by a frame that is read right. -/
theorem rebuilds_iff (h : Sent t ct room args frames) (h3 : args.length ≤ 3)
    (hlen : ∀ a ∈ args, a.length < 2147483648) :
    Rebuilds frames args ↔ FrameEnd.full ∉ frameEnds room args ∧ FrameEnd.filled ∉ frameEnds room args := by
  have hroom := h.room_ge
  have hrebuild : (ArgsDefragmenter.default.addAll (frameChunks room args)).args = rebuild room [] args := by
    have hres := @resume_eq_rebuild room [] args (by omega) h.room_le (fun hlt => absurd hlt (by omega)) hlen
      (by omega)
    rw [resume_first, if_neg h.fits] at hres
    split at hres
    · exact Option.some.inj hres
    · cases hres
  have hclean : rebuild room [] args = args ↔ ∀ p ∈ starts room (args.map List.length), CutCleanly p :=
    ⟨clean_of_rebuild_eq (fun hlt => absurd hlt (by omega)) (by omega), rebuild_eq_of_clean⟩
  unfold Rebuilds
  simp only [h.chunksOf_eq, Option.some.injEq, exists_eq_left', hrebuild, hclean, h.full_mem_iff hlen,
    h.filled_mem_iff hlen, cutCleanly_iff, not_exists, not_and, forall_and]

theorem splits_iff (hlen : ∀ a ∈ args, a.length < 2147483648) :
    (∀ e ∈ (frameEnds room args).dropLast, e = .split) ↔
      FrameEnd.full ∉ frameEnds room args ∧ FrameEnd.filled ∉ frameEnds room args := by
  obtain ⟨ends, heq, hends⟩ := frameEnds_eq_concat hlen room
  rw [heq, List.dropLast_concat]
  constructor
  · intro h
    constructor <;> intro hmem <;> rcases List.mem_append.1 hmem with hmem | hmem
    · cases h _ hmem
    · cases List.mem_singleton.1 hmem
    · cases h _ hmem
    · cases List.mem_singleton.1 hmem
  · rintro ⟨hfull, hfilled⟩ e he
    have hmem := List.mem_append_left [FrameEnd.drained] he
    cases e with
    | drained => exact absurd rfl (hends _ he)
    | split => rfl
    | filled => exact absurd hmem hfilled
    | full => exact absurd hmem hfull

end Sent

/-! ### How the frames of a message end -/

/-- How the frames end that `create_frames` builds. -/
def Fragmenter.frameEnds (self : Fragmenter) (fields : CodecResult Bytes) : List FrameEnd :=
  match fields with
  | .ok fieldsBytes =>
    ArgsFragmenter.frameEnds
      (asI32 (asI32 (calculatePayloadLimit fieldsBytes.length) - checksumLen .none)) self.argsFragmenter.args
  | .error _ => []

def RequestFragmenter.frameEnds (self : RequestFragmenter) (it : Iter self.createFields.headers) :
    List FrameEnd :=
  self.fragmenter.frameEnds (self.createFields.encodeBytes it)

def ResponseFragmenter.frameEnds (self : ResponseFragmenter) (it : Iter self.createResponseFields.headers) :
    List FrameEnd :=
  self.fragmenter.frameEnds (self.createResponseFields.encodeBytes it)

theorem Fragmenter.frameEnds_eq {fragmenter : Fragmenter} {fb : Bytes} (hfb : fb.length ≤ 65516) :
    fragmenter.frameEnds (.ok fb) =
      ArgsFragmenter.frameEnds (continuationRoom - fb.length) fragmenter.argsFragmenter.args := by
  rw [frameEnds, limit_eq hfb]

theorem RequestFragmenter.frameEnds_eq {service : String} {margs : MessageArgs}
    {it : Iter (new service margs).createFields.headers} {frames : List TFrame}
    (h : (new service margs).createFrames it = .ok frames) :
    (new service margs).frameEnds it =
      ArgsFragmenter.frameEnds (requestRoom service margs.argScheme) margs.args := by
  obtain ⟨-, fb, hfb, hroom, hle⟩ := (encodedFields it).of_createFrames h
  rw [frameEnds, hfb, Fragmenter.frameEnds_eq (by omega), hroom]
  rfl

theorem ResponseFragmenter.frameEnds_eq {service : String} {code : ResponseCode} {margs : MessageArgs}
    {it : Iter (new service code margs).createResponseFields.headers} {frames : List TFrame}
    (h : (new service code margs).createFrames it = .ok frames) :
    (new service code margs).frameEnds it =
      ArgsFragmenter.frameEnds (responseRoom service margs.argScheme) margs.args := by
  obtain ⟨-, fb, hfb, hroom, hle⟩ := (encodedFields it).of_createFrames h
  rw [frameEnds, hfb, Fragmenter.frameEnds_eq (by omega), hroom]
  rfl

/-- The args are rebuilt exactly if every frame but the last was ended by splitting an arg. -/
def RebuiltByEnds (frames : List TFrame) (args : List Bytes) (ends : List FrameEnd) : Prop :=
  ends.length = frames.length ∧
    (Rebuilds frames args ↔ ∀ e ∈ ends.dropLast, e = .split) ∧
    (Rebuilds frames args ↔ FrameEnd.filled ∉ ends.dropLast ∧ FrameEnd.full ∉ ends.dropLast)

theorem Sent.rebuiltByEnds {t ct : FrameType} {room : Int} {args : List Bytes} {frames : List TFrame}
    (h : Sent t ct room args frames) (h3 : args.length ≤ 3) (hlen : ∀ a ∈ args, a.length < 2147483648) :
    RebuiltByEnds frames args (ArgsFragmenter.frameEnds room args) := by
  have hrebuilds := h.rebuilds_iff h3 hlen
  refine ⟨?_, hrebuilds.trans (Sent.splits_iff hlen).symm, hrebuilds.trans ?_⟩
  · rw [frameEnds_length, h.body.carry.length_eq]
  · obtain ⟨ends, heq, -⟩ := frameEnds_eq_concat hlen room
    rw [heq, List.dropLast_concat]
    simp [and_comm]

theorem rebuilds_iff_ends (service : String) (scheme : ArgSchemeValue) (args : List Bytes)
    (h1 : 1 ≤ args.length) (h3 : args.length ≤ 3) (hlen : ∀ a ∈ args, a.length < 2 ^ 31) :
    (∀ it frames, (RequestFragmenter.new service ⟨scheme, args⟩).createFrames it = .ok frames →
      RebuiltByEnds frames args ((RequestFragmenter.new service ⟨scheme, args⟩).frameEnds it)) ∧
    (∀ code it frames, (ResponseFragmenter.new service code ⟨scheme, args⟩).createFrames it = .ok frames →
      RebuiltByEnds frames args ((ResponseFragmenter.new service code ⟨scheme, args⟩).frameEnds it)) := by
  constructor
  · intro it frames h
    rw [RequestFragmenter.frameEnds_eq h]
    exact (RequestFragmenter.sent h1 h3 hlen h).rebuiltByEnds h3 hlen
  · intro code it frames h
    rw [ResponseFragmenter.frameEnds_eq h]
    exact (ResponseFragmenter.sent h1 h3 hlen h).rebuiltByEnds h3 hlen

theorem small_message_rebuilds_iff_ends :
    ∃ frames, (RequestFragmenter.new "service" ⟨.raw, [[1], [], [2, 3]]⟩).createFrames
        (Fragmenter.new "service" ⟨.raw, [[1], [], [2, 3]]⟩).headersIter = .ok frames ∧
      RebuiltByEnds frames [[1], [], [2, 3]] ((RequestFragmenter.new "service" ⟨.raw, [[1], [], [2, 3]]⟩).frameEnds
        (Fragmenter.new "service" ⟨.raw, [[1], [], [2, 3]]⟩).headersIter) := by
  obtain ⟨frames, h⟩ := small_frames
  exact ⟨frames, h,
    (rebuilds_iff_ends "service" .raw [[1], [], [2, 3]] (by decide) (by decide) (by decide)).1 _ _ h⟩

/-! ### A reader that follows the protocol -/

/-- The frames of a message, if there are any, are the message to a reader that follows the protocol. -/
def PeerGets (service : String) (scheme : ArgSchemeValue) (args : List Bytes) : Prop :=
  (∀ it frames, (RequestFragmenter.new service ⟨scheme, args⟩).createFrames it = .ok frames →
    PeerReads frames args) ∧
  ∀ code it frames, (ResponseFragmenter.new service code ⟨scheme, args⟩).createFrames it = .ok frames →
    PeerReads frames args

/-- The message is not accepted, or every arg finds room for its length. -/
def FindsRoom (room : Int) (args : List Bytes) : Prop :=
  (∃ p ∈ starts room (args.map List.length), Overdrawn p) ∨
    ∀ p ∈ starts room (args.map List.length), ¬ Postponed p

instance (room : Int) (args : List Bytes) : Decidable (FindsRoom room args) :=
  inferInstanceAs (Decidable (_ ∨ _))

theorem peerReads_all_iff {t ct : FrameType} {room : Int} {args : List Bytes} {result : TResult (List TFrame)}
    {accepted : Prop} (h1 : 1 ≤ args.length) (hlen : ∀ a ∈ args, a.length < 2147483648)
    (hok : (∃ frames, result = .ok frames) ↔
      accepted ∧ ¬ ∃ p ∈ starts room (args.map List.length), Overdrawn p)
    (hsent : ∀ frames, result = .ok frames → Sent t ct room args frames) :
    (∀ frames, result = .ok frames → PeerReads frames args) ↔ ¬ accepted ∨ FindsRoom room args := by
  have hiff := fun frames h => (hsent frames h).peerReads_iff (List.ne_nil_of_length_pos h1) hlen
  constructor
  · intro h
    by_cases hframes : ∃ frames, result = .ok frames
    · obtain ⟨frames, hframes⟩ := hframes
      exact .inr (.inr ((hiff frames hframes).1 (h frames hframes)))
    · rw [hok, not_and_or, not_not] at hframes
      exact hframes.imp_right .inl
  · rintro h frames hframes
    obtain ⟨hs, hover⟩ := hok.1 ⟨frames, hframes⟩
    rcases h with h | h | h
    · exact absurd hs h
    · exact absurd h hover
    · exact (hiff frames hframes).2 h

/-- A reader that follows the protocol gets a message exactly if it is not sent or every non-empty arg starts
where at least two bytes of its frame are left. -/
theorem peer_gets_iff (service : String) (scheme : ArgSchemeValue) (args : List Bytes)
    (h1 : 1 ≤ args.length) (h3 : args.length ≤ 3) (hlen : ∀ a ∈ args, a.length < 2 ^ 31) :
    PeerGets service scheme args ↔
      255 < (utf8 service).length ∨
        FindsRoom (requestRoom service scheme) args ∧ FindsRoom (responseRoom service scheme) args := by
  have horder := (Fragmenter.new service ⟨scheme, args⟩).headersIter
  have hrequest : ∀ it, (∀ frames, (RequestFragmenter.new service ⟨scheme, args⟩).createFrames it = .ok frames →
      PeerReads frames args) ↔ _ := fun it =>
    peerReads_all_iff h1 hlen (RequestFragmenter.createFrames_ok_iff h1 h3 hlen it)
      fun _ h => RequestFragmenter.sent h1 h3 hlen h
  have hresponse : ∀ code it,
      (∀ frames, (ResponseFragmenter.new service code ⟨scheme, args⟩).createFrames it = .ok frames →
        PeerReads frames args) ↔ _ := fun code it =>
    peerReads_all_iff h1 hlen (ResponseFragmenter.createFrames_ok_iff h1 h3 hlen it)
      fun _ h => ResponseFragmenter.sent h1 h3 hlen h
  unfold PeerGets
  rw [or_and_left, ← Nat.not_le]
  simp only [hrequest, hresponse]
  exact and_congr ⟨fun h => h horder, fun h _ => h⟩ ⟨fun h => h .ok horder, fun h _ _ => h⟩

theorem peer_gets_small : PeerGets "service" .raw [[1], [], [2, 3]] :=
  (peer_gets_iff "service" .raw [[1], [], [2, 3]] (by decide) (by decide) (by decide)).2 (.inr (by decide))

/-- An arg that finds one byte left starts the next frame without an empty chunk before it. -/
theorem peer_does_not_get_postponed :
    ¬ ∀ (service : String) (scheme : ArgSchemeValue) (args : List Bytes), 1 ≤ args.length →
      args.length ≤ 3 → (∀ a ∈ args, a.length < 2 ^ 31) → PeerGets service scheme args := by
  intro h
  obtain ⟨a, ha⟩ : ∃ a : Bytes, a.length = 65471 := ⟨List.replicate 65471 0, List.length_replicate⟩
  have hlen : ∀ b ∈ [a, [1]], b.length < 2 ^ 31 := by simp [ha]
  have hreads := (h "" .raw [a, [1]] (by simp) (by simp) hlen).1 (Fragmenter.new "" ⟨.raw, [a, [1]]⟩).headersIter
  rcases (peerReads_all_iff (by simp) hlen (RequestFragmenter.createFrames_ok_iff (by simp) (by simp) hlen _)
    fun _ h => RequestFragmenter.sent (by simp) (by simp) hlen h).1 hreads with hs | hroom
  · exact absurd hs (by decide)
  · unfold FindsRoom at hroom
    simp only [List.map_cons, List.map_nil, ha] at hroom
    exact absurd hroom (by decide)

end Tchannel
