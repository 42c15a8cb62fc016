import Tchannel.MessageShape

/-!
# Messages that are cut off

`read_continuation` leaves its loop not only after the last frame of a message, but also when its channel is
closed, and reports no error then. So a reader returns a message that was cut off (`CutOff`) as if it were
whole. In all other cases a message that is returned was read up to its last frame.
-/

namespace Tchannel
open Wire

namespace Defragmenter

/-- The flags of the frame that was consumed last. -/
def lastFlags {C F : Type} [Call C F] (decode : Cursor CodecError C) : List TFrameId → Option Flags
  | [] => none
  | first :: frames =>
    match frames.getLast? with
    | none => (decodePayload decode first.frame.payload).toOption.map Call.flags
    | some last => (decodePayload CallContinue.decode last.frame.payload).toOption.map CallContinue.flags

/-- If the reader returns a message, the last frame that it consumed announces no more of them. -/
def ReadsToTheEnd {C F α : Type} [Call C F] (decode : Cursor CodecError C) (reader : Recv α)
    (input : FrameInput) : Prop :=
  ∀ a rest, reader.run input = .ok a rest → ∃ consumed flags, input.frames = consumed ++ rest.frames ∧
    lastFlags decode consumed = some flags ∧ flags.contains Flags.moreFragmentsFollow = false

/-- These are continuation frames that can be read, and all of them announce more. -/
def Unfinished (frames : List TFrameId) (chunks : List (List (Option Bytes))) : Prop :=
  List.Forall₂ (fun frameId cs => ∃ flags, Continuation frameId.frame flags cs ∧
    flags.contains Flags.moreFragmentsFollow = true) frames chunks

/-- The channel was closed after a first part of a message, which has these args. -/
def CutOff {C F : Type} [Call C F] (frameType : FrameType) (decode : Cursor CodecError C)
    (checkFields : F → CodecResult ArgSchemeValue) (input : FrameInput) (margs : MessageArgs) : Prop :=
  input.closed = true ∧ ∃ first frames call cs chunks, input.frames = first :: frames ∧
    Beginning frameType decode first.frame call cs ∧
    (Call.flags call).contains Flags.moreFragmentsFollow = true ∧
    checkFields (Call.fields call) = .ok margs.argScheme ∧ Unfinished frames chunks ∧
    margs.args = (ArgsDefragmenter.default.addAll (cs :: chunks)).args

section

variable {C F : Type} [Call C F] {t : FrameType} {decode : Cursor CodecError C}
  {checkFields : F → CodecResult ArgSchemeValue} {d d' : ArgsDefragmenter} {closed : Bool}
  {frames : List TFrameId} {rest : FrameInput} {input : FrameInput}

theorem Unfinished.mem {chunks : List (List (Option Bytes))} (h : Unfinished frames chunks) {frameId : TFrameId}
    (hmem : frameId ∈ frames) : ∃ cs flags, Continuation frameId.frame flags cs ∧
      flags.contains Flags.moreFragmentsFollow = true := by
  induction h with
  | nil => cases hmem
  | @cons frameId' cs frames chunks hframe _ ih =>
    rcases List.mem_cons.1 hmem with rfl | hmem
    · exact ⟨cs, hframe⟩
    · exact ih hmem

theorem continueFrames_unfinished {before after : List TFrameId} {chunks : List (List (Option Bytes))}
    (h : Unfinished before chunks) :
    continueFrames closed (before ++ after) d = continueFrames closed after (d.addAll chunks) := by
  induction h generalizing d with
  | nil => rfl
  | @cons frameId cs before chunks hframe _ ih =>
    obtain ⟨flags, hcont, hmore⟩ := hframe
    have hnext : continueFrame d frameId.frame = .ok (d.add cs, false) :=
      continueFrame_ok_iff.2 ⟨flags, cs, hcont, rfl, by rw [hmore]; rfl⟩
    rw [List.cons_append, continueFrames, hnext]
    exact ih

theorem continueFrames_eq_ok :
    continueFrames closed frames d = .ok d' rest ↔
      (closed = true ∧ rest = ⟨[], closed⟩ ∧ ∃ chunks, Unfinished frames chunks ∧ d' = d.addAll chunks) ∨
      ∃ before last after chunks flags cs, frames = before ++ last :: after ∧ rest = ⟨after, closed⟩ ∧
        Unfinished before chunks ∧ Continuation last.frame flags cs ∧
        flags.contains Flags.moreFragmentsFollow = false ∧ d' = (d.addAll chunks).add cs := by
  constructor
  · intro h
    induction frames generalizing d with
    | nil =>
      rw [continueFrames] at h
      split at h
      · rename_i hclosed
        injection h with hd hrest
        exact .inl ⟨hclosed, hrest.symm, [], .nil, hd.symm⟩
      · cases h
    | cons frameId frames ih =>
      rw [continueFrames] at h
      cases hnext : continueFrame d frameId.frame with
      | error e =>
        rw [hnext] at h
        cases h
      | ok r =>
        obtain ⟨d₁, last⟩ := r
        obtain ⟨flags, cs, hcont, rfl, hlast⟩ := continueFrame_ok_iff.1 hnext
        rw [hnext] at h
        cases last with
        | true =>
          injection h with hd hrest
          exact .inr ⟨[], frameId, frames, [], flags, cs, rfl, hrest.symm, .nil, hcont,
            by simpa using hlast.symm, hd.symm⟩
        | false =>
          have hmore : flags.contains Flags.moreFragmentsFollow = true := by simpa using hlast.symm
          rcases ih h with ⟨hclosed, hrest, chunks, hrun, hd⟩ |
            ⟨before, last, after, chunks, flags', cs', rfl, hrest, hrun, hlast', hfinal, hd⟩
          · exact .inl ⟨hclosed, hrest, cs :: chunks, .cons ⟨flags, hcont, hmore⟩ hrun, hd⟩
          · exact .inr ⟨frameId :: before, last, after, cs :: chunks, flags', cs', rfl, hrest,
              .cons ⟨flags, hcont, hmore⟩ hrun, hlast', hfinal, hd⟩
  · rintro (⟨rfl, rfl, chunks, hrun, rfl⟩ |
      ⟨before, last, after, chunks, flags, cs, rfl, rfl, hrun, hlast, hfinal, rfl⟩)
    · have h := @continueFrames_unfinished d true frames [] chunks hrun
      rw [List.append_nil] at h
      exact h
    · have hnext : continueFrame (d.addAll chunks) last.frame = .ok ((d.addAll chunks).add cs, true) :=
        continueFrame_ok_iff.2 ⟨flags, cs, hlast, rfl, by rw [hfinal]; rfl⟩
      rw [continueFrames_unfinished hrun, continueFrames, hnext]

theorem Continuation.lastFlags {first last : TFrameId} {before : List TFrameId} {flags : Flags}
    {cs : List (Option Bytes)} (h : Continuation last.frame flags cs) :
    lastFlags decode (first :: (before ++ [last])) = some flags := by
  obtain ⟨-, args, hcall, -⟩ := h
  simp only [Defragmenter.lastFlags, List.getLast?_concat, hcall]
  rfl

theorem Beginning.lastFlags {first : TFrameId} {call : C} {cs : List (Option Bytes)}
    (h : Beginning t decode first.frame call cs) : lastFlags decode [first] = some (Call.flags call) := by
  obtain ⟨-, hcall, -⟩ := h
  simp only [Defragmenter.lastFlags, List.getLast?_nil, hcall]
  rfl

theorem lastFlags_unfinished {first : TFrameId} {call : C} {cs : List (Option Bytes)}
    {chunks : List (List (Option Bytes))} (hfirst : Beginning t decode first.frame call cs)
    (hmore : (Call.flags call).contains Flags.moreFragmentsFollow = true) (h : Unfinished frames chunks) :
    ∃ flags, lastFlags decode (first :: frames) = some flags ∧
      flags.contains Flags.moreFragmentsFollow = true := by
  rcases List.eq_nil_or_concat frames with rfl | ⟨before, last, rfl⟩
  · exact ⟨_, hfirst.lastFlags, hmore⟩
  · rw [List.concat_eq_append] at h ⊢
    obtain ⟨cs', flags, hcont, hflags⟩ := h.mem (List.mem_append_right _ (List.mem_singleton_self last))
    exact ⟨flags, hcont.lastFlags, hflags⟩

theorem CutOff.run {margs : MessageArgs} (h : CutOff t decode checkFields input margs) :
    ∃ fields, (readAndCheck t decode checkFields).run input = .ok (fields, margs) ⟨[], true⟩ := by
  obtain ⟨frames, closed⟩ := input
  obtain ⟨rfl, first, frames, call, cs, chunks, rfl, hfirst, hmore, hcheck, hrun, hargs⟩ := h
  refine ⟨Call.fields call, readAndCheck_eq_ok.2 ⟨first, frames, call, cs, margs.argScheme, rfl, hfirst, hcheck,
    rfl, .inr ⟨hmore, _, continueFrames_eq_ok.2 (.inl ⟨rfl, rfl, chunks, hrun, rfl⟩), ?_⟩⟩⟩
  obtain ⟨scheme, args⟩ := margs
  obtain rfl : args = _ := hargs
  rfl

/-- What is returned was read up to the last frame, or was cut off. -/
theorem readAndCheck_consumed {fields : F} {margs : MessageArgs}
    (h : (readAndCheck t decode checkFields).run input = .ok (fields, margs) rest) :
    CutOff t decode checkFields input margs ∨ ∃ consumed flags, input.frames = consumed ++ rest.frames ∧
      lastFlags decode consumed = some flags ∧ flags.contains Flags.moreFragmentsFollow = false := by
  obtain ⟨first, frames, call, cs, scheme, hframes, hfirst, hcheck, -, h⟩ := readAndCheck_eq_ok.1 h
  rcases h with ⟨hfinal, -, rfl⟩ | ⟨hmore, d, hd, rfl⟩
  · exact .inr ⟨[first], _, hframes, hfirst.lastFlags, hfinal⟩
  · rcases continueFrames_eq_ok.1 hd with ⟨hclosed, -, chunks, hrun, rfl⟩ |
      ⟨before, last, after, chunks, flags, cs', rfl, rfl, -, hlast, hfinal, -⟩
    · exact .inl ⟨hclosed, first, frames, call, cs, chunks, hframes, hfirst, hmore, hcheck, hrun, rfl⟩
    · exact .inr ⟨first :: (before ++ [last]), flags, by rw [hframes]; simp, hlast.lastFlags, hfinal⟩

/-- A reader that converts what was read, and may refuse it, reads to the end exactly if no message that was cut
off can be converted. -/
theorem readsToTheEnd_bind_iff {α : Type} {f : F × MessageArgs → Recv α} {Converts : MessageArgs → Prop}
    (hf : ∀ message input b rest, (f message).run input = .ok b rest → rest = input ∧ Converts message.2)
    (hok : ∀ message input, Converts message.2 → ∃ b, (f message).run input = .ok b input) :
    ReadsToTheEnd decode (readAndCheck t decode checkFields >>= f) input ↔
      ¬ ∃ margs, CutOff t decode checkFields input margs ∧ Converts margs := by
  have hbind : ∀ b rest, (readAndCheck t decode checkFields >>= f).run input = .ok b rest ↔
      ∃ message rest', (readAndCheck t decode checkFields).run input = .ok message rest' ∧
        (f message).run rest' = .ok b rest := by
    intro b rest
    show EStateM.bind _ _ _ = _ ↔ _
    unfold EStateM.bind EStateM.run
    cases readAndCheck t decode checkFields input <;> simp
  constructor
  · rintro h ⟨margs, hcut, hconv⟩
    obtain ⟨fields, hrun⟩ := hcut.run
    obtain ⟨b, hb⟩ := hok (fields, margs) ⟨[], true⟩ hconv
    obtain ⟨consumed, flags, hconsumed, hflags, hfinal⟩ := h b _ ((hbind _ _).2 ⟨_, _, hrun, hb⟩)
    obtain ⟨-, first, frames, call, cs, chunks, hframes, hfirst, hmore, -, hrun, -⟩ := hcut
    obtain ⟨flags', hflags', hmore'⟩ := lastFlags_unfinished hfirst hmore hrun
    rw [List.append_nil, hframes] at hconsumed
    rw [← hconsumed, hflags'] at hflags
    rw [Option.some.inj hflags, hfinal] at hmore'
    cases hmore'
  · intro h b rest hrun
    obtain ⟨⟨fields, margs⟩, rest', hread, hb⟩ := (hbind _ _).1 hrun
    obtain ⟨rfl, hconv⟩ := hf _ _ _ _ hb
    rcases readAndCheck_consumed hread with hcut | hconsumed
    · exact absurd ⟨margs, hcut, hconv⟩ h
    · exact hconsumed

theorem readsToTheEnd_iff : ReadsToTheEnd decode (readAndCheck t decode checkFields) input ↔
    ¬ ∃ margs, CutOff t decode checkFields input margs := by
  have h := @readsToTheEnd_bind_iff C F _ t decode checkFields input _ pure (fun _ => True)
    (fun message input b rest h => by cases h; exact ⟨rfl, trivial⟩) (fun message input _ => ⟨message, rfl⟩)
  simpa only [bind_pure, and_true] using h

end

end Defragmenter

open Defragmenter

/-- A reader returns only messages that it read to the end, exactly if its channel does not hold a message that
was cut off, and that it can convert. -/
theorem reads_to_the_end_iff (input : FrameInput) :
    (∀ (C F : Type) [Call C F] (t : FrameType) (decode : Cursor CodecError C)
      (checkFields : F → CodecResult ArgSchemeValue),
      ReadsToTheEnd decode (readAndCheck t decode checkFields) input ↔
        ¬ ∃ margs, CutOff t decode checkFields input margs) ∧
    (ReadsToTheEnd CallRequest.decode RequestDefragmenter.readRequest input ↔
      ¬ ∃ margs, CutOff .callRequest CallRequest.decode getArgsScheme input margs) ∧
    (ReadsToTheEnd CallResponse.decode ResponseDefragmenter.readResponse input ↔
      ¬ ∃ margs, CutOff .callResponse CallResponse.decode getArgsScheme input margs) ∧
    (∀ (MSG : Type) [Message MSG],
      ReadsToTheEnd CallRequest.decode (RequestDefragmenter.readRequestMsg MSG) input ↔
        ¬ ∃ margs, CutOff .callRequest CallRequest.decode (checkArgScheme (Message.argsScheme MSG)) input margs ∧
          ∃ msg : MSG, Message.tryFrom margs = .ok msg) ∧
    ∀ (MSG : Type) [Message MSG],
      ReadsToTheEnd CallResponse.decode (ResponseDefragmenter.readResponseMsg MSG) input ↔
        ¬ ∃ margs, CutOff .callResponse CallResponse.decode (checkArgScheme (Message.argsScheme MSG)) input margs ∧
          ∃ msg : MSG, Message.tryFrom margs = .ok msg := by
  refine ⟨fun C F _ t decode checkFields => readsToTheEnd_iff, readsToTheEnd_iff, readsToTheEnd_iff,
    fun MSG _ => readsToTheEnd_bind_iff ?_ ?_, fun MSG _ => readsToTheEnd_bind_iff ?_ ?_⟩
  · rintro ⟨fields, margs⟩ input b rest h
    cases hmsg : (Message.tryFrom margs : CodecResult MSG) with
    | error e =>
      simp only [hmsg] at h
      cases h
    | ok msg =>
      simp only [hmsg] at h
      cases h
      exact ⟨rfl, _, rfl⟩
  · rintro ⟨fields, margs⟩ input ⟨msg, hmsg⟩
    exact ⟨msg, by simp only [hmsg]; rfl⟩
  · rintro ⟨fields, margs⟩ input b rest h
    cases hmsg : (Message.tryFrom margs : CodecResult MSG) with
    | error e =>
      simp only [hmsg] at h
      cases h
    | ok msg =>
      simp only [hmsg] at h
      cases h
      exact ⟨rfl, _, rfl⟩
  · rintro ⟨fields, margs⟩ input ⟨msg, hmsg⟩
    exact ⟨(fields.code, msg), by simp only [hmsg]; rfl⟩

theorem exists_beginning (flags : Flags) : ∃ payload call,
    Beginning .callRequest CallRequest.decode ⟨.callRequest, payload⟩ call [some [1]] ∧
      call.flags = flags ∧ getArgsScheme call.fields = .ok .raw := by
  obtain ⟨fb, hfb, -, hle⟩ := (@RequestFragmenter.encodedFields "s" ⟨.raw, []⟩
    (Fragmenter.new "s" ⟨.raw, []⟩).headersIter).small (by decide)
  have hargs : (plainArgs [some [1]]).Encodable := plainArgs_encodable.2 ⟨by decide, by decide⟩
  have hlen : 1 + fb.length + (plainArgs [some [1]]).encodedLen ≤ maxPayload := by
    rw [plainArgs_encodedLen]
    show 1 + fb.length + (1 + 3) ≤ 65518
    omega
  obtain ⟨payload, hp⟩ : ∃ payload,
      (CallWithFieldsEncoded.mk flags fb (plainArgs [some [1]])).encodeBytes = .ok payload :=
    ⟨_, CallWithFieldsEncoded.encodeBytes_eq_ok.2 ⟨hargs, hlen, rfl⟩⟩
  have hscheme : getArgsScheme (RequestFragmenter.new "s" ⟨.raw, []⟩).createFields = .ok .raw :=
    @Fragmenter.getArgsScheme_createHeaders _ _ (Fragmenter.new "s" ⟨.raw, []⟩) _ rfl
  exact ⟨payload, _, ⟨rfl, decodePayload_eq_ok.2 ⟨_, CallWithFieldsEncoded.decode_request hfb hp⟩, rfl⟩, rfl,
    hscheme⟩

/-- A request of which only the first frame arrived is read as if it were whole. -/
theorem cut_off_request_is_read :
    ¬ ∀ input : FrameInput, input.closed = true →
      ReadsToTheEnd CallRequest.decode RequestDefragmenter.readRequest input := by
  intro h
  obtain ⟨payload, call, hfirst, hflags, hcheck⟩ := exists_beginning .moreFragmentsFollow
  have hmore : call.flags.contains Flags.moreFragmentsFollow = true := by rw [hflags]; rfl
  exact readsToTheEnd_iff.1 (h ⟨[⟨1, ⟨.callRequest, payload⟩⟩], true⟩ rfl)
    ⟨⟨.raw, _⟩, rfl, _, _, call, _, [], rfl, hfirst, hmore, hcheck, .nil, rfl⟩

end Tchannel
