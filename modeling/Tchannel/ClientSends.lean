import Tchannel.PendingIds
import Tchannel.SentRequests

/-!
# What a client connection writes

The frames that `FrameSender` has taken and those that wait for it are, call by call, the first frames of the
call's request, in order, and all of them once the call waits for its response (`ClientConnection.Sends`). A
call that has not registered its id has sent nothing, so that ids tell the frames of the calls apart.
-/

namespace Tchannel
open Wire

/-- The frames with the id `id`. -/
def framesOf (id : UInt32) (frames : List TFrameId) : List TFrameId := frames.filter fun frame => frame.id = id

section

variable {id : UInt32} {frame : TFrameId} {frames frames' : List TFrameId}

@[simp] theorem framesOf_nil (id : UInt32) : framesOf id [] = [] := rfl

@[simp] theorem framesOf_append (id : UInt32) (frames frames' : List TFrameId) :
    framesOf id (frames ++ frames') = framesOf id frames ++ framesOf id frames' := List.filter_append _ _

theorem framesOf_cons_self (h : frame.id = id) : framesOf id (frame :: frames) = frame :: framesOf id frames :=
  List.filter_cons_of_pos (by simpa using h)

theorem framesOf_cons_of_ne (h : frame.id ≠ id) : framesOf id (frame :: frames) = framesOf id frames :=
  List.filter_cons_of_neg (by simpa using h)

theorem framesOf_eq_nil : framesOf id frames = [] ↔ ∀ frame ∈ frames, frame.id ≠ id := by
  simp only [framesOf, List.filter_eq_nil_iff, decide_eq_true_eq, ne_eq]

theorem mem_framesOf : frame ∈ framesOf id frames ↔ frame ∈ frames ∧ frame.id = id := by
  simp only [framesOf, List.mem_filter, decide_eq_true_eq]

end

namespace ClientCall

variable {call call' : ClientCall} {passed : List TFrameId}

/-- `passed` are the frames that the call has passed to `FrameSender`. -/
structure Sends (call : ClientCall) (passed : List TFrameId) : Prop where
  fresh : call.phase = .allocated ∨ call.phase = .registered → passed = []
  sending : ∀ rest, call.phase = .sending rest → ∃ frames, call.operation.frames = .ok frames ∧
    passed ++ rest.map (TFrameId.mk call.id) = frames.map (TFrameId.mk call.id)
  receiving : call.phase = .receiving → ∃ frames, call.operation.frames = .ok frames ∧
    passed = frames.map (TFrameId.mk call.id)
  begins : passed ≠ [] → ∃ frames, call.operation.frames = .ok frames ∧
    passed <+: frames.map (TFrameId.mk call.id)

theorem sends_new (operation : Operation) (id : UInt32) : (new operation id).Sends [] :=
  ⟨fun _ => rfl, nofun, nofun, fun h => absurd rfl h⟩

theorem Sends.done (h : call.Sends passed) (hop : call'.operation = call.operation) (hid : call'.id = call.id)
    (hphase : ∀ rest, call'.phase ≠ .sending rest) (hreading : call'.phase.isReading = false) :
    call'.Sends passed := by
  refine ⟨fun hfresh => ?_, fun rest hsending => absurd hsending (hphase rest), fun hreceiving => ?_, ?_⟩
  · rcases hfresh with hfresh | hfresh <;> rw [hfresh] at hreading <;> cases hreading
  · rw [hreceiving] at hreading
    cases hreading
  · rw [hop, hid]
    exact h.begins

theorem Sends.congr (h : call.Sends passed) (hop : call'.operation = call.operation) (hid : call'.id = call.id)
    (hphase : call'.phase = call.phase) : call'.Sends passed := by
  refine ⟨?_, ?_, ?_, ?_⟩
  · rw [hphase]
    exact h.fresh
  · rw [hphase, hop, hid]
    exact h.sending
  · rw [hphase, hop, hid]
    exact h.receiving
  · rw [hop, hid]
    exact h.begins

theorem register_operation (call : ClientCall) (now : ℕ) (result : ConnectionResult Unit) :
    (call.register now result).operation = call.operation := by
  cases result <;> rfl

theorem Sends.register (h : call.Sends passed) (hphase : call.phase = .allocated) (now : ℕ)
    (result : ConnectionResult Unit) : (call.register now result).Sends passed := by
  have hnil := h.fresh (.inl hphase)
  cases result with
  | ok => exact ⟨fun _ => hnil, nofun, nofun, fun hne => absurd hnil hne⟩
  | error e => exact ⟨fun _ => hnil, nofun, nofun, fun hne => absurd hnil hne⟩

theorem Sends.fail (h : call.Sends passed) (e : TChannelError) : (call.fail e).Sends passed := by
  have hkeeps : call.Keeps (call.fail e) := keeps_fail e
  refine h.done hkeeps.operation hkeeps.id ?_ ?_
  · intro rest
    unfold ClientCall.fail
    split <;> exact nofun
  · unfold ClientCall.fail
    split <;> rfl

theorem Sends.proceed (h : call.Sends passed) (closed : Bool) : (call.proceed closed).Sends passed := by
  have hfinish : ∀ result, (call.finish result).Sends passed := by
    intro result
    have hkeeps : call.Keeps (call.finish result) := keeps_finish result
    refine h.done hkeeps.operation hkeeps.id ?_ ?_
    · intro rest
      unfold finish
      split <;> exact nofun
    · unfold finish
      split <;> rfl
  unfold ClientCall.proceed
  split
  · exact hfinish _
  · exact hfinish _
  · exact h.done rfl rfl (fun _ => nofun) rfl
  · exact h

theorem Sends.create (h : call.Sends passed) (hphase : call.phase = .registered) : call.create.Sends passed := by
  have hnil := h.fresh (.inr hphase)
  unfold ClientCall.create
  split
  · rename_i frames hframes
    refine ⟨nofun, fun rest hrest => ⟨frames, hframes, ?_⟩, nofun, fun hne => absurd hnil hne⟩
    rw [hnil, ← ClientPhase.sending.inj hrest]
    rfl
  · exact h.fail _

theorem Sends.send {frame : TFrame} {frames : List TFrame} (h : call.Sends passed)
    (hphase : call.phase = .sending (frame :: frames)) :
    Sends { call with phase := .sending frames } (passed ++ [⟨call.id, frame⟩]) := by
  obtain ⟨all, hall, hsent⟩ := h.sending _ hphase
  rw [List.map_cons, List.append_cons] at hsent
  refine ⟨nofun, fun rest hrest => ⟨all, hall, ?_⟩, nofun, fun _ => ⟨all, hall, ?_⟩⟩
  · rw [← ClientPhase.sending.inj hrest]
    exact hsent
  · exact ⟨_, hsent⟩

theorem Sends.sent (h : call.Sends passed) (hphase : call.phase = .sending []) :
    Sends { call with phase := .receiving } passed := by
  obtain ⟨all, hall, hsent⟩ := h.sending _ hphase
  refine ⟨nofun, nofun, fun _ => ⟨all, hall, ?_⟩, h.begins⟩
  rw [← hsent]
  exact (List.append_nil _).symm

end ClientCall

namespace ClientConnection

variable {bufferSize k : ℕ} {s s' : ClientConnection} {call call' : ClientCall} {written : List TFrameId}

/-- The frames that the calls have passed to `FrameSender`, of which it has taken `written`. -/
def sentFrames (self : ClientConnection) (written : List TFrameId) : List TFrameId :=
  written ++ self.outgoing.queue

structure Sends (written : List TFrameId) (s : ClientConnection) : Prop where
  calls : ∀ (k : ℕ) call, s.calls[k]? = some call → call.Sends (framesOf call.id (s.sentFrames written))
  owned : ∀ frame ∈ s.sentFrames written, ∃ (k : ℕ) (call : ClientCall), s.calls[k]? = some call ∧
    call.id = frame.id

theorem sends_new : new.Sends [] := by
  refine ⟨fun k call h => ?_, fun frame h => ?_⟩
  · cases h
  · cases h

theorem Step.length_le (hstep : Step bufferSize s s') : s.calls.length ≤ s'.calls.length := by
  cases hstep with
  | calls _ => exact Nat.le_of_lt (by simp)
  | registers _ _ _ => exact Nat.le_of_eq List.length_set.symm
  | runs _ _ => exact Nat.le_of_eq List.length_set.symm
  | closes _ _ _ => exact Nat.le_of_eq List.length_set.symm
  | closesAgain _ _ _ => exact Nat.le_of_eq List.length_set.symm
  | delivers _ _ _ => exact Nat.le_of_eq List.length_set.symm
  | arrives _ => exact Nat.le_refl _
  | deliverFails _ _ _ => exact Nat.le_refl _
  | writes _ => exact Nat.le_refl _
  | stops => exact Nat.le_refl _

/-- A call stays the call of its request. -/
theorem Step.call_kept (hstep : Step bufferSize s s') (hcall : s.calls[k]? = some call) :
    ∃ call', s'.calls[k]? = some call' ∧ call'.operation = call.operation ∧ call'.id = call.id := by
  have hset : ∀ {j : ℕ} {c c' : ClientCall}, s.calls[j]? = some c → c'.operation = c.operation → c'.id = c.id →
      ∃ call', (s.calls.set j c')[k]? = some call' ∧ call'.operation = call.operation ∧ call'.id = call.id := by
    intro j c c' hc hop hid
    rcases eq_or_ne j k with rfl | hne
    · obtain rfl := Option.some.inj (hc.symm.trans hcall)
      exact ⟨c', List.getElem?_set_self (Inv.lt_length hc), hop, hid⟩
    · exact ⟨call, (List.getElem?_set_ne hne).trans hcall, rfl, rfl⟩
  cases hstep with
  | calls _ => exact ⟨call, (List.getElem?_append_left (Inv.lt_length hcall)).trans hcall, rfl, rfl⟩
  | registers _ hc _ => exact hset hc (ClientCall.register_operation _ _ _) (ClientCall.register_id _ _ _)
  | runs hc hrun => exact hset hc hrun.keeps.operation hrun.keeps.id
  | @closes j c result again _ hc _ => cases again <;> exact hset hc rfl rfl
  | closesAgain _ hc _ => exact hset hc rfl rfl
  | delivers _ hc _ => exact hset hc rfl rfl
  | arrives _ => exact ⟨call, hcall, rfl, rfl⟩
  | deliverFails _ _ _ => exact ⟨call, hcall, rfl, rfl⟩
  | writes _ => exact ⟨call, hcall, rfl, rfl⟩
  | stops => exact ⟨call, hcall, rfl, rfl⟩

namespace Sends

theorem takes {frame : TFrameId} {queue : List TFrameId} (h : s.Sends written)
    (hqueue : s.outgoing.queue = frame :: queue) :
    Sends (written ++ [frame]) { s with outgoing := { s.outgoing with queue } } := by
  have hsame : sentFrames { s with outgoing := { s.outgoing with queue } } (written ++ [frame]) =
      s.sentFrames written := by
    rw [sentFrames, sentFrames, hqueue, List.append_assoc]
    rfl
  refine ⟨?_, ?_⟩
  · rw [hsame]
    exact h.calls
  · rw [hsame]
    exact h.owned

theorem set (h : s.Sends written) (hcall : s.calls[k]? = some call) (hs' : s'.calls = s.calls.set k call')
    (hqueue : s'.outgoing.queue = s.outgoing.queue) (hid : call'.id = call.id)
    (hsends : ∀ passed, call.Sends passed → call'.Sends passed) : s'.Sends written := by
  have hsame : s'.sentFrames written = s.sentFrames written := by rw [sentFrames, sentFrames, hqueue]
  refine ⟨fun j c hc => ?_, fun frame hframe => ?_⟩
  · rw [hs'] at hc
    rw [hsame]
    rcases getElem?_set_cases hc with ⟨rfl, rfl⟩ | ⟨-, hc⟩
    · rw [hid]
      exact hsends _ (h.calls j call hcall)
    · exact h.calls j c hc
  · rw [hsame] at hframe
    obtain ⟨j, c, hc, hcid⟩ := h.owned frame hframe
    rw [hs']
    rcases eq_or_ne k j with rfl | hne
    · obtain rfl := Option.some.inj (hcall.symm.trans hc)
      exact ⟨k, call', List.getElem?_set_self (Inv.lt_length hcall), hid.trans hcid⟩
    · exact ⟨j, c, (List.getElem?_set_ne hne).trans hc, hcid⟩

theorem congr (h : s.Sends written) (hcalls : s'.calls = s.calls)
    (hqueue : s'.outgoing.queue = s.outgoing.queue) : s'.Sends written := by
  refine ⟨?_, ?_⟩ <;> rw [sentFrames, hqueue, hcalls]
  · exact h.calls
  · exact h.owned

theorem allocates (h : s.Sends written) (hinv : s.Inv bufferSize) (hlen : s.calls.length < 2 ^ 32)
    (operation : Operation) : Sends written { s with
      nextMessageId := s.nextMessageId + 1, calls := s.calls ++ [ClientCall.new operation s.nextMessageId] } := by
  refine ⟨fun k call hcall => ?_, fun frame hframe => ?_⟩
  · rcases getElem?_concat_cases hcall with hcall | ⟨-, rfl⟩
    · exact h.calls k call hcall
    · have hnone : framesOf s.nextMessageId (s.sentFrames written) = [] := by
        refine framesOf_eq_nil.2 fun frame hframe hid => ?_
        obtain ⟨j, c, hc, hcid⟩ := h.owned frame hframe
        have hlt := Inv.lt_length hc
        rw [hid, hinv.nextMessageId, (hinv.calls j c hc).id] at hcid
        have heq := congrArg UInt32.toNat hcid
        rw [UInt32.toNat_ofNat_of_lt' (by rw [UInt32.size]; omega),
          UInt32.toNat_ofNat_of_lt' (by rw [UInt32.size]; omega)] at heq
        omega
      show (ClientCall.new operation s.nextMessageId).Sends (framesOf s.nextMessageId (s.sentFrames written))
      rw [hnone]
      exact ClientCall.sends_new _ _
  · obtain ⟨k, call, hcall, hid⟩ := h.owned frame hframe
    exact ⟨k, call, (List.getElem?_append_left (Inv.lt_length hcall)).trans hcall, hid⟩

theorem pushes {frame : TFrame} {frames : List TFrame} (h : s.Sends written) (hinv : s.Inv bufferSize)
    (hlen : s.calls.length ≤ 2 ^ 32) (hcall : s.calls[k]? = some call)
    (hphase : call.phase = .sending (frame :: frames)) : Sends written { s with
      outgoing := s.outgoing.push ⟨call.id, frame⟩, calls := s.calls.set k { call with phase := .sending frames } } := by
  have hsent : sentFrames { s with
      outgoing := s.outgoing.push ⟨call.id, frame⟩, calls := s.calls.set k { call with phase := .sending frames } }
        written = s.sentFrames written ++ [⟨call.id, frame⟩] := by
    rw [sentFrames, sentFrames, List.append_assoc]
    rfl
  refine ⟨fun j c hc => ?_, fun frame' hframe' => ?_⟩
  · rw [hsent, framesOf_append]
    rcases getElem?_set_cases hc with ⟨rfl, rfl⟩ | ⟨hne, hc⟩
    · show ClientCall.Sends _ (framesOf call.id (s.sentFrames written) ++ framesOf call.id [⟨call.id, frame⟩])
      rw [show framesOf call.id [⟨call.id, frame⟩] = [⟨call.id, frame⟩] from framesOf_cons_self rfl]
      exact (h.calls j call hcall).send hphase
    · rw [framesOf_cons_of_ne, framesOf_nil, List.append_nil]
      · exact h.calls j c hc
      · exact fun hid => hne (hinv.eq_of_id_eq hlen hc hcall hid.symm)
  · rw [hsent] at hframe'
    have howned : ∃ (j : ℕ) (c : ClientCall), s.calls[j]? = some c ∧ c.id = frame'.id := by
      rcases List.mem_append.1 hframe' with hframe' | hframe'
      · exact h.owned frame' hframe'
      · rw [List.mem_singleton.1 hframe']
        exact ⟨k, call, hcall, rfl⟩
    obtain ⟨j, c, hc, hcid⟩ := howned
    rcases eq_or_ne k j with rfl | hne
    · obtain rfl := Option.some.inj (hcall.symm.trans hc)
      exact ⟨k, _, List.getElem?_set_self (Inv.lt_length hcall), hcid⟩
    · exact ⟨j, c, (List.getElem?_set_ne hne).trans hc, hcid⟩

/-- The step lemma, for the steps in which `FrameSender` takes nothing. -/
theorem step (h : s.Sends written) (hinv : s.Inv bufferSize) (hlen : s'.calls.length ≤ 2 ^ 32)
    (hstep : Step bufferSize s s') (hqueue : s.outgoing.queue <+: s'.outgoing.queue) : s'.Sends written := by
  have hle := hstep.length_le
  cases hstep with
  | calls operation =>
    refine h.allocates hinv ?_ operation
    rw [List.length_append, List.length_singleton] at hlen
    omega
  | @registers k call hlock hcall hphase =>
    exact h.set hcall rfl rfl (call.register_id _ _) fun passed hpassed => hpassed.register hphase _ _
  | @runs k call call' outgoing hcall hrun =>
    have hid := hrun.keeps.id
    cases hrun with
    | creates hphase => exact h.set hcall rfl rfl hid fun passed hpassed => hpassed.create hphase
    | sends hphase hready => exact h.pushes hinv (hle.trans hlen) hcall hphase
    | sendFails hphase hgone => exact h.set hcall rfl rfl hid fun passed hpassed => hpassed.fail _
    | sent hphase => exact h.set hcall rfl rfl hid fun passed hpassed => hpassed.sent hphase
    | @receives frame queue _ _ =>
      refine h.set hcall rfl rfl hid fun passed hpassed => ?_
      have htake : ClientCall.Sends { call with
          input := { call.input with queue }, received := call.received ++ [frame] } passed :=
        hpassed.congr rfl rfl rfl
      exact htake.proceed false
    | starves _ _ _ => exact h.set hcall rfl rfl hid fun passed hpassed => hpassed.proceed true
  | @closes k call result again hlock hcall hphase =>
    have hid : (call.close s.incoming.length result again).id = call.id := by cases again <;> rfl
    refine h.set hcall rfl rfl hid fun passed hpassed => ?_
    cases again <;> exact hpassed.done rfl rfl (fun _ => nofun) rfl
  | @closesAgain k call result hlock hcall hphase =>
    exact h.set hcall rfl rfl rfl fun passed hpassed => hpassed.done rfl rfl (fun _ => nofun) rfl
  | arrives _ => exact h.congr rfl rfl
  | @delivers frame k call _ hcall _ =>
    exact h.set hcall rfl rfl rfl fun passed hpassed => hpassed.congr rfl rfl rfl
  | deliverFails _ _ _ => exact h.congr rfl rfl
  | @writes frame queue hout =>
    rw [hout] at hqueue
    have := hqueue.length_le
    simp only [List.length_cons] at this
    omega
  | stops => exact h.congr rfl rfl

end Sends

end ClientConnection

end Tchannel
