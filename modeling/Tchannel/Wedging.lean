import Tchannel.Multiplexing

/-!
# A client connection that its peer wedges

`send_one` keeps the receiver of its channel until it has returned, though it receives one frame only. If
`FrameReceiver` has another frame for it and the channel is full, it waits for room, holding the read lock,
while `send_one` waits for the write lock to deregister its id (`Wedged`). That takes `buffer_size + 2` frames
(`wedged_iff`); a peer that sends fewer to each `send_one` wedges nothing (`never_wedged`). `send` drops its
receiver before it closes, and cannot be wedged.
-/

namespace Tchannel
open Wire

namespace ClientPhase

/-- The response has not been read. -/
def isReading : ClientPhase → Bool
  | .allocated | .registered | .sending _ | .receiving => true
  | _ => false

/-- The call waits for the write lock in `FrameOutput::close`. -/
def isClosing : ClientPhase → Bool
  | .closing _ _ | .closingAgain _ => true
  | _ => false

end ClientPhase

namespace ClientCall

/-- How much of its response a call has; `own` if its entry in the dispatcher is its own sender. -/
structure Reads (own : Prop) (call : ClientCall) : Prop where
  send : call.operation.isSendOne = false → call.phase.isClosing = true → call.input.receiverAlive = false
  before : call.operation.isSendOne = true → call.phase.isReading = true → call.received = []
  one : call.operation.isSendOne = true → call.received.length ≤ 1
  after : call.operation.isSendOne = true → call.phase.isClosing = true → own → call.received.length = 1
  listens : call.input.receiverAlive = true → call.phase.isReading = true ∨ call.phase.isClosing = true

variable {call call' : ClientCall} {own own' : Prop} {bufferSize : ℕ} {outgoing outgoing' : Channel}

theorem Reads.mono (h : call.Reads own) (hown : own' → own) : call.Reads own' :=
  ⟨h.send, h.before, h.one, fun hone hphase hown' => h.after hone hphase (hown hown'), h.listens⟩

theorem reads_new (operation : Operation) (id : UInt32) : (new operation id).Reads own :=
  ⟨fun _ => nofun, fun _ _ => rfl, fun _ => Nat.zero_le _, fun _ => nofun, fun _ => .inl rfl⟩

theorem Reads.register (h : call.Reads own) (hphase : call.phase = .allocated) (now : ℕ)
    (result : ConnectionResult Unit) : (call.register now result).Reads own' := by
  have hreading : call.phase.isReading = true := by
    rw [hphase]
    rfl
  cases result with
  | ok => exact ⟨fun _ => nofun, fun hone _ => h.before hone hreading, h.one, fun _ => nofun, fun _ => .inl rfl⟩
  | error e => exact ⟨fun _ => nofun, fun _ => nofun, h.one, fun _ => nofun, nofun⟩

theorem Reads.fail (h : call.Reads own) (e : TChannelError) : (call.fail e).Reads own := by
  unfold ClientCall.fail
  split
  · exact ⟨fun _ => nofun, fun _ => nofun, h.one, fun _ => nofun, nofun⟩
  · rename_i hop
    refine ⟨fun _ _ => rfl, fun _ => nofun, h.one, fun hone => ?_, nofun⟩
    have hone : call.operation.isSendOne = true := hone
    rw [hop] at hone
    cases hone

theorem reads_proceed_sendOne {closed : Bool} (hone : call.operation.isSendOne = true)
    (hread : (∃ frame, call.received = [frame]) ∨ (call.received = [] ∧ closed = true ∧ ¬ own)) :
    (call.proceed closed).Reads own := by
  obtain ⟨operation, id, input, received, phase, registeredAt, closedAt⟩ := call
  cases operation with
  | send exchange => cases hone
  | sendOne frame' =>
    rcases hread with ⟨frame, hreceived⟩ | ⟨hreceived, rfl, hown⟩
    · obtain rfl : received = [frame] := hreceived
      exact ⟨nofun, fun _ => nofun, fun _ => Nat.le_refl 1, fun _ _ _ => rfl, fun _ => .inr rfl⟩
    · obtain rfl : received = [] := hreceived
      exact ⟨nofun, fun _ => nofun, fun _ => Nat.zero_le 1, fun _ _ h => absurd h hown, fun _ => .inr rfl⟩

theorem reads_proceed_send {closed : Bool} (hsend : call.operation.isSendOne = false)
    (hphase : call.phase = .receiving) : (call.proceed closed).Reads own := by
  have hno : ∀ {P : Prop}, call.operation.isSendOne = true → P := fun h => by
    rw [hsend] at h
    cases h
  have hfinish : ∀ result, (call.finish result).Reads own := by
    intro result
    unfold finish
    split
    · rename_i frame hop
      rw [hop] at hsend
      cases hsend
    · exact ⟨fun _ _ => rfl, fun h => hno h, fun h => hno h, fun h => hno h, nofun⟩
  unfold proceed
  split
  · exact hfinish _
  · exact hfinish _
  · exact ⟨fun _ => nofun, fun h => hno h, fun h => hno h, fun h => hno h, nofun⟩
  · refine ⟨fun _ hclosing => ?_, fun h => hno h, fun h => hno h, fun h => hno h, fun _ => .inl (by rw [hphase]; rfl)⟩
    rw [hphase] at hclosing
    cases hclosing

theorem Runs.reads (h : call.Runs bufferSize (¬ own) outgoing call' outgoing') (hreads : call.Reads own) :
    call'.Reads own := by
  cases h with
  | creates hphase =>
    have hbefore := fun hone => hreads.before hone (by rw [hphase]; rfl)
    unfold create
    split
    · exact ⟨fun _ => nofun, fun hone _ => hbefore hone, hreads.one, fun _ => nofun, fun _ => .inl rfl⟩
    · exact hreads.fail _
  | sends hphase _ =>
    have hbefore := fun hone => hreads.before hone (by rw [hphase]; rfl)
    exact ⟨fun _ => nofun, fun hone _ => hbefore hone, hreads.one, fun _ => nofun, fun _ => .inl rfl⟩
  | sendFails _ _ => exact hreads.fail _
  | sent hphase =>
    have hbefore := fun hone => hreads.before hone (by rw [hphase]; rfl)
    exact ⟨fun _ => nofun, fun hone _ => hbefore hone, hreads.one, fun _ => nofun, fun _ => .inl rfl⟩
  | @receives frame queue hphase hqueue =>
    cases hone : call.operation.isSendOne with
    | false => exact reads_proceed_send hone hphase
    | true =>
      refine reads_proceed_sendOne hone (.inl ⟨frame, ?_⟩)
      show call.received ++ [frame] = [frame]
      rw [hreads.before hone (by rw [hphase]; rfl), List.nil_append]
  | starves hphase _ hclosed =>
    cases hone : call.operation.isSendOne with
    | false => exact reads_proceed_send hone hphase
    | true => exact reads_proceed_sendOne hone (.inr ⟨hreads.before hone (by rw [hphase]; rfl), rfl, hclosed⟩)

end ClientCall

namespace ClientConnection

/-- `FrameReceiver` holds the read lock and waits for room in a channel whose call waits for the write lock. -/
def Wedged (bufferSize : ℕ) (s : ClientConnection) : Prop :=
  ∃ frame k call, s.receiver = .sending frame k ∧ s.calls[k]? = some call ∧ call.input.Full bufferSize ∧
    call.phase.isClosing = true

/-- No call of `send_one` that has not returned has been sent more than `buffer_size` frames before this one. -/
def Expects (bufferSize : ℕ) (s : ClientConnection) (frame : TFrameId) : Prop :=
  ∀ (k : ℕ) call, s.calls[k]? = some call → call.operation.isSendOne = true → call.IsOpen →
    call.input.receiverAlive = true → call.id = frame.id → (call.arrived s.incoming).length ≤ bufferSize

/-- The runs in which only such frames arrive. -/
def measured (bufferSize : ℕ) : TransitionSystem ClientConnection where
  init s := s = new
  step s s' := Step bufferSize s s' ∧ ∀ frame, s'.incoming = s.incoming ++ [frame] → Expects bufferSize s frame

variable {bufferSize k : ℕ} {s s' : ClientConnection} {call call' : ClientCall} {frame : TFrameId}

/-- The calls of a reachable state. -/
def Reads (s : ClientConnection) : Prop :=
  ∀ (k : ℕ) call, s.calls[k]? = some call → call.Reads (s.pendingIds.get call.id = some k)

theorem Reads.step (h : s.Reads) (hstep : Step bufferSize s s') : s'.Reads := by
  intro j c hc
  cases hstep with
  | calls operation =>
    rcases getElem?_concat_cases hc with hc | ⟨-, rfl⟩
    · exact h j c hc
    · exact ClientCall.reads_new _ _
  | @registers k call hlock hcall hphase =>
    rcases getElem?_set_cases hc with ⟨-, rfl⟩ | ⟨hne, hc⟩
    · exact (h k call hcall).register hphase _ _
    · refine (h j c hc).mono fun hget => ?_
      rcases FramesDispatcher.get_of_insert hget with ⟨-, heq⟩ | ⟨-, hget⟩
      · exact absurd heq hne
      · exact hget
  | @runs k call call' outgoing hcall hrun =>
    rcases getElem?_set_cases hc with ⟨rfl, rfl⟩ | ⟨-, hc⟩
    · rw [hrun.keeps.id]
      exact hrun.reads (h j call hcall)
    · exact h j c hc
  | @closes k call result again hlock hcall hphase =>
    rcases getElem?_set_cases hc with ⟨rfl, rfl⟩ | ⟨-, hc⟩
    · have hk := h j call hcall
      have hclosing : call.phase.isClosing = true := by
        rw [hphase]
        rfl
      refine ⟨fun hsend _ => ?_, fun _ hreading => ?_, ?_, fun _ _ hget => ?_, fun halive => ?_⟩
      · cases again with
        | true => exact hk.send hsend hclosing
        | false => rfl
      · cases again <;> cases hreading
      · cases again <;> exact hk.one
      · refine absurd ?_ (FramesDispatcher.get_of_deregister hget).1
        cases again <;> rfl
      · cases again with
        | true => exact .inr rfl
        | false => cases halive
    · exact (h j c hc).mono fun hget => (FramesDispatcher.get_of_deregister hget).2
  | @closesAgain k call result hlock hcall hphase =>
    rcases getElem?_set_cases hc with ⟨rfl, rfl⟩ | ⟨-, hc⟩
    · exact ⟨fun _ => nofun, fun _ => nofun, (h j call hcall).one, fun _ => nofun, nofun⟩
    · exact (h j c hc).mono fun hget => (FramesDispatcher.get_of_deregister hget).2
  | arrives _ => exact h j c hc
  | @delivers frame k call hsending hcall hready =>
    rcases getElem?_set_cases hc with ⟨rfl, rfl⟩ | ⟨-, hc⟩
    · have hk := h j call hcall
      exact ⟨fun hsend hclosing => hk.send hsend hclosing, hk.before, hk.one, hk.after, hk.listens⟩
    · exact h j c hc
  | deliverFails _ _ _ => exact h j c hc
  | writes _ => exact h j c hc
  | stops => exact h j c hc

theorem Reads.of_reachable (h : (system bufferSize).Reachable s) : s.Reads :=
  h.invariant (P := Reads) (fun s hinit k call hcall => by
    rw [show s = new from hinit] at hcall
    cases hcall) (fun _ _ _ hreads hstep => hreads.step hstep)

/-! ### The frames that it takes -/

/-- The call that is waited for is one of `send_one` with one frame received, `buffer_size` queued, and one more. -/
theorem Wedged.arrived (hreach : (system bufferSize).Reachable s) (hwedged : Wedged bufferSize s) :
    ∃ frame k call, s.receiver = .sending frame k ∧ s.calls[k]? = some call ∧ call.operation.isSendOne = true ∧
      call.IsOpen ∧ call.input.receiverAlive = true ∧ call.id = frame.id ∧
      bufferSize + 2 ≤ (call.arrived s.incoming).length := by
  obtain ⟨frame, k, call, hsending, hcall, ⟨halive, hfull⟩, hclosing⟩ := hwedged
  have h := Inv.of_reachable hreach
  have hreads := Reads.of_reachable hreach k call hcall
  obtain ⟨hid, harrived⟩ := h.sending_call hsending hcall halive
  have hget := h.sending frame k hsending
  have hone : call.operation.isSendOne = true := by
    by_contra hsend
    rw [hreads.send (Bool.eq_false_iff.2 hsend) hclosing] at halive
    cases halive
  refine ⟨frame, k, call, hsending, hcall, hone, (h.isOpen hget hcall).2, halive, hid, ?_⟩
  rw [← harrived, List.length_append, List.length_append, hreads.after hone hclosing (hid ▸ hget),
    List.length_singleton]
  omega

/-- Every frame that arrives for a call of `send_one` is expected. -/
def Within (bufferSize : ℕ) (s : ClientConnection) : Prop :=
  ∀ (k : ℕ) call, s.calls[k]? = some call → call.operation.isSendOne = true → call.IsOpen →
    call.input.receiverAlive = true → (call.arrived s.incoming).length ≤ bufferSize + 1

theorem Within.step (h : s.Within bufferSize) (hinv : s.Inv bufferSize) (hstep : (measured bufferSize).step s s') :
    s'.Within bufferSize := by
  obtain ⟨hstep, hexpects⟩ := hstep
  intro j c hc hone hopen halive
  cases hstep with
  | calls operation =>
    rcases getElem?_concat_cases hc with hc | ⟨-, rfl⟩
    · exact h j c hc hone hopen halive
    · cases hopen.1
  | @registers k call hlock hcall hphase =>
    rcases getElem?_set_cases hc with ⟨-, rfl⟩ | ⟨-, hc⟩
    · show ((call.register _ _).arrived s.incoming).length ≤ _
      rw [ClientCall.arrived_eq_nil _ hopen.2]
      · exact Nat.zero_le _
      · rw [ClientCall.register_registeredAt, Option.getD_some]
    · exact h j c hc hone hopen halive
  | @runs k call call' outgoing hcall hrun =>
    rcases getElem?_set_cases hc with ⟨-, rfl⟩ | ⟨-, hc⟩
    · have hkeeps := hrun.keeps
      rw [ClientCall.IsOpen, hkeeps.registeredAt, hkeeps.closedAt] at hopen
      rw [hkeeps.operation] at hone
      show (c.arrived s.incoming).length ≤ _
      rw [ClientCall.arrived_congr hkeeps.id hkeeps.registeredAt hkeeps.closedAt]
      exact h k call hcall hone hopen (hkeeps.alive halive)
    · exact h j c hc hone hopen halive
  | @closes k call result again hlock hcall hphase =>
    rcases getElem?_set_cases hc with ⟨-, rfl⟩ | ⟨-, hc⟩
    · cases hopen.2
    · exact h j c hc hone hopen halive
  | @closesAgain k call result hlock hcall hphase =>
    rcases getElem?_set_cases hc with ⟨-, rfl⟩ | ⟨-, hc⟩
    · cases halive
    · exact h j c hc hone hopen halive
  | @arrives frame hidle =>
    show (c.arrived (s.incoming ++ [frame])).length ≤ _
    rw [ClientCall.arrived_concat_of_open hopen (hinv.calls j c hc).registered, List.length_append]
    split
    · rename_i hid
      exact Nat.add_le_add_right (hexpects frame rfl j c hc hone hopen halive hid.symm) 1
    · exact h j c hc hone hopen halive
  | @delivers frame k call hsending hcall hready =>
    rcases getElem?_set_cases hc with ⟨-, rfl⟩ | ⟨-, hc⟩
    · exact h k call hcall hone hopen halive
    · exact h j c hc hone hopen halive
  | deliverFails _ _ _ => exact h j c hc hone hopen halive
  | writes _ => exact h j c hc hone hopen halive
  | stops => exact h j c hc hone hopen halive

theorem within_of_reachable (hreach : (measured bufferSize).Reachable s) :
    (system bufferSize).Reachable s ∧ s.Within bufferSize := by
  refine hreach.invariant (P := fun s => (system bufferSize).Reachable s ∧ s.Within bufferSize) ?_ ?_
  · intro s hinit
    refine ⟨.start hinit, fun k call hcall => ?_⟩
    rw [show s = new from hinit] at hcall
    cases hcall
  · intro s s' _ hs hstep
    exact ⟨hs.1.step hstep.1, hs.2.step (Inv.of_reachable hs.1) hstep⟩

theorem wedged_iff (hreach : (system bufferSize).Reachable s) (hlen : s.calls.length ≤ 2 ^ 32)
    (hidle : s.receiver = .idle) (frame : TFrameId) :
    Wedged bufferSize { s with receiver := s.lookup frame, incoming := s.incoming ++ [frame] } ↔
      ¬ Expects bufferSize s frame := by
  have h := Inv.of_reachable hreach
  constructor
  · intro hwedged hexpects
    obtain ⟨frame', k, call, hsending, hcall, hone, hopen, halive, hid, hlong⟩ :=
      hwedged.arrived (hreach.step (.arrives hidle))
    have hframe : frame' = frame := by
      have hlookup : s.lookup frame = .sending frame' k := hsending
      unfold lookup at hlookup
      split at hlookup
      · exact (FrameReceiver.sending.inj hlookup).1.symm
      · cases hlookup
    have hshort := hexpects k call hcall hone hopen halive (hframe ▸ hid)
    have hlong : bufferSize + 2 ≤ (call.arrived (s.incoming ++ [frame])).length := hlong
    rw [ClientCall.arrived_concat_of_open hopen (h.calls k call hcall).registered, List.length_append,
      if_pos (hframe ▸ hid.symm), List.length_singleton] at hlong
    omega
  · intro hunexpected
    simp only [Expects, not_forall, Nat.not_le] at hunexpected
    obtain ⟨k, call, hcall, hone, hopen, halive, hid, hlong⟩ := hunexpected
    have hget := h.routed hlen k call hcall hopen
    have hreads := Reads.of_reachable hreach k call hcall
    have hconserved := h.conserved k call hcall hget halive
    rw [inFlight_of_idle hidle, List.append_nil] at hconserved
    rw [← hconserved, List.length_append] at hlong
    have hqueue := (h.calls k call hcall).queue
    have hreceived := hreads.one hone
    refine ⟨frame, k, call, ?_, hcall, ⟨halive, by omega⟩, ?_⟩
    · show s.lookup frame = _
      rw [lookup, ← hid, hget]
    · refine (hreads.listens halive).resolve_left fun hreading => ?_
      rw [hreads.before hone hreading, List.length_nil] at hlong
      omega

/-! ### A ping that is answered twice -/

theorem measured_step (h : (measured bufferSize).Reachable s) (hstep : Step bufferSize s s')
    (hincoming : s'.incoming = s.incoming) : (measured bufferSize).Reachable s' := by
  refine h.step ⟨hstep, fun frame hframe => ?_⟩
  rw [hincoming] at hframe
  simp at hframe

/-- Frames that all fit into one buffer are expected. -/
theorem measured_arrives (h : (measured bufferSize).Reachable s) (hidle : s.receiver = .idle)
    (hfew : s.incoming.length ≤ bufferSize) (frame : TFrameId) : (measured bufferSize).Reachable
      { s with receiver := s.lookup frame, incoming := s.incoming ++ [frame] } := by
  refine h.step ⟨.arrives hidle, fun frame' _ k call _ _ _ _ _ => ?_⟩
  exact (call.arrived_length_le s.incoming).trans hfew

theorem answered_twice : ∃ s frame, (measured 1).Reachable s ∧ s.incoming = [frame, frame] ∧
    s.receiver = .idle ∧ s.calls.length = 1 ∧ ¬ Expects 1 s frame := by
  let frame : TFrameId := ⟨0, ⟨.pingResponse, []⟩⟩
  have h₀ := TransitionSystem.Reachable.start (show (measured 1).init new from rfl)
  have h₁ := measured_step h₀ (.calls (.sendOne ⟨.pingRequest, []⟩)) rfl
  have h₂ := measured_step h₁ (@Step.registers 1 _ 0 _ rfl rfl rfl) rfl
  have h₃ := measured_step h₂ (@Step.runs 1 _ 0 _ _ _ rfl (.creates rfl)) rfl
  have h₄ := measured_step h₃ (@Step.runs 1 _ 0 _ _ _ rfl (.sends rfl ⟨rfl, Nat.one_pos⟩)) rfl
  have h₅ := measured_step h₄ (@Step.runs 1 _ 0 _ _ _ rfl (.sent rfl)) rfl
  have h₆ := measured_arrives h₅ rfl (Nat.zero_le 1) frame
  have h₇ := measured_step h₆ (@Step.delivers 1 _ _ 0 _ rfl rfl ⟨rfl, Nat.one_pos⟩) rfl
  have h₈ := measured_step h₇ (@Step.runs 1 _ 0 _ _ _ rfl (.receives rfl rfl)) rfl
  have h₉ := measured_arrives h₈ rfl (Nat.le_refl 1) frame
  have h₁₀ := measured_step h₉ (@Step.delivers 1 _ _ 0 _ rfl rfl ⟨rfl, Nat.one_pos⟩) rfl
  refine ⟨_, frame, h₁₀, rfl, rfl, rfl, fun hexpects => ?_⟩
  exact absurd (hexpects 0 _ rfl rfl ⟨rfl, rfl⟩ rfl rfl) (by decide)

/-- No connection is wedged in a run in which no call of `send_one` is sent more than `buffer_size + 1` frames
before it returns. -/
theorem never_wedged (bufferSize : ℕ) :
    (∀ s, (measured bufferSize).Reachable s → ¬ Wedged bufferSize s) ∧
    ∀ s frame, (system bufferSize).Reachable s → s.calls.length ≤ 2 ^ 32 → s.receiver = .idle →
      (Wedged bufferSize { s with receiver := s.lookup frame, incoming := s.incoming ++ [frame] } ↔
        ¬ Expects bufferSize s frame) := by
  refine ⟨fun s hreach hwedged => ?_, fun s frame hreach hlen hidle => wedged_iff hreach hlen hidle frame⟩
  obtain ⟨hreach, hwithin⟩ := within_of_reachable hreach
  obtain ⟨frame, k, call, -, hcall, hone, hopen, halive, -, hlong⟩ := hwedged.arrived hreach
  have hshort := hwithin k call hcall hone hopen halive
  omega

/-- With a buffer for one frame a ping is answered twice, and nothing is wedged; a third answer wedges the
connection. -/
theorem third_answer_wedges : ∃ s frame, (measured 1).Reachable s ∧ s.incoming = [frame, frame] ∧ ¬ Wedged 1 s ∧
    Wedged 1 { s with receiver := s.lookup frame, incoming := s.incoming ++ [frame] } := by
  obtain ⟨s, frame, hreach, hincoming, hidle, hlen, hunexpected⟩ := answered_twice
  obtain ⟨hnever, hiff⟩ := never_wedged 1
  refine ⟨s, frame, hreach, hincoming, hnever s hreach, ?_⟩
  exact (hiff s frame (within_of_reachable hreach).1 (by omega) hidle).2 hunexpected

/-- A ping that is answered three times wedges a connection with a buffer for one frame. -/
theorem pinging_wedges : ¬ ∀ s, (system 1).Reachable s → ¬ Wedged 1 s := by
  intro h
  obtain ⟨s, frame, hreach, hincoming, hidle, hlen, hunexpected⟩ := answered_twice
  have hreach := (within_of_reachable hreach).1
  exact h _ (hreach.step (.arrives hidle)) ((wedged_iff hreach (by omega) hidle frame).2 hunexpected)

end ClientConnection

end Tchannel
