import Tchannel.ClientConnection
import Tchannel.Lib.Mux

/-!
# The invariant of a client connection

`ClientConnection.Inv` is what every step of a connection preserves. Its core is `conserved`: of the frames
that arrived for a call that is registered and listens, those that it received, those in its channel and the
one that is being sent to it make up all of them, in order. Ids are given out in turn, so that the calls have
different ids, and the dispatcher sends the frames of every open call to that call, until the ids run out
(`routed`).
-/

namespace Tchannel
open Wire

/-- Between the registration of an id and its first deregistration. -/
def ClientPhase.isActive : ClientPhase → Bool
  | .registered | .sending _ | .receiving | .closing _ _ => true
  | _ => false

/-- A phase that a run step leads to. -/
def ClientPhase.ofRun : ClientPhase → Bool
  | .allocated | .closingAgain _ => false
  | _ => true

theorem ClientPhase.ofRun_of_isActive {phase : ClientPhase} (h : phase.isActive = true) : phase.ofRun = true := by
  cases phase <;> first | rfl | cases h

namespace ClientCall

variable {call call' : ClientCall} {incoming : List TFrameId} {frame : TFrameId} {bufferSize k : ℕ}

/-! ### The frames that arrived -/

theorem arrived_congr (hid : call'.id = call.id) (hreg : call'.registeredAt = call.registeredAt)
    (hclosed : call'.closedAt = call.closedAt) : call'.arrived incoming = call.arrived incoming := by
  rw [arrived, arrived, hid, hreg, hclosed]

theorem arrived_eq_nil (hreg : call.registeredAt.getD incoming.length = incoming.length)
    (hclosed : call.closedAt = none) : call.arrived incoming = [] := by
  rw [arrived, hreg, hclosed, Option.getD_none, List.take_length, List.drop_length, List.filter_nil]

theorem arrived_length_le (call : ClientCall) (incoming : List TFrameId) :
    (call.arrived incoming).length ≤ incoming.length := by
  rw [arrived]
  refine (List.length_filter_le _ _).trans ?_
  rw [List.length_drop, List.length_take]
  omega

theorem arrived_concat_of_open (hopen : call.IsOpen) (hreg : ∀ n, call.registeredAt = some n → n ≤ incoming.length) :
    call.arrived (incoming ++ [frame]) =
      call.arrived incoming ++ if frame.id = call.id then [frame] else [] := by
  obtain ⟨hsome, hclosed⟩ := hopen
  obtain ⟨n, hn⟩ := Option.isSome_iff_exists.1 hsome
  have hle := hreg n hn
  simp only [arrived, hn, hclosed, Option.getD_some, Option.getD_none, List.take_length]
  rw [List.drop_append_of_le_length hle, List.filter_append]
  congr 1
  simp only [List.filter_cons, List.filter_nil, decide_eq_true_eq]

theorem arrived_concat_of_closed {n : ℕ} (hclosed : call.closedAt = some n) (hn : n ≤ incoming.length)
    (hreg : call.registeredAt.isSome = true) : call.arrived (incoming ++ [frame]) = call.arrived incoming := by
  obtain ⟨m, hm⟩ := Option.isSome_iff_exists.1 hreg
  simp only [arrived, hclosed, hm, Option.getD_some]
  rw [List.take_append_of_le_length hn]

theorem arrived_close (result : TResult Unit) (again : Bool) (hclosed : call.closedAt = none) :
    (call.close incoming.length result again).arrived incoming = call.arrived incoming := by
  rw [arrived, arrived, hclosed]
  cases again <;> rfl

/-! ### What the steps do -/

theorem register_id (call : ClientCall) (now : ℕ) (result : ConnectionResult Unit) :
    (call.register now result).id = call.id := by
  cases result <;> rfl

theorem register_registeredAt (call : ClientCall) (now : ℕ) (result : ConnectionResult Unit) :
    (call.register now result).registeredAt = some now := by
  cases result <;> rfl

theorem register_closedAt (call : ClientCall) (now : ℕ) (result : ConnectionResult Unit) :
    (call.register now result).closedAt = call.closedAt := by
  cases result <;> rfl

theorem register_frames (call : ClientCall) (now : ℕ) (result : ConnectionResult Unit) :
    (call.register now result).received ++ (call.register now result).input.queue =
      call.received ++ call.input.queue := by
  cases result <;> rfl

/-- `call'` is `call` after a step that does not involve the dispatcher. -/
structure Keeps (call call' : ClientCall) : Prop where
  operation : call'.operation = call.operation
  id : call'.id = call.id
  registeredAt : call'.registeredAt = call.registeredAt
  closedAt : call'.closedAt = call.closedAt
  frames : call'.received ++ call'.input.queue = call.received ++ call.input.queue
  queue : call'.input.queue.length ≤ call.input.queue.length
  alive : call'.input.receiverAlive = true → call.input.receiverAlive = true

theorem Keeps.of_phase (phase : ClientPhase) : call.Keeps { call with phase } :=
  ⟨rfl, rfl, rfl, rfl, rfl, Nat.le_refl _, fun h => h⟩

theorem Keeps.of_drop (phase : ClientPhase) : call.Keeps { call with input := call.input.dropReceiver, phase } :=
  ⟨rfl, rfl, rfl, rfl, rfl, Nat.le_refl _, nofun⟩

theorem Keeps.trans {call'' : ClientCall} (h : call.Keeps call') (h' : call'.Keeps call'') : call.Keeps call'' :=
  ⟨h'.operation.trans h.operation, h'.id.trans h.id, h'.registeredAt.trans h.registeredAt,
    h'.closedAt.trans h.closedAt, h'.frames.trans h.frames, h'.queue.trans h.queue, fun h'' => h.alive (h'.alive h'')⟩

theorem keeps_fail (e : TChannelError) : call.Keeps (call.fail e) := by
  unfold fail
  split
  · exact .of_drop _
  · exact .of_drop _

theorem keeps_create : call.Keeps call.create := by
  unfold create
  split
  · exact .of_phase _
  · exact keeps_fail _

theorem keeps_finish (result : TResult Unit) : call.Keeps (call.finish result) := by
  unfold finish
  split
  · exact .of_phase _
  · exact .of_drop _

theorem keeps_proceed (closed : Bool) : call.Keeps (call.proceed closed) := by
  unfold proceed
  split
  · exact keeps_finish _
  · exact keeps_finish _
  · exact .of_drop _
  · exact .of_phase call.phase

theorem keeps_receive {queue : List TFrameId} (hqueue : call.input.queue = frame :: queue) :
    call.Keeps (call.receive frame queue) := by
  have htake : call.Keeps { call with input := { call.input with queue }, received := call.received ++ [frame] } := by
    refine ⟨rfl, rfl, rfl, rfl, ?_, ?_, fun h => h⟩
    · show (call.received ++ [frame]) ++ queue = _
      rw [hqueue, List.append_assoc]
      rfl
    · rw [hqueue]
      exact Nat.le_succ _
  exact htake.trans (keeps_proceed false)

theorem Runs.keeps {closed : Prop} {outgoing outgoing' : Channel}
    (h : call.Runs bufferSize closed outgoing call' outgoing') : call.Keeps call' := by
  cases h with
  | creates _ => exact keeps_create
  | sends _ _ => exact .of_phase _
  | sendFails _ _ => exact keeps_fail _
  | sent _ => exact .of_phase _
  | receives _ hqueue => exact keeps_receive hqueue
  | starves _ _ _ => exact keeps_proceed true

theorem ofRun_fail (e : TChannelError) : (call.fail e).phase.ofRun = true := by
  unfold fail
  split <;> rfl

theorem ofRun_proceed (closed : Bool) (hphase : call.phase = .receiving) :
    (call.proceed closed).phase.ofRun = true := by
  have hfinish : ∀ result, (call.finish result).phase.ofRun = true := by
    intro result
    unfold finish
    split <;> rfl
  unfold proceed
  split
  · exact hfinish _
  · exact hfinish _
  · rfl
  · rw [hphase]
    rfl

theorem Runs.ofRun {closed : Prop} {outgoing outgoing' : Channel}
    (h : call.Runs bufferSize closed outgoing call' outgoing') :
    call.phase.isActive = true ∧ call'.phase.ofRun = true := by
  cases h with
  | creates hphase =>
    refine ⟨by rw [hphase]; rfl, ?_⟩
    unfold create
    split
    · rfl
    · exact ofRun_fail _
  | sends hphase _ => exact ⟨by rw [hphase]; rfl, rfl⟩
  | sendFails hphase _ => exact ⟨by rw [hphase]; rfl, ofRun_fail _⟩
  | sent hphase => exact ⟨by rw [hphase]; rfl, rfl⟩
  | receives hphase _ => exact ⟨by rw [hphase]; rfl, ofRun_proceed _ hphase⟩
  | starves hphase _ _ => exact ⟨by rw [hphase]; rfl, ofRun_proceed _ hphase⟩

/-! ### One call -/

/-- The invariant of the call `k` of a connection. -/
structure Inv (bufferSize : ℕ) (incoming : List TFrameId) (k : ℕ) (call : ClientCall) : Prop where
  id : call.id = UInt32.ofNat k
  queue : call.input.queue.length ≤ bufferSize
  registered : ∀ n, call.registeredAt = some n → n ≤ incoming.length
  closed : ∀ n, call.closedAt = some n → n ≤ incoming.length
  allocated : call.phase = .allocated → call = new call.operation call.id
  unregistered : call.registeredAt = none → call.phase = .allocated
  active : call.phase.isActive = true → call.closedAt = none
  closedOnce : ∀ result, call.phase = .closingAgain result → call.closedAt.isSome = true
  arrived : call.received ++ call.input.queue <+: call.arrived incoming

namespace Inv

theorem new (operation : Operation) : (ClientCall.new operation (UInt32.ofNat k)).Inv bufferSize incoming k :=
  ⟨rfl, Nat.zero_le _, nofun, nofun, fun _ => rfl, fun _ => rfl, nofun, fun _ => nofun, List.nil_prefix⟩

theorem phase_ne (hphase : call.phase.ofRun = true) : call.phase ≠ .allocated := by
  intro heq
  rw [heq] at hphase
  cases hphase

theorem keeps (h : call.Inv bufferSize incoming k) (hkeeps : call.Keeps call') (hphase : call.phase.isActive = true)
    (hphase' : call'.phase.ofRun = true) : call'.Inv bufferSize incoming k := by
  refine ⟨hkeeps.id.trans h.id, hkeeps.queue.trans h.queue, ?_, ?_, fun heq => absurd heq (phase_ne hphase'),
    fun hreg => ?_, fun _ => hkeeps.closedAt.trans (h.active hphase), fun result heq => ?_, ?_⟩
  · rw [hkeeps.registeredAt]
    exact h.registered
  · rw [hkeeps.closedAt]
    exact h.closed
  · rw [hkeeps.registeredAt] at hreg
    exact absurd (h.unregistered hreg) (phase_ne (ClientPhase.ofRun_of_isActive hphase))
  · rw [heq] at hphase'
    cases hphase'
  · rw [hkeeps.frames, arrived_congr hkeeps.id hkeeps.registeredAt hkeeps.closedAt]
    exact h.arrived

theorem register (h : call.Inv bufferSize incoming k) (hphase : call.phase = .allocated)
    (result : ConnectionResult Unit) : (call.register incoming.length result).Inv bufferSize incoming k := by
  have hnew := h.allocated hphase
  have hid := h.id
  rw [hnew] at hid ⊢
  cases result with
  | ok =>
    refine ⟨hid, Nat.zero_le _, fun n hn => ?_, nofun, nofun, nofun, fun _ => rfl, fun _ => nofun, List.nil_prefix⟩
    rw [← Option.some.inj hn]
  | error e =>
    refine ⟨hid, Nat.zero_le _, fun n hn => ?_, nofun, nofun, nofun, nofun, fun _ => nofun, List.nil_prefix⟩
    rw [← Option.some.inj hn]

theorem registeredAt_isSome (h : call.Inv bufferSize incoming k) (hphase : call.phase ≠ .allocated) :
    call.registeredAt.isSome = true := by
  cases hreg : call.registeredAt with
  | some n => rfl
  | none => exact absurd (h.unregistered hreg) hphase

theorem arrives (h : call.Inv bufferSize incoming k) (frame : TFrameId) :
    call.Inv bufferSize (incoming ++ [frame]) k := by
  have hle : incoming.length ≤ (incoming ++ [frame]).length := by simp
  refine ⟨h.id, h.queue, fun n hn => (h.registered n hn).trans hle, fun n hn => (h.closed n hn).trans hle,
    h.allocated, h.unregistered, h.active, h.closedOnce, ?_⟩
  by_cases hphase : call.phase = .allocated
  · rw [h.allocated hphase]
    exact List.nil_prefix
  · have hreg := h.registeredAt_isSome hphase
    cases hclosed : call.closedAt with
    | none =>
      rw [arrived_concat_of_open ⟨hreg, hclosed⟩ h.registered]
      exact h.arrived.trans (List.prefix_append _ _)
    | some n =>
      rw [arrived_concat_of_closed hclosed (h.closed n hclosed) hreg]
      exact h.arrived

theorem close (h : call.Inv bufferSize incoming k) {result : TResult Unit} {again : Bool}
    (hphase : call.phase = .closing result again) :
    (call.close incoming.length result again).Inv bufferSize incoming k := by
  have hopen := h.active (by rw [hphase]; rfl)
  have hreg := h.registeredAt_isSome (by rw [hphase]; exact nofun)
  refine ⟨?_, ?_, ?_, fun n hn => ?_, fun heq => ?_, fun hnone => ?_, fun hactive => ?_, fun _ _ => rfl, ?_⟩
  · cases again <;> exact h.id
  · cases again <;> exact h.queue
  · cases again <;> exact h.registered
  · rw [← Option.some.inj hn]
  · cases again <;> cases heq
  · have hsame : (call.close incoming.length result again).registeredAt = call.registeredAt := by cases again <;> rfl
    rw [hsame] at hnone
    rw [hnone] at hreg
    cases hreg
  · cases again <;> cases hactive
  · rw [arrived_close _ _ hopen]
    cases again <;> exact h.arrived

theorem returns (h : call.Inv bufferSize incoming k) (hphase : call.phase ≠ .allocated) (result : TResult Unit) :
    (call.returns result).Inv bufferSize incoming k :=
  ⟨h.id, h.queue, h.registered, h.closed, nofun, fun hnone => absurd (h.unregistered hnone) hphase, nofun,
    fun _ => nofun, h.arrived⟩

end Inv

end ClientCall

/-! ### A connection -/

namespace ClientConnection

structure Inv (bufferSize : ℕ) (s : ClientConnection) : Prop where
  nextMessageId : s.nextMessageId = UInt32.ofNat s.calls.length
  calls : ∀ (k : ℕ) call, s.calls[k]? = some call → call.Inv bufferSize s.incoming k
  registered : ∀ id k, s.pendingIds.get id = some k →
    ∃ call, s.calls[k]? = some call ∧ call.id = id ∧ call.IsOpen
  sending : ∀ frame k, s.receiver = .sending frame k → s.pendingIds.get frame.id = some k
  conserved : ∀ (k : ℕ) call, s.calls[k]? = some call → s.pendingIds.get call.id = some k →
    call.input.receiverAlive = true →
      call.received ++ call.input.queue ++ s.inFlight k = call.arrived s.incoming
  routed : s.calls.length ≤ 2 ^ 32 → ∀ (k : ℕ) call, s.calls[k]? = some call → call.IsOpen →
    s.pendingIds.get call.id = some k

theorem inv_new (bufferSize : ℕ) : new.Inv bufferSize := by
  refine ⟨rfl, ?_, ?_, ?_, ?_, ?_⟩
  · intro k call h
    cases h
  · intro id k h
    cases h
  · intro frame k h
    cases h
  · intro k call h
    cases h
  · intro _ k call h
    cases h

variable {bufferSize k j : ℕ} {s s' : ClientConnection} {call call' c : ClientCall} {frame : TFrameId}

theorem receiver_eq_idle (hlock : s.receiver.holdsReadLock = false) : s.receiver = .idle := by
  cases hreceiver : s.receiver with
  | idle => rfl
  | sending frame sender =>
    rw [hreceiver] at hlock
    cases hlock

theorem ne_sending (hidle : s.receiver = .idle) : s.receiver ≠ .sending frame k := by
  rw [hidle]
  exact FrameReceiver.noConfusion

theorem inFlight_of_idle (hidle : s.receiver = .idle) : s.inFlight k = [] := by
  rw [inFlight, hidle]
  rfl

namespace Inv

theorem lt_length (hcall : s.calls[k]? = some call) : k < s.calls.length := (List.getElem?_eq_some_iff.1 hcall).1

theorem isOpen (h : s.Inv bufferSize) {id : UInt32} (hget : s.pendingIds.get id = some k)
    (hcall : s.calls[k]? = some call) : call.id = id ∧ call.IsOpen := by
  obtain ⟨call', hcall', hid, hopen⟩ := h.registered id k hget
  obtain rfl := Option.some.inj (hcall'.symm.trans hcall)
  exact ⟨hid, hopen⟩

/-- Until the ids run out, each call has its own. -/
theorem eq_of_id_eq (h : s.Inv bufferSize) (hlen : s.calls.length ≤ 2 ^ 32) (hj : s.calls[j]? = some c)
    (hk : s.calls[k]? = some call) (hid : c.id = call.id) : j = k := by
  rw [(h.calls j c hj).id, (h.calls k call hk).id] at hid
  have hjlt := lt_length hj
  have hklt := lt_length hk
  have heq := congrArg UInt32.toNat hid
  rwa [UInt32.toNat_ofNat_of_lt' (by rw [UInt32.size]; omega), UInt32.toNat_ofNat_of_lt' (by rw [UInt32.size]; omega)]
    at heq

theorem calls_set (h : s.Inv bufferSize) (hcall : call'.Inv bufferSize s.incoming k) :
    ∀ (j : ℕ) c, (s.calls.set k call')[j]? = some c → c.Inv bufferSize s.incoming j := by
  intro j c hc
  rcases getElem?_set_cases hc with ⟨rfl, rfl⟩ | ⟨-, hc⟩
  · exact hcall
  · exact h.calls j c hc

theorem nextMessageId_set (h : s.Inv bufferSize) (call' : ClientCall) :
    s.nextMessageId = UInt32.ofNat (s.calls.set k call').length := by
  rw [List.length_set]
  exact h.nextMessageId

theorem registered_set (h : s.Inv bufferSize) (hcall : s.calls[k]? = some call) (hid : call'.id = call.id)
    (hopen : call.IsOpen → call'.IsOpen) : ∀ id j, s.pendingIds.get id = some j →
      ∃ c, (s.calls.set k call')[j]? = some c ∧ c.id = id ∧ c.IsOpen := by
  intro id j hget
  rcases eq_or_ne k j with rfl | hne
  · obtain ⟨hcid, hcopen⟩ := h.isOpen hget hcall
    exact ⟨call', List.getElem?_set_self (lt_length hcall), hid.trans hcid, hopen hcopen⟩
  · obtain ⟨c, hc, hrest⟩ := h.registered id j hget
    exact ⟨c, (List.getElem?_set_ne hne).trans hc, hrest⟩

theorem routed_set (h : s.Inv bufferSize) (hcall : s.calls[k]? = some call) (hid : call'.id = call.id)
    (hopen : call'.IsOpen → call.IsOpen) (hlen : (s.calls.set k call').length ≤ 2 ^ 32) :
    ∀ (j : ℕ) c, (s.calls.set k call')[j]? = some c → c.IsOpen → s.pendingIds.get c.id = some j := by
  intro j c hc hcopen
  rw [List.length_set] at hlen
  rcases getElem?_set_cases hc with ⟨rfl, rfl⟩ | ⟨-, hc⟩
  · rw [hid]
    exact h.routed hlen j call hcall (hopen hcopen)
  · exact h.routed hlen j c hc hcopen

theorem allocates (h : s.Inv bufferSize) (operation : Operation) : Inv bufferSize { s with
    nextMessageId := s.nextMessageId + 1, calls := s.calls ++ [ClientCall.new operation s.nextMessageId] } := by
  refine ⟨?_, fun k call hcall => ?_, fun id k hget => ?_, h.sending, fun k call hcall hget halive => ?_,
    fun hlen k call hcall hopen => ?_⟩
  · show s.nextMessageId + 1 = UInt32.ofNat (s.calls ++ [_]).length
    rw [h.nextMessageId, List.length_append, List.length_singleton, UInt32.ofNat_add]
    rfl
  · rcases getElem?_concat_cases hcall with hcall | ⟨rfl, rfl⟩
    · exact h.calls k call hcall
    · rw [h.nextMessageId]
      exact .new operation
  · obtain ⟨call, hcall, hrest⟩ := h.registered id k hget
    exact ⟨call, (List.getElem?_append_left (lt_length hcall)).trans hcall, hrest⟩
  · rcases getElem?_concat_cases hcall with hcall | ⟨rfl, rfl⟩
    · exact h.conserved k call hcall hget halive
    · obtain ⟨call, hcall, -⟩ := h.registered _ _ hget
      exact absurd (lt_length hcall) (Nat.lt_irrefl _)
  · rcases getElem?_concat_cases hcall with hcall | ⟨rfl, rfl⟩
    · rw [List.length_append] at hlen
      exact h.routed (by omega) k call hcall hopen
    · cases hopen.1

theorem runs (h : s.Inv bufferSize) (hcall : s.calls[k]? = some call) (hkeeps : call.Keeps call')
    (hphase : call.phase.isActive = true) (hphase' : call'.phase.ofRun = true) (outgoing : Channel) :
    Inv bufferSize { s with outgoing, calls := s.calls.set k call' } := by
  have hopen : call'.IsOpen ↔ call.IsOpen := by
    rw [ClientCall.IsOpen, ClientCall.IsOpen, hkeeps.registeredAt, hkeeps.closedAt]
  refine ⟨h.nextMessageId_set _, h.calls_set ((h.calls k call hcall).keeps hkeeps hphase hphase'),
    h.registered_set hcall hkeeps.id hopen.2, h.sending, fun j c hc hget halive => ?_,
    h.routed_set hcall hkeeps.id hopen.1⟩
  rcases getElem?_set_cases hc with ⟨rfl, rfl⟩ | ⟨-, hc⟩
  · rw [hkeeps.id] at hget
    rw [hkeeps.frames, ClientCall.arrived_congr hkeeps.id hkeeps.registeredAt hkeeps.closedAt]
    exact h.conserved j call hcall hget (hkeeps.alive halive)
  · exact h.conserved j c hc hget halive

/-- A call registers its id. If another one was registered under it, that one is replaced. -/
theorem registers (h : s.Inv bufferSize) (hlock : s.receiver.holdsReadLock = false) (hcall : s.calls[k]? = some call)
    (hphase : call.phase = .allocated) : (s.register k call).Inv bufferSize := by
  have hidle := receiver_eq_idle hlock
  have hnew := (h.calls k call hcall).allocated hphase
  have hother : ∀ {id j}, s.pendingIds.get id = some j → j ≠ k := by
    -- the call is not open yet
    rintro id j hget rfl
    obtain ⟨-, hsome, -⟩ := h.isOpen hget hcall
    rw [hnew] at hsome
    cases hsome
  let call' := call.register s.incoming.length (s.pendingIds.register call.id k).1
  have hid : call'.id = call.id := call.register_id _ _
  show Inv bufferSize { s with pendingIds := s.pendingIds.insert call.id k, calls := s.calls.set k call' }
  refine ⟨h.nextMessageId_set _, h.calls_set ((h.calls k call hcall).register hphase _), fun id j hget => ?_,
    fun frame j hsending => absurd hsending (ne_sending hidle), fun j c hc hget halive => ?_,
    fun hlen j c hc hcopen => ?_⟩
  · rcases FramesDispatcher.get_of_insert hget with ⟨heq, rfl⟩ | ⟨-, hget⟩
    · refine ⟨call', List.getElem?_set_self (lt_length hcall), hid.trans heq.symm, ?_⟩
      rw [ClientCall.IsOpen, ClientCall.register_registeredAt, ClientCall.register_closedAt]
      refine ⟨rfl, ?_⟩
      rw [hnew]
      rfl
    · obtain ⟨c, hc, hrest⟩ := h.registered id j hget
      exact ⟨c, (List.getElem?_set_ne (hother hget).symm).trans hc, hrest⟩
  · rcases getElem?_set_cases hc with ⟨rfl, rfl⟩ | ⟨hne, hc⟩
    · have hnil : s.inFlight j = [] := inFlight_of_idle hidle
      have harrived : call'.arrived s.incoming = [] := by
        refine ClientCall.arrived_eq_nil ?_ ?_
        · rw [ClientCall.register_registeredAt, Option.getD_some]
        · rw [ClientCall.register_closedAt, hnew]
          rfl
      have hlist : call'.received ++ call'.input.queue = call.received ++ call.input.queue :=
        call.register_frames _ _
      show call'.received ++ call'.input.queue ++ s.inFlight j = call'.arrived s.incoming
      rw [hnil, harrived, List.append_nil, hlist, hnew]
      rfl
    · rcases FramesDispatcher.get_of_insert hget with ⟨-, heq⟩ | ⟨-, hget⟩
      · exact absurd heq hne
      · exact h.conserved j c hc hget halive
  · rw [List.length_set] at hlen
    rw [FramesDispatcher.get_insert]
    rcases getElem?_set_cases hc with ⟨rfl, rfl⟩ | ⟨hne, hc⟩
    · rw [if_pos hid]
    · rw [if_neg fun heq => hne (h.eq_of_id_eq hlen hc hcall heq)]
      exact h.routed hlen j c hc hcopen

theorem deregisters (h : s.Inv bufferSize) (hlock : s.receiver.holdsReadLock = false)
    (hcall : s.calls[k]? = some call) (hcall' : call'.Inv bufferSize s.incoming k)
    (hclosed : call'.closedAt.isSome = true) :
    Inv bufferSize { s with
      pendingIds := s.pendingIds.deregister call.id, calls := s.calls.set k call' } := by
  have hidle := receiver_eq_idle hlock
  have hid : call'.id = call.id := hcall'.id.trans (h.calls k call hcall).id.symm
  refine ⟨h.nextMessageId_set _, h.calls_set hcall', fun id j hget => ?_,
    fun frame j hsending => absurd hsending (ne_sending hidle), fun j c hc hget halive => ?_,
    fun hlen j c hc hcopen => ?_⟩
  · obtain ⟨hne, hget⟩ := FramesDispatcher.get_of_deregister hget
    obtain ⟨c, hc, hcid, hcopen⟩ := h.registered id j hget
    refine ⟨c, (List.getElem?_set_ne ?_).trans hc, hcid, hcopen⟩
    rintro rfl
    obtain rfl := Option.some.inj (hc.symm.trans hcall)
    exact hne hcid.symm
  · obtain ⟨hne, hget⟩ := FramesDispatcher.get_of_deregister hget
    rcases getElem?_set_cases hc with ⟨rfl, rfl⟩ | ⟨-, hc⟩
    · exact absurd hid hne
    · exact h.conserved j c hc hget halive
  · rw [List.length_set] at hlen
    rcases getElem?_set_cases hc with ⟨rfl, rfl⟩ | ⟨hne, hc⟩
    · rw [hcopen.2] at hclosed
      cases hclosed
    · rw [FramesDispatcher.get_deregister, if_neg fun heq => hne (h.eq_of_id_eq hlen hc hcall heq)]
      exact h.routed hlen j c hc hcopen

theorem arrives (h : s.Inv bufferSize) (hidle : s.receiver = .idle) (frame : TFrameId) :
    Inv bufferSize { s with receiver := s.lookup frame, incoming := s.incoming ++ [frame] } := by
  refine ⟨h.nextMessageId, fun k call hcall => (h.calls k call hcall).arrives frame, h.registered,
    fun frame' k hsending => ?_, fun k call hcall hget halive => ?_, h.routed⟩
  · have hlookup : s.lookup frame = .sending frame' k := hsending
    unfold lookup at hlookup
    split at hlookup
    · rename_i hget
      obtain ⟨rfl, rfl⟩ := FrameReceiver.sending.inj hlookup
      exact hget
    · cases hlookup
  · have hold := h.conserved k call hcall hget halive
    rw [inFlight_of_idle hidle, List.append_nil] at hold
    rw [ClientCall.arrived_concat_of_open (h.isOpen hget hcall).2 (h.calls k call hcall).registered, ← hold]
    congr 1
    show (s.lookup frame).framesFor k = _
    unfold lookup
    by_cases hid : frame.id = call.id
    · rw [hid, hget, if_pos rfl]
      exact if_pos rfl
    · rw [if_neg hid]
      cases hsender : s.pendingIds.get frame.id with
      | none => rfl
      | some sender =>
        refine if_neg ?_
        rintro rfl
        exact hid (h.isOpen hsender hcall).1.symm

theorem sending_call (h : s.Inv bufferSize) (hsending : s.receiver = .sending frame k)
    (hcall : s.calls[k]? = some call) (halive : call.input.receiverAlive = true) :
    call.id = frame.id ∧ call.received ++ call.input.queue ++ [frame] = call.arrived s.incoming := by
  have hget := h.sending frame k hsending
  obtain ⟨hid, -⟩ := h.isOpen hget hcall
  have hflight : s.inFlight k = [frame] := by
    rw [inFlight, hsending]
    exact if_pos rfl
  rw [← hflight]
  exact ⟨hid, h.conserved k call hcall (hid ▸ hget) halive⟩

theorem inFlight_of_ne (hsending : s.receiver = .sending frame k) (hne : j ≠ k) : s.inFlight j = [] := by
  rw [inFlight, hsending]
  exact if_neg hne.symm

theorem delivers (h : s.Inv bufferSize) (hsending : s.receiver = .sending frame k) (hcall : s.calls[k]? = some call)
    (hready : call.input.Ready bufferSize) :
    Inv bufferSize { s with
      receiver := .idle, calls := s.calls.set k { call with input := call.input.push frame } } := by
  have hk := h.calls k call hcall
  obtain ⟨-, harrived⟩ := h.sending_call hsending hcall hready.1
  have hpush : call.received ++ (call.input.queue ++ [frame]) = call.arrived s.incoming := by
    rw [← List.append_assoc]
    exact harrived
  have hinv : ClientCall.Inv bufferSize s.incoming k { call with input := call.input.push frame } := by
    refine ⟨hk.id, ?_, hk.registered, hk.closed, fun hphase => ?_, hk.unregistered, hk.active, hk.closedOnce, ?_⟩
    · show (call.input.queue ++ [frame]).length ≤ bufferSize
      rw [List.length_append, List.length_singleton]
      exact hready.2
    · -- nothing arrives for a call that is not registered
      have hopen := (h.isOpen (h.sending frame k hsending) hcall).2
      rw [hk.allocated hphase] at hopen
      cases hopen.1
    · show call.received ++ (call.input.queue ++ [frame]) <+: call.arrived s.incoming
      rw [hpush]
  refine ⟨h.nextMessageId_set _, h.calls_set hinv, h.registered_set hcall rfl id, nofun,
    fun j c hc hget halive => ?_, h.routed_set hcall rfl id⟩
  rcases getElem?_set_cases hc with ⟨rfl, rfl⟩ | ⟨hne, hc⟩
  · show call.received ++ (call.input.queue ++ [frame]) ++ [] = call.arrived s.incoming
    rw [List.append_nil, hpush]
  · have hold := h.conserved j c hc hget halive
    rw [inFlight_of_ne hsending hne] at hold
    exact hold

theorem deliverFails (h : s.Inv bufferSize) (hsending : s.receiver = .sending frame k)
    (hcall : s.calls[k]? = some call) (hgone : call.input.receiverAlive = false) :
    Inv bufferSize { s with receiver := .idle } := by
  refine ⟨h.nextMessageId, h.calls, h.registered, nofun, fun j c hc hget halive => ?_, h.routed⟩
  have hne : j ≠ k := by
    rintro rfl
    obtain rfl := Option.some.inj (hc.symm.trans hcall)
    rw [halive] at hgone
    cases hgone
  have hold := h.conserved j c hc hget halive
  rw [inFlight_of_ne hsending hne] at hold
  exact hold

theorem step (h : s.Inv bufferSize) (hstep : Step bufferSize s s') : s'.Inv bufferSize := by
  cases hstep with
  | calls operation => exact h.allocates operation
  | registers hlock hcall hphase => exact h.registers hlock hcall hphase
  | runs hcall hrun => exact h.runs hcall hrun.keeps hrun.ofRun.1 hrun.ofRun.2 _
  | closes hlock hcall hphase => exact h.deregisters hlock hcall ((h.calls _ _ hcall).close hphase) rfl
  | closesAgain hlock hcall hphase =>
    have hk := h.calls _ _ hcall
    exact h.deregisters hlock hcall (hk.returns (by rw [hphase]; exact nofun) _) (hk.closedOnce _ hphase)
  | arrives hidle => exact h.arrives hidle _
  | delivers hsending hcall hready => exact h.delivers hsending hcall hready
  | deliverFails hsending hcall hgone => exact h.deliverFails hsending hcall hgone
  | writes _ => exact ⟨h.nextMessageId, h.calls, h.registered, h.sending, h.conserved, h.routed⟩
  | stops => exact ⟨h.nextMessageId, h.calls, h.registered, h.sending, h.conserved, h.routed⟩

theorem of_reachable (h : (system bufferSize).Reachable s) : s.Inv bufferSize :=
  h.invariant (fun _ hinit => hinit ▸ inv_new bufferSize) (fun _ _ _ hinv hstep => hinv.step hstep)

end Inv

end ClientConnection

end Tchannel
