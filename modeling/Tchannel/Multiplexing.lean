import Tchannel.ClientInvariant

/-!
# Calls that share a client connection

What the invariant of `ClientInvariant` says about a connection whose ids have not run out
(`Multiplexed`): the open calls have different ids, each is sent the frames that arrive with its id, and
nobody else gets them.
-/

namespace Tchannel
open Wire

namespace ClientConnection

structure Multiplexed (bufferSize : ℕ) (s : ClientConnection) : Prop where
  /-- Open calls have different ids. -/
  distinct : ∀ (j k : ℕ) c call, s.calls[j]? = some c → s.calls[k]? = some call → c.IsOpen → call.IsOpen →
    c.id = call.id → j = k
  /-- The entry of an open call is its own sender. -/
  own : ∀ (k : ℕ) call, s.calls[k]? = some call → call.IsOpen → s.pendingIds.get call.id = some k
  received : ∀ (k : ℕ) call, s.calls[k]? = some call → call.received <+: call.arrived s.incoming
  /-- While a call listens, what it has not received of its frames is on the way to it. -/
  kept : ∀ (k : ℕ) call, s.calls[k]? = some call → call.IsOpen → call.input.receiverAlive = true →
    call.received ++ call.input.queue ++ s.inFlight k = call.arrived s.incoming
  /-- A frame whose id is not open is dropped. -/
  dropped : ∀ s' frame, Step bufferSize s s' → s'.incoming = s.incoming ++ [frame] →
    (∀ (k : ℕ) call, s.calls[k]? = some call → call.IsOpen → call.id ≠ frame.id) →
    s' = { s with incoming := s.incoming ++ [frame] }
  /-- So is a frame for a call that does not listen any more. -/
  gone : ∀ s' frame k call, Step bufferSize s s' → s.receiver = .sending frame k → s'.receiver = .idle →
    s.calls[k]? = some call → call.input.receiverAlive = false → s' = { s with receiver := .idle }
  /-- A frame changes neither an entry nor the queue of a call with another id. -/
  others : ∀ s' frame k, Step bufferSize s s' → s.receiver = .sending frame k → s'.receiver = .idle →
    s'.pendingIds = s.pendingIds ∧ ∀ (j : ℕ) c, s.calls[j]? = some c → c.id ≠ frame.id → s'.calls[j]? = some c

variable {bufferSize k : ℕ} {s s' : ClientConnection} {frame : TFrameId}

theorem Step.of_incoming (h : Step bufferSize s s') (hincoming : s'.incoming = s.incoming ++ [frame]) :
    s.receiver = .idle ∧ s' = { s with receiver := s.lookup frame, incoming := s.incoming ++ [frame] } := by
  have hne : s.incoming ≠ s.incoming ++ [frame] := fun heq => by
    have := congrArg List.length heq
    simp at this
  cases h with
  | arrives hidle =>
    obtain ⟨-, heq⟩ := List.append_inj' hincoming rfl
    obtain rfl := List.head_eq_of_cons_eq heq
    exact ⟨hidle, rfl⟩
  | calls _ => exact absurd hincoming hne
  | registers _ _ _ => exact absurd hincoming hne
  | runs _ _ => exact absurd hincoming hne
  | closes _ _ _ => exact absurd hincoming hne
  | closesAgain _ _ _ => exact absurd hincoming hne
  | delivers _ _ _ => exact absurd hincoming hne
  | deliverFails _ _ _ => exact absurd hincoming hne
  | writes _ => exact absurd hincoming hne
  | stops => exact absurd hincoming hne

theorem Step.of_sending (h : Step bufferSize s s') (hsending : s.receiver = .sending frame k)
    (hidle : s'.receiver = .idle) : ∃ call, s.calls[k]? = some call ∧
      ((call.input.receiverAlive = true ∧ s' = { s with
          receiver := .idle, calls := s.calls.set k { call with input := call.input.push frame } }) ∨
        (call.input.receiverAlive = false ∧ s' = { s with receiver := .idle })) := by
  have hsame : s'.receiver ≠ s.receiver := by
    rw [hidle, hsending]
    exact nofun
  cases h with
  | delivers hsending' hcall hready =>
    obtain ⟨rfl, rfl⟩ := FrameReceiver.sending.inj (hsending'.symm.trans hsending)
    exact ⟨_, hcall, .inl ⟨hready.1, rfl⟩⟩
  | deliverFails hsending' hcall hgone =>
    obtain ⟨rfl, rfl⟩ := FrameReceiver.sending.inj (hsending'.symm.trans hsending)
    exact ⟨_, hcall, .inr ⟨hgone, rfl⟩⟩
  | arrives hidle' =>
    rw [hidle'] at hsending
    cases hsending
  | calls _ => exact absurd rfl hsame
  | registers _ _ _ => exact absurd rfl hsame
  | runs _ _ => exact absurd rfl hsame
  | closes _ _ _ => exact absurd rfl hsame
  | closesAgain _ _ _ => exact absurd rfl hsame
  | writes _ => exact absurd rfl hsame
  | stops => exact absurd rfl hsame

theorem Inv.lookup_eq_idle (h : s.Inv bufferSize)
    (hfree : ∀ (k : ℕ) call, s.calls[k]? = some call → call.IsOpen → call.id ≠ frame.id) :
    s.lookup frame = .idle := by
  unfold lookup
  cases hget : s.pendingIds.get frame.id with
  | none => rfl
  | some k =>
    obtain ⟨call, hcall, hid, hopen⟩ := h.registered _ _ hget
    exact absurd hid (hfree k call hcall hopen)

theorem calls_multiplexed (bufferSize : ℕ) (s : ClientConnection) (hreach : (system bufferSize).Reachable s)
    (hids : s.calls.length < 2 ^ 32) : Multiplexed bufferSize s := by
  have h := Inv.of_reachable hreach
  have hlen := Nat.le_of_lt hids
  refine ⟨fun j k c call hj hk _ _ hid => h.eq_of_id_eq hlen hj hk hid, h.routed hlen, fun k call hcall => ?_,
    fun k call hcall hopen => h.conserved k call hcall (h.routed hlen k call hcall hopen), ?_, ?_, ?_⟩
  · exact (List.prefix_append _ _).trans (h.calls k call hcall).arrived
  · intro s' frame hstep hincoming hfree
    obtain ⟨hidle, rfl⟩ := hstep.of_incoming hincoming
    rw [h.lookup_eq_idle hfree, hidle]
  · intro s' frame k call hstep hsending hidle hcall hgone
    obtain ⟨call', hcall', ⟨halive, -⟩ | ⟨-, rfl⟩⟩ := hstep.of_sending hsending hidle
    · obtain rfl := Option.some.inj (hcall'.symm.trans hcall)
      rw [halive] at hgone
      cases hgone
    · rfl
  · intro s' frame k hstep hsending hidle
    obtain ⟨call, hcall, ⟨-, rfl⟩ | ⟨-, rfl⟩⟩ := hstep.of_sending hsending hidle
    · refine ⟨rfl, fun j c hc hne => ?_⟩
      have hjk : k ≠ j := by
        rintro rfl
        obtain rfl := Option.some.inj (hc.symm.trans hcall)
        exact hne (h.isOpen (h.sending frame k hsending) hcall).1
      exact (List.getElem?_set_ne hjk).trans hc
    · exact ⟨rfl, fun j c hc _ => hc⟩

/-- Two calls; a frame has arrived for the second one. -/
theorem two_calls_multiplexed : ∃ s, (system 1).Reachable s ∧ s.calls.map ClientCall.id = [0, 1] ∧
    s.calls.map (·.input.queue) = [[], [⟨1, ⟨.pingResponse, []⟩⟩]] ∧ Multiplexed 1 s := by
  let order (headers : HashMap String String) : Iter headers := ⟨headers.entries.toList, Multiset.coe_toList _⟩
  let exchange : Exchange := SubChannel.exchange RawMessage ⟨"s", ∅⟩ order (⟨"e", "h", []⟩ : RawMessage)
  have h₀ := TransitionSystem.Reachable.start (show (system 1).init new from rfl)
  have h₁ := h₀.step (.calls (.send exchange))
  have h₂ := h₁.step (.calls (.sendOne ⟨.pingRequest, []⟩))
  have h₃ := h₂.step (@Step.registers 1 _ 1 _ rfl rfl rfl)
  have h₄ := h₃.step (@Step.registers 1 _ 0 _ rfl rfl rfl)
  have h₅ := h₄.step (@Step.arrives 1 _ ⟨1, ⟨.pingResponse, []⟩⟩ rfl)
  have h₆ := h₅.step (@Step.delivers 1 _ _ 1 _ rfl rfl ⟨rfl, Nat.one_pos⟩)
  exact ⟨_, h₆, rfl, rfl, calls_multiplexed 1 _ h₆ (by decide)⟩

end ClientConnection

end Tchannel
