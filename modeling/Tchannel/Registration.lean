import Tchannel.ClientInvariant

/-!
# Registering an id that is in use

`FramesDispatcher::register` puts the new sender into the map before it reports that there was another one
(`registerIntact_iff`). So when the ids of a client connection start again, and one of them is still in use,
both calls fail: the new one gets an error, and the pending one no more frames.
-/

namespace Tchannel
open Wire

namespace FramesDispatcher

/-- The uses of a dispatcher. A frame with an unknown id is given to a new channel by `dispatch`; the other
frames, and `dispatch_following`, leave the map alone. -/
inductive Step (self : FramesDispatcher) : FramesDispatcher → Prop
  | register (id : UInt32) (sender : Nat) : Step self (self.register id sender).2
  | deregister (id : UInt32) : Step self (self.deregister id)
  | dispatchFirst {id : UInt32} (sender : Nat) (hnew : self.get id = none) : Step self (self.insert id sender)
  | dispatchFollowing : Step self self

def system : TransitionSystem FramesDispatcher := ⟨(· = new), Step⟩

/-- If the registration fails, the map stays as it is. -/
def RegisterIntact (self : FramesDispatcher) (id : UInt32) (sender : Nat) : Prop :=
  ∀ e, (self.register id sender).1 = .error e → (self.register id sender).2 = self

theorem register_eq_ok (self : FramesDispatcher) (id : UInt32) (sender : Nat) :
    (self.register id sender).1 = .ok () ↔ self.get id = none := by
  rw [register]
  cases self.get id <;> simp

/-- A registration that fails leaves the map as it is only if it registers the sender that is registered. -/
theorem registerIntact_iff (self : FramesDispatcher) (id : UInt32) (sender : Nat) :
    self.RegisterIntact id sender ↔ ∀ other, self.get id = some other → other = sender := by
  constructor
  · intro h other hget
    obtain ⟨e, he⟩ : ∃ e, (self.register id sender).1 = .error e := by
      rw [register, hget]
      exact ⟨_, rfl⟩
    have hinsert : (self.insert id sender).get id = self.get id := congrArg (·.get id) (h e he)
    rw [get_insert, if_pos rfl, hget] at hinsert
    exact (Option.some.inj hinsert).symm
  · intro h e he
    cases hget : self.get id with
    | none =>
      rw [(register_eq_ok self id sender).2 hget] at he
      cases he
    | some other =>
      obtain rfl := h other hget
      show self.insert id other = self
      rw [insert]
      congr 1
      refine Finmap.ext_lookup fun id' => ?_
      rcases eq_or_ne id' id with rfl | hne
      · rw [Finmap.lookup_insert]
        exact hget.symm
      · rw [Finmap.lookup_insert_of_ne _ hne]

end FramesDispatcher

namespace ClientConnection

/-- Every call that is sent the frames with an id still is. -/
def PendingIntact (s s' : ClientConnection) : Prop :=
  ∀ id j, s.pendingIds.get id = some j → s'.pendingIds.get id = some j

variable {bufferSize k : ℕ} {s : ClientConnection} {call : ClientCall}

theorem pendingIntact_iff (hreach : (system bufferSize).Reachable s) (hcall : s.calls[k]? = some call)
    (hphase : call.phase = .allocated) :
    PendingIntact s (s.register k call) ↔ s.pendingIds.get call.id = none := by
  have h := Inv.of_reachable hreach
  constructor
  · intro hintact
    cases hget : s.pendingIds.get call.id with
    | none => rfl
    | some j =>
      have hkept : (s.pendingIds.insert call.id k).get call.id = some j := hintact _ _ hget
      rw [FramesDispatcher.get_insert, if_pos rfl] at hkept
      obtain rfl := Option.some.inj hkept
      -- a call that is not registered has no entry
      have hopen := (h.isOpen hget hcall).2
      rw [(h.calls k call hcall).allocated hphase] at hopen
      cases hopen.1
  · intro hfree id j hget
    show (s.pendingIds.insert call.id k).get id = some j
    rw [FramesDispatcher.get_insert, if_neg, hget]
    rintro rfl
    rw [hfree] at hget
    cases hget

/-- A call that is not answered, and `n` more that have taken their ids. -/
theorem pending_and_allocated (n : ℕ) : ∃ s, (system 1).Reachable s ∧ s.calls.length = n + 1 ∧
    s.pendingIds.get 0 = some 0 ∧
    ∀ (k : ℕ) call, 0 < k → s.calls[k]? = some call → call.phase = .allocated := by
  induction n with
  | zero =>
    have h₀ := TransitionSystem.Reachable.start (show (system 1).init new from rfl)
    have h₁ := h₀.step (.calls (.sendOne ⟨.pingRequest, []⟩))
    have h₂ := h₁.step (@Step.registers 1 _ 0 _ rfl rfl rfl)
    refine ⟨_, h₂, rfl, rfl, fun k call hk hcall => ?_⟩
    obtain ⟨k, rfl⟩ := Nat.exists_eq_succ_of_ne_zero (Nat.ne_of_gt hk)
    cases hcall
  | succ n ih =>
    obtain ⟨s, hreach, hlen, hget, hphase⟩ := ih
    refine ⟨_, hreach.step (.calls (.sendOne ⟨.pingRequest, []⟩)), ?_, hget, fun k call hk hcall => ?_⟩
    · show (s.calls ++ [_]).length = _
      rw [List.length_append, hlen]
      rfl
    · rcases getElem?_concat_cases hcall with hcall | ⟨-, rfl⟩
      · exact hphase k call hk hcall
      · rfl

end ClientConnection

/-- When a registration leaves the map alone, and, on a client connection, the pending calls. -/
theorem registration_intact_iff (self : FramesDispatcher) (id : UInt32) (sender : Nat) (bufferSize : ℕ)
    (s : ClientConnection) (k : ℕ) (call : ClientCall) :
    (self.RegisterIntact id sender ↔ ∀ other, self.get id = some other → other = sender) ∧
      ((ClientConnection.system bufferSize).Reachable s → s.calls[k]? = some call → call.phase = .allocated →
        (ClientConnection.PendingIntact s (s.register k call) ↔ s.pendingIds.get call.id = none)) :=
  ⟨self.registerIntact_iff id sender, fun hreach hcall hphase =>
    ClientConnection.pendingIntact_iff hreach hcall hphase⟩

/-- The second of two calls registers its id, and the first one stays registered. -/
theorem second_call_intact : ∃ (s : ClientConnection) (call : ClientCall), (ClientConnection.system 1).Reachable s ∧
    s.calls[1]? = some call ∧ call.phase = .allocated ∧ s.pendingIds.get 0 = some 0 ∧
    (s.register 1 call).pendingIds.get 0 = some 0 ∧ (s.register 1 call).pendingIds.get 1 = some 1 := by
  have h₀ := TransitionSystem.Reachable.start (show (ClientConnection.system 1).init .new from rfl)
  have h₁ := h₀.step (.calls (.sendOne ⟨.pingRequest, []⟩))
  have h₂ := h₁.step (@ClientConnection.Step.registers 1 _ 0 _ rfl rfl rfl)
  have h₃ := h₂.step (.calls (.sendOne ⟨.pingRequest, []⟩))
  have hintact := ((registration_intact_iff .new 1 1 1 _ 1 _).2 h₃ rfl rfl).2 rfl
  exact ⟨_, _, h₃, rfl, rfl, rfl, hintact 0 0 rfl, rfl⟩

/-- A second sender for an id takes the place of the first one, and so does, once the ids have run out, a call
that takes the id of a pending one. -/
theorem duplicate_replaces :
    (¬ ∀ self, FramesDispatcher.system.Reachable self → ∀ id sender, self.RegisterIntact id sender) ∧
    ¬ ∀ s, (ClientConnection.system 1).Reachable s → ∀ (k : ℕ) call, s.calls[k]? = some call →
      call.phase = .allocated → ClientConnection.PendingIntact s (s.register k call) := by
  constructor
  · intro h
    have h₀ := TransitionSystem.Reachable.start (show FramesDispatcher.system.init .new from rfl)
    have hintact := h _ (h₀.step (.register 1 0)) 1 1
    cases (FramesDispatcher.registerIntact_iff _ 1 1).1 hintact 0 rfl
  · intro h
    obtain ⟨s, hreach, hlen, hget, hphase⟩ := ClientConnection.pending_and_allocated (2 ^ 32)
    have hcall : s.calls[2 ^ 32]? = some s.calls[2 ^ 32] := List.getElem?_eq_getElem (by omega)
    have hallocated := hphase _ _ (Nat.two_pow_pos 32) hcall
    have hid : s.calls[2 ^ 32].id = 0 := ((ClientConnection.Inv.of_reachable hreach).calls _ _ hcall).id
    have hfree := (ClientConnection.pendingIntact_iff hreach hcall hallocated).1 (h s hreach _ _ hcall hallocated)
    rw [hid, hget] at hfree
    cases hfree

end Tchannel
