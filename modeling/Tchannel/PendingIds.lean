import Tchannel.Wedging

/-!
# No pending id is left behind

A call that has its id deregisters it before it returns, except for `send_one` when `FrameSender` is gone: the
error of `FrameOutput::send` is returned at once, and the entry stays (`ClientCall.Runs.returned`). The runs of
`written` are those where this does not happen. What a call does to the dispatcher concerns its own id only
(`Step.entries`).
-/

namespace Tchannel
open Wire

namespace ClientCall

variable {call call' : ClientCall} {bufferSize : ℕ} {closed : Prop} {outgoing outgoing' : Channel}

theorem register_phase_ne (call : ClientCall) (now : ℕ) (result : ConnectionResult Unit) :
    (call.register now result).phase ≠ .allocated := by
  cases result <;> exact nofun

theorem fail_returned {e : TChannelError} {result : TResult Unit} (h : (call.fail e).phase = .returned result) :
    call.operation.isSendOne = true := by
  unfold fail at h
  split at h
  · rename_i hop
    rw [hop]
    rfl
  · cases h

theorem proceed_ne_returned (atEnd : Bool) {result : TResult Unit} (hphase : call.phase = .receiving) :
    (call.proceed atEnd).phase ≠ .returned result := by
  have hfinish : ∀ r, (call.finish r).phase ≠ .returned result := by
    intro r
    unfold finish
    split <;> exact nofun
  unfold proceed
  split
  · exact hfinish _
  · exact hfinish _
  · exact nofun
  · rw [hphase]
    exact nofun

/-- A call that returns without the dispatcher is one of `send_one` that cannot send its frame. -/
theorem Runs.returned (h : call.Runs bufferSize closed outgoing call' outgoing') {result : TResult Unit}
    (hphase' : call'.phase = .returned result) :
    call.operation.isSendOne = true ∧ (∃ frame frames, call.phase = .sending (frame :: frames)) ∧
      outgoing.receiverAlive = false := by
  cases h with
  | creates hphase =>
    unfold create at hphase'
    split at hphase'
    · cases hphase'
    · rename_i e hframes
      have hone := fail_returned hphase'
      cases hop : call.operation with
      | sendOne frame =>
        rw [hop] at hframes
        cases hframes
      | send exchange =>
        rw [hop] at hone
        cases hone
  | sends _ _ => cases hphase'
  | sendFails hphase hgone => exact ⟨fail_returned hphase', ⟨_, _, hphase⟩, hgone⟩
  | sent _ => cases hphase'
  | receives hphase _ => exact absurd hphase' (proceed_ne_returned false hphase)
  | starves hphase _ _ => exact absurd hphase' (proceed_ne_returned true hphase)

end ClientCall

namespace ClientConnection

variable {bufferSize k : ℕ} {s s' : ClientConnection} {call call' : ClientCall}

/-- The call `k` takes a step: it registers its id, runs, or deregisters its id. -/
structure Moves (bufferSize : ℕ) (s s' : ClientConnection) (k : ℕ) (call call' : ClientCall) : Prop where
  before : s.calls[k]? = some call
  after : s'.calls = s.calls.set k call'
  id : call'.id = call.id
  phase : call'.phase ≠ .allocated
  entries : (call.phase = .allocated ∧ s'.pendingIds = s.pendingIds.insert call.id k) ∨
    (s'.pendingIds = s.pendingIds ∧ ∃ closed outgoing, call.Runs bufferSize closed s.outgoing call' outgoing) ∨
    (call.phase.isClosing = true ∧ s'.pendingIds = s.pendingIds.deregister call.id)

/-- No call takes a step. -/
structure Rests (s s' : ClientConnection) : Prop where
  pendingIds : s'.pendingIds = s.pendingIds
  calls : ∀ (k : ℕ) call, s.calls[k]? = some call →
    ∃ call', s'.calls[k]? = some call' ∧ call'.id = call.id ∧ call'.phase = call.phase

theorem Step.moves_or_rests (h : Step bufferSize s s') :
    (∃ k call call', Moves bufferSize s s' k call call') ∨ Rests s s' := by
  have hsame : ∀ {s' : ClientConnection}, s'.pendingIds = s.pendingIds → s'.calls = s.calls → Rests s s' := by
    intro s' hpending hcalls
    refine ⟨hpending, fun k call hcall => ⟨call, ?_, rfl, rfl⟩⟩
    rw [hcalls]
    exact hcall
  cases h with
  | calls operation =>
    refine .inr ⟨rfl, fun k call hcall => ⟨call, ?_, rfl, rfl⟩⟩
    exact (List.getElem?_append_left (Inv.lt_length hcall)).trans hcall
  | @registers k call hlock hcall hphase =>
    exact .inl ⟨k, call, _, hcall, rfl, call.register_id _ _, call.register_phase_ne _ _, .inl ⟨hphase, rfl⟩⟩
  | runs hcall hrun =>
    refine .inl ⟨_, _, _, hcall, rfl, hrun.keeps.id, ?_, .inr (.inl ⟨rfl, _, _, hrun⟩)⟩
    exact ClientCall.Inv.phase_ne hrun.ofRun.2
  | @closes k call result again hlock hcall hphase =>
    have hclosing : call.phase.isClosing = true := by
      rw [hphase]
      rfl
    refine .inl ⟨k, call, _, hcall, rfl, ?_, ?_, .inr (.inr ⟨hclosing, rfl⟩)⟩
    · cases again <;> rfl
    · cases again <;> exact nofun
  | @closesAgain k call result hlock hcall hphase =>
    have hclosing : call.phase.isClosing = true := by
      rw [hphase]
      rfl
    exact .inl ⟨k, call, _, hcall, rfl, rfl, nofun, .inr (.inr ⟨hclosing, rfl⟩)⟩
  | arrives _ => exact .inr (hsame rfl rfl)
  | @delivers frame k call hsending hcall hready =>
    refine .inr ⟨rfl, fun j c hc => ?_⟩
    by_cases hne : k = j
    · subst hne
      obtain rfl := Option.some.inj (hcall.symm.trans hc)
      exact ⟨_, List.getElem?_set_self (Inv.lt_length hcall), rfl, rfl⟩
    · exact ⟨c, (List.getElem?_set_ne hne).trans hc, rfl, rfl⟩
  | deliverFails _ _ _ => exact .inr (hsame rfl rfl)
  | writes _ => exact .inr (hsame rfl rfl)
  | stops => exact .inr (hsame rfl rfl)

/-- A call of `send_one` that is to send its frame finds `FrameSender` there. -/
def FindsWriter (s : ClientConnection) (call : ClientCall) : Prop :=
  call.operation.isSendOne = true → (∃ frame frames, call.phase = .sending (frame :: frames)) →
    s.outgoing.receiverAlive = true

/-- The runs in which every call that takes a step does. -/
def written (bufferSize : ℕ) : TransitionSystem ClientConnection where
  init s := s = new
  step s s' := Step bufferSize s s' ∧ ∀ (k : ℕ) call call', s.calls[k]? = some call → s'.calls[k]? = some call' →
    call'.phase ≠ call.phase → FindsWriter s call

/-- A call that has its id returns. -/
structure Returns (s s' : ClientConnection) (k : ℕ) (call : ClientCall) : Prop where
  before : s.calls[k]? = some call
  hasId : call.phase ≠ .allocated
  pending : ∀ result, call.phase ≠ .returned result
  returned : ∃ call' result, s'.calls[k]? = some call' ∧ call'.phase = .returned result

theorem Moves.get_after (h : Moves bufferSize s s' k call call') : s'.calls[k]? = some call' := by
  rw [h.after]
  exact List.getElem?_set_self (Inv.lt_length h.before)

theorem Moves.get_other (h : Moves bufferSize s s' k call call') {j : ℕ} (hne : j ≠ k) :
    s'.calls[j]? = s.calls[j]? := by
  rw [h.after]
  exact List.getElem?_set_ne hne.symm

theorem Moves.pending (h : Moves bufferSize s s' k call call') (result : TResult Unit) :
    call.phase ≠ .returned result := by
  intro hphase
  rcases h.entries with ⟨hnew, -⟩ | ⟨-, closed, outgoing, hrun⟩ | ⟨hclosing, -⟩
  · rw [hphase] at hnew
    cases hnew
  · have hactive := hrun.ofRun.1
    rw [hphase] at hactive
    cases hactive
  · rw [hphase] at hclosing
    cases hclosing

/-- A call that has its id returns by deregistering it, or is one of `send_one` that finds no `FrameSender`. -/
theorem Moves.returns (h : Moves bufferSize s s' k call call') (hid : call.phase ≠ .allocated)
    {result : TResult Unit} (hresult : call'.phase = .returned result) :
    (FindsWriter s call ∧ s'.pendingIds = s.pendingIds.deregister call.id) ∨
      (¬ FindsWriter s call ∧ call.phase.isActive = true ∧ s'.pendingIds = s.pendingIds) := by
  rcases h.entries with ⟨hphase, -⟩ | ⟨hpending, closed, outgoing, hrun⟩ | ⟨hclosing, hpending⟩
  · exact absurd hphase hid
  · obtain ⟨hone, hsending, hgone⟩ := hrun.returned hresult
    refine .inr ⟨fun hfinds => ?_, hrun.ofRun.1, hpending⟩
    rw [hfinds hone hsending] at hgone
    cases hgone
  · refine .inl ⟨fun _ ⟨frame, frames, hphase⟩ => ?_, hpending⟩
    rw [hphase] at hclosing
    cases hclosing

theorem Returns.moves (h : Returns s s' k call) (hstep : Step bufferSize s s') :
    ∃ call' result, Moves bufferSize s s' k call call' ∧ call'.phase = .returned result := by
  obtain ⟨call', result, hcall', hresult⟩ := h.returned
  rcases hstep.moves_or_rests with ⟨j, c, c', hmoves⟩ | hrests
  · by_cases hne : k = j
    · subst hne
      obtain rfl := Option.some.inj (hmoves.before.symm.trans h.before)
      obtain rfl := Option.some.inj (hmoves.get_after.symm.trans hcall')
      exact ⟨_, result, hmoves, hresult⟩
    · rw [hmoves.get_other hne, h.before] at hcall'
      obtain rfl := Option.some.inj hcall'
      exact absurd hresult (h.pending result)
  · obtain ⟨c', hc', -, hphase⟩ := hrests.calls k call h.before
    obtain rfl := Option.some.inj (hcall'.symm.trans hc')
    exact absurd (hphase.symm.trans hresult) (h.pending result)

theorem Returns.frees (h : Returns s s' k call) (hstep : (written bufferSize).step s s') :
    s'.pendingIds = s.pendingIds.deregister call.id := by
  obtain ⟨call', result, hmoves, hresult⟩ := h.moves hstep.1
  rcases hmoves.returns h.hasId hresult with ⟨-, hpending⟩ | ⟨hnot, -⟩
  · exact hpending
  · refine absurd (hstep.2 k call call' h.before hmoves.get_after fun heq => ?_) hnot
    exact h.pending result (heq.symm.trans hresult)

/-- The entry of an id changes only when a call with this id registers it or deregisters it. -/
theorem Step.entries (hstep : Step bufferSize s s') {id : UInt32} (hne : s'.pendingIds.get id ≠ s.pendingIds.get id) :
    ∃ (k : ℕ) (call : ClientCall), s.calls[k]? = some call ∧ call.id = id ∧
      (call.phase = .allocated ∨ call.phase.isClosing = true) ∧ ∀ j, j ≠ k → s'.calls[j]? = s.calls[j]? := by
  rcases hstep.moves_or_rests with ⟨k, call, call', hmoves⟩ | hrests
  · refine ⟨k, call, hmoves.before, ?_, ?_, fun j => hmoves.get_other⟩ <;>
      rcases hmoves.entries with ⟨hphase, hpending⟩ | ⟨hpending, -⟩ | ⟨hclosing, hpending⟩ <;> rw [hpending] at hne
    · by_contra hid
      rw [FramesDispatcher.get_insert, if_neg (Ne.symm hid)] at hne
      exact hne rfl
    · exact absurd rfl hne
    · by_contra hid
      rw [FramesDispatcher.get_deregister, if_neg (Ne.symm hid)] at hne
      exact hne rfl
    · exact .inl hphase
    · exact absurd rfl hne
    · exact .inr hclosing
  · rw [hrests.pendingIds] at hne
    exact absurd rfl hne

/-! ### Runs -/

/-- The call `k` has its id, and once it has returned the entry of `id` is not its own. -/
def Released (k : ℕ) (id : UInt32) (s : ClientConnection) : Prop :=
  ∃ call, s.calls[k]? = some call ∧ call.id = id ∧ call.phase ≠ .allocated ∧
    ∀ result, call.phase = .returned result → s.pendingIds.get id ≠ some k

theorem Released.step {id : UInt32} (h : Released k id s) (hstep : (written bufferSize).step s s') :
    Released k id s' := by
  obtain ⟨call, hcall, hid, hphase, hreleased⟩ := h
  rcases hstep.1.moves_or_rests with ⟨j, c, c', hmoves⟩ | hrests
  · by_cases hne : k = j
    · subst hne
      obtain rfl := Option.some.inj (hmoves.before.symm.trans hcall)
      refine ⟨c', hmoves.get_after, hmoves.id.trans hid, hmoves.phase, fun result hresult => ?_⟩
      have hreturns : Returns s s' k c := ⟨hcall, hphase, hmoves.pending, c', result, hmoves.get_after, hresult⟩
      rw [hreturns.frees hstep, ← hid, FramesDispatcher.get_deregister, if_pos rfl]
      exact nofun
    · refine ⟨call, (hmoves.get_other hne).trans hcall, hid, hphase, fun result hresult hget => ?_⟩
      refine hreleased result hresult ?_
      rcases hmoves.entries with ⟨-, hpending⟩ | ⟨hpending, -⟩ | ⟨-, hpending⟩ <;> rw [hpending] at hget
      · rcases FramesDispatcher.get_of_insert hget with ⟨-, heq⟩ | ⟨-, hget⟩
        · exact absurd heq hne
        · exact hget
      · exact hget
      · exact (FramesDispatcher.get_of_deregister hget).2
  · obtain ⟨call', hcall', hid', hphase'⟩ := hrests.calls k call hcall
    refine ⟨call', hcall', hid'.trans hid, by rwa [hphase'], fun result hresult => ?_⟩
    rw [hrests.pendingIds]
    exact hreleased result (hphase'.symm.trans hresult)

theorem Released.steps {id : UInt32} (h : Released k id s) (hsteps : (written bufferSize).Steps s s') :
    Released k id s' := by
  induction hsteps with
  | refl => exact h
  | tail _ hlast ih => exact ih.step hlast

theorem Returns.get_eq_none_iff (h : Returns s s' k call) (hreach : (system bufferSize).Reachable s)
    (hlen : s.calls.length ≤ 2 ^ 32) (hstep : Step bufferSize s s') :
    s'.pendingIds.get call.id = none ↔ FindsWriter s call := by
  obtain ⟨call', result, hmoves, hresult⟩ := h.moves hstep
  rcases hmoves.returns h.hasId hresult with ⟨hfinds, hpending⟩ | ⟨hnot, hactive, hpending⟩
  · refine iff_of_true ?_ hfinds
    rw [hpending, FramesDispatcher.get_deregister, if_pos rfl]
  · refine iff_of_false (fun hnone => ?_) hnot
    have hinv := Inv.of_reachable hreach
    have hk := hinv.calls k call h.before
    have hget := hinv.routed hlen k call h.before ⟨hk.registeredAt_isSome h.hasId, hk.active hactive⟩
    rw [hpending, hget] at hnone
    cases hnone

/-! ### A ping that is answered -/

theorem reachable_of_written (h : (written bufferSize).Reachable s) : (system bufferSize).Reachable s := by
  refine h.invariant (P := (system bufferSize).Reachable) ?_ ?_
  · exact fun _ hinit => .start hinit
  · exact fun _ _ _ hs hstep => hs.step hstep.1

theorem written_of_alive (hstep : Step bufferSize s s') (halive : s.outgoing.receiverAlive = true) :
    (written bufferSize).step s s' :=
  ⟨hstep, fun _ _ _ _ _ _ _ _ => halive⟩

/-- A ping is registered, answered, and returns with the step from `s` to `s'`. -/
structure PingReturns (s₀ s s' : ClientConnection) (call₀ call : ClientCall) : Prop where
  reachable : (written 1).Reachable s₀
  isCall : s₀.calls[0]? = some call₀
  registered : call₀.phase = .registered
  steps : (written 1).Steps s₀ s
  calls : s.calls.length = 1
  pending : s.pendingIds.get 0 = some 0
  step : (written 1).step s s'
  returns : Returns s s' 0 call
  id : call.id = 0

theorem exists_pingReturns : ∃ s₀ s s' call₀ call, PingReturns s₀ s s' call₀ call := by
  let frame : TFrameId := ⟨0, ⟨.pingResponse, []⟩⟩
  have h₀ := TransitionSystem.Reachable.start (show (written 1).init new from rfl)
  have h₁ := h₀.step (written_of_alive (.calls (.sendOne ⟨.pingRequest, []⟩)) rfl)
  have h₂ := h₁.step (written_of_alive (@Step.registers 1 _ 0 _ rfl rfl rfl) rfl)
  have hrun : ∀ {s}, (written 1).Reachable s → (written 1).Steps s s := fun _ => .refl _
  have h₃ := (hrun h₂).tail (written_of_alive (@Step.runs 1 _ 0 _ _ _ rfl (.creates rfl)) rfl)
  have h₄ := h₃.tail (written_of_alive (@Step.runs 1 _ 0 _ _ _ rfl (.sends rfl ⟨rfl, Nat.one_pos⟩)) rfl)
  have h₅ := h₄.tail (written_of_alive (@Step.runs 1 _ 0 _ _ _ rfl (.sent rfl)) rfl)
  have h₆ := h₅.tail (written_of_alive (@Step.arrives 1 _ frame rfl) rfl)
  have h₇ := h₆.tail (written_of_alive (@Step.delivers 1 _ _ 0 _ rfl rfl ⟨rfl, Nat.one_pos⟩) rfl)
  have h₈ := h₇.tail (written_of_alive (@Step.runs 1 _ 0 _ _ _ rfl (.receives rfl rfl)) rfl)
  exact ⟨_, _, _, _, _, h₂, rfl, rfl, h₈, rfl, rfl, written_of_alive (@Step.closes 1 _ 0 _ _ _ rfl rfl rfl) rfl,
    ⟨rfl, nofun, fun _ => nofun, _, _, rfl, rfl⟩, rfl⟩

/-- No call that got its id leaves it in the dispatcher, in runs in which `send_one` finds `FrameSender` there. -/
theorem no_id_left_behind (bufferSize : ℕ) :
    (∀ s s' k call, (written bufferSize).Reachable s → (written bufferSize).step s s' → Returns s s' k call →
      s'.pendingIds.get call.id = none ∧
        ∀ id, id ≠ call.id → s'.pendingIds.get id = s.pendingIds.get id) ∧
    (∀ s s' (k : ℕ) call call' result, (written bufferSize).Reachable s → s.calls[k]? = some call →
      call.phase = .registered → (written bufferSize).Steps s s' → s'.calls[k]? = some call' →
        call'.phase = .returned result → s'.pendingIds.get call.id ≠ some k) ∧
    (∀ s s' id, (system bufferSize).Reachable s → Step bufferSize s s' →
      s'.pendingIds.get id ≠ s.pendingIds.get id → ∃ (k : ℕ) (call : ClientCall), s.calls[k]? = some call ∧
        call.id = id ∧ (call.phase = .allocated ∨ call.phase.isClosing = true) ∧
          ∀ j, j ≠ k → s'.calls[j]? = s.calls[j]?) ∧
    (∀ s s' k call, (system bufferSize).Reachable s → s.calls.length ≤ 2 ^ 32 → Step bufferSize s s' →
      Returns s s' k call → (s'.pendingIds.get call.id = none ↔ FindsWriter s call)) := by
  refine ⟨fun s s' k call _ hstep hreturns => ?_, ?_, fun s s' id _ hstep hne => hstep.entries hne,
    fun s s' k call hreach hlen hstep hreturns => hreturns.get_eq_none_iff hreach hlen hstep⟩
  · rw [hreturns.frees hstep]
    refine ⟨?_, fun id hid => ?_⟩
    · rw [FramesDispatcher.get_deregister, if_pos rfl]
    · rw [FramesDispatcher.get_deregister, if_neg hid]
  · intro s s' k call call' result _ hcall hphase hsteps hcall' hresult
    have hstart : Released k call.id s := by
      refine ⟨call, hcall, rfl, ?_, ?_⟩ <;> rw [hphase] <;> exact nofun
    obtain ⟨c, hc, -, -, hreleased⟩ := hstart.steps hsteps
    obtain rfl := Option.some.inj (hcall'.symm.trans hc)
    exact hreleased result hresult

/-- A ping that returns with its answer leaves nothing behind. -/
theorem ping_leaves_nothing : ∃ s₀ s s' call₀ call, PingReturns s₀ s s' call₀ call ∧ s'.pendingIds.get 0 = none ∧
    s'.pendingIds.get call₀.id ≠ some 0 ∧ call.phase.isClosing = true ∧ FindsWriter s call := by
  obtain ⟨s₀, s, s', call₀, call, h⟩ := exists_pingReturns
  obtain ⟨hfrees, hreleased, hentries, hiff⟩ := no_id_left_behind 1
  have hreach := reachable_of_written (h.reachable.steps h.steps)
  obtain ⟨call', result, hcall', hresult⟩ := h.returns.returned
  have hnone := (hfrees s s' 0 call (h.reachable.steps h.steps) h.step h.returns).1
  have hfinds := (hiff s s' 0 call hreach (by rw [h.calls]; decide) h.step.1 h.returns).1 hnone
  rw [h.id] at hnone
  obtain ⟨k, c, hc, -, hphase, -⟩ := hentries s s' 0 hreach h.step.1 (by rw [hnone, h.pending]; exact nofun)
  -- there is one call only
  have hlt := Inv.lt_length hc
  rw [h.calls] at hlt
  obtain rfl : k = 0 := by omega
  obtain rfl := Option.some.inj (hc.symm.trans h.returns.before)
  exact ⟨s₀, s, s', call₀, c, h, hnone, hreleased s₀ s' 0 call₀ call' result h.reachable h.isCall h.registered
    (h.steps.tail h.step) hcall' hresult, hphase.resolve_left h.returns.hasId, hfinds⟩

/-- A ping that finds no `FrameSender` returns an error and leaves its id behind. -/
theorem failed_ping_left_behind :
    ¬ ∀ bufferSize s s' k call, (system bufferSize).Reachable s → Step bufferSize s s' → Returns s s' k call →
      s'.pendingIds.get call.id = none := by
  intro h
  have h₀ := TransitionSystem.Reachable.start (show (system 1).init new from rfl)
  have h₁ := h₀.step (.calls (.sendOne ⟨.pingRequest, []⟩))
  have h₂ := h₁.step (@Step.registers 1 _ 0 _ rfl rfl rfl)
  have h₃ := h₂.step (@Step.runs 1 _ 0 _ _ _ rfl (.creates rfl))
  have h₄ := h₃.step .stops
  have hnone := h 1 _ _ 0 _ h₄ (@Step.runs 1 _ 0 _ _ _ rfl (.sendFails rfl rfl))
    ⟨rfl, nofun, fun _ => nofun, _, _, rfl, rfl⟩
  have hsome : (FramesDispatcher.new.insert 0 0).get 0 = some 0 := by
    rw [FramesDispatcher.get_insert, if_pos rfl]
  cases hsome.symm.trans hnone

end ClientConnection

end Tchannel
