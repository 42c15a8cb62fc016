import Tchannel.RpcInvariant

/-!
# The calls of a connection

The first call of a connection is that of its handshake: it has returned, and no later frame bears its id. The
others are what the program hands to a connection (`RpcConnection.Calls`).
-/

namespace Tchannel
open Wire

namespace ClientConnection

variable {bufferSize k : ℕ} {s s' : ClientConnection} {call : ClientCall}

theorem Step.returned_kept (hstep : Step bufferSize s s') (hcall : s.calls[k]? = some call) {result : TResult Unit}
    (hphase : call.phase = .returned result) : ∃ call', s'.calls[k]? = some call' ∧
      call'.operation = call.operation ∧ call'.id = call.id ∧ call'.phase = .returned result := by
  obtain ⟨call', hcall', hop, hid⟩ := hstep.call_kept hcall
  refine ⟨call', hcall', hop, hid, ?_⟩
  rcases hstep.moves_or_rests with ⟨j, c, c', hmoves⟩ | hrests
  · rcases eq_or_ne k j with rfl | hne
    · obtain rfl := Option.some.inj (hcall.symm.trans hmoves.before)
      exact absurd hphase (hmoves.pending result)
    · rw [hmoves.get_other hne, hcall] at hcall'
      rw [← Option.some.inj hcall', hphase]
  · obtain ⟨c, hc, -, hphase'⟩ := hrests.calls k call hcall
    rw [Option.some.inj (hcall'.symm.trans hc), hphase', hphase]

/-- Unless `FrameSender` takes a frame, what waits for it grows at most by the next frame of a call. -/
theorem Step.pushed (hstep : Step bufferSize s s') (hqueue : s.outgoing.queue <+: s'.outgoing.queue) :
    s'.outgoing.queue = s.outgoing.queue ∨ ∃ (k : ℕ) (call : ClientCall) (frame : TFrame) (frames : List TFrame),
      s.calls[k]? = some call ∧ call.phase = .sending (frame :: frames) ∧
        s'.outgoing.queue = s.outgoing.queue ++ [⟨call.id, frame⟩] := by
  cases hstep with
  | @runs k call call' outgoing hcall hrun =>
    cases hrun with
    | @sends frame frames hphase _ => exact .inr ⟨k, call, frame, frames, hcall, hphase, rfl⟩
    | creates _ => exact .inl rfl
    | sendFails _ _ => exact .inl rfl
    | sent _ => exact .inl rfl
    | receives _ _ => exact .inl rfl
    | starves _ _ _ => exact .inl rfl
  | @writes frame queue hout =>
    rw [hout] at hqueue
    exact absurd hqueue.length_le (by simp)
  | calls _ => exact .inl rfl
  | registers _ _ _ => exact .inl rfl
  | closes _ _ _ => exact .inl rfl
  | closesAgain _ _ _ => exact .inl rfl
  | arrives _ => exact .inl rfl
  | delivers _ _ _ => exact .inl rfl
  | deliverFails _ _ _ => exact .inl rfl
  | stops => exact .inl rfl

end ClientConnection

namespace RpcConnection

variable {cfg : RpcConfig} {s s' : RpcConnection} {k : ℕ} {call : ClientCall}

theorem Step.call_kept (hstep : Step cfg s s') (hcall : s.client.calls[k]? = some call) :
    ∃ call', s'.client.calls[k]? = some call' ∧ call'.operation = call.operation ∧ call'.id = call.id := by
  cases hstep with
  | calls hused =>
    exact ⟨call, (List.getElem?_append_left (ClientConnection.Inv.lt_length hcall)).trans hcall, rfl, rfl⟩
  | stops => exact ⟨call, hcall, rfl, rfl⟩
  | moves hmove =>
    cases hmove with
    | acts hstep _ => exact hstep.call_kept hcall
    | writes _ _ _ => exact ⟨call, hcall, rfl, rfl⟩
    | loses _ _ => exact ⟨call, hcall, rfl, rfl⟩
    | reaches _ _ _ => exact ⟨call, hcall, rfl, rfl⟩
    | serves _ _ => exact ⟨call, hcall, rfl, rfl⟩
    | passes _ _ _ _ _ => exact ⟨call, hcall, rfl, rfl⟩
    | arrives _ _ => exact ⟨call, hcall, rfl, rfl⟩
    | breaks _ _ => exact ⟨call, hcall, rfl, rfl⟩

theorem steps_call_kept (hsteps : (system cfg).Steps s s') (hcall : s.client.calls[k]? = some call) :
    ∃ call', s'.client.calls[k]? = some call' ∧ call'.operation = call.operation ∧ call'.id = call.id := by
  induction hsteps with
  | refl => exact ⟨call, hcall, rfl, rfl⟩
  | tail _ hstep ih =>
    obtain ⟨c, hc, hop, hid⟩ := ih
    obtain ⟨call', hcall', hop', hid'⟩ := Step.call_kept hstep hc
    exact ⟨call', hcall', hop'.trans hop, hid'.trans hid⟩

structure Calls (s : RpcConnection) : Prop where
  handshake : ∃ call result, s.client.calls[0]? = some call ∧ call.operation.isSendOne = true ∧ call.id = 0 ∧
    call.phase = .returned result
  used : ∀ (k : ℕ) call, 1 ≤ k → s.client.calls[k]? = some call → Operation.Used call.operation
  unsent : framesOf 0 (s.client.sentFrames s.written) = []

namespace Calls

theorem start (init : TFrame) (response : TFrameId) : (start init response).Calls := by
  refine ⟨⟨_, .ok (), rfl, rfl, rfl, rfl⟩, fun k call hk hcall => ?_, rfl⟩
  obtain ⟨k, rfl⟩ := Nat.exists_eq_succ_of_ne_zero (Nat.ne_of_gt hk)
  cases hcall

theorem acts (h : s.Calls) (hinv : s.client.Inv cfg.bufferSize) (hlen : s.client.calls.length ≤ 2 ^ 32)
    {client : ClientConnection} (hstep : s.client.Step cfg.bufferSize client) (hinside : s.client.Inside client) :
    Calls { s with client } := by
  obtain ⟨first, result, hfirst, hone, hid, hphase⟩ := h.handshake
  refine ⟨?_, fun k call hk hcall => ?_, ?_⟩
  · obtain ⟨call', hcall', hop, hid', hphase'⟩ := hstep.returned_kept hfirst hphase
    exact ⟨call', result, hcall', hop ▸ hone, hid'.trans hid, hphase'⟩
  · have hlt : k < s.client.calls.length := hinside.calls ▸ ClientConnection.Inv.lt_length hcall
    obtain ⟨call', hcall', hop, -⟩ := hstep.call_kept (List.getElem?_eq_getElem hlt)
    rw [Option.some.inj (hcall.symm.trans hcall'), hop]
    exact h.used k _ hk (List.getElem?_eq_getElem hlt)
  · show framesOf 0 (s.written ++ client.outgoing.queue) = []
    rcases hstep.pushed hinside.outgoing with hqueue | ⟨k, call, frame, frames, hcall, hsending, hqueue⟩
    · rw [hqueue]
      exact h.unsent
    · have hne : call.id ≠ 0 := by
        intro hzero
        obtain rfl := hinv.eq_of_id_eq hlen hcall hfirst (hzero.trans hid.symm)
        rw [Option.some.inj (hcall.symm.trans hfirst), hphase] at hsending
        cases hsending
      rw [hqueue, ← List.append_assoc, framesOf_append, framesOf_cons_of_ne hne]
      exact List.append_eq_nil_iff.2 ⟨h.unsent, rfl⟩

theorem takes (h : s.Calls) {frame : TFrameId} {queue requests : List TFrameId}
    (hqueue : s.client.outgoing.queue = frame :: queue) : Calls { s with
      client := { s.client with outgoing := { s.client.outgoing with queue } }
      requests, written := s.written ++ [frame] } := by
  refine ⟨h.handshake, h.used, ?_⟩
  show framesOf 0 ((s.written ++ [frame]) ++ queue) = []
  have hunsent := h.unsent
  rw [ClientConnection.sentFrames, hqueue] at hunsent
  rwa [List.append_assoc]

theorem step (h : s.Calls) (hinv : s.client.Inv cfg.bufferSize) (hlen : s.client.calls.length ≤ 2 ^ 32)
    (hstep : Step cfg s s') : s'.Calls := by
  cases hstep with
  | @calls operation hused =>
    obtain ⟨first, result, hfirst, hrest⟩ := h.handshake
    refine ⟨⟨first, result, ?_, hrest⟩, fun k call hk hcall => ?_, h.unsent⟩
    · exact (List.getElem?_append_left (ClientConnection.Inv.lt_length hfirst)).trans hfirst
    · rcases getElem?_concat_cases hcall with hcall | ⟨-, rfl⟩
      · exact h.used k call hk hcall
      · exact hused
  | stops => exact ⟨h.handshake, h.used, h.unsent⟩
  | moves hmove =>
    cases hmove with
    | acts hstep hinside => exact h.acts hinv hlen hstep hinside
    | writes _ hqueue _ => exact h.takes hqueue
    | loses _ hqueue => exact h.takes hqueue
    | reaches _ _ _ => exact ⟨h.handshake, h.used, h.unsent⟩
    | serves _ _ => exact ⟨h.handshake, h.used, h.unsent⟩
    | passes _ _ _ _ _ => exact ⟨h.handshake, h.used, h.unsent⟩
    | arrives _ _ => exact ⟨h.handshake, h.used, h.unsent⟩
    | breaks _ _ => exact ⟨h.handshake, h.used, h.unsent⟩

theorem of_reachable (h : (system cfg).Reachable s) (hlen : s.client.calls.length ≤ 2 ^ 32) : s.Calls := by
  refine h.invariant (P := fun s => s.client.calls.length ≤ 2 ^ 32 → s.Calls) ?_ ?_ hlen
  · rintro s ⟨it, order, request, answer, -, -, rfl⟩ -
    exact Calls.start request answer
  · intro s s' hs ih hstep hlen'
    have hlen := (Step.length_le hstep).trans hlen'
    exact (ih hlen).step (ClientConnection.Inv.of_reachable (Inv.of_reachable hs hlen).client) hlen hstep

theorem pos_of_send (h : s.Calls) (hcall : s.client.calls[k]? = some call) {exchange : Exchange}
    (hop : call.operation = .send exchange) : 1 ≤ k := by
  refine Nat.one_le_iff_ne_zero.2 ?_
  rintro rfl
  obtain ⟨first, result, hfirst, hone, -⟩ := h.handshake
  rw [← Option.some.inj (hcall.symm.trans hfirst), hop] at hone
  cases hone

theorem pos_of_task (h : s.Calls) (hinv : s.Inv cfg) {j : ℕ} {task : Task} (htask : s.server.tasks[j]? = some task)
    (hcall : s.client.calls[k]? = some call) (hid : call.id = task.id) : 1 ≤ k := by
  refine Nat.one_le_iff_ne_zero.2 ?_
  rintro rfl
  obtain ⟨first, result, hfirst, -, hzero, -⟩ := h.handshake
  obtain ⟨i, c, -, hcid, hsent⟩ := hinv.task_call htask
  rw [hcid, ← hid, Option.some.inj (hcall.symm.trans hfirst), hzero] at hsent
  exact hsent h.unsent

end Calls

end RpcConnection

end Tchannel
