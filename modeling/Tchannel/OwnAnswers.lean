import Tchannel.RpcInvariant

/-!
# Every call gets the answer to its own request

What the invariant of `RpcInvariant` says about the calls of a connection, whatever the schedule and however
many of them there are (`RpcConnection.Answered`): the server handles a request at most once, from all frames
that its call has sent; and what the call receives is the beginning of the answer to it, of which nothing is
lost while the server is there and the call listens.
-/

namespace Tchannel
open Wire

namespace ClientConnection

variable {bufferSize k : ℕ} {s : ClientConnection} {call : ClientCall}

/-- The frames that arrived for a call, where none with its id arrived before it registered. -/
theorem arrived_prefix {n : ℕ} (hreg : call.registeredAt = some n) (hpos : 1 ≤ n)
    (hnone : framesOf call.id ((s.incoming.take n).drop 1) = []) :
    call.arrived s.incoming <+: framesOf call.id (s.incoming.drop 1) := by
  have hsplit : s.incoming.drop 1 = (s.incoming.take n).drop 1 ++ s.incoming.drop n := by
    rcases Nat.le_total n s.incoming.length with hle | hle
    · conv_lhs => rw [← List.take_append_drop n s.incoming]
      rw [List.drop_append_of_le_length (by rw [List.length_take, Nat.min_eq_left hle]; exact hpos)]
    · rw [List.take_of_length_le hle, List.drop_of_length_le hle, List.append_nil]
  rw [hsplit, framesOf_append, hnone, List.nil_append, ClientCall.arrived, hreg, Option.getD_some, List.drop_take]
  exact (List.take_prefix _ _).filter _

theorem arrived_eq {n : ℕ} (hopen : call.IsOpen) (hreg : call.registeredAt = some n) (hpos : 1 ≤ n)
    (hle : n ≤ s.incoming.length) (hnone : framesOf call.id ((s.incoming.take n).drop 1) = []) :
    call.arrived s.incoming = framesOf call.id (s.incoming.drop 1) := by
  have hsplit : s.incoming.drop 1 = (s.incoming.take n).drop 1 ++ s.incoming.drop n := by
    conv_lhs => rw [← List.take_append_drop n s.incoming]
    rw [List.drop_append_of_le_length (by rw [List.length_take, Nat.min_eq_left hle]; exact hpos)]
  rw [hsplit, framesOf_append, hnone, List.nil_append, ClientCall.arrived, hreg, hopen.2, Option.getD_some,
    Option.getD_none, List.take_length]
  rfl

end ClientConnection

namespace RpcConnection

variable {cfg : RpcConfig} {s : RpcConnection} {k j : ℕ} {call : ClientCall} {task : Task}

/-- The task `task` has answered the call from all that the call has sent; the frames of the answer are
`answer`. -/
structure AnswerOf (cfg : RpcConfig) (call : ClientCall) (task : Task) (answer : List TFrameId) : Prop where
  id : task.id = call.id
  sent : ∃ frames request, call.operation.frames = .ok frames ∧
    task.received = frames.map (TFrameId.mk call.id) ∧ readPhase task.received = .read request ∧
    task.phase = .answered request answer ∧ Server.Responds cfg.server call.id request (.ok answer)

structure Answered (cfg : RpcConfig) (s : RpcConnection) : Prop where
  /-- No request is handled twice. -/
  once : ∀ (i j : ℕ) task task', s.server.tasks[i]? = some task → s.server.tasks[j]? = some task' →
    task.id = task'.id → i = j
  /-- Nothing but requests of calls is handled. -/
  asked : ∀ (j : ℕ) task, s.server.tasks[j]? = some task → ∃ (k : ℕ) (call : ClientCall) (frames : List TFrame),
    s.client.calls[k]? = some call ∧ call.id = task.id ∧ call.operation.frames = .ok frames ∧
      task.received <+: frames.map (TFrameId.mk call.id)
  /-- A call that has received something has received the beginning of its answer. -/
  own : ∀ (k : ℕ) call, 1 ≤ k → s.client.calls[k]? = some call → call.received ≠ [] →
    ∃ (j : ℕ) (task : Task) (answer : List TFrameId), s.server.tasks[j]? = some task ∧
      AnswerOf cfg call task answer ∧ call.received <+: answer
  /-- What was passed for a call that listens has been received or is on the way. -/
  kept : s.server.stopped = none → ∀ (k j : ℕ) call task, 1 ≤ k → s.client.calls[k]? = some call →
    call.IsOpen → call.input.receiverAlive = true → s.server.tasks[j]? = some task → task.id = call.id →
      call.received ++ call.input.queue ++ s.client.inFlight k ++ framesOf call.id s.responses =
        task.phase.answer.take (s.passed j)

namespace Inv

theorem arrived_prefix (h : s.Inv cfg) (hk : 1 ≤ k) (hcall : s.client.calls[k]? = some call) :
    call.arrived s.client.incoming <+: framesOf call.id s.answers := by
  cases hreg : call.registeredAt with
  | none =>
    rw [ClientCall.arrived, hreg, Option.getD_none, List.drop_eq_nil_of_le (List.length_take_le' _ _), List.filter_nil]
    exact List.nil_prefix
  | some n =>
    obtain ⟨hpos, hnone⟩ := h.registered k call n hk hcall hreg
    rw [answers, framesOf_append]
    exact (ClientConnection.arrived_prefix hreg hpos hnone).trans (List.prefix_append _ _)

/-- A task with an answer has read all frames of its call. -/
theorem answerOf (h : s.Inv cfg) (hlen : s.client.calls.length ≤ 2 ^ 32) (htask : s.server.tasks[j]? = some task)
    (hcall : s.client.calls[k]? = some call) (hid : task.id = call.id) {request : RequestRead}
    {answer : List TFrameId} (hphase : task.phase = .answered request answer) : AnswerOf cfg call task answer := by
  obtain ⟨reached, t, hreach, hsim⟩ := h.served
  have hserved := Served.Inv.of_reachable hreach
  have htask' : t.server.tasks[j]? = some task := by
    rw [hsim.server]
    exact htask
  obtain ⟨q, hq, hqid⟩ := hserved.taskIds j task htask'
  obtain ⟨i, c, frames, hc, hframes, hcid, hqframes⟩ := hsim.request j q hq
  obtain rfl : i = k := (ClientConnection.Inv.of_reachable h.client).eq_of_id_eq hlen hc hcall
    (hcid.symm.trans (hqid.trans hid))
  obtain rfl := Option.some.inj (hc.symm.trans hcall)
  have hread : task.phase.request = some request := by
    rw [hphase]
    rfl
  obtain ⟨hall, -, -⟩ := hserved.received_all htask' hq hread
  have htinv := h.task_inv htask
  refine ⟨hid, frames, request, hframes, hall.trans hqframes, htinv.reads request hread, hphase, ?_⟩
  rw [← hid]
  exact htinv.responds request answer hphase

/-- What arrives for a call is the beginning of its answer. -/
theorem answerOf_arrived (h : s.Inv cfg) (hlen : s.client.calls.length ≤ 2 ^ 32) (hk : 1 ≤ k)
    (hcall : s.client.calls[k]? = some call) (hne : call.arrived s.client.incoming ≠ []) :
    ∃ (j : ℕ) (task : Task) (answer : List TFrameId), s.server.tasks[j]? = some task ∧
      AnswerOf cfg call task answer ∧ call.arrived s.client.incoming <+: answer := by
  have hpre := h.arrived_prefix hk hcall
  obtain ⟨frame, hframe⟩ := List.exists_mem_of_ne_nil _ hne
  obtain ⟨hmem, hfid⟩ := mem_framesOf.1 (hpre.subset hframe)
  obtain ⟨j, task, htask, hid⟩ := h.owned frame hmem
  have hid : task.id = call.id := hid.trans hfid
  have hreply := h.replies j task htask
  rw [hid] at hreply
  have hanswer : call.arrived s.client.incoming <+: task.phase.answer :=
    (hpre.trans hreply).trans (List.take_prefix _ _)
  cases hphase : task.phase.isAnswered with
  | false =>
    rw [TaskPhase.answer_eq_nil hphase, List.prefix_nil] at hanswer
    exact absurd hanswer hne
  | true =>
    obtain ⟨request, answer, hphase⟩ := TaskPhase.eq_answered hphase
    rw [hphase] at hanswer
    exact ⟨j, task, answer, htask, h.answerOf hlen htask hcall hid hphase, hanswer⟩

theorem answered (h : s.Inv cfg) (hlen : s.client.calls.length ≤ 2 ^ 32) : Answered cfg s := by
  refine ⟨fun i j task task' => h.task_unique, fun j task htask => ?_, fun k call hk hcall hne => ?_,
    fun hlive k j call task hk hcall hopen halive htask hid => ?_⟩
  · obtain ⟨reached, t, hreach, hsim⟩ := h.served
    have hserved := Served.Inv.of_reachable hreach
    have htask' : t.server.tasks[j]? = some task := by
      rw [hsim.server]
      exact htask
    obtain ⟨q, hq, hqid⟩ := hserved.taskIds j task htask'
    obtain ⟨k, call, frames, hcall, hframes, hcid, hqframes⟩ := hsim.request j q hq
    refine ⟨k, call, frames, hcall, hcid.symm.trans hqid, hframes, ?_⟩
    rw [← hqframes]
    exact hserved.received_le htask' hq
  · have hinv := (ClientConnection.Inv.of_reachable h.client).calls k call hcall
    have hreceived : call.received <+: call.arrived s.client.incoming := (List.prefix_append _ _).trans hinv.arrived
    obtain ⟨j, task, answer, htask, hanswer, hpre⟩ := h.answerOf_arrived hlen hk hcall fun hnil =>
      hne (List.prefix_nil.1 (hnil ▸ hreceived))
    exact ⟨j, task, answer, htask, hanswer, hreceived.trans hpre⟩
  · have hclient := ClientConnection.Inv.of_reachable h.client
    have hinv := hclient.calls k call hcall
    obtain ⟨n, hn⟩ := Option.isSome_iff_exists.1 hopen.1
    obtain ⟨hpos, hnone⟩ := h.registered k call n hk hcall hn
    have hconserved := hclient.conserved k call hcall (hclient.routed hlen k call hcall hopen) halive
    rw [ClientConnection.arrived_eq hopen hn hpos (hinv.registered n hn) hnone] at hconserved
    rw [hconserved, ← framesOf_append, ← hid]
    exact h.complete hlive j task htask

end Inv

end RpcConnection

end Tchannel
