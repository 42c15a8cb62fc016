import Tchannel.RpcConnection

/-!
# The invariant of a client and a server

As long as the ids last, the frames that reached the server are requests in the sense of `Demultiplexing`,
those of the calls (`RpcConnection.Sim`): ids are not used twice, and a call sends the frames of its operation
in order. On the way back, the frames with the id of a task are the beginning of its answer, in order
(`Inv.replies`). No such frame is there before the call has registered the id, so that the frames that the call
gets are the beginning of the answer to its own request.
-/

namespace Tchannel
open Wire

namespace ClientConnection

variable {bufferSize k : ℕ} {s s' : ClientConnection} {call call' : ClientCall}

theorem Step.registeredAt_cases (hstep : Step bufferSize s s') {n : ℕ} (hcall' : s'.calls[k]? = some call')
    (hn : call'.registeredAt = some n) : ∃ call, s.calls[k]? = some call ∧ call.id = call'.id ∧
      (call.registeredAt = some n ∨ (call.phase = .allocated ∧ n = s.incoming.length)) := by
  have hset : ∀ {j : ℕ} {c c' : ClientCall}, s.calls[j]? = some c → (s.calls.set j c')[k]? = some call' →
      c'.id = c.id → c'.registeredAt = c.registeredAt → ∃ call, s.calls[k]? = some call ∧ call.id = call'.id ∧
        (call.registeredAt = some n ∨ (call.phase = .allocated ∧ n = s.incoming.length)) := by
    intro j c c' hc hget hid hreg
    rcases getElem?_set_cases hget with ⟨rfl, rfl⟩ | ⟨-, hget⟩
    · exact ⟨c, hc, hid.symm, .inl (hreg ▸ hn)⟩
    · exact ⟨call', hget, rfl, .inl hn⟩
  have hsame : s.calls[k]? = some call' → ∃ call, s.calls[k]? = some call ∧ call.id = call'.id ∧
      (call.registeredAt = some n ∨ (call.phase = .allocated ∧ n = s.incoming.length)) := fun hget =>
    ⟨call', hget, rfl, .inl hn⟩
  cases hstep with
  | calls operation =>
    rcases getElem?_concat_cases hcall' with hget | ⟨-, rfl⟩
    · exact hsame hget
    · cases hn
  | @registers j c _ hc hphase =>
    rcases getElem?_set_cases hcall' with ⟨rfl, rfl⟩ | ⟨-, hget⟩
    · rw [ClientCall.register_registeredAt] at hn
      exact ⟨c, hc, (c.register_id _ _).symm, .inr ⟨hphase, (Option.some.inj hn).symm⟩⟩
    · exact hsame hget
  | runs hc hrun => exact hset hc hcall' hrun.keeps.id hrun.keeps.registeredAt
  | @closes j c result again _ hc _ => cases again <;> exact hset hc hcall' rfl rfl
  | closesAgain _ hc _ => exact hset hc hcall' rfl rfl
  | delivers _ hc _ => exact hset hc hcall' rfl rfl
  | arrives _ => exact hsame hcall'
  | deliverFails _ _ _ => exact hsame hcall'
  | writes _ => exact hsame hcall'
  | stops => exact hsame hcall'

end ClientConnection

namespace RpcConnection

variable {cfg : RpcConfig} {s s' : RpcConnection} {k j : ℕ}

/-- The frames of answers that the client has got or may still get. -/
def answers (s : RpcConnection) : List TFrameId := s.client.incoming.drop 1 ++ s.responses

/-- `t` is the server of `s`, as a connection that the frames `reached` have got to. -/
structure Sim (s : RpcConnection) (reached : List TFrameId) (t : Served) : Prop where
  server : t.server = s.server
  written : ∃ lost, s.written = reached ++ s.requests ++ lost ∧ (s.server.stopped = none → lost = [])
  request : ∀ (j : ℕ) q, t.requests[j]? = some q → ∃ (k : ℕ) (call : ClientCall) (frames : List TFrame),
    s.client.calls[k]? = some call ∧ call.operation.frames = .ok frames ∧ q.request.id = call.id ∧
      q.request.frames = frames.map (TFrameId.mk call.id)
  sent : ∀ (j : ℕ) q, t.requests[j]? = some q → q.sent = (framesOf q.request.id reached).length
  once : ∀ (i j : ℕ) p q, t.requests[i]? = some p → t.requests[j]? = some q → p.request.id = q.request.id → i = j
  opened : ∀ frame ∈ reached, ∃ (j : ℕ) (q : Sending), t.requests[j]? = some q ∧ q.request.id = frame.id

structure Inv (cfg : RpcConfig) (s : RpcConnection) : Prop where
  client : (ClientConnection.system cfg.bufferSize).Reachable s.client
  sends : s.client.Sends s.written
  served : ∃ reached t, (Served.system cfg.server).Reachable t ∧ s.Sim reached t
  handshake : 1 ≤ s.client.incoming.length
  unpassed : ∀ k, (∀ task, s.server.tasks[k]? = some task → task.phase.isAnswered = false) → s.passed k = 0
  replies : ∀ (k : ℕ) task, s.server.tasks[k]? = some task →
    framesOf task.id s.answers <+: task.phase.answer.take (s.passed k)
  /-- Nothing is lost while the server is there. -/
  complete : s.server.stopped = none → ∀ (k : ℕ) task, s.server.tasks[k]? = some task →
    framesOf task.id s.answers = task.phase.answer.take (s.passed k)
  owned : ∀ frame ∈ s.answers, ∃ (k : ℕ) (task : Task), s.server.tasks[k]? = some task ∧ task.id = frame.id
  registered : ∀ (k : ℕ) call n, 1 ≤ k → s.client.calls[k]? = some call → call.registeredAt = some n →
    1 ≤ n ∧ framesOf call.id ((s.client.incoming.take n).drop 1) = []

/-! ### The requests that reached the server -/

namespace Sim

variable {reached : List TFrameId} {t : Served}

theorem begin {init : TFrame} {response : TFrameId} : (start init response).Sim [] Served.start :=
  ⟨rfl, ⟨[], rfl, fun _ => rfl⟩, nofun, nofun, nofun, nofun⟩

theorem congr (h : s.Sim reached t) (hserver : s'.server = s.server)
    (hwritten : ∃ lost, s'.written = reached ++ s'.requests ++ lost ∧ (s'.server.stopped = none → lost = []))
    (hcalls : ∀ (k : ℕ) call, s.client.calls[k]? = some call → ∃ call', s'.client.calls[k]? = some call' ∧
      call'.operation = call.operation ∧ call'.id = call.id) : s'.Sim reached t := by
  refine ⟨h.server.trans hserver.symm, hwritten, fun j q hq => ?_, h.sent, h.once, h.opened⟩
  obtain ⟨k, call, frames, hcall, hframes, hid, heq⟩ := h.request j q hq
  obtain ⟨call', hcall', hop, hid'⟩ := hcalls k call hcall
  exact ⟨k, call', frames, hcall', hop ▸ hframes, hid.trans hid'.symm, hid'.symm ▸ heq⟩

theorem same_calls (h : s.Sim reached t) (hserver : s'.server = s.server)
    (hwritten : ∃ lost, s'.written = reached ++ s'.requests ++ lost ∧ (s'.server.stopped = none → lost = []))
    (hcalls : s'.client.calls = s.client.calls) : s'.Sim reached t :=
  h.congr hserver hwritten fun k call hcall => ⟨call, by rw [hcalls]; exact hcall, rfl, rfl⟩

theorem serves {server : Server} (h : s.Sim reached t) (hstep : s.server.Step cfg.server server) :
    Sim { s with server } reached ⟨t.requests, server⟩ := by
  obtain ⟨lost, hwritten, hlost⟩ := h.written
  exact ⟨rfl, ⟨lost, hwritten, fun _ => hlost hstep.1⟩, h.request, h.sent, h.once, h.opened⟩

/-- The frame at the head of the stream is the next one of its call. -/
theorem next_frame (h : s.Sim reached t) (hsends : s.client.Sends s.written) {frame : TFrameId}
    {requests : List TFrameId} (hrequests : s.requests = frame :: requests) {call : ClientCall}
    (hcall : s.client.calls[k]? = some call) (hid : call.id = frame.id) :
    ∃ frames, call.operation.frames = .ok frames ∧
      (frames.map (TFrameId.mk call.id))[(framesOf frame.id reached).length]? = some frame := by
  obtain ⟨lost, hwritten, -⟩ := h.written
  have hframes := hsends.calls k call hcall
  rw [ClientConnection.sentFrames, hwritten, hrequests, List.append_assoc, List.append_assoc, List.cons_append,
    framesOf_append, framesOf_cons_self hid.symm] at hframes
  obtain ⟨frames, hok, rest, hrest⟩ := hframes.begins (by simp)
  refine ⟨frames, hok, ?_⟩
  rw [← hrest, ← hid, List.append_assoc, List.getElem?_append_right (Nat.le_refl _), Nat.sub_self]
  rfl

theorem owner (h : s.Sim reached t) (hsends : s.client.Sends s.written) {frame : TFrameId}
    {requests : List TFrameId} (hrequests : s.requests = frame :: requests) :
    ∃ (k : ℕ) (call : ClientCall), s.client.calls[k]? = some call ∧ call.id = frame.id := by
  obtain ⟨lost, hwritten, -⟩ := h.written
  refine hsends.owned frame ?_
  rw [ClientConnection.sentFrames, hwritten, hrequests]
  simp

theorem reaches_written (h : s.Sim reached t) {frame : TFrameId} {requests : List TFrameId}
    (hrequests : s.requests = frame :: requests) :
    ∃ lost, s.written = reached ++ [frame] ++ requests ++ lost ∧ (s.server.stopped = none → lost = []) := by
  obtain ⟨lost, hwritten, hlost⟩ := h.written
  refine ⟨lost, ?_, hlost⟩
  rw [hwritten, hrequests]
  simp

theorem opens (h : s.Sim reached t) {frame : TFrameId} {requests : List TFrameId}
    (hrequests : s.requests = frame :: requests) {call : ClientCall} {frames : List TFrame}
    (hcall : s.client.calls[k]? = some call) (hid : call.id = frame.id) (hok : call.operation.frames = .ok frames)
    (hnew : framesOf frame.id reached = []) :
    Sim { s with requests, server := s.server.arrive frame } (reached ++ [frame])
      ⟨t.requests ++ [⟨Operation.request hok call.id, 1, Nat.one_pos⟩], s.server.arrive frame⟩ := by
  have hfresh : ∀ (j : ℕ) q, t.requests[j]? = some q → q.request.id ≠ call.id := by
    intro j q hq hqid
    have hsent := h.sent j q hq
    rw [hqid, hid, hnew] at hsent
    exact absurd q.sent_pos (by rw [hsent]; exact Nat.lt_irrefl 0)
  refine ⟨rfl, h.reaches_written hrequests, fun j q hq => ?_, fun j q hq => ?_, fun i j p q hp hq hpq => ?_,
    fun f hf => ?_⟩
  · rcases getElem?_concat_cases hq with hq | ⟨-, rfl⟩
    · exact h.request j q hq
    · exact ⟨k, call, frames, hcall, hok, rfl, rfl⟩
  · rw [framesOf_append]
    rcases getElem?_concat_cases hq with hq | ⟨-, rfl⟩
    · rw [framesOf_cons_of_ne fun heq => hfresh j q hq (heq.symm.trans hid.symm), framesOf_nil, List.append_nil]
      exact h.sent j q hq
    · show 1 = (framesOf call.id reached ++ framesOf call.id [frame]).length
      rw [hid, hnew, framesOf_cons_self rfl]
      rfl
  · rcases getElem?_concat_cases hp with hp | ⟨rfl, rfl⟩ <;> rcases getElem?_concat_cases hq with hq | ⟨rfl, rfl⟩
    · exact h.once i j p q hp hq hpq
    · exact absurd hpq (hfresh i p hp)
    · exact absurd hpq.symm (hfresh j q hq)
    · rfl
  · rcases List.mem_append.1 hf with hf | hf
    · obtain ⟨j, q, hq, hqid⟩ := h.opened f hf
      exact ⟨j, q, (List.getElem?_append_left (List.getElem?_eq_some_iff.1 hq).1).trans hq, hqid⟩
    · rw [List.mem_singleton.1 hf]
      exact ⟨_, _, List.getElem?_concat_length, hid⟩

theorem sends (h : s.Sim reached t) {frame : TFrameId} {requests : List TFrameId}
    (hrequests : s.requests = frame :: requests) {q : Sending} (hq : t.requests[j]? = some q)
    (hid : q.request.id = frame.id) :
    Sim { s with requests, server := s.server.arrive frame } (reached ++ [frame])
      ⟨t.requests.set j ⟨q.request, q.sent + 1, Nat.succ_pos _⟩, s.server.arrive frame⟩ := by
  have hold : ∀ {i : ℕ} {p : Sending}, (t.requests.set j ⟨q.request, q.sent + 1, Nat.succ_pos _⟩)[i]? = some p →
      ∃ p', t.requests[i]? = some p' ∧ p'.request = p.request := by
    intro i p hp
    rcases getElem?_set_cases hp with ⟨rfl, rfl⟩ | ⟨-, hp⟩
    · exact ⟨q, hq, rfl⟩
    · exact ⟨p, hp, rfl⟩
  refine ⟨rfl, h.reaches_written hrequests, fun i p hp => ?_, fun i p hp => ?_, fun i i' p p' hp hp' hpp => ?_,
    fun f hf => ?_⟩
  · obtain ⟨p', hp', heq⟩ := hold hp
    rw [← heq]
    exact h.request i p' hp'
  · rw [framesOf_append]
    rcases getElem?_set_cases hp with ⟨rfl, rfl⟩ | ⟨hne, hp⟩
    · rw [framesOf_cons_self hid.symm, List.length_append, ← h.sent i q hq]
      rfl
    · rw [framesOf_cons_of_ne fun heq => hne (h.once i j p q hp hq (heq.symm.trans hid.symm)), framesOf_nil,
        List.append_nil]
      exact h.sent i p hp
  · obtain ⟨p₁, hp₁, heq₁⟩ := hold hp
    obtain ⟨p₂, hp₂, heq₂⟩ := hold hp'
    exact h.once i i' p₁ p₂ hp₁ hp₂ (by rw [heq₁, heq₂, hpp])
  · have howned : ∃ (i : ℕ) (p : Sending), t.requests[i]? = some p ∧ p.request.id = f.id := by
      rcases List.mem_append.1 hf with hf | hf
      · exact h.opened f hf
      · rw [List.mem_singleton.1 hf]
        exact ⟨j, q, hq, hid⟩
    obtain ⟨i, p, hp, hpid⟩ := howned
    rcases eq_or_ne j i with rfl | hne
    · obtain rfl := Option.some.inj (hq.symm.trans hp)
      exact ⟨j, _, List.getElem?_set_self (List.getElem?_eq_some_iff.1 hq).1, hpid⟩
    · exact ⟨i, p, (List.getElem?_set_ne hne).trans hp, hpid⟩

/-- A frame gets to the server: the first one of a request, or the next one. -/
theorem reaches (cfg : RpcConfig) (h : s.Sim reached t) (hsends : s.client.Sends s.written) {frame : TFrameId}
    {requests : List TFrameId} (hrequests : s.requests = frame :: requests) :
    ∃ t', Served.Step cfg.server t t' ∧
      Sim { s with requests, server := s.server.arrive frame } (reached ++ [frame]) t' := by
  obtain ⟨requested, server⟩ := t
  obtain rfl : server = s.server := h.server
  by_cases hnew : framesOf frame.id reached = []
  · obtain ⟨k, call, hcall, hid⟩ := h.owner hsends hrequests
    obtain ⟨frames, hok, hnext⟩ := h.next_frame hsends hrequests hcall hid
    rw [hnew] at hnext
    refine ⟨_, .opens (fun j q hq hqid => ?_) hnext, h.opens hrequests hcall hid hok hnew⟩
    -- no request with this id was opened
    have hsent := h.sent j q hq
    rw [show q.request.id = frame.id from hqid.trans hid, hnew] at hsent
    exact absurd q.sent_pos (by rw [hsent]; exact Nat.lt_irrefl 0)
  · obtain ⟨f, hf⟩ := List.exists_mem_of_ne_nil _ hnew
    obtain ⟨hmem, hfid⟩ := mem_framesOf.1 hf
    obtain ⟨j, q, hq, hqid⟩ := h.opened f hmem
    have hqid : q.request.id = frame.id := hqid.trans hfid
    refine ⟨_, .sends hq ?_, h.sends hrequests hq hqid⟩
    obtain ⟨k, call, frames, hcall, hok, hid, hframes⟩ := h.request j q hq
    obtain ⟨frames', hok', hnext⟩ := h.next_frame hsends hrequests hcall (hid.symm.trans hqid)
    obtain rfl := Except.ok.inj (hok.symm.trans hok')
    rw [hframes, h.sent j q hq, hqid]
    exact hnext

end Sim

namespace Inv

/-! ### Ids -/

/-- Every task belongs to a call, of which frames were sent. -/
theorem task_call (h : s.Inv cfg) {task : Task} (htask : s.server.tasks[k]? = some task) :
    ∃ (i : ℕ) (call : ClientCall), s.client.calls[i]? = some call ∧ call.id = task.id ∧
      framesOf call.id (s.client.sentFrames s.written) ≠ [] := by
  obtain ⟨reached, t, hreach, hsim⟩ := h.served
  obtain ⟨q, hq, hqid⟩ := (Served.Inv.of_reachable hreach).taskIds k task (by rw [hsim.server]; exact htask)
  obtain ⟨i, call, frames, hcall, -, hid, -⟩ := hsim.request k q hq
  refine ⟨i, call, hcall, hid.symm.trans hqid, fun hnil => ?_⟩
  obtain ⟨lost, hwritten, -⟩ := hsim.written
  rw [ClientConnection.sentFrames, hwritten, framesOf_append, framesOf_append, framesOf_append, ← hid,
    List.append_eq_nil_iff, List.append_eq_nil_iff, List.append_eq_nil_iff] at hnil
  have hsent := hsim.sent k q hq
  rw [hnil.1.1.1] at hsent
  exact absurd q.sent_pos (by rw [hsent]; exact Nat.lt_irrefl 0)

theorem task_unique (h : s.Inv cfg) {task task' : Task} (htask : s.server.tasks[j]? = some task)
    (htask' : s.server.tasks[k]? = some task') (hid : task.id = task'.id) : j = k := by
  obtain ⟨reached, t, hreach, hsim⟩ := h.served
  have hserved := Served.Inv.of_reachable hreach
  obtain ⟨p, hp, hpid⟩ := hserved.taskIds j task (by rw [hsim.server]; exact htask)
  obtain ⟨q, hq, hqid⟩ := hserved.taskIds k task' (by rw [hsim.server]; exact htask')
  exact hsim.once j k p q hp hq (by rw [hpid, hqid, hid])

theorem task_inv (h : s.Inv cfg) {task : Task} (htask : s.server.tasks[k]? = some task) : task.Inv cfg.server := by
  obtain ⟨reached, t, hreach, hsim⟩ := h.served
  exact (Served.Inv.of_reachable hreach).server.tasks k task (by rw [hsim.server]; exact htask)

theorem answers_of_unsent (h : s.Inv cfg) {id : UInt32}
    (hunsent : framesOf id (s.client.sentFrames s.written) = []) : framesOf id s.answers = [] := by
  refine framesOf_eq_nil.2 fun frame hframe hid => ?_
  obtain ⟨j, task, htask, htid⟩ := h.owned frame hframe
  obtain ⟨i, c, hc, hcid, hsent⟩ := h.task_call htask
  have hsame : c.id = id := hcid.trans (htid.trans hid)
  rw [hsame] at hsent
  exact hsent hunsent

/-! ### The steps -/

theorem start (cfg : RpcConfig) (init : TFrame) {response : TFrameId} (hid : response.id = 0) :
    (start init response).Inv cfg := by
  refine ⟨ClientConnection.connected_reachable cfg.bufferSize_pos init hid, ⟨fun k call hcall => ?_, nofun⟩,
    ⟨[], Served.start, .start rfl, .begin⟩, Nat.le_refl 1, fun _ _ => rfl, nofun, fun _ => nofun, nofun,
    fun k call n hk hcall => ?_⟩
  · cases k with
    | zero =>
      rw [← Option.some.inj hcall]
      exact ⟨fun _ => rfl, nofun, nofun, fun hne => absurd rfl hne⟩
    | succ k => cases hcall
  · obtain ⟨k, rfl⟩ := Nat.exists_eq_succ_of_ne_zero (Nat.ne_of_gt hk)
    cases hcall

theorem client_step (h : s.Inv cfg) {client : ClientConnection} (hstep : s.client.Step cfg.bufferSize client)
    (hlen : client.calls.length ≤ 2 ^ 32) (hincoming : client.incoming = s.client.incoming)
    (hqueue : s.client.outgoing.queue <+: client.outgoing.queue) : Inv cfg { s with client } := by
  have hinv := ClientConnection.Inv.of_reachable h.client
  have hanswers : answers { s with client } = s.answers := by
    show client.incoming.drop 1 ++ s.responses = _
    rw [hincoming]
    rfl
  obtain ⟨reached, t, hreach, hsim⟩ := h.served
  refine ⟨h.client.step hstep, h.sends.step hinv hlen hstep hqueue,
    ⟨reached, t, hreach, hsim.congr rfl hsim.written fun k call hcall => hstep.call_kept hcall⟩, ?_, h.unpassed,
    ?_, ?_, ?_, fun k call n hk hcall hn => ?_⟩
  · show 1 ≤ client.incoming.length
    rw [hincoming]
    exact h.handshake
  · rw [hanswers]
    exact h.replies
  · rw [hanswers]
    exact h.complete
  · rw [hanswers]
    exact h.owned
  · show 1 ≤ n ∧ framesOf call.id ((client.incoming.take n).drop 1) = []
    rw [hincoming]
    obtain ⟨c, hc, hid, hreg | ⟨hphase, rfl⟩⟩ := hstep.registeredAt_cases hcall hn
    · rw [← hid]
      exact h.registered k c n hk hc hreg
    · -- the id of a call that registers is new to both ends
      have hnone := h.answers_of_unsent ((h.sends.calls k c hc).fresh (.inl hphase))
      rw [answers, framesOf_append, hid] at hnone
      rw [List.take_length]
      exact ⟨h.handshake, (List.append_eq_nil_iff.1 hnone).1⟩

theorem takes (h : s.Inv cfg) {frame : TFrameId} {queue requests : List TFrameId}
    (hqueue : s.client.outgoing.queue = frame :: queue)
    (hwritten : ∀ reached t, s.Sim reached t → ∃ lost, s.written ++ [frame] = reached ++ requests ++ lost ∧
      (s.server.stopped = none → lost = [])) :
    Inv cfg { s with
      client := { s.client with outgoing := { s.client.outgoing with queue } }
      requests, written := s.written ++ [frame] } := by
  obtain ⟨reached, t, hreach, hsim⟩ := h.served
  exact ⟨h.client.step (.writes hqueue), h.sends.takes hqueue,
    ⟨reached, t, hreach, hsim.same_calls rfl (hwritten reached t hsim) rfl⟩, h.handshake, h.unpassed, h.replies,
    h.complete, h.owned, h.registered⟩

theorem reaches (h : s.Inv cfg) {frame : TFrameId} {requests : List TFrameId}
    (hrequests : s.requests = frame :: requests) :
    Inv cfg { s with requests, server := s.server.arrive frame } := by
  obtain ⟨reached, t, hreach, hsim⟩ := h.served
  obtain ⟨t', hstep, hsim'⟩ := hsim.reaches cfg h.sends hrequests
  exact ⟨h.client, h.sends, ⟨_, t', hreach.step hstep, hsim'⟩, h.handshake, h.unpassed, h.replies, h.complete,
    h.owned, h.registered⟩

theorem serves (h : s.Inv cfg) {server : Server} (hstep : s.server.Step cfg.server server) :
    Inv cfg { s with server } := by
  obtain ⟨reached, t, hreach, hsim⟩ := h.served
  have hserved : ∃ reached t, (Served.system cfg.server).Reachable t ∧ Sim { s with server } reached t := by
    refine ⟨reached, ⟨t.requests, server⟩, hreach.step (.serves ?_), hsim.serves hstep⟩
    rw [hsim.server]
    exact hstep
  have hunique : ∀ {i j : ℕ} {task task' : Task}, server.tasks[i]? = some task → server.tasks[j]? = some task' →
      task.id = task'.id → i = j := by
    obtain ⟨reached', t', hreach', hsim'⟩ := hserved
    intro i j task task' htask htask' hid
    have hinv := Served.Inv.of_reachable hreach'
    obtain ⟨p, hp, hpid⟩ := hinv.taskIds i task (by rw [hsim'.server]; exact htask)
    obtain ⟨q, hq, hqid⟩ := hinv.taskIds j task' (by rw [hsim'.server]; exact htask')
    exact hsim'.once i j p q hp hq (by rw [hpid, hqid, hid])
  -- a task that had no answer has passed nothing, and nothing bears its id
  have hnothing : ∀ (k : ℕ) task', server.tasks[k]? = some task' →
      (∀ task, s.server.tasks[k]? = some task → task.phase.isAnswered = false) → framesOf task'.id s.answers = [] := by
    intro k task' htask' hnot
    refine framesOf_eq_nil.2 fun frame hframe hid => ?_
    obtain ⟨i, task, htask, htid⟩ := h.owned frame hframe
    obtain ⟨task'', htask'', hgoes⟩ := hstep.task_kept htask
    obtain rfl := hunique htask'' htask' (hgoes.id.trans (htid.trans hid))
    have hpre := h.replies i task htask
    rw [TaskPhase.answer_eq_nil (hnot task htask), List.take_nil, List.prefix_nil, framesOf_eq_nil] at hpre
    exact hpre frame hframe htid.symm
  have hcases : ∀ (k : ℕ) task', server.tasks[k]? = some task' →
      (∃ task, s.server.tasks[k]? = some task ∧ task'.id = task.id ∧ task'.phase = task.phase) ∨
      (s.passed k = 0 ∧ framesOf task'.id s.answers = []) := by
    intro k task' htask'
    rcases hstep.task_cases htask' with ⟨task, htask, hgoes⟩ | ⟨hnone, -⟩
    · cases hanswered : task.phase.isAnswered with
      | true => exact .inl ⟨task, htask, hgoes.id, hgoes.answered hanswered⟩
      | false =>
        have hnot : ∀ t, s.server.tasks[k]? = some t → t.phase.isAnswered = false := fun t ht => by
          rw [← Option.some.inj (htask.symm.trans ht)]
          exact hanswered
        exact .inr ⟨h.unpassed k hnot, hnothing k task' htask' hnot⟩
    · have hnot : ∀ t, s.server.tasks[k]? = some t → t.phase.isAnswered = false := fun t ht => by
        rw [hnone] at ht
        cases ht
      exact .inr ⟨h.unpassed k hnot, hnothing k task' htask' hnot⟩
  refine ⟨h.client, h.sends, hserved, h.handshake, fun k hnot => h.unpassed k fun task htask => ?_,
    fun k task' htask' => ?_, fun _ k task' htask' => ?_, fun frame hframe => ?_, h.registered⟩
  · obtain ⟨task', htask', hgoes⟩ := hstep.task_kept htask
    have hnot' := hnot task' htask'
    cases hanswered : task.phase.isAnswered with
    | false => rfl
    | true => rw [hgoes.answered hanswered, hanswered] at hnot'; exact hnot'
  · show framesOf task'.id s.answers <+: _
    rcases hcases k task' htask' with ⟨task, htask, hid, hphase⟩ | ⟨-, hnil⟩
    · rw [hid, hphase]
      exact h.replies k task htask
    · rw [hnil]
      exact List.nil_prefix
  · show framesOf task'.id s.answers = _
    rcases hcases k task' htask' with ⟨task, htask, hid, hphase⟩ | ⟨hzero, hnil⟩
    · rw [hid, hphase]
      exact h.complete hstep.1 k task htask
    · show _ = task'.phase.answer.take (s.passed k)
      rw [hnil, hzero, List.take_zero]
  · obtain ⟨k, task, htask, hid⟩ := h.owned frame hframe
    obtain ⟨task', htask', hgoes⟩ := hstep.task_kept htask
    exact ⟨k, task', htask', hgoes.id.trans hid⟩

theorem passes (h : s.Inv cfg) (hlive : s.server.stopped = none) {task : Task} {request : RequestRead}
    {frames : List TFrameId} {frame : TFrameId} (htask : s.server.tasks[k]? = some task)
    (hphase : task.phase = .answered request frames) (hframe : frames[s.passed k]? = some frame) :
    Inv cfg { s with
      passed := Function.update s.passed k (s.passed k + 1), responses := s.responses ++ [frame] } := by
  have hanswer : task.phase.answer = frames := by
    rw [hphase]
    rfl
  have hid : frame.id = task.id :=
    (h.task_inv htask).answer_ids frame (by rw [hanswer]; exact List.mem_of_getElem? hframe)
  have hcomplete : ∀ (j : ℕ) t, s.server.tasks[j]? = some t → framesOf t.id (s.answers ++ [frame]) =
      t.phase.answer.take (Function.update s.passed k (s.passed k + 1) j) := by
    intro j t ht
    rcases eq_or_ne j k with rfl | hne
    · obtain rfl := Option.some.inj (htask.symm.trans ht)
      rw [framesOf_append, framesOf_cons_self hid, framesOf_nil, h.complete hlive j task htask,
        Function.update_self, hanswer, List.take_add_one, hframe]
      rfl
    · rw [framesOf_append, framesOf_cons_of_ne fun heq => hne (h.task_unique ht htask (heq.symm.trans hid)),
        framesOf_nil, List.append_nil, Function.update_of_ne hne]
      exact h.complete hlive j t ht
  have hanswers : answers { s with
      passed := Function.update s.passed k (s.passed k + 1), responses := s.responses ++ [frame] } =
        s.answers ++ [frame] := by
    rw [answers, answers, List.append_assoc]
  refine ⟨h.client, h.sends, ?_, h.handshake, fun j hnot => ?_, fun j t ht => ?_, fun _ j t ht => ?_, ?_, h.registered⟩
  · obtain ⟨reached, t, hreach, hsim⟩ := h.served
    exact ⟨reached, t, hreach, hsim.same_calls rfl hsim.written rfl⟩
  · have hne : j ≠ k := by
      rintro rfl
      have := hnot task htask
      rw [hphase] at this
      cases this
    show Function.update s.passed k (s.passed k + 1) j = 0
    rw [Function.update_of_ne hne]
    exact h.unpassed j hnot
  · rw [hanswers, hcomplete j t ht]
  · rw [hanswers, hcomplete j t ht]
  · rw [hanswers]
    intro f hf
    rcases List.mem_append.1 hf with hf | hf
    · exact h.owned f hf
    · rw [List.mem_singleton.1 hf]
      exact ⟨k, task, htask, hid.symm⟩

theorem arrives (h : s.Inv cfg) (hidle : s.client.receiver = .idle) {frame : TFrameId} {responses : List TFrameId}
    (hresponses : s.responses = frame :: responses) :
    Inv cfg { s with
      client := { s.client with receiver := s.client.lookup frame, incoming := s.client.incoming ++ [frame] }
      responses } := by
  have hanswers : answers { s with
      client := { s.client with receiver := s.client.lookup frame, incoming := s.client.incoming ++ [frame] }
      responses } = s.answers := by
    rw [answers, answers, hresponses, List.drop_append_of_le_length h.handshake, List.append_assoc]
    rfl
  obtain ⟨reached, t, hreach, hsim⟩ := h.served
  refine ⟨h.client.step (.arrives hidle), h.sends.congr rfl rfl,
    ⟨reached, t, hreach, hsim.same_calls rfl hsim.written rfl⟩, ?_, h.unpassed, ?_, ?_, ?_,
    fun k call n hk hcall hn => ?_⟩
  · show 1 ≤ (s.client.incoming ++ [frame]).length
    rw [List.length_append]
    exact Nat.le_add_right_of_le h.handshake
  · rw [hanswers]
    exact h.replies
  · rw [hanswers]
    exact h.complete
  · rw [hanswers]
    exact h.owned
  · show 1 ≤ n ∧ framesOf call.id (((s.client.incoming ++ [frame]).take n).drop 1) = []
    have hn' := ((ClientConnection.Inv.of_reachable h.client).calls k call hcall).registered n hn
    rw [List.take_append_of_le_length hn']
    exact h.registered k call n hk hcall hn

theorem breaks (h : s.Inv cfg) (hgone : s.server.stopped ≠ none) (n : ℕ) :
    Inv cfg { s with responses := s.responses.take n } := by
  have hpre : answers { s with responses := s.responses.take n } <+: s.answers :=
    List.prefix_append_right_inj _ |>.2 (List.take_prefix n s.responses)
  obtain ⟨reached, t, hreach, hsim⟩ := h.served
  exact ⟨h.client, h.sends, ⟨reached, t, hreach, hsim.same_calls rfl hsim.written rfl⟩, h.handshake, h.unpassed,
    fun k task htask => (hpre.filter _).trans (h.replies k task htask), fun hlive => absurd hlive hgone,
    fun frame hframe => h.owned frame (hpre.subset hframe), h.registered⟩

theorem move (h : s.Inv cfg) (hmove : Move cfg s s') (hlen : s'.client.calls.length ≤ 2 ^ 32) : s'.Inv cfg := by
  cases hmove with
  | acts hstep hinside => exact h.client_step hstep hlen hinside.incoming hinside.outgoing
  | @writes frame queue hlive hqueue hroom =>
    refine h.takes hqueue fun reached t hsim => ?_
    obtain ⟨lost, hwritten, hlost⟩ := hsim.written
    refine ⟨[], ?_, fun _ => rfl⟩
    rw [hwritten, hlost hlive]
    simp
  | @loses frame queue hgone hqueue =>
    refine h.takes hqueue fun reached t hsim => ?_
    obtain ⟨lost, hwritten, -⟩ := hsim.written
    refine ⟨lost ++ [frame], ?_, fun hlive => absurd hlive hgone⟩
    rw [hwritten, List.append_assoc]
  | reaches _ _ hrequests => exact h.reaches hrequests
  | serves hstep _ => exact h.serves hstep
  | passes hlive htask hphase hframe hroom => exact h.passes hlive htask hphase hframe
  | arrives hidle hresponses => exact h.arrives hidle hresponses
  | breaks hgone hn => exact h.breaks hgone _

theorem step (h : s.Inv cfg) (hstep : Step cfg s s') (hlen : s'.client.calls.length ≤ 2 ^ 32) : s'.Inv cfg := by
  cases hstep with
  | calls hused => exact h.client_step (.calls _) hlen rfl (List.prefix_refl _)
  | stops => exact h.client_step .stops hlen rfl (List.prefix_refl _)
  | moves hmove => exact h.move hmove hlen

end Inv

theorem Step.length_le (hstep : Step cfg s s') : s.client.calls.length ≤ s'.client.calls.length := by
  cases hstep with
  | calls hused => exact Nat.le_of_lt (by simp)
  | stops => exact Nat.le_refl _
  | moves hmove =>
    cases hmove with
    | acts hstep _ => exact hstep.length_le
    | writes _ _ _ => exact Nat.le_refl _
    | loses _ _ => exact Nat.le_refl _
    | reaches _ _ _ => exact Nat.le_refl _
    | serves _ _ => exact Nat.le_refl _
    | passes _ _ _ _ _ => exact Nat.le_refl _
    | arrives _ _ => exact Nat.le_refl _
    | breaks _ _ => exact Nat.le_refl _

/-- The invariant holds until the ids run out. -/
theorem Inv.of_reachable (h : (system cfg).Reachable s) (hlen : s.client.calls.length ≤ 2 ^ 32) : s.Inv cfg := by
  refine h.invariant (P := fun s => s.client.calls.length ≤ 2 ^ 32 → s.Inv cfg) ?_ ?_ hlen
  · rintro s ⟨it, order, request, answer, -, hanswer, rfl⟩ -
    refine Inv.start cfg request ?_
    unfold Server.sendInitRes at hanswer
    split at hanswer
    · rw [← Except.ok.inj hanswer]
    · cases hanswer
  · exact fun s s' _ ih hstep hlen' => (ih (Step.length_le hstep |>.trans hlen')).step hstep hlen'

end RpcConnection

end Tchannel
