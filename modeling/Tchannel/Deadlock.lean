import Tchannel.Traffic

/-!
# Requests that block each other

While `server_tasks` tasks are running, `try_for_each_concurrent` does not poll the stream of frames. If all of
them wait for a frame, it is never read (`Traffic.Deadlocked`). So a connection does not get into a deadlock
exactly if at no point of the wire `server_tasks` requests are open (`Traffic.deadlock_free_iff`), apart from
those points before which there is a request that ends the connection. Once it is in one, nothing that arrives
gets it out again (`Traffic.Deadlocked.exists_stuck`).
-/

namespace Tchannel
open Wire

/-- The request can be read, and the server may reply to it. -/
def Request.Answerable (cfg : ServerConfig) (r : Request) : Prop :=
  ∃ request frames, readPhase r.frames = .read request ∧ Server.Responds cfg r.id request (.ok frames)

/-- A connection that is not over, and cannot go on, has nothing to do but to read the socket. -/
theorem Server.calm_of_stuck {cfg : ServerConfig} {s : Server} (hinv : s.Inv cfg)
    (hhandlers : ∃ handler, cfg.handlers handler) (hlive : s.stopped = none) (hstuck : ∀ s', ¬ s.Step cfg s') :
    s.Calm := by
  have hl := hinv.live hlive
  have hqueue : ∀ (k : ℕ) task, s.tasks[k]? = some task → task.phase = .reading → task.input.queue = [] := by
    intro k task htask hphase
    cases hqueue : task.input.queue with
    | nil => rfl
    | cons frame queue => exact absurd ⟨hlive, .receive htask hphase hqueue⟩ (hstuck _)
  have hidle : s.dispatching = .idle := by
    cases hdispatching : s.dispatching with
    | idle => rfl
    | first frame =>
      have htasks := hl.polled (by rw [hdispatching]; exact nofun)
      exact absurd ⟨hlive, .first htasks hdispatching (hl.first frame hdispatching)⟩ (hstuck _)
    | sending frame k =>
      have htasks := hl.polled (by rw [hdispatching]; exact nofun)
      obtain ⟨task, htask, -, -⟩ := hl.registered _ _ (hl.sending frame k hdispatching)
      have halive := (hinv.tasks k task htask).alive
      cases hreading : task.phase.isReading with
      | false => exact absurd ⟨hlive, .sendFails htasks hdispatching htask (halive.trans hreading)⟩ (hstuck _)
      | true =>
        have hphase := TaskPhase.eq_reading hreading
        have hready : task.input.Ready cfg.bufferSize :=
          ⟨halive.trans hreading, by rw [hqueue k task htask hphase]; exact cfg.bufferSize_pos⟩
        exact absurd ⟨hlive, .send htasks hdispatching htask hready⟩ (hstuck _)
  refine ⟨hlive, hidle, fun k task htask => ?_⟩
  cases hphase : task.phase with
  | reading => exact .inl ⟨rfl, hqueue k task htask hphase⟩
  | read request =>
    have hlock : s.dispatching.holdsReadLock = false := by
      rw [hidle]
      rfl
    exact absurd ⟨hlive, .deregister hlock htask hphase⟩ (hstuck _)
  | deregistered request =>
    obtain ⟨handler, hhandler⟩ := hhandlers
    exact absurd ⟨hlive, .reply htask hphase
      ⟨handler, fun headers => ⟨headers.entries.toList, Multiset.coe_toList _⟩, hhandler, rfl⟩⟩ (hstuck _)
  | answered request frames => exact .inr rfl
  | failed e =>
    have hfailed := hl.failed k task htask
    rw [hphase] at hfailed
    cases hfailed

theorem Server.Calm.stuck {cfg : ServerConfig} {s : Server} (h : s.Calm) (hfull : cfg.serverTasks ≤ s.running) :
    ∀ s', ¬ s.Step cfg s' := by
  rintro s' ⟨-, hmove⟩
  cases hmove with
  | next htasks _ _ => exact absurd htasks (Nat.not_lt.2 hfull)
  | send htasks _ _ _ => exact absurd htasks (Nat.not_lt.2 hfull)
  | sendFails htasks _ _ _ => exact absurd htasks (Nat.not_lt.2 hfull)
  | first htasks _ _ => exact absurd htasks (Nat.not_lt.2 hfull)
  | firstFails htasks _ _ => exact absurd htasks (Nat.not_lt.2 hfull)
  | @receive k task frame queue htask hphase hqueue =>
    rcases h.tasks k task htask with ⟨-, hnil⟩ | hanswered
    · rw [hnil] at hqueue
      cases hqueue
    · rw [hphase] at hanswered
      cases hanswered
  | @deregister k task request hlock htask hphase =>
    rcases h.tasks k task htask with ⟨hother, -⟩ | hother <;>
    · rw [hphase] at hother
      cases hother
  | @reply k task request response htask hphase hresponse =>
    rcases h.tasks k task htask with ⟨hother, -⟩ | hother <;>
    · rw [hphase] at hother
      cases hother

namespace Traffic

/-- How many requests are open in some frames. -/
def pending (traffic : Traffic) (frames : List TFrameId) : ℕ := traffic.requests.countP fun r => r.IsOpenIn frames

/-- All frames of a request have arrived, it is not answered, and the server cannot go on. -/
structure Deadlocked (traffic : Traffic) (cfg : ServerConfig) (s : Receiving) : Prop where
  live : s.server.stopped = none
  unanswered : ∃ r ∈ traffic.requests, (∀ frame ∈ s.incoming, frame.id ≠ r.id) ∧
    ∀ (k : ℕ) task, s.server.tasks[k]? = some task → task.id = r.id → task.phase.isAnswered = false
  stuck : ∀ server, ¬ s.server.Step cfg server

/-- Up to any point of the wire up to which every request that is complete can be answered, fewer than
`server_tasks` requests are open. -/
def FewOpen (traffic : Traffic) (cfg : ServerConfig) : Prop :=
  ∀ taken, taken <+: traffic.wire → (∀ r ∈ traffic.requests, r.sentIn taken = r.frames → r.Answerable cfg) →
    traffic.pending taken < cfg.serverTasks

variable {cfg : ServerConfig} {traffic : Traffic} {s : Receiving} {t : Served} {r : Request} {taken : List TFrameId}

namespace Sim

theorem tasks_nodup (h : traffic.Sim s t) (hinv : t.Inv cfg) : (s.server.tasks.map Task.id).Nodup := by
  have hrequests : (t.requests.map (·.request.id)).Nodup := by
    refine List.nodup_iff_getElem?_ne_getElem?.2 fun i j hij hj heq => ?_
    rw [List.length_map] at hj
    have hp := List.getElem?_eq_getElem (hij.trans hj)
    have hq := List.getElem?_eq_getElem hj
    rw [List.getElem?_map, List.getElem?_map, hp, hq] at heq
    exact Nat.ne_of_lt hij (h.once i j _ _ hp hq (Option.some.inj heq))
  rw [← h.server]
  exact hrequests.sublist hinv.demultiplexed.ids.sublist

variable (h : traffic.Sim s t) (hinv : t.Inv cfg)
  (hwire : traffic.wire = taken ++ s.server.inFlight ++ s.incoming)

include h hinv hwire

theorem task_of_sentIn (hr : r ∈ traffic.requests) (hsent : r.sentIn taken ≠ []) :
    ∃ (k : ℕ) (q : Sending) (task : Task), t.requests[k]? = some q ∧ q.request = r ∧
      t.server.tasks[k]? = some task ∧ task.id = r.id ∧ task.taken = r.sentIn taken := by
  by_cases hopened : ∃ (k : ℕ) (q : Sending), t.requests[k]? = some q ∧ q.request.id = r.id
  · obtain ⟨k, q, hq, hqid⟩ := hopened
    obtain rfl := traffic.eq_of_id_eq (h.mem k q hq) hr hqid
    have htaken := h.sentIn_taken hinv hwire hq
    have hk : k < t.server.tasks.length := by
      by_contra hge
      rw [htaken, Mux.handedTo_of_le ((List.length_map _).trans_le (Nat.not_lt.1 hge))] at hsent
      exact hsent rfl
    have htask := List.getElem?_eq_getElem hk
    obtain ⟨q', hq', hid⟩ := hinv.taskIds k _ htask
    obtain rfl := Option.some.inj (hq.symm.trans hq')
    exact ⟨k, q, _, hq, rfl, htask, hid.symm, (Served.mux_handedTo htask).symm.trans htaken.symm⟩
  · -- all of its frames are still to come
    have horder := traffic.order r hr
    rw [hwire, Request.sentIn_append, Request.sentIn_append,
      h.unopened r hr fun k q hq hqid => hopened ⟨k, q, hq, hqid⟩, List.append_left_eq_self] at horder
    exact absurd (List.append_eq_nil_iff.1 horder).1 hsent

/-- In a calm connection the tasks that are running are those of the open requests. -/
theorem running_eq (hcalm : s.server.Calm) : s.server.running = traffic.pending taken := by
  have hreading : ∀ {k : ℕ} {q : Sending} {task : Task}, t.requests[k]? = some q → t.server.tasks[k]? = some task →
      task.phase = .reading → task.input.queue = [] → q.request.IsOpenIn taken := by
    intro k q task hq htask hphase hqueue
    have htaken : q.request.sentIn taken = task.received := by
      rw [h.sentIn_taken hinv hwire hq, Served.mux_handedTo htask, Task.taken, hqueue, List.append_nil]
    rw [Request.IsOpenIn, htaken]
    constructor
    · have hne := hinv.mux.handed_ne k task.taken (by rw [Served.mux, List.getElem?_map, htask]; rfl)
      rwa [Task.taken, hqueue, List.append_nil] at hne
    · intro hall
      obtain ⟨request, hread⟩ := traffic.complete _ (h.mem k q hq)
      rw [← hall, (hinv.server.tasks k task htask).reading hphase] at hread
      cases hread
  have htasks := h.tasks_nodup hinv
  rw [← h.server] at hcalm htasks ⊢
  apply Nat.le_antisymm
  · refine countP_le_of_keys Task.id Request.id htasks fun task hmem hrunning => ?_
    obtain ⟨k, htask⟩ := List.getElem?_of_mem hmem
    obtain ⟨q, hq, hid⟩ := hinv.taskIds k task htask
    rcases hcalm.tasks k task htask with ⟨hphase, hqueue⟩ | hanswered
    · exact ⟨q.request, h.mem k q hq, decide_eq_true (hreading hq htask hphase hqueue), hid⟩
    · obtain ⟨request, frames, hphase⟩ := TaskPhase.eq_answered hanswered
      rw [hphase] at hrunning
      cases hrunning
  · refine countP_le_of_keys Request.id Task.id traffic.ids fun r hr hopen => ?_
    obtain ⟨hsome, hpart⟩ := of_decide_eq_true hopen
    obtain ⟨k, q, task, hq, rfl, htask, hid, htaken⟩ := h.task_of_sentIn hinv hwire hr hsome
    refine ⟨task, List.mem_of_getElem? htask, ?_, hid⟩
    rcases hcalm.tasks k task htask with ⟨hphase, -⟩ | hanswered
    · rw [hphase]
      rfl
    · obtain ⟨request, frames, hphase⟩ := TaskPhase.eq_answered hanswered
      obtain ⟨hall, hqueue, -⟩ := hinv.received_all htask hq (by rw [hphase]; rfl)
      rw [← htaken, Task.taken, hqueue, List.append_nil] at hpart
      exact absurd hall hpart

theorem answered_of_complete (hcalm : s.server.Calm) (hr : r ∈ traffic.requests) (hall : r.sentIn taken = r.frames) :
    r.Answerable cfg ∧ ∃ (k : ℕ) (task : Task), s.server.tasks[k]? = some task ∧ task.id = r.id ∧
      task.phase.isAnswered = true := by
  obtain ⟨k, q, task, hq, rfl, htask, hid, htaken⟩ :=
    h.task_of_sentIn hinv hwire hr (by rw [hall]; exact r.frames_ne)
  have htaskInv := hinv.server.tasks k task htask
  rw [h.server] at htask
  rcases hcalm.tasks k task htask with ⟨hphase, hqueue⟩ | hanswered
  · obtain ⟨request, hread⟩ := traffic.complete _ hr
    rw [← hall, ← htaken, Task.taken, hqueue, List.append_nil, htaskInv.reading hphase] at hread
    cases hread
  · obtain ⟨request, frames, hphase⟩ := TaskPhase.eq_answered hanswered
    have hread := htaskInv.reads request (by rw [hphase]; rfl)
    rw [← h.server] at htask
    rw [(hinv.received_all htask hq (by rw [hphase]; rfl)).1] at hread
    refine ⟨⟨request, frames, hread, ?_⟩, k, task, h.server ▸ htask, hid, hanswered⟩
    rw [← hid]
    exact htaskInv.responds request frames hphase

end Sim

/-! ### No deadlock -/

/-- A connection is in a deadlock only if it does not poll the stream of frames. -/
theorem Deadlocked.calm_and_full (h : traffic.Deadlocked cfg s) (hhandlers : ∃ handler, cfg.handlers handler)
    (hs : (traffic.system cfg).Reachable s) : s.server.Calm ∧ cfg.serverTasks ≤ s.server.running := by
  obtain ⟨hlive, ⟨r, hr, harrived, hunanswered⟩, hstuck⟩ := h
  obtain ⟨t, ht, hsim⟩ := simulation hs
  have hinv := Served.Inv.of_reachable ht
  have hcalm := Server.calm_of_stuck (hsim.server ▸ hinv.server) hhandlers hlive hstuck
  refine ⟨hcalm, Nat.not_lt.1 fun hpolled => ?_⟩
  -- otherwise the socket is empty, and `r` is complete
  have hsocket : s.server.socket = [] := by
    cases hsocket : s.server.socket with
    | nil => rfl
    | cons frame socket => exact absurd ⟨hlive, .next hpolled hcalm.idle hsocket⟩ (hstuck _)
  have hflight : s.server.inFlight = [] := by
    rw [Server.inFlight, hcalm.idle, hsocket]
    rfl
  obtain ⟨taken, hwire⟩ := hsim.wire
  have hall : r.sentIn taken = r.frames := by
    have horder := traffic.order r hr
    rwa [hwire, hflight, List.append_nil, Request.sentIn_append, Request.sentIn_eq_nil harrived,
      List.append_nil] at horder
  obtain ⟨-, k, task, htask, hid, hanswered⟩ := hsim.answered_of_complete hinv hwire hcalm hr hall
  rw [hunanswered k task htask hid] at hanswered
  cases hanswered

theorem not_deadlocked (hfew : traffic.FewOpen cfg) (hhandlers : ∃ handler, cfg.handlers handler)
    (hs : (traffic.system cfg).Reachable s) : ¬ traffic.Deadlocked cfg s := by
  intro hdead
  obtain ⟨hcalm, hfull⟩ := hdead.calm_and_full hhandlers hs
  obtain ⟨t, ht, hsim⟩ := simulation hs
  have hinv := Served.Inv.of_reachable ht
  obtain ⟨taken, hwire⟩ := hsim.wire
  rw [hsim.running_eq hinv hwire hcalm] at hfull
  refine Nat.not_lt.2 hfull (hfew taken ⟨s.server.inFlight ++ s.incoming, ?_⟩ fun r hr hall =>
    (hsim.answered_of_complete hinv hwire hcalm hr hall).1)
  rw [hwire, List.append_assoc]

/-! ### A deadlock -/

theorem arrive_all (incoming : List TFrameId) (server : Server) :
    (traffic.system cfg).Steps ⟨incoming, server⟩ ⟨[], { server with socket := server.socket ++ incoming }⟩ := by
  induction incoming generalizing server with
  | nil =>
    rw [List.append_nil]
    exact .refl _
  | cons frame incoming ih =>
    have hrest := ih (server.arrive frame)
    rw [show (server.arrive frame).socket = server.socket ++ [frame] from rfl, List.append_assoc] at hrest
    exact .head (Step.arrives rfl) hrest

theorem serve_all {server server' : Server} (h : Server.Steps cfg server server') (incoming : List TFrameId) :
    (traffic.system cfg).Steps ⟨incoming, server⟩ ⟨incoming, server'⟩ :=
  Relation.ReflTransGen.lift (fun server => (⟨incoming, server⟩ : Receiving))
    (fun server server' (hstep : server.Step cfg server') => Step.serves hstep) _ _ h

/-- The first `n` frames of the wire were handled, and the others wait in the socket. -/
structure After (traffic : Traffic) (cfg : ServerConfig) (n : ℕ) (server : Server) : Prop where
  reachable : (traffic.system cfg).Reachable ⟨[], server⟩
  calm : server.Calm
  socket : server.socket = traffic.wire.drop n

theorem After.wire {n : ℕ} {server : Server} (h : traffic.After cfg n server) :
    traffic.wire = traffic.wire.take n ++ server.inFlight ++ [] := by
  rw [Server.inFlight, h.calm.idle, h.socket, List.append_nil]
  exact (List.take_append_drop n _).symm

theorem after_zero : traffic.After cfg 0 { Server.new with socket := traffic.wire } := by
  refine ⟨TransitionSystem.Reachable.steps (.start rfl) (arrive_all traffic.wire Server.new),
    ⟨rfl, rfl, fun k task htask => ?_⟩, rfl⟩
  cases htask

/-- One more frame is handled, if the stream is polled, and if the request that it completes can be answered. -/
theorem After.next {n : ℕ} {server : Server} (h : traffic.After cfg n server) (hn : n < traffic.wire.length)
    (hpending : traffic.pending (traffic.wire.take n) < cfg.serverTasks)
    (hanswerable : ∀ r ∈ traffic.requests, r.sentIn (traffic.wire.take (n + 1)) = r.frames → r.Answerable cfg) :
    ∃ server', traffic.After cfg (n + 1) server' := by
  obtain ⟨t, ht, hsim⟩ := simulation h.reachable
  have hinv := Served.Inv.of_reachable ht
  have hserver : server.Inv cfg := (show t.server = server from hsim.server) ▸ hinv.server
  rw [← hsim.running_eq hinv h.wire h.calm] at hpending
  obtain ⟨server', k, task, hsteps, hdel⟩ := Server.deliver hserver h.calm
    (h.socket.trans (List.drop_eq_getElem_cons hn)) hpending
  have hreach : (traffic.system cfg).Reachable ⟨[], server'⟩ := h.reachable.steps (serve_all hsteps [])
  cases hreading : task.phase.isReading with
  | true =>
    exact ⟨server', hreach, hdel.calm_of_reading h.calm (TaskPhase.eq_reading hreading), hdel.socket⟩
  | false =>
    -- the task has received its whole request
    obtain ⟨t', ht', hsim'⟩ := simulation hreach
    have hinv' := Served.Inv.of_reachable ht'
    have htask : t'.server.tasks[k]? = some task := hsim'.server ▸ hdel.isTask
    obtain ⟨q, hq, hid⟩ := hinv'.taskIds k task htask
    have hr := hsim'.mem k q hq
    have hwire : traffic.wire = traffic.wire.take (n + 1) ++ server'.inFlight ++ [] := by
      rw [Server.inFlight, hdel.idle, hdel.socket, List.append_nil]
      exact (List.take_append_drop (n + 1) _).symm
    have hreceived : q.request.sentIn (traffic.wire.take (n + 1)) = task.received := by
      rw [hsim'.sentIn_taken hinv' hwire hq, Served.mux_handedTo htask, Task.taken, hdel.queue, List.append_nil]
    have hall : task.received = q.request.frames := by
      by_contra hne
      rw [hdel.phase, (traffic.complete _ hr).reading (hinv'.received_le htask hq) hne] at hreading
      cases hreading
    obtain ⟨request, frames, hread, hresponds⟩ := hanswerable _ hr (hreceived.trans hall)
    have hphase : task.phase = .read request := by
      rw [hdel.phase, hall]
      exact hread
    rw [hid] at hresponds
    obtain ⟨server'', hsteps', hcalm, hsocket⟩ := hdel.answer h.calm hphase hresponds
    exact ⟨server'', hreach.steps (serve_all hsteps' []), hcalm, hsocket⟩

theorem complete_mono (hr : r ∈ traffic.requests) {earlier : List TFrameId} (hpre : taken <+: traffic.wire)
    (hearlier : earlier <+: taken) (hall : r.sentIn earlier = r.frames) : r.sentIn taken = r.frames := by
  have h₁ : r.sentIn earlier <+: r.sentIn taken := hearlier.filter _
  have h₂ : r.sentIn taken <+: r.sentIn traffic.wire := hpre.filter _
  rw [hall] at h₁
  rw [traffic.order r hr] at h₂
  exact h₂.eq_of_length (Nat.le_antisymm h₂.length_le h₁.length_le)

theorem After.unanswered {n : ℕ} {server : Server} (h : traffic.After cfg n server) (hr : r ∈ traffic.requests)
    (hpart : r.sentIn (traffic.wire.take n) ≠ r.frames) {k : ℕ} {task : Task} (htask : server.tasks[k]? = some task)
    (hid : task.id = r.id) : task.phase.isAnswered = false := by
  refine Bool.eq_false_iff.2 fun hanswered => hpart ?_
  obtain ⟨t, ht, hsim⟩ := simulation h.reachable
  have hinv := Served.Inv.of_reachable ht
  have htask' : t.server.tasks[k]? = some task := hsim.server ▸ htask
  obtain ⟨q, hq, hqid⟩ := hinv.taskIds k task htask'
  obtain rfl := traffic.eq_of_id_eq (hsim.mem k q hq) hr (hqid.trans hid)
  obtain ⟨request, frames, hphase⟩ := TaskPhase.eq_answered hanswered
  obtain ⟨hall, hqueue, -⟩ := hinv.received_all htask' hq (by rw [hphase]; rfl)
  rw [hsim.sentIn_taken hinv h.wire hq, Served.mux_handedTo htask', Task.taken, hqueue, List.append_nil, hall]

/-- If too many requests are open, the server can get there, and does not get further. -/
theorem deadlocked (hmany : ¬ traffic.FewOpen cfg) :
    ∃ s, (traffic.system cfg).Reachable s ∧ traffic.Deadlocked cfg s := by
  simp only [FewOpen, not_forall, Nat.not_lt] at hmany
  obtain ⟨taken, hpre, hanswerable, hpending⟩ := hmany
  have hexists : ∃ n, cfg.serverTasks ≤ traffic.pending (traffic.wire.take n) :=
    ⟨taken.length, by rw [← List.prefix_iff_eq_take.1 hpre]; exact hpending⟩
  obtain ⟨n, hn, hfirst⟩ : ∃ n, cfg.serverTasks ≤ traffic.pending (traffic.wire.take n) ∧
      ∀ m < n, traffic.pending (traffic.wire.take m) < cfg.serverTasks :=
    ⟨Nat.find hexists, Nat.find_spec hexists, fun m hm => Nat.not_le.1 (Nat.find_min hexists hm)⟩
  have hle : n ≤ taken.length := by
    by_contra hgt
    have hless := hfirst taken.length (Nat.not_le.1 hgt)
    rw [← List.prefix_iff_eq_take.1 hpre] at hless
    omega
  have hanswerable' : ∀ m ≤ n, ∀ r ∈ traffic.requests, r.sentIn (traffic.wire.take m) = r.frames →
      r.Answerable cfg := by
    intro m hm r hr hall
    refine hanswerable r hr (complete_mono hr hpre ?_ hall)
    rw [List.prefix_iff_eq_take.1 hpre]
    exact List.take_prefix_take_left (hm.trans hle)
  have hrun : ∀ m ≤ n, ∃ server, traffic.After cfg m server := by
    intro m hm
    induction m with
    | zero => exact ⟨_, after_zero⟩
    | succ m ih =>
      obtain ⟨server, hafter⟩ := ih (by omega)
      have hlen := hpre.length_le
      exact hafter.next (by omega) (hfirst m (by omega)) (hanswerable' (m + 1) hm)
  obtain ⟨server, hafter⟩ := hrun n (Nat.le_refl n)
  obtain ⟨t, ht, hsim⟩ := simulation hafter.reachable
  have hinv := Served.Inv.of_reachable ht
  have hrunning : cfg.serverTasks ≤ server.running := by
    rw [hsim.running_eq hinv hafter.wire hafter.calm]
    exact hn
  obtain ⟨r, hr, hopen⟩ := List.countP_pos_iff.1 (cfg.serverTasks_pos.trans_le hn)
  obtain ⟨-, hpart⟩ := of_decide_eq_true hopen
  exact ⟨⟨[], server⟩, hafter.reachable, hafter.calm.live,
    ⟨r, hr, nofun, fun k task htask hid => hafter.unanswered hr hpart htask hid⟩, hafter.calm.stuck hrunning⟩

/-- A deadlock is for good: when all frames have arrived, the whole system is stuck. -/
theorem Deadlocked.exists_stuck (h : traffic.Deadlocked cfg s) (hhandlers : ∃ handler, cfg.handlers handler)
    (hs : (traffic.system cfg).Reachable s) :
    ∃ s', (traffic.system cfg).Steps s s' ∧ traffic.Deadlocked cfg s' ∧ (traffic.system cfg).Stuck s' := by
  obtain ⟨hcalm, hfull⟩ := h.calm_and_full hhandlers hs
  obtain ⟨r, hr, -, hunanswered⟩ := h.unanswered
  have hstuck : ∀ server', ¬ Server.Step cfg { s.server with socket := s.server.socket ++ s.incoming } server' :=
    Server.Calm.stuck ⟨hcalm.live, hcalm.idle, hcalm.tasks⟩ hfull
  refine ⟨_, arrive_all s.incoming s.server, ⟨h.live, ⟨r, hr, nofun, hunanswered⟩, hstuck⟩, fun s' hstep => ?_⟩
  cases hstep with
  | arrives hincoming => cases hincoming
  | serves hstep => exact hstuck _ hstep

/-- When interleaved requests cannot block each other. -/
theorem deadlock_free_iff (traffic : Traffic) (cfg : ServerConfig) (hhandlers : ∃ handler, cfg.handlers handler) :
    (∀ s, (traffic.system cfg).Reachable s → ¬ traffic.Deadlocked cfg s) ↔ traffic.FewOpen cfg := by
  constructor
  · intro h
    by_contra hmany
    obtain ⟨s, hs, hdead⟩ := deadlocked hmany
    exact h s hs hdead
  · intro hfew s hs
    exact not_deadlocked hfew hhandlers hs

theorem fewOpen_of_length (h : traffic.requests.length < cfg.serverTasks) : traffic.FewOpen cfg := fun _ _ _ =>
  Nat.lt_of_le_of_lt List.countP_le_length h

/-- A single request. -/
def single (r : Request) (hcomplete : r.Complete) : Traffic where
  requests := [r]
  wire := r.frames
  ids := List.nodup_singleton _
  complete r' hr' := by rwa [List.mem_singleton.1 hr']
  order r' hr' := by
    rw [List.mem_singleton.1 hr']
    exact List.filter_eq_self.2 fun frame hframe => decide_eq_true (r.ids frame hframe)
  known frame hframe := ⟨r, List.mem_singleton_self r, r.ids frame hframe⟩

theorem exists_two_frames : ∃ r : Request, r.Complete ∧ r.frames.length = 2 := by
  obtain ⟨payload, rest, request, hpair⟩ := Served.readPhase_pair
  obtain ⟨hreading, hread⟩ := hpair 1
  exact ⟨.pair ⟨1, ⟨.callRequest, payload⟩⟩ ⟨1, ⟨.callRequestContinue, rest⟩⟩ rfl hreading, ⟨request, hread⟩, rfl⟩

/-- With tasks to spare, a request of two frames is answered. -/
theorem two_frames_pass : ∃ (traffic : Traffic) (cfg : ServerConfig), traffic.wire.length = 2 ∧
    ∀ s, (traffic.system cfg).Reachable s → ¬ traffic.Deadlocked cfg s := by
  obtain ⟨r, hcomplete, hlen⟩ := exists_two_frames
  let cfg : ServerConfig := ⟨4, 1, by omega, by omega, fun _ => True, fun _ => ""⟩
  exact ⟨single r hcomplete, cfg, hlen, (deadlock_free_iff (single r hcomplete) cfg
    ⟨⟨∅, fun _ => ""⟩, trivial⟩).2 (fewOpen_of_length (Nat.lt_of_sub_eq_succ rfl))⟩

/-- With one task, it blocks itself. -/
theorem two_frames_deadlock : ¬ ∀ (traffic : Traffic) (cfg : ServerConfig), (∃ handler, cfg.handlers handler) →
    ∀ s, (traffic.system cfg).Reachable s → ¬ traffic.Deadlocked cfg s := by
  intro h
  obtain ⟨r, hcomplete, hlen⟩ := exists_two_frames
  let cfg : ServerConfig := ⟨1, 1, Nat.one_pos, Nat.one_pos, fun _ => True, fun _ => ""⟩
  have hmany : ¬ (single r hcomplete).FewOpen cfg := by
    intro hfew
    have hfirst : r.sentIn (r.frames.take 1) = r.frames.take 1 :=
      List.filter_eq_self.2 fun frame hframe => decide_eq_true (r.ids frame (List.mem_of_mem_take hframe))
    have hpart : r.frames.take 1 ≠ r.frames := fun heq => by
      have := congrArg List.length heq
      rw [List.length_take, hlen] at this
      omega
    have hopen : r.IsOpenIn (r.frames.take 1) := by
      rw [Request.IsOpenIn, hfirst]
      refine ⟨fun hnil => ?_, hpart⟩
      have := congrArg List.length hnil
      rw [List.length_take, hlen] at this
      cases this
    have hless := hfew (r.frames.take 1) (List.take_prefix _ _) fun r' hr' hall => by
      rw [List.mem_singleton.1 hr', hfirst] at hall
      exact absurd hall hpart
    have hpos : 0 < (single r hcomplete).pending (r.frames.take 1) :=
      List.countP_pos_iff.2 ⟨r, List.mem_singleton_self r, decide_eq_true hopen⟩
    exact Nat.not_lt.2 hpos hless
  obtain ⟨s, hs, hdead⟩ := deadlocked hmany
  exact h _ cfg ⟨⟨∅, fun _ => ""⟩, trivial⟩ s hs hdead

end Traffic

end Tchannel
