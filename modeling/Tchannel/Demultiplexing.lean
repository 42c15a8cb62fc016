import Tchannel.ServerInvariant

/-!
# Requests that share a server connection

A peer sends any number of requests over one connection: it opens a request with its first frame, sends the
later ones when it likes, and uses an id again only when the request that had it has been answered
(`Served.Step`). The connection keeps such requests apart whatever the schedule: the tasks belong to the
requests in the order in which these were opened, and each receives the frames of its request and nothing
else (`Served.Inv`), so that what it reads is what it would read if the request were alone.
-/

namespace Tchannel
open Wire

/-- The frames of a request: it cannot be read from fewer of them. -/
structure Request where
  id : UInt32
  frames : List TFrameId
  frames_ne : frames ≠ []
  ids : ∀ frame ∈ frames, frame.id = id
  whole : ∀ n < frames.length, ∀ request, readPhase (frames.take n) ≠ .read request

/-- A request that was opened, with the number of its frames that were sent. -/
structure Sending where
  request : Request
  sent : Nat
  sent_pos : 0 < sent

/-- A server connection with its peer; the requests are in the order of opening. -/
structure Served where
  requests : List Sending
  server : Server

namespace Served

def start : Served := ⟨[], Server.new⟩

inductive Step (cfg : ServerConfig) (s : Served) : Served → Prop
  | opens {request frame}
      (hid : ∀ (k : ℕ) q, s.requests[k]? = some q → q.request.id = request.id → s.server.Answered k)
      (hframe : request.frames[0]? = some frame) :
      Step cfg s ⟨s.requests ++ [⟨request, 1, Nat.one_pos⟩], s.server.arrive frame⟩
  | sends {k : ℕ} {q frame} (hq : s.requests[k]? = some q) (hframe : q.request.frames[q.sent]? = some frame) :
      Step cfg s ⟨s.requests.set k ⟨q.request, q.sent + 1, Nat.succ_pos _⟩, s.server.arrive frame⟩
  | serves {server} (hstep : s.server.Step cfg server) : Step cfg s ⟨s.requests, server⟩

def system (cfg : ServerConfig) : TransitionSystem Served := ⟨(· = start), Step cfg⟩

/-- The requests as streams over the socket. -/
def mux (s : Served) : Mux UInt32 TFrameId where
  sent := s.requests.map fun q => (q.request.id, q.request.frames.take q.sent)
  handed := s.server.tasks.map Task.taken
  done := {k | s.server.Answered k}
  queue := s.server.inFlight

structure Inv (cfg : ServerConfig) (s : Served) : Prop where
  server : s.server.Inv cfg
  mux : s.mux.Inv TFrameId.id
  taskIds : ∀ (k : ℕ) task, s.server.tasks[k]? = some task →
    ∃ q, s.requests[k]? = some q ∧ q.request.id = task.id
  stopped : ∀ e, s.server.stopped = some e → ∃ task ∈ s.server.tasks, task.phase = .failed e

theorem inv_start (cfg : ServerConfig) : start.Inv cfg := by
  refine ⟨Server.inv_new, ?_, ?_, ?_⟩
  · have hmux : start.mux = Mux.empty := by
      have hdone : {k | Server.new.Answered k} = (∅ : Set ℕ) := by
        rw [Set.eq_empty_iff_forall_notMem]
        rintro k ⟨task, htask, -⟩
        cases htask
      simp only [Served.mux, start, hdone]
      rfl
    rw [hmux]
    exact Mux.inv_empty _
  · intro k task htask
    cases htask
  · intro e hstop
    cases hstop

section

variable {cfg : ServerConfig} {s s' : Served} {k : ℕ} {q : Sending} {task : Task} {frame : TFrameId}

theorem mux_sent (hq : s.requests[k]? = some q) :
    s.mux.sent[k]? = some (q.request.id, q.request.frames.take q.sent) := by
  rw [mux, List.getElem?_map, hq]
  rfl

theorem mux_handedTo (htask : s.server.tasks[k]? = some task) : s.mux.handedTo k = task.taken := by
  rw [Mux.handedTo, mux, List.getElem?_map, htask]
  rfl

theorem mux_open (hq : s.requests[k]? = some q) (hdone : ¬ s.server.Answered k) :
    s.mux.Open k q.request.id (q.request.frames.take q.sent) := ⟨mux_sent hq, hdone⟩

theorem of_mux_open {id : UInt32} {frames : List TFrameId} (h : s.mux.Open k id frames) :
    ∃ q, s.requests[k]? = some q ∧ q.request.id = id ∧ q.request.frames.take q.sent = frames ∧
      ¬ s.server.Answered k := by
  have hsent := h.sent
  rw [mux, List.getElem?_map] at hsent
  obtain ⟨q, hq, heq⟩ := Option.map_eq_some_iff.1 hsent
  obtain ⟨hid, hframes⟩ := Prod.mk.inj heq
  exact ⟨q, hq, hid, hframes, h.not_done⟩

namespace Inv

theorem tasks_length_le (h : s.Inv cfg) : s.server.tasks.length ≤ s.requests.length := by
  have hstarted := h.mux.started
  rw [Served.mux, List.length_map, List.length_map] at hstarted
  exact hstarted

theorem taken_le (h : s.Inv cfg) (htask : s.server.tasks[k]? = some task) (hq : s.requests[k]? = some q) :
    task.taken <+: q.request.frames.take q.sent := by
  by_cases hdone : s.server.Answered k
  · rw [← mux_handedTo htask, h.mux.complete k _ _ (mux_sent hq) hdone]
  · rw [← h.mux.conserved k _ _ (mux_open hq hdone), mux_handedTo htask]
    exact List.prefix_append _ _

theorem received_le (h : s.Inv cfg) (htask : s.server.tasks[k]? = some task)
    (hq : s.requests[k]? = some q) : task.received <+: q.request.frames :=
  (List.prefix_append _ _).trans ((h.taken_le htask hq).trans (List.take_prefix _ _))

/-- A task that has read its request has received all its frames, and there are no more. -/
theorem received_all (h : s.Inv cfg) (htask : s.server.tasks[k]? = some task) (hq : s.requests[k]? = some q)
    {request : RequestRead} (hread : task.phase.request = some request) :
    task.received = q.request.frames ∧ task.input.queue = [] ∧ q.request.frames.length ≤ q.sent := by
  have hphase := (h.server.tasks k task htask).reads request hread
  have hpre := h.received_le htask hq
  have hall : task.received = q.request.frames := by
    rcases Nat.lt_or_ge task.received.length q.request.frames.length with hlt | hge
    · rw [List.prefix_iff_eq_take.1 hpre] at hphase
      exact absurd hphase (q.request.whole _ hlt request)
    · exact hpre.eq_of_length (Nat.le_antisymm hpre.length_le hge)
  have hlen := (h.taken_le htask hq).length_le
  rw [Task.taken, hall, List.length_append, List.length_take] at hlen
  refine ⟨hall, List.length_eq_zero_iff.1 ?_, ?_⟩ <;> omega

theorem request_none (h : s.Inv cfg) (htask : s.server.tasks[k]? = some task) (hframe : frame ∈ s.server.inFlight)
    (hid : frame.id = task.id) (hdone : ¬ s.server.Answered k) : task.phase.request = none := by
  obtain ⟨q, hq, hqid⟩ := h.taskIds k task htask
  cases hread : task.phase.request with
  | none => rfl
  | some request =>
    obtain ⟨hall, hqueue, hsent⟩ := h.received_all htask hq hread
    have hcons := h.mux.conserved k _ _ (mux_open hq hdone)
    rw [mux_handedTo htask, Task.taken, hall, hqueue, List.append_nil, List.take_of_length_le hsent,
      List.append_right_eq_self, List.filter_eq_nil_iff] at hcons
    exact absurd (decide_eq_true (hid.trans hqid.symm)) (hcons frame hframe)

theorem sending_open (h : s.Inv cfg) (hlive : s.server.stopped = none)
    (hsending : s.server.dispatching = .sending frame k) :
    ∃ task q, s.server.tasks[k]? = some task ∧ s.requests[k]? = some q ∧ q.request.id = frame.id ∧
      task.phase = .reading ∧ ¬ s.server.Answered k := by
  have hl := h.server.live hlive
  obtain ⟨task, htask, htid, hreg⟩ := hl.registered _ _ (hl.sending frame k hsending)
  obtain ⟨q, hq, hqid⟩ := h.taskIds k task htask
  have hdone : ¬ s.server.Answered k := by
    rintro ⟨task', htask', hanswered⟩
    obtain rfl := Option.some.inj (htask.symm.trans htask')
    rw [Task.Inv.not_answered_of_registered hreg] at hanswered
    cases hanswered
  have hflight : frame ∈ s.server.inFlight := by
    rw [Server.inFlight, hsending]
    exact List.mem_append_left _ (List.mem_singleton_self _)
  rcases TaskPhase.request_eq_none (h.request_none htask hflight htid.symm hdone) with hphase | ⟨e, hphase⟩
  · exact ⟨task, q, htask, hq, hqid.trans htid, hphase, hdone⟩
  · rw [hphase] at hreg
    cases hreg

/-- A frame for which no sender was found is the first one of the next request. -/
theorem first_open (h : s.Inv cfg) (hlive : s.server.stopped = none)
    (hfirst : s.server.dispatching = .first frame) :
    ∃ q, s.requests[s.server.tasks.length]? = some q ∧ q.request.id = frame.id ∧
      ¬ s.server.Answered s.server.tasks.length := by
  have hl := h.server.live hlive
  have hlen : s.mux.handed.length = s.server.tasks.length := List.length_map _
  have hqueue : s.mux.queue = frame :: s.server.socket := by
    show s.server.inFlight = _
    rw [Server.inFlight, hfirst]
    rfl
  obtain ⟨frames, hopen⟩ := h.mux.next_starts hqueue (by
    intro j frames hlt hopen
    rw [hlen] at hlt
    obtain ⟨q, hq, hqid, -, hdone⟩ := of_mux_open hopen
    have htask : s.server.tasks[j]? = some s.server.tasks[j] := List.getElem?_eq_getElem hlt
    obtain ⟨q', hq', htid⟩ := h.taskIds j _ htask
    obtain rfl := Option.some.inj (hq.symm.trans hq')
    have hflight : frame ∈ s.server.inFlight := by
      rw [Server.inFlight, hfirst]
      exact List.mem_append_left _ (List.mem_singleton_self _)
    have hnone := h.request_none htask hflight (hqid.symm.trans htid) hdone
    rcases TaskPhase.request_eq_none hnone with hphase | ⟨e, hphase⟩
    · have hget := hl.routed j _ htask (by rw [hphase]; rfl)
      rw [← htid, hqid, hl.first frame hfirst] at hget
      cases hget
    · have hfail := hl.failed j _ htask
      rw [hphase] at hfail
      cases hfail)
  rw [hlen] at hopen
  obtain ⟨q, hq, hqid, -, hdone⟩ := of_mux_open hopen
  exact ⟨q, hq, hqid, hdone⟩

end Inv

/-! ### The steps -/

theorem map_set_of_eq {α β : Type} {f : α → β} {l : List α} {a b : α} (ha : l[k]? = some a) (hf : f b = f a) :
    (l.set k b).map f = l.map f := by
  obtain ⟨hlt, rfl⟩ := List.getElem?_eq_some_iff.1 ha
  rw [List.map_set, hf, ← List.getElem_map f (h := by rw [List.length_map]; exact hlt), List.set_getElem_self]

theorem mux_congr {requests : List Sending} {server server' : Server}
    (hflight : server'.inFlight = server.inFlight) (htasks : server'.tasks = server.tasks) :
    Served.mux ⟨requests, server'⟩ = Served.mux ⟨requests, server⟩ := by
  simp only [mux, Server.Answered, htasks, hflight]

theorem answered_set_iff {tasks : List Task} {task' : Task} (htask : tasks[k]? = some task)
    (hanswered : task'.phase.isAnswered = task.phase.isAnswered) (j : ℕ) :
    (∃ t, (tasks.set k task')[j]? = some t ∧ t.phase.isAnswered = true) ↔
      ∃ t, tasks[j]? = some t ∧ t.phase.isAnswered = true := by
  constructor
  · rintro ⟨t, ht, hans⟩
    rcases getElem?_set_cases ht with ⟨rfl, rfl⟩ | ⟨-, ht⟩
    · exact ⟨task, htask, hanswered ▸ hans⟩
    · exact ⟨t, ht, hans⟩
  · rintro ⟨t, ht, hans⟩
    rcases eq_or_ne k j with rfl | hne
    · obtain rfl := Option.some.inj (ht.symm.trans htask)
      exact ⟨task', List.getElem?_set_self (List.getElem?_eq_some_iff.1 htask).1, hanswered.trans hans⟩
    · exact ⟨t, (List.getElem?_set_ne hne).trans ht, hans⟩

theorem mux_setTask (task' : Task) {stopped : Option Stop} {frameDispatchers : FramesDispatcher}
    (htask : s.server.tasks[k]? = some task) (htaken : task'.taken = task.taken)
    (hanswered : task'.phase.isAnswered = task.phase.isAnswered) :
    Served.mux ⟨s.requests, { s.server with frameDispatchers, tasks := s.server.tasks.set k task', stopped }⟩ =
      s.mux := by
  have hdone : ∀ j, Server.Answered { s.server with
      frameDispatchers, tasks := s.server.tasks.set k task', stopped } j ↔ s.server.Answered j :=
    answered_set_iff htask hanswered
  simp only [mux, map_set_of_eq htask htaken, hdone]
  rfl

theorem mux_answer (task' : Task) {stopped : Option Stop} (htask : s.server.tasks[k]? = some task)
    (htaken : task'.taken = task.taken) (hanswered : task'.phase.isAnswered = true) :
    Served.mux ⟨s.requests, { s.server with tasks := s.server.tasks.set k task', stopped }⟩ = s.mux.close k := by
  have hdone : {j | Server.Answered { s.server with tasks := s.server.tasks.set k task', stopped } j} =
      insert k {j | s.server.Answered j} := by
    ext j
    constructor
    · rintro ⟨t, ht, hans⟩
      rcases getElem?_set_cases ht with ⟨rfl, -⟩ | ⟨-, ht⟩
      · exact Set.mem_insert _ _
      · exact Set.mem_insert_of_mem _ ⟨t, ht, hans⟩
    · intro hj
      rcases eq_or_ne k j with rfl | hne
      · exact ⟨task', List.getElem?_set_self (List.getElem?_eq_some_iff.1 htask).1, hanswered⟩
      · rcases hj with rfl | ⟨t, ht, hans⟩
        · exact absurd rfl hne
        · exact ⟨t, (List.getElem?_set_ne hne).trans ht, hans⟩
  simp only [mux, Mux.close, map_set_of_eq htask htaken, hdone]
  rfl

theorem mux_opens {request : Request} (hframe : request.frames[0]? = some frame) :
    Served.mux ⟨s.requests ++ [⟨request, 1, Nat.one_pos⟩], s.server.arrive frame⟩ =
      s.mux.openStream TFrameId.id frame := by
  have hfirst : request.frames.take 1 = [frame] := by
    rw [List.take_add_one, hframe]
    rfl
  have hid : frame.id = request.id := request.ids frame (List.mem_of_getElem? hframe)
  simp only [mux, Mux.openStream, List.map_append, List.map_cons, List.map_nil, hfirst, hid, Server.inFlight,
    Server.arrive, List.append_assoc]
  rfl

theorem mux_sends (hframe : q.request.frames[q.sent]? = some frame) :
    Served.mux ⟨s.requests.set k ⟨q.request, q.sent + 1, Nat.succ_pos _⟩, s.server.arrive frame⟩ =
      s.mux.send TFrameId.id k (q.request.frames.take q.sent) frame := by
  have hnext : q.request.frames.take (q.sent + 1) = q.request.frames.take q.sent ++ [frame] := by
    rw [List.take_add_one, hframe]
    rfl
  have hid : frame.id = q.request.id := q.request.ids frame (List.mem_of_getElem? hframe)
  simp only [mux, Mux.send, List.map_set, hnext, hid, Server.inFlight, Server.arrive, List.append_assoc]
  rfl

theorem mux_dispatched (htask : s.server.tasks[k]? = some task) :
    Served.mux ⟨s.requests, { s.server with
        dispatching := .idle,
        tasks := s.server.tasks.set k { task with input := task.input.push frame } }⟩ =
      s.mux.hand k frame s.server.socket := by
  have hdone : ∀ j, Server.Answered { s.server with
      dispatching := .idle,
      tasks := s.server.tasks.set k { task with input := task.input.push frame } } j ↔ s.server.Answered j :=
    answered_set_iff htask rfl
  have htaken : Task.taken { task with input := task.input.push frame } = s.mux.handedTo k ++ [frame] := by
    rw [mux_handedTo htask, Task.taken, Task.taken, Channel.push, List.append_assoc]
  simp only [mux, Mux.hand, List.map_set, htaken, hdone]
  rfl

theorem mux_started {frameDispatchers : FramesDispatcher} :
    Served.mux ⟨s.requests, { s.server with
        dispatching := .idle, frameDispatchers, tasks := s.server.tasks ++ [Task.new frame] }⟩ =
      s.mux.start frame s.server.socket := by
  have hdone : ∀ j, Server.Answered { s.server with
      dispatching := .idle, frameDispatchers, tasks := s.server.tasks ++ [Task.new frame] } j ↔
        s.server.Answered j := by
    intro j
    constructor
    · rintro ⟨t, ht, hans⟩
      rcases getElem?_concat_cases ht with ht | ⟨-, rfl⟩
      · exact ⟨t, ht, hans⟩
      · cases hans
    · rintro ⟨t, ht, hans⟩
      exact ⟨t, (List.getElem?_append_left (List.getElem?_eq_some_iff.1 ht).1).trans ht, hans⟩
  simp only [mux, Mux.start, List.map_append, hdone]
  rfl

namespace Inv

theorem taskIds_set (h : s.Inv cfg) {task' : Task} (htask : s.server.tasks[k]? = some task)
    (hid : task'.id = task.id) : ∀ (j : ℕ) t, (s.server.tasks.set k task')[j]? = some t →
      ∃ q, s.requests[j]? = some q ∧ q.request.id = t.id := by
  intro j t ht
  rcases getElem?_set_cases ht with ⟨rfl, rfl⟩ | ⟨-, ht⟩
  · rw [hid]
    exact h.taskIds j task htask
  · exact h.taskIds j t ht

theorem opens (h : s.Inv cfg) {request : Request}
    (hid : ∀ (k : ℕ) q, s.requests[k]? = some q → q.request.id = request.id → s.server.Answered k)
    (hframe : request.frames[0]? = some frame) :
    Inv cfg ⟨s.requests ++ [⟨request, 1, Nat.one_pos⟩], s.server.arrive frame⟩ := by
  refine ⟨h.server.arrive frame, ?_, ?_, h.stopped⟩
  · rw [mux_opens hframe]
    refine h.mux.openStream fun k frames hopen => ?_
    obtain ⟨q, hq, hqid, -, hdone⟩ := of_mux_open hopen
    exact hdone (hid k q hq (hqid.trans (request.ids frame (List.mem_of_getElem? hframe))))
  · intro k t ht
    obtain ⟨q, hq, hqid⟩ := h.taskIds k t ht
    exact ⟨q, (List.getElem?_append_left (List.getElem?_eq_some_iff.1 hq).1).trans hq, hqid⟩

theorem sends (h : s.Inv cfg) (hq : s.requests[k]? = some q)
    (hframe : q.request.frames[q.sent]? = some frame) :
    Inv cfg ⟨s.requests.set k ⟨q.request, q.sent + 1, Nat.succ_pos _⟩, s.server.arrive frame⟩ := by
  have hlt : q.sent < q.request.frames.length := (List.getElem?_eq_some_iff.1 hframe).1
  have hdone : ¬ s.server.Answered k := by
    -- an answered request has no frames left to send
    rintro ⟨t, ht, hans⟩
    obtain ⟨request, frames, hphase⟩ := TaskPhase.eq_answered hans
    obtain ⟨-, -, hsent⟩ := h.received_all ht hq (by rw [hphase]; rfl)
    omega
  refine ⟨h.server.arrive frame, ?_, ?_, h.stopped⟩
  · rw [mux_sends hframe]
    refine h.mux.send ?_
    have hopen := mux_open hq hdone
    rw [← q.request.ids frame (List.mem_of_getElem? hframe)] at hopen
    exact hopen
  · intro j t ht
    obtain ⟨q', hq', hqid⟩ := h.taskIds j t ht
    rcases eq_or_ne k j with rfl | hne
    · obtain rfl := Option.some.inj (hq.symm.trans hq')
      exact ⟨_, List.getElem?_set_self (List.getElem?_eq_some_iff.1 hq).1, hqid⟩
    · exact ⟨q', (List.getElem?_set_ne hne).trans hq', hqid⟩

/-- The streams move with the server. -/
theorem serves_mux (h : s.Inv cfg) {server : Server} (hstep : s.server.Step cfg server) :
    (Served.mux ⟨s.requests, server⟩).Inv TFrameId.id := by
  obtain ⟨hlive, hmove⟩ := hstep
  cases hmove with
  | @next frame socket htasks hidle hsocket =>
    have hflight : Server.inFlight { s.server with socket, dispatching := s.server.lookup frame } =
        s.server.inFlight := by
      rw [Server.inFlight, Server.inFlight, Server.lookup_frames, hidle, hsocket]
      rfl
    rw [mux_congr hflight rfl]
    exact h.mux
  | @send frame k task htasks hsending htask hready =>
    obtain ⟨task', q, htask', hq, hqid, -, hdone⟩ := h.sending_open hlive hsending
    rw [mux_dispatched htask]
    have hopen := mux_open hq hdone
    rw [hqid] at hopen
    refine h.mux.hand ?_ hopen ?_
    · show s.server.inFlight = _
      rw [Server.inFlight, hsending]
      rfl
    · exact Nat.lt_of_lt_of_eq (List.getElem?_eq_some_iff.1 htask).1 (List.length_map _).symm
  | sendFails => exact h.mux
  | @first frame htasks hfirst hnew =>
    obtain ⟨q, hq, hqid, hdone⟩ := h.first_open hlive hfirst
    rw [mux_started]
    have hopen := mux_open hq hdone
    rw [hqid, ← show s.mux.handed.length = s.server.tasks.length from List.length_map _] at hopen
    refine h.mux.start ?_ hopen
    show s.server.inFlight = _
    rw [Server.inFlight, hfirst]
    rfl
  | firstFails => exact h.mux
  | @receive k task frame queue htask hphase hqueue =>
    rw [Server.update, mux_setTask _ htask (Task.taken_receive hqueue)]
    · exact h.mux
    · rw [hphase]
      rcases readPhase_cases (task.received ++ [frame]) with hread | ⟨request, hread⟩ | ⟨e, hread⟩ <;>
        simp only [Task.receive, hread] <;> rfl
  | @deregister k task request hlock htask hphase =>
    rw [mux_setTask { task with phase := .deregistered request } htask rfl (by rw [hphase]; rfl)]
    exact h.mux
  | @reply k task request response htask hphase hresponse =>
    cases response with
    | error e =>
      rw [Server.update, mux_setTask (task.reply request (.error e)) htask rfl (by rw [hphase]; rfl)]
      exact h.mux
    | ok frames =>
      obtain ⟨q, hq, -⟩ := h.taskIds k task htask
      obtain ⟨hall, hqueue, hsent⟩ := h.received_all htask hq (by rw [hphase]; rfl)
      rw [Server.update, mux_answer (task.reply request (.ok frames)) htask rfl rfl]
      refine h.mux.close ?_ (mux_sent hq) ?_
      · exact Nat.lt_of_lt_of_eq (List.getElem?_eq_some_iff.1 htask).1 (List.length_map _).symm
      · rw [mux_handedTo htask, Task.taken, hall, hqueue, List.append_nil, List.take_of_length_le hsent]

theorem serves_taskIds (h : s.Inv cfg) {server : Server} (hstep : s.server.Step cfg server) :
    ∀ (k : ℕ) task, server.tasks[k]? = some task → ∃ q, s.requests[k]? = some q ∧ q.request.id = task.id := by
  obtain ⟨hlive, hmove⟩ := hstep
  cases hmove with
  | next => exact h.taskIds
  | send _ _ htask => exact h.taskIds_set htask rfl
  | sendFails => exact h.taskIds
  | @first frame htasks hfirst hnew =>
    intro j t ht
    rcases getElem?_concat_cases ht with ht | ⟨rfl, rfl⟩
    · exact h.taskIds j t ht
    · obtain ⟨q, hq, hqid, -⟩ := h.first_open hlive hfirst
      exact ⟨q, hq, hqid⟩
  | firstFails => exact h.taskIds
  | receive htask => exact h.taskIds_set htask rfl
  | deregister _ htask => exact h.taskIds_set htask rfl
  | reply htask => exact h.taskIds_set htask rfl

theorem serves_stopped (h : s.Inv cfg) {server : Server} (hstep : s.server.Step cfg server) :
    ∀ e, server.stopped = some e → ∃ task ∈ server.tasks, task.phase = .failed e := by
  obtain ⟨hlive, hmove⟩ := hstep
  have hnostop : ∀ e, s.server.stopped ≠ some e := fun e => by rw [hlive]; exact nofun
  intro e hstop
  cases hmove with
  | next => exact absurd hstop (hnostop e)
  | send => exact absurd hstop (hnostop e)
  | @sendFails frame k task htasks hsending htask hgone =>
    -- the receiver of a task that still gets frames is there
    obtain ⟨task', q, htask', -, -, hphase, -⟩ := h.sending_open hlive hsending
    obtain rfl := Option.some.inj (htask.symm.trans htask')
    rw [(h.server.tasks k task htask).alive, hphase] at hgone
    cases hgone
  | first => exact absurd hstop (hnostop e)
  | @firstFails frame k htasks hfirst hold =>
    rw [(h.server.live hlive).first frame hfirst] at hold
    cases hold
  | deregister => exact absurd hstop (hnostop e)
  | @receive k task frame queue htask hphase hqueue =>
    refine ⟨task.receive frame queue, List.mem_of_getElem?
      (List.getElem?_set_self (List.getElem?_eq_some_iff.1 htask).1), ?_⟩
    exact TaskPhase.failure_eq_some hstop
  | @reply k task request response htask hphase hresponse =>
    refine ⟨task.reply request response, List.mem_of_getElem?
      (List.getElem?_set_self (List.getElem?_eq_some_iff.1 htask).1), ?_⟩
    exact TaskPhase.failure_eq_some hstop

theorem serves (h : s.Inv cfg) {server : Server} (hstep : s.server.Step cfg server) :
    Inv cfg ⟨s.requests, server⟩ :=
  ⟨h.server.step hstep, h.serves_mux hstep, h.serves_taskIds hstep, h.serves_stopped hstep⟩

theorem step (h : s.Inv cfg) (hstep : Step cfg s s') : s'.Inv cfg := by
  cases hstep with
  | opens hid hframe => exact h.opens hid hframe
  | sends hq hframe => exact h.sends hq hframe
  | serves hstep => exact h.serves hstep

theorem of_reachable (h : (system cfg).Reachable s) : s.Inv cfg :=
  h.invariant (fun _ hinit => hinit ▸ inv_start cfg) (fun _ _ _ hinv hstep => hinv.step hstep)

end Inv

end

end Served

end Tchannel
