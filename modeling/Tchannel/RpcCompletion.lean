import Tchannel.ClientOutcomes
import Tchannel.Deadlock
import Tchannel.OwnAnswers
import Tchannel.RpcCalls

/-!
# Where a connection comes to rest

A connection comes to rest when neither end can move. While the server is there and has a place for each call
that has not read its response, this is only when every call has returned (`RpcConnection.Rests.returned`): else
all that was sent has been dispatched, so that the task of a call that waits has its whole request and has
answered it, and the call has received the whole answer.
-/

namespace Tchannel
open Wire

/-! ### Whole messages -/

/-- All frames of a call are enough to read a request, or to see that they are none. -/
theorem Operation.Used.readPhase_ne {operation : Operation} {frames : List TFrame} (hused : operation.Used)
    (h : operation.frames = .ok frames) (id : UInt32) : readPhase (frames.map (TFrameId.mk id)) ≠ .reading := by
  cases hused with
  | ping =>
    obtain rfl := Except.ok.inj h
    intro hreading
    cases hreading
  | send exchange =>
    obtain ⟨REQ, RES, _, _, self, message, order, hframes, -⟩ := exchange.sends
    obtain ⟨margs, -, hcut⟩ := SubChannel.createFrames_eq_ok.1 (hframes.symm.trans h)
    obtain ⟨args, hread⟩ := RequestFragmenter.read_createFrames hcut id false
    rw [readPhase, hread]
    intro hreading
    cases hreading

theorem Operation.Used.eq_send {operation : Operation} {frames : List TFrame} (hused : operation.Used)
    (h : operation.frames = .ok frames) {id : UInt32} {request : RequestRead}
    (hread : readPhase (frames.map (TFrameId.mk id)) = .read request) : ∃ exchange, operation = .send exchange := by
  cases hused with
  | ping =>
    obtain rfl := Except.ok.inj h
    cases hread
  | send exchange => exact ⟨exchange, rfl⟩

theorem Operation.reads_answer {cfg : ServerConfig} {id : UInt32} {request : RequestRead} {answer : List TFrameId}
    (exchange : Exchange) (h : Server.Responds cfg id request (.ok answer)) :
    ∃ result : TResult Unit, (Operation.send exchange).reads answer = result.mapError .err := by
  obtain ⟨REQ, RES, _, _, self, message, order, -, hread⟩ := exchange.sends
  obtain ⟨handler, order', -, hrespond⟩ := h
  exact (receiveFrom_iff hread answer).2 (FrameHandler.respond_reads RES hrespond)

theorem Server.Step.polled {cfg : ServerConfig} {s s' : Server} (h : s.Step cfg s') :
    s'.dispatching = s.dispatching ∨ s.running < cfg.serverTasks := by
  obtain ⟨-, hmove⟩ := h
  cases hmove with
  | next htasks _ _ => exact .inr htasks
  | send htasks _ _ _ => exact .inr htasks
  | sendFails htasks _ _ _ => exact .inr htasks
  | first htasks _ _ => exact .inr htasks
  | firstFails htasks _ _ => exact .inr htasks
  | receive _ _ _ => exact .inl rfl
  | deregister _ _ _ => exact .inl rfl
  | reply _ _ _ => exact .inl rfl

namespace RpcConnection

variable {cfg : RpcConfig} {s : RpcConnection} {k : ℕ} {call : ClientCall}

/-- The client has done what it can do without the server. -/
structure ClientDone (s : RpcConnection) : Prop where
  idle : s.client.receiver = .idle
  written : s.client.outgoing.queue = []
  responses : s.responses = []
  calls : ∀ (k : ℕ) call, s.client.calls[k]? = some call →
    (call.phase = .receiving ∧ call.input.queue = []) ∨ call.phase = .panicked ∨ ∃ result, call.phase = .returned result

/-- A call for which a frame has arrived has sent all of its own. -/
theorem sent_of_arrived (hinv : s.Inv cfg) (hlen : s.client.calls.length ≤ 2 ^ 32) (hk : 1 ≤ k)
    (hcall : s.client.calls[k]? = some call) (hne : call.arrived s.client.incoming ≠ []) (frame : TFrame)
    (frames : List TFrame) : call.phase ≠ .sending (frame :: frames) := by
  intro hsending
  obtain ⟨j, task, answer, htask, ⟨hid, all, request, hall, hreceived, -, hphase, -⟩, -⟩ :=
    hinv.answerOf_arrived hlen hk hcall hne
  obtain ⟨reached, t, hreach, hsim⟩ := hinv.served
  have hserved := Served.Inv.of_reachable hreach
  rw [← hsim.server] at htask
  obtain ⟨q, hq, hqid⟩ := hserved.taskIds j task htask
  obtain ⟨hreceived', -, hle⟩ := hserved.received_all htask hq (by rw [hphase]; rfl)
  rw [← hreceived', hreceived, List.length_map, hsim.sent j q hq, hqid, hid] at hle
  -- all frames have reached the server, though one has not been sent
  obtain ⟨all', hall', hsplit⟩ := (hinv.sends.calls k call hcall).sending _ hsending
  obtain rfl := Except.ok.inj (hall.symm.trans hall')
  obtain ⟨lost, hwritten, -⟩ := hsim.written
  have hlength := congrArg List.length hsplit
  rw [ClientConnection.sentFrames, hwritten, framesOf_append, framesOf_append, framesOf_append] at hlength
  simp only [List.length_append, List.length_map, List.length_cons] at hlength
  omega

theorem ping_unanswered (hanswered : Answered cfg s) (hcalls : s.Calls) (hcall : s.client.calls[k]? = some call)
    (hk : 1 ≤ k) (hone : call.operation.isSendOne = true) : call.received = [] := by
  by_contra hne
  obtain ⟨j, task, answer, -, ⟨-, frames, request, hframes, hreceived, hread, -⟩, -⟩ :=
    hanswered.own k call hk hcall hne
  rw [hreceived] at hread
  obtain ⟨exchange, hop⟩ := (hcalls.used k call hk hcall).eq_send hframes hread
  rw [hop] at hone
  cases hone

/-- The client cannot move on its own. -/
def ClientRests (cfg : RpcConfig) (s : RpcConnection) : Prop :=
  ∀ client, s.client.Step cfg.bufferSize client → ¬ s.client.Inside client

namespace ClientRests

theorem acts (h : ClientRests cfg s) (client : ClientConnection) (hcalls : client.calls.length = s.client.calls.length)
    (hincoming : client.incoming = s.client.incoming) (hqueue : s.client.outgoing.queue <+: client.outgoing.queue)
    (hsender : client.outgoing.receiverAlive = s.client.outgoing.receiverAlive) :
    ¬ s.client.Step cfg.bufferSize client :=
  fun hstep => h client hstep ⟨hcalls, hincoming, hqueue, hsender⟩

theorem runs (h : ClientRests cfg s) (hcall : s.client.calls[k]? = some call) {call' : ClientCall} (outgoing : Channel)
    (hqueue : s.client.outgoing.queue <+: outgoing.queue)
    (hsender : outgoing.receiverAlive = s.client.outgoing.receiverAlive) :
    ¬ call.Runs cfg.bufferSize (s.client.pendingIds.get call.id ≠ some k) s.client.outgoing call' outgoing :=
  fun hrun => h.acts { s.client with outgoing, calls := s.client.calls.set k call' } List.length_set rfl hqueue hsender
    (.runs hcall hrun)

variable (h : ClientRests cfg s)

include h

/-- What the phase of a call can be, but for the steps that need the write lock. -/
theorem call_phase (halive : s.client.outgoing.receiverAlive = true) (hcall : s.client.calls[k]? = some call) :
    call.phase = .allocated ∨ call.phase.isClosing = true ∨
      (∃ frame frames, call.phase = .sending (frame :: frames) ∧ s.client.outgoing.queue ≠ []) ∨
      (call.phase = .receiving ∧ call.input.queue = []) ∨ call.phase = .panicked ∨
      ∃ result, call.phase = .returned result := by
  cases hphase : call.phase with
  | allocated => exact .inl rfl
  | registered => exact absurd (.creates hphase) (h.runs hcall _ (List.prefix_refl _) rfl)
  | sending frames =>
    cases frames with
    | nil => exact absurd (.sent hphase) (h.runs hcall _ (List.prefix_refl _) rfl)
    | cons frame frames =>
      refine .inr (.inr (.inl ⟨frame, frames, rfl, fun hempty => ?_⟩))
      have hready : s.client.outgoing.Ready cfg.bufferSize := ⟨halive, by rw [hempty]; exact cfg.bufferSize_pos⟩
      exact absurd (.sends hphase hready)
        (h.runs hcall (s.client.outgoing.push ⟨call.id, frame⟩) (List.prefix_append _ _) rfl)
  | receiving =>
    cases hqueue : call.input.queue with
    | nil => exact .inr (.inr (.inr (.inl ⟨rfl, rfl⟩)))
    | cons frame queue => exact absurd (.receives hphase hqueue) (h.runs hcall _ (List.prefix_refl _) rfl)
  | closing result again => exact .inr (.inl rfl)
  | closingAgain result => exact .inr (.inl rfl)
  | returned result => exact .inr (.inr (.inr (.inr (.inr ⟨result, rfl⟩))))
  | panicked => exact .inr (.inr (.inr (.inr (.inl rfl))))

theorem idle (hinv : s.Inv cfg) (hlen : s.client.calls.length ≤ 2 ^ 32) (hcalls : s.Calls)
    (halive : s.client.outgoing.receiverAlive = true) : s.client.receiver = .idle := by
  cases hreceiver : s.client.receiver with
  | idle => rfl
  | sending frame k =>
    exfalso
    have hclient := ClientConnection.Inv.of_reachable hinv.client
    have hown := hclient.sending frame k hreceiver
    obtain ⟨call, hcall, hid, hopen⟩ := hclient.registered _ _ hown
    rw [← hid] at hown
    have hreads := ClientConnection.Reads.of_reachable hinv.client k call hcall
    cases hlistens : call.input.receiverAlive with
    | false =>
      exact h.acts { s.client with receiver := .idle } rfl rfl (List.prefix_refl _) rfl
        (.deliverFails hreceiver hcall hlistens)
    | true =>
      rcases Nat.lt_or_ge call.input.queue.length cfg.bufferSize with hlt | hfull
      · exact h.acts { s.client with
          receiver := .idle, calls := s.client.calls.set k { call with input := call.input.push frame } }
          List.length_set rfl (List.prefix_refl _) rfl (.delivers hreceiver hcall ⟨hlistens, hlt⟩)
      -- the channel is full: the call reads, or it is a ping, which gets no frames
      · have hnever : call.phase.isReading = false → call.phase.isClosing = false → False := by
          intro hreading hclosing
          rcases hreads.listens hlistens with hreads' | hcloses
          · rw [hreads'] at hreading
            cases hreading
          · rw [hcloses] at hclosing
            cases hclosing
        have hk : 1 ≤ k := by
          refine Nat.one_le_iff_ne_zero.2 ?_
          rintro rfl
          obtain ⟨first, result, hfirst, -, -, hphase⟩ := hcalls.handshake
          rw [← Option.some.inj (hcall.symm.trans hfirst)] at hphase
          exact hnever (by rw [hphase]; rfl) (by rw [hphase]; rfl)
        rcases h.call_phase halive hcall with hphase | hclosing | ⟨frame', frames, hsending, -⟩ | ⟨-, hnil⟩ | hphase |
          ⟨result, hphase⟩
        · have hsome := hopen.1
          rw [(hclient.calls k call hcall).allocated hphase] at hsome
          cases hsome
        · have hone : call.operation.isSendOne = true := by
            by_contra hsend
            rw [hreads.send (Bool.eq_false_iff.2 hsend) hclosing] at hlistens
            cases hlistens
          have hlength := hreads.after hone hclosing hown
          rw [ping_unanswered (hinv.answered hlen) hcalls hcall hk hone] at hlength
          cases hlength
        · refine sent_of_arrived hinv hlen hk hcall ?_ frame' frames hsending
          rw [← hclient.conserved k call hcall hown hlistens, ClientConnection.inFlight, hreceiver,
            FrameReceiver.framesFor, if_pos rfl]
          exact List.append_ne_nil_of_right_ne_nil _ (List.cons_ne_nil _ _)
        · rw [hnil] at hfull
          exact Nat.not_le.2 cfg.bufferSize_pos hfull
        · exact hnever (by rw [hphase]; rfl) (by rw [hphase]; rfl)
        · exact hnever (by rw [hphase]; rfl) (by rw [hphase]; rfl)

end ClientRests

namespace Rests

variable (h : Rests cfg s)

include h

theorem client : ClientRests cfg s := fun _ hstep hinside => h _ (.acts hstep hinside)

theorem responses_nil (hidle : s.client.receiver = .idle) : s.responses = [] := by
  cases hresponses : s.responses with
  | nil => rfl
  | cons frame responses => exact absurd (.arrives hidle hresponses) (h _)

/-- When the server is gone, `FrameSender` has nothing left to write. -/
theorem written_of_gone (hgone : s.server.stopped ≠ none) : s.client.outgoing.queue = [] := by
  cases hqueue : s.client.outgoing.queue with
  | nil => rfl
  | cons frame queue => exact absurd (.loses hgone hqueue) (h _)

theorem clientDone (hidle : s.client.receiver = .idle) (halive : s.client.outgoing.receiverAlive = true)
    (hwritten : s.client.outgoing.queue = []) : s.ClientDone := by
  have hlock : s.client.receiver.holdsReadLock = false := by
    rw [hidle]
    rfl
  refine ⟨hidle, hwritten, h.responses_nil hidle, fun k call hcall => ?_⟩
  rcases h.client.call_phase halive hcall with hphase | hclosing | ⟨-, -, -, hne⟩ | hdone
  · exact absurd (.registers hlock hcall hphase)
      (h.client.acts (s.client.register k call) List.length_set rfl (List.prefix_refl _) rfl)
  · cases hphase : call.phase with
    | closing result again =>
      exact absurd (.closes hlock hcall hphase) (h.client.acts { s.client with
        pendingIds := s.client.pendingIds.deregister call.id
        calls := s.client.calls.set k (call.close s.client.incoming.length result again) }
        List.length_set rfl (List.prefix_refl _) rfl)
    | closingAgain result =>
      exact absurd (.closesAgain hlock hcall hphase) (h.client.acts { s.client with
        pendingIds := s.client.pendingIds.deregister call.id
        calls := s.client.calls.set k (call.returns result) }
        List.length_set rfl (List.prefix_refl _) rfl)
    | allocated => rw [hphase] at hclosing; cases hclosing
    | registered => rw [hphase] at hclosing; cases hclosing
    | sending frames => rw [hphase] at hclosing; cases hclosing
    | receiving => rw [hphase] at hclosing; cases hclosing
    | returned result => rw [hphase] at hclosing; cases hclosing
    | panicked => rw [hphase] at hclosing; cases hclosing
  · exact absurd hwritten hne
  · exact hdone

/-! ### The server -/

theorem passed_all (hresponses : s.responses = []) (hlive : s.server.stopped = none) {task : Task}
    (htask : s.server.tasks[k]? = some task) : task.phase.answer.length ≤ s.passed k := by
  by_contra hlt
  cases hanswered : task.phase.isAnswered with
  | false =>
    rw [TaskPhase.answer_eq_nil hanswered] at hlt
    exact hlt (Nat.zero_le _)
  | true =>
    obtain ⟨request, frames, hphase⟩ := TaskPhase.eq_answered hanswered
    rw [hphase] at hlt
    refine h _ (.passes hlive htask hphase (List.getElem?_eq_getElem (Nat.not_le.1 hlt)) ?_)
    rw [hresponses]
    exact cfg.room_nil

theorem busy_eq (hresponses : s.responses = []) (hlive : s.server.stopped = none) : s.server.busy s.passed = s.server.running := by
  have hfst : s.server.running = (s.server.tasks.zipIdx.map Prod.fst).countP (·.phase.isRunning) := by
    rw [List.zipIdx_map_fst, Server.running]
  rw [hfst, List.countP_map, Server.busy]
  refine List.countP_congr fun ⟨task, k⟩ hmem => ?_
  have hpassed := h.passed_all hresponses hlive (List.mem_zipIdx_iff_getElem?.1 hmem)
  simp [Nat.not_lt.2 hpassed]

/-- The server waits, and what was sent to it has been dispatched if there is a place for it. -/
theorem calm (hinv : s.Inv cfg) (hresponses : s.responses = []) (hlive : s.server.stopped = none)
    (hhandlers : ∃ handler, cfg.server.handlers handler) : s.server.Calm ∧
      (s.server.running < cfg.server.serverTasks → s.server.socket = [] ∧ s.requests = []) := by
  have hbusy := h.busy_eq hresponses hlive
  have hstuck : ∀ server, ¬ s.server.Step cfg.server server := by
    intro server hstep
    refine h _ (.serves hstep ?_)
    rw [hbusy]
    exact hstep.polled
  obtain ⟨reached, t, hreach, hsim⟩ := hinv.served
  have hcalm := Server.calm_of_stuck (hsim.server ▸ (Served.Inv.of_reachable hreach).server) hhandlers hlive hstuck
  refine ⟨hcalm, fun hplace => ?_⟩
  have hsocket : s.server.socket = [] := by
    cases hsocket : s.server.socket with
    | nil => rfl
    | cons frame socket => exact absurd ⟨hlive, .next hplace hcalm.idle hsocket⟩ (hstuck _)
  refine ⟨hsocket, ?_⟩
  cases hrequests : s.requests with
  | nil => rfl
  | cons frame requests =>
    exact absurd (.reaches hlive ⟨hcalm.idle, hsocket, hbusy.trans_lt hplace⟩ hrequests) (h _)

theorem written_of_read (hlive : s.server.stopped = none) (hrequests : s.requests = []) :
    s.client.outgoing.queue = [] := by
  cases hqueue : s.client.outgoing.queue with
  | nil => rfl
  | cons frame queue =>
    refine absurd (.writes hlive hqueue ?_) (h _)
    rw [hrequests]
    exact cfg.room_nil

end Rests

theorem answered_of_read (hinv : s.Inv cfg) (hlen : s.client.calls.length ≤ 2 ^ 32)
    (halive : s.client.outgoing.receiverAlive = true) (hk : 1 ≤ k) (hcall : s.client.calls[k]? = some call)
    (hsent : framesOf call.id (s.client.sentFrames s.written) ≠ []) (hread : call.phase.isReading = false) :
    ∃ (j : ℕ) (task : Task), s.server.tasks[j]? = some task ∧ task.id = call.id ∧ task.phase.isAnswered = true := by
  obtain ⟨frames, hframes, -⟩ := (hinv.sends.calls k call hcall).begins hsent
  have hne := (ClientConnection.outcomes hinv.client hlen halive k call hcall).received_ne hread hframes
  obtain ⟨j, task, answer, htask, hanswer, -⟩ := (hinv.answered hlen).own k call hk hcall hne
  obtain ⟨frames, request, -, -, -, hphase, -⟩ := hanswer.sent
  exact ⟨j, task, htask, hanswer.id, by rw [hphase]; rfl⟩

/-- The tasks that run are those of calls that have not read their response. -/
theorem running_le (hinv : s.Inv cfg) (hlen : s.client.calls.length ≤ 2 ^ 32) (hcalls : s.Calls)
    (halive : s.client.outgoing.receiverAlive = true) :
    s.server.running ≤ s.client.calls.countP (·.phase.isReading) := by
  have hnodup : (s.server.tasks.map Task.id).Nodup := by
    refine List.nodup_iff_getElem?_ne_getElem?.2 fun i j hij hj heq => ?_
    rw [List.length_map] at hj
    have hp := List.getElem?_eq_getElem (hij.trans hj)
    have hq := List.getElem?_eq_getElem hj
    rw [List.getElem?_map, List.getElem?_map, hp, hq] at heq
    exact Nat.ne_of_lt hij (hinv.task_unique hp hq (Option.some.inj heq))
  refine countP_le_of_keys Task.id ClientCall.id hnodup fun task hmem hrunning => ?_
  obtain ⟨j, htask⟩ := List.getElem?_of_mem hmem
  obtain ⟨k, call, hcall, hid, hsent⟩ := hinv.task_call htask
  refine ⟨call, List.mem_of_getElem? hcall, ?_, hid⟩
  by_contra hread
  obtain ⟨i, task', htask', hid', hanswered⟩ :=
    answered_of_read hinv hlen halive (hcalls.pos_of_task hinv htask hcall hid) hcall hsent (Bool.eq_false_iff.2 hread)
  obtain rfl := hinv.task_unique htask htask' (hid.symm.trans hid'.symm)
  obtain rfl := Option.some.inj (htask.symm.trans htask')
  obtain ⟨request, frames, hphase⟩ := TaskPhase.eq_answered hanswered
  rw [hphase] at hrunning
  cases hrunning

theorem task_of_sent (hinv : s.Inv cfg) (hlen : s.client.calls.length ≤ 2 ^ 32) (hlive : s.server.stopped = none)
    (hflight : s.client.outgoing.queue = [] ∧ s.requests = [] ∧ s.server.inFlight = [])
    (hcall : s.client.calls[k]? = some call) {frames : List TFrame} (hframes : call.operation.frames = .ok frames)
    (hsent : framesOf call.id (s.client.sentFrames s.written) = frames.map (TFrameId.mk call.id)) :
    ∃ (j : ℕ) (task : Task), s.server.tasks[j]? = some task ∧ task.id = call.id ∧
      task.taken = frames.map (TFrameId.mk call.id) := by
  obtain ⟨hqueue, hrequests, hdispatched⟩ := hflight
  obtain ⟨reached, t, hreach, hsim⟩ := hinv.served
  have hserved := Served.Inv.of_reachable hreach
  obtain ⟨lost, hwritten, hlost⟩ := hsim.written
  rw [ClientConnection.sentFrames, hqueue, List.append_nil, hwritten, hrequests, hlost hlive, List.append_nil,
    List.append_nil] at hsent
  have hne : frames.map (TFrameId.mk call.id) ≠ [] := by simpa using Operation.frames_ne_nil hframes
  -- the request that the call has opened
  obtain ⟨frame, hframe⟩ := List.exists_mem_of_ne_nil _ (hsent ▸ hne)
  obtain ⟨hmem, hfid⟩ := mem_framesOf.1 hframe
  obtain ⟨j, q, hq, hqid⟩ := hsim.opened frame hmem
  obtain ⟨i, c, frames', hc, hframes', hcid, hqframes⟩ := hsim.request j q hq
  obtain rfl := (ClientConnection.Inv.of_reachable hinv.client).eq_of_id_eq hlen hc hcall
    (hcid.symm.trans (hqid.trans hfid))
  obtain rfl := Option.some.inj (hc.symm.trans hcall)
  obtain rfl := Except.ok.inj (hframes.symm.trans hframes')
  have hall : q.request.frames.take q.sent = frames.map (TFrameId.mk c.id) := by
    rw [hsim.sent j q hq, hqid, hfid, hsent, hqframes, List.take_length]
  have hhanded : t.mux.handedTo j = frames.map (TFrameId.mk c.id) := by
    by_cases hdone : t.server.Answered j
    · rw [← hall]
      exact hserved.mux.complete j _ _ (Served.mux_sent hq) hdone
    · have hconserved := hserved.mux.conserved j _ _ (Served.mux_open hq hdone)
      have hempty : t.mux.queue = [] := by
        show t.server.inFlight = []
        rw [hsim.server]
        exact hdispatched
      rwa [hempty, List.filter_nil, List.append_nil, hall] at hconserved
  have hj : j < t.server.tasks.length := by
    by_contra hge
    rw [Mux.handedTo_of_le ((List.length_map _).trans_le (Nat.not_lt.1 hge))] at hhanded
    exact hne hhanded.symm
  have htask := List.getElem?_eq_getElem hj
  obtain ⟨q', hq', hid⟩ := hserved.taskIds j _ htask
  obtain rfl := Option.some.inj (hq.symm.trans hq')
  refine ⟨j, _, ?_, hid.symm.trans (hqid.trans hfid), (Served.mux_handedTo htask).symm.trans hhanded⟩
  rw [← hsim.server]
  exact htask

theorem ClientDone.not_receiving (hdone : s.ClientDone) (hinv : s.Inv cfg) (hlen : s.client.calls.length ≤ 2 ^ 32)
    (hcalls : s.Calls) (halive : s.client.outgoing.receiverAlive = true) (hcalm : s.server.Calm)
    (hread : s.server.socket = [] ∧ s.requests = [])
    (hpassed : ∀ (j : ℕ) task, s.server.tasks[j]? = some task → task.phase.answer.length ≤ s.passed j)
    (hk : 1 ≤ k) (hcall : s.client.calls[k]? = some call) : call.phase ≠ .receiving := by
  intro hphase
  have hclient := ClientConnection.Inv.of_reachable hinv.client
  have hanswered := hinv.answered hlen
  have hfollows := ClientConnection.outcomes hinv.client hlen halive k call hcall
  obtain ⟨frames, hframes, hsent⟩ := (hinv.sends.calls k call hcall).receiving hphase
  have hflight : s.server.inFlight = [] := by
    rw [Server.inFlight, hcalm.idle, hread.1]
    rfl
  obtain ⟨j, task, htask, hid, htaken⟩ := task_of_sent hinv hlen hcalm.live
    ⟨hdone.written, hread.2, hflight⟩ hcall hframes hsent
  have hused := hcalls.used k call hk hcall
  -- the task has its whole request, and has answered it
  rcases hcalm.tasks j task htask with ⟨hreading, hqueue⟩ | hanswer
  · rw [Task.taken, hqueue, List.append_nil] at htaken
    have hread := (hinv.task_inv htask).reading hreading
    rw [htaken] at hread
    exact hused.readPhase_ne hframes call.id hread
  · obtain ⟨request, answer, hanswer⟩ := TaskPhase.eq_answered hanswer
    obtain ⟨-, frames', request', hframes', hreceived, hread, -, hresponds⟩ :=
      hinv.answerOf hlen htask hcall hid hanswer
    rw [hreceived] at hread
    obtain ⟨exchange, hop⟩ := hused.eq_send hframes' hread
    -- of which the call has received all
    have hactive : call.phase.isActive = true := by
      rw [hphase]
      rfl
    have hk' := hclient.calls k call hcall
    have hregistered : call.registeredAt.isSome = true := by
      refine hk'.registeredAt_isSome fun hallocated => ?_
      rw [hphase] at hallocated
      cases hallocated
    have hopen : call.IsOpen := ⟨hregistered, hk'.active hactive⟩
    have hkept := hanswered.kept hcalm.live k j call task hk hcall hopen
      (ClientConnection.listens hinv.client k call hcall (by rw [hphase]; rfl)) htask hid
    have hinput : call.input.queue = [] := by
      rcases hdone.calls k call hcall with ⟨-, hinput⟩ | hpanic | ⟨result, hreturned⟩
      · exact hinput
      · rw [hphase] at hpanic
        cases hpanic
      · rw [hphase] at hreturned
        cases hreturned
    rw [hinput, ClientConnection.inFlight_of_idle hdone.idle, hdone.responses, framesOf_nil, List.append_nil,
      List.append_nil, List.append_nil, List.take_of_length_le (hpassed j task htask), hanswer] at hkept
    obtain ⟨result, hreads⟩ := Operation.reads_answer exchange hresponds
    have hwaits := hfollows.waits hphase
    rw [hkept, hop] at hwaits
    rw [show TaskPhase.answer (.answered request answer) = answer from rfl, hreads] at hwaits
    cases result <;> cases hwaits

theorem not_panicked (hinv : s.Inv cfg) (hlen : s.client.calls.length ≤ 2 ^ 32) (hcalls : s.Calls)
    (halive : s.client.outgoing.receiverAlive = true) (hk : 1 ≤ k) (hcall : s.client.calls[k]? = some call) :
    call.phase ≠ .panicked := by
  intro hphase
  have hpanics := (ClientConnection.outcomes hinv.client hlen halive k call hcall).panics hphase
  have hne : call.received ≠ [] := by
    intro hnil
    rw [hnil, Operation.reads_nil] at hpanics
    cases hpanics
  obtain ⟨j, task, answer, -, ⟨-, frames, request, hframes, hreceived, hread, -, hresponds⟩, rest, hrest⟩ :=
    (hinv.answered hlen).own k call hk hcall hne
  rw [hreceived] at hread
  obtain ⟨exchange, hop⟩ := (hcalls.used k call hk hcall).eq_send hframes hread
  obtain ⟨result, hreads⟩ := Operation.reads_answer exchange hresponds
  rw [hop] at hpanics
  rw [← hrest, Operation.reads_append rest (by rw [hpanics]; nofun), hpanics] at hreads
  cases result <;> cases hreads

/-- The call has returned: the error for a request that has no frames, or how the reading of its response ended. -/
def Returned (call : ClientCall) : Prop :=
  ∃ result, call.phase = .returned result ∧ ((∃ e, call.operation.frames = .error e ∧ result = .error e) ∨
    call.operation.reads call.received = result.mapError .err)

theorem Rests.returned (h : Rests cfg s) (hinv : s.Inv cfg) (hlen : s.client.calls.length ≤ 2 ^ 32)
    (hcalls : s.Calls) (halive : s.client.outgoing.receiverAlive = true) (hlive : s.server.stopped = none)
    (hhandlers : ∃ handler, cfg.server.handlers handler)
    (hfew : s.client.calls.countP (·.phase.isReading) < cfg.server.serverTasks)
    (hcall : s.client.calls[k]? = some call) : Returned call := by
  have hidle := h.client.idle hinv hlen hcalls halive
  have hresponses := h.responses_nil hidle
  obtain ⟨hcalm, hread⟩ := h.calm hinv hresponses hlive hhandlers
  have hread := hread ((running_le hinv hlen hcalls halive).trans_lt hfew)
  have hdone := h.clientDone hidle halive (h.written_of_read hlive hread.2)
  have hreturned : ∃ result, call.phase = .returned result := by
    rcases Nat.eq_zero_or_pos k with rfl | hk
    · obtain ⟨first, result, hfirst, -, -, hphase⟩ := hcalls.handshake
      exact ⟨result, Option.some.inj (hfirst.symm.trans hcall) ▸ hphase⟩
    · rcases hdone.calls k call hcall with ⟨hphase, -⟩ | hphase | hreturned
      · exact absurd hphase (hdone.not_receiving hinv hlen hcalls halive hcalm hread
          (fun j task => h.passed_all hresponses hlive) hk hcall)
      · exact absurd hphase (not_panicked hinv hlen hcalls halive hk hcall)
      · exact hreturned
  obtain ⟨result, hphase⟩ := hreturned
  refine ⟨result, hphase, (ClientConnection.outcomes hinv.client hlen halive k call hcall).result result ?_⟩
  rw [hphase]
  rfl

end RpcConnection

end Tchannel
