import Tchannel.Draining
import Tchannel.Truncation

/-!
# No request interferes with another one

What the invariant of `Demultiplexing` says about a connection that a peer shares between its requests,
put together (`Demultiplexed`). What a task reads is compared with the runs in which the peer opens that one
request only (`ReadsAlone`): there are such runs that read it, and they read the same.
-/

namespace Tchannel
open Wire

/-- A request of one frame. -/
def Request.single (frame : TFrameId) : Request where
  id := frame.id
  frames := [frame]
  frames_ne := List.cons_ne_nil _ _
  ids _ hmem := congrArg TFrameId.id (List.mem_singleton.1 hmem)
  whole n hn request := by
    obtain rfl : n = 0 := Nat.lt_one_iff.1 hn
    exact nofun

/-- A request of two frames. -/
def Request.pair (first second : TFrameId) (hid : second.id = first.id) (hreading : readPhase [first] = .reading) :
    Request where
  id := first.id
  frames := [first, second]
  frames_ne := List.cons_ne_nil _ _
  ids frame hmem := by
    rcases List.mem_cons.1 hmem with rfl | hmem
    · rfl
    · rw [List.mem_singleton.1 hmem, hid]
  whole n hn request := by
    have hn : n < 2 := hn
    obtain rfl | rfl : n = 0 ∨ n = 1 := by omega
    · exact nofun
    · rw [show [first, second].take 1 = [first] from rfl, hreading]
      exact nofun

namespace Served

/-- Some run in which `request` is the only one reads it as `result`. -/
def ReadsAlone (cfg : ServerConfig) (request : Request) (result : RequestRead) : Prop :=
  ∃ s, (system cfg).Reachable s ∧ s.requests.map Sending.request = [request] ∧
    ∃ task, s.server.tasks[0]? = some task ∧ task.phase.request = some result

structure Demultiplexed (cfg : ServerConfig) (s : Served) : Prop where
  /-- The tasks belong to the requests, in the order of opening. -/
  ids : s.server.tasks.map Task.id <+: s.requests.map (·.request.id)
  /-- Every request whose frames were all dispatched has its task. -/
  each : s.server.inFlight = [] → s.server.tasks.length = s.requests.length
  /-- The frames of a request are with its task or on the way there. -/
  frames : ∀ (k : ℕ) q, s.requests[k]? = some q → ¬ s.server.Answered k →
    s.mux.handedTo k ++ s.server.inFlight.filter (fun frame => frame.id = q.request.id) =
      q.request.frames.take q.sent
  received : ∀ (k : ℕ) task q, s.server.tasks[k]? = some task → s.requests[k]? = some q →
    task.received <+: q.request.frames
  /-- The next frame goes to the task of its request, not to an earlier one with this id. -/
  sending : ∀ frame k, s.server.stopped = none → s.server.dispatching = .sending frame k →
    ∃ q, s.requests[k]? = some q ∧ ¬ s.server.Answered k ∧
      q.request.frames[(s.mux.handedTo k).length]? = some frame
  first : ∀ frame, s.server.stopped = none → s.server.dispatching = .first frame →
    ∃ q, s.requests[s.server.tasks.length]? = some q ∧ q.request.frames[0]? = some frame
  /-- A request that was read was read from all its frames, as it is read alone. -/
  result : ∀ (k : ℕ) task q result, s.server.tasks[k]? = some task → s.requests[k]? = some q →
    task.phase.request = some result → task.received = q.request.frames ∧
      ∀ result', ReadsAlone cfg q.request result' ↔ result' = result
  /-- Only a task can end the connection. -/
  stopped : ∀ e, s.server.stopped = some e → ∃ task ∈ s.server.tasks, task.phase = .failed e

variable {cfg : ServerConfig} {s : Served} {k m : ℕ} {q : Sending} {task : Task} {frame : TFrameId}
  {r : Request} {result : RequestRead}

theorem serves_steps {server server' : Server} (h : Server.Steps cfg server server') (requests : List Sending) :
    (system cfg).Steps ⟨requests, server⟩ ⟨requests, server'⟩ :=
  Relation.ReflTransGen.lift (fun server => (⟨requests, server⟩ : Served))
    (fun server server' (hstep : server.Step cfg server') => Step.serves hstep) _ _ h

/-! ### A request alone -/

/-- The first `m` frames of `r` were sent and handled, and nothing else. -/
structure AfterAlone (cfg : ServerConfig) (r : Request) (m : ℕ) (s : Served) : Prop where
  reachable : (system cfg).Reachable s
  calm : s.server.Calm
  socket : s.server.socket = []
  requests : (m = 0 ∧ s.requests = []) ∨ ∃ h, s.requests = [⟨r, m, h⟩]

theorem afterAlone_zero : AfterAlone cfg r 0 start :=
  ⟨.start rfl, Server.calm_new, rfl, .inl ⟨rfl, rfl⟩⟩

theorem AfterAlone.arrive (h : AfterAlone cfg r m s) (hframe : r.frames[m]? = some frame) :
    (system cfg).Reachable ⟨[⟨r, m + 1, Nat.succ_pos m⟩], s.server.arrive frame⟩ := by
  refine h.reachable.step ?_
  obtain ⟨requests, server⟩ := s
  rcases h.requests with ⟨rfl, rfl⟩ | ⟨hpos, rfl⟩
  · exact .opens (fun k q hq => by cases hq) hframe
  · exact @Step.sends cfg ⟨[⟨r, m, hpos⟩], server⟩ 0 ⟨r, m, hpos⟩ frame rfl hframe

theorem AfterAlone.running_lt (h : AfterAlone cfg r m s) (hframe : r.frames[m]? = some frame)
    (hseveral : 2 ≤ r.frames.length → 2 ≤ cfg.serverTasks) : s.server.running < cfg.serverTasks := by
  have hlen := (Inv.of_reachable h.reachable).tasks_length_le
  have hle : s.server.running ≤ s.server.tasks.length := List.countP_le_length
  have hpos := cfg.serverTasks_pos
  have hm := (List.getElem?_eq_some_iff.1 hframe).1
  rcases h.requests with ⟨-, hrequests⟩ | ⟨hmpos, hrequests⟩
  · rw [hrequests, List.length_nil] at hlen
    omega
  · rw [hrequests, List.length_singleton] at hlen
    have := hseveral (by omega)
    omega

theorem AfterAlone.deliver (h : AfterAlone cfg r m s) (hframe : r.frames[m]? = some frame)
    (hseveral : 2 ≤ r.frames.length → 2 ≤ cfg.serverTasks) :
    ∃ server task, (system cfg).Reachable ⟨[⟨r, m + 1, Nat.succ_pos m⟩], server⟩ ∧
      (s.server.arrive frame).Delivered frame [] server 0 task ∧ task.received = r.frames.take (m + 1) := by
  have hreach := h.arrive hframe
  obtain ⟨server, k, task, hsteps, hdel⟩ := Server.deliver (Inv.of_reachable hreach).server
    (h.calm.arrive frame) (by rw [Server.arrive, h.socket]; rfl) (h.running_lt hframe hseveral)
  have hreach' := hreach.steps (serves_steps hsteps _)
  have hinv := Inv.of_reachable hreach'
  obtain ⟨q, hq, -⟩ := hinv.taskIds k task hdel.isTask
  obtain ⟨rfl, rfl⟩ : k = 0 ∧ q = ⟨r, m + 1, Nat.succ_pos m⟩ := by
    cases k with
    | zero => exact ⟨rfl, (Option.some.inj hq).symm⟩
    | succ k => cases hq
  refine ⟨server, task, hreach', hdel, ?_⟩
  have hflight : server.inFlight = [] := by
    rw [Server.inFlight, hdel.idle, hdel.socket]
    rfl
  have htaken : (mux ⟨[⟨r, m + 1, Nat.succ_pos m⟩], server⟩).handedTo 0 = task.received := by
    rw [mux_handedTo hdel.isTask, Task.taken, hdel.queue, List.append_nil]
  rw [← htaken]
  by_cases hdone : server.Answered 0
  · exact hinv.mux.complete 0 _ _ (mux_sent hq) hdone
  · have hcons := hinv.mux.conserved 0 _ _ (mux_open hq hdone)
    rw [show (mux _).queue = server.inFlight from rfl, hflight, List.filter_nil, List.append_nil] at hcons
    exact hcons

/-- A complete request that is alone can be handled up to its last frame. -/
theorem afterAlone (hcomplete : r.Complete) (hseveral : 2 ≤ r.frames.length → 2 ≤ cfg.serverTasks)
    (hm : m < r.frames.length) : ∃ s, AfterAlone cfg r m s := by
  induction m with
  | zero => exact ⟨start, afterAlone_zero⟩
  | succ m ih =>
    obtain ⟨s, h⟩ := ih (by omega)
    obtain ⟨server, task, hreach, hdel, hreceived⟩ :=
      h.deliver (List.getElem?_eq_getElem (by omega)) hseveral
    have hreading : task.phase = .reading := by
      rw [hdel.phase, hreceived]
      refine hcomplete.reading (List.take_prefix _ _) fun heq => ?_
      have hlen := congrArg List.length heq
      rw [List.length_take] at hlen
      omega
    exact ⟨_, hreach, hdel.calm_of_reading (h.calm.arrive _) hreading, hdel.socket, .inr ⟨_, rfl⟩⟩

theorem readsAlone (hread : readPhase r.frames = .read result)
    (hseveral : 2 ≤ r.frames.length → 2 ≤ cfg.serverTasks) : ReadsAlone cfg r result := by
  have hpos := List.length_pos_iff.2 r.frames_ne
  obtain ⟨s, h⟩ := afterAlone ⟨result, hread⟩ hseveral (Nat.sub_lt hpos Nat.one_pos)
  obtain ⟨server, task, hreach, hdel, hreceived⟩ :=
    h.deliver (List.getElem?_eq_getElem (Nat.sub_lt hpos Nat.one_pos)) hseveral
  refine ⟨_, hreach, rfl, task, hdel.isTask, ?_⟩
  rw [hdel.phase, hreceived, Nat.sub_add_cancel hpos, List.take_length, hread]
  rfl

theorem ReadsAlone.readPhase (h : ReadsAlone cfg r result) : readPhase r.frames = .read result := by
  obtain ⟨s, hreach, hrequests, task, htask, hread⟩ := h
  have hinv := Inv.of_reachable hreach
  obtain ⟨q, hq, -⟩ := hinv.taskIds 0 task htask
  obtain rfl : q.request = r := by
    have hmap : (s.requests.map Sending.request)[0]? = some q.request := by rw [List.getElem?_map, hq]; rfl
    rw [hrequests] at hmap
    exact (Option.some.inj hmap).symm
  rw [← (hinv.received_all htask hq hread).1]
  exact (hinv.server.tasks 0 task htask).reads result hread

/-! ### Many requests -/

theorem Inv.dispatching_next (h : s.Inv cfg) (hframes : s.server.dispatching.frames = [frame])
    (hq : s.requests[k]? = some q) (hid : q.request.id = frame.id) (hdone : ¬ s.server.Answered k) :
    q.request.frames[(s.mux.handedTo k).length]? = some frame := by
  have hqueue : s.mux.queue = frame :: s.server.socket := by
    show s.server.inFlight = _
    rw [Server.inFlight, hframes]
    rfl
  have hopen := mux_open hq hdone
  rw [hid] at hopen
  have hnext := h.mux.head_next hqueue hopen
  rw [List.getElem?_take] at hnext
  split at hnext
  · exact hnext
  · cases hnext

theorem Inv.demultiplexed (h : s.Inv cfg) : Demultiplexed cfg s := by
  have hlen : s.mux.handed.length = s.server.tasks.length := List.length_map _
  refine ⟨?_, ?_, ?_, ?_, ?_, ?_, ?_, h.stopped⟩
  · refine List.prefix_iff_getElem?.2 fun k hk => ?_
    rw [List.length_map] at hk
    obtain ⟨q, hq, hqid⟩ := h.taskIds k _ (List.getElem?_eq_getElem hk)
    rw [List.getElem?_map, hq, List.getElem_map, ← hqid]
    rfl
  · intro hflight
    by_contra hne
    have hlt : s.server.tasks.length < s.requests.length := Nat.lt_of_le_of_ne h.tasks_length_le hne
    have hmem := h.mux.queued_of_not_started (Nat.le_of_eq hlen) (mux_sent (List.getElem?_eq_getElem hlt))
    rw [show s.mux.queue = s.server.inFlight from rfl, hflight] at hmem
    cases hmem
  · intro k q hq hdone
    exact h.mux.conserved k _ _ (mux_open hq hdone)
  · intro k task q htask hq
    exact h.received_le htask hq
  · intro frame k hlive hsending
    obtain ⟨task, q, -, hq, hqid, -, hdone⟩ := h.sending_open hlive hsending
    exact ⟨q, hq, hdone, h.dispatching_next (by rw [hsending]; rfl) hq hqid hdone⟩
  · intro frame hlive hfirst
    obtain ⟨q, hq, hqid, hdone⟩ := h.first_open hlive hfirst
    refine ⟨q, hq, ?_⟩
    have hnext := h.dispatching_next (by rw [hfirst]; rfl) hq hqid hdone
    rw [Mux.handedTo_of_le (Nat.le_of_eq hlen)] at hnext
    exact hnext
  · intro k task q result htask hq hread
    obtain ⟨hall, hqueue, -⟩ := h.received_all htask hq hread
    have hphase : readPhase q.request.frames = .read result := by
      rw [← hall]
      exact (h.server.tasks k task htask).reads result hread
    refine ⟨hall, fun result' => ⟨fun halone => ?_, ?_⟩⟩
    · exact TaskPhase.read.inj (halone.readPhase.symm.trans hphase)
    · rintro rfl
      refine readsAlone hphase fun htwo => h.server.several k task htask ?_
      rw [Task.taken, hqueue, List.append_nil, hall]
      exact htwo

theorem server_demultiplexes (cfg : ServerConfig) (s : Served) (hreach : (system cfg).Reachable s) :
    Demultiplexed cfg s :=
  (Inv.of_reachable hreach).demultiplexed

/-! ### Two requests -/

theorem readPhase_single : ∃ payload request, ∀ id, readPhase [⟨id, ⟨.callRequest, payload⟩⟩] = .read request := by
  obtain ⟨payload, call, hfirst, hflags, hcheck⟩ := exists_beginning .none
  have hfinal : call.flags.contains Flags.moreFragmentsFollow = false := by rw [hflags]; rfl
  refine ⟨payload, (Call.fields call, ⟨.raw, (ArgsDefragmenter.default.add [some [1]]).args⟩), fun id => ?_⟩
  have hrun : RequestDefragmenter.readRequest.run ⟨[⟨id, ⟨.callRequest, payload⟩⟩], false⟩ =
      .ok (Call.fields call, ⟨.raw, (ArgsDefragmenter.default.add [some [1]]).args⟩) ⟨[], false⟩ :=
    Defragmenter.readAndCheck_eq_ok.2 ⟨_, [], call, _, _, rfl, hfirst, hcheck, rfl, .inl ⟨hfinal, rfl, rfl⟩⟩
  rw [readPhase, hrun]

theorem readPhase_pair : ∃ payload rest request, ∀ id,
    readPhase [⟨id, ⟨.callRequest, payload⟩⟩] = .reading ∧
      readPhase [⟨id, ⟨.callRequest, payload⟩⟩, ⟨id, ⟨.callRequestContinue, rest⟩⟩] = .read request := by
  obtain ⟨payload, call, hfirst, hflags, hcheck⟩ := exists_beginning .moreFragmentsFollow
  have hmore : call.flags.contains Flags.moreFragmentsFollow = true := by rw [hflags]; rfl
  have hscheme : getArgsScheme (Call.fields call) = .ok .raw := hcheck
  have hdecode : decodePayload CallContinue.decode [0, 0, 0, 1, 2] = .ok ⟨Flags.none, plainArgs [some [2]]⟩ := rfl
  have hsecond : Defragmenter.Continuation ⟨.callRequestContinue, [0, 0, 0, 1, 2]⟩ Flags.none [some [2]] :=
    ⟨.inr rfl, _, hdecode, rfl⟩
  refine ⟨payload, [0, 0, 0, 1, 2],
    (Call.fields call, ⟨.raw, ((ArgsDefragmenter.default.add [some [1]]).add [some [2]]).args⟩), fun id => ⟨?_, ?_⟩⟩
  · have hbegin := Defragmenter.beginFrame_ok_iff.2 ⟨call, _, hfirst, rfl, rfl, rfl⟩
    have hrun : RequestDefragmenter.readRequest.run ⟨[⟨id, ⟨.callRequest, payload⟩⟩], false⟩ =
        .error .pending ⟨[], false⟩ := by
      rw [RequestDefragmenter.readRequest, Defragmenter.read, Defragmenter.readAndCheck_run]
      simp only [hbegin, hscheme]
      exact if_pos hmore
    rw [readPhase, hrun]
  · have hcontinue : Defragmenter.continueFrames false [⟨id, ⟨.callRequestContinue, [0, 0, 0, 1, 2]⟩⟩]
        (ArgsDefragmenter.default.add [some [1]]) =
          .ok ((ArgsDefragmenter.default.add [some [1]]).add [some [2]]) ⟨[], false⟩ :=
      Defragmenter.continueFrames_eq_ok.2 (.inr ⟨[], _, [], [], _, _, rfl, rfl, .nil, hsecond, rfl, rfl⟩)
    have hrun : RequestDefragmenter.readRequest.run
          ⟨[⟨id, ⟨.callRequest, payload⟩⟩, ⟨id, ⟨.callRequestContinue, [0, 0, 0, 1, 2]⟩⟩], false⟩ =
        .ok (Call.fields call, ⟨.raw, ((ArgsDefragmenter.default.add [some [1]]).add [some [2]]).args⟩) ⟨[], false⟩ :=
      Defragmenter.readAndCheck_eq_ok.2 ⟨_, [_], call, _, _, rfl, hfirst, hcheck, rfl,
        .inr ⟨hmore, _, hcontinue, rfl⟩⟩
    rw [readPhase, hrun]

/-- The frames of a request of two frames, with another request between them, and the tasks that read both. -/
theorem two_requests_demultiplexed : ∃ cfg s, (system cfg).Reachable s ∧
    s.requests.map (·.request.id) = [1, 2] ∧ s.requests.map (·.request.frames.length) = [2, 1] ∧
    s.server.tasks.map (·.phase.request.isSome) = [true, true] ∧ Demultiplexed cfg s := by
  let cfg : ServerConfig := ⟨4, 2, by omega, by omega, fun _ => True, fun _ => ""⟩
  obtain ⟨payload, rest, request, hpair⟩ := readPhase_pair
  obtain ⟨payload', request', hsingle⟩ := readPhase_single
  let first : TFrameId := ⟨1, ⟨.callRequest, payload⟩⟩
  let second : TFrameId := ⟨1, ⟨.callRequestContinue, rest⟩⟩
  let other : TFrameId := ⟨2, ⟨.callRequest, payload'⟩⟩
  have hreading : readPhase [first] = .reading := (hpair 1).1
  have hread : readPhase [first, second] = .read request := (hpair 1).2
  have hother : readPhase [other] = .read request' := hsingle 2
  -- the frames arrive
  have h₀ := (TransitionSystem.Reachable.start (show (system cfg).init start from rfl)).step
    (@Step.opens cfg _ (.pair first second rfl hreading) _ (fun k q hq => by cases hq) rfl)
  have h₁ := h₀.step (@Step.opens cfg _ (.single other) _ (fun k q hq hid => by
    cases k with
    | zero =>
      obtain rfl := Option.some.inj hq
      cases hid
    | succ k => cases hq) rfl)
  have h₂ := h₁.step (@Step.sends cfg _ 0 _ second rfl rfl)
  -- they are dispatched
  have h₃ := h₂.step (.serves ⟨rfl, .next (Nat.succ_pos 3) rfl rfl⟩)
  have h₄ := h₃.step (.serves ⟨rfl, .first (Nat.succ_pos 3) rfl rfl⟩)
  have h₅ := h₄.step (.serves ⟨rfl, .next (Nat.lt_of_sub_eq_succ rfl) rfl rfl⟩)
  have h₆ := h₅.step (.serves ⟨rfl, .first (Nat.lt_of_sub_eq_succ rfl) rfl rfl⟩)
  have h₇ := h₆.step (.serves ⟨rfl, .next (Nat.lt_of_sub_eq_succ rfl) rfl rfl⟩)
  have h₈ := h₇.step (.serves ⟨rfl, @Server.Move.send cfg _ second 0 _ (Nat.lt_of_sub_eq_succ rfl) rfl rfl
    ⟨rfl, Nat.le_refl 2⟩⟩)
  -- and read
  have h₉ := h₈.step (.serves ⟨rfl, @Server.Move.receive cfg _ 0 _ first [second] rfl rfl rfl⟩)
  have h₁₀ := h₉.step (.serves ⟨(congrArg TaskPhase.failure hreading : _),
    @Server.Move.receive cfg _ 0 _ second [] rfl hreading rfl⟩)
  have h₁₁ := h₁₀.step (.serves ⟨(congrArg TaskPhase.failure hread : _),
    @Server.Move.receive cfg _ 1 _ other [] rfl rfl rfl⟩)
  refine ⟨cfg, _, h₁₁, rfl, rfl, ?_, server_demultiplexes cfg _ h₁₁⟩
  show [(readPhase [first, second]).request.isSome, (readPhase [other]).request.isSome] = [true, true]
  rw [hread, hother]
  rfl

end Served

end Tchannel
