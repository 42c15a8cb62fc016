import Tchannel.SilentSteps

/-!
# The invariant of a server with many connections

Each connection is one that could be by itself, with handlers that are frozen for each of its requests
(`SharedServer.Inv.alone`). Each request that a handler was given is that of one task (`Inv.once`, `Inv.asked`), which
waits for it or was answered by it (`SharedServer.Progress`).
-/

namespace Tchannel
open Wire

namespace SharedServer

variable {σ φ : Type} {cfg : SharedConfig σ φ} {s s' : SharedServer σ φ} {i j k l h r : ℕ}
  {conn conn' : SharedConnection} {task : Task} {request : RequestRead} {ref : HandlerRef σ φ}

/-! ### Frozen handlers -/

section

variable (cfg) (frozen : ℕ → MessageArgsHandler) (order : (headers : HashMap String String) → Iter headers) (id : UInt32)

theorem respond_failsSubchannel (hsub : s.subchannels.lookup request.1.service = none) :
    (s.snapshot cfg frozen).respond order id request.1 request.2 =
      .error (.error s!"Failed to find subchannel '{request.1.service}'") := by
  rw [FrameHandler.respond, FrameHandler.getSubchannel, snapshot, lookup_mapValues, hsub]
  rfl

theorem respond_found {endpoints : HashMap String ℕ} (hsub : s.subchannels.lookup request.1.service = some endpoints) :
    (s.snapshot cfg frozen).respond order id request.1 request.2 = (frameHandler cfg).finish order id request.1
      (SubChannel.handle ⟨request.1.service, mapValues (fun _ h => frozen h) endpoints⟩ request.2) := by
  rw [FrameHandler.respond, FrameHandler.getSubchannel, snapshot, lookup_mapValues, hsub]
  rfl

theorem respond_failsEndpoint {endpoints : HashMap String ℕ} {e : CodecError}
    (hsub : s.subchannels.lookup request.1.service = some endpoints)
    (hend : SubChannel.readEndpointName request.2 = .error e) :
    (s.snapshot cfg frozen).respond order id request.1 request.2 = .error (.codecError e) := by
  rw [respond_found cfg frozen order id hsub, SubChannel.handle, hend]
  rfl

theorem respond_failsHandler {endpoints : HashMap String ℕ} {endpoint : String}
    (hsub : s.subchannels.lookup request.1.service = some endpoints)
    (hend : SubChannel.readEndpointName request.2 = .ok endpoint) (hhandler : endpoints.lookup endpoint = none) :
    (s.snapshot cfg frozen).respond order id request.1 request.2 =
      .error (.error s!"No handler with name '{endpoint}'.") := by
  rw [respond_found cfg frozen order id hsub, SubChannel.handle, hend, liftCodec_ok]
  show FrameHandler.finish _ _ _ _ (SubChannel.getHandler _ endpoint >>= _) = _
  rw [SubChannel.getHandler, lookup_mapValues, hhandler]
  rfl

theorem snapshot_handles (hregistered : s.Registered request h) : ∃ subchannel : SubChannel,
    (s.snapshot cfg frozen).subchannels.lookup request.1.service = some subchannel ∧
      subchannel.handle request.2 = (frozen h).handle request.2 := by
  obtain ⟨endpoints, endpoint, hsub, hend, hhandler⟩ := hregistered
  refine ⟨⟨request.1.service, mapValues (fun _ h => frozen h) endpoints⟩, ?_, ?_⟩
  · rw [snapshot, lookup_mapValues, hsub]
    rfl
  · rw [SubChannel.handle, hend, liftCodec_ok]
    show SubChannel.getHandler _ endpoint >>= _ = _
    rw [SubChannel.getHandler, lookup_mapValues, hhandler]
    rfl

theorem respond_registered (hregistered : s.Registered request h) :
    (s.snapshot cfg frozen).respond order id request.1 request.2 =
      (frameHandler cfg).finish order id request.1 ((frozen h).handle request.2) := by
  obtain ⟨subchannel, hsub, hhandles⟩ := snapshot_handles cfg frozen hregistered
  rw [FrameHandler.respond, FrameHandler.getSubchannel, hsub, ← hhandles]
  rfl

end

theorem exists_frozen (s : SharedServer σ φ) : ∃ frozen : ℕ → MessageArgsHandler,
    ∀ (h : ℕ) (ref : HandlerRef σ φ), s.handlers[h]? = some ref → ref.Freezes (frozen h) := by
  have hchoice : ∀ h : ℕ, ∃ handler : MessageArgsHandler,
      ∀ ref : HandlerRef σ φ, s.handlers[h]? = some ref → ref.Freezes handler := by
    intro h
    cases s.handlers[h]? with
    | none =>
      exact ⟨⟨RequestHandlerAdapter.handle (Except.ok : RequestHandler RawMessage RawMessage), RawMessage, RawMessage,
        inferInstance, inferInstance, _, rfl⟩, fun ref href => by cases href⟩
    | some ref =>
      obtain ⟨handler, hfreezes⟩ := ref.exists_frozen
      exact ⟨handler, fun ref' href => Option.some.inj href ▸ hfreezes⟩
  choose frozen hfrozen using hchoice
  exact ⟨frozen, hfrozen⟩

/-- A task that gets a response that frozen handlers have, gets it as one step of its connection. -/
theorem reply_move (hs : (system cfg).Reachable s) {frozen : ℕ → MessageArgsHandler}
    (hfrozen : ∀ (h : ℕ) (ref : HandlerRef σ φ), s.handlers[h]? = some ref → ref.Freezes (frozen h))
    (htask : conn.Handles k task request) {order : (headers : HashMap String String) → Iter headers}
    {response : TResult (List TFrameId)}
    (hresponse : (s.snapshot cfg frozen).respond order task.id request.1 request.2 = response) :
    RpcConnection.Move (alone cfg) conn.rpc (conn.reply k task request response).rpc :=
  .serves ⟨htask.live, .reply htask.isTask htask.phase
    ⟨s.snapshot cfg frozen, order, ⟨s, frozen, hs, hfrozen, rfl⟩, hresponse⟩⟩ (.inl rfl)

/-! ### The tasks and their requests -/

/-- How the request of a task stands with its handler. -/
inductive Outcome (cfg : SharedConfig σ φ) (server : Server) (task : Task) (request : RequestRead) :
    Serving (MessageArgs ⊕ φ) MessageArgsResponse → Prop
  | waits {serving} (hphase : task.phase = .deregistered request) (hopen : serving.isOpen = true) :
      Outcome cfg server task request serving
  | gone {serving} (hgone : server.stopped ≠ none) (hdropped : serving = .abandoned ∨ serving = .interrupted)
      (hphase : task.phase = .deregistered request) : Outcome cfg server task request serving
  | done {response : MessageArgsResponse} (order : (headers : HashMap String String) → Iter headers)
      (hphase : task.phase =
        (task.reply request ((frameHandler cfg).finish order task.id request.1 response)).phase) :
      Outcome cfg server task request (.returned response)

/-- Where the task `k` is on its way to the response. -/
inductive Progress (cfg : SharedConfig σ φ) (s : SharedServer σ φ) (conn : SharedConnection) (k : ℕ) : Prop
  | new (hnew : conn.handling k = .new)
      (hnot : ∀ task, conn.rpc.server.tasks[k]? = some task → task.phase.isAnswered = false)
  | found {task : Task} (hfound : conn.handling k = .found) (htask : conn.rpc.server.tasks[k]? = some task)
      (hread : task.phase.isRegistered = false) (hnot : task.phase.isAnswered = false)
      (hsub : ∀ request, task.phase = .deregistered request → s.subchannels.lookup request.1.service ≠ none)
  | called {h r : ℕ} {task : Task} {request : RequestRead} {ref : HandlerRef σ φ} {serving}
      (hcalled : conn.handling k = .called h r) (htask : conn.rpc.server.tasks[k]? = some task)
      (hregistered : s.Registered request h) (href : s.handlers[h]? = some ref)
      (hrequest : ref.locked.requests[r]? = some (request.2, serving))
      (houtcome : Outcome cfg conn.rpc.server task request serving)

structure Inv (cfg : SharedConfig σ φ) (s : SharedServer σ φ) : Prop where
  handlers : ∀ (h : ℕ) (ref : HandlerRef σ φ), s.handlers[h]? = some ref → ref.locked.Inv ref.service ref.initial
  registered : ∀ service endpoints endpoint h, s.subchannels.lookup service = some endpoints →
    endpoints.lookup endpoint = some h →
    ∃ ref, s.handlers[h]? = some ref ∧ cfg.registers service endpoint ref.toBoxedHandler ref.initial
  /-- What happens on a connection could happen if there were no others. -/
  alone : ∀ (i : ℕ) conn, s.connections[i]? = some conn → (RpcConnection.system (alone cfg)).Reachable conn.rpc
  progress : ∀ (i k : ℕ) conn, s.connections[i]? = some conn → Progress cfg s conn k
  /-- A request that a handler was given is that of one task. -/
  once : ∀ (i j k l h r : ℕ) conn conn', s.connections[i]? = some conn → s.connections[j]? = some conn' →
    conn.handling k = .called h r → conn'.handling l = .called h r → i = j ∧ k = l
  asked : ∀ (h r : ℕ) (ref : HandlerRef σ φ), s.handlers[h]? = some ref → r < ref.locked.requests.length →
    ∃ (i k : ℕ) (conn : SharedConnection), s.connections[i]? = some conn ∧ conn.handling k = .called h r

/-- The request `r` of the handler `h` is there still, and open if it was. -/
def Still (s s' : SharedServer σ φ) (h r : ℕ) : Prop :=
  ∀ (ref : HandlerRef σ φ) x serving, s.handlers[h]? = some ref → ref.locked.requests[r]? = some (x, serving) →
    ∃ ref' serving', s'.handlers[h]? = some ref' ∧ ref'.locked.requests[r]? = some (x, serving') ∧
      (serving' = serving ∨ serving.isOpen = true ∧ serving'.isOpen = true)

/-- Subchannels and handlers stay registered. -/
structure Keeps (s s' : SharedServer σ φ) : Prop where
  found : ∀ service, s.subchannels.lookup service ≠ none → s'.subchannels.lookup service ≠ none
  registered : ∀ request h, s.Registered request h → s'.Registered request h

/-- The task `k` rests once its request is read. -/
structure TaskRests (server server' : Server) (k : ℕ) : Prop where
  kept : ∀ task, server.tasks[k]? = some task → task.phase.isRegistered = false →
    ∃ task', server'.tasks[k]? = some task' ∧ task'.id = task.id ∧ task'.phase = task.phase
  answered : ∀ task', server'.tasks[k]? = some task' → task'.phase.isAnswered = true →
    ∃ task, server.tasks[k]? = some task ∧ task.phase.isAnswered = true
  stopped : server.stopped ≠ none → server'.stopped ≠ none

theorem TaskRests.of_eq {server server' : Server} (htask : server'.tasks[k]? = server.tasks[k]?)
    (hstopped : server.stopped ≠ none → server'.stopped ≠ none) : TaskRests server server' k :=
  ⟨fun task h _ => ⟨task, htask.trans h, rfl, rfl⟩, fun task h hanswered => ⟨task, htask.symm.trans h, hanswered⟩,
    hstopped⟩

theorem TaskRests.of_step {rpc rpc' : RpcConnection} (h : RpcConnection.Step cfg.rpc.silent rpc rpc') :
    TaskRests rpc.server rpc'.server k :=
  ⟨fun _ => h.read_kept, fun _ => h.answered_before, h.stopped_kept⟩

theorem Still.refl (s : SharedServer σ φ) (h r : ℕ) : Still s s h r := fun ref _ serving href hr =>
  ⟨ref, serving, href, hr, .inl rfl⟩

theorem Outcome.read {server : Server} {serving} (h : Outcome cfg server task request serving) :
    task.phase.isRegistered = false := by
  cases h with
  | waits hphase _ => rw [hphase]; rfl
  | gone _ _ hphase => rw [hphase]; rfl
  | @done response order hphase =>
    rw [hphase]
    cases (frameHandler cfg).finish order task.id request.1 response <;> rfl

theorem Progress.mono (h : Progress cfg s conn k) (hkeeps : Keeps s s')
    (hstill : ∀ h r, conn.handling k = .called h r → Still s s' h r) (hhandling : conn'.handling k = conn.handling k)
    (hrests : TaskRests conn.rpc.server conn'.rpc.server k) : Progress cfg s' conn' k := by
  cases h with
  | new hnew hnot =>
    refine .new (hhandling.trans hnew) fun task' htask' => ?_
    by_contra hanswered
    obtain ⟨task, htask, hanswered⟩ := hrests.answered task' htask' (Bool.eq_true_of_not_eq_false hanswered)
    rw [hnot task htask] at hanswered
    cases hanswered
  | @found task hfound htask hread hnot hsub =>
    obtain ⟨task', htask', hid, hphase⟩ := hrests.kept task htask hread
    refine .found (hhandling.trans hfound) htask' (hphase ▸ hread) (hphase ▸ hnot) fun request hphase' => ?_
    exact hkeeps.found _ (hsub request (hphase ▸ hphase'))
  | @called h r task request ref serving hcalled htask hregistered href hrequest houtcome =>
    obtain ⟨task', htask', hid, hphase⟩ := hrests.kept task htask houtcome.read
    obtain ⟨ref', serving', href', hrequest', hserving⟩ := hstill h r hcalled ref _ serving href hrequest
    refine .called (hhandling.trans hcalled) htask' (hkeeps.registered _ _ hregistered) href' hrequest' ?_
    cases houtcome with
    | waits hphase' hopen =>
      refine .waits (hphase.trans hphase') ?_
      rcases hserving with rfl | ⟨-, hopen'⟩
      · exact hopen
      · exact hopen'
    | gone hgone hdropped hphase' =>
      refine .gone (hrests.stopped hgone) ?_ (hphase.trans hphase')
      rcases hserving with rfl | ⟨hopen, -⟩
      · exact hdropped
      · rcases hdropped with rfl | rfl <;> cases hopen
    | @done response order hphase' =>
      rcases hserving with rfl | ⟨hopen, -⟩
      · refine .done order (hphase.trans ?_)
        rw [hphase', hid]
        rfl
      · cases hopen

end SharedServer

end Tchannel
