import Tchannel.SharedOrder

/-!
# What a server with many connections guarantees

Whatever the others do, a connection of a server does only what it could do alone (`connections_alone`). The requests
to a handler are served one after another, for all connections (`handlers_serial`): a call returns what the handler
gave in the state that the requests before it had left (`results_serialized`), and the order of the requests is that
of the calls, where one was made after another one had its place (`order_respected`). Without new calls all comes to
rest, if the handlers do (`servers_end`), and then the calls have returned (`servers_complete`).
-/

namespace Tchannel
open Wire ArgsFragmenter Fragmenter
open RpcConnection (echo echoRequest exists_order Serves Returned)

namespace SharedServer

variable {σ φ : Type}

/-! ### A server that counts -/

/-- A handler that sends requests back, and counts them. -/
def counting : BoxedHandler ℕ Unit where
  service := RequestHandlerAdapter.service Unit fun (n : ℕ) (request : RawMessage) =>
    ((.ok request : HandlerResult RawMessage), n + 1)
  adapts := ⟨RawMessage, RawMessage, inferInstance, inferInstance, _, .sync _ rfl fun _ _ _ _ => Iff.rfl⟩

/-- It is the handler of the service "s" and the endpoint "e". -/
def counter : SharedConfig ℕ Unit where
  rpc := { echo with server := { echo.server with serverTasks := 4, serverTasks_pos := Nat.succ_pos 3 } }
  registers _ _ handler _ := handler = counting
  start :=
    { subchannels := Finmap.singleton "s" (Finmap.singleton "e" 0)
      handlers := [{ counting with initial := 0, locked := Locked.new 0 }]
      connections := [] }
  connections_start := rfl
  handlers_start ref href := by
    obtain rfl := List.mem_singleton.1 href
    rfl
  registered_start service endpoints endpoint h hsub hlookup := by
    obtain rfl : service = "s" := (Finmap.mem_singleton _ _ _).1 (Finmap.mem_of_lookup_eq_some hsub)
    obtain rfl := Option.some.inj (Finmap.lookup_singleton_eq.symm.trans hsub)
    obtain rfl : endpoint = "e" := (Finmap.mem_singleton _ _ _).1 (Finmap.mem_of_lookup_eq_some hlookup)
    obtain rfl := Option.some.inj (Finmap.lookup_singleton_eq.symm.trans hlookup)
    exact ⟨_, rfl, rfl⟩

theorem counter_allEnd : AllEnd counter := by
  rintro _ _ _ _ rfl
  exact RequestHandlerAdapter.ends _

theorem counter_allTotal : AllTotal counter := by
  rintro _ _ _ _ rfl
  exact RequestHandlerAdapter.total _

theorem counting_returns {args : MessageArgs} (request : RawMessage) (hargs : Message.tryInto request = .ok args)
    {n n' : ℕ} {response : MessageArgsResponse} (h : counting.service.Returns args n response n') :
    response = .ok (.ok, args) ∧ n' = n + 1 := by
  have hfrom := LawfulMessage.tryFrom_tryInto request args hargs
  obtain ⟨rfl, rfl⟩ := Prod.mk.inj
    ((RequestHandlerAdapter.handleMut_ok hfrom).symm.trans (RequestHandlerAdapter.returns_iff.1 h))
  refine ⟨?_, rfl⟩
  rw [convert, hargs]
  rfl

section

variable {order : (headers : HashMap String String) → Iter headers} {counts : List ℕ} {i n k : ℕ}
  {s : SharedServer ℕ Unit} {conn : SharedConnection}

theorem counter_registered (hs : (system counter).Reachable s) (request : RequestRead) (hservice : request.1.service = "s")
    (hend : SubChannel.readEndpointName request.2 = .ok "e") :
    s.Registered request 0 ∧ ∃ ref, s.handlers[0]? = some ref ∧ ref.toBoxedHandler = counting ∧ ref.initial = 0 := by
  obtain ⟨s₀, rfl, hsteps⟩ := hs
  obtain ⟨ref, href, hgrows⟩ := steps_handler_kept (.start rfl) hsteps (h := 0) rfl
  refine ⟨(steps_keeps (.start rfl) hsteps).registered request 0 ⟨Finmap.singleton "e" 0, "e", ?_, hend, ?_⟩, ref, href,
    hgrows.box, hgrows.initial⟩
  · rw [hservice]
    exact Finmap.lookup_singleton_eq
  · exact Finmap.lookup_singleton_eq

theorem counter_serves {call : ClientCall} (hop : call.operation = echoRequest order) : Serves (alone counter) call := by
  have hcarried : MessageArgs.Carried ⟨.raw, [[101], [], []]⟩ (requestRoom "s" .raw) :=
    ⟨by decide, by decide, by decide, by decide⟩
  refine Serves.of_carried hop rfl hcarried ?_
  rintro _ ⟨s, frozen, hs, hfrozen, rfl⟩ fields hservice
  obtain ⟨hregistered, ref, href, hbox, -⟩ :=
    counter_registered hs (fields, ⟨.raw, [[101], [], []]⟩) hservice rfl
  obtain ⟨subchannel, hsub, hhandles⟩ := snapshot_handles counter frozen hregistered
  have hfreezes : counting.Freezes (frozen 0) := hbox ▸ hfrozen 0 ref href
  obtain ⟨t, t', hreturns⟩ := hfreezes ⟨.raw, [[101], [], []]⟩ 0 _ _ (RequestHandlerAdapter.returns_iff.2 rfl)
  have hresponse := (counting_returns (RawMessage.mk "e" "" []) rfl hreturns).1
  refine ⟨FrameHandler.answerable_iff.2 ⟨subchannel, _, hsub, hhandles.trans hresponse⟩, ?_⟩
  intro registered code response hsub' hr
  obtain rfl := Option.some.inj (hsub'.symm.trans hsub)
  obtain ⟨rfl, rfl⟩ := Prod.mk.inj (Except.ok.inj (hr.symm.trans (hhandles.trans hresponse)))
  decide

/-- The server when it has come to rest after so many requests on each of its connections. -/
structure AfterRequests (order : (headers : HashMap String String) → Iter headers) (counts : List ℕ)
    (s : SharedServer ℕ Unit) : Prop where
  reachable : (system counter).Reachable s
  rests : Rests counter s
  uses : s.uses = counts.map fun n => (n + 1, true)
  few : ∀ n ∈ counts, n < 3
  requests : ∀ (i k : ℕ) conn call, s.connections[i]? = some conn → 1 ≤ k → conn.rpc.client.calls[k]? = some call →
    call.operation = echoRequest order

theorem calls_of_uses (huses : s.uses = counts.map fun n => (n + 1, true)) (hconn : s.connections[i]? = some conn) :
    ∃ n, counts[i]? = some n ∧ conn.rpc.client.calls.length = n + 1 ∧
      conn.rpc.client.outgoing.receiverAlive = true := by
  have hget := getElem?_uses hconn
  rw [huses, List.getElem?_map, Option.map_eq_some_iff] at hget
  obtain ⟨n, hn, heq⟩ := hget
  obtain ⟨hlen, halive⟩ := Prod.mk.inj heq
  exact ⟨n, hn, hlen.symm, halive.symm⟩

theorem ready_of_uses (huses : s.uses = counts.map fun n => (n + 1, true)) (hfew : ∀ n ∈ counts, n < 3) : s.Ready := by
  intro i conn hconn
  obtain ⟨n, hn, hlen, halive⟩ := calls_of_uses huses hconn
  have hlt := hfew n (List.mem_of_getElem? hn)
  exact ⟨by omega, halive⟩

theorem exists_afterRequests_of (hs : (system counter).Reachable s)
    (huses : s.uses = counts.map fun n => (n + 1, true)) (hfew : ∀ n ∈ counts, n < 3)
    (hrequests : ∀ (i k : ℕ) conn call, s.connections[i]? = some conn → 1 ≤ k →
      conn.rpc.client.calls[k]? = some call → call.operation = echoRequest order) :
    ∃ s', (system counter).Steps s s' ∧ AfterRequests order counts s' := by
  obtain ⟨s', hsteps, huses', hrests⟩ := exists_settles hs (ready_of_uses huses hfew) counter_allEnd
  refine ⟨s', hsteps, hs.steps hsteps, hrests, huses'.trans huses, hfew, fun i k conn' call hconn' hk hcall => ?_⟩
  -- the connection was there, with as many calls
  have hget := getElem?_uses hconn'
  rw [huses', SharedServer.uses, List.getElem?_map, Option.map_eq_some_iff] at hget
  obtain ⟨conn, hconn, heq⟩ := hget
  have hlt := ClientConnection.Inv.lt_length hcall
  rw [← (Prod.mk.inj heq).1] at hlt
  obtain ⟨c, hc, hlater⟩ := steps_connection_kept hs hsteps hconn
  obtain rfl := Option.some.inj (hc.symm.trans hconn')
  obtain ⟨call', hcall', hop, -⟩ := RpcConnection.steps_call_kept hlater.steps (List.getElem?_eq_getElem hlt)
  rw [Option.some.inj (hcall.symm.trans hcall'), hop]
  exact hrequests i k conn _ hconn hk (List.getElem?_eq_getElem hlt)

namespace AfterRequests

theorem connection (h : AfterRequests order counts s) (hi : counts[i]? = some n) : ∃ conn,
    s.connections[i]? = some conn ∧ conn.rpc.client.calls.length = n + 1 ∧
      conn.rpc.client.outgoing.receiverAlive = true := by
  have hget : s.uses[i]? = some (n + 1, true) := by rw [h.uses, List.getElem?_map, hi, Option.map_some]
  rw [SharedServer.uses, List.getElem?_map, Option.map_eq_some_iff] at hget
  obtain ⟨conn, hconn, heq⟩ := hget
  exact ⟨conn, hconn, Prod.mk.inj heq⟩

theorem connects (h : AfterRequests order counts s) :
    ∃ s', (system counter).Steps s s' ∧ AfterRequests order (counts ++ [0]) s' := by
  obtain ⟨it, order', request, answer, hrequest, hanswer⟩ := exists_handshake
  have hstep : Step counter s _ := .connects ⟨it, order', request, answer, hrequest, hanswer, rfl⟩
  have huses : s.uses ++ [(1, true)] = (counts ++ [0]).map fun n => (n + 1, true) := by simp [h.uses]
  obtain ⟨s', hsteps, hafter⟩ := exists_afterRequests_of (h.reachable.step hstep)
    (List.map_append.trans huses) (List.forall_mem_append.2 ⟨h.few, by simp⟩) fun i k conn call hconn hk hcall => by
      rcases getElem?_concat_cases hconn with hconn | ⟨-, rfl⟩
      · exact h.requests i k conn call hconn hk hcall
      · exact absurd (ClientConnection.Inv.lt_length hcall) (Nat.not_lt.2 hk)
  exact ⟨s', .head hstep hsteps, hafter⟩

/-- A call is made. -/
theorem called (h : AfterRequests order counts s) (hi : counts[i]? = some n) : ∃ s', Step counter s s' ∧
    s'.uses = (counts.set i (n + 1)).map (fun n => (n + 1, true)) ∧
    ∀ (j k : ℕ) c call, s'.connections[j]? = some c → 1 ≤ k → c.rpc.client.calls[k]? = some call →
      call.operation = echoRequest order := by
  obtain ⟨conn, hconn, hlen, halive⟩ := h.connection hi
  refine ⟨_, .uses hconn (.calls (show (echoRequest order).Used from .send _)), ?_, fun j k c call hc hk hcall => ?_⟩
  · have huses : s.uses.set i (conn.rpc.client.calls.length + 1, conn.rpc.client.outgoing.receiverAlive) =
        (counts.set i (n + 1)).map fun n => (n + 1, true) := by
      rw [List.map_set, ← h.uses, hlen, halive]
    rw [← huses, uses_setConnection]
    show s.uses.set i ((conn.rpc.client.calls ++ [_]).length, _) = _
    rw [List.length_append]
    rfl
  · rcases getElem?_set_cases hc with ⟨-, rfl⟩ | ⟨-, hc⟩
    · rcases getElem?_concat_cases hcall with hcall | ⟨-, rfl⟩
      · exact h.requests i k conn call hconn hk hcall
      · rfl
    · exact h.requests j k c call hc hk hcall

theorem next (h : AfterRequests order counts s) (hi : counts[i]? = some n) (hn : n + 1 < 3) :
    ∃ s', (system counter).Steps s s' ∧ AfterRequests order (counts.set i (n + 1)) s' := by
  obtain ⟨s₁, hstep, huses, hrequests⟩ := h.called hi
  have hfew : ∀ m ∈ counts.set i (n + 1), m < 3 := by
    intro m hm
    rcases List.mem_or_eq_of_mem_set hm with hm | rfl
    · exact h.few m hm
    · exact hn
  obtain ⟨s', hsteps, hafter⟩ := exists_afterRequests_of (h.reachable.step hstep) huses hfew hrequests
  exact ⟨s', .head hstep hsteps, hafter⟩

end AfterRequests

theorem exists_connected (order : (headers : HashMap String String) → Iter headers) :
    ∃ s, AfterRequests order [0, 0] s := by
  obtain ⟨s, -, h⟩ : ∃ s, (system counter).Steps counter.start s ∧ AfterRequests order [] s :=
    exists_afterRequests_of (.start rfl) rfl (List.forall_mem_nil _) fun i k conn call hconn => by
      rw [counter.connections_start] at hconn
      cases hconn
  obtain ⟨s, -, h⟩ := h.connects
  obtain ⟨s, -, h⟩ := h.connects
  exact ⟨s, h⟩

namespace AfterRequests

variable {call : ClientCall}

theorem inv (h : AfterRequests order counts s) : s.Inv counter := Inv.of_reachable h.reachable

theorem length_lt (h : AfterRequests order counts s) (hconn : s.connections[i]? = some conn) :
    conn.rpc.client.calls.length < 4 := by
  obtain ⟨n, hn, hlen, -⟩ := calls_of_uses h.uses hconn
  exact hlen.trans_lt (Nat.succ_lt_succ (h.few n (List.mem_of_getElem? hn)))

theorem alive (h : AfterRequests order counts s) (hconn : s.connections[i]? = some conn) :
    conn.rpc.client.outgoing.receiverAlive = true :=
  (calls_of_uses h.uses hconn).choose_spec.2.2

theorem ids (h : AfterRequests order counts s) (hconn : s.connections[i]? = some conn) :
    conn.rpc.client.calls.length ≤ 2 ^ 32 :=
  (h.length_lt hconn).le.trans (show 4 ≤ 2 ^ 32 by decide)

theorem few_reading (h : AfterRequests order counts s) (hconn : s.connections[i]? = some conn) :
    conn.rpc.client.calls.countP (·.phase.isReading) < counter.rpc.server.serverTasks :=
  List.countP_le_length.trans_lt (h.length_lt hconn)

theorem live (h : AfterRequests order counts s) (hconn : s.connections[i]? = some conn) :
    conn.rpc.server.stopped = none := by
  have halone := h.inv.alone i conn hconn
  refine (RpcConnection.Inv.of_reachable halone (h.ids hconn)).live (h.ids hconn)
    (RpcConnection.Calls.of_reachable halone (h.ids hconn)) fun k call hk hcall => ?_
  exact counter_serves (h.requests i k conn call hconn hk hcall)

theorem received (h : AfterRequests order counts s) (hconn : s.connections[i]? = some conn) (hk : 1 ≤ k)
    (hcall : conn.rpc.client.calls[k]? = some call) :
    ∃ result, SubChannel.receiveFrom RawMessage ⟨call.received, false⟩ = some result :=
  (h.rests.returned h.reachable counter_allTotal hconn (h.ids hconn) (h.alive hconn) (h.live hconn)
    (h.few_reading hconn) hcall).received (h.requests i k conn call hconn hk hcall)

theorem received_ne (h : AfterRequests order counts s) (hconn : s.connections[i]? = some conn) (hk : 1 ≤ k)
    (hcall : conn.rpc.client.calls[k]? = some call) : call.received ≠ [] := by
  obtain ⟨result, hresult⟩ := h.received hconn hk hcall
  intro hnil
  rw [hnil] at hresult
  cases hresult

theorem exists_call (h : AfterRequests order counts s) (hi : counts[i]? = some n) (hk : k < n + 1) : ∃ conn call,
    s.connections[i]? = some conn ∧ conn.rpc.client.calls[k]? = some call := by
  obtain ⟨conn, hconn, hlen, -⟩ := h.connection hi
  exact ⟨conn, _, hconn, List.getElem?_eq_getElem (hk.trans_eq hlen.symm)⟩

theorem handled (h : AfterRequests order counts s) (hconn : s.connections[i]? = some conn) (hk : 1 ≤ k)
    (hcall : conn.rpc.client.calls[k]? = some call) : ∃ r, s.Handled i k 0 r := by
  obtain ⟨m, r, fields, ref, response, hgot, hservice, -⟩ := h.inv.got hconn (h.ids hconn) hcall
    (h.received_ne hconn hk hcall) (h.requests i k conn call hconn hk hcall) rfl
    ⟨by decide, by decide, by decide, by decide⟩
  obtain ⟨⟨endpoints, endpoint, hsub, hend, hlookup⟩, -⟩ :=
    counter_registered h.reachable (fields, ⟨.raw, [[101], [], []]⟩) hservice rfl
  obtain ⟨endpoints', endpoint', hsub', hend', hlookup'⟩ := hgot.registered
  obtain rfl := Option.some.inj (hsub.symm.trans hsub')
  obtain rfl := Except.ok.inj (hend.symm.trans hend')
  obtain rfl := Option.some.inj (hlookup.symm.trans hlookup')
  exact ⟨r, hgot.handled⟩

end AfterRequests

end

/-! ### One connection among others -/

/-- A connection of a server goes through a run that it could go through alone. -/
theorem connections_alone (cfg : SharedConfig σ φ) (s s' : SharedServer σ φ) (hreach : (system cfg).Reachable s)
    (hsteps : (system cfg).Steps s s') (i : ℕ) (conn : SharedConnection) (hconn : s.connections[i]? = some conn) :
    (RpcConnection.system (alone cfg)).Reachable conn.rpc ∧ ∃ conn', s'.connections[i]? = some conn' ∧
      (RpcConnection.system (alone cfg)).Steps conn.rpc conn'.rpc := by
  obtain ⟨conn', hconn', hlater⟩ := steps_connection_kept hreach hsteps hconn
  exact ⟨(Inv.of_reachable hreach).alone i conn hconn, conn', hconn', hlater.steps⟩

/-- One connection, while calls are made on two. -/
theorem counter_alone : ∃ order s s' conn conn', AfterRequests order [0, 0] s ∧ AfterRequests order [1, 1] s' ∧
    s.connections[1]? = some conn ∧ s'.connections[1]? = some conn' ∧
      (RpcConnection.system (alone counter)).Steps conn.rpc conn'.rpc := by
  obtain ⟨order⟩ := exists_order
  obtain ⟨s, h⟩ := exists_connected order
  obtain ⟨s₁, hsteps₁, h₁⟩ := h.next (i := 0) rfl (by decide)
  obtain ⟨s₂, hsteps₂, h₂⟩ := h₁.next (i := 1) rfl (by decide)
  obtain ⟨conn, hconn, -⟩ := h.connection (i := 1) rfl
  obtain ⟨-, conn', hconn', halone⟩ :=
    connections_alone counter s s₂ h.reachable (hsteps₁.trans hsteps₂) 1 conn hconn
  exact ⟨order, s, s₂, conn, conn', h, h₂, hconn, hconn', halone⟩

/-! ### The requests of a handler -/

/-- What the handlers have done. -/
structure Serialized (cfg : SharedConfig σ φ) (s : SharedServer σ φ) : Prop where
  /-- A handler is as it is after its requests, one after another. -/
  serial : ∀ (h : ℕ) ref, s.handlers[h]? = some ref →
    Serial ref.service ref.initial ref.locked.requests ref.locked.state
  /-- At most one of them is being served. -/
  single : ∀ (h c d : ℕ) ref x y f g, s.handlers[h]? = some ref → ref.locked.requests[c]? = some (x, .running f) →
    ref.locked.requests[d]? = some (y, .running g) → c = d
  /-- Each of them is that of one call. -/
  asked : ∀ (h r : ℕ) ref, s.handlers[h]? = some ref → r < ref.locked.requests.length →
    ∃ i k, s.Handled i k h r ∧ ∀ j l, s.Handled j l h r → i = j ∧ k = l
  /-- A call is handled at most once. -/
  once : ∀ i k h h' r r', s.Handled i k h r → s.Handled i k h' r' → h = h' ∧ r = r'
  /-- A task answers with what the handler of its request returned. -/
  answered : ∀ (i k : ℕ) conn task request answer, s.connections[i]? = some conn →
    conn.rpc.server.tasks[k]? = some task → task.phase = .answered request answer →
    ∃ h r ref response order, conn.handling k = .called h r ∧ s.Registered request h ∧ s.handlers[h]? = some ref ∧
      ref.locked.requests[r]? = some (request.2, .returned response) ∧
      (frameHandler cfg).finish order task.id request.1 response = .ok answer

/-- The requests to a handler are served one after another, each once. -/
theorem handlers_serial (cfg : SharedConfig σ φ) (s : SharedServer σ φ) (hreach : (system cfg).Reachable s)
    (hids : ∀ (i : ℕ) conn, s.connections[i]? = some conn → conn.rpc.client.calls.length ≤ 2 ^ 32) :
    Serialized cfg s := by
  have hinv := Inv.of_reachable hreach
  refine ⟨fun h ref href => (hinv.handlers h ref href).serial, ?_, fun h r ref href hr => ?_, ?_, ?_⟩
  · intro h c d ref x y f g href hc hd
    exact (hinv.handlers h ref href).running_unique hc hd
  · obtain ⟨i, k, hhandled⟩ := hinv.exists_handled hids href hr
    exact ⟨i, k, hhandled, fun j l hother => hhandled.call_unique hinv hids hother⟩
  · intro i k h h' r r' hhandled hhandled'
    exact hhandled.place_unique hinv hids hhandled'
  · intro i k conn task request answer hconn htask hphase
    exact hinv.answer_returned hconn htask hphase

theorem counter_serial : ∃ order s, AfterRequests order [2, 1] s ∧ Serialized counter s := by
  obtain ⟨order⟩ := exists_order
  obtain ⟨s, h⟩ := exists_connected order
  obtain ⟨s, -, h⟩ := h.next (i := 0) rfl (by decide)
  obtain ⟨s, -, h⟩ := h.next (i := 1) rfl (by decide)
  obtain ⟨s, -, h⟩ := h.next (i := 0) rfl (by decide)
  exact ⟨order, s, h, handlers_serial counter s h.reachable fun i conn => h.ids⟩

/-- A call returns what the handler of its request gave in the state that the requests before it had left. -/
theorem results_serialized (cfg : SharedConfig σ φ) (s : SharedServer σ φ) (hreach : (system cfg).Reachable s) (i : ℕ)
    (conn : SharedConnection) (hconn : s.connections[i]? = some conn) (hids : conn.rpc.client.calls.length ≤ 2 ^ 32)
    {REQ RES : Type} [Message REQ] [LawfulMessage REQ] [Message RES] [LawfulMessage RES] (subchannel : SubChannel)
    (order : (headers : HashMap String String) → Iter headers) (request : REQ) (margs : MessageArgs)
    (hmargs : Message.tryInto request = .ok margs)
    (hcarried : margs.Carried (requestRoom subchannel.serviceName margs.argScheme)) (k : ℕ) (call : ClientCall)
    (hcall : conn.rpc.client.calls[k]? = some call)
    (hop : call.operation = .send (SubChannel.exchange RES subchannel order request)) (result : HandlerResult RES)
    (hresult : SubChannel.receiveFrom RES ⟨call.received, false⟩ = some result) :
    ∃ h r ref endpoints endpoint, s.Handled i k h r ∧ s.handlers[h]? = some ref ∧
      s.subchannels.lookup subchannel.serviceName = some endpoints ∧
      SubChannel.readEndpointName margs = .ok endpoint ∧ endpoints.lookup endpoint = some h ∧
      ∀ handles : REQ → σ → HandlerResult RES → σ → Prop, Adapts REQ RES ref.service handles →
        ∃ t t' handled m response, Serial ref.service ref.initial (ref.locked.requests.take r) t ∧
          handles request t handled t' ∧
          Serial ref.service t' (ref.locked.requests.drop (r + 1)) ref.locked.state ∧
          (handled = .ok m ∨ handled = .error (.messageError m)) ∧ Message.tryInto m = .ok response ∧
          (response.Carried (responseRoom subchannel.serviceName response.argScheme) →
            result = if ∃ p ∈ starts (responseRoom subchannel.serviceName response.argScheme)
                (response.args.map List.length), Overdrawn p then
              .error (.internalError (.error "Expected 'CallResponse' got 'Error'"))
            else .ok m) := by
  have hinv := Inv.of_reachable hreach
  have hreceived : call.received ≠ [] := by
    intro hnil
    rw [hnil] at hresult
    cases hresult
  obtain ⟨h, r, fields, ref, response, hgot, hservice, hlen⟩ :=
    hinv.got hconn hids hcall hreceived hop hmargs hcarried
  obtain ⟨endpoints, endpoint, hsub, hend, hlookup⟩ := hgot.registered
  refine ⟨h, r, ref, endpoints, endpoint, hgot.handled, hgot.isHandler, hservice ▸ hsub, hend, hlookup,
    fun handles hadapts => ?_⟩
  obtain ⟨t, t', hbefore, hreturns, hafter⟩ := (hinv.handlers h ref hgot.isHandler).serial.at_index hgot.returned
  obtain ⟨handled, hhandles, rfl⟩ :=
    (hadapts.returns_ok (LawfulMessage.tryFrom_tryInto request margs hmargs)).1 hreturns
  obtain ⟨order', answer, hfinish, rest, hrest⟩ := hgot.received
  obtain ⟨m, response, hm, hresponse, harrives⟩ := FrameHandler.finish_received RES hlen hfinish
  rw [hservice] at harrives
  refine ⟨t, t', handled, m, response, hbefore, hhandles, hafter, hm, hresponse, fun hcarried' => ?_⟩
  have hall := SubChannel.receiveFrom_append rest hresult
  rw [hrest, harrives hcarried'] at hall
  exact (Option.some.inj hall).symm

/-- The request comes back, after one of another connection. -/
theorem counter_returns : ∃ order s conn call, AfterRequests order [1, 1] s ∧ s.connections[1]? = some conn ∧
    conn.rpc.client.calls[1]? = some call ∧
    SubChannel.receiveFrom RawMessage ⟨call.received, false⟩ = some (.ok ⟨"e", "", []⟩) := by
  obtain ⟨order⟩ := exists_order
  obtain ⟨s, h⟩ := exists_connected order
  obtain ⟨s, -, h⟩ := h.next (i := 0) rfl (by decide)
  obtain ⟨s, -, h⟩ := h.next (i := 1) rfl (by decide)
  obtain ⟨conn, call, hconn, hcall⟩ := h.exists_call (i := 1) (k := 1) rfl (by decide)
  obtain ⟨result, hresult⟩ := h.received hconn (Nat.le_refl 1) hcall
  obtain ⟨m, r, ref, endpoints, endpoint, -, href, hsub, hend, hlookup, hserial⟩ :=
    results_serialized counter s h.reachable 1 conn hconn (h.ids hconn) FrameHandler.echoSubChannel order
      (RawMessage.mk "e" "" []) ⟨.raw, [[101], [], []]⟩ rfl ⟨by decide, by decide, by decide, by decide⟩ 1 call hcall
      (h.requests 1 1 conn call hconn (Nat.le_refl 1) hcall) result hresult
  obtain ⟨ref', href', hcounting⟩ := h.inv.registered _ endpoints endpoint m hsub hlookup
  obtain rfl := Option.some.inj (href.symm.trans href')
  obtain ⟨t, t', handled, message, response, -, hhandles, -, hm, hresponse, hreturned⟩ :=
    hserial (fun request n handled n' => ((.ok request : HandlerResult RawMessage), n + 1) = (handled, n'))
      (.sync _ (congrArg BoxedHandler.service hcounting) fun _ _ _ _ => Iff.rfl)
  obtain ⟨rfl, rfl⟩ := Prod.mk.inj hhandles
  obtain rfl : RawMessage.mk "e" "" [] = message := by
    rcases hm with hm | hm
    · exact Except.ok.inj hm
    · cases hm
  obtain rfl := Except.ok.inj hresponse
  rw [hreturned ⟨by decide, by decide, by decide, by decide⟩, if_neg (by decide)] at hresult
  exact ⟨order, s, conn, call, h, hconn, hcall, hresult⟩

/-- The order of the requests is that of the calls, on whatever connections: a call that has got something back has
its place, which it keeps, and a call that is yet to be made gets a later one. -/
theorem order_respected (cfg : SharedConfig σ φ) (s s' : SharedServer σ φ) (hreach : (system cfg).Reachable s)
    (hsteps : (system cfg).Steps s s') :
    (∀ (i k : ℕ) conn call, s.connections[i]? = some conn → conn.rpc.client.calls.length ≤ 2 ^ 32 → 1 ≤ k →
      conn.rpc.client.calls[k]? = some call → call.received ≠ [] → ∃ h r, s.Handled i k h r) ∧
    ∀ i k h r, s.Handled i k h r → s'.Handled i k h r ∧ ∀ j l r',
      (∀ conn, s.connections[j]? = some conn → conn.rpc.client.calls.length ≤ l) →
      (∀ conn, s'.connections[j]? = some conn → conn.rpc.client.calls.length ≤ 2 ^ 32) →
      s'.Handled j l h r' → r < r' :=
  ⟨fun _ _ _ _ hconn hids hk hcall hreceived => (Inv.of_reachable hreach).handled hconn hids hk hcall hreceived,
    fun _ _ _ _ hfirst => ⟨hfirst.kept hreach hsteps, fun _ _ _ hnew hids hsecond =>
      hfirst.lt hreach hsteps hnew hids hsecond⟩⟩

/-- A call on the one connection has returned when one is made on the other. -/
theorem counter_order : ∃ order s s' r r', AfterRequests order [1, 0] s ∧ AfterRequests order [1, 1] s' ∧
    s.Handled 0 1 0 r ∧ s'.Handled 0 1 0 r ∧ s'.Handled 1 1 0 r' ∧ r < r' := by
  obtain ⟨order⟩ := exists_order
  obtain ⟨s, h⟩ := exists_connected order
  obtain ⟨s, -, h⟩ := h.next (i := 0) rfl (by decide)
  obtain ⟨s', hsteps, h'⟩ := h.next (i := 1) rfl (by decide)
  obtain ⟨hplace, hlater⟩ := order_respected counter s s' h.reachable hsteps
  obtain ⟨conn, call, hconn, hcall⟩ := h.exists_call (i := 0) (k := 1) rfl (by decide)
  obtain ⟨m, r, hfirst⟩ := hplace 0 1 conn call hconn (h.ids hconn) (Nat.le_refl 1) hcall
    (h.received_ne hconn (Nat.le_refl 1) hcall)
  obtain ⟨r₀, hfirst₀⟩ := h.handled hconn (Nat.le_refl 1) hcall
  obtain ⟨rfl, rfl⟩ := hfirst.place_unique h.inv (fun i conn => h.ids) hfirst₀
  obtain ⟨conn', call', hconn', hcall'⟩ := h'.exists_call (i := 1) (k := 1) rfl (by decide)
  obtain ⟨r', hsecond⟩ := h'.handled hconn' (Nat.le_refl 1) hcall'
  obtain ⟨hkept, hlt⟩ := hlater 0 1 0 r hfirst
  refine ⟨order, s, s', r, r', h, h', hfirst, hkept, hsecond, hlt 1 1 r' (fun c hc => ?_) (fun c => h'.ids) hsecond⟩
  obtain ⟨n, hn, hlen, -⟩ := calls_of_uses h.uses hc
  obtain rfl := Option.some.inj hn
  exact hlen.le

/-! ### Ends -/

/-- Without new calls, a server and its clients come to rest, whatever the schedule, if the handlers do. -/
theorem servers_end (cfg : SharedConfig σ φ) (hend : AllEnd cfg) : WellFounded (Function.swap (Moves cfg)) ∧
    ∀ s, (system cfg).Reachable s → s.Ready → ∃ s', Settles cfg s s' :=
  ⟨Moves.wellFounded hend, fun _ hreach hready => exists_settles hreach hready hend⟩

/-- A call was made on one of the connections. -/
theorem counter_ends : ∃ s s', (system counter).Reachable s ∧ s.uses = [(2, true), (1, true)] ∧
    Settles counter s s' := by
  obtain ⟨order⟩ := exists_order
  obtain ⟨s₀, h⟩ := exists_connected order
  obtain ⟨s, hstep, huses, -⟩ := h.called (i := 0) rfl
  have hreach := h.reachable.step hstep
  obtain ⟨s', hsettles⟩ := (servers_end counter counter_allEnd).2 s hreach (ready_of_uses huses (by decide))
  exact ⟨s, s', hreach, huses, hsettles⟩

/-- There every call on a connection has returned, if the server has a place for each. -/
theorem servers_complete (cfg : SharedConfig σ φ) (htotal : AllTotal cfg) (s : SharedServer σ φ)
    (hreach : (system cfg).Reachable s) (hrests : Rests cfg s) (i : ℕ) (conn : SharedConnection)
    (hconn : s.connections[i]? = some conn) (hids : conn.rpc.client.calls.length ≤ 2 ^ 32)
    (halive : conn.rpc.client.outgoing.receiverAlive = true) (hlive : conn.rpc.server.stopped = none)
    (hfew : conn.rpc.client.calls.countP (·.phase.isReading) < cfg.rpc.server.serverTasks) :
    ∀ (k : ℕ) call, conn.rpc.client.calls[k]? = some call → Returned call := fun _ _ hcall =>
  hrests.returned hreach htotal hconn hids halive hlive hfew hcall

theorem counter_completes : ∃ order s, AfterRequests order [2, 1] s ∧ ∀ (i k : ℕ) conn call,
    s.connections[i]? = some conn → conn.rpc.client.calls[k]? = some call → Returned call := by
  obtain ⟨order⟩ := exists_order
  obtain ⟨s, h⟩ := exists_connected order
  obtain ⟨s, -, h⟩ := h.next (i := 0) rfl (by decide)
  obtain ⟨s, -, h⟩ := h.next (i := 1) rfl (by decide)
  obtain ⟨s, -, h⟩ := h.next (i := 0) rfl (by decide)
  exact ⟨order, s, h, fun i k conn call hconn hcall => servers_complete counter counter_allTotal s h.reachable h.rests i
    conn hconn (h.ids hconn) (h.alive hconn) (h.live hconn) (h.few_reading hconn) k call hcall⟩

end SharedServer

end Tchannel
