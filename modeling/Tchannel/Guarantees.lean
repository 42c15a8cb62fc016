import Tchannel.CallResults
import Tchannel.RpcTermination
import Tchannel.Uptime

/-!
# What a connection guarantees

Of a client and a server of this crate that share a connection, in every state that any calls and any schedule
lead to while the ids last: the calls get the answers to their own requests (`calls_answered`), and these are what
the handlers made of the requests (`results_arrive`); the connection comes to rest (`moves_end`), and then every
call has returned, if the server has a place for each (`calls_complete`). The server is there as long as every
call is served (`stays_up`); else calls may wait forever (`waits_forever`), as pings do (`pings_wait`).
-/

namespace Tchannel
open Wire ArgsFragmenter Fragmenter

namespace RpcConnection

/-! ### A connection to the echo server -/

def echo : RpcConfig where
  bufferSize := 1
  bufferSize_pos := Nat.one_pos
  server :=
    { serverTasks := 3
      bufferSize := 1
      serverTasks_pos := Nat.succ_pos 2
      bufferSize_pos := Nat.one_pos
      handlers := (· = FrameHandler.echoServer)
      debugErrorMsg := ErrorMsg.message }
  room := fun _ => True
  room_nil := trivial

variable {cfg : RpcConfig}

theorem exists_order : Nonempty ((headers : HashMap String String) → Iter headers) :=
  ⟨fun _ => ⟨_, Multiset.coe_toList _⟩⟩

theorem exists_start (cfg : RpcConfig) : ∃ s call, (system cfg).Reachable s ∧ s.client.calls = [call] ∧
    s.client.outgoing.receiverAlive = true := by
  obtain ⟨it, order, request, answer, hrequest, hanswer⟩ := exists_handshake
  exact ⟨_, _, .start ⟨it, order, request, answer, hrequest, hanswer, rfl⟩, rfl, rfl⟩

/-- The state after one call, when nothing moves any more. -/
structure AfterCall (cfg : RpcConfig) (operation : Operation) (s : RpcConnection) (call : ClientCall) : Prop where
  reachable : (system cfg).Reachable s
  calls : s.client.calls.length = 2
  alive : s.client.outgoing.receiverAlive = true
  rests : Rests cfg s
  isCall : s.client.calls[1]? = some call
  operation : call.operation = operation

theorem exists_afterCall (cfg : RpcConfig) (operation : Operation) (hused : operation.Used) :
    ∃ s call, AfterCall cfg operation s call := by
  obtain ⟨s₀, first, hstart, hcalls, halive⟩ := exists_start cfg
  have hcalled := hstart.step (.calls hused)
  have hlen : (s₀.client.calls ++ [ClientCall.new operation s₀.client.nextMessageId]).length = 2 := by
    rw [hcalls]
    rfl
  obtain ⟨s, hsettles⟩ := exists_settles hcalled (hlen.trans_le (by decide)) halive
  have hcall : (s₀.client.calls ++ [ClientCall.new operation s₀.client.nextMessageId])[1]? =
      some (ClientCall.new operation s₀.client.nextMessageId) := by
    rw [hcalls]
    rfl
  obtain ⟨call, hcall', hop, -⟩ := steps_call_kept hsettles.steps hcall
  exact ⟨s, call, hcalled.steps hsettles.steps, hsettles.calls.trans hlen, hsettles.alive, hsettles.rests, hcall', hop⟩

/-- The server answers a request that survives being cut, if whoever handles its service does. -/
theorem Serves.of_carried {call : ClientCall} {REQ RES : Type} [Message REQ] [Message RES] {subchannel : SubChannel}
    {order : (headers : HashMap String String) → Iter headers} {request : REQ} {margs : MessageArgs}
    (hop : call.operation = .send (SubChannel.exchange RES subchannel order request))
    (hmargs : Message.tryInto request = .ok margs)
    (hcarried : margs.Carried (requestRoom subchannel.serviceName margs.argScheme))
    (hanswers : ∀ handler, cfg.server.handlers handler → ∀ fields : CallRequestFields,
      fields.service = subchannel.serviceName → handler.Answerable fields margs ∧
        ∀ registered code response, handler.subchannels.lookup fields.service = some registered →
          registered.handle margs = .ok (code, response) → queueSize response.args < 2 ^ 64) :
    Serves cfg call := by
  intro frames hframes
  have hframes : subchannel.createFrames order request = .ok frames := by
    rw [hop] at hframes
    exact hframes
  obtain ⟨margs', hmargs', hcut⟩ := SubChannel.createFrames_eq_ok.1 hframes
  obtain rfl := Except.ok.inj (hmargs'.symm.trans hmargs)
  obtain ⟨fields, hread, hservice⟩ := readPhase_createFrames hcut hcarried call.id
  exact ⟨(fields, margs'), hread, fun handler hhandler => hanswers handler hhandler fields hservice⟩

/-- The request that is sent back. -/
def echoRequest (order : (headers : HashMap String String) → Iter headers) : Operation :=
  .send (SubChannel.exchange RawMessage FrameHandler.echoSubChannel order (RawMessage.mk "e" "" []))

theorem serves_echoRequest {order : (headers : HashMap String String) → Iter headers} {call : ClientCall}
    (hop : call.operation = echoRequest order) : Serves echo call := by
  have hcarried : MessageArgs.Carried ⟨.raw, [[101], [], []]⟩ (requestRoom "s" .raw) :=
    ⟨by decide, by decide, by decide, by decide⟩
  refine Serves.of_carried hop rfl hcarried ?_
  rintro _ rfl fields hservice
  have hservice : fields.service = "s" := hservice
  refine ⟨FrameHandler.answerable_iff.2 ⟨FrameHandler.echoSubChannel, (.ok, ⟨.raw, [[101], [], []]⟩), ?_, rfl⟩, ?_⟩
  · rw [hservice]
    rfl
  · intro registered code response hsub hr
    rw [hservice] at hsub
    obtain rfl := Option.some.inj hsub
    have hr' : (.ok (.ok, ⟨.raw, [[101], [], []]⟩) : MessageArgsResponse) = .ok (code, response) := hr
    obtain ⟨rfl, rfl⟩ := Prod.mk.inj (Except.ok.inj hr')
    decide

theorem Returned.received {order : (headers : HashMap String String) → Iter headers} {call : ClientCall}
    (h : Returned call) (hop : call.operation = echoRequest order) :
    ∃ result, SubChannel.receiveFrom RawMessage ⟨call.received, false⟩ = some result := by
  obtain ⟨frames, hframes⟩ : ∃ frames, call.operation.frames = .ok frames := by
    obtain ⟨frames, hcut⟩ : ∃ frames, (RequestFragmenter.new "s" ⟨.raw, [[101], [], []]⟩).createFrames (order _) =
        .ok frames := (RequestFragmenter.createFrames_ok_iff (by decide) (by decide) (by decide) _).2 (by decide)
    rw [hop]
    exact ⟨frames, SubChannel.createFrames_eq_ok.2 ⟨_, rfl, hcut⟩⟩
  obtain ⟨result, -, ⟨e, herror, -⟩ | hreads⟩ := h
  · rw [hframes] at herror
    cases herror
  · rw [hop] at hreads
    exact (Operation.receiveFrom_iff rfl call.received).1 ⟨result, hreads⟩

namespace AfterCall

variable {operation : Operation} {order : (headers : HashMap String String) → Iter headers} {s : RpcConnection}
  {call : ClientCall}

theorem ids (h : AfterCall cfg operation s call) : s.client.calls.length ≤ 2 ^ 32 := by
  rw [h.calls]
  decide

theorem inv (h : AfterCall cfg operation s call) : s.Inv cfg := Inv.of_reachable h.reachable h.ids

theorem isCalls (h : AfterCall cfg operation s call) : s.Calls := Calls.of_reachable h.reachable h.ids

theorem few (h : AfterCall cfg operation s call) (htasks : 2 < cfg.server.serverTasks) :
    s.client.calls.countP (·.phase.isReading) < cfg.server.serverTasks := by
  refine List.countP_le_length.trans_lt ?_
  rwa [h.calls]

theorem eq_call (h : AfterCall cfg operation s call) {k : ℕ} {c : ClientCall} (hk : 1 ≤ k)
    (hcall : s.client.calls[k]? = some c) : c = call := by
  have hlt := ClientConnection.Inv.lt_length hcall
  rw [h.calls] at hlt
  obtain rfl : k = 1 := by omega
  exact Option.some.inj (hcall.symm.trans h.isCall)

theorem live (h : AfterCall cfg operation s call) (hserves : Serves cfg call) : s.server.stopped = none := by
  refine h.inv.live h.ids h.isCalls fun k c hk hcall => ?_
  rw [h.eq_call hk hcall]
  exact hserves

theorem serves (h : AfterCall echo (echoRequest order) s call) : Serves echo call := serves_echoRequest h.operation

theorem returned (h : AfterCall cfg operation s call) (hlive : s.server.stopped = none)
    (hhandlers : ∃ handler, cfg.server.handlers handler) (htasks : 2 < cfg.server.serverTasks) : Returned call :=
  h.rests.returned h.inv h.ids h.isCalls h.alive hlive hhandlers (h.few htasks) h.isCall

theorem echo_returned (h : AfterCall echo operation s call) (hlive : s.server.stopped = none) : Returned call :=
  h.returned hlive ⟨FrameHandler.echoServer, rfl⟩ (Nat.lt_succ_self 2)

theorem forsaken (h : AfterCall echo (.sendOne pingFrame) s call) : s.Forsaken 1 call := by
  have hone : call.operation.isSendOne = true := by
    rw [h.operation]
    rfl
  obtain ⟨hreading, -⟩ := h.inv.pings h.ids h.isCalls h.alive (Nat.le_refl 1) h.isCall hone
  have hstopped : s.server.stopped ≠ none := by
    intro hlive
    obtain ⟨result, hphase, -⟩ := h.echo_returned hlive
    rw [hphase] at hreading
    cases hreading
  have hidle := h.rests.client.idle h.inv h.ids h.isCalls h.alive
  have hdone := h.rests.clientDone hidle h.alive (h.rests.written_of_gone hstopped)
  obtain ⟨hphase, hqueue⟩ : call.phase = .receiving ∧ call.input.queue = [] := by
    rcases hdone.calls 1 call h.isCall with hwaits | hphase | ⟨result, hphase⟩
    · exact hwaits
    all_goals
      rw [hphase] at hreading
      cases hreading
  have hreceived := ping_unanswered (h.inv.answered h.ids) h.isCalls h.isCall (Nat.le_refl 1) hone
  refine ⟨hstopped, h.isCall, hphase, ?_⟩
  rw [reaching, hreceived, hqueue, hdone.responses, ClientConnection.inFlight_of_idle hdone.idle]
  exact call.operation.reads_nil

theorem received (h : AfterCall cfg (echoRequest order) s call) (hreturned : Returned call) :
    ∃ result, SubChannel.receiveFrom RawMessage ⟨call.received, false⟩ = some result :=
  hreturned.received h.operation

end AfterCall

/-! ### Answers -/

/-- Each call gets the answer to its own request, from a task that handles it alone. -/
theorem calls_answered (cfg : RpcConfig) (s : RpcConnection) (hreach : (system cfg).Reachable s)
    (hids : s.client.calls.length ≤ 2 ^ 32) : Answered cfg s :=
  (Inv.of_reachable hreach hids).answered hids

theorem echo_answered : ∃ order s call, AfterCall echo (echoRequest order) s call ∧ Answered echo s := by
  obtain ⟨order⟩ := exists_order
  obtain ⟨s, call, h⟩ := exists_afterCall echo (echoRequest order) (.send _)
  exact ⟨order, s, call, h, calls_answered echo s h.reachable h.ids⟩

/-- What the caller gets is what the handler of its request gave. -/
theorem results_arrive (cfg : RpcConfig) (s : RpcConnection) (hreach : (system cfg).Reachable s)
    (hids : s.client.calls.length ≤ 2 ^ 32) {REQ RES : Type} [Message REQ] [LawfulMessage REQ] [Message RES]
    [LawfulMessage RES] (subchannel : SubChannel) (order : (headers : HashMap String String) → Iter headers)
    (request : REQ) (margs : MessageArgs) (hmargs : Message.tryInto request = .ok margs)
    (hcarried : margs.Carried (requestRoom subchannel.serviceName margs.argScheme)) (k : ℕ) (call : ClientCall)
    (hcall : s.client.calls[k]? = some call)
    (hop : call.operation = .send (SubChannel.exchange RES subchannel order request)) (result : HandlerResult RES)
    (hresult : SubChannel.receiveFrom RES ⟨call.received, false⟩ = some result) :
    ∃ handler registered, cfg.server.handlers handler ∧ handler.Registers subchannel.serviceName margs registered ∧
      ∀ f : RequestHandler REQ RES, registered.handle = RequestHandlerAdapter.handle f → ∃ m response,
        (f request = .ok m ∨ f request = .error (.messageError m)) ∧ Message.tryInto m = .ok response ∧
          (response.Carried (responseRoom subchannel.serviceName response.argScheme) →
            result = if ∃ p ∈ starts (responseRoom subchannel.serviceName response.argScheme)
                (response.args.map List.length), Overdrawn p then
              .error (.internalError (.error "Expected 'CallResponse' got 'Error'"))
            else .ok m) := by
  have hne : call.received ≠ [] := by
    intro hnil
    rw [hnil] at hresult
    cases hresult
  have hk := (Calls.of_reachable hreach hids).pos_of_send hcall hop
  obtain ⟨j, task, answer, -, hanswer, rest, hrest⟩ :=
    ((Inv.of_reachable hreach hids).answered hids).own k call hk hcall hne
  obtain ⟨handler, order', fields, hhandler, hservice, hlen, hrespond⟩ := hanswer.responds hop hmargs hcarried
  obtain ⟨registered, hregisters, hreceived⟩ := FrameHandler.respond_received RES hmargs hlen hrespond
  rw [hservice] at hregisters hreceived
  refine ⟨handler, registered, hhandler, hregisters, fun f hf => ?_⟩
  obtain ⟨m, response, hm, hresponse, harrives⟩ := hreceived f hf
  refine ⟨m, response, hm, hresponse, fun hcarried' => ?_⟩
  have hall := SubChannel.receiveFrom_append rest hresult
  rw [hrest, harrives hcarried'] at hall
  exact (Option.some.inj hall).symm

/-- The request comes back. -/
theorem echo_arrives : ∃ order s call, AfterCall echo (echoRequest order) s call ∧
    SubChannel.receiveFrom RawMessage ⟨call.received, false⟩ = some (.ok ⟨"e", "", []⟩) := by
  obtain ⟨order⟩ := exists_order
  obtain ⟨s, call, h⟩ := exists_afterCall echo (echoRequest order) (.send _)
  obtain ⟨result, hresult⟩ := h.received (h.echo_returned (h.live h.serves))
  obtain ⟨_, registered, rfl, ⟨registrar, endpoint, hsub, hend, hregistered⟩, harrives⟩ :=
    results_arrive echo s h.reachable h.ids FrameHandler.echoSubChannel order (RawMessage.mk "e" "" [])
      ⟨.raw, [[101], [], []]⟩ rfl ⟨by decide, by decide, by decide, by decide⟩ 1 call h.isCall h.operation result hresult
  obtain rfl := Option.some.inj hsub
  obtain rfl := Except.ok.inj hend
  obtain rfl := Option.some.inj hregistered
  obtain ⟨m, response, hm, hresponse, hresult'⟩ := harrives (Except.ok : RequestHandler RawMessage RawMessage) rfl
  obtain rfl : RawMessage.mk "e" "" [] = m := by
    rcases hm with hm | hm
    · exact Except.ok.inj hm
    · cases hm
  obtain rfl := Except.ok.inj hresponse
  rw [hresult' ⟨by decide, by decide, by decide, by decide⟩, if_neg (by decide)] at hresult
  exact ⟨order, s, call, h, hresult⟩

/-! ### Ends -/

/-- Without new calls, a connection comes to rest, whatever the schedule. -/
theorem moves_end (cfg : RpcConfig) : WellFounded (Function.swap (Moves cfg)) ∧
    ∀ s, (system cfg).Reachable s → s.client.calls.length ≤ 2 ^ 32 → s.client.outgoing.receiverAlive = true →
      ∃ s', Settles cfg s s' :=
  ⟨Moves.wellFounded cfg, fun _ => exists_settles⟩

/-- A request was made. -/
theorem echo_settles : ∃ order s s' call, (system echo).Reachable s ∧ s.client.calls[1]? = some call ∧
    call.operation = echoRequest order ∧ call.phase = .allocated ∧ Settles echo s s' := by
  obtain ⟨order⟩ := exists_order
  obtain ⟨s₀, first, hstart, hcalls, halive⟩ := exists_start echo
  have hcalled := hstart.step (.calls (show (echoRequest order).Used from .send _))
  have hlen : (s₀.client.calls ++ [ClientCall.new (echoRequest order) s₀.client.nextMessageId]).length = 2 := by
    rw [hcalls]
    rfl
  obtain ⟨s, hsettles⟩ := (moves_end echo).2 _ hcalled (hlen.trans_le (by decide)) halive
  exact ⟨order, _, s, ClientCall.new (echoRequest order) s₀.client.nextMessageId, hcalled, by rw [hcalls]; rfl, rfl, rfl,
    hsettles⟩

/-- There every call has returned, if the server has a place for each. -/
theorem calls_complete (cfg : RpcConfig) (s : RpcConnection) (hreach : (system cfg).Reachable s)
    (hids : s.client.calls.length ≤ 2 ^ 32) (halive : s.client.outgoing.receiverAlive = true)
    (hlive : s.server.stopped = none) (hhandlers : ∃ handler, cfg.server.handlers handler)
    (hfew : s.client.calls.countP (·.phase.isReading) < cfg.server.serverTasks) (hrests : Rests cfg s) :
    ∀ (k : ℕ) call, s.client.calls[k]? = some call → Returned call := fun _ _ hcall =>
  hrests.returned (Inv.of_reachable hreach hids) hids (Calls.of_reachable hreach hids) halive hlive hhandlers hfew hcall

theorem echo_completes : ∃ order s call, AfterCall echo (echoRequest order) s call ∧ Returned call := by
  obtain ⟨order⟩ := exists_order
  obtain ⟨s, call, h⟩ := exists_afterCall echo (echoRequest order) (.send _)
  exact ⟨order, s, call, h, calls_complete echo s h.reachable h.ids h.alive (h.live h.serves) ⟨FrameHandler.echoServer, rfl⟩
    (h.few (Nat.lt_succ_self 2)) h.rests 1 call h.isCall⟩

/-- The server is there while it can answer the calls. -/
theorem stays_up (cfg : RpcConfig) (s : RpcConnection) (hreach : (system cfg).Reachable s)
    (hids : s.client.calls.length ≤ 2 ^ 32)
    (hserves : ∀ (k : ℕ) call, 1 ≤ k → s.client.calls[k]? = some call → Serves cfg call) : s.server.stopped = none :=
  (Inv.of_reachable hreach hids).live hids (Calls.of_reachable hreach hids) hserves

theorem echo_stays_up : ∃ order s call, AfterCall echo (echoRequest order) s call ∧ s.server.stopped = none := by
  obtain ⟨order⟩ := exists_order
  obtain ⟨s, call, h⟩ := exists_afterCall echo (echoRequest order) (.send _)
  exact ⟨order, s, call, h, stays_up echo s h.reachable h.ids fun k c hk hcall => by
    rw [h.eq_call hk hcall]
    exact h.serves⟩

/-- No ping returns, and the connection ends with the first one that gets to the server. -/
theorem pings_wait (cfg : RpcConfig) (s : RpcConnection) (hreach : (system cfg).Reachable s)
    (hids : s.client.calls.length ≤ 2 ^ 32) (halive : s.client.outgoing.receiverAlive = true) (k : ℕ) (hk : 1 ≤ k)
    (call : ClientCall) (hcall : s.client.calls[k]? = some call) (hping : call.operation.isSendOne = true) :
    call.phase.isReading = true ∧ ∀ (j : ℕ) task, s.server.tasks[j]? = some task → task.id = call.id →
      task.received ≠ [] → s.server.stopped ≠ none :=
  (Inv.of_reachable hreach hids).pings hids (Calls.of_reachable hreach hids) halive hk hcall hping

theorem ping_waits : ∃ s call, AfterCall echo (.sendOne pingFrame) s call ∧ call.phase.isReading = true := by
  obtain ⟨s, call, h⟩ := exists_afterCall echo (.sendOne pingFrame) .ping
  have hone : call.operation.isSendOne = true := by
    rw [h.operation]
    rfl
  exact ⟨s, call, h, (pings_wait echo s h.reachable h.ids h.alive 1 (Nat.le_refl 1) call h.isCall hone).1⟩

/-- When the connection is over, a call for which no response is in flight waits forever, with its sender
registered. -/
theorem waits_forever (cfg : RpcConfig) (s s' : RpcConnection) (hreach : (system cfg).Reachable s) (k : ℕ)
    (call : ClientCall) (hforsaken : s.Forsaken k call) (hsteps : (system cfg).Steps s s')
    (hids : s'.client.calls.length ≤ 2 ^ 32) :
    ∃ call', s'.Forsaken k call' ∧ s'.client.pendingIds.get call'.id = some k := by
  obtain ⟨call', hforsaken'⟩ := hforsaken.steps hreach hsteps hids
  exact ⟨call', hforsaken', hforsaken'.registered (Inv.of_reachable (hreach.steps hsteps) hids) hids⟩

/-- A ping waits after a second one. -/
theorem ping_waits_forever : ∃ s s' call call', AfterCall echo (.sendOne pingFrame) s call ∧
    (system echo).Steps s s' ∧ s'.client.calls.length = 3 ∧ s'.Forsaken 1 call' ∧
      s'.client.pendingIds.get call'.id = some 1 := by
  obtain ⟨s, call, h⟩ := exists_afterCall echo (.sendOne pingFrame) .ping
  have hstep : (system echo).Steps s _ := .single (.calls .ping)
  have hlen : (s.client.calls ++ [ClientCall.new (.sendOne pingFrame) s.client.nextMessageId]).length = 3 := by
    rw [List.length_append, h.calls]
    rfl
  obtain ⟨call', hforsaken, hregistered⟩ :=
    waits_forever echo s _ h.reachable 1 call h.forsaken hstep (hlen.trans_le (by decide))
  exact ⟨s, _, call, call', h, hstep, hlen, hforsaken, hregistered⟩

end RpcConnection

end Tchannel
