import Tchannel.RpcCompletion

/-!
# How long a connection lives

A connection of the server is over once the request of a call cannot be answered: nobody handles it, or its
handler fails. As long as there is no such call it lives, whatever the schedule (`RpcConnection.Inv.live`). Afterwards
the client gets what is still in flight, and a call for which this is not enough waits forever
(`RpcConnection.Forsaken.steps`). The pings of the pool are such calls (`RpcConnection.Inv.pings`): the server answers
none, and the first one that reaches it ends the connection.
-/

namespace Tchannel
open Wire ArgsFragmenter

/-! ### What ends a connection -/

/-- Why a task has failed: its request cannot be read, or it was not answered. -/
def Task.Fails (cfg : ServerConfig) (task : Task) (e : Stop) : Prop :=
  readPhase task.received = .failed e ∨ ∃ request err, readPhase task.received = .read request ∧
    Server.Responds cfg task.id request (.error err)

theorem Server.Step.fails {cfg : ServerConfig} {s s' : Server} (hinv : s.Inv cfg) (hstep : s.Step cfg s')
    (h : ∀ (k : ℕ) task e, s.tasks[k]? = some task → task.phase = .failed e → task.Fails cfg e) :
    ∀ (k : ℕ) task e, s'.tasks[k]? = some task → task.phase = .failed e → task.Fails cfg e := by
  obtain ⟨-, hmove⟩ := hstep
  intro j t e ht hfailed
  cases hmove with
  | next _ _ _ => exact h j t e ht hfailed
  | sendFails _ _ _ _ => exact h j t e ht hfailed
  | firstFails _ _ _ => exact h j t e ht hfailed
  | @send frame k task _ _ htask _ =>
    rcases getElem?_set_cases ht with ⟨-, rfl⟩ | ⟨-, ht⟩
    · exact h k task e htask hfailed
    · exact h j t e ht hfailed
  | first _ _ _ =>
    rcases getElem?_concat_cases ht with ht | ⟨-, rfl⟩
    · exact h j t e ht hfailed
    · cases hfailed
  | receive htask _ _ =>
    rcases getElem?_set_cases ht with ⟨-, rfl⟩ | ⟨-, ht⟩
    · exact .inl hfailed
    · exact h j t e ht hfailed
  | deregister _ htask _ =>
    rcases getElem?_set_cases ht with ⟨-, rfl⟩ | ⟨-, ht⟩
    · cases hfailed
    · exact h j t e ht hfailed
  | @reply k task request response htask hphase hresponse =>
    rcases getElem?_set_cases ht with ⟨-, rfl⟩ | ⟨-, ht⟩
    · cases response with
      | ok frames => cases hfailed
      | error err =>
        exact .inr ⟨request, err, (hinv.tasks k task htask).reads request (by rw [hphase]; rfl), hresponse⟩
    · exact h j t e ht hfailed

theorem Served.fails {cfg : ServerConfig} {t : Served} (h : (Served.system cfg).Reachable t) :
    ∀ (k : ℕ) task e, t.server.tasks[k]? = some task → task.phase = .failed e → task.Fails cfg e := by
  refine h.invariant (P := fun t => ∀ (k : ℕ) task e, t.server.tasks[k]? = some task → task.phase = .failed e →
    task.Fails cfg e) ?_ ?_
  · rintro t rfl k task e htask
    cases htask
  · intro t t' ht ih hstep
    cases hstep with
    | opens _ _ => exact ih
    | sends _ _ => exact ih
    | serves hstep => exact hstep.fails (Served.Inv.of_reachable ht).server ih

namespace RpcConnection

variable {cfg : RpcConfig} {s s' : RpcConnection} {k : ℕ} {call : ClientCall}

/-- Whoever handles the request of the call answers it; and no response is of a size beyond memory. -/
def Serves (cfg : RpcConfig) (call : ClientCall) : Prop :=
  ∀ frames, call.operation.frames = .ok frames → ∃ request,
    readPhase (frames.map (TFrameId.mk call.id)) = .read request ∧
      ∀ handler, cfg.server.handlers handler → handler.Answerable request.1 request.2 ∧
        ∀ subchannel code margs, handler.subchannels.lookup request.1.service = some subchannel →
          subchannel.handle request.2 = .ok (code, margs) → queueSize margs.args < 2 ^ 64

theorem Serves.responds (h : Serves cfg call) {frames : List TFrame} (hframes : call.operation.frames = .ok frames)
    {request : RequestRead} (hread : readPhase (frames.map (TFrameId.mk call.id)) = .read request)
    {err : TChannelError} (hresponds : Server.Responds cfg.server call.id request (.error err)) : False := by
  obtain ⟨request', hread', hhandlers⟩ := h frames hframes
  obtain rfl := TaskPhase.read.inj (hread.symm.trans hread')
  obtain ⟨handler, order, hhandler, herror⟩ := hresponds
  obtain ⟨hanswerable, hsize⟩ := hhandlers handler hhandler
  obtain ⟨fields, args⟩ := request
  obtain ⟨rest, hrun⟩ := readPhase_eq_read hread
  have hreturns := ((handler.handle_replies_iff order call.id _ rest fields args hrun hsize).2 hanswerable).returns
  rw [FrameHandler.handle_eq hrun, herror] at hreturns
  cases hreturns

theorem Inv.live (hinv : s.Inv cfg) (hids : s.client.calls.length ≤ 2 ^ 32) (hcalls : s.Calls)
    (hserves : ∀ (k : ℕ) call, 1 ≤ k → s.client.calls[k]? = some call → Serves cfg call) :
    s.server.stopped = none := by
  cases hstopped : s.server.stopped with
  | none => rfl
  | some e =>
    exfalso
    obtain ⟨reached, t, ht, hsim⟩ := hinv.served
    obtain ⟨task, hmem, hfailed⟩ := (Served.Inv.of_reachable ht).stopped e (by rw [hsim.server]; exact hstopped)
    obtain ⟨j, htask⟩ := List.getElem?_of_mem hmem
    have hfails := Served.fails ht j task e htask hfailed
    rw [hsim.server] at htask
    obtain ⟨k, call, frames, hcall, hid, hframes, rest, hrest⟩ := (hinv.answered hids).asked j task htask
    have hcallServes := hserves k call (hcalls.pos_of_task hinv htask hcall hid) hcall
    obtain ⟨request, hread, -⟩ := hcallServes frames hframes
    rcases hfails with hunread | ⟨request', err, hread', hresponds⟩
    · rw [← hrest, readPhase_append _ _ (by rw [hunread]; nofun), hunread] at hread
      cases hread
    · have hwhole : readPhase (frames.map (TFrameId.mk call.id)) = .read request' := by
        rw [← hrest, readPhase_append _ _ (by rw [hread']; nofun), hread']
      rw [← hid] at hresponds
      exact hcallServes.responds hframes hwhole hresponds

/-! ### What a call gets when the connection is over -/

theorem Inv.pings (hinv : s.Inv cfg) (hids : s.client.calls.length ≤ 2 ^ 32) (hcalls : s.Calls)
    (halive : s.client.outgoing.receiverAlive = true) (hk : 1 ≤ k) (hcall : s.client.calls[k]? = some call)
    (hping : call.operation.isSendOne = true) : call.phase.isReading = true ∧
      ∀ (j : ℕ) task, s.server.tasks[j]? = some task → task.id = call.id → task.received ≠ [] →
        s.server.stopped ≠ none := by
  have hanswered := hinv.answered hids
  obtain ⟨frame, hop⟩ : ∃ frame, call.operation = .sendOne frame := by
    cases hop : call.operation with
    | sendOne frame => exact ⟨frame, rfl⟩
    | send exchange =>
      rw [hop] at hping
      cases hping
  have hframes : call.operation.frames = .ok [frame] := by
    rw [hop]
    rfl
  refine ⟨?_, fun j task htask hid hreceived hlive => ?_⟩
  · by_contra hread
    refine (ClientConnection.outcomes hinv.client hids halive k call hcall).received_ne (Bool.eq_false_iff.2 hread)
      hframes (ping_unanswered hanswered hcalls hcall hk hping)
  · -- its task has failed
    obtain ⟨i, c, frames, hc, hcid, hframes', hpre⟩ := hanswered.asked j task htask
    obtain rfl := (ClientConnection.Inv.of_reachable hinv.client).eq_of_id_eq hids hc hcall (hcid.trans hid)
    obtain rfl := Option.some.inj (hc.symm.trans hcall)
    obtain rfl := Except.ok.inj (hframes.symm.trans hframes')
    have hall : task.received = [⟨c.id, frame⟩] :=
      hpre.eq_of_length (Nat.le_antisymm hpre.length_le (List.length_pos_of_ne_nil hreceived))
    have hused := hcalls.used i c hk hcall
    have htinv := hinv.task_inv htask
    cases hrequest : task.phase.request with
    | some request =>
      have hread := htinv.reads request hrequest
      rw [hall] at hread
      obtain ⟨exchange, hsend⟩ := hused.eq_send hframes hread
      rw [hop] at hsend
      cases hsend
    | none =>
      rcases TaskPhase.request_eq_none hrequest with hphase | ⟨e, hphase⟩
      · have hreading := htinv.reading hphase
        rw [hall] at hreading
        exact hused.readPhase_ne hframes c.id hreading
      · obtain ⟨reached, t, ht, hsim⟩ := hinv.served
        have hl := (Served.Inv.of_reachable ht).server.live (by rw [hsim.server]; exact hlive)
        have hfailed := hl.failed j task (by rw [hsim.server]; exact htask)
        rw [hphase] at hfailed
        cases hfailed

/-- What the call `k` has received, and what it may still receive of what is in flight. -/
def reaching (s : RpcConnection) (k : ℕ) (call : ClientCall) : List TFrameId :=
  call.received ++ call.input.queue ++ s.client.inFlight k ++ framesOf call.id s.responses

theorem reaching_of_ne {frame : TFrameId} {j : ℕ}
    (hsending : s.client.receiver = .sending frame j) (hjk : j ≠ k) :
    s.reaching k call = call.received ++ call.input.queue ++ [] ++ framesOf call.id s.responses := by
  rw [reaching, ClientConnection.inFlight, hsending, FrameReceiver.framesFor, if_neg hjk]

/-- The connection is over, and what the call may still receive is no response. -/
structure Forsaken (s : RpcConnection) (k : ℕ) (call : ClientCall) : Prop where
  stopped : s.server.stopped ≠ none
  isCall : s.client.calls[k]? = some call
  phase : call.phase = .receiving
  reads : call.operation.reads (s.reaching k call) = .error .pending

namespace Forsaken

theorem congr (h : s.Forsaken k call) (hstopped : s'.server = s.server) (hcall : s'.client.calls[k]? = some call)
    (hreaching : s'.reaching k call <+: s.reaching k call) : s'.Forsaken k call := by
  refine ⟨by rw [hstopped]; exact h.stopped, hcall, h.phase, ?_⟩
  by_contra hne
  obtain ⟨rest, hrest⟩ := hreaching
  have hreads := h.reads
  rw [← hrest, Operation.reads_append rest hne] at hreads
  exact hne hreads

theorem receives (h : s.Forsaken k call) {frame : TFrameId} {queue : List TFrameId} {outgoing : Channel}
    (hqueue : call.input.queue = frame :: queue) :
    Forsaken { s with client := { s.client with outgoing, calls := s.client.calls.set k (call.receive frame queue) } }
      k (call.receive frame queue) := by
  have hreaching : (call.received ++ [frame]) ++ queue ++ s.client.inFlight k ++ framesOf call.id s.responses =
      s.reaching k call := by
    rw [reaching, hqueue, List.append_assoc call.received]
    rfl
  have hpending : call.operation.reads (call.received ++ [frame]) = .error .pending := by
    by_contra hne
    have hreads := h.reads
    rw [← hreaching, List.append_assoc, List.append_assoc, Operation.reads_append _ hne] at hreads
    exact hne hreads
  have hproceed : call.receive frame queue = { call with
      input := { call.input with queue }, received := call.received ++ [frame] } :=
    ClientCall.proceed_of_pending hpending
  rw [hproceed]
  refine ⟨h.stopped, List.getElem?_set_self (ClientConnection.Inv.lt_length h.isCall), h.phase, ?_⟩
  exact (congrArg call.operation.reads hreaching).trans h.reads

theorem acts (h : s.Forsaken k call) (hinv : s.client.Inv cfg.bufferSize) (hlen : s.client.calls.length ≤ 2 ^ 32)
    (hlistens : call.Listens) {client : ClientConnection} (hstep : s.client.Step cfg.bufferSize client)
    (hinside : s.client.Inside client) : ∃ call', Forsaken { s with client } k call' := by
  have hcall := h.isCall
  have hphase := h.phase
  have hother : ∀ {j : ℕ} {c : ClientCall} (c' : ClientCall), s.client.calls[j]? = some c → c.phase ≠ .receiving →
      (s.client.calls.set j c')[k]? = some call := by
    intro j c c' hc hne
    rcases eq_or_ne j k with rfl | hjk
    · obtain rfl := Option.some.inj (hc.symm.trans hcall)
      exact absurd hphase hne
    · exact (List.getElem?_set_ne hjk).trans hcall
  cases hstep with
  | calls operation => exact absurd hinside.calls (by simp)
  | registers _ hc hnew => exact ⟨call, h.congr rfl (hother _ hc (by rw [hnew]; nofun)) (List.prefix_refl _)⟩
  | @runs j c c' outgoing hc hrun =>
    rcases eq_or_ne j k with rfl | hjk
    · obtain rfl := Option.some.inj (hc.symm.trans hcall)
      cases hrun with
      | creates hother => rw [hphase] at hother; cases hother
      | sends hother _ => rw [hphase] at hother; cases hother
      | sendFails hother _ => rw [hphase] at hother; cases hother
      | sent hother => rw [hphase] at hother; cases hother
      | receives _ hqueue => exact ⟨_, h.receives hqueue⟩
      | starves _ _ hclosed => exact absurd (hinv.own hlen hcall (by rw [hphase]; rfl)) hclosed
    · exact ⟨call, h.congr rfl ((List.getElem?_set_ne hjk).trans hcall) (List.prefix_refl _)⟩
  | closes _ hc hclosing => exact ⟨call, h.congr rfl (hother _ hc (by rw [hclosing]; nofun)) (List.prefix_refl _)⟩
  | closesAgain _ hc hclosing => exact ⟨call, h.congr rfl (hother _ hc (by rw [hclosing]; nofun)) (List.prefix_refl _)⟩
  | arrives _ => exact absurd hinside.incoming (by simp)
  | @delivers frame j c hsending hc _ =>
    rcases eq_or_ne j k with rfl | hjk
    · obtain rfl := Option.some.inj (hc.symm.trans hcall)
      have hflight : s.client.inFlight j = [frame] := by
        rw [ClientConnection.inFlight, hsending, FrameReceiver.framesFor, if_pos rfl]
      have hreaching : c.received ++ (c.input.queue ++ [frame]) ++ [] ++ framesOf c.id s.responses =
          s.reaching j c := by
        rw [reaching, hflight]
        simp only [List.append_assoc, List.nil_append]
      refine ⟨_, ⟨h.stopped, List.getElem?_set_self (ClientConnection.Inv.lt_length hcall), hphase, ?_⟩⟩
      exact (congrArg c.operation.reads hreaching).trans h.reads
    · refine ⟨call, h.congr rfl ((List.getElem?_set_ne hjk).trans hcall) ?_⟩
      rw [reaching_of_ne hsending hjk]
      exact List.prefix_refl _
  | @deliverFails frame j c hsending hc hgone =>
    have hjk : j ≠ k := by
      rintro rfl
      obtain rfl := Option.some.inj (hc.symm.trans hcall)
      rw [hlistens (by rw [hphase]; rfl)] at hgone
      cases hgone
    refine ⟨call, h.congr rfl hcall ?_⟩
    rw [reaching_of_ne hsending hjk]
    exact List.prefix_refl _
  | @writes frame queue hqueue =>
    have hle := hinside.outgoing.length_le
    rw [hqueue, List.length_cons] at hle
    exact absurd hle (Nat.not_succ_le_self _)
  | stops => exact ⟨call, h.congr rfl hcall (List.prefix_refl _)⟩

theorem arrives (h : s.Forsaken k call) (hinv : s.client.Inv cfg.bufferSize) (hlen : s.client.calls.length ≤ 2 ^ 32)
    (hidle : s.client.receiver = .idle) {frame : TFrameId} {responses : List TFrameId}
    (hresponses : s.responses = frame :: responses) : Forsaken { s with
      client := { s.client with receiver := s.client.lookup frame, incoming := s.client.incoming ++ [frame] }
      responses } k call := by
  refine h.congr rfl h.isCall ?_
  have hown := hinv.own hlen h.isCall (by rw [h.phase]; rfl)
  have hflight : FrameReceiver.framesFor k (s.client.lookup frame) = framesOf call.id [frame] := by
    by_cases hid : frame.id = call.id
    · rw [framesOf_cons_self hid, ClientConnection.lookup, hid, hown, FrameReceiver.framesFor, if_pos rfl]
      rfl
    · rw [framesOf_cons_of_ne hid, ClientConnection.lookup]
      cases hget : s.client.pendingIds.get frame.id with
      | none => rfl
      | some j =>
        have hjk : j ≠ k := by
          rintro rfl
          exact hid (hinv.isOpen hget h.isCall).1.symm
        exact if_neg hjk
  have hreaching : reaching { s with
      client := { s.client with receiver := s.client.lookup frame, incoming := s.client.incoming ++ [frame] }
      responses } k call = s.reaching k call := by
    have hcons : framesOf call.id (frame :: responses) = framesOf call.id [frame] ++ framesOf call.id responses :=
      framesOf_append call.id [frame] responses
    rw [reaching, reaching, ClientConnection.inFlight, ClientConnection.inFlight_of_idle hidle, hresponses, hflight,
      hcons]
    simp only [List.append_assoc, List.nil_append]
  rw [hreaching]

theorem step (h : s.Forsaken k call) (hinv : s.client.Inv cfg.bufferSize) (hlen : s.client.calls.length ≤ 2 ^ 32)
    (hlistens : call.Listens) (hstep : Step cfg s s') : ∃ call', s'.Forsaken k call' := by
  cases hstep with
  | calls _ =>
    refine ⟨call, h.congr rfl ?_ (List.prefix_refl _)⟩
    exact (List.getElem?_append_left (ClientConnection.Inv.lt_length h.isCall)).trans h.isCall
  | stops => exact ⟨call, h.congr rfl h.isCall (List.prefix_refl _)⟩
  | moves hmove =>
    cases hmove with
    | acts hstep hinside => exact h.acts hinv hlen hlistens hstep hinside
    | writes _ _ _ => exact ⟨call, h.congr rfl h.isCall (List.prefix_refl _)⟩
    | loses _ _ => exact ⟨call, h.congr rfl h.isCall (List.prefix_refl _)⟩
    | reaches hlive _ _ => exact absurd hlive h.stopped
    | serves hstep _ => exact absurd hstep.1 h.stopped
    | passes hlive _ _ _ _ => exact absurd hlive h.stopped
    | arrives hidle hresponses => exact ⟨call, h.arrives hinv hlen hidle hresponses⟩
    | breaks _ _ =>
      refine ⟨call, h.congr rfl h.isCall ((List.prefix_append_right_inj _).2 ?_)⟩
      exact (List.take_prefix _ _).filter _

theorem registered (h : s.Forsaken k call) (hinv : s.Inv cfg) (hids : s.client.calls.length ≤ 2 ^ 32) :
    s.client.pendingIds.get call.id = some k :=
  (ClientConnection.Inv.of_reachable hinv.client).own hids h.isCall (by rw [h.phase]; rfl)

end Forsaken

/-- Whatever happens, a call that is forsaken does not return. -/
theorem Forsaken.steps (hreach : (system cfg).Reachable s) (hforsaken : s.Forsaken k call) (hsteps : (system cfg).Steps s s')
    (hids : s'.client.calls.length ≤ 2 ^ 32) : ∃ call', s'.Forsaken k call' := by
  suffices h : (system cfg).Reachable s' ∧ (s'.client.calls.length ≤ 2 ^ 32 → ∃ call', s'.Forsaken k call') from
    h.2 hids
  clear hids
  induction hsteps with
  | refl => exact ⟨hreach, fun _ => ⟨call, hforsaken⟩⟩
  | tail _ hstep ih =>
    obtain ⟨ht, ih⟩ := ih
    refine ⟨ht.step hstep, fun hids => ?_⟩
    have hlen := (Step.length_le hstep).trans hids
    obtain ⟨call', hforsaken'⟩ := ih hlen
    have hinv := Inv.of_reachable ht hlen
    exact hforsaken'.step (ClientConnection.Inv.of_reachable hinv.client) hlen
      (ClientConnection.listens hinv.client k call' hforsaken'.isCall) hstep

end RpcConnection

end Tchannel
