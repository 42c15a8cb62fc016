import Tchannel.SharedCompletion

/-!
# The order of the requests of a handler

What a server with many connections keeps from one state to the next: connections, with the places that their tasks
have in the lines of handlers, and the requests that handlers were given. A place that is new is behind all that were
taken (`SharedServer.steps_called_cases`), so that a call that is made when another one has its place is served later
(`Handled.lt`).
-/

namespace Tchannel
open Wire

theorem RpcConnection.steps_task_kept {cfg : RpcConfig} {s s' : RpcConnection} (hsteps : (system cfg).Steps s s') {k : ℕ}
    {task : Task} (htask : s.server.tasks[k]? = some task) :
    ∃ task', s'.server.tasks[k]? = some task' ∧ task'.id = task.id := by
  induction hsteps with
  | refl => exact ⟨task, htask, rfl⟩
  | tail _ hstep ih =>
    obtain ⟨t, ht, hid⟩ := ih
    rcases RpcConnection.Step.server_cases hstep with heq | ⟨-, heq, -⟩ | hserver
    · exact ⟨t, by rw [heq]; exact ht, hid⟩
    · exact ⟨t, by rw [heq]; exact ht, hid⟩
    · obtain ⟨task', htask', hgoes⟩ := hserver.task_kept ht
      exact ⟨task', htask', hgoes.id.trans hid⟩

theorem RpcConnection.steps_length_le {cfg : RpcConfig} {s s' : RpcConnection} (hsteps : (system cfg).Steps s s') :
    s.client.calls.length ≤ s'.client.calls.length := by
  induction hsteps with
  | refl => exact Nat.le_refl _
  | tail _ hstep ih => exact ih.trans (Step.length_le hstep)

namespace SharedServer

variable {σ φ : Type} {cfg : SharedConfig σ φ} {s s' : SharedServer σ φ} {i j k l h r r' : ℕ}
  {conn conn' : SharedConnection} {ref : HandlerRef σ φ}

/-- The request of the call `k` on the connection `i` is the `r`-th of the handler `h`. -/
def Handled (s : SharedServer σ φ) (i k h r : ℕ) : Prop :=
  ∃ (conn : SharedConnection) (call : ClientCall) (j : ℕ) (task : Task), s.connections[i]? = some conn ∧
    conn.rpc.client.calls[k]? = some call ∧ conn.rpc.server.tasks[j]? = some task ∧ task.id = call.id ∧
      conn.handling j = .called h r

/-- A connection goes on, and its tasks keep their places. -/
structure Later (cfg : SharedConfig σ φ) (conn conn' : SharedConnection) : Prop where
  steps : (RpcConnection.system (alone cfg)).Steps conn.rpc conn'.rpc
  called : ∀ k h r, conn.handling k = .called h r → conn'.handling k = .called h r

/-- A handler keeps its requests, and how they ended. -/
structure Grows (ref ref' : HandlerRef σ φ) : Prop where
  box : ref'.toBoxedHandler = ref.toBoxedHandler
  initial : ref'.initial = ref.initial
  requests : ∀ (r : ℕ) x serving, ref.locked.requests[r]? = some (x, serving) →
    ∃ serving', ref'.locked.requests[r]? = some (x, serving') ∧ (serving.isOpen = false → serving' = serving)

theorem Later.refl (conn : SharedConnection) : Later cfg conn conn := ⟨.refl _, fun _ _ _ => id⟩

theorem Grows.refl (ref : HandlerRef σ φ) : Grows ref ref := ⟨rfl, rfl, fun _ _ serving h => ⟨serving, h, fun _ => rfl⟩⟩

theorem Grows.length_le {ref' : HandlerRef σ φ} (h : Grows ref ref') :
    ref.locked.requests.length ≤ ref'.locked.requests.length := by
  by_contra hlt
  have hlt := Nat.not_le.1 hlt
  obtain ⟨serving, hget, -⟩ := h.requests _ _ _ (List.getElem?_eq_getElem hlt)
  exact Nat.lt_irrefl _ (List.getElem?_eq_some_iff.1 hget).1

/-! ### Calls and places -/

theorem Inv.call_of_called (hinv : s.Inv cfg) (hconn : s.connections[i]? = some conn)
    (hids : conn.rpc.client.calls.length ≤ 2 ^ 32) (hcalled : conn.handling j = .called h r) :
    ∃ (k : ℕ) (call : ClientCall) (task : Task), conn.rpc.client.calls[k]? = some call ∧
      conn.rpc.server.tasks[j]? = some task ∧ task.id = call.id := by
  obtain ⟨task, htask⟩ : ∃ task, conn.rpc.server.tasks[j]? = some task := by
    cases hinv.progress i j conn hconn with
    | new hnew _ => rw [hnew] at hcalled; cases hcalled
    | found hfound _ _ _ _ => rw [hfound] at hcalled; cases hcalled
    | called _ htask _ _ _ _ => exact ⟨_, htask⟩
  obtain ⟨k, call, -, hcall, hid, -⟩ :=
    ((RpcConnection.Inv.of_reachable (hinv.alone i conn hconn) hids).answered hids).asked j task htask
  exact ⟨k, call, task, hcall, htask, hid.symm⟩

theorem Inv.exists_handled (hinv : s.Inv cfg)
    (hids : ∀ (i : ℕ) conn, s.connections[i]? = some conn → conn.rpc.client.calls.length ≤ 2 ^ 32)
    (href : s.handlers[h]? = some ref) (hr : r < ref.locked.requests.length) : ∃ i k, s.Handled i k h r := by
  obtain ⟨i, j, conn, hconn, hcalled⟩ := hinv.asked h r ref href hr
  obtain ⟨k, call, task, hcall, htask, hid⟩ := hinv.call_of_called hconn (hids i conn hconn) hcalled
  exact ⟨i, k, conn, call, j, task, hconn, hcall, htask, hid, hcalled⟩

theorem Handled.call_unique (hinv : s.Inv cfg)
    (hids : ∀ (i : ℕ) conn, s.connections[i]? = some conn → conn.rpc.client.calls.length ≤ 2 ^ 32)
    (h₁ : s.Handled i k h r) (h₂ : s.Handled j l h r) : i = j ∧ k = l := by
  obtain ⟨conn₁, call₁, m₁, task₁, hconn₁, hcall₁, htask₁, hid₁, hcalled₁⟩ := h₁
  obtain ⟨conn₂, call₂, m₂, task₂, hconn₂, hcall₂, htask₂, hid₂, hcalled₂⟩ := h₂
  obtain ⟨rfl, rfl⟩ := hinv.once i j m₁ m₂ h r conn₁ conn₂ hconn₁ hconn₂ hcalled₁ hcalled₂
  obtain rfl := Option.some.inj (hconn₁.symm.trans hconn₂)
  obtain rfl := Option.some.inj (htask₁.symm.trans htask₂)
  have hlen := hids i conn₁ hconn₁
  have hrpc := RpcConnection.Inv.of_reachable (hinv.alone i conn₁ hconn₁) hlen
  exact ⟨rfl, (ClientConnection.Inv.of_reachable hrpc.client).eq_of_id_eq hlen hcall₁ hcall₂ (hid₁.symm.trans hid₂)⟩

theorem Handled.place_unique {h' : ℕ} (hinv : s.Inv cfg)
    (hids : ∀ (i : ℕ) conn, s.connections[i]? = some conn → conn.rpc.client.calls.length ≤ 2 ^ 32)
    (h₁ : s.Handled i k h r) (h₂ : s.Handled i k h' r') : h = h' ∧ r = r' := by
  obtain ⟨conn₁, call₁, m₁, task₁, hconn₁, hcall₁, htask₁, hid₁, hcalled₁⟩ := h₁
  obtain ⟨conn₂, call₂, m₂, task₂, hconn₂, hcall₂, htask₂, hid₂, hcalled₂⟩ := h₂
  obtain rfl := Option.some.inj (hconn₁.symm.trans hconn₂)
  obtain rfl := Option.some.inj (hcall₁.symm.trans hcall₂)
  have hlen := hids i conn₁ hconn₁
  have hanswered := (RpcConnection.Inv.of_reachable (hinv.alone i conn₁ hconn₁) hlen).answered hlen
  obtain rfl := hanswered.once m₁ m₂ task₁ task₂ htask₁ htask₂ (hid₁.trans hid₂.symm)
  exact Handling.called.inj (hcalled₁.symm.trans hcalled₂)

theorem Inv.answer_returned (hinv : s.Inv cfg) (hconn : s.connections[i]? = some conn) {task : Task}
    (htask : conn.rpc.server.tasks[j]? = some task) {request : RequestRead} {answer : List TFrameId}
    (hphase : task.phase = .answered request answer) : ∃ (h r : ℕ) (ref : HandlerRef σ φ) (response : MessageArgsResponse)
      (order : (headers : HashMap String String) → Iter headers), conn.handling j = .called h r ∧
      s.Registered request h ∧ s.handlers[h]? = some ref ∧
      ref.locked.requests[r]? = some (request.2, .returned response) ∧
      (frameHandler cfg).finish order task.id request.1 response = .ok answer := by
  have hanswered : task.phase.isAnswered = true := by
    rw [hphase]
    rfl
  cases hinv.progress i j conn hconn with
  | new _ hnot =>
    rw [hnot task htask] at hanswered
    cases hanswered
  | @found task' _ htask' _ hnot _ =>
    rw [Option.some.inj (htask.symm.trans htask'), hnot] at hanswered
    cases hanswered
  | @called h r task' request' ref serving hcalled htask' hregistered href hrequest houtcome =>
    obtain rfl := Option.some.inj (htask.symm.trans htask')
    cases houtcome with
    | waits hphase' _ => rw [hphase] at hphase'; cases hphase'
    | gone _ _ hphase' => rw [hphase] at hphase'; cases hphase'
    | @done response order hphase' =>
      cases hfinish : (frameHandler cfg).finish order task.id request'.1 response with
      | error e =>
        rw [hphase, hfinish] at hphase'
        cases hphase'
      | ok frames =>
        rw [hphase, hfinish] at hphase'
        obtain ⟨rfl, rfl⟩ := TaskPhase.answered.inj hphase'
        exact ⟨h, r, ref, response, order, hcalled, hregistered, href, hrequest, hfinish⟩

theorem Inv.handled (hinv : s.Inv cfg) (hconn : s.connections[i]? = some conn)
    (hids : conn.rpc.client.calls.length ≤ 2 ^ 32) (hk : 1 ≤ k) {call : ClientCall}
    (hcall : conn.rpc.client.calls[k]? = some call) (hreceived : call.received ≠ []) : ∃ h r, s.Handled i k h r := by
  obtain ⟨j, task, answer, htask, hanswer, -⟩ :=
    ((RpcConnection.Inv.of_reachable (hinv.alone i conn hconn) hids).answered hids).own k call hk hcall hreceived
  obtain ⟨frames, request, -, -, -, hphase, -⟩ := hanswer.sent
  obtain ⟨h, r, ref, response, order, hcalled, -⟩ := hinv.answer_returned hconn htask hphase
  exact ⟨h, r, conn, call, j, task, hconn, hcall, htask, hanswer.id, hcalled⟩

/-- The call `k` on the connection `i` has got something of what the handler `h` returned for its request `margs`, the
`r`-th that the handler was given. -/
structure Got (cfg : SharedConfig σ φ) (s : SharedServer σ φ) (i k h r : ℕ) (call : ClientCall)
    (fields : CallRequestFields) (margs : MessageArgs) (ref : HandlerRef σ φ) (response : MessageArgsResponse) : Prop where
  handled : s.Handled i k h r
  registered : s.Registered (fields, margs) h
  isHandler : s.handlers[h]? = some ref
  returned : ref.locked.requests[r]? = some (margs, .returned response)
  received : ∃ order answer, (frameHandler cfg).finish order call.id fields response = .ok answer ∧ call.received <+: answer

/-- What a call has got is what a handler returned for its request. -/
theorem Inv.got (hinv : s.Inv cfg) (hconn : s.connections[i]? = some conn)
    (hids : conn.rpc.client.calls.length ≤ 2 ^ 32) {call : ClientCall}
    (hcall : conn.rpc.client.calls[k]? = some call) (hreceived : call.received ≠ []) {REQ RES : Type} [Message REQ]
    [Message RES] {subchannel : SubChannel} {order : (headers : HashMap String String) → Iter headers} {request : REQ}
    {margs : MessageArgs} (hop : call.operation = .send (SubChannel.exchange RES subchannel order request))
    (hmargs : Message.tryInto request = .ok margs)
    (hcarried : margs.Carried (requestRoom subchannel.serviceName margs.argScheme)) :
    ∃ h r fields ref response, Got cfg s i k h r call fields margs ref response ∧
      fields.service = subchannel.serviceName ∧ (utf8 fields.service).length ≤ 255 := by
  have halone := hinv.alone i conn hconn
  have hk := (RpcConnection.Calls.of_reachable halone hids).pos_of_send hcall hop
  obtain ⟨j, task, answer, htask, hanswer, hprefix⟩ :=
    ((RpcConnection.Inv.of_reachable halone hids).answered hids).own k call hk hcall hreceived
  obtain ⟨fields, hphase, hservice, hlen⟩ := hanswer.asSent hop hmargs hcarried
  obtain ⟨h, r, ref, response, order', hcalled, hregistered, href, hreturned, hfinish⟩ :=
    hinv.answer_returned hconn htask hphase
  rw [hanswer.id] at hfinish
  exact ⟨h, r, fields, ref, response, ⟨⟨conn, call, j, task, hconn, hcall, htask, hanswer.id, hcalled⟩, hregistered,
    href, hreturned, order', answer, hfinish, hprefix⟩, hservice, hlen⟩

/-! ### One step -/

theorem Change.later (hchange : Change cfg s s' i k conn conn') : Later cfg conn conn' := by
  refine ⟨?_, fun l h r hcalled => ?_⟩
  · cases hchange.goes with
    | replies hmove => exact .one (.moves hmove)
    | goesOn hrpc _ _ => exact hrpc ▸ .refl _
    | acts hconn _ _ _ _ _ => exact hconn ▸ .refl _
  · obtain ⟨other, hother, hcalled'⟩ := hchange.called_kept hchange.before hcalled
    rw [hchange.connections, List.getElem?_set_self (List.getElem?_eq_some_iff.1 hchange.before).1] at hother
    rwa [Option.some.inj hother]

theorem Handlers.grows (hhandlers : Handlers s s' conn conn' k) (href : s.handlers[h]? = some ref) :
    ∃ ref', s'.handlers[h]? = some ref' ∧ Grows ref ref' := by
  obtain ⟨ref', href', hbox, hinitial⟩ := hhandlers.before href
  refine ⟨ref', href', hbox, hinitial, fun r x serving hr => ?_⟩
  obtain ⟨ref'', href'', -, -, hlocked⟩ := hhandlers.after href'
  obtain rfl := Option.some.inj (href''.symm.trans href)
  rcases hlocked with heq | ⟨act, hstep⟩
  · exact ⟨serving, heq ▸ hr, fun _ => rfl⟩
  · exact hstep.kept hr

theorem Step.connection_kept (hstep : Step cfg s s') (hs : (system cfg).Reachable s)
    (hconn : s.connections[i]? = some conn) : ∃ conn', s'.connections[i]? = some conn' ∧ Later cfg conn conn' := by
  have hlt := (List.getElem?_eq_some_iff.1 hconn).1
  have hset : ∀ {j : ℕ} {c c' : SharedConnection}, s.connections[j]? = some c → Later cfg c c' →
      ∃ conn', (s.connections.set j c')[i]? = some conn' ∧ Later cfg conn conn' := by
    intro j c c' hc hlater
    rcases eq_or_ne j i with rfl | hne
    · obtain rfl := Option.some.inj (hc.symm.trans hconn)
      exact ⟨c', List.getElem?_set_self hlt, hlater⟩
    · exact ⟨conn, (List.getElem?_set_ne hne).trans hconn, .refl conn⟩
  have huses : ∀ {j : ℕ} {c : SharedConnection} {rpc : RpcConnection}, s.connections[j]? = some c →
      RpcConnection.Step cfg.rpc.silent c.rpc rpc →
      ∃ conn', (s.connections.set j { c with rpc })[i]? = some conn' ∧ Later cfg conn conn' :=
    fun hc hstep => hset hc ⟨.one hstep.silent, fun _ _ _ => id⟩
  cases hstep with
  | connects _ => exact ⟨conn, (List.getElem?_append_left hlt).trans hconn, .refl conn⟩
  | opens _ => exact ⟨conn, hconn, .refl conn⟩
  | registers _ _ _ => exact ⟨conn, hconn, .refl conn⟩
  | uses hc hstep => exact huses hc hstep
  | moves hmove =>
    rcases (Inv.of_reachable hs).move hs hmove with ⟨j, c, rpc, hc, hacts, rfl⟩ | ⟨j, l, c, c', hchange⟩
    · exact huses hc (.moves hacts)
    · rw [hchange.connections]
      exact hset hchange.before hchange.later

theorem Step.handler_kept (hstep : Step cfg s s') (hs : (system cfg).Reachable s)
    (href : s.handlers[h]? = some ref) : ∃ ref', s'.handlers[h]? = some ref' ∧ Grows ref ref' := by
  cases hstep with
  | connects _ => exact ⟨ref, href, .refl ref⟩
  | opens _ => exact ⟨ref, href, .refl ref⟩
  | registers _ _ _ =>
    exact ⟨ref, (List.getElem?_append_left (List.getElem?_eq_some_iff.1 href).1).trans href, .refl ref⟩
  | uses _ _ => exact ⟨ref, href, .refl ref⟩
  | moves hmove =>
    rcases (Inv.of_reachable hs).move hs hmove with ⟨j, c, rpc, hc, hacts, rfl⟩ | ⟨j, l, c, c', hchange⟩
    · exact ⟨ref, href, .refl ref⟩
    · exact hchange.handlers.grows href

theorem Step.called_cases (hstep : Step cfg s s') (hs : (system cfg).Reachable s)
    (hconn' : s'.connections[i]? = some conn') (hcalled : conn'.handling k = .called h r) :
    (∃ conn, s.connections[i]? = some conn ∧ conn.handling k = .called h r) ∨
      ∀ ref, s.handlers[h]? = some ref → ref.locked.requests.length ≤ r := by
  have hset : ∀ {j : ℕ} {c c' : SharedConnection}, s.connections[j]? = some c →
      (s.connections.set j c')[i]? = some conn' → (c'.handling k = .called h r → c.handling k = .called h r) →
      ∃ conn, s.connections[i]? = some conn ∧ conn.handling k = .called h r := by
    intro j c c' hc hget hback
    rcases getElem?_set_cases hget with ⟨rfl, rfl⟩ | ⟨-, hget⟩
    · exact ⟨c, hc, hback hcalled⟩
    · exact ⟨conn', hget, hcalled⟩
  cases hstep with
  | connects _ =>
    rcases getElem?_concat_cases hconn' with hconn' | ⟨-, rfl⟩
    · exact .inl ⟨conn', hconn', hcalled⟩
    · cases hcalled
  | opens _ => exact .inl ⟨conn', hconn', hcalled⟩
  | registers _ _ _ => exact .inl ⟨conn', hconn', hcalled⟩
  | uses hc _ => exact .inl (hset hc hconn' id)
  | moves hmove =>
    rcases (Inv.of_reachable hs).move hs hmove with ⟨j, c, rpc, hc, hacts, rfl⟩ | ⟨j, l, c, c', hchange⟩
    · exact .inl (hset hc hconn' id)
    · rw [hchange.connections] at hconn'
      by_cases hl : k = l
      · subst hl
        cases hchange.handlers with
        | same _ hhandling =>
          refine .inl (hset hchange.before hconn' fun hcalled => ?_)
          rcases hhandling with heq | ⟨-, hfound⟩
          · rwa [← heq]
          · rw [hfound] at hcalled
            cases hcalled
        | acts _ _ _ _ _ hkept => exact .inl (hset hchange.before hconn' fun hcalled => hkept ▸ hcalled)
        | asks href _ _ _ hasked =>
          rcases getElem?_set_cases hconn' with ⟨rfl, rfl⟩ | ⟨-, hconn'⟩
          · obtain ⟨rfl, rfl⟩ := Handling.called.inj (hasked.symm.trans hcalled)
            refine .inr fun ref' href' => ?_
            rw [Option.some.inj (href'.symm.trans href)]
          · exact .inl ⟨conn', hconn', hcalled⟩
      · exact .inl (hset hchange.before hconn' fun hcalled => hchange.handling k hl ▸ hcalled)

theorem Step.keeps (hstep : Step cfg s s') (hs : (system cfg).Reachable s) : Keeps s s' := by
  cases hstep with
  | connects _ => exact ⟨fun _ => id, fun _ _ => id⟩
  | opens hnew => exact .opens hnew
  | registers hsub hnew _ => exact .registers _ hsub hnew
  | uses _ _ => exact ⟨fun _ => id, fun _ _ => id⟩
  | moves hmove =>
    rcases (Inv.of_reachable hs).move hs hmove with ⟨j, c, rpc, hc, hacts, rfl⟩ | ⟨j, l, c, c', hchange⟩
    · exact ⟨fun _ => id, fun _ _ => id⟩
    · exact hchange.keeps

/-! ### Any number of steps -/

variable (hs : (system cfg).Reachable s) (hsteps : (system cfg).Steps s s')

include hs hsteps

theorem steps_connection_kept (hconn : s.connections[i]? = some conn) :
    ∃ conn', s'.connections[i]? = some conn' ∧ Later cfg conn conn' := by
  induction hsteps with
  | refl => exact ⟨conn, hconn, .refl conn⟩
  | tail hsteps hstep ih =>
    obtain ⟨c, hc, hlater⟩ := ih
    obtain ⟨conn', hconn', hlater'⟩ := Step.connection_kept hstep (hs.steps hsteps) hc
    exact ⟨conn', hconn', hlater.steps.trans hlater'.steps, fun k h r hcalled =>
      hlater'.called k h r (hlater.called k h r hcalled)⟩

theorem steps_handler_kept (href : s.handlers[h]? = some ref) :
    ∃ ref', s'.handlers[h]? = some ref' ∧ Grows ref ref' := by
  induction hsteps with
  | refl => exact ⟨ref, href, .refl ref⟩
  | tail hsteps hstep ih =>
    obtain ⟨ref₁, href₁, hgrows⟩ := ih
    obtain ⟨ref₂, href₂, hgrows'⟩ := Step.handler_kept hstep (hs.steps hsteps) href₁
    refine ⟨ref₂, href₂, hgrows'.box.trans hgrows.box, hgrows'.initial.trans hgrows.initial, fun r x serving hr => ?_⟩
    obtain ⟨serving₁, hr₁, hclosed⟩ := hgrows.requests r x serving hr
    obtain ⟨serving₂, hr₂, hclosed'⟩ := hgrows'.requests r x serving₁ hr₁
    refine ⟨serving₂, hr₂, fun hc => ?_⟩
    have heq := hclosed hc
    rw [hclosed' (heq ▸ hc), heq]

theorem steps_keeps : Keeps s s' := by
  induction hsteps with
  | refl => exact ⟨fun _ => id, fun _ _ => id⟩
  | tail hsteps hstep ih =>
    have hkeeps := Step.keeps hstep (hs.steps hsteps)
    exact ⟨fun service h => hkeeps.found service (ih.found service h), fun request h hregistered =>
      hkeeps.registered request h (ih.registered request h hregistered)⟩

theorem steps_called_cases (hconn' : s'.connections[i]? = some conn') (hcalled : conn'.handling k = .called h r) :
    (∃ conn, s.connections[i]? = some conn ∧ conn.handling k = .called h r) ∨
      ∀ ref, s.handlers[h]? = some ref → ref.locked.requests.length ≤ r := by
  induction hsteps generalizing conn' with
  | refl => exact .inl ⟨conn', hconn', hcalled⟩
  | tail hsteps hstep ih =>
    rcases Step.called_cases hstep (hs.steps hsteps) hconn' hcalled with ⟨c, hc, hcalled'⟩ | hlast
    · exact ih hc hcalled'
    · refine .inr fun ref href => ?_
      obtain ⟨ref', href', hgrows⟩ := steps_handler_kept hs hsteps href
      exact hgrows.length_le.trans (hlast ref' href')

theorem Handled.kept (h₁ : s.Handled i k h r) : s'.Handled i k h r := by
  obtain ⟨conn, call, m, task, hconn, hcall, htask, hid, hcalled⟩ := h₁
  obtain ⟨conn', hconn', hlater⟩ := steps_connection_kept hs hsteps hconn
  obtain ⟨call', hcall', -, hid'⟩ := RpcConnection.steps_call_kept hlater.steps hcall
  obtain ⟨task', htask', htid⟩ := RpcConnection.steps_task_kept hlater.steps htask
  exact ⟨conn', call', m, task', hconn', hcall', htask', htid.trans (hid.trans hid'.symm), hlater.called m h r hcalled⟩

/-- A call that is made when another one has its place is served later. -/
theorem Handled.lt (h₁ : s.Handled i k h r)
    (hnew : ∀ conn, s.connections[j]? = some conn → conn.rpc.client.calls.length ≤ l)
    (hids : ∀ conn, s'.connections[j]? = some conn → conn.rpc.client.calls.length ≤ 2 ^ 32)
    (h₂ : s'.Handled j l h r') : r < r' := by
  obtain ⟨conn₁, -, m₁, -, hconn₁, -, -, -, hcalled₁⟩ := h₁
  obtain ⟨conn₂, call₂, m₂, task₂, hconn₂, hcall₂, htask₂, hid₂, hcalled₂⟩ := h₂
  have hinv := Inv.of_reachable hs
  rcases steps_called_cases hs hsteps hconn₂ hcalled₂ with ⟨conn, hconn, hcalled⟩ | hlast
  · exfalso
    -- the task was there, and so was its call
    obtain ⟨conn', hconn', hlater⟩ := steps_connection_kept hs hsteps hconn
    obtain rfl := Option.some.inj (hconn'.symm.trans hconn₂)
    have hlen := hids conn' hconn₂
    obtain ⟨m, call, task, hcall, htask, hid⟩ :=
      hinv.call_of_called hconn ((RpcConnection.steps_length_le hlater.steps).trans hlen) hcalled
    obtain ⟨call', hcall', -, hid'⟩ := RpcConnection.steps_call_kept hlater.steps hcall
    obtain ⟨task', htask', htid⟩ := RpcConnection.steps_task_kept hlater.steps htask
    obtain rfl := Option.some.inj (htask'.symm.trans htask₂)
    have hinv' := RpcConnection.Inv.of_reachable ((hinv.alone j conn hconn).steps hlater.steps) hlen
    obtain rfl : m = l := (ClientConnection.Inv.of_reachable hinv'.client).eq_of_id_eq hlen hcall' hcall₂
      (hid'.trans (hid.symm.trans (htid.symm.trans hid₂)))
    exact Nat.not_lt.2 (hnew conn hconn) (ClientConnection.Inv.lt_length hcall)
  · obtain ⟨ref, href, hlt⟩ := (hinv.progress i m₁ conn₁ hconn₁).lt hcalled₁
    exact Nat.lt_of_lt_of_le hlt (hlast ref href)

end SharedServer

end Tchannel
