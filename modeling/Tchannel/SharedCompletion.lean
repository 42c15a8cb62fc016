import Tchannel.SharedSteps

/-!
# Where a server with many connections comes to rest

A task whose request is read can always get on, or somebody else can of whom it waits (`SharedServer.Inv.gets_on`):
the caller that has the lock of its handler is served, or gives up if its connection is over. So where nothing moves
any more, nothing moves on any connection by itself (`Rests.alone`), and this state is reached, if the futures of the
handlers come to an end (`Moves.wellFounded`).
-/

namespace Tchannel
open Wire

theorem RpcConnection.Move.silent_or_replies {cfg : RpcConfig} {handlers : FrameHandler → Prop} {s s' : RpcConnection}
    (h : Move (cfg.withHandlers handlers) s s') : Move cfg.silent s s' ∨
      ∃ (k : ℕ) (task : Task) (request : RequestRead), s.server.stopped = none ∧ s.server.tasks[k]? = some task ∧
        task.phase = .deregistered request := by
  cases h with
  | acts hstep hinside => exact .inl (.acts hstep hinside)
  | writes hlive hqueue hroom => exact .inl (.writes hlive hqueue hroom)
  | loses hgone hqueue => exact .inl (.loses hgone hqueue)
  | reaches hlive hpolls hrequests =>
    exact .inl (.reaches hlive ⟨hpolls.idle, hpolls.socket, hpolls.place⟩ hrequests)
  | passes hlive htask hphase hframe hroom => exact .inl (.passes hlive htask hphase hframe hroom)
  | arrives hidle hresponses => exact .inl (.arrives hidle hresponses)
  | breaks hgone hn => exact .inl (.breaks hgone hn)
  | serves hstep hplace =>
    obtain ⟨hlive, hmove⟩ := hstep
    cases hmove with
    | next htasks hidle hsocket => exact .inl (.serves ⟨hlive, .next htasks hidle hsocket⟩ hplace)
    | send htasks hsending htask hready => exact .inl (.serves ⟨hlive, .send htasks hsending htask hready⟩ hplace)
    | sendFails htasks hsending htask hgone =>
      exact .inl (.serves ⟨hlive, .sendFails htasks hsending htask hgone⟩ hplace)
    | first htasks hfirst hnew => exact .inl (.serves ⟨hlive, .first htasks hfirst hnew⟩ hplace)
    | firstFails htasks hfirst hold => exact .inl (.serves ⟨hlive, .firstFails htasks hfirst hold⟩ hplace)
    | receive htask hphase hqueue => exact .inl (.serves ⟨hlive, .receive htask hphase hqueue⟩ hplace)
    | deregister hlock htask hphase => exact .inl (.serves ⟨hlive, .deregister hlock htask hphase⟩ hplace)
    | @reply k task request response htask hphase _ => exact .inr ⟨k, task, request, hlive, htask, hphase⟩

namespace SharedServer

variable {σ φ : Type} {cfg : SharedConfig σ φ} {s s' : SharedServer σ φ} {i k h : ℕ} {conn : SharedConnection}
  {task : Task} {request : RequestRead} {ref : HandlerRef σ φ}

def Rests (cfg : SharedConfig σ φ) (s : SharedServer σ φ) : Prop := ∀ s', ¬ Move cfg s s'

/-- Handlers do not get stuck. -/
def AllTotal (cfg : SharedConfig σ φ) : Prop :=
  ∀ service endpoint handler initial, cfg.registers service endpoint handler initial → handler.service.Total

theorem Inv.registered_handler (hinv : s.Inv cfg) (hregistered : s.Registered request h) :
    ∃ ref endpoint, s.handlers[h]? = some ref ∧ SubChannel.readEndpointName request.2 = .ok endpoint ∧
      cfg.registers request.1.service endpoint ref.toBoxedHandler ref.initial := by
  obtain ⟨endpoints, endpoint, hsub, hend, hlookup⟩ := hregistered
  obtain ⟨ref, href, hmay⟩ := hinv.registered _ endpoints endpoint h hsub hlookup
  exact ⟨ref, endpoint, href, hend, hmay⟩

/-- Whoever has the lock of a handler gets on. -/
theorem Inv.holder_moves (hinv : s.Inv cfg) (htotal : AllTotal cfg) (href : s.handlers[h]? = some ref) {c : ℕ}
    (hholder : ref.locked.lock.holder = some c) : ∃ s', Move cfg s s' := by
  have hlocked := hinv.handlers h ref href
  obtain ⟨x, serving, hc, hopen⟩ := (hlocked.line c).1 (Locked.Inv.holder_mem hholder)
  obtain ⟨i, k, conn, hconn, hcalled⟩ := hinv.asked h c ref href (List.getElem?_eq_some_iff.1 hc).1
  cases hinv.progress i k conn hconn with
  | new hnew _ => rw [hnew] at hcalled; cases hcalled
  | found hfound _ _ _ _ => rw [hfound] at hcalled; cases hcalled
  | @called h c task request ref' serving' hcalled' htask hregistered href' hrequest houtcome =>
    obtain ⟨rfl, rfl⟩ := Handling.called.inj (hcalled'.symm.trans hcalled)
    obtain rfl := Option.some.inj (href'.symm.trans href)
    obtain ⟨rfl, rfl⟩ := Prod.mk.inj (Option.some.inj (hrequest.symm.trans hc))
    cases houtcome with
    | gone _ hdropped _ => rcases hdropped with rfl | rfl <;> cases hopen
    | done _ _ => cases hopen
    | waits hphase _ =>
      by_cases hlive : conn.rpc.server.stopped = none
      · have htask : conn.Handles k task request := ⟨hlive, htask, hphase⟩
        obtain ⟨_, _, href'', -, hmay⟩ := hinv.registered_handler hregistered
        obtain rfl := Option.some.inj (href''.symm.trans href)
        obtain ⟨locked, hserves | ⟨response, hresponds⟩⟩ := hlocked.holder_moves (htotal _ _ _ _ hmay) hholder
        · exact ⟨_, .serves hconn htask hcalled href hserves⟩
        · exact ⟨_, .responds (fun headers => ⟨_, Multiset.coe_toList _⟩) hconn htask hcalled href hresponds⟩
      · exact ⟨_, .drops hconn hlive hcalled href (.givesUp hc hopen)⟩

/-- While a task waits for its response, something moves. -/
theorem Inv.gets_on (hinv : s.Inv cfg) (htotal : AllTotal cfg) (hconn : s.connections[i]? = some conn)
    (htask : conn.Handles k task request) : ∃ s', Move cfg s s' := by
  cases hhandling : conn.handling k with
  | new =>
    cases hsub : s.subchannels.lookup request.1.service with
    | none => exact ⟨_, .failsSubchannel hconn htask hhandling hsub⟩
    | some endpoints => exact ⟨_, .findsSubchannel hconn htask hhandling hsub⟩
  | found =>
    obtain ⟨endpoints, hsub⟩ := Option.ne_none_iff_exists'.1 (hinv.found_subchannel hconn htask hhandling)
    cases hend : SubChannel.readEndpointName request.2 with
    | error e => exact ⟨_, .failsEndpoint hconn htask hhandling hend⟩
    | ok endpoint =>
      cases hlookup : endpoints.lookup endpoint with
      | none => exact ⟨_, .failsHandler hconn htask hhandling hsub hend hlookup⟩
      | some h =>
        obtain ⟨ref, href, -⟩ := hinv.registered _ endpoints endpoint h hsub hlookup
        exact ⟨_, .asks hconn htask hhandling ⟨endpoints, endpoint, hsub, hend, hlookup⟩ href (.asks request.2)⟩
  | called h r =>
    obtain ⟨ref, href, -⟩ := (hinv.progress i k conn hconn).lt hhandling
    obtain ⟨-, serving, hrequest, hopen⟩ := (hinv.progress i k conn hconn).waits htask hhandling href
    obtain ⟨c, hholder⟩ := (hinv.handlers h ref href).exists_holder hrequest hopen
    exact hinv.holder_moves htotal href hholder

/-- Where nothing moves, nothing moves on any connection by itself. -/
theorem Rests.alone (hrests : Rests cfg s) (hinv : s.Inv cfg) (htotal : AllTotal cfg)
    (hconn : s.connections[i]? = some conn) : RpcConnection.Rests (alone cfg) conn.rpc := by
  intro rpc hmove
  rcases hmove.silent_or_replies with hsilent | ⟨k, task, request, hlive, htask, hphase⟩
  · exact hrests _ (.acts hconn hsilent)
  · obtain ⟨s', hmove⟩ := hinv.gets_on htotal hconn ⟨hlive, htask, hphase⟩
    exact hrests s' hmove

theorem exists_handler (hs : (system cfg).Reachable s) : ∃ handler, (SharedServer.alone cfg).server.handlers handler := by
  obtain ⟨frozen, hfrozen⟩ := exists_frozen s
  exact ⟨s.snapshot cfg frozen, s, frozen, hs, hfrozen, rfl⟩

theorem Rests.returned (hrests : Rests cfg s) (hs : (system cfg).Reachable s) (htotal : AllTotal cfg)
    (hconn : s.connections[i]? = some conn) (hids : conn.rpc.client.calls.length ≤ 2 ^ 32)
    (halive : conn.rpc.client.outgoing.receiverAlive = true) (hlive : conn.rpc.server.stopped = none)
    (hfew : conn.rpc.client.calls.countP (·.phase.isReading) < cfg.rpc.server.serverTasks) {call : ClientCall}
    (hcall : conn.rpc.client.calls[k]? = some call) : RpcConnection.Returned call := by
  have hinv := Inv.of_reachable hs
  have halone := hinv.alone i conn hconn
  exact (hrests.alone hinv htotal hconn).returned (RpcConnection.Inv.of_reachable halone hids) hids
    (RpcConnection.Calls.of_reachable halone hids) halive hlive (exists_handler hs) hfew hcall

/-! ### Coming to rest -/

/-- The ids last, and `FrameSender` of each client is there. -/
def Ready (s : SharedServer σ φ) : Prop :=
  ∀ (i : ℕ) conn, s.connections[i]? = some conn →
    conn.rpc.client.calls.length ≤ 2 ^ 32 ∧ conn.rpc.client.outgoing.receiverAlive = true

/-- The futures of handlers come to an end. -/
def AllEnd (cfg : SharedConfig σ φ) : Prop :=
  ∀ service endpoint handler initial, cfg.registers service endpoint handler initial → handler.service.Ends

/-- A request of a handler gets on. -/
def HandlerActs (ref ref' : HandlerRef σ φ) : Prop :=
  ref.service.Ends ∧ ∃ locked, Locked.Acts ref.service ref.initial ref.locked locked ∧ ref' = { ref with locked }

theorem HandlerActs.wellFounded : WellFounded (Function.swap (HandlerActs : HandlerRef σ φ → HandlerRef σ φ → Prop)) := by
  refine ⟨fun ref => ?_⟩
  by_cases hends : ref.service.Ends
  · have hacc : ∀ locked, Acc (Function.swap HandlerActs) ({ ref with locked } : HandlerRef σ φ) := by
      intro locked
      induction locked using (Locked.Acts.wellFounded hends ref.initial).induction with
      | _ locked ih =>
        refine Acc.intro _ fun ref' hacts => ?_
        obtain ⟨-, locked', hlocked, rfl⟩ := hacts
        exact ih locked' hlocked
    exact hacc ref.locked
  · exact Acc.intro ref fun ref' hacts => absurd hacts.1 hends

/-- The stages that the tasks of a connection have before them. -/
def stages (conn : SharedConnection) : ℕ :=
  ((List.range conn.rpc.server.tasks.length).map fun k => toDo (conn.handling k)).sum

theorem stages_lt {conn' : SharedConnection} (hrpc : conn'.rpc = conn.rpc) (htask : k < conn.rpc.server.tasks.length)
    (hothers : ∀ l, l ≠ k → conn'.handling l = conn.handling l)
    (hless : toDo (conn'.handling k) < toDo (conn.handling k)) : stages conn' < stages conn := by
  rw [stages, hrpc]
  refine List.sum_lt_sum _ _ (fun l _ => ?_) ⟨k, List.mem_range.2 htask, hless⟩
  rcases eq_or_ne l k with rfl | hne
  · exact Nat.le_of_lt hless
  · rw [hothers l hne]

/-- The moves of the servers that can be. -/
def Moves (cfg : SharedConfig σ φ) (s s' : SharedServer σ φ) : Prop :=
  (system cfg).Reachable s ∧ s.Ready ∧ Move cfg s s'

/-- The number of calls that were made on each connection, and whether the client's `FrameSender` is there. -/
def uses (s : SharedServer σ φ) : List (ℕ × Bool) :=
  s.connections.map fun conn => (conn.rpc.client.calls.length, conn.rpc.client.outgoing.receiverAlive)

theorem uses_setConnection (self : SharedServer σ φ) (i : ℕ) (conn : SharedConnection) :
    (self.setConnection i conn).uses =
      self.uses.set i (conn.rpc.client.calls.length, conn.rpc.client.outgoing.receiverAlive) :=
  List.map_set

theorem getElem?_uses (hconn : s.connections[i]? = some conn) :
    s.uses[i]? = some (conn.rpc.client.calls.length, conn.rpc.client.outgoing.receiverAlive) := by
  rw [SharedServer.uses, List.getElem?_map, hconn]
  rfl

theorem Move.uses (hmove : Move cfg s s') : s'.uses = s.uses := by
  have hset : ∀ {j : ℕ} {c c' : SharedConnection}, s.connections[j]? = some c →
      c'.rpc.client.calls.length = c.rpc.client.calls.length ∧
        c'.rpc.client.outgoing.receiverAlive = c.rpc.client.outgoing.receiverAlive →
      (s.setConnection j c').uses = s.uses := by
    intro j c c' hc hkept
    rw [uses_setConnection, hkept.1, hkept.2, set_of_getElem? (getElem?_uses hc)]
  cases hmove with
  | acts hconn hmove => exact hset hconn hmove.keeps
  | findsSubchannel hconn _ _ _ => exact hset hconn ⟨rfl, rfl⟩
  | failsSubchannel hconn _ _ _ => exact hset hconn ⟨rfl, rfl⟩
  | failsEndpoint hconn _ _ _ => exact hset hconn ⟨rfl, rfl⟩
  | failsHandler hconn _ _ _ _ _ => exact hset hconn ⟨rfl, rfl⟩
  | asks hconn _ _ _ _ _ => exact hset hconn ⟨rfl, rfl⟩
  | serves _ _ _ _ _ => rfl
  | responds _ hconn _ _ _ _ => exact hset hconn ⟨rfl, rfl⟩
  | drops _ _ _ _ _ => rfl

theorem Ready.congr (hready : s.Ready) (huses : s'.uses = s.uses) : s'.Ready := by
  intro i conn hconn
  have hget := getElem?_uses hconn
  rw [huses, SharedServer.uses, List.getElem?_map, Option.map_eq_some_iff] at hget
  obtain ⟨conn', hconn', heq⟩ := hget
  obtain ⟨hlen, halive⟩ := Prod.mk.inj heq
  rw [← hlen, ← halive]
  exact hready i conn' hconn'

theorem Moves.wellFounded (hend : AllEnd cfg) : WellFounded (Function.swap (Moves cfg)) := by
  refine wellFounded_of_simulation (fun s l => s.connections.map (·.rpc) = l)
    (fun s => ((s.connections.map stages).sum, s.handlers))
    (WellFounded.prod_lex Nat.lt_wfRel.wf (PartSteps.wellFounded HandlerActs.wellFounded))
    (PartSteps.wellFounded (RpcConnection.Moves.wellFounded (alone cfg))) (fun s _ _ => ⟨_, rfl⟩) ?_
  rintro s s' _ rfl ⟨hs, hready, hmove⟩
  have hinv := Inv.of_reachable hs
  have hmoves : ∀ {i : ℕ} {conn conn' : SharedConnection}, s.connections[i]? = some conn →
      RpcConnection.Move (alone cfg) conn.rpc conn'.rpc → s'.connections = s.connections.set i conn' →
      ∃ l, Relation.TransGen (PartSteps (RpcConnection.Moves (alone cfg))) (s.connections.map (·.rpc)) l ∧
        s'.connections.map (·.rpc) = l := by
    intro i conn conn' hconn hmove heq
    obtain ⟨hlen, halive⟩ := hready i conn hconn
    refine ⟨_, .single ⟨i, conn.rpc, conn'.rpc, ?_, ⟨hinv.alone i conn hconn, hlen, halive, hmove⟩, rfl⟩, ?_⟩
    · rw [List.getElem?_map, hconn]
      rfl
    · rw [heq, List.map_set]
  rcases hinv.move hs hmove with ⟨i, conn, rpc, hconn, hacts, rfl⟩ | ⟨i, k, conn, conn', hchange⟩
  · have halone : RpcConnection.Move (alone cfg) conn.rpc rpc := hacts.silent
    exact .inl (hmoves hconn halone rfl)
  · cases hchange.goes with
    | replies hmove => exact .inl (hmoves hchange.before hmove hchange.connections)
    | goesOn hrpc htask hless =>
      refine .inr ⟨?_, Prod.Lex.left _ _ ?_⟩
      · rw [hchange.connections, List.map_set, hrpc]
        refine set_of_getElem? ?_
        rw [List.getElem?_map, hchange.before]
        rfl
      · have hsum := sum_map_set stages conn' hchange.before
        have hlt := stages_lt hrpc htask hchange.handling hless
        show (s'.connections.map stages).sum < (s.connections.map stages).sum
        rw [hchange.connections]
        omega
    | acts hconn hregistered href hact hstep hhandlers =>
      have hsame : s'.connections = s.connections := by
        rw [hchange.connections, hconn, set_of_getElem? hchange.before]
      obtain ⟨_, _, href', -, hmay⟩ := hinv.registered_handler hregistered
      obtain rfl := Option.some.inj (href'.symm.trans href)
      refine .inr ⟨by rw [hsame], Prod.lex_def.2 (.inr ⟨by rw [hsame], _, _, _, href, ⟨hend _ _ _ _ hmay, _,
        ⟨hinv.handlers _ _ href, _, _, hact, hstep⟩, rfl⟩, hhandlers⟩)⟩

/-- From `s`, nothing but moves led to rest. -/
structure Settles (cfg : SharedConfig σ φ) (s s' : SharedServer σ φ) : Prop where
  steps : (system cfg).Steps s s'
  uses : s'.uses = s.uses
  rests : Rests cfg s'

theorem exists_settles (hs : (system cfg).Reachable s) (hready : s.Ready) (hend : AllEnd cfg) :
    ∃ s', Settles cfg s s' := by
  obtain ⟨s', hmoves, hrest⟩ := exists_rest (Moves.wellFounded hend) s
  have hsteps : (system cfg).Steps s s' ∧ s'.uses = s.uses := by
    clear hrest
    induction hmoves with
    | refl => exact ⟨.refl s, rfl⟩
    | tail _ hmove ih => exact ⟨ih.1.tail (.moves hmove.2.2), hmove.2.2.uses.trans ih.2⟩
  refine ⟨s', hsteps.1, hsteps.2, fun t hmove => hrest t ⟨hs.steps hsteps.1, hready.congr hsteps.2, hmove⟩⟩

end SharedServer

end Tchannel
