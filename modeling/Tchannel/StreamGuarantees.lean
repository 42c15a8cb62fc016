import Tchannel.Guarantees
import Tchannel.StreamRefinement

/-!
# What a connection on streams of bytes guarantees

However the bytes of the frames are cut and delayed on the way: a connection on streams of bytes is one of
`RpcConnection` (`Refines.of_reachable`), so that its calls get their answers; it comes to rest
(`Moves.wellFounded`), and where it rests every call has returned, if the server is there and has a place for each
(`Rests.returned`).
-/

namespace Tchannel
open Wire

/-- The connection in which a stream takes one frame at a time. -/
def StreamConfig.single (cfg : StreamConfig) : RpcConfig where
  bufferSize := cfg.bufferSize
  bufferSize_pos := cfg.bufferSize_pos
  server := cfg.server
  room := (· = [])
  room_nil := rfl

namespace StreamConnection
open TFrameIdCodec

variable {cfg : StreamConfig} {b b' : StreamConnection} {requests answers written : List TFrameId} {k : ℕ}

/-! ### Runs -/

theorem Move.acts_or_keeps (hmove : Move cfg b b') :
    (b.client.Step cfg.bufferSize b'.client ∧ b.client.Inside b'.client) ∨ b'.client.calls = b.client.calls := by
  cases hmove with
  | acts hstep hinside => exact .inl ⟨hstep, hinside⟩
  | takes _ _ _ _ => exact .inr rfl
  | writes _ => exact .inr rfl
  | reads _ _ _ => exact .inr rfl
  | reaches _ _ _ => exact .inr rfl
  | refuses _ _ _ => exact .inr rfl
  | serves _ _ => exact .inr rfl
  | passes _ _ _ _ _ => exact .inr rfl
  | takesAnswers _ _ _ _ => exact .inr rfl
  | answers _ => exact .inr rfl
  | listens _ _ _ => exact .inr rfl
  | arrives _ _ _ => exact .inr rfl
  | deafens _ _ _ => exact .inr rfl
  | resets _ _ => exact .inr rfl
  | loses _ _ _ => exact .inr rfl
  | breaks _ _ => exact .inr rfl

theorem Move.calls_length (hmove : Move cfg b b') : b'.client.calls.length = b.client.calls.length := by
  rcases hmove.acts_or_keeps with ⟨-, hinside⟩ | hkeeps
  · exact hinside.calls
  · rw [hkeeps]

theorem Move.call_kept (hmove : Move cfg b b') {call : ClientCall} (hcall : b.client.calls[k]? = some call) :
    ∃ call', b'.client.calls[k]? = some call' ∧ call'.operation = call.operation := by
  rcases hmove.acts_or_keeps with ⟨hstep, -⟩ | hkeeps
  · obtain ⟨call', hcall', hop, -⟩ := hstep.call_kept hcall
    exact ⟨call', hcall', hop⟩
  · exact ⟨call, by rw [hkeeps]; exact hcall, rfl⟩

theorem Refines.calls_length {s : RpcConnection} (href : b.Refines s) :
    s.client.calls.length = b.client.calls.length := by
  obtain ⟨requests, answers, written, rfl, -⟩ := href
  rfl

theorem Refines.step {s : RpcConnection} (href : b.Refines s) (hreach : (RpcConnection.system cfg.frames).Reachable s)
    (hids : b'.client.calls.length ≤ 2 ^ 32) (hstep : Step cfg b b') :
    ∃ s', (RpcConnection.system cfg.frames).Steps s s' ∧ b'.Refines s' := by
  cases hstep with
  | calls hused =>
    obtain ⟨requests, answers, written, rfl, h⟩ := href
    exact ⟨_, .one (.calls hused), requests, answers, written, rfl, h.requests, h.answers, h.channel, h.intact, h.broken,
      h.alive, h.hears⟩
  | moves hmove =>
    rw [hmove.calls_length, ← href.calls_length] at hids
    rcases hmove.follows href hreach hids with ⟨s', hmoves, href'⟩ | ⟨href', -⟩
    · exact ⟨s', RpcConnection.Moves.steps hmoves, href'⟩
    · exact ⟨s, .refl s, href'⟩

theorem Step.length_le (hstep : Step cfg b b') : b.client.calls.length ≤ b'.client.calls.length := by
  cases hstep with
  | calls _ => exact Nat.le_of_lt (by simp)
  | moves hmove => exact Nat.le_of_eq hmove.calls_length.symm

theorem Refines.steps {s : RpcConnection} (href : b.Refines s) (hreach : (RpcConnection.system cfg.frames).Reachable s)
    (hids : b'.client.calls.length ≤ 2 ^ 32) (hsteps : (system cfg).Steps b b') :
    ∃ s', (RpcConnection.system cfg.frames).Steps s s' ∧ b'.Refines s' := by
  induction hsteps with
  | refl => exact ⟨s, .refl s, href⟩
  | tail _ hstep ih =>
    obtain ⟨t, ht, href'⟩ := ih ((Step.length_le hstep).trans hids)
    obtain ⟨s', hs', href''⟩ := href'.step (hreach.steps ht) hids hstep
    exact ⟨s', ht.trans hs', href''⟩

/-- A connection on streams of bytes is a connection of frames. -/
theorem Refines.of_reachable (hreach : (system cfg).Reachable b) (hids : b.client.calls.length ≤ 2 ^ 32) :
    ∃ s, (RpcConnection.system cfg.frames).Reachable s ∧ b.Refines s := by
  obtain ⟨_, ⟨it, order, request, answer, hrequest, hanswer, rfl⟩, hsteps⟩ := hreach
  have hstart : (RpcConnection.system cfg.frames).Reachable (.start request answer) :=
    .start ⟨it, order, request, answer, hrequest, hanswer, rfl⟩
  have href : (start request answer).Refines (.start request answer) := ⟨[], [], [], rfl, .start request answer⟩
  obtain ⟨s, hs, href'⟩ := href.steps hstart hids hsteps
  exact ⟨s, hstart.steps hs, href'⟩

/-- The moves of the connections that can be, while the ids last. -/
def Moves (cfg : StreamConfig) (b b' : StreamConnection) : Prop :=
  (system cfg).Reachable b ∧ b.client.calls.length ≤ 2 ^ 32 ∧ Move cfg b b'

theorem Moves.wellFounded (cfg : StreamConfig) : WellFounded (Function.swap (Moves cfg)) := by
  refine wellFounded_of_simulation (fun b s => (b.Refines s ∧ (RpcConnection.system cfg.frames).Reachable s) ∧
    s.client.calls.length ≤ 2 ^ 32) toCarry Nat.lt_wfRel.wf (RpcConnection.Moves.wellFounded cfg.frames) ?_ ?_
  · rintro b b' ⟨hreach, hids, -⟩
    obtain ⟨s, hs, href⟩ := Refines.of_reachable hreach hids
    exact ⟨s, ⟨href, hs⟩, href.calls_length.trans_le hids⟩
  · rintro b b' s ⟨⟨href, hs⟩, hids⟩ ⟨-, -, hmove⟩
    rcases hmove.follows href hs hids with ⟨s', hmoves, href'⟩ | ⟨href', hlt⟩
    · refine .inl ⟨s', hmoves, ⟨href', hs.steps (RpcConnection.Moves.steps hmoves)⟩, ?_⟩
      rw [href'.calls_length, hmove.calls_length, ← href.calls_length]
      exact hids
    · exact .inr ⟨⟨⟨href', hs⟩, hids⟩, hlt⟩

theorem exists_rests (hreach : (system cfg).Reachable b) (hids : b.client.calls.length ≤ 2 ^ 32) :
    ∃ b', Relation.ReflTransGen (Moves cfg) b b' ∧ (system cfg).Steps b b' ∧ Rests cfg b' := by
  obtain ⟨b', hmoves, hend⟩ := exists_rest (Moves.wellFounded cfg) b
  obtain ⟨hsteps, hlength⟩ : (system cfg).Steps b b' ∧ b'.client.calls.length = b.client.calls.length := by
    clear hend
    induction hmoves with
    | refl => exact ⟨.refl b, rfl⟩
    | tail _ hmove ih =>
      obtain ⟨hsteps, hlength⟩ := ih
      obtain ⟨-, -, hmove⟩ := hmove
      exact ⟨hsteps.tail (.moves hmove), hmove.calls_length.trans hlength⟩
  exact ⟨b', hmoves, hsteps, fun _ hmove => hend _ ⟨hreach.steps hsteps, hlength.trans_le hids, hmove⟩⟩

/-! ### Rest -/

theorem Rests.clientRests (hrests : Rests cfg b) :
    RpcConnection.ClientRests cfg.frames (b.frames requests answers written) :=
  fun _ hstep hinside => hrests _ (.acts hstep hinside)

/-- Where the connection rests, the frames do. -/
theorem Rests.frames (hrests : Rests cfg b) (h : b.Carries requests answers) (hidle : b.client.receiver = .idle) :
    RpcConnection.Rests cfg.single (b.frames requests answers written) := by
  -- what is carried to the client arrives
  have hanswers : answers = [] := by
    by_contra hne
    rcases h.answers.progress framing_exact cfg.capacity_pos hne with ⟨l, hwrites⟩ | ⟨l, hreads⟩ | ⟨i, rest, hframe⟩
    · exact hrests _ (.answers hwrites)
    · exact hrests _ (.listens hidle h.hears hreads)
    · exact hrests _ (.arrives hidle h.hears hframe)
  subst hanswers
  have hchannel : b.channel = [] := by
    by_contra hne
    have hintact : b.responses.broken = false := Bool.eq_false_iff.2 fun hbroken => hne (h.broken hbroken)
    exact hrests _ (.takesAnswers (h.answers.free hintact) Nat.one_pos cfg.server.bufferSize_pos
      (List.length_pos_of_ne_nil hne))
  have hresponses : (b.frames requests [] written).responses = [] := hchannel
  intro s hmove
  cases hmove with
  | acts hstep hinside => exact hrests _ (.acts hstep hinside)
  | @writes frame queue hlive hqueue hroom =>
    obtain ⟨hcarries, hintact⟩ := h.requests hlive
    have hempty : requests = [] := hroom
    subst hempty
    have hlength : 1 ≤ b.client.outgoing.queue.length := by
      rw [show b.client.outgoing.queue = frame :: queue from hqueue]
      exact Nat.le_add_left 1 _
    exact hrests _ (.takes (hcarries.free hintact) Nat.one_pos cfg.bufferSize_pos hlength)
  | loses hgone hqueue =>
    cases hbroken : b.requests.broken with
    | false => exact hrests _ (.resets hgone hbroken)
    | true => exact hrests _ (.loses hgone hbroken hqueue)
  | reaches hlive hpolls hrequests =>
    obtain ⟨hcarries, -⟩ := h.requests hlive
    have hne : requests ≠ [] := by
      rw [show requests = _ from hrequests]
      exact List.cons_ne_nil _ _
    rcases hcarries.progress framing_exact cfg.capacity_pos hne with ⟨l, hwrites⟩ | ⟨l, hreads⟩ | ⟨i, rest, hframe⟩
    · exact hrests _ (.writes hwrites)
    · exact hrests _ (.reads hlive hpolls hreads)
    · exact hrests _ (.reaches hlive hpolls hframe)
  | serves hstep hplace => exact hrests _ (.serves hstep hplace)
  | passes hlive htask hphase hframe _ =>
    refine hrests _ (.passes hlive htask hphase hframe ?_)
    rw [hchannel]
    exact cfg.server.bufferSize_pos
  | arrives _ hresponses' =>
    rw [hresponses] at hresponses'
    cases hresponses'
  | breaks _ hn =>
    rw [hresponses] at hn
    exact Nat.not_lt_zero _ hn

theorem Rests.returned (hrests : Rests cfg b) (hreach : (system cfg).Reachable b)
    (hids : b.client.calls.length ≤ 2 ^ 32) (hlive : b.server.stopped = none)
    (hhandlers : ∃ handler, cfg.server.handlers handler)
    (hfew : b.client.calls.countP (·.phase.isReading) < cfg.server.serverTasks) {call : ClientCall}
    (hcall : b.client.calls[k]? = some call) : RpcConnection.Returned call := by
  obtain ⟨s, hs, requests, answers, written, rfl, h⟩ := Refines.of_reachable hreach hids
  have hinv := RpcConnection.Inv.of_reachable hs hids
  have hcalls := RpcConnection.Calls.of_reachable hs hids
  have hidle := hrests.clientRests.idle hinv hids hcalls h.alive
  have hinv' : RpcConnection.Inv cfg.single (b.frames requests answers written) := ⟨hinv.client, hinv.sends, hinv.served,
    hinv.handshake, hinv.unpassed, hinv.replies, hinv.complete, hinv.owned, hinv.registered⟩
  exact (hrests.frames h hidle).returned hinv' hids hcalls h.alive hlive hhandlers hfew hcall

/-! ### A server with one answer -/

/-- The service "s", whose endpoint "e" answers every request alike. -/
def greeting : SubChannel where
  serviceName := "s"
  handlers := Finmap.singleton "e" ⟨RequestHandlerAdapter.handle
    (fun _ => .ok ⟨"e", "hello", []⟩ : RequestHandler RawMessage RawMessage), RawMessage, RawMessage, _, _, _, rfl⟩

def greeter : FrameHandler where
  subchannels := Finmap.singleton "s" greeting
  debugErrorMsg := ErrorMsg.message

theorem greeting_handle {args response : MessageArgs} {code : ResponseCode}
    (h : greeting.handle args = .ok (code, response)) : response = ⟨.raw, [utf8 "e", utf8 "hello", []]⟩ := by
  obtain ⟨endpoint, -, h⟩ := except_bind_eq_ok.1 h
  obtain ⟨handler, hhandler, h⟩ := except_bind_eq_ok.1 h
  have hlookup := FrameHandler.getHandler_eq_ok.1 hhandler
  obtain rfl : endpoint = "e" := (Finmap.mem_singleton _ _ _).1 (Finmap.mem_of_lookup_eq_some hlookup)
  obtain rfl := Option.some.inj hlookup
  obtain ⟨request, -, h⟩ := except_bind_eq_ok.1 h
  obtain ⟨-, h⟩ := Prod.mk.inj (Except.ok.inj h)
  exact h.symm

theorem greeter_usize {handler : FrameHandler} (hhandler : handler = greeter) {service : String} {subchannel : SubChannel}
    {args response : MessageArgs} {code : ResponseCode} (hsub : handler.subchannels.lookup service = some subchannel)
    (h : subchannel.handle args = .ok (code, response)) : UsizeLengths response.args := by
  subst hhandler
  obtain rfl : service = "s" := (Finmap.mem_singleton _ _ _).1 (Finmap.mem_of_lookup_eq_some hsub)
  obtain rfl := Option.some.inj hsub
  rw [greeting_handle h]
  exact ⟨by decide, by decide⟩

/-- Streams that take a byte at a time. -/
def greet : StreamConfig where
  bufferSize := 1
  bufferSize_pos := Nat.one_pos
  server := { RpcConnection.echo.server with handlers := (· = greeter) }
  capacity := 1
  capacity_pos := Nat.one_pos
  usize _ hhandler _ _ _ _ _ := greeter_usize hhandler

/-- The state after one call, when nothing moves any more. -/
structure AfterCall (cfg : StreamConfig) (operation : Operation) (b : StreamConnection) (call : ClientCall) : Prop where
  reachable : (system cfg).Reachable b
  calls : b.client.calls.length = 2
  rests : Rests cfg b
  isCall : b.client.calls[1]? = some call
  operation : call.operation = operation

theorem exists_afterCall (cfg : StreamConfig) (operation : Operation) (hused : operation.Used) :
    ∃ b call, AfterCall cfg operation b call := by
  obtain ⟨it, order, request, answer, hrequest, hanswer⟩ := exists_handshake
  have hstart : (system cfg).Reachable (start request answer) :=
    .start ⟨it, order, request, answer, hrequest, hanswer, rfl⟩
  have hcalled := hstart.step (.calls hused)
  obtain ⟨b, hmoves, hsteps, hrests⟩ := exists_rests hcalled (show 2 ≤ 2 ^ 32 by decide)
  suffices h : b.client.calls.length = 2 ∧ ∃ call, b.client.calls[1]? = some call ∧ call.operation = operation by
    obtain ⟨hlength, call, hcall, hop⟩ := h
    exact ⟨b, call, hcalled.steps hsteps, hlength, hrests, hcall, hop⟩
  clear hrests hsteps
  induction hmoves with
  | refl => exact ⟨rfl, _, rfl, rfl⟩
  | tail _ hmove ih =>
    obtain ⟨hlength, call, hcall, hop⟩ := ih
    obtain ⟨-, -, hmove⟩ := hmove
    obtain ⟨call', hcall', hop'⟩ := hmove.call_kept hcall
    exact ⟨hmove.calls_length.trans hlength, call', hcall', hop'.trans hop⟩

/-- A request that is greeted. -/
def greetRequest (order : (headers : HashMap String String) → Iter headers) : Operation :=
  .send (SubChannel.exchange RawMessage greeting order (RawMessage.mk "e" "" []))

namespace AfterCall

variable {operation : Operation} {order : (headers : HashMap String String) → Iter headers} {call : ClientCall}

theorem ids (h : AfterCall cfg operation b call) : b.client.calls.length ≤ 2 ^ 32 := by
  rw [h.calls]
  decide

theorem few (h : AfterCall greet operation b call) :
    b.client.calls.countP (·.phase.isReading) < greet.server.serverTasks := by
  refine List.countP_le_length.trans_lt ?_
  rw [h.calls]
  decide

theorem live (h : AfterCall greet (greetRequest order) b call) : b.server.stopped = none := by
  obtain ⟨s, hs, requests, answers, written, rfl, -⟩ := Refines.of_reachable h.reachable h.ids
  refine (RpcConnection.Inv.of_reachable hs h.ids).live h.ids (RpcConnection.Calls.of_reachable hs h.ids)
    fun k c hk hcall => ?_
  have hcall : b.client.calls[k]? = some c := hcall
  have hlt := ClientConnection.Inv.lt_length hcall
  rw [h.calls] at hlt
  obtain rfl : k = 1 := by omega
  obtain rfl := Option.some.inj (hcall.symm.trans h.isCall)
  have hcarried : MessageArgs.Carried ⟨.raw, [[101], [], []]⟩ (requestRoom "s" .raw) :=
    ⟨by decide, by decide, by decide, by decide⟩
  refine RpcConnection.Serves.of_carried h.operation rfl hcarried ?_
  rintro _ rfl fields hservice
  have hservice : fields.service = "s" := hservice
  refine ⟨FrameHandler.answerable_iff.2 ⟨greeting, (.ok, ⟨.raw, [utf8 "e", utf8 "hello", []]⟩), ?_, rfl⟩, ?_⟩
  · rw [hservice]
    rfl
  · intro registered code response hsub hr
    rw [hservice] at hsub
    obtain rfl := Option.some.inj hsub
    rw [greeting_handle hr]
    decide

end AfterCall

/-! ### Results -/

/-- On streams of bytes the two ends do what they do where the frames are in flight as they are. The streams carry
these frames, and no others, and a reader has a part of the next one in its buffer, or begins with it. -/
theorem streams_carry_frames (cfg : StreamConfig) (b : StreamConnection) (hreach : (system cfg).Reachable b)
    (hids : b.client.calls.length ≤ 2 ^ 32) : ∃ requests answers written,
      (RpcConnection.system cfg.frames).Reachable (b.frames requests answers written) ∧ b.Carries requests answers ∧
        (b.server.stopped = none → b.requests.Holds framing TFrameId.Fits requests) ∧
        b.responses.Holds framing TFrameId.Fits answers ∧ b.deaf = false ∧
        ∀ b', (system cfg).Steps b b' → b'.client.calls.length ≤ 2 ^ 32 →
          ∃ s', (RpcConnection.system cfg.frames).Steps (b.frames requests answers written) s' ∧ b'.Refines s' := by
  obtain ⟨s, hs, requests, answers, written, rfl, h⟩ := Refines.of_reachable hreach hids
  have href : b.Refines (b.frames requests answers written) := ⟨requests, answers, written, rfl, h⟩
  exact ⟨requests, answers, written, hs, h, fun hlive => (h.requests hlive).1.holds framing_exact,
    h.answers.holds framing_exact, h.hears, fun b' hsteps hids' => href.steps hs hids' hsteps⟩

/-- A ping of which a byte is read. -/
theorem ping_carried : ∃ b requests answers written, (system greet).Reachable b ∧ b.requests.buffer = [0] ∧
    (RpcConnection.system greet.frames).Reachable (b.frames requests answers written) ∧
      b.Carries requests answers ∧ b.requests.Holds framing TFrameId.Fits requests := by
  obtain ⟨it, order, request, answer, hrequest, hanswer⟩ := exists_handshake
  have hstart : (system greet).Reachable (start request answer) :=
    .start ⟨it, order, request, answer, hrequest, hanswer, rfl⟩
  have hcalled := hstart.step (.calls .ping)
  have hregistered := hcalled.step (.moves (.acts (.registers (k := 1) rfl rfl rfl) ⟨rfl, rfl, List.prefix_refl _, rfl⟩))
  have hcreated := hregistered.step (.moves (.acts (.runs (k := 1) rfl (.creates rfl)) ⟨rfl, rfl, List.prefix_refl _, rfl⟩))
  have hsent := hcreated.step (.moves (.acts (.runs (k := 1) rfl (.sends rfl ⟨rfl, Nat.one_pos⟩))
    ⟨rfl, rfl, List.nil_prefix, rfl⟩))
  have htaken := hsent.step (.moves (.takes (n := 1) ⟨rfl, rfl, rfl⟩ Nat.one_pos (Nat.le_refl 1) (Nat.le_refl 1)))
  have hbegun := htaken.step (.moves (.writes (.begins rfl rfl)))
  have hwritten := hbegun.step (.moves (.writes (.flushes (n := 1) Nat.one_pos (show 1 ≤ 16 by decide) (Nat.le_refl 1))))
  have hread := hwritten.step (.moves (.reads rfl ⟨rfl, rfl, show 0 < 3 by decide⟩
    (.reads (n := 1) rfl Nat.one_pos (Nat.le_refl 1))))
  obtain ⟨requests, answers, written, hs, hcarries, hholds, -⟩ :=
    streams_carry_frames greet _ hread (show 2 ≤ 2 ^ 32 by decide)
  have hbuffer : (wire ⟨1, pingFrame⟩).take 1 = [0] := by decide
  exact ⟨_, requests, answers, written, hread, hbuffer, hs, hcarries, hholds rfl⟩

/-- Without new calls it comes to rest, however the bytes are cut and delayed. -/
theorem streams_end (cfg : StreamConfig) : WellFounded (Function.swap (Moves cfg)) ∧
    ∀ b, (system cfg).Reachable b → b.client.calls.length ≤ 2 ^ 32 →
      ∃ b', Relation.ReflTransGen (Moves cfg) b b' ∧ Rests cfg b' := by
  refine ⟨Moves.wellFounded cfg, fun b hreach hids => ?_⟩
  obtain ⟨b', hmoves, -, hrests⟩ := exists_rests hreach hids
  exact ⟨b', hmoves, hrests⟩

/-- A ping was made. -/
theorem ping_settles : ∃ b b' call, (system greet).Reachable b ∧ b.client.calls[1]? = some call ∧
    call.phase = .allocated ∧ Relation.ReflTransGen (Moves greet) b b' ∧ Rests greet b' := by
  obtain ⟨it, order, request, answer, hrequest, hanswer⟩ := exists_handshake
  have hstart : (system greet).Reachable (start request answer) :=
    .start ⟨it, order, request, answer, hrequest, hanswer, rfl⟩
  have hcalled := hstart.step (.calls .ping)
  obtain ⟨b', hmoves, hrests⟩ := (streams_end greet).2 _ hcalled (show 2 ≤ 2 ^ 32 by decide)
  exact ⟨_, b', _, hcalled, rfl, rfl, hmoves, hrests⟩

/-- However small the buffers of the streams are: where it rests every call has returned, if the server has a place
for each. -/
theorem streams_complete (cfg : StreamConfig) (b : StreamConnection) (hreach : (system cfg).Reachable b)
    (hids : b.client.calls.length ≤ 2 ^ 32) (hlive : b.server.stopped = none)
    (hhandlers : ∃ handler, cfg.server.handlers handler)
    (hfew : b.client.calls.countP (·.phase.isReading) < cfg.server.serverTasks) (hrests : Rests cfg b) :
    ∀ (k : ℕ) call, b.client.calls[k]? = some call → RpcConnection.Returned call := fun _ _ hcall =>
  hrests.returned hreach hids hlive hhandlers hfew hcall

theorem greeting_returns : ∃ order b call, AfterCall greet (greetRequest order) b call ∧ RpcConnection.Returned call := by
  obtain ⟨order⟩ := RpcConnection.exists_order
  obtain ⟨b, call, h⟩ := exists_afterCall greet (greetRequest order) (.send _)
  exact ⟨order, b, call, h, streams_complete greet b h.reachable h.ids h.live ⟨greeter, rfl⟩ h.few h.rests 1 call h.isCall⟩

end StreamConnection

end Tchannel
