import Tchannel.ClientOutcomes
import Tchannel.Lib.Termination
import Tchannel.Registration
import Tchannel.RpcCalls

/-!
# A connection comes to rest

A frame of a request has at most eight steps to go: from its call to `FrameSender`, to the stream, to the socket,
to the dispatcher, into the channel of its task and out of it; and a task has three (`toServe`). Each of these
makes the answer nearer, of which nothing is known before it is there but that it has finitely many frames; these
have four steps to go each (`toReceive`). So without new calls a connection comes to rest, however its two ends
take turns (`RpcConnection.exists_settles`).
-/

namespace Tchannel
open Wire

/-! ### What is left to do for a request -/

/-- The frames that the call still has to make or to send, and what it does besides. -/
def ClientCall.toSend (call : ClientCall) : ℕ :=
  match call.phase with
  | .allocated => 8 * (call.operation.frames.toOption.getD []).length + 3
  | .registered => 8 * (call.operation.frames.toOption.getD []).length + 2
  | .sending frames => 8 * frames.length + 1
  | _ => 0

def Task.toAnswer (task : Task) : ℕ :=
  task.input.queue.length +
    match task.phase with
    | .reading | .read _ => 2
    | .deregistered _ => 1
    | .answered _ _ | .failed _ => 0

def Server.toServe (s : Server) : ℕ :=
  5 * s.socket.length + 4 * s.dispatching.frames.length + (s.tasks.map Task.toAnswer).sum +
    if s.stopped = none then 1 else 0

/-! ### What is left to do for an answer -/

def ClientCall.toRead (call : ClientCall) : ℕ :=
  call.input.queue.length +
    match call.phase with
    | .receiving => 3
    | .closing _ _ => 2
    | .closingAgain _ => 1
    | _ => 0

def FrameReceiver.toDeliver : FrameReceiver → ℕ
  | .idle => 0
  | .sending _ _ => 2

def ClientConnection.toSend (s : ClientConnection) : ℕ :=
  (s.calls.map ClientCall.toSend).sum + 7 * s.outgoing.queue.length

def ClientConnection.toRead (s : ClientConnection) : ℕ :=
  (s.calls.map ClientCall.toRead).sum + s.receiver.toDeliver

namespace RpcConnection

def toServe (s : RpcConnection) : ℕ := s.client.toSend + 6 * s.requests.length + s.server.toServe

/-- The frames that the tasks have not passed on. -/
def unpassed (s : RpcConnection) : ℕ :=
  (s.server.tasks.zipIdx.map fun (task, k) => task.phase.answer.length - s.passed k).sum

def toReceive (s : RpcConnection) : ℕ := 4 * s.unpassed + 3 * s.responses.length + s.client.toRead

end RpcConnection

/-! ### The server -/

namespace Server

variable {cfg : ServerConfig} {s s' : Server} {k : ℕ} {task task' : Task}

theorem toServe_update (htask : s.tasks[k]? = some task) (hlive : s.stopped = none)
    (hlt : task'.toAnswer < task.toAnswer) : (s.update k task').toServe < s.toServe := by
  have hsum := sum_map_set Task.toAnswer task' htask
  unfold toServe update
  rw [if_pos hlive]
  dsimp only
  split <;> omega

theorem toAnswer_receive {frame : TFrameId} {queue : List TFrameId} (hphase : task.phase = .reading)
    (hqueue : task.input.queue = frame :: queue) : (task.receive frame queue).toAnswer < task.toAnswer := by
  unfold Task.toAnswer Task.receive
  rw [hphase, hqueue, List.length_cons]
  dsimp only
  rcases readPhase_cases (task.received ++ [frame]) with h | ⟨request, h⟩ | ⟨e, h⟩ <;> rw [h] <;> dsimp only <;> omega

theorem Step.toServe_lt (hstep : s.Step cfg s') : s'.toServe < s.toServe := by
  obtain ⟨hlive, hmove⟩ := hstep
  cases hmove with
  | @next frame socket _ hidle hsocket =>
    unfold toServe
    rw [hidle, hsocket, s.lookup_frames]
    simp only [Dispatching.frames, List.length_nil, List.length_cons]
    omega
  | @send frame k task _ hsending htask _ =>
    have hsum := sum_map_set Task.toAnswer { task with input := task.input.push frame } htask
    have hpush : Task.toAnswer { task with input := task.input.push frame } = task.toAnswer + 1 := by
      unfold Task.toAnswer Channel.push
      simp only [List.length_append, List.length_singleton]
      omega
    unfold toServe
    rw [hsending]
    simp only [Dispatching.frames, List.length_nil, List.length_singleton]
    omega
  | sendFails _ _ _ _ =>
    unfold toServe dispatchFails
    rw [if_pos hlive, if_neg nofun]
    exact Nat.lt_succ_self _
  | @first frame _ hfirst _ =>
    unfold toServe
    rw [hfirst]
    simp only [Dispatching.frames, List.length_nil, List.length_singleton, List.map_append, List.map_cons, List.map_nil,
      List.sum_append, List.sum_cons, List.sum_nil]
    rw [show (Task.new frame).toAnswer = 3 from rfl]
    omega
  | firstFails _ _ _ =>
    unfold toServe dispatchFails
    rw [if_pos hlive, if_neg nofun]
    exact Nat.lt_succ_self _
  | receive htask hphase hqueue => exact toServe_update htask hlive (toAnswer_receive hphase hqueue)
  | @deregister k task request _ htask hphase =>
    have hsum := sum_map_set Task.toAnswer { task with phase := .deregistered request } htask
    have hlt : Task.toAnswer { task with phase := .deregistered request } < task.toAnswer := by
      unfold Task.toAnswer
      rw [hphase]
      exact Nat.lt_succ_self _
    unfold toServe
    dsimp only
    omega
  | @reply k task request response htask hphase _ =>
    refine toServe_update htask hlive ?_
    unfold Task.toAnswer Task.reply
    rw [hphase]
    cases response <;> exact Nat.lt_succ_self _

end Server

/-! ### The client -/

namespace ClientCall

variable {call call' : ClientCall} {bufferSize : ℕ} {outgoing outgoing' : Channel}

theorem toSend_of_phase {phase : ClientPhase} (hphase : call.phase = phase)
    (hnot : phase.isReading = false ∨ phase = .receiving) : call.toSend = 0 := by
  unfold toSend
  rw [hphase]
  rcases hnot with hnot | rfl
  · cases phase <;> first | rfl | cases hnot
  · rfl

theorem toRead_le (call : ClientCall) : call.toRead ≤ call.input.queue.length + 3 := by
  unfold toRead
  split <;> omega

theorem toSend_create (hphase : call.phase = .registered) : call.create.toSend < call.toSend := by
  have hbefore : call.toSend = 8 * (call.operation.frames.toOption.getD []).length + 2 := by
    unfold toSend
    rw [hphase]
  rw [hbefore]
  unfold create
  split
  · rename_i frames hframes
    rw [hframes]
    exact Nat.lt_succ_self _
  · unfold fail
    split <;> exact Nat.succ_pos _

/-- A call that receives a frame has sent all of its own, and the frame has arrived. -/
theorem less_receive {frame : TFrameId} {queue : List TFrameId} (hphase : call.phase = .receiving)
    (hqueue : call.input.queue = frame :: queue) :
    (call.receive frame queue).toSend = 0 ∧ (call.receive frame queue).toRead < call.toRead := by
  have hbefore : call.toRead = queue.length + 1 + 3 := by
    unfold toRead
    rw [hphase, hqueue]
    rfl
  have hlt : ∀ call' : ClientCall, call'.input.queue = queue → call'.toRead < call.toRead := fun call' h => by
    have hle := call'.toRead_le
    rw [h] at hle
    omega
  unfold receive proceed
  split
  · unfold finish
    split <;> exact ⟨rfl, hlt _ rfl⟩
  · unfold finish
    split <;> exact ⟨rfl, hlt _ rfl⟩
  · exact ⟨rfl, hlt _ rfl⟩
  · exact ⟨toSend_of_phase hphase (.inr rfl), hlt _ rfl⟩

end ClientCall

namespace ClientConnection

variable {bufferSize k : ℕ} {s s' : ClientConnection} {call call' : ClientCall}

theorem Step.less (hinv : s.Inv bufferSize) (hlen : s.calls.length ≤ 2 ^ 32) (halive : s.outgoing.receiverAlive = true)
    (hstep : Step bufferSize s s') (hinside : s.Inside s') : Less (s'.toSend, s'.toRead) (s.toSend, s.toRead) := by
  have hset : ∀ {k : ℕ} {call : ClientCall} (call' : ClientCall), s.calls[k]? = some call →
      ((s.calls.set k call').map ClientCall.toSend).sum + call.toSend = (s.calls.map ClientCall.toSend).sum + call'.toSend ∧
      ((s.calls.set k call').map ClientCall.toRead).sum + call.toRead = (s.calls.map ClientCall.toRead).sum + call'.toRead :=
    fun call' hcall => ⟨sum_map_set _ call' hcall, sum_map_set _ call' hcall⟩
  cases hstep with
  | calls operation => exact absurd hinside.calls (by simp)
  | @registers k call _ hcall hphase =>
    have hcalls : (s.register k call).calls = s.calls.set k (call.register s.incoming.length (.ok ())) :=
      congrArg (fun result => s.calls.set k (call.register s.incoming.length result))
        ((FramesDispatcher.register_eq_ok s.pendingIds call.id k).2 (hinv.register_ok hlen hcall hphase))
    have hsum := (hset (call.register s.incoming.length (.ok ())) hcall).1
    have hlt : (call.register s.incoming.length (.ok ())).toSend < call.toSend := by
      unfold ClientCall.register ClientCall.toSend
      rw [hphase]
      exact Nat.lt_succ_self _
    have houtgoing : (s.register k call).outgoing = s.outgoing := rfl
    refine .of_lt ?_
    unfold toSend
    rw [hcalls, houtgoing]
    omega
  | @runs k call call' outgoing hcall hrun =>
    obtain ⟨hsum, hsum'⟩ := hset call' hcall
    cases hrun with
    | creates hphase =>
      have hlt := ClientCall.toSend_create hphase
      refine .of_lt ?_
      unfold toSend
      dsimp only
      omega
    | @sends frame frames hphase _ =>
      have hbefore : call.toSend = 8 * (frames.length + 1) + 1 := by
        unfold ClientCall.toSend
        rw [hphase]
        rfl
      have hafter : ClientCall.toSend { call with phase := .sending frames } = 8 * frames.length + 1 := rfl
      have hqueue : (s.outgoing.push ⟨call.id, frame⟩).queue.length = s.outgoing.queue.length + 1 :=
        List.length_append
      refine .of_lt ?_
      unfold toSend
      dsimp only
      omega
    | sendFails _ hgone =>
      rw [halive] at hgone
      cases hgone
    | sent hphase =>
      have hbefore : call.toSend = 1 := by
        unfold ClientCall.toSend
        rw [hphase]
        rfl
      have hafter : ClientCall.toSend { call with phase := .receiving } = 0 := rfl
      refine .of_lt ?_
      unfold toSend
      dsimp only
      omega
    | receives hphase hqueue =>
      obtain ⟨hafter, hlt⟩ := ClientCall.less_receive hphase hqueue
      refine .of_le ?_ ?_
      · unfold toSend
        dsimp only
        omega
      · unfold toRead
        dsimp only
        omega
    | starves hphase _ hclosed =>
      exact absurd (hinv.own hlen hcall (by rw [hphase]; rfl)) hclosed
  | @closes k call result again _ hcall hphase =>
    obtain ⟨hsum, hsum'⟩ := hset (call.close s.incoming.length result again) hcall
    have hafter : (call.close s.incoming.length result again).toSend = 0 := by cases again <;> rfl
    have hlt : (call.close s.incoming.length result again).toRead < call.toRead := by
      unfold ClientCall.toRead
      rw [hphase]
      cases again
      · exact Nat.lt_succ_of_lt (Nat.lt_succ_self _)
      · exact Nat.lt_succ_self _
    refine .of_le ?_ ?_
    · unfold toSend
      dsimp only
      omega
    · unfold toRead
      dsimp only
      omega
  | @closesAgain k call result _ hcall hphase =>
    obtain ⟨hsum, hsum'⟩ := hset (call.returns result) hcall
    have hafter : (call.returns result).toSend = 0 := rfl
    have hlt : (call.returns result).toRead < call.toRead := by
      unfold ClientCall.toRead
      rw [hphase]
      exact Nat.lt_succ_self _
    refine .of_le ?_ ?_
    · unfold toSend
      dsimp only
      omega
    · unfold toRead
      dsimp only
      omega
  | arrives _ => exact absurd hinside.incoming (by simp)
  | @delivers frame k call hsending hcall _ =>
    obtain ⟨hsum, hsum'⟩ := hset { call with input := call.input.push frame } hcall
    have hafter : ClientCall.toSend { call with input := call.input.push frame } = call.toSend := rfl
    have hread : ClientCall.toRead { call with input := call.input.push frame } = call.toRead + 1 := by
      unfold ClientCall.toRead Channel.push
      simp only [List.length_append, List.length_singleton]
      omega
    refine .of_le ?_ ?_
    · unfold toSend
      dsimp only
      omega
    · unfold toRead
      rw [hsending]
      simp only [FrameReceiver.toDeliver]
      omega
  | deliverFails hsending _ _ =>
    refine .of_le (Nat.le_refl _) ?_
    unfold toRead
    rw [hsending]
    simp only [FrameReceiver.toDeliver]
    omega
  | @writes frame queue hqueue =>
    have hle := hinside.outgoing.length_le
    rw [hqueue, List.length_cons] at hle
    exact absurd hle (Nat.not_succ_le_self _)
  | stops =>
    have hsender := hinside.sender
    rw [halive] at hsender
    cases hsender

end ClientConnection

/-! ### Both ends -/

namespace RpcConnection

variable {cfg : RpcConfig} {s s' : RpcConnection} {k : ℕ}

theorem unpassed_lt {task : Task} {request : RequestRead} {frames : List TFrameId} {frame : TFrameId}
    (responses : List TFrameId) (htask : s.server.tasks[k]? = some task) (hphase : task.phase = .answered request frames)
    (hframe : frames[s.passed k]? = some frame) :
    unpassed { s with passed := Function.update s.passed k (s.passed k + 1), responses } < s.unpassed := by
  have hlt := (List.getElem?_eq_some_iff.1 hframe).1
  have hanswer : task.phase.answer = frames := by
    rw [hphase]
    rfl
  refine List.sum_lt_sum _ _ (fun ⟨t, j⟩ _ => ?_) ⟨(task, k), List.mem_zipIdx_iff_getElem?.2 htask, ?_⟩
  · dsimp only
    rcases eq_or_ne j k with rfl | hne
    · rw [Function.update_self]
      omega
    · rw [Function.update_of_ne hne]
  · dsimp only
    rw [Function.update_self, hanswer]
    omega

theorem Move.less (hinv : s.client.Inv cfg.bufferSize) (hlen : s.client.calls.length ≤ 2 ^ 32)
    (halive : s.client.outgoing.receiverAlive = true) (hmove : Move cfg s s') :
    Less (s'.toServe, s'.toReceive) (s.toServe, s.toReceive) := by
  cases hmove with
  | acts hstep hinside =>
    have hless := hstep.less hinv hlen halive hinside
    rw [Less, Prod.lex_def] at hless
    rcases hless with hlt | ⟨heq, hlt⟩
    · refine .of_lt ?_
      unfold toServe
      dsimp only at hlt ⊢
      omega
    · refine .of_le ?_ ?_
      · unfold toServe
        dsimp only at heq ⊢
        omega
      · unfold toReceive unpassed
        dsimp only at hlt ⊢
        omega
  | writes _ hqueue _ =>
    refine .of_lt ?_
    unfold toServe ClientConnection.toSend
    simp only [hqueue, List.length_append, List.length_cons, List.length_nil]
    omega
  | loses _ hqueue =>
    refine .of_lt ?_
    unfold toServe ClientConnection.toSend
    simp only [hqueue, List.length_cons]
    omega
  | reaches _ _ hrequests =>
    refine .of_lt ?_
    unfold toServe Server.toServe Server.arrive
    simp only [hrequests, List.length_append, List.length_cons, List.length_nil]
    omega
  | serves hstep _ =>
    have hlt := hstep.toServe_lt
    refine .of_lt ?_
    unfold toServe
    dsimp only
    omega
  | @passes k task request frames frame _ htask hphase hframe _ =>
    have hlt := unpassed_lt (s.responses ++ [frame]) htask hphase hframe
    refine .of_le (Nat.le_refl _) ?_
    unfold toReceive
    simp only [List.length_append, List.length_cons, List.length_nil]
    omega
  | @arrives frame responses hidle hresponses =>
    have hlookup : (s.client.lookup frame).toDeliver ≤ 2 := by
      unfold FrameReceiver.toDeliver
      split <;> omega
    refine .of_le (Nat.le_refl _) ?_
    unfold toReceive unpassed ClientConnection.toRead
    simp only [hresponses, hidle, List.length_cons, FrameReceiver.toDeliver.eq_1]
    omega
  | breaks _ hn =>
    refine .of_le (Nat.le_refl _) ?_
    unfold toReceive unpassed
    simp only [List.length_take]
    omega

/-- The moves of the connections that can be, while `FrameSender` is there and the ids last. -/
def Moves (cfg : RpcConfig) (s s' : RpcConnection) : Prop :=
  (system cfg).Reachable s ∧ s.client.calls.length ≤ 2 ^ 32 ∧ s.client.outgoing.receiverAlive = true ∧ Move cfg s s'

theorem Moves.wellFounded (cfg : RpcConfig) : WellFounded (Function.swap (Moves cfg)) := by
  refine wellFounded_of_less (fun s => (s.toServe, s.toReceive)) fun s s' ⟨hreach, hlen, halive, hmove⟩ => ?_
  exact hmove.less (ClientConnection.Inv.of_reachable (Inv.of_reachable hreach hlen).client) hlen halive

theorem Move.keeps (hmove : Move cfg s s') : s'.client.calls.length = s.client.calls.length ∧
    s'.client.outgoing.receiverAlive = s.client.outgoing.receiverAlive := by
  cases hmove with
  | acts _ hinside => exact ⟨hinside.calls, hinside.sender⟩
  | writes _ _ _ => exact ⟨rfl, rfl⟩
  | loses _ _ => exact ⟨rfl, rfl⟩
  | reaches _ _ _ => exact ⟨rfl, rfl⟩
  | serves _ _ => exact ⟨rfl, rfl⟩
  | passes _ _ _ _ _ => exact ⟨rfl, rfl⟩
  | arrives _ _ => exact ⟨rfl, rfl⟩
  | breaks _ _ => exact ⟨rfl, rfl⟩

/-- A connection that comes to rest after moves alone. -/
structure Settles (cfg : RpcConfig) (s s' : RpcConnection) : Prop where
  steps : (system cfg).Steps s s'
  calls : s'.client.calls.length = s.client.calls.length
  alive : s'.client.outgoing.receiverAlive = true
  rests : Rests cfg s'

theorem exists_settles (hreach : (system cfg).Reachable s) (hids : s.client.calls.length ≤ 2 ^ 32)
    (halive : s.client.outgoing.receiverAlive = true) : ∃ s', Settles cfg s s' := by
  obtain ⟨s', hmoves, hend⟩ := exists_rest (Moves.wellFounded cfg) s
  have hsteps : (system cfg).Steps s s' ∧ s'.client.calls.length = s.client.calls.length ∧
      s'.client.outgoing.receiverAlive = true := by
    clear hend
    induction hmoves with
    | refl => exact ⟨.refl s, rfl, halive⟩
    | tail _ hmoves ih =>
      obtain ⟨hsteps, hcalls, halive⟩ := ih
      obtain ⟨-, -, -, hmove⟩ := hmoves
      obtain ⟨hcalls', halive'⟩ := hmove.keeps
      exact ⟨hsteps.tail (.moves hmove), hcalls'.trans hcalls, halive'.trans halive⟩
  obtain ⟨hsteps, hcalls, halive⟩ := hsteps
  refine ⟨s', hsteps, hcalls, halive, fun t hmove => hend t ⟨hreach.steps hsteps, ?_, halive, hmove⟩⟩
  rw [hcalls]
  exact hids

end RpcConnection

end Tchannel
