import Tchannel.ServerConnection
import Tchannel.Lib.Mux

/-!
# The invariant of a server connection

`Server.Inv` is what every step of a connection preserves, whatever frames arrive: each task is where
`read_request` is after the frames it received, and as long as the connection is not over (`Server.Live`)
the dispatcher maps exactly the ids of the tasks that are not deregistered to these tasks, also between the
two locks of `dispatch`.
-/

namespace Tchannel
open Wire

/-- The task has not deregistered its id. -/
def TaskPhase.isRegistered : TaskPhase → Bool
  | .reading | .read _ => true
  | _ => false

theorem TaskPhase.request_eq_none {phase : TaskPhase} (h : phase.request = none) :
    phase = .reading ∨ ∃ e, phase = .failed e := by
  cases phase with
  | reading => exact .inl rfl
  | failed e => exact .inr ⟨e, rfl⟩
  | read request => cases h
  | deregistered request => cases h
  | answered request frames => cases h

theorem TaskPhase.failure_eq_some {phase : TaskPhase} {e : Stop} (h : phase.failure = some e) :
    phase = .failed e := by
  cases phase with
  | failed e' => rw [Option.some.inj h]
  | reading => cases h
  | read request => cases h
  | deregistered request => cases h
  | answered request frames => cases h

theorem TaskPhase.eq_reading {phase : TaskPhase} (h : phase.isReading = true) : phase = .reading := by
  cases phase <;> first | rfl | cases h

theorem TaskPhase.eq_answered {phase : TaskPhase} (h : phase.isAnswered = true) :
    ∃ request frames, phase = .answered request frames := by
  cases phase <;> first | exact ⟨_, _, rfl⟩ | cases h

theorem Server.lookup_frames (self : Server) (frame : TFrameId) : (self.lookup frame).frames = [frame] := by
  unfold Server.lookup
  split <;> rfl

@[simp] theorem readPhase_nil : readPhase [] = .reading := rfl

theorem readPhase_cases (frames : List TFrameId) :
    readPhase frames = .reading ∨ (∃ request, readPhase frames = .read request) ∨
      ∃ e, readPhase frames = .failed e := by
  unfold readPhase
  split
  · exact .inr (.inl ⟨_, rfl⟩)
  · exact .inl rfl
  · exact .inr (.inr ⟨_, rfl⟩)

structure Task.Inv (cfg : ServerConfig) (task : Task) : Prop where
  reading : task.phase = .reading → readPhase task.received = .reading
  reads : ∀ request, task.phase.request = some request → readPhase task.received = .read request
  alive : task.input.receiverAlive = task.phase.isReading
  responds : ∀ request frames, task.phase = .answered request frames →
    Server.Responds cfg task.id request (.ok frames)

namespace Task

variable {cfg : ServerConfig} {task : Task}

namespace Inv

theorem new (frame : TFrameId) : (Task.new frame).Inv cfg := by
  refine ⟨fun _ => readPhase_nil, fun request h => ?_, rfl, fun request frames h => ?_⟩
  · cases h
  · cases h

theorem push (h : task.Inv cfg) (frame : TFrameId) :
    Task.Inv cfg { task with input := task.input.push frame } :=
  ⟨h.reading, h.reads, h.alive, h.responds⟩

theorem receive (frame : TFrameId) (queue : List TFrameId) : (task.receive frame queue).Inv cfg := by
  refine ⟨fun h => h, fun request h => ?_, rfl, fun request frames h => ?_⟩
  · simp only [Task.receive] at h ⊢
    rcases readPhase_cases (task.received ++ [frame]) with hphase | ⟨request', hphase⟩ | ⟨e, hphase⟩
    · rw [hphase] at h
      cases h
    · rw [hphase] at h ⊢
      rw [Option.some.inj h]
    · rw [hphase] at h
      cases h
  · simp only [Task.receive] at h
    rcases readPhase_cases (task.received ++ [frame]) with hphase | ⟨request', hphase⟩ | ⟨e, hphase⟩ <;>
      rw [hphase] at h <;> cases h

theorem deregister (h : task.Inv cfg) {request : RequestRead} (hphase : task.phase = .read request) :
    Task.Inv cfg { task with phase := .deregistered request } := by
  refine ⟨fun h => ?_, fun request' hrequest => ?_, ?_, fun request frames h => ?_⟩
  · cases h
  · exact h.reads request' (by rw [hphase]; exact hrequest)
  · show task.input.receiverAlive = _
    rw [h.alive, hphase]
    rfl
  · cases h

theorem reply (h : task.Inv cfg) {request : RequestRead} {response : TResult (List TFrameId)}
    (hphase : task.phase = .deregistered request) (hresponse : Server.Responds cfg task.id request response) :
    (task.reply request response).Inv cfg := by
  have halive : task.input.receiverAlive = false := by
    rw [h.alive, hphase]
    rfl
  cases response with
  | error e =>
    refine ⟨fun h => ?_, fun request' hrequest => ?_, halive, fun request frames h => ?_⟩
    · cases h
    · cases hrequest
    · cases h
  | ok frames =>
    refine ⟨fun h => ?_, fun request' hrequest => ?_, halive, fun request' frames' hanswered => ?_⟩
    · cases h
    · exact h.reads request' (by rw [hphase]; exact hrequest)
    · obtain ⟨rfl, rfl⟩ := TaskPhase.answered.inj hanswered
      exact hresponse

end Inv

theorem taken_receive {frame : TFrameId} {queue : List TFrameId} (hqueue : task.input.queue = frame :: queue) :
    (task.receive frame queue).taken = task.taken := by
  rw [taken, taken, receive, hqueue, List.append_assoc]
  rfl

namespace Inv

theorem not_answered_of_registered (hreg : task.phase.isRegistered = true) : task.phase.isAnswered = false := by
  cases hphase : task.phase <;> rw [hphase] at hreg <;> first | rfl | cases hreg

end Inv

end Task

namespace Server

/-- The invariant of a connection that is not over. -/
structure Live (cfg : ServerConfig) (s : Server) : Prop where
  registered : ∀ id k, s.frameDispatchers.get id = some k →
    ∃ task, s.tasks[k]? = some task ∧ task.id = id ∧ task.phase.isRegistered = true
  routed : ∀ (k : ℕ) task, s.tasks[k]? = some task → task.phase.isRegistered = true →
    s.frameDispatchers.get task.id = some k
  sending : ∀ frame k, s.dispatching = .sending frame k → s.frameDispatchers.get frame.id = some k
  first : ∀ frame, s.dispatching = .first frame → s.frameDispatchers.get frame.id = none
  /-- The stream is at a frame only while it is polled. -/
  polled : s.dispatching ≠ .idle → s.running < cfg.serverTasks
  failed : ∀ (k : ℕ) task, s.tasks[k]? = some task → task.phase.failure = none

structure Inv (cfg : ServerConfig) (s : Server) : Prop where
  tasks : ∀ (k : ℕ) task, s.tasks[k]? = some task → task.Inv cfg
  /-- A later frame is dispatched only if there is room for another task. -/
  several : ∀ (k : ℕ) task, s.tasks[k]? = some task → 2 ≤ task.taken.length → 2 ≤ cfg.serverTasks
  live : s.stopped = none → s.Live cfg

variable {cfg : ServerConfig} {s s' : Server} {k : ℕ} {task task' : Task}

theorem inv_new : new.Inv cfg := by
  refine ⟨fun k task h => ?_, fun k task h => ?_, fun _ => ⟨?_, ?_, ?_, ?_, ?_, ?_⟩⟩
  · cases h
  · cases h
  · intro id k h
    cases h
  · intro k task h
    cases h
  · intro frame k h
    cases h
  · intro frame h
    cases h
  · intro h
    exact absurd rfl h
  · intro k task h
    cases h

theorem Inv.arrive (h : s.Inv cfg) (frame : TFrameId) : (s.arrive frame).Inv cfg :=
  ⟨h.tasks, h.several, fun hlive => ⟨(h.live hlive).registered, (h.live hlive).routed, (h.live hlive).sending,
    (h.live hlive).first, (h.live hlive).polled, (h.live hlive).failed⟩⟩

theorem running_set_le (htask : s.tasks[k]? = some task)
    (hrun : task'.phase.isRunning = true → task.phase.isRunning = true) :
    (s.tasks.set k task').countP (·.phase.isRunning) ≤ s.running := by
  obtain ⟨hlt, hget⟩ := List.getElem?_eq_some_iff.1 htask
  rw [List.countP_set hlt, hget]
  have hpos : task.phase.isRunning = true → 0 < s.tasks.countP (·.phase.isRunning) := fun h =>
    List.countP_pos_iff.2 ⟨task, List.mem_of_getElem? htask, h⟩
  show _ ≤ s.tasks.countP (·.phase.isRunning)
  cases hrunning : task'.phase.isRunning with
  | false => simp
  | true =>
    have htrue := hrun hrunning
    have := hpos htrue
    simp only [htrue, if_true]
    omega

namespace Live

theorem next (h : s.Live cfg) (htasks : s.running < cfg.serverTasks) (frame : TFrameId)
    (socket : List TFrameId) : Live cfg { s with socket, dispatching := s.lookup frame } := by
  refine ⟨h.registered, h.routed, ?_, ?_, fun _ => htasks, h.failed⟩
  · intro frame' k hsending
    simp only [lookup] at hsending
    split at hsending
    · rename_i hget
      obtain ⟨rfl, rfl⟩ := Dispatching.sending.inj hsending
      exact hget
    · cases hsending
  · intro frame' hfirst
    simp only [lookup] at hfirst
    split at hfirst
    · cases hfirst
    · rename_i hget
      rw [← Dispatching.first.inj hfirst]
      exact hget

theorem setTask (h : s.Live cfg) (task' : Task) (htask : s.tasks[k]? = some task) (hid : task'.id = task.id)
    (hreg : task'.phase.isRegistered = task.phase.isRegistered)
    (hrun : task'.phase.isRunning = true → task.phase.isRunning = true)
    (hfail : task'.phase.failure = none) : Live cfg { s with tasks := s.tasks.set k task' } := by
  have hlt := (List.getElem?_eq_some_iff.1 htask).1
  refine ⟨?_, ?_, h.sending, h.first, ?_, ?_⟩
  · intro id j hget
    obtain ⟨t, ht, htid, htreg⟩ := h.registered id j hget
    rcases eq_or_ne j k with rfl | hne
    · obtain rfl := Option.some.inj (ht.symm.trans htask)
      exact ⟨task', List.getElem?_set_self hlt, hid.trans htid, hreg.trans htreg⟩
    · exact ⟨t, (List.getElem?_set_ne hne.symm).trans ht, htid, htreg⟩
  · intro j t ht htreg
    rcases getElem?_set_cases ht with ⟨rfl, rfl⟩ | ⟨-, ht⟩
    · rw [hid]
      exact h.routed j task htask (hreg.symm.trans htreg)
    · exact h.routed j t ht htreg
  · intro hbusy
    exact Nat.lt_of_le_of_lt (running_set_le htask hrun) (h.polled hbusy)
  · intro j t ht
    rcases getElem?_set_cases ht with ⟨rfl, rfl⟩ | ⟨-, ht⟩
    · exact hfail
    · exact h.failed j t ht

theorem stopped (h : s.Live cfg) (stopped : Option Stop) : Live cfg { s with stopped } :=
  ⟨h.registered, h.routed, h.sending, h.first, h.polled, h.failed⟩

theorem idle (h : s.Live cfg) : Live cfg { s with dispatching := .idle } := by
  refine ⟨h.registered, h.routed, ?_, ?_, fun hbusy => absurd rfl hbusy, h.failed⟩
  · intro frame k hsending
    cases hsending
  · intro frame hfirst
    cases hfirst

theorem start (h : s.Live cfg) {frame : TFrameId} (hnew : s.frameDispatchers.get frame.id = none) :
    Live cfg { s with
      dispatching := .idle
      frameDispatchers := s.frameDispatchers.insert frame.id s.tasks.length
      tasks := s.tasks ++ [Task.new frame] } := by
  refine ⟨?_, ?_, ?_, ?_, fun hbusy => absurd rfl hbusy, ?_⟩
  · intro id k hget
    rcases FramesDispatcher.get_of_insert hget with ⟨heq, rfl⟩ | ⟨-, hget⟩
    · exact ⟨Task.new frame, List.getElem?_concat_length, heq.symm, rfl⟩
    · obtain ⟨t, ht, hrest⟩ := h.registered id k hget
      exact ⟨t, (List.getElem?_append_left (List.getElem?_eq_some_iff.1 ht).1).trans ht, hrest⟩
  · intro k t ht hreg
    rw [FramesDispatcher.get_insert]
    rcases getElem?_concat_cases ht with ht | ⟨rfl, rfl⟩
    · have hget := h.routed k t ht hreg
      rw [if_neg, hget]
      intro heq
      rw [heq, hnew] at hget
      cases hget
    · exact if_pos rfl
  · intro frame k hsending
    cases hsending
  · intro frame hfirst
    cases hfirst
  · intro k t ht
    rcases getElem?_concat_cases ht with ht | ⟨rfl, rfl⟩
    · exact h.failed k t ht
    · rfl

theorem deregister (h : s.Live cfg) {request : RequestRead} (hlock : s.dispatching.holdsReadLock = false)
    (htask : s.tasks[k]? = some task) (hphase : task.phase = .read request) :
    Live cfg { s with
      frameDispatchers := s.frameDispatchers.deregister task.id
      tasks := s.tasks.set k { task with phase := .deregistered request } } := by
  have hmine : s.frameDispatchers.get task.id = some k := h.routed k task htask (by rw [hphase]; rfl)
  refine ⟨?_, ?_, ?_, ?_, ?_, ?_⟩
  · intro id j hget
    obtain ⟨hne, hget⟩ := FramesDispatcher.get_of_deregister hget
    obtain ⟨t, ht, htid, htreg⟩ := h.registered id j hget
    refine ⟨t, (List.getElem?_set_ne ?_).trans ht, htid, htreg⟩
    rintro rfl
    exact hne (htid.symm.trans (congrArg Task.id (Option.some.inj (ht.symm.trans htask))))
  · intro j t ht htreg
    rcases getElem?_set_cases ht with ⟨rfl, rfl⟩ | ⟨hne, ht⟩
    · cases htreg
    · have hget := h.routed j t ht htreg
      rw [FramesDispatcher.get_deregister, if_neg, hget]
      intro heq
      rw [heq, hmine] at hget
      exact hne (Option.some.inj hget).symm
  · intro frame j hsending
    have hsending : s.dispatching = .sending frame j := hsending
    rw [hsending] at hlock
    cases hlock
  · intro frame hfirst
    rw [FramesDispatcher.get_deregister]
    split
    · rfl
    · exact h.first frame hfirst
  · intro hbusy
    exact Nat.lt_of_le_of_lt (running_set_le htask fun _ => by rw [hphase]; rfl) (h.polled hbusy)
  · intro j t ht
    rcases getElem?_set_cases ht with ⟨rfl, rfl⟩ | ⟨-, ht⟩
    · rfl
    · exact h.failed j t ht

end Live

theorem tasks_set_inv (h : s.Inv cfg) (htask : task'.Inv cfg) :
    ∀ (j : ℕ) t, (s.tasks.set k task')[j]? = some t → t.Inv cfg := by
  intro j t ht
  rcases getElem?_set_cases ht with ⟨rfl, rfl⟩ | ⟨-, ht⟩
  · exact htask
  · exact h.tasks j t ht

theorem several_set (h : s.Inv cfg) (htask : 2 ≤ task'.taken.length → 2 ≤ cfg.serverTasks) :
    ∀ (j : ℕ) t, (s.tasks.set k task')[j]? = some t → 2 ≤ t.taken.length → 2 ≤ cfg.serverTasks := by
  intro j t ht
  rcases getElem?_set_cases ht with ⟨rfl, rfl⟩ | ⟨-, ht⟩
  · exact htask
  · exact h.several j t ht

theorem Live.two_le (h : s.Live cfg) {frame : TFrameId} (htasks : s.running < cfg.serverTasks)
    (hsending : s.dispatching = .sending frame k) : 2 ≤ cfg.serverTasks := by
  obtain ⟨task, htask, -, hreg⟩ := h.registered _ _ (h.sending frame k hsending)
  have hrun : task.phase.isRunning = true := by
    cases hphase : task.phase <;> rw [hphase] at hreg <;> first | rfl | cases hreg
  have hpos : 0 < s.running := List.countP_pos_iff.2 ⟨task, List.mem_of_getElem? htask, hrun⟩
  omega

theorem Inv.step (h : s.Inv cfg) (hstep : s.Step cfg s') : s'.Inv cfg := by
  obtain ⟨hlive, hmove⟩ := hstep
  have hl := h.live hlive
  cases hmove with
  | next htasks hidle hsocket => exact ⟨h.tasks, h.several, fun _ => hl.next htasks _ _⟩
  | @send frame k task htasks hsending htask hready =>
    refine ⟨tasks_set_inv h ((h.tasks k task htask).push frame),
      several_set h fun _ => hl.two_le htasks hsending, fun _ => ?_⟩
    exact (hl.setTask { task with input := task.input.push frame } htask rfl rfl id (hl.failed k task htask)).idle
  | sendFails => exact ⟨h.tasks, h.several, fun hstop => by cases hstop⟩
  | @first frame htasks hfirst hnew =>
    refine ⟨?_, ?_, fun _ => hl.start hnew⟩
    · intro k t ht
      rcases getElem?_concat_cases ht with ht | ⟨-, rfl⟩
      · exact h.tasks k t ht
      · exact Task.Inv.new frame
    · intro k t ht htwo
      rcases getElem?_concat_cases ht with ht | ⟨-, rfl⟩
      · exact h.several k t ht htwo
      · exact absurd htwo (Nat.not_succ_le_self 1)
  | firstFails => exact ⟨h.tasks, h.several, fun hstop => by cases hstop⟩
  | @receive k task frame queue htask hphase hqueue =>
    refine ⟨tasks_set_inv h (Task.Inv.receive frame queue),
      several_set h fun htwo => h.several k task htask ?_, fun hstop => ?_⟩
    · rw [Task.taken_receive hqueue] at htwo
      exact htwo
    have hreg : (task.receive frame queue).phase.isRegistered = task.phase.isRegistered := by
      simp only [update, Task.receive] at hstop ⊢
      rcases readPhase_cases (task.received ++ [frame]) with hread | ⟨request, hread⟩ | ⟨e, hread⟩
      · rw [hread, hphase]
      · rw [hread, hphase]
        rfl
      · rw [hread] at hstop
        cases hstop
    exact (hl.setTask (task.receive frame queue) htask rfl hreg (fun _ => by rw [hphase]; rfl) hstop).stopped _
  | @deregister k task request hlock htask hphase =>
    exact ⟨tasks_set_inv h ((h.tasks k task htask).deregister hphase), several_set h (h.several k task htask),
      fun _ => hl.deregister hlock htask hphase⟩
  | @reply k task request response htask hphase hresponse =>
    refine ⟨tasks_set_inv h ((h.tasks k task htask).reply hphase hresponse),
      several_set h (h.several k task htask), fun hstop => ?_⟩
    have hreg : (task.reply request response).phase.isRegistered = task.phase.isRegistered := by
      rw [hphase]
      cases response <;> rfl
    exact (hl.setTask (task.reply request response) htask rfl hreg (fun _ => by rw [hphase]; rfl) hstop).stopped _

end Server

end Tchannel
