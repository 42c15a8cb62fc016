import Tchannel.SharedServer

/-!
# Connections without responses

What a connection does of itself while its tasks wait for their responses: a task whose request is read rests, and no
task is answered. Each such step is one of the connection with any handlers.
-/

namespace Tchannel
open Wire

namespace Server

variable {cfg : ServerConfig} {s s' : Server} {k : ℕ} {task task' : Task}

theorem Move.mono {handlers handlers' : FrameHandler → Prop} (hsub : ∀ handler, handlers handler → handlers' handler)
    (h : Move { cfg with handlers } s s') : Move { cfg with handlers := handlers' } s s' := by
  cases h with
  | next htasks hidle hsocket => exact .next htasks hidle hsocket
  | send htasks hsending htask hready => exact .send htasks hsending htask hready
  | sendFails htasks hsending htask hgone => exact .sendFails htasks hsending htask hgone
  | first htasks hfirst hnew => exact .first htasks hfirst hnew
  | firstFails htasks hfirst hold => exact .firstFails htasks hfirst hold
  | receive htask hphase hqueue => exact .receive htask hphase hqueue
  | deregister hlock htask hphase => exact .deregister hlock htask hphase
  | reply htask hphase hresponse =>
    obtain ⟨handler, order, hhandler, hresponse⟩ := hresponse
    exact .reply htask hphase ⟨handler, order, hsub handler hhandler, hresponse⟩

/-- Without responses, a task whose request is read rests. -/
theorem Step.read_kept (hsilent : ∀ handler, ¬ cfg.handlers handler) (h : s.Step cfg s')
    (htask : s.tasks[k]? = some task) (hread : task.phase.isRegistered = false) :
    ∃ task', s'.tasks[k]? = some task' ∧ task'.id = task.id ∧ task'.phase = task.phase := by
  have hset : ∀ {j : ℕ} {t t' : Task}, s.tasks[j]? = some t → t'.id = t.id →
      (t.phase.isRegistered = false → t'.phase = t.phase) →
      ∃ task', (s.tasks.set j t')[k]? = some task' ∧ task'.id = task.id ∧ task'.phase = task.phase := by
    intro j t t' ht hid hphase
    rcases eq_or_ne j k with rfl | hne
    · obtain rfl := Option.some.inj (ht.symm.trans htask)
      exact ⟨t', List.getElem?_set_self (List.getElem?_eq_some_iff.1 ht).1, hid, hphase hread⟩
    · exact ⟨task, (List.getElem?_set_ne hne).trans htask, rfl, rfl⟩
  have hreads : ∀ {t t' : Task} {phase : TaskPhase}, t.phase = phase → phase.isRegistered = true →
      t.phase.isRegistered = false → t'.phase = t.phase := by
    intro t t' phase hphase hyes hno
    rw [hphase, hyes] at hno
    cases hno
  obtain ⟨-, hmove⟩ := h
  cases hmove with
  | next _ _ _ => exact ⟨task, htask, rfl, rfl⟩
  | sendFails _ _ _ _ => exact ⟨task, htask, rfl, rfl⟩
  | firstFails _ _ _ => exact ⟨task, htask, rfl, rfl⟩
  | send _ _ ht _ => exact hset ht rfl fun _ => rfl
  | receive ht hphase _ => exact hset ht rfl (hreads hphase rfl)
  | deregister _ ht hphase => exact hset ht rfl (hreads hphase rfl)
  | first _ _ _ =>
    exact ⟨task, (List.getElem?_append_left (List.getElem?_eq_some_iff.1 htask).1).trans htask, rfl, rfl⟩
  | reply _ _ hresponse =>
    obtain ⟨handler, -, hhandler, -⟩ := hresponse
    exact absurd hhandler (hsilent handler)

theorem Step.answered_before (hsilent : ∀ handler, ¬ cfg.handlers handler) (h : s.Step cfg s')
    (htask' : s'.tasks[k]? = some task') (hanswered : task'.phase.isAnswered = true) :
    ∃ task, s.tasks[k]? = some task ∧ task.phase.isAnswered = true := by
  rcases h.task_cases htask' with ⟨task, htask, -⟩ | ⟨-, hreading⟩
  · refine ⟨task, htask, ?_⟩
    have hset : ∀ {j : ℕ} {t t' : Task}, s.tasks[j]? = some t → (s.tasks.set j t')[k]? = some task' →
        (t'.phase.isAnswered = true → t.phase.isAnswered = true) → task.phase.isAnswered = true := by
      intro j t t' ht hget hphase
      rcases getElem?_set_cases hget with ⟨rfl, rfl⟩ | ⟨-, hget⟩
      · rw [Option.some.inj (htask.symm.trans ht)]
        exact hphase hanswered
      · rwa [Option.some.inj (htask.symm.trans hget)]
    have hsame : s.tasks[k]? = some task' → task.phase.isAnswered = true := fun hget => by
      rwa [Option.some.inj (htask.symm.trans hget)]
    obtain ⟨-, hmove⟩ := h
    cases hmove with
    | next _ _ _ => exact hsame htask'
    | sendFails _ _ _ _ => exact hsame htask'
    | firstFails _ _ _ => exact hsame htask'
    | send _ _ ht _ => exact hset ht htask' id
    | @receive j t frame queue ht hphase _ =>
      refine hset ht htask' fun hnot => ?_
      rcases readPhase_cases (t.received ++ [frame]) with h | ⟨_, h⟩ | ⟨_, h⟩ <;>
        rw [Task.receive, h] at hnot <;> cases hnot
    | deregister _ ht _ =>
      exact hset ht htask' fun hnot => by cases hnot
    | first _ _ _ =>
      exact hsame ((List.getElem?_append_left (List.getElem?_eq_some_iff.1 htask).1).symm.trans htask')
    | reply _ _ hresponse =>
      obtain ⟨handler, -, hhandler, -⟩ := hresponse
      exact absurd hhandler (hsilent handler)
  · rw [hreading] at hanswered
    cases hanswered

end Server

namespace RpcConnection

variable {cfg : RpcConfig} {s s' : RpcConnection} {k : ℕ} {task task' : Task}

theorem Move.silent {handlers : FrameHandler → Prop} (h : Move cfg.silent s s') : Move (cfg.withHandlers handlers) s s' := by
  cases h with
  | acts hstep hinside => exact .acts hstep hinside
  | writes hlive hqueue hroom => exact .writes hlive hqueue hroom
  | loses hgone hqueue => exact .loses hgone hqueue
  | reaches hlive hpolls hrequests => exact .reaches hlive ⟨hpolls.idle, hpolls.socket, hpolls.place⟩ hrequests
  | serves hstep hplace => exact .serves ⟨hstep.1, hstep.2.mono fun _ h => h.elim⟩ hplace
  | passes hlive htask hphase hframe hroom => exact .passes hlive htask hphase hframe hroom
  | arrives hidle hresponses => exact .arrives hidle hresponses
  | breaks hgone hn => exact .breaks hgone hn

theorem Step.silent {handlers : FrameHandler → Prop} (h : Step cfg.silent s s') : Step (cfg.withHandlers handlers) s s' := by
  cases h with
  | calls hused => exact .calls hused
  | stops => exact .stops
  | moves hmove => exact .moves hmove.silent

/-- What a step without responses does to the tasks. -/
theorem Step.server_cases (h : Step cfg s s') : s'.server = s.server ∨
    (s.server.stopped = none ∧ s'.server.tasks = s.server.tasks ∧ s'.server.stopped = none) ∨
      s.server.Step cfg.server s'.server := by
  cases h with
  | calls _ => exact .inl rfl
  | stops => exact .inl rfl
  | moves hmove =>
    cases hmove with
    | acts _ _ => exact .inl rfl
    | writes _ _ _ => exact .inl rfl
    | loses _ _ => exact .inl rfl
    | reaches hlive _ _ => exact .inr (.inl ⟨hlive, rfl, hlive⟩)
    | serves hstep _ => exact .inr (.inr hstep)
    | passes _ _ _ _ _ => exact .inl rfl
    | arrives _ _ => exact .inl rfl
    | breaks _ _ => exact .inl rfl

theorem Step.read_kept (h : Step cfg.silent s s') (htask : s.server.tasks[k]? = some task)
    (hread : task.phase.isRegistered = false) :
    ∃ task', s'.server.tasks[k]? = some task' ∧ task'.id = task.id ∧ task'.phase = task.phase := by
  rcases h.server_cases with heq | ⟨-, heq, -⟩ | hstep
  · exact ⟨task, by rw [heq]; exact htask, rfl, rfl⟩
  · exact ⟨task, by rw [heq]; exact htask, rfl, rfl⟩
  · exact hstep.read_kept (fun _ => id) htask hread

theorem Step.answered_before (h : Step cfg.silent s s') (htask' : s'.server.tasks[k]? = some task')
    (hanswered : task'.phase.isAnswered = true) :
    ∃ task, s.server.tasks[k]? = some task ∧ task.phase.isAnswered = true := by
  rcases h.server_cases with heq | ⟨-, heq, -⟩ | hstep
  · exact ⟨task', by rw [← heq]; exact htask', hanswered⟩
  · exact ⟨task', by rw [← heq]; exact htask', hanswered⟩
  · exact hstep.answered_before (fun _ => id) htask' hanswered

theorem Step.stopped_kept (h : Step cfg s s') (hgone : s.server.stopped ≠ none) : s'.server.stopped ≠ none := by
  rcases h.server_cases with heq | ⟨hlive, -, -⟩ | hstep
  · rw [heq]
    exact hgone
  · exact absurd hlive hgone
  · exact absurd hstep.1 hgone

end RpcConnection

end Tchannel
