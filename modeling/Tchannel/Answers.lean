import Tchannel.ServerInvariant

/-!
# The answers of a server connection

A task has its answer from the step in which it is answered on, and keeps it (`Server.Step.task_kept`). All
frames of an answer bear the id of the request.
-/

namespace Tchannel
open Wire

/-- The frames that answer the request, once there are any. -/
def TaskPhase.answer : TaskPhase → List TFrameId
  | .answered _ frames => frames
  | _ => []

theorem TaskPhase.answer_eq_nil {phase : TaskPhase} (h : phase.isAnswered = false) : phase.answer = [] := by
  cases phase <;> first | rfl | cases h

theorem FrameHandler.errorFrames_ids {code : ErrorCode} {msg : String} {id : UInt32} {frames : List TFrameId}
    (h : errorFrames code msg id = .ok frames) : ∀ frame ∈ frames, frame.id = id := by
  obtain ⟨frame, hframe, h⟩ := except_bind_eq_ok.1 h
  obtain ⟨payload, -, heq⟩ := except_bind_eq_ok.1 (liftCodec_eq_ok.1 hframe)
  rw [← Except.ok.inj h, ← Except.ok.inj heq]
  exact List.forall_mem_singleton.2 rfl

theorem FrameHandler.respond_ids {self : FrameHandler} {order : (headers : HashMap String String) → Iter headers}
    {id : UInt32} {fields : CallRequestFields} {args : MessageArgs} {frames : List TFrameId}
    (h : self.respond order id fields args = .ok frames) : ∀ frame ∈ frames, frame.id = id := by
  obtain ⟨subchannel, -, h⟩ := except_bind_eq_ok.1 h
  obtain ⟨⟨code, margs⟩, -, h⟩ := except_bind_eq_ok.1 h
  cases hframes : (ResponseFragmenter.new fields.service code margs).createFrames (order _) with
  | ok response =>
    simp only [hframes] at h
    rw [← Except.ok.inj h]
    simp
  | error e =>
    simp only [hframes] at h
    cases e with
    | error msg => exact errorFrames_ids h
    | codecError e => exact errorFrames_ids h
    | connectionError e => exact errorFrames_ids h
    | connectionPoolError e => cases h

theorem Task.Inv.answer_ids {cfg : ServerConfig} {task : Task} (h : task.Inv cfg) :
    ∀ frame ∈ task.phase.answer, frame.id = task.id := by
  cases hphase : task.phase with
  | answered request frames =>
    obtain ⟨handler, order, -, hrespond⟩ := h.responds request frames hphase
    exact FrameHandler.respond_ids hrespond
  | reading => exact nofun
  | read request => exact nofun
  | deregistered request => exact nofun
  | failed e => exact nofun

namespace Server

variable {cfg : ServerConfig} {s s' : Server} {k : ℕ} {task task' : Task}

/-- A step of the task: it keeps its id, and its answer if it has one. -/
structure Goes (task task' : Task) : Prop where
  id : task'.id = task.id
  answered : task.phase.isAnswered = true → task'.phase = task.phase

theorem Goes.refl (task : Task) : Goes task task := ⟨rfl, fun _ => rfl⟩

theorem Goes.of_phase {phase : TaskPhase} (hphase : task.phase = phase) (hid : task'.id = task.id)
    (hnot : phase.isAnswered = false) : Goes task task' := by
  refine ⟨hid, fun hanswered => ?_⟩
  rw [hphase, hnot] at hanswered
  cases hanswered

theorem Step.tasks (h : s.Step cfg s') : (∀ (k : ℕ) task, s.tasks[k]? = some task →
      ∃ task', s'.tasks[k]? = some task' ∧ Goes task task') ∧
    ∀ (k : ℕ) task', s'.tasks[k]? = some task' → s.tasks[k]? = none → task'.phase = .reading := by
  have hsame : ∀ {l : List Task}, l = s.tasks → (∀ (k : ℕ) task, s.tasks[k]? = some task →
        ∃ task', l[k]? = some task' ∧ Goes task task') ∧
      ∀ (k : ℕ) task', l[k]? = some task' → s.tasks[k]? = none → task'.phase = .reading := by
    rintro l rfl
    refine ⟨fun k task htask => ⟨task, htask, .refl task⟩, fun k task' htask' hnone => ?_⟩
    rw [hnone] at htask'
    cases htask'
  have hset : ∀ {j : ℕ} {t t' : Task}, s.tasks[j]? = some t → Goes t t' →
      (∀ (k : ℕ) task, s.tasks[k]? = some task → ∃ task', (s.tasks.set j t')[k]? = some task' ∧ Goes task task') ∧
      ∀ (k : ℕ) task', (s.tasks.set j t')[k]? = some task' → s.tasks[k]? = none → task'.phase = .reading := by
    intro j t t' ht hgoes
    refine ⟨fun k task htask => ?_, fun k task' htask' hnone => ?_⟩
    · rcases eq_or_ne j k with rfl | hne
      · obtain rfl := Option.some.inj (ht.symm.trans htask)
        exact ⟨t', List.getElem?_set_self (List.getElem?_eq_some_iff.1 ht).1, hgoes⟩
      · exact ⟨task, (List.getElem?_set_ne hne).trans htask, .refl task⟩
    · rcases getElem?_set_cases htask' with ⟨rfl, -⟩ | ⟨-, htask'⟩
      · rw [hnone] at ht
        cases ht
      · rw [hnone] at htask'
        cases htask'
  obtain ⟨-, hmove⟩ := h
  cases hmove with
  | next _ _ _ => exact hsame rfl
  | sendFails _ _ _ _ => exact hsame rfl
  | firstFails _ _ _ => exact hsame rfl
  | @send frame j t _ _ ht _ => exact hset ht ⟨rfl, fun _ => rfl⟩
  | receive ht hphase _ => exact hset ht (.of_phase hphase rfl rfl)
  | deregister _ ht hphase => exact hset ht (.of_phase hphase rfl rfl)
  | reply ht hphase _ => exact hset ht (.of_phase hphase rfl rfl)
  | @first frame _ _ _ =>
    refine ⟨fun k task htask => ⟨task, ?_, .refl task⟩, fun k task' htask' hnone => ?_⟩
    · exact (List.getElem?_append_left (List.getElem?_eq_some_iff.1 htask).1).trans htask
    · rcases getElem?_concat_cases htask' with htask' | ⟨-, rfl⟩
      · rw [hnone] at htask'
        cases htask'
      · rfl

theorem Step.task_kept (h : s.Step cfg s') (htask : s.tasks[k]? = some task) :
    ∃ task', s'.tasks[k]? = some task' ∧ Goes task task' := h.tasks.1 k task htask

theorem Step.task_cases (h : s.Step cfg s') (htask' : s'.tasks[k]? = some task') :
    (∃ task, s.tasks[k]? = some task ∧ Goes task task') ∨ (s.tasks[k]? = none ∧ task'.phase = .reading) := by
  cases htask : s.tasks[k]? with
  | none => exact .inr ⟨rfl, h.tasks.2 k task' htask' htask⟩
  | some task =>
    obtain ⟨task'', htask'', hgoes⟩ := h.task_kept htask
    obtain rfl := Option.some.inj (htask'.symm.trans htask'')
    exact .inl ⟨task, rfl, hgoes⟩

end Server

end Tchannel
