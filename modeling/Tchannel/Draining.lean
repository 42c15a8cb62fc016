import Tchannel.Demultiplexing

/-!
# Handling one frame to its end

A connection is calm if nothing is left to do but to take the next frame from the socket: every task has
been answered or waits for a frame. From there a frame can be taken, dispatched and received without any
other task doing something (`Server.deliver`); and if that completes a request that gets a response, the
connection becomes calm again (`Server.answer`).
-/

namespace Tchannel
open Wire

/-! ### Reading goes on where it was -/

theorem Defragmenter.continueFrames_append (xs ys : List TFrameId) (d : ArgsDefragmenter) :
    (∃ rest, continueFrames false xs d = .error .pending rest) ∨
      (∃ e rest rest', continueFrames false xs d = .error e rest ∧
        continueFrames false (xs ++ ys) d = .error e rest') ∨
      ∃ d' rest rest', continueFrames false xs d = .ok d' rest ∧
        continueFrames false (xs ++ ys) d = .ok d' rest' := by
  induction xs generalizing d with
  | nil => exact .inl ⟨_, rfl⟩
  | cons x xs ih =>
    simp only [List.cons_append, continueFrames]
    cases hnext : continueFrame d x.frame with
    | error e => exact .inr (.inl ⟨e, _, _, rfl, rfl⟩)
    | ok r =>
      obtain ⟨d', last⟩ := r
      cases last with
      | true => exact .inr (.inr ⟨d', _, _, rfl, rfl⟩)
      | false => exact ih d'

/-- Once `read_request` has returned, further frames do not change what it returned. -/
theorem readPhase_append (xs ys : List TFrameId) (h : readPhase xs ≠ .reading) :
    readPhase (xs ++ ys) = readPhase xs := by
  cases xs with
  | nil => exact absurd readPhase_nil h
  | cons x xs =>
    simp only [readPhase, RequestDefragmenter.readRequest, Defragmenter.read, Defragmenter.readAndCheck_run,
      List.cons_append] at h ⊢
    cases hfirst : Defragmenter.beginFrame .callRequest CallRequest.decode x.frame with
    | error e => cases e <;> rfl
    | ok r =>
      obtain ⟨fields, flags, d⟩ := r
      simp only [hfirst] at h ⊢
      cases hcheck : getArgsScheme fields with
      | error e => rfl
      | ok argsScheme =>
        simp only [hcheck] at h ⊢
        cases hmore : flags.contains Flags.moreFragmentsFollow with
        | false => rfl
        | true =>
          simp only [hmore, if_true] at h ⊢
          rcases Defragmenter.continueFrames_append xs ys d with ⟨rest, hp⟩ | ⟨e, rest, rest', he, he'⟩ |
            ⟨d', rest, rest', hok, hok'⟩
          · rw [hp] at h
            exact absurd rfl h
          · rw [he, he']
            cases e <;> rfl
          · rw [hok, hok']

namespace Request

variable {r : Request}

/-- A whole request that can be read. -/
def Complete (r : Request) : Prop := ∃ request, readPhase r.frames = .read request

theorem Complete.reading (h : r.Complete) {frames : List TFrameId} (hpre : frames <+: r.frames)
    (hne : frames ≠ r.frames) : readPhase frames = .reading := by
  obtain ⟨request, hread⟩ := h
  obtain ⟨ys, hys⟩ := hpre
  by_contra hphase
  rw [← hys, readPhase_append frames ys hphase] at hread
  have hlt : frames.length < r.frames.length := by
    refine Nat.lt_of_le_of_ne (List.IsPrefix.length_le ⟨ys, hys⟩) fun heq => ?_
    exact hne (List.IsPrefix.eq_of_length ⟨ys, hys⟩ heq)
  refine r.whole frames.length hlt request ?_
  rw [← hys, List.take_left]
  exact hread

end Request

namespace Server

variable {cfg : ServerConfig} {s : Server} {frame : TFrameId} {rest : List TFrameId} {k : ℕ} {task : Task}

def Steps (cfg : ServerConfig) : Server → Server → Prop := Relation.ReflTransGen (Step cfg)

structure Calm (s : Server) : Prop where
  live : s.stopped = none
  idle : s.dispatching = .idle
  tasks : ∀ (k : ℕ) task, s.tasks[k]? = some task →
    (task.phase = .reading ∧ task.input.queue = []) ∨ task.phase.isAnswered = true

theorem calm_new : new.Calm := ⟨rfl, rfl, fun k task h => by cases h⟩

theorem Calm.arrive (h : s.Calm) (frame : TFrameId) : (s.arrive frame).Calm := ⟨h.live, h.idle, h.tasks⟩

/-- `s'` is `s` once the task `k` has received `frame`, and `rest` is left in the socket. -/
structure Delivered (s : Server) (frame : TFrameId) (rest : List TFrameId) (s' : Server) (k : ℕ)
    (task : Task) : Prop where
  idle : s'.dispatching = .idle
  socket : s'.socket = rest
  isTask : s'.tasks[k]? = some task
  id : task.id = frame.id
  phase : task.phase = readPhase task.received
  queue : task.input.queue = []
  stopped : s'.stopped = task.phase.failure
  others : ∀ (j : ℕ) t, j ≠ k → s'.tasks[j]? = some t → s.tasks[j]? = some t

theorem Delivered.of_tasks {s₁ s' : Server} (h : Delivered s₁ frame rest s' k task)
    (hold : ∀ (j : ℕ) t, j ≠ k → s₁.tasks[j]? = some t → s.tasks[j]? = some t) :
    Delivered s frame rest s' k task :=
  ⟨h.idle, h.socket, h.isTask, h.id, h.phase, h.queue, h.stopped, fun j t hne ht =>
    hold j t hne (h.others j t hne ht)⟩

theorem receive_one (cfg : ServerConfig) (s : Server) (hlive : s.stopped = none) (hidle : s.dispatching = .idle)
    (htask : s.tasks[k]? = some task) (hphase : task.phase = .reading) (hqueue : task.input.queue = [frame])
    (hid : task.id = frame.id) :
    ∃ s' task', s.Step cfg s' ∧ Delivered s frame s.socket s' k task' := by
  refine ⟨_, task.receive frame [], ⟨hlive, .receive htask hphase hqueue⟩, ?_⟩
  refine ⟨hidle, rfl, List.getElem?_set_self (List.getElem?_eq_some_iff.1 htask).1, hid, rfl, rfl, rfl, ?_⟩
  intro j t hne ht
  exact (List.getElem?_set_ne hne.symm).symm.trans ht

theorem deliver (hinv : s.Inv cfg) (hcalm : s.Calm) (hsocket : s.socket = frame :: rest)
    (htasks : s.running < cfg.serverTasks) :
    ∃ s' k task, Steps cfg s s' ∧ Delivered s frame rest s' k task := by
  have hl := hinv.live hcalm.live
  have hnext : s.Step cfg { s with socket := rest, dispatching := s.lookup frame } :=
    ⟨hcalm.live, .next htasks hcalm.idle hsocket⟩
  cases hget : s.frameDispatchers.get frame.id with
  | none =>
    have hlookup : s.lookup frame = .first frame := by rw [lookup, hget]
    rw [hlookup] at hnext
    have hfirst : Step cfg { s with socket := rest, dispatching := .first frame }
        { s with
          socket := rest, dispatching := .idle
          frameDispatchers := s.frameDispatchers.insert frame.id s.tasks.length
          tasks := s.tasks ++ [Task.new frame] } := ⟨hcalm.live, .first htasks rfl hget⟩
    obtain ⟨s', task', hreceive, hdel⟩ := receive_one cfg { s with
        socket := rest, dispatching := .idle
        frameDispatchers := s.frameDispatchers.insert frame.id s.tasks.length
        tasks := s.tasks ++ [Task.new frame] } hcalm.live rfl List.getElem?_concat_length rfl rfl rfl
    refine ⟨s', _, task', ((Relation.ReflTransGen.single hnext).tail hfirst).tail hreceive,
      hdel.of_tasks fun j t hne ht => ?_⟩
    rcases getElem?_concat_cases ht with ht | ⟨heq, -⟩
    · exact ht
    · exact absurd heq hne
  | some k =>
    have hlookup : s.lookup frame = .sending frame k := by rw [lookup, hget]
    rw [hlookup] at hnext
    obtain ⟨task, htask, hid, hreg⟩ := hl.registered _ _ hget
    obtain ⟨hphase, hqueue⟩ : task.phase = .reading ∧ task.input.queue = [] := by
      rcases hcalm.tasks k task htask with h | h
      · exact h
      · rw [Task.Inv.not_answered_of_registered hreg] at h
        cases h
    have hready : task.input.Ready cfg.bufferSize := by
      refine ⟨?_, ?_⟩
      · rw [(hinv.tasks k task htask).alive, hphase]
        rfl
      · rw [hqueue]
        exact cfg.bufferSize_pos
    have hsend : Step cfg { s with socket := rest, dispatching := .sending frame k }
        { s with
          socket := rest, dispatching := .idle
          tasks := s.tasks.set k { task with input := task.input.push frame } } :=
      ⟨hcalm.live, .send htasks rfl htask hready⟩
    have hlone : (task.input.push frame).queue = [frame] := by
      rw [Channel.push, hqueue]
      rfl
    obtain ⟨s', task', hreceive, hdel⟩ := receive_one cfg { s with
        socket := rest, dispatching := .idle
        tasks := s.tasks.set k { task with input := task.input.push frame } } hcalm.live rfl
      (List.getElem?_set_self (List.getElem?_eq_some_iff.1 htask).1) hphase hlone hid
    exact ⟨s', k, task', ((Relation.ReflTransGen.single hnext).tail hsend).tail hreceive,
      hdel.of_tasks fun j t hne ht => (List.getElem?_set_ne hne.symm).symm.trans ht⟩

theorem Delivered.calm_of_reading {s' : Server} (h : Delivered s frame rest s' k task) (hcalm : s.Calm)
    (hreading : task.phase = .reading) : s'.Calm := by
  refine ⟨?_, h.idle, fun j t ht => ?_⟩
  · rw [h.stopped, hreading]
    rfl
  · rcases eq_or_ne j k with rfl | hne
    · obtain rfl := Option.some.inj (ht.symm.trans h.isTask)
      exact .inl ⟨hreading, h.queue⟩
    · exact hcalm.tasks j t (h.others j t hne ht)

theorem Delivered.answer {s' : Server} (h : Delivered s frame rest s' k task) (hcalm : s.Calm)
    {request : RequestRead} (hread : task.phase = .read request) {frames : List TFrameId}
    (hresponds : Responds cfg task.id request (.ok frames)) :
    ∃ s'', Steps cfg s' s'' ∧ s''.Calm ∧ s''.socket = rest := by
  have hlive : s'.stopped = none := by
    rw [h.stopped, hread]
    rfl
  have hlater : (s'.tasks.set k { task with phase := .deregistered request })[k]? =
      some { task with phase := .deregistered request } :=
    List.getElem?_set_self (List.getElem?_eq_some_iff.1 h.isTask).1
  have hlock : s'.dispatching.holdsReadLock = false := by
    rw [h.idle]
    rfl
  have hderegister : Step cfg s' { s' with
      frameDispatchers := s'.frameDispatchers.deregister task.id
      tasks := s'.tasks.set k { task with phase := .deregistered request } } :=
    ⟨hlive, .deregister hlock h.isTask hread⟩
  have hreply : Step cfg { s' with
        frameDispatchers := s'.frameDispatchers.deregister task.id
        tasks := s'.tasks.set k { task with phase := .deregistered request } }
      (update { s' with
        frameDispatchers := s'.frameDispatchers.deregister task.id
        tasks := s'.tasks.set k { task with phase := .deregistered request } } k
        (Task.reply { task with phase := .deregistered request } request (.ok frames))) :=
    ⟨hlive, .reply hlater rfl hresponds⟩
  refine ⟨_, (Relation.ReflTransGen.single hderegister).tail hreply, ⟨rfl, h.idle, fun j t ht => ?_⟩, h.socket⟩
  rcases getElem?_set_cases ht with ⟨-, rfl⟩ | ⟨hne, ht⟩
  · exact .inr rfl
  · exact hcalm.tasks j t (h.others j t hne ((List.getElem?_set_ne hne.symm).symm.trans ht))

end Server

end Tchannel
