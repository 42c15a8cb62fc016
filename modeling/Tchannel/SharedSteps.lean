import Tchannel.SharedInvariant

/-!
# The steps of a server with many connections

A step is that of a connection by itself, or changes at most one task and one request of one handler
(`SharedServer.Change`). Both keep the invariant, and so do new connections and registrations.
-/

namespace Tchannel
open Wire

namespace SharedServer

variable {σ φ : Type} {cfg : SharedConfig σ φ} {s s' : SharedServer σ φ} {i j k l h r : ℕ}
  {conn conn' : SharedConnection} {task : Task} {request : RequestRead} {ref : HandlerRef σ φ}

/-- What the task `k` of the connection `i` does to the handlers. -/
inductive Handlers (s s' : SharedServer σ φ) (conn conn' : SharedConnection) (k : ℕ) : Prop
  | same (hhandlers : s'.handlers = s.handlers)
      (hhandling : conn'.handling k = conn.handling k ∨ (conn.handling k = .new ∧ conn'.handling k = .found))
  | asks {h : ℕ} {ref : HandlerRef σ φ} {x : MessageArgs} {locked} (href : s.handlers[h]? = some ref)
      (hstep : ref.locked.Step ref.service (.ask x) locked) (hhandlers : s'.handlers = s.handlers.set h { ref with locked })
      (hfound : conn.handling k = .found) (hcalled : conn'.handling k = .called h ref.locked.requests.length)
  | acts {h r : ℕ} {ref : HandlerRef σ φ} {act} {locked} (href : s.handlers[h]? = some ref)
      (hstep : ref.locked.Step ref.service act locked) (hhandlers : s'.handlers = s.handlers.set h { ref with locked })
      (hact : act.caller = some r) (hcalled : conn.handling k = .called h r) (hkept : conn'.handling k = conn.handling k)

/-- How many steps a task takes before it asks for a lock. -/
def toDo : Handling → ℕ
  | .new => 2
  | .found => 1
  | .called _ _ => 0

/-- How the task gets on: by its response; or to the next stage; or it does what its handler lets it do. -/
inductive Goes (cfg : SharedConfig σ φ) (s s' : SharedServer σ φ) (k : ℕ) (conn conn' : SharedConnection) : Prop
  | replies (hmove : RpcConnection.Move (alone cfg) conn.rpc conn'.rpc)
  | goesOn (hrpc : conn'.rpc = conn.rpc) (htask : k < conn.rpc.server.tasks.length)
      (hless : toDo (conn'.handling k) < toDo (conn.handling k))
  | acts {h r : ℕ} {request : RequestRead} {ref : HandlerRef σ φ} {act} {locked} (hconn : conn' = conn)
      (hregistered : s.Registered request h) (href : s.handlers[h]? = some ref) (hact : act.caller = some r)
      (hstep : ref.locked.Step ref.service act locked) (hhandlers : s'.handlers = s.handlers.set h { ref with locked })

structure Change (cfg : SharedConfig σ φ) (s s' : SharedServer σ φ) (i k : ℕ) (conn conn' : SharedConnection) :
    Prop where
  before : s.connections[i]? = some conn
  connections : s'.connections = s.connections.set i conn'
  subchannels : s'.subchannels = s.subchannels
  handlers : Handlers s s' conn conn' k
  handling : ∀ l, l ≠ k → conn'.handling l = conn.handling l
  tasks : ∀ l, l ≠ k → conn'.rpc.server.tasks[l]? = conn.rpc.server.tasks[l]?
  stopped : conn.rpc.server.stopped ≠ none → conn'.rpc.server.stopped ≠ none
  goes : Goes cfg s s' k conn conn'
  progress : Progress cfg s' conn' k

theorem length_of_step {locked : Locked σ MessageArgs MessageArgsResponse (MessageArgs ⊕ φ)} {act}
    (hstep : ref.locked.Step ref.service act locked) {r : ℕ} (hact : act.caller = some r) :
    locked.requests.length = ref.locked.requests.length := by
  cases act with
  | ask x => cases hact
  | serve c =>
    obtain ⟨_, _, _, -, -, heq, -⟩ := hstep.serve_cases
    rw [heq, List.length_set]
  | respond c o =>
    obtain ⟨_, _, -, -, heq⟩ := hstep.respond_cases
    rw [heq, List.length_set]
  | giveUp c =>
    obtain ⟨_, _, -, -, heq⟩ := hstep.giveUp_cases
    rw [heq, List.length_set]

theorem still_of_step {act} {locked} (href : s.handlers[h]? = some ref) (hstep : ref.locked.Step ref.service act locked)
    (hhandlers : s'.handlers = s.handlers.set h { ref with locked }) {h' : ℕ}
    (hne : h' = h → act.caller ≠ some r) : Still s s' h' r := by
  intro ref' x serving href' hr
  rcases eq_or_ne h h' with rfl | hneq
  · obtain rfl := Option.some.inj (href.symm.trans href')
    refine ⟨{ ref with locked }, serving, ?_, hstep.others hr (hne rfl), .inl rfl⟩
    rw [hhandlers, List.getElem?_set_self (List.getElem?_eq_some_iff.1 href).1]
  · refine ⟨ref', serving, ?_, hr, .inl rfl⟩
    rw [hhandlers, List.getElem?_set_ne hneq, href']

theorem Progress.lt (hprogress : Progress cfg s conn k) (hcalled : conn.handling k = .called h r) :
    ∃ ref, s.handlers[h]? = some ref ∧ r < ref.locked.requests.length := by
  cases hprogress with
  | new hnew _ => rw [hnew] at hcalled; cases hcalled
  | found hfound _ _ _ _ => rw [hfound] at hcalled; cases hcalled
  | called hcalled' _ _ href hrequest _ =>
    obtain ⟨rfl, rfl⟩ := Handling.called.inj (hcalled'.symm.trans hcalled)
    exact ⟨_, href, (List.getElem?_eq_some_iff.1 hrequest).1⟩

theorem Inv.lt_of_called (hinv : s.Inv cfg) {other : SharedConnection} (hother : s.connections[j]? = some other)
    (hcalled : other.handling l = .called h r) (href : s.handlers[h]? = some ref) : r < ref.locked.requests.length := by
  obtain ⟨ref', href', hlt⟩ := (hinv.progress j l other hother).lt hcalled
  rwa [Option.some.inj (href.symm.trans href')]

namespace Handlers

variable (hhandlers : Handlers s s' conn conn' k)

include hhandlers

theorem after {ref' : HandlerRef σ φ} (href' : s'.handlers[h]? = some ref') : ∃ ref, s.handlers[h]? = some ref ∧
    ref'.toBoxedHandler = ref.toBoxedHandler ∧ ref'.initial = ref.initial ∧
      (ref'.locked = ref.locked ∨ ∃ act, ref.locked.Step ref.service act ref'.locked) := by
  have hset : ∀ {h₀ : ℕ} {ref : HandlerRef σ φ} {act} {locked}, s.handlers[h₀]? = some ref →
      ref.locked.Step ref.service act locked → s'.handlers = s.handlers.set h₀ { ref with locked } →
      ∃ ref, s.handlers[h]? = some ref ∧ ref'.toBoxedHandler = ref.toBoxedHandler ∧ ref'.initial = ref.initial ∧
        (ref'.locked = ref.locked ∨ ∃ act, ref.locked.Step ref.service act ref'.locked) := by
    intro h₀ ref act locked href hstep heq
    rw [heq] at href'
    rcases getElem?_set_cases href' with ⟨rfl, rfl⟩ | ⟨-, href'⟩
    · exact ⟨ref, href, rfl, rfl, .inr ⟨act, hstep⟩⟩
    · exact ⟨ref', href', rfl, rfl, .inl rfl⟩
  cases hhandlers with
  | same heq _ => exact ⟨ref', heq ▸ href', rfl, rfl, .inl rfl⟩
  | asks href hstep heq _ _ => exact hset href hstep heq
  | acts href hstep heq _ _ _ => exact hset href hstep heq

theorem before (href : s.handlers[h]? = some ref) : ∃ ref', s'.handlers[h]? = some ref' ∧
    ref'.toBoxedHandler = ref.toBoxedHandler ∧ ref'.initial = ref.initial := by
  have hlt := (List.getElem?_eq_some_iff.1 href).1
  have hlen : s'.handlers.length = s.handlers.length := by
    cases hhandlers with
    | same heq _ => rw [heq]
    | asks _ _ heq _ _ => rw [heq, List.length_set]
    | acts _ _ heq _ _ _ => rw [heq, List.length_set]
  have hget := List.getElem?_eq_getElem (hlen.symm ▸ hlt)
  obtain ⟨ref', href', hbox, hinitial, -⟩ := hhandlers.after hget
  obtain rfl := Option.some.inj (href.symm.trans href')
  exact ⟨_, hget, hbox, hinitial⟩

end Handlers

namespace Change

theorem called_kept (hchange : Change cfg s s' i k conn conn') {j l h r : ℕ} {other : SharedConnection} (hother : s.connections[j]? = some other)
    (hcalled : other.handling l = .called h r) :
    ∃ other', s'.connections[j]? = some other' ∧ other'.handling l = .called h r := by
  have hlt := (List.getElem?_eq_some_iff.1 hchange.before).1
  rcases eq_or_ne i j with rfl | hne
  · obtain rfl := Option.some.inj (hother.symm.trans hchange.before)
    refine ⟨conn', by rw [hchange.connections, List.getElem?_set_self hlt], ?_⟩
    rcases eq_or_ne l k with rfl | hne
    · cases hchange.handlers with
      | same _ hhandling =>
        rcases hhandling with heq | ⟨hnew, -⟩
        · rw [heq, hcalled]
        · rw [hnew] at hcalled
          cases hcalled
      | asks _ _ _ hfound _ =>
        rw [hfound] at hcalled
        cases hcalled
      | acts _ _ _ _ _ hkept => rw [hkept, hcalled]
    · rw [hchange.handling l hne, hcalled]
  · exact ⟨other, by rw [hchange.connections, List.getElem?_set_ne hne, hother], hcalled⟩

theorem keeps (hchange : Change cfg s s' i k conn conn') : Keeps s s' := by
  refine ⟨fun service hfound => hchange.subchannels ▸ hfound, fun request h hregistered => ?_⟩
  obtain ⟨endpoints, endpoint, hsub, hend, hlookup⟩ := hregistered
  exact ⟨endpoints, endpoint, hchange.subchannels ▸ hsub, hend, hlookup⟩

variable (hinv : s.Inv cfg) (hchange : Change cfg s s' i k conn conn')

include hinv hchange

theorem still {j l h r : ℕ} {other : SharedConnection} (hother : s.connections[j]? = some other)
    (hcalled : other.handling l = .called h r) (hne : ¬ (j = i ∧ l = k)) : Still s s' h r := by
  cases hchange.handlers with
  | same heq _ =>
    intro ref x serving href hr
    exact ⟨ref, serving, heq ▸ href, hr, .inl rfl⟩
  | asks href hstep heq _ _ => exact still_of_step href hstep heq fun _ hcaller => by cases hcaller
  | @acts h₀ r₀ ref act locked href hstep heq hact hcalled' _ =>
    refine still_of_step href hstep heq fun hh hcaller => ?_
    obtain rfl := Option.some.inj (hact.symm.trans hcaller)
    exact hne (hinv.once j i l k h₀ r₀ other conn hother hchange.before (hh ▸ hcalled) hcalled')

theorem once_self {j l h r : ℕ} {other : SharedConnection} (hother : s.connections[j]? = some other)
    (hne : ¬ (j = i ∧ l = k)) (hcalled : conn'.handling k = .called h r) : other.handling l ≠ .called h r := by
  intro hcalled'
  have hold : conn.handling k = .called h r → False := fun hcalled =>
    hne (hinv.once j i l k h r other conn hother hchange.before hcalled' hcalled)
  cases hchange.handlers with
  | same _ hhandling =>
    rcases hhandling with heq | ⟨-, hfound⟩
    · exact hold (heq ▸ hcalled)
    · rw [hfound] at hcalled
      cases hcalled
  | asks href _ _ _ hasked =>
    obtain ⟨rfl, rfl⟩ := Handling.called.inj (hasked.symm.trans hcalled)
    exact Nat.lt_irrefl _ (hinv.lt_of_called hother hcalled' href)
  | acts _ _ _ _ _ hkept => exact hold (hkept ▸ hcalled)

theorem once : ∀ (j₁ j₂ l₁ l₂ h r : ℕ) c₁ c₂, s'.connections[j₁]? = some c₁ → s'.connections[j₂]? = some c₂ →
    c₁.handling l₁ = .called h r → c₂.handling l₂ = .called h r → j₁ = j₂ ∧ l₁ = l₂ := by
  have hcases : ∀ (j l : ℕ) other h r, s'.connections[j]? = some other → other.handling l = .called h r →
      (j = i ∧ l = k ∧ conn'.handling k = .called h r) ∨
        (¬ (j = i ∧ l = k) ∧ ∃ old, s.connections[j]? = some old ∧ old.handling l = .called h r) := by
    intro j l other h r hother hcalled
    rw [hchange.connections] at hother
    rcases getElem?_set_cases hother with ⟨rfl, rfl⟩ | ⟨hne, hother⟩
    · rcases eq_or_ne l k with rfl | hne
      · exact .inl ⟨rfl, rfl, hcalled⟩
      · exact .inr ⟨fun h => hne h.2, conn, hchange.before, hchange.handling l hne ▸ hcalled⟩
    · exact .inr ⟨fun h => hne h.1, other, hother, hcalled⟩
  intro j₁ j₂ l₁ l₂ h r c₁ c₂ hc₁ hc₂ hcalled₁ hcalled₂
  rcases hcases j₁ l₁ c₁ h r hc₁ hcalled₁ with ⟨rfl, rfl, hself₁⟩ | ⟨hne₁, old₁, hold₁, holdcalled₁⟩ <;>
    rcases hcases j₂ l₂ c₂ h r hc₂ hcalled₂ with ⟨rfl, rfl, hself₂⟩ | ⟨hne₂, old₂, hold₂, holdcalled₂⟩
  · exact ⟨rfl, rfl⟩
  · exact absurd holdcalled₂ (hchange.once_self hinv hold₂ hne₂ hself₁)
  · exact absurd holdcalled₁ (hchange.once_self hinv hold₁ hne₁ hself₂)
  · exact hinv.once j₁ j₂ l₁ l₂ h r old₁ old₂ hold₁ hold₂ holdcalled₁ holdcalled₂

theorem asked {r : ℕ} {ref' : HandlerRef σ φ} (href' : s'.handlers[h]? = some ref')
    (hr : r < ref'.locked.requests.length) :
    ∃ (j l : ℕ) (other : SharedConnection), s'.connections[j]? = some other ∧ other.handling l = .called h r := by
  have hold : ∀ ref : HandlerRef σ φ, s.handlers[h]? = some ref → r < ref.locked.requests.length →
      ∃ (j l : ℕ) (other : SharedConnection), s'.connections[j]? = some other ∧ other.handling l = .called h r := by
    intro ref href hr
    obtain ⟨j, l, other, hother, hcalled⟩ := hinv.asked h r ref href hr
    obtain ⟨other', hother', hcalled'⟩ := hchange.called_kept hother hcalled
    exact ⟨j, l, other', hother', hcalled'⟩
  cases hchange.handlers with
  | same heq _ => exact hold ref' (heq ▸ href') hr
  | asks href hstep heq _ hasked =>
    rw [heq] at href'
    rcases getElem?_set_cases href' with ⟨rfl, rfl⟩ | ⟨-, href'⟩
    · have hlen : r < _ := hr
      rw [hstep.asks_eq, List.length_append] at hlen
      rcases Nat.lt_or_eq_of_le (Nat.le_of_lt_succ hlen) with hlt | rfl
      · exact hold _ href hlt
      · exact ⟨i, k, conn', by
          rw [hchange.connections, List.getElem?_set_self (List.getElem?_eq_some_iff.1 hchange.before).1], hasked⟩
    · exact hold ref' href' hr
  | acts href hstep heq hact _ _ =>
    rw [heq] at href'
    rcases getElem?_set_cases href' with ⟨rfl, rfl⟩ | ⟨-, href'⟩
    · have hlen : r < _ := hr
      rw [length_of_step hstep hact] at hlen
      exact hold _ href hlen
    · exact hold ref' href' hr

theorem progress' {j l : ℕ} {other' : SharedConnection} (hother' : s'.connections[j]? = some other') :
    Progress cfg s' other' l := by
  have hkeeps := hchange.keeps
  rw [hchange.connections] at hother'
  rcases getElem?_set_cases hother' with ⟨rfl, rfl⟩ | ⟨hne, hother⟩
  · rcases eq_or_ne l k with rfl | hne
    · exact hchange.progress
    · exact (hinv.progress j l conn hchange.before).mono hkeeps
        (fun h r hcalled => hchange.still hinv hchange.before hcalled fun heq => hne heq.2) (hchange.handling l hne)
        (.of_eq (hchange.tasks l hne) hchange.stopped)
  · exact (hinv.progress j l other' hother).mono hkeeps
      (fun h r hcalled => hchange.still hinv hother hcalled fun heq => hne heq.1) rfl (.of_eq rfl id)

theorem inv : s'.Inv cfg := by
  refine ⟨fun h ref' href' => ?_, fun service endpoints endpoint h hsub hlookup => ?_, fun j other hother => ?_,
    fun j l other hother => hchange.progress' hinv hother, hchange.once hinv,
    fun h r ref' => hchange.asked hinv⟩
  · obtain ⟨ref, href, hbox, hinitial, hlocked⟩ := hchange.handlers.after href'
    have hlockedInv := hinv.handlers h ref href
    have hservice : ref'.service = ref.service := congrArg BoxedHandler.service hbox
    rw [hservice, hinitial]
    rcases hlocked with heq | ⟨act, hstep⟩
    · rw [heq]
      exact hlockedInv
    · exact hlockedInv.step hstep
  · obtain ⟨ref, href, hregisters⟩ := hinv.registered service endpoints endpoint h (hchange.subchannels ▸ hsub) hlookup
    obtain ⟨ref', href', hbox, hinitial⟩ := hchange.handlers.before href
    exact ⟨ref', href', by rw [hbox, hinitial]; exact hregisters⟩
  · rw [hchange.connections] at hother
    rcases getElem?_set_cases hother with ⟨rfl, rfl⟩ | ⟨-, hother⟩
    · have halone := hinv.alone j conn hchange.before
      cases hchange.goes with
      | replies hmove => exact halone.step (.moves hmove)
      | goesOn hrpc _ _ => exact hrpc ▸ halone
      | acts hconn _ _ _ _ _ => exact hconn ▸ halone
    · exact hinv.alone j other hother

end Change

theorem Change.goesOn (hconn : s.connections[i]? = some conn) (htask : conn.Handles k task request)
    (handling : Handling) (hless : toDo handling < toDo (conn.handling k))
    (hconnections : s'.connections = s.connections.set i (conn.goOn k handling))
    (hsub : s'.subchannels = s.subchannels) (hhandlers : Handlers s s' conn (conn.goOn k handling) k)
    (hprogress : Progress cfg s' (conn.goOn k handling) k) : Change cfg s s' i k conn (conn.goOn k handling) := by
  refine ⟨hconn, hconnections, hsub, hhandlers, fun _ hne => Function.update_of_ne hne _ _, fun _ _ => rfl, id,
    .goesOn rfl (List.getElem?_eq_some_iff.1 htask.isTask).1 ?_, hprogress⟩
  show toDo (Function.update conn.handling k handling k) < _
  rwa [Function.update_self]

theorem Change.replies (hs : (system cfg).Reachable s) {frozen : ℕ → MessageArgsHandler}
    (hfrozen : ∀ (h : ℕ) (ref : HandlerRef σ φ), s.handlers[h]? = some ref → ref.Freezes (frozen h))
    (hconn : s.connections[i]? = some conn) (htask : conn.Handles k task request)
    {order : (headers : HashMap String String) → Iter headers} {response : TResult (List TFrameId)}
    (hresponse : (s.snapshot cfg frozen).respond order task.id request.1 request.2 = response)
    (hconnections : s'.connections = s.connections.set i (conn.reply k task request response))
    (hsub : s'.subchannels = s.subchannels) (hhandlers : Handlers s s' conn (conn.reply k task request response) k)
    (hprogress : Progress cfg s' (conn.reply k task request response) k) :
    Change cfg s s' i k conn (conn.reply k task request response) := by
  refine ⟨hconn, hconnections, hsub, hhandlers, fun _ _ => rfl, fun l hne => ?_, fun hgone => ?_,
    .replies (reply_move hs hfrozen htask hresponse), hprogress⟩
  · exact List.getElem?_set_ne hne.symm
  · exact absurd htask.live hgone

theorem Change.fails (hs : (system cfg).Reachable s) {frozen : ℕ → MessageArgsHandler}
    (hfrozen : ∀ (h : ℕ) (ref : HandlerRef σ φ), s.handlers[h]? = some ref → ref.Freezes (frozen h))
    (hconn : s.connections[i]? = some conn) (htask : conn.Handles k task request)
    {order : (headers : HashMap String String) → Iter headers} {e : TChannelError}
    (hresponse : (s.snapshot cfg frozen).respond order task.id request.1 request.2 = .error e)
    (hstage : conn.handling k = .new ∨ (conn.handling k = .found ∧ s.subchannels.lookup request.1.service ≠ none)) :
    Change cfg s (s.setConnection i (conn.reply k task request (.error e))) i k conn
      (conn.reply k task request (.error e)) := by
  have hget : (conn.reply k task request (.error e)).rpc.server.tasks[k]? = some (task.reply request (.error e)) :=
    List.getElem?_set_self (List.getElem?_eq_some_iff.1 htask.isTask).1
  refine .replies hs hfrozen hconn htask hresponse rfl rfl (.same rfl (.inl rfl)) ?_
  rcases hstage with hnew | ⟨hfound, hsub⟩
  · refine .new hnew fun task' htask' => ?_
    rw [← Option.some.inj (hget.symm.trans htask')]
    rfl
  · refine .found hfound hget rfl rfl fun request' hphase => ?_
    cases hphase

theorem Change.acts {act} {locked} (hconn : s.connections[i]? = some conn) (hcalled : conn.handling k = .called h r)
    (hregistered : s.Registered request h) (href : s.handlers[h]? = some ref) (hstep : ref.locked.Step ref.service act locked) (hact : act.caller = some r)
    (hprogress : Progress cfg (s.setHandler h { ref with locked }) conn k) :
    Change cfg s (s.setHandler h { ref with locked }) i k conn conn := by
  exact ⟨hconn, (set_of_getElem? hconn).symm, rfl, .acts href hstep rfl hact hcalled rfl, fun _ _ => rfl,
    fun _ _ => rfl, id, .acts rfl hregistered href hact hstep rfl, hprogress⟩

/-- A task that waits for its response has an open request. -/
theorem Progress.waits (hprogress : Progress cfg s conn k) (htask : conn.Handles k task request)
    (hcalled : conn.handling k = .called h r) (href : s.handlers[h]? = some ref) : s.Registered request h ∧
      ∃ serving, ref.locked.requests[r]? = some (request.2, serving) ∧ serving.isOpen = true := by
  cases hprogress with
  | new hnew _ => rw [hnew] at hcalled; cases hcalled
  | found hfound _ _ _ _ => rw [hfound] at hcalled; cases hcalled
  | @called h r task' request' ref' serving hcalled' htask' hregistered href' hrequest houtcome =>
    obtain ⟨rfl, rfl⟩ := Handling.called.inj (hcalled'.symm.trans hcalled)
    obtain rfl := Option.some.inj (href'.symm.trans href)
    obtain rfl := Option.some.inj (htask'.symm.trans htask.isTask)
    cases houtcome with
    | waits hphase hopen =>
      obtain rfl := TaskPhase.deregistered.inj (hphase.symm.trans htask.phase)
      exact ⟨hregistered, serving, hrequest, hopen⟩
    | gone hgone _ _ => exact absurd htask.live hgone
    | @done response order hphase =>
      rw [htask.phase] at hphase
      cases hfinish : (frameHandler cfg).finish order task'.id request'.1 response <;>
        rw [hfinish] at hphase <;> cases hphase

theorem getElem?_setHandler (href : s.handlers[h]? = some ref) (ref' : HandlerRef σ φ) :
    (s.setHandler h ref').handlers[h]? = some ref' := List.getElem?_set_self (List.getElem?_eq_some_iff.1 href).1

/-! ### Registrations -/

namespace Keeps

theorem opens {service : String} (hnew : s.subchannels.lookup service = none) :
    Keeps s { s with subchannels := s.subchannels.insert service ∅ } := by
  have hne : ∀ {service'}, s.subchannels.lookup service' ≠ none → service' ≠ service := by
    rintro _ hsome rfl
    exact hsome hnew
  refine ⟨fun service' hfound => (Finmap.lookup_insert_of_ne _ (hne hfound)).trans_ne hfound, fun request h hregistered => ?_⟩
  obtain ⟨endpoints, endpoint, hsub, hend, hlookup⟩ := hregistered
  refine ⟨endpoints, endpoint, ?_, hend, hlookup⟩
  exact (Finmap.lookup_insert_of_ne _ (hne (hsub ▸ Option.some_ne_none _))).trans hsub

theorem registers {service endpoint : String} {endpoints : HashMap String ℕ} (handlers : List (HandlerRef σ φ))
    (hsub : s.subchannels.lookup service = some endpoints) (hnew : endpoints.lookup endpoint = none) :
    Keeps s { s with
      subchannels := s.subchannels.insert service (endpoints.insert endpoint s.handlers.length), handlers } := by
  refine ⟨fun service' hfound => ?_, fun request h hregistered => ?_⟩
  · show (s.subchannels.insert _ _).lookup service' ≠ none
    rcases eq_or_ne service' service with rfl | hservice
    · rw [Finmap.lookup_insert]
      exact Option.some_ne_none _
    · rwa [Finmap.lookup_insert_of_ne _ hservice]
  · obtain ⟨endpoints', endpoint', hsub', hend, hlookup⟩ := hregistered
    rcases eq_or_ne request.1.service service with heq | hservice
    · rw [heq] at hsub'
      obtain rfl := Option.some.inj (hsub'.symm.trans hsub)
      refine ⟨endpoints'.insert endpoint s.handlers.length, endpoint', ?_, hend, ?_⟩
      · rw [heq]
        exact Finmap.lookup_insert _
      · rw [Finmap.lookup_insert_of_ne, hlookup]
        rintro rfl
        rw [hnew] at hlookup
        cases hlookup
    · exact ⟨endpoints', endpoint', (Finmap.lookup_insert_of_ne _ hservice).trans hsub', hend, hlookup⟩

end Keeps

namespace Inv

theorem serves (hinv : s.Inv cfg) {locked} (hconn : s.connections[i]? = some conn)
    (htask : conn.Handles k task request) (hcalled : conn.handling k = .called h r) (href : s.handlers[h]? = some ref)
    (hstep : ref.locked.Step ref.service (.serve r) locked) :
    Change cfg s (s.setHandler h { ref with locked }) i k conn conn := by
  obtain ⟨hregistered, serving, hrequest, hopen⟩ := (hinv.progress i k conn hconn).waits htask hcalled href
  refine .acts hconn hcalled hregistered href hstep rfl ?_
  obtain ⟨x, _, serving', hrequest', -, heq, hopen'⟩ := hstep.serve_cases
  obtain ⟨rfl, -⟩ := Prod.mk.inj (Option.some.inj (hrequest.symm.trans hrequest'))
  have hrequests : locked.requests[r]? = some (request.2, serving') := by
    rw [heq, List.getElem?_set_self (List.getElem?_eq_some_iff.1 hrequest).1]
  exact .called hcalled htask.isTask hregistered (getElem?_setHandler href { ref with locked }) hrequests
    (.waits htask.phase hopen')

theorem drops (hinv : s.Inv cfg) {locked} (hconn : s.connections[i]? = some conn)
    (hgone : conn.rpc.server.stopped ≠ none) (hcalled : conn.handling k = .called h r) (href : s.handlers[h]? = some ref)
    (hstep : ref.locked.Step ref.service (.giveUp r) locked) :
    Change cfg s (s.setHandler h { ref with locked }) i k conn conn := by
  obtain ⟨x, serving, hrequest, hopen, heq⟩ := hstep.giveUp_cases
  cases hinv.progress i k conn hconn with
  | new hnew _ => rw [hnew] at hcalled; cases hcalled
  | found hfound _ _ _ _ => rw [hfound] at hcalled; cases hcalled
  | @called h r task' request' ref' serving' hcalled' htask' hregistered href' hrequest' houtcome =>
    obtain ⟨rfl, rfl⟩ := Handling.called.inj (hcalled'.symm.trans hcalled)
    obtain rfl := Option.some.inj (href'.symm.trans href)
    obtain ⟨rfl, rfl⟩ := Prod.mk.inj (Option.some.inj (hrequest'.symm.trans hrequest))
    have hrequests : locked.requests[r]? = some (request'.2, serving'.giveUp) := by
      rw [heq, List.getElem?_set_self (List.getElem?_eq_some_iff.1 hrequest).1]
    refine .acts hconn hcalled hregistered href hstep rfl
      (.called hcalled htask' hregistered (getElem?_setHandler href { ref' with locked }) hrequests ?_)
    cases houtcome with
    | waits hphase _ =>
      refine .gone hgone ?_ hphase
      cases serving' with
      | waiting => exact .inl rfl
      | running f => exact .inr rfl
      | returned o => cases hopen
      | abandoned => cases hopen
      | interrupted => cases hopen
    | gone _ hdropped _ => rcases hdropped with rfl | rfl <;> cases hopen
    | done _ _ => cases hopen

theorem responds (hinv : s.Inv cfg) (hs : (system cfg).Reachable s) {locked} {response : MessageArgsResponse}
    (order : (headers : HashMap String String) → Iter headers) (hconn : s.connections[i]? = some conn)
    (htask : conn.Handles k task request) (hcalled : conn.handling k = .called h r) (href : s.handlers[h]? = some ref)
    (hstep : ref.locked.Step ref.service (.respond r response) locked) :
    Change cfg s ((s.setHandler h { ref with locked }).setConnection i
        (conn.reply k task request ((frameHandler cfg).finish order task.id request.1 response))) i k conn
      (conn.reply k task request ((frameHandler cfg).finish order task.id request.1 response)) := by
  obtain ⟨hregistered, serving, hrequest, hopen⟩ := (hinv.progress i k conn hconn).waits htask hcalled href
  obtain ⟨x, _, hrequest', -, heq⟩ := hstep.respond_cases
  obtain ⟨rfl, -⟩ := Prod.mk.inj (Option.some.inj (hrequest.symm.trans hrequest'))
  have hlt := (List.getElem?_eq_some_iff.1 hrequest).1
  have hrequests : locked.requests[r]? = some (request.2, .returned response) := by
    rw [heq, List.getElem?_set_self hlt]
  -- the handler as this request found it
  obtain ⟨t, t', -, hreturns, -⟩ := ((hinv.handlers h ref href).step hstep).serial.at_index hrequests
  obtain ⟨handler, hhandle, hfreezes⟩ := BoxedHandler.exists_freezes hreturns
  obtain ⟨frozen, hfrozen⟩ := s.exists_frozen
  have hfrozen' : ∀ (h' : ℕ) (ref' : HandlerRef σ φ), s.handlers[h']? = some ref' →
      ref'.Freezes (Function.update frozen h handler h') := by
    intro h' ref' href'
    rcases eq_or_ne h' h with rfl | hne
    · rw [Function.update_self, Option.some.inj (href'.symm.trans href)]
      exact hfreezes
    · rw [Function.update_of_ne hne]
      exact hfrozen h' ref' href'
  have hresponse : (s.snapshot cfg (Function.update frozen h handler)).respond order task.id request.1 request.2 =
      (frameHandler cfg).finish order task.id request.1 response := by
    rw [respond_registered cfg _ order task.id hregistered, Function.update_self, hhandle]
  exact .replies hs hfrozen' hconn htask hresponse rfl rfl (.acts href hstep rfl rfl hcalled rfl)
    (.called hcalled (List.getElem?_set_self (List.getElem?_eq_some_iff.1 htask.isTask).1) hregistered
      (getElem?_setHandler href { ref with locked }) hrequests (.done order rfl))

theorem found_subchannel (hinv : s.Inv cfg) (hconn : s.connections[i]? = some conn)
    (htask : conn.Handles k task request) (hfound : conn.handling k = .found) :
    s.subchannels.lookup request.1.service ≠ none := by
  cases hinv.progress i k conn hconn with
  | new hnew _ => rw [hfound] at hnew; cases hnew
  | called hcalled _ _ _ _ _ => rw [hfound] at hcalled; cases hcalled
  | found _ htask' _ _ hsub =>
    obtain rfl := Option.some.inj (htask'.symm.trans htask.isTask)
    exact hsub request htask.phase

theorem move (hinv : s.Inv cfg) (hs : (system cfg).Reachable s) (hmove : Move cfg s s') :
    (∃ (i : ℕ) (conn : SharedConnection) (rpc : RpcConnection), s.connections[i]? = some conn ∧
        RpcConnection.Move cfg.rpc.silent conn.rpc rpc ∧ s' = s.setConnection i { conn with rpc }) ∨
      ∃ i k conn conn', Change cfg s s' i k conn conn' := by
  obtain ⟨frozen, hfrozen⟩ := s.exists_frozen
  obtain ⟨order⟩ : Nonempty ((headers : HashMap String String) → Iter headers) :=
    ⟨fun headers => ⟨_, Multiset.coe_toList _⟩⟩
  cases hmove with
  | @acts i conn rpc hconn hmove => exact .inl ⟨i, conn, rpc, hconn, hmove, rfl⟩
  | findsSubchannel hconn htask hnew hsub =>
    refine .inr ⟨_, _, _, _, .goesOn hconn htask .found (hnew ▸ Nat.one_lt_two) rfl rfl
      (.same rfl (.inr ⟨hnew, Function.update_self _ _ _⟩)) ?_⟩
    refine .found (Function.update_self _ _ _) htask.isTask ?_ ?_ fun request' hphase => ?_
    · rw [htask.phase]
      rfl
    · rw [htask.phase]
      rfl
    · obtain rfl := TaskPhase.deregistered.inj (hphase.symm.trans htask.phase)
      rw [show (s.setConnection _ _).subchannels = s.subchannels from rfl, hsub]
      exact Option.some_ne_none _
  | failsSubchannel hconn htask hnew hsub =>
    exact .inr ⟨_, _, _, _, .fails hs hfrozen hconn htask
      (respond_failsSubchannel cfg frozen order _ hsub) (.inl hnew)⟩
  | @failsEndpoint i k conn task request e hconn htask hfound hend =>
    have hsub := hinv.found_subchannel hconn htask hfound
    obtain ⟨endpoints, hendpoints⟩ := Option.ne_none_iff_exists'.1 hsub
    exact .inr ⟨_, _, _, _, .fails hs hfrozen hconn htask
      (respond_failsEndpoint cfg frozen order _ hendpoints hend) (.inr ⟨hfound, hsub⟩)⟩
  | failsHandler hconn htask hfound hsub hend hhandler =>
    exact .inr ⟨_, _, _, _, .fails hs hfrozen hconn htask
      (respond_failsHandler cfg frozen order _ hsub hend hhandler) (.inr ⟨hfound, hsub ▸ Option.some_ne_none _⟩)⟩
  | @asks i k h conn task request ref locked hconn htask hfound hregistered href hstep =>
    refine .inr ⟨_, _, _, _, .goesOn hconn htask _ (hfound ▸ Nat.one_pos) rfl rfl
      (.asks href hstep rfl hfound (Function.update_self _ _ _)) ?_⟩
    have hrequests : locked.requests[ref.locked.requests.length]? = some (request.2, .waiting) := by
      rw [hstep.asks_eq, List.getElem?_concat_length]
    exact .called (Function.update_self _ _ _) htask.isTask hregistered (getElem?_setHandler href { ref with locked })
      hrequests (.waits htask.phase rfl)
  | serves hconn htask hcalled href hstep => exact .inr ⟨_, _, _, _, hinv.serves hconn htask hcalled href hstep⟩
  | responds order hconn htask hcalled href hstep =>
    exact .inr ⟨_, _, _, _, hinv.responds hs order hconn htask hcalled href hstep⟩
  | drops hconn hgone hcalled href hstep => exact .inr ⟨_, _, _, _, hinv.drops hconn hgone hcalled href hstep⟩

theorem uses (hinv : s.Inv cfg) {rpc : RpcConnection} (hconn : s.connections[i]? = some conn)
    (hstep : RpcConnection.Step cfg.rpc.silent conn.rpc rpc) : Inv cfg (s.setConnection i { conn with rpc }) := by
  have hlt := (List.getElem?_eq_some_iff.1 hconn).1
  have hcases : ∀ (j : ℕ) other, (s.setConnection i { conn with rpc }).connections[j]? = some other →
      ∃ old, s.connections[j]? = some old ∧ other.handling = old.handling ∧
        ((RpcConnection.system (SharedServer.alone cfg)).Reachable other.rpc) ∧
          ∀ k, TaskRests old.rpc.server other.rpc.server k := by
    intro j other hother
    rcases getElem?_set_cases hother with ⟨rfl, rfl⟩ | ⟨-, hother⟩
    · exact ⟨conn, hconn, rfl, (hinv.alone j conn hconn).step hstep.silent, fun _ => .of_step hstep⟩
    · exact ⟨other, hother, rfl, hinv.alone j other hother, fun _ => .of_eq rfl id⟩
  refine ⟨hinv.handlers, hinv.registered, fun j other hother => ?_, fun j l other hother => ?_,
    fun j₁ j₂ l₁ l₂ h r c₁ c₂ hc₁ hc₂ hcalled₁ hcalled₂ => ?_, fun h r ref href hr => ?_⟩
  · obtain ⟨-, -, -, halone, -⟩ := hcases j other hother
    exact halone
  · obtain ⟨old, hold, hhandling, -, hrests⟩ := hcases j other hother
    exact (hinv.progress j l old hold).mono ⟨fun _ => id, fun _ _ => id⟩ (fun h r _ => Still.refl s h r)
      (congrFun hhandling l) (hrests l)
  · obtain ⟨old₁, hold₁, heq₁, -⟩ := hcases j₁ c₁ hc₁
    obtain ⟨old₂, hold₂, heq₂, -⟩ := hcases j₂ c₂ hc₂
    exact hinv.once j₁ j₂ l₁ l₂ h r old₁ old₂ hold₁ hold₂ (heq₁ ▸ hcalled₁) (heq₂ ▸ hcalled₂)
  · obtain ⟨j, l, other, hother, hcalled⟩ := hinv.asked h r ref href hr
    rcases eq_or_ne i j with rfl | hne
    · obtain rfl := Option.some.inj (hother.symm.trans hconn)
      exact ⟨i, l, _, List.getElem?_set_self hlt, hcalled⟩
    · exact ⟨j, l, other, (List.getElem?_set_ne hne).trans hother, hcalled⟩

/-- The connections are as before, and the handlers keep what they are asked. -/
theorem congr (hinv : s.Inv cfg) (hconnections : s'.connections = s.connections) (hkeeps : Keeps s s')
    (hstill : ∀ h r, Still s s' h r)
    (hhandlers : ∀ (h : ℕ) (ref : HandlerRef σ φ), s'.handlers[h]? = some ref → ref.locked.Inv ref.service ref.initial)
    (hregistered : ∀ service endpoints endpoint h, s'.subchannels.lookup service = some endpoints →
      endpoints.lookup endpoint = some h →
      ∃ ref, s'.handlers[h]? = some ref ∧ cfg.registers service endpoint ref.toBoxedHandler ref.initial)
    (hasked : ∀ (h r : ℕ) (ref : HandlerRef σ φ), s'.handlers[h]? = some ref → r < ref.locked.requests.length →
      ∃ ref', s.handlers[h]? = some ref' ∧ r < ref'.locked.requests.length) : s'.Inv cfg := by
  refine ⟨hhandlers, hregistered, ?_, ?_, ?_, fun h r ref href hr => ?_⟩
  · rw [hconnections]
    exact hinv.alone
  · rw [hconnections]
    exact fun i k conn hconn => (hinv.progress i k conn hconn).mono hkeeps (fun h r _ => hstill h r) rfl (.of_eq rfl id)
  · rw [hconnections]
    exact hinv.once
  · obtain ⟨ref', href', hr'⟩ := hasked h r ref href hr
    rw [hconnections]
    exact hinv.asked h r ref' href' hr'

theorem connects (hinv : s.Inv cfg) {rpc : RpcConnection} (hinit : (RpcConnection.system cfg.rpc).init rpc) :
    Inv cfg { s with connections := s.connections ++ [⟨rpc, fun _ => .new⟩] } := by
  have hcases : ∀ (i : ℕ) conn, (s.connections ++ [⟨rpc, fun _ => .new⟩])[i]? = some conn →
      s.connections[i]? = some conn ∨ conn = ⟨rpc, fun _ => .new⟩ := by
    intro i conn hconn
    rcases getElem?_concat_cases hconn with hconn | ⟨-, rfl⟩
    · exact .inl hconn
    · exact .inr rfl
  obtain ⟨it, order, init, answer, hinit, hanswer, rfl⟩ := hinit
  refine ⟨hinv.handlers, hinv.registered, fun i conn hconn => ?_, fun i k conn hconn => ?_,
    fun i j k l h r conn conn' hconn hconn' hcalled hcalled' => ?_, fun h r ref href hr => ?_⟩
  · rcases hcases i conn hconn with hconn | rfl
    · exact hinv.alone i conn hconn
    · exact .start ⟨it, order, init, answer, hinit, hanswer, rfl⟩
  · rcases hcases i conn hconn with hconn | rfl
    · exact (hinv.progress i k conn hconn).mono ⟨fun _ => id, fun _ _ => id⟩ (fun h r _ => Still.refl s h r) rfl
        (.of_eq rfl id)
    · exact .new rfl fun task htask => by cases htask
  · rcases hcases i conn hconn with hconn | rfl <;> rcases hcases j conn' hconn' with hconn' | rfl
    · exact hinv.once i j k l h r conn conn' hconn hconn' hcalled hcalled'
    · cases hcalled'
    · cases hcalled
    · cases hcalled
  · obtain ⟨i, k, conn, hconn, hcalled⟩ := hinv.asked h r ref href hr
    exact ⟨i, k, conn, (List.getElem?_append_left (List.getElem?_eq_some_iff.1 hconn).1).trans hconn, hcalled⟩

theorem opens (hinv : s.Inv cfg) {service : String} (hnew : s.subchannels.lookup service = none) :
    Inv cfg { s with subchannels := s.subchannels.insert service ∅ } := by
  refine hinv.congr rfl (.opens hnew) (fun h r => Still.refl s h r) hinv.handlers
    (fun service' endpoints endpoint h hsub hlookup => ?_) fun h r ref href hr => ⟨ref, href, hr⟩
  rcases eq_or_ne service' service with rfl | hservice
  · rw [Finmap.lookup_insert] at hsub
    rw [← Option.some.inj hsub, Finmap.lookup_empty] at hlookup
    cases hlookup
  · rw [Finmap.lookup_insert_of_ne _ hservice] at hsub
    exact hinv.registered service' endpoints endpoint h hsub hlookup

theorem registers (hinv : s.Inv cfg) {service endpoint : String} {endpoints : HashMap String ℕ}
    {handler : BoxedHandler σ φ} {initial : σ} (hsub : s.subchannels.lookup service = some endpoints)
    (hnew : endpoints.lookup endpoint = none) (hmay : cfg.registers service endpoint handler initial) :
    Inv cfg { s with
      subchannels := s.subchannels.insert service (endpoints.insert endpoint s.handlers.length)
      handlers := s.handlers ++ [{ handler with initial, locked := Locked.new initial }] } := by
  have hold : ∀ {h : ℕ} {ref : HandlerRef σ φ}, s.handlers[h]? = some ref →
      (s.handlers ++ [{ handler with initial, locked := Locked.new initial }])[h]? = some ref := fun href =>
    (List.getElem?_append_left (List.getElem?_eq_some_iff.1 href).1).trans href
  refine hinv.congr rfl (.registers _ hsub hnew)
    (fun h r ref x serving href hr => ⟨ref, serving, hold href, hr, .inl rfl⟩) (fun h ref href => ?_)
    (fun service' endpoints' endpoint' h hsub' hlookup => ?_) fun h r ref href hr => ?_
  · rcases getElem?_concat_cases href with href | ⟨-, rfl⟩
    · exact hinv.handlers h ref href
    · exact Locked.Inv.new initial
  · rcases eq_or_ne service' service with rfl | hservice
    · rw [Finmap.lookup_insert] at hsub'
      obtain rfl := Option.some.inj hsub'
      rcases eq_or_ne endpoint' endpoint with rfl | hendpoint
      · rw [Finmap.lookup_insert] at hlookup
        obtain rfl := Option.some.inj hlookup
        exact ⟨_, List.getElem?_concat_length, hmay⟩
      · rw [Finmap.lookup_insert_of_ne _ hendpoint] at hlookup
        obtain ⟨ref, href, hregisters⟩ := hinv.registered service' endpoints endpoint' h hsub hlookup
        exact ⟨ref, hold href, hregisters⟩
    · rw [Finmap.lookup_insert_of_ne _ hservice] at hsub'
      obtain ⟨ref, href, hregisters⟩ := hinv.registered service' endpoints' endpoint' h hsub' hlookup
      exact ⟨ref, hold href, hregisters⟩
  · rcases getElem?_concat_cases href with href | ⟨-, rfl⟩
    · exact ⟨ref, href, hr⟩
    · exact absurd hr (Nat.not_lt_zero r)

theorem step (hinv : s.Inv cfg) (hs : (system cfg).Reachable s) (hstep : Step cfg s s') : s'.Inv cfg := by
  cases hstep with
  | connects hinit => exact hinv.connects hinit
  | opens hnew => exact hinv.opens hnew
  | registers hsub hnew hmay => exact hinv.registers hsub hnew hmay
  | uses hconn hstep => exact hinv.uses hconn hstep
  | moves hmove =>
    rcases hinv.move hs hmove with ⟨i, conn, rpc, hconn, hacts, rfl⟩ | ⟨i, k, conn, conn', hchange⟩
    · exact hinv.uses hconn (.moves hacts)
    · exact hchange.inv hinv

theorem of_reachable (hs : (system cfg).Reachable s) : s.Inv cfg := by
  refine hs.invariant ?_ fun s s' hs hinv hstep => hinv.step hs hstep
  rintro _ rfl
  have hnone : ∀ (i : ℕ) conn, cfg.start.connections[i]? ≠ some conn := by
    intro i conn hconn
    rw [cfg.connections_start] at hconn
    cases hconn
  have hnew : ∀ (h : ℕ) ref, cfg.start.handlers[h]? = some ref → ref.locked = Locked.new ref.initial :=
    fun h ref href => cfg.handlers_start ref (List.mem_of_getElem? href)
  refine ⟨fun h ref href => ?_, cfg.registered_start, fun i conn hconn => absurd hconn (hnone i conn),
    fun i k conn hconn => absurd hconn (hnone i conn), fun i j k l h r conn conn' hconn => absurd hconn (hnone i conn),
    fun h r ref href hr => ?_⟩
  · rw [hnew h ref href]
    exact Locked.Inv.new ref.initial
  · rw [hnew h ref href] at hr
    exact absurd hr (Nat.not_lt_zero r)

end Inv

end SharedServer

end Tchannel
