import Mathlib.Data.List.Pairwise
import Mathlib.Order.Basic
import Tchannel.Lib.Mux
import Tchannel.Lib.Termination

/-!
# A service behind a fair lock

Something that changes while it serves requests, and that any number of callers share. A caller waits for a lock
that is handed on in the order in which it was asked for, and is then served in any number of polls, between which
the others go on. It may give up at any time, and so may leave a request that was served in part.

Whatever the schedule, the requests are served as if one after another, in the order in which the lock was asked
for (`Locked.Inv.serial`); nobody is served while somebody else is (`Locked.Inv.running_unique`).
-/

namespace Wire

/-! ### The lock -/

/-- Who has the lock, and who waits for it. -/
inductive FairLock where
  | free
  | held (holder : ℕ) (waiting : List ℕ)

namespace FairLock

def holder : FairLock → Option ℕ
  | free => none
  | held holder _ => some holder

def ask (self : FairLock) (c : ℕ) : FairLock :=
  match self with
  | free => held c []
  | held holder waiting => held holder (waiting ++ [c])

/-- The first that waits gets the lock. -/
def release : FairLock → FairLock
  | free | held _ [] => free
  | held _ (c :: waiting) => held c waiting

def giveUp (self : FairLock) (c : ℕ) : FairLock :=
  match self with
  | free => free
  | held holder waiting => if holder = c then self.release else held holder (waiting.erase c)

/-- Whoever has the lock or waits for it, in the order in which they asked. -/
def line : FairLock → List ℕ
  | free => []
  | held holder waiting => holder :: waiting

variable (self : FairLock) (c : ℕ)

theorem head?_line : self.line.head? = self.holder := by
  cases self <;> rfl

theorem line_ask : (self.ask c).line = self.line ++ [c] := by
  cases self <;> rfl

theorem line_release : self.release.line = self.line.tail := by
  cases self with
  | free => rfl
  | held holder waiting => cases waiting <;> rfl

theorem line_giveUp : (self.giveUp c).line = self.line.erase c := by
  cases self with
  | free => rfl
  | held holder waiting =>
    by_cases h : holder = c
    · have hgives : (held holder waiting).giveUp c = (held holder waiting).release := if_pos h
      rw [hgives, line_release, h]
      exact (List.erase_cons_head c waiting).symm
    · have hgives : (held holder waiting).giveUp c = held holder (waiting.erase c) := if_neg h
      rw [hgives]
      exact (List.erase_cons_tail (by simpa using h)).symm

end FairLock

/-! ### The service -/

/-- What serves requests: `σ` is what it is at some time, `φ` how far it got with a request. A poll ends with more to
do or with the response. -/
structure Service (σ ι ο φ : Type) where
  start : ι → φ
  poll : σ → φ → σ → φ ⊕ ο → Prop

variable {σ ι ο φ : Type}

namespace Service

/-- The request `x` has been served as far as the second argument but one. -/
inductive Serves (S : Service σ ι ο φ) (x : ι) (s : σ) : φ → σ → Prop
  | start : Serves S x s (S.start x) s
  | poll {f f' : φ} {t t' : σ} (h : Serves S x s f t) (hpoll : S.poll t f t' (.inl f')) : Serves S x s f' t'

def Returns (S : Service σ ι ο φ) (x : ι) (s : σ) (o : ο) (s' : σ) : Prop :=
  ∃ f t, S.Serves x s f t ∧ S.poll t f s' (.inr o)

/-- Serving a request does not get stuck. -/
def Total (S : Service σ ι ο φ) : Prop := ∀ x s f s', S.Serves x s f s' → ∃ s'' out, S.poll s' f s'' out

/-- A request is polled only so many times. -/
def Ends (S : Service σ ι ο φ) : Prop :=
  WellFounded fun (b a : σ × φ) => (∃ x s, S.Serves x s a.2 a.1) ∧ S.poll a.1 a.2 b.1 (.inl b.2)

end Service

inductive Serving (φ ο : Type) where
  | waiting
  | running (f : φ)
  | returned (o : ο)
  /-- The caller gave up when it waited. -/
  | abandoned
  /-- The caller gave up when it was served. -/
  | interrupted

namespace Serving

def isOpen : Serving φ ο → Bool
  | .waiting | .running _ => true
  | _ => false

/-- The service has been polled for it. -/
def isTouched : Serving φ ο → Bool
  | .waiting | .abandoned => false
  | _ => true

/-- What the caller leaves that gives up. -/
def giveUp : Serving φ ο → Serving φ ο
  | .waiting => .abandoned
  | .running _ => .interrupted
  | serving => serving

/-- What serving `x` does to the service, alone and from first to last. -/
def Effect (S : Service σ ι ο φ) (x : ι) : Serving φ ο → σ → σ → Prop
  | .waiting, s, s' | .abandoned, s, s' => s' = s
  | .running f, s, s' => S.Serves x s f s'
  | .returned o, s, s' => S.Returns x s o s'
  | .interrupted, s, s' => ∃ f, S.Serves x s f s'

theorem Effect.eq {S : Service σ ι ο φ} {x : ι} {serving : Serving φ ο} {s s' : σ} (h : serving.Effect S x s s')
    (huntouched : serving.isTouched = false) : s' = s := by
  cases serving with
  | waiting => exact h
  | abandoned => exact h
  | running f => cases huntouched
  | returned o => cases huntouched
  | interrupted => cases huntouched

theorem effect_rfl {S : Service σ ι ο φ} {x : ι} {serving : Serving φ ο} {s : σ}
    (huntouched : serving.isTouched = false) : serving.Effect S x s s := by
  cases serving with
  | waiting => exact rfl
  | abandoned => exact rfl
  | running f => cases huntouched
  | returned o => cases huntouched
  | interrupted => cases huntouched

end Serving

/-- The requests, in the order in which the lock was asked for, served one after another. -/
inductive Serial (S : Service σ ι ο φ) : σ → List (ι × Serving φ ο) → σ → Prop
  | nil (s : σ) : Serial S s [] s
  | cons {s s' s'' : σ} {x : ι} {serving : Serving φ ο} {requests : List (ι × Serving φ ο)}
      (h : serving.Effect S x s s') (hrest : Serial S s' requests s'') : Serial S s ((x, serving) :: requests) s''

namespace Serial

variable {S : Service σ ι ο φ} {s s' s'' : σ} {x : ι} {serving serving' : Serving φ ο} {c : ℕ}
  {requests requests' : List (ι × Serving φ ο)}

theorem append (h : Serial S s requests s') (h' : Serial S s' requests' s'') : Serial S s (requests ++ requests') s'' := by
  induction h with
  | nil s => exact h'
  | cons h _ ih => exact .cons h (ih h')

theorem split (h : Serial S s (requests ++ requests') s'') : ∃ s', Serial S s requests s' ∧ Serial S s' requests' s'' := by
  induction requests generalizing s with
  | nil => exact ⟨s, .nil s, h⟩
  | cons r requests ih =>
    cases h with
    | cons h hrest =>
      obtain ⟨s', hfirst, hsecond⟩ := ih hrest
      exact ⟨s', .cons h hfirst, hsecond⟩

theorem at_index (h : Serial S s requests s'') (hc : requests[c]? = some (x, serving)) :
    ∃ t t', Serial S s (requests.take c) t ∧ serving.Effect S x t t' ∧ Serial S t' (requests.drop (c + 1)) s'' := by
  obtain ⟨hlt, hget⟩ := List.getElem?_eq_some_iff.1 hc
  have hdrop := List.drop_eq_getElem_cons hlt
  rw [← List.take_append_drop c requests, hdrop, hget] at h
  obtain ⟨t, hfirst, hsecond⟩ := split h
  cases hsecond with
  | cons h hrest => exact ⟨t, _, hfirst, h, hrest⟩

theorem of_index {t t' : σ} (hc : c < requests.length) (hfirst : Serial S s (requests.take c) t)
    (h : serving.Effect S x t t') (hrest : Serial S t' (requests.drop (c + 1)) s'') :
    Serial S s (requests.set c (x, serving)) s'' := by
  rw [List.set_eq_take_append_cons_drop, if_pos hc]
  exact hfirst.append (.cons h hrest)

/-- Requests for which the service has not been polled leave it as it is. -/
theorem eq_of_untouched (h : Serial S s requests s') (hrest : ∀ r ∈ requests, r.2.isTouched = false) : s' = s := by
  induction h with
  | nil s => rfl
  | cons h _ ih =>
    rw [ih fun r hr => hrest r (List.mem_cons_of_mem _ hr)]
    exact h.eq (hrest _ List.mem_cons_self)

theorem of_untouched (hrest : ∀ r ∈ requests, r.2.isTouched = false) : Serial S s requests s := by
  induction requests with
  | nil => exact .nil s
  | cons r requests ih =>
    exact .cons (Serving.effect_rfl (hrest r List.mem_cons_self)) (ih fun r hr => hrest r (List.mem_cons_of_mem _ hr))

end Serial

/-! ### Requests from any number of callers -/

structure Locked (σ ι ο φ : Type) where
  state : σ
  lock : FairLock
  /-- In the order in which the lock was asked for. -/
  requests : List (ι × Serving φ ο)

/-- What a caller does. -/
inductive LockedAct (ι ο : Type) where
  | ask (x : ι)
  | serve (c : ℕ)
  | respond (c : ℕ) (o : ο)
  | giveUp (c : ℕ)

/-- Whose request it is about. -/
def LockedAct.caller : LockedAct ι ο → Option ℕ
  | .ask _ => none
  | .serve c | .respond c _ | .giveUp c => some c

namespace Locked

def new (s : σ) : Locked σ ι ο φ := ⟨s, .free, []⟩

inductive Step (S : Service σ ι ο φ) (s : Locked σ ι ο φ) : LockedAct ι ο → Locked σ ι ο φ → Prop
  | asks (x : ι) :
      Step S s (.ask x) { s with lock := s.lock.ask s.requests.length, requests := s.requests ++ [(x, .waiting)] }
  | starts {c : ℕ} {x : ι} (hholder : s.lock.holder = some c) (hc : s.requests[c]? = some (x, .waiting)) :
      Step S s (.serve c) { s with requests := s.requests.set c (x, .running (S.start x)) }
  | polls {c : ℕ} {x : ι} {f f' : φ} {state : σ} (hholder : s.lock.holder = some c)
      (hc : s.requests[c]? = some (x, .running f)) (hpoll : S.poll s.state f state (.inl f')) :
      Step S s (.serve c) { s with state, requests := s.requests.set c (x, .running f') }
  | returns {c : ℕ} {x : ι} {f : φ} {o : ο} {state : σ} (hholder : s.lock.holder = some c)
      (hc : s.requests[c]? = some (x, .running f)) (hpoll : S.poll s.state f state (.inr o)) :
      Step S s (.respond c o) ⟨state, s.lock.release, s.requests.set c (x, .returned o)⟩
  | givesUp {c : ℕ} {x : ι} {serving : Serving φ ο} (hc : s.requests[c]? = some (x, serving))
      (hopen : serving.isOpen = true) :
      Step S s (.giveUp c) { s with lock := s.lock.giveUp c, requests := s.requests.set c (x, serving.giveUp) }

/-- What was the service `s₀` at first is the one of `s` after the requests, one after another. -/
structure Inv (S : Service σ ι ο φ) (s₀ : σ) (s : Locked σ ι ο φ) : Prop where
  sorted : s.lock.line.Pairwise (· < ·)
  line : ∀ c, c ∈ s.lock.line ↔ ∃ x serving, s.requests[c]? = some (x, serving) ∧ serving.isOpen = true
  touched : ∀ (c : ℕ) x serving, s.requests[c]? = some (x, serving) → serving.isTouched = true →
    ∀ d ∈ s.lock.line, c ≤ d
  serial : Serial S s₀ s.requests s.state

variable {S : Service σ ι ο φ} {s₀ : σ} {s s' : Locked σ ι ο φ} {c d : ℕ} {x : ι} {serving serving' : Serving φ ο}

namespace Inv

theorem new (s₀ : σ) : (Locked.new s₀ : Locked σ ι ο φ).Inv S s₀ := by
  refine ⟨List.Pairwise.nil, fun c => ⟨fun h => ?_, fun ⟨x, serving, h, _⟩ => ?_⟩, fun c x serving h => ?_, .nil s₀⟩
  all_goals cases h

theorem holder_le (h : s.Inv S s₀) (hholder : s.lock.holder = some c) (hd : d ∈ s.lock.line) : c ≤ d := by
  rw [← FairLock.head?_line] at hholder
  obtain ⟨waiting, hline⟩ := List.head?_eq_some_iff.1 hholder
  have hsorted := h.sorted
  rw [hline] at hd hsorted
  rcases List.mem_cons.1 hd with rfl | hd
  · exact Nat.le_refl d
  · exact Nat.le_of_lt (List.rel_of_pairwise_cons hsorted hd)

theorem holder_mem (hholder : s.lock.holder = some c) : c ∈ s.lock.line := by
  rw [← FairLock.head?_line] at hholder
  exact List.mem_of_mem_head? hholder

theorem running_holder (h : s.Inv S s₀) {f : φ} (hc : s.requests[c]? = some (x, .running f)) :
    s.lock.holder = some c := by
  have hmem : c ∈ s.lock.line := (h.line c).2 ⟨x, _, hc, rfl⟩
  rw [← FairLock.head?_line]
  cases hline : s.lock.line with
  | nil =>
    rw [hline] at hmem
    cases hmem
  | cons d waiting =>
    have hsorted := h.sorted
    have hle := h.touched c x _ hc rfl d (by rw [hline]; exact List.mem_cons_self)
    rw [hline] at hmem hsorted
    rcases List.mem_cons.1 hmem with rfl | hmem
    · rfl
    · exact absurd (List.rel_of_pairwise_cons hsorted hmem) (Nat.not_lt.2 hle)

theorem running_unique (h : s.Inv S s₀) {y : ι} {f g : φ} (hc : s.requests[c]? = some (x, .running f))
    (hd : s.requests[d]? = some (y, .running g)) : c = d :=
  Option.some.inj ((h.running_holder hc).symm.trans (h.running_holder hd))

/-- The request that is served is the last one that changed the service. -/
theorem at_holder (h : s.Inv S s₀) (hholder : s.lock.holder = some c) (hc : s.requests[c]? = some (x, serving)) :
    ∃ t, Serial S s₀ (s.requests.take c) t ∧ serving.Effect S x t s.state ∧
      ∀ r ∈ s.requests.drop (c + 1), r.2.isTouched = false := by
  obtain ⟨t, t', hfirst, heffect, hrest⟩ := h.serial.at_index hc
  have huntouched : ∀ r ∈ s.requests.drop (c + 1), r.2.isTouched = false := by
    intro r hr
    obtain ⟨d, hd⟩ := List.mem_iff_getElem?.1 hr
    rw [List.getElem?_drop] at hd
    by_contra htouched
    have hle := h.touched (c + 1 + d) r.1 r.2 hd (Bool.eq_true_of_not_eq_false htouched) c (holder_mem hholder)
    omega
  rw [hrest.eq_of_untouched huntouched]
  exact ⟨t, hfirst, heffect, huntouched⟩

theorem serve (h : s.Inv S s₀) (hholder : s.lock.holder = some c) (hc : s.requests[c]? = some (x, serving))
    (hopen : serving'.isOpen = true) {state : σ}
    (heffect : ∀ t, serving.Effect S x t s.state → serving'.Effect S x t state) :
    Locked.Inv S s₀ { s with state, requests := s.requests.set c (x, serving') } := by
  have hlt := (List.getElem?_eq_some_iff.1 hc).1
  obtain ⟨t, hfirst, heffect', huntouched⟩ := h.at_holder hholder hc
  refine ⟨h.sorted, fun d => ?_, fun d y servingd hd htouched e he => ?_,
    .of_index hlt hfirst (heffect t heffect') (.of_untouched huntouched)⟩
  · rcases eq_or_ne c d with rfl | hne
    · exact ⟨fun _ => ⟨x, serving', List.getElem?_set_self hlt, hopen⟩, fun _ => holder_mem hholder⟩
    · rw [List.getElem?_set_ne hne]
      exact h.line d
  · rcases getElem?_set_cases hd with ⟨rfl, -⟩ | ⟨-, hd⟩
    · exact h.holder_le hholder he
    · exact h.touched d y servingd hd htouched e he

theorem leave (h : s.Inv S s₀) (hc : s.requests[c]? = some (x, serving))
    (hclosed : serving'.isOpen = false) (htouched : serving'.isTouched = true → s.lock.holder = some c) {state : σ}
    {lock : FairLock} (hlock : lock.line = s.lock.line.erase c)
    (hserial : Serial S s₀ (s.requests.set c (x, serving')) state) :
    Locked.Inv S s₀ ⟨state, lock, s.requests.set c (x, serving')⟩ := by
  have hlt := (List.getElem?_eq_some_iff.1 hc).1
  have hnodup : s.lock.line.Nodup := h.sorted.imp Nat.ne_of_lt
  refine ⟨hlock ▸ h.sorted.sublist List.erase_sublist, fun d => ?_, fun d y servingd hd htouchedd e he => ?_, hserial⟩
  · rw [hlock, hnodup.mem_erase_iff]
    rcases eq_or_ne c d with rfl | hne
    · refine ⟨fun ⟨hne, _⟩ => absurd rfl hne, fun ⟨y, servingd, hd, hopend⟩ => ?_⟩
      rw [List.getElem?_set_self hlt] at hd
      rw [← (Prod.mk.inj (Option.some.inj hd)).2, hclosed] at hopend
      cases hopend
    · rw [List.getElem?_set_ne hne, h.line d]
      exact ⟨fun ⟨_, hd⟩ => hd, fun hd => ⟨hne.symm, hd⟩⟩
  · have hmem : e ∈ s.lock.line := List.mem_of_mem_erase (hlock ▸ he : e ∈ s.lock.line.erase c)
    rcases getElem?_set_cases hd with ⟨rfl, heq⟩ | ⟨-, hd⟩
    · exact h.holder_le (htouched ((Prod.mk.inj heq).2 ▸ htouchedd)) hmem
    · exact h.touched d y servingd hd htouchedd e hmem

theorem step (h : s.Inv S s₀) {act : LockedAct ι ο} (hstep : Step S s act s') : s'.Inv S s₀ := by
  cases hstep with
  | asks x =>
    have hlt : ∀ d ∈ s.lock.line, d < s.requests.length := by
      intro d hd
      obtain ⟨y, serving, hd, -⟩ := (h.line d).1 hd
      exact (List.getElem?_eq_some_iff.1 hd).1
    have hline := s.lock.line_ask s.requests.length
    refine ⟨?_, fun d => ?_, fun d y serving hd htouched e he => ?_, h.serial.append (.cons rfl (.nil _))⟩
    · rw [hline, List.pairwise_append]
      refine ⟨h.sorted, List.pairwise_singleton _ _, fun d hd e he => ?_⟩
      rw [List.mem_singleton.1 he]
      exact hlt d hd
    · rw [hline, List.mem_append, List.mem_singleton]
      constructor
      · rintro (hd | rfl)
        · obtain ⟨y, serving, hd', hopen⟩ := (h.line d).1 hd
          exact ⟨y, serving, (List.getElem?_append_left (hlt d hd)).trans hd', hopen⟩
        · exact ⟨x, .waiting, List.getElem?_concat_length, rfl⟩
      · rintro ⟨y, serving, hd, hopen⟩
        rcases getElem?_concat_cases hd with hd | ⟨rfl, -⟩
        · exact .inl ((h.line d).2 ⟨y, serving, hd, hopen⟩)
        · exact .inr rfl
    · rcases getElem?_concat_cases hd with hd | ⟨-, heq⟩
      · rw [hline, List.mem_append, List.mem_singleton] at he
        rcases he with he | rfl
        · exact h.touched d y serving hd htouched e he
        · exact Nat.le_of_lt (List.getElem?_eq_some_iff.1 hd).1
      · rw [(Prod.mk.inj heq).2] at htouched
        cases htouched
  | starts hholder hc =>
    refine h.serve hholder hc rfl fun t (ht : _ = t) => ?_
    rw [ht]
    exact .start
  | polls hholder hc hpoll => exact h.serve hholder hc rfl fun t ht => .poll ht hpoll
  | @returns c x f o state hholder hc hpoll =>
    obtain ⟨t, hfirst, heffect, huntouched⟩ := h.at_holder hholder hc
    refine h.leave hc rfl (fun _ => hholder) ?_
      (.of_index (List.getElem?_eq_some_iff.1 hc).1 hfirst ⟨f, _, heffect, hpoll⟩ (.of_untouched huntouched))
    rw [← FairLock.head?_line] at hholder
    obtain ⟨waiting, hline⟩ := List.head?_eq_some_iff.1 hholder
    rw [FairLock.line_release, hline, List.erase_cons_head, List.tail_cons]
  | @givesUp c x serving hc hopen =>
    obtain ⟨t, t', hfirst, heffect, hrest⟩ := h.serial.at_index hc
    have hlt := (List.getElem?_eq_some_iff.1 hc).1
    cases serving with
    | waiting =>
      exact h.leave hc rfl (fun ht => Bool.noConfusion ht) (s.lock.line_giveUp c)
        (.of_index hlt hfirst heffect hrest)
    | running f =>
      exact h.leave hc rfl (fun _ => h.running_holder hc) (s.lock.line_giveUp c)
        (.of_index hlt hfirst ⟨f, heffect⟩ hrest)
    | returned o => cases hopen
    | abandoned => cases hopen
    | interrupted => cases hopen

theorem exists_holder (h : s.Inv S s₀) (hc : s.requests[c]? = some (x, serving)) (hopen : serving.isOpen = true) :
    ∃ d, s.lock.holder = some d := by
  have hmem := (h.line c).2 ⟨x, serving, hc, hopen⟩
  rw [← FairLock.head?_line]
  cases hline : s.lock.line with
  | nil =>
    rw [hline] at hmem
    cases hmem
  | cons d waiting => exact ⟨d, rfl⟩

theorem holder_moves (h : s.Inv S s₀) (htotal : S.Total) (hholder : s.lock.holder = some c) :
    ∃ s', Step S s (.serve c) s' ∨ ∃ o, Step S s (.respond c o) s' := by
  obtain ⟨x, serving, hc, hopen⟩ := (h.line c).1 (holder_mem hholder)
  cases serving with
  | waiting => exact ⟨_, .inl (.starts hholder hc)⟩
  | running f =>
    obtain ⟨t, -, hserves, -⟩ := h.at_holder hholder hc
    obtain ⟨t', f' | o, hpoll⟩ := htotal x t f s.state hserves
    · exact ⟨_, .inl (.polls hholder hc hpoll)⟩
    · exact ⟨_, .inr ⟨o, .returns hholder hc hpoll⟩⟩
  | returned o => cases hopen
  | abandoned => cases hopen
  | interrupted => cases hopen

end Inv

namespace Step

variable {act : LockedAct ι ο} {o : ο}

theorem asks_eq (h : Step S s (.ask x) s') : s'.requests = s.requests ++ [(x, .waiting)] := by
  cases h
  rfl

theorem serve_cases (h : Step S s (.serve c) s') : ∃ x serving serving', s.requests[c]? = some (x, serving) ∧
    serving.isOpen = true ∧ s'.requests = s.requests.set c (x, serving') ∧ serving'.isOpen = true := by
  cases h with
  | starts _ hc => exact ⟨_, _, _, hc, rfl, rfl, rfl⟩
  | polls _ hc _ => exact ⟨_, _, _, hc, rfl, rfl, rfl⟩

theorem respond_cases (h : Step S s (.respond c o) s') : ∃ x serving, s.requests[c]? = some (x, serving) ∧
    serving.isOpen = true ∧ s'.requests = s.requests.set c (x, .returned o) := by
  cases h with
  | returns _ hc _ => exact ⟨_, _, hc, rfl, rfl⟩

theorem giveUp_cases (h : Step S s (.giveUp c) s') : ∃ x serving, s.requests[c]? = some (x, serving) ∧
    serving.isOpen = true ∧ s'.requests = s.requests.set c (x, serving.giveUp) := by
  cases h with
  | givesUp hc hopen => exact ⟨_, _, hc, hopen, rfl⟩

theorem others (h : Step S s act s') (hc : s.requests[c]? = some (x, serving)) (hne : act.caller ≠ some c) :
    s'.requests[c]? = some (x, serving) := by
  have hset : ∀ {d : ℕ} {r : ι × Serving φ ο}, act.caller = some d → s'.requests = s.requests.set d r →
      s'.requests[c]? = some (x, serving) := by
    intro d r hd heq
    rw [heq, List.getElem?_set_ne fun heq => hne (hd.trans (congrArg some heq)), hc]
  cases act with
  | ask y => rw [h.asks_eq, List.getElem?_append_left (List.getElem?_eq_some_iff.1 hc).1, hc]
  | serve d =>
    obtain ⟨_, _, _, -, -, heq, -⟩ := h.serve_cases
    exact hset rfl heq
  | respond d o =>
    obtain ⟨_, _, -, -, heq⟩ := h.respond_cases
    exact hset rfl heq
  | giveUp d =>
    obtain ⟨_, _, -, -, heq⟩ := h.giveUp_cases
    exact hset rfl heq

/-- A request keeps its place, and how it ended. -/
theorem kept (h : Step S s act s') (hc : s.requests[c]? = some (x, serving)) :
    ∃ serving', s'.requests[c]? = some (x, serving') ∧ (serving.isOpen = false → serving' = serving) := by
  have hset : ∀ {y : ι} {old new : Serving φ ο}, s.requests[c]? = some (y, old) → old.isOpen = true →
      s'.requests = s.requests.set c (y, new) →
      ∃ serving', s'.requests[c]? = some (x, serving') ∧ (serving.isOpen = false → serving' = serving) := by
    intro y old new hold hopen heq
    obtain ⟨rfl, rfl⟩ := Prod.mk.inj (Option.some.inj (hc.symm.trans hold))
    refine ⟨new, ?_, fun hclosed => ?_⟩
    · rw [heq, List.getElem?_set_self (List.getElem?_eq_some_iff.1 hc).1]
    · rw [hopen] at hclosed
      cases hclosed
  by_cases hcaller : act.caller = some c
  · cases act with
    | ask y => cases hcaller
    | serve d =>
      obtain rfl := Option.some.inj hcaller
      obtain ⟨_, _, _, hd, hopen, heq, -⟩ := h.serve_cases
      exact hset hd hopen heq
    | respond d o =>
      obtain rfl := Option.some.inj hcaller
      obtain ⟨_, _, hd, hopen, heq⟩ := h.respond_cases
      exact hset hd hopen heq
    | giveUp d =>
      obtain rfl := Option.some.inj hcaller
      obtain ⟨_, _, hd, hopen, heq⟩ := h.giveUp_cases
      exact hset hd hopen heq
  · exact ⟨serving, h.others hc hcaller, fun _ => rfl⟩

end Step

/-! ### Coming to rest -/

/-- What a request may still need besides polls. -/
def toServe : Serving φ ο → ℕ
  | .waiting => 2
  | .running _ => 1
  | _ => 0

theorem toServe_giveUp (h : serving.isOpen = true) : toServe serving.giveUp < toServe serving := by
  cases serving with
  | waiting => exact Nat.two_pos
  | running f => exact Nat.one_pos
  | returned o => cases h
  | abandoned => cases h
  | interrupted => cases h

/-- The service with what is being served. -/
def served (s : Locked σ ι ο φ) : List (σ × φ) :=
  match s.lock.holder.bind (s.requests[·]?) with
  | some (_, .running f) => [(s.state, f)]
  | _ => []

theorem served_eq {f : φ} (hholder : s.lock.holder = some c) (hc : s.requests[c]? = some (x, .running f)) :
    s.served = [(s.state, f)] := by
  have hbind : s.lock.holder.bind (s.requests[·]?) = some (x, .running f) := by
    rw [hholder]
    exact hc
  rw [served, hbind]

/-- A request that is there gets on. -/
def Acts (S : Service σ ι ο φ) (s₀ : σ) (s s' : Locked σ ι ο φ) : Prop :=
  s.Inv S s₀ ∧ ∃ act c, act.caller = some c ∧ Step S s act s'

theorem Acts.wellFounded (hends : S.Ends) (s₀ : σ) :
    WellFounded (Function.swap (Acts S s₀ : Locked σ ι ο φ → Locked σ ι ο φ → Prop)) := by
  let polls : σ × φ → σ × φ → Prop := fun a b => (∃ x s, S.Serves x s a.2 a.1) ∧ S.poll a.1 a.2 b.1 (.inl b.2)
  have hparts : WellFounded (Function.swap (PartSteps polls)) := PartSteps.wellFounded hends
  refine Subrelation.wf (fun {s' s} h => ?_)
    (InvImage.wf (fun s : Locked σ ι ο φ => ((s.requests.map (toServe ∘ Prod.snd)).sum, s.served))
      (WellFounded.prod_lex Nat.lt_wfRel.wf hparts))
  obtain ⟨hinv, act, c, hact, hstep⟩ := h
  have hless : ∀ {x : ι} {old new : Serving φ ο}, s.requests[c]? = some (x, old) →
      s'.requests = s.requests.set c (x, new) → toServe new < toServe old →
      (s'.requests.map (toServe ∘ Prod.snd)).sum < (s.requests.map (toServe ∘ Prod.snd)).sum := by
    intro x old new hold heq hlt
    have hsum := sum_map_set (toServe ∘ Prod.snd) (x, new) hold
    rw [heq]
    simp only [Function.comp_apply] at hsum
    omega
  cases hstep with
  | asks x => cases hact
  | starts _ hc =>
    obtain rfl := Option.some.inj hact
    exact Prod.Lex.left _ _ (hless hc rfl Nat.one_lt_two)
  | @polls c x f f' state hholder hc hpoll =>
    obtain ⟨t, -, hserves, -⟩ := hinv.at_holder hholder hc
    have hsum := sum_map_set (toServe ∘ Prod.snd) (x, Serving.running f') hc
    have hserved : Locked.served ⟨state, s.lock, s.requests.set c (x, .running f')⟩ = [(state, f')] :=
      served_eq hholder (List.getElem?_set_self (List.getElem?_eq_some_iff.1 hc).1)
    have hstep : PartSteps polls s.served (Locked.served ⟨state, s.lock, s.requests.set c (x, .running f')⟩) := by
      rw [hserved, served_eq hholder hc]
      exact ⟨0, _, _, rfl, ⟨⟨x, t, hserves⟩, hpoll⟩, rfl⟩
    exact Prod.lex_def.2 (.inr ⟨Nat.add_right_cancel hsum, hstep⟩)
  | returns _ hc _ =>
    obtain rfl := Option.some.inj hact
    exact Prod.Lex.left _ _ (hless hc rfl Nat.one_pos)
  | givesUp hc hopen =>
    obtain rfl := Option.some.inj hact
    exact Prod.Lex.left _ _ (hless hc rfl (toServe_giveUp hopen))

end Locked

end Wire
