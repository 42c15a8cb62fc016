import Tchannel.Lib.Mux
import Tchannel.Lib.Steps
import Tchannel.Lib.Text

/-!
# Get or create

Instances that are made on demand, one for each key, and shared by any number of callers. A caller looks its
key up under a read lock and, if it misses, looks again and creates the instance under the write lock;
creating may fail. An instance is known by its number, as it is by its address; its contents may change.

Two callers may miss one after the other. The second look keeps the registry growing only
(`Callers.Step.get_mono`): all callers that get an instance for one key get the one that is stored there, and
those for other keys get others (`Callers.OneInstance`).
-/

namespace Wire

/-- The instances that were made, and the keys that they are for. -/
structure Registry (κ ι : Type) where
  entries : HashMap κ ℕ
  instances : List ι

namespace Registry

variable {κ ι ε : Type} [DecidableEq κ]

def new : Registry κ ι := ⟨∅, []⟩

def get (self : Registry κ ι) (k : κ) : Option ℕ := self.entries.lookup k

/-- What is done under the write lock; `built` is the instance that is made if it is needed. -/
def getOrCreate (self : Registry κ ι) (k : κ) (built : Except ε ι) : Except ε ℕ × Registry κ ι :=
  match self.get k with
  | some i => (.ok i, self)
  | none =>
    match built with
    | .ok x => (.ok self.instances.length, ⟨self.entries.insert k self.instances.length, self.instances ++ [x]⟩)
    | .error e => (.error e, self)

/-- The contents of the instance for a key. -/
def read (self : Registry κ ι) (k : κ) : Option ι := (self.get k).bind (self.instances[·]?)

def update (self : Registry κ ι) (i : ℕ) (x : ι) : Registry κ ι :=
  { self with instances := self.instances.set i x }

/-- Every entry is that of an instance, and of an instance of its own. -/
structure WellFormed (registry : Registry κ ι) : Prop where
  within : ∀ k i, registry.get k = some i → i < registry.instances.length
  apart : ∀ k k' i, registry.get k = some i → registry.get k' = some i → k = k'

variable {self : Registry κ ι} {k k' : κ} {built : Except ε ι} {i : ℕ}

@[simp] theorem get_new : (new : Registry κ ι).get k = none := rfl

theorem getOrCreate_cases (self : Registry κ ι) (k : κ) (built : Except ε ι) :
    (∃ i, self.get k = some i ∧ self.getOrCreate k built = (.ok i, self)) ∨
    (self.get k = none ∧ ∃ x, built = .ok x ∧ self.getOrCreate k built =
      (.ok self.instances.length, ⟨self.entries.insert k self.instances.length, self.instances ++ [x]⟩)) ∨
    (self.get k = none ∧ ∃ e, built = .error e ∧ self.getOrCreate k built = (.error e, self)) := by
  unfold getOrCreate
  cases hget : self.get k with
  | some i => exact .inl ⟨i, rfl, rfl⟩
  | none =>
    cases built with
    | ok x => exact .inr (.inl ⟨rfl, x, rfl, rfl⟩)
    | error e => exact .inr (.inr ⟨rfl, e, rfl, rfl⟩)

theorem get_of_getOrCreate (h : (self.getOrCreate k built).1 = .ok i) :
    (self.getOrCreate k built).2.get k = some i := by
  rcases getOrCreate_cases self k built with ⟨j, hget, heq⟩ | ⟨-, x, -, heq⟩ | ⟨-, e, -, heq⟩ <;> rw [heq] at h ⊢
  · rw [← Except.ok.inj h]
    exact hget
  · rw [← Except.ok.inj h]
    exact Finmap.lookup_insert _
  · cases h

theorem getOrCreate_error {e : ε} (h : (self.getOrCreate k built).1 = .error e) :
    (self.getOrCreate k built).2 = self := by
  rcases getOrCreate_cases self k built with ⟨j, -, heq⟩ | ⟨-, x, -, heq⟩ | ⟨-, e, -, heq⟩ <;> rw [heq] at h ⊢
  cases h

/-- Only the entry for `k` can change, and only if there was none. -/
theorem get_getOrCreate_of_ne (h : k' ≠ k) : (self.getOrCreate k built).2.get k' = self.get k' := by
  rcases getOrCreate_cases self k built with ⟨j, -, heq⟩ | ⟨-, x, -, heq⟩ | ⟨-, e, -, heq⟩ <;> rw [heq]
  exact Finmap.lookup_insert_of_ne _ h

theorem get_getOrCreate_of_some (h : self.get k' = some i) : (self.getOrCreate k built).2.get k' = some i := by
  by_cases hk : k' = k
  · subst hk
    rcases getOrCreate_cases self k' built with ⟨j, -, heq⟩ | ⟨hnone, -⟩ | ⟨hnone, -⟩
    · rw [heq]
      exact h
    · rw [hnone] at h
      cases h
    · rw [hnone] at h
      cases h
  · rw [get_getOrCreate_of_ne hk, h]

theorem getElem?_getOrCreate {x : ι} (h : self.instances[i]? = some x) :
    (self.getOrCreate k built).2.instances[i]? = some x := by
  rcases getOrCreate_cases self k built with ⟨j, -, heq⟩ | ⟨-, y, -, heq⟩ | ⟨-, e, -, heq⟩ <;> rw [heq]
  · exact h
  · exact (List.getElem?_append_left (List.getElem?_eq_some_iff.1 h).1).trans h
  · exact h

theorem wellFormed_new : (new : Registry κ ι).WellFormed := ⟨nofun, nofun⟩

theorem WellFormed.getOrCreate (h : self.WellFormed) : (self.getOrCreate k built).2.WellFormed := by
  rcases getOrCreate_cases self k built with ⟨j, -, heq⟩ | ⟨-, x, -, heq⟩ | ⟨-, e, -, heq⟩ <;> rw [heq]
  · exact h
  · have hget : ∀ k' i, (self.entries.insert k self.instances.length).lookup k' = some i →
        (k' = k ∧ i = self.instances.length) ∨ (self.get k' = some i ∧ i < self.instances.length) := by
      intro k' i hk'
      rcases eq_or_ne k' k with rfl | hne
      · rw [Finmap.lookup_insert] at hk'
        exact .inl ⟨rfl, (Option.some.inj hk').symm⟩
      · rw [Finmap.lookup_insert_of_ne _ hne] at hk'
        exact .inr ⟨hk', h.within k' i hk'⟩
    refine ⟨fun k' i hk' => ?_, fun k₁ k₂ i h₁ h₂ => ?_⟩
    · rcases hget k' i hk' with ⟨-, rfl⟩ | ⟨-, hlt⟩
      · simp
      · exact hlt.trans (by simp)
    · rcases hget k₁ i h₁ with ⟨rfl, rfl⟩ | ⟨h₁, hlt⟩ <;> rcases hget k₂ _ h₂ with ⟨rfl, hi⟩ | ⟨h₂, hlt'⟩
      · rfl
      · exact absurd hlt' (Nat.lt_irrefl _)
      · exact absurd hlt (by simp [hi])
      · exact h.apart k₁ k₂ i h₁ h₂
  · exact h

theorem WellFormed.update {x : ι} (h : self.WellFormed) : (self.update i x).WellFormed :=
  ⟨fun k j hget => (h.within k j hget).trans_eq List.length_set.symm, h.apart⟩

end Registry

/-! ### Callers -/

inductive CallPhase (ε : Type) where
  | looking
  | missed
  | returned (i : ℕ)
  | failed (e : ε)

def CallPhase.ofResult {ε : Type} : Except ε ℕ → CallPhase ε
  | .ok i => .returned i
  | .error e => .failed e

structure Call (κ ε : Type) where
  key : κ
  phase : CallPhase ε

/-- A registry with the calls that were made. -/
structure Callers (κ ι ε : Type) where
  registry : Registry κ ι
  calls : List (Call κ ε)

namespace Callers

variable {κ ι ε : Type} {create : Registry κ ι → κ → Except ε ℕ × Registry κ ι → Prop} {uses : ι → ι → Prop}

def start : Callers κ ι ε := ⟨Registry.new, []⟩

/-- A call is made, looks its key up, and does what it does under the write lock (`create` tells how that may
end); or somebody uses an instance. -/
inductive Step [DecidableEq κ] (create : Registry κ ι → κ → Except ε ℕ × Registry κ ι → Prop) (uses : ι → ι → Prop)
    (s : Callers κ ι ε) : Callers κ ι ε → Prop
  | calls (k : κ) : Step create uses s { s with calls := s.calls ++ [⟨k, .looking⟩] }
  | finds {c : ℕ} {k : κ} {i : ℕ} (hc : s.calls[c]? = some ⟨k, .looking⟩) (hget : s.registry.get k = some i) :
      Step create uses s { s with calls := s.calls.set c ⟨k, .returned i⟩ }
  | misses {c : ℕ} {k : κ} (hc : s.calls[c]? = some ⟨k, .looking⟩) (hget : s.registry.get k = none) :
      Step create uses s { s with calls := s.calls.set c ⟨k, .missed⟩ }
  | creates {c : ℕ} {k : κ} {result} {registry} (hc : s.calls[c]? = some ⟨k, .missed⟩)
      (hcreate : create s.registry k (result, registry)) :
      Step create uses s ⟨registry, s.calls.set c ⟨k, .ofResult result⟩⟩
  | uses {i : ℕ} {x x' : ι} (hi : s.registry.instances[i]? = some x) (huse : uses x x') :
      Step create uses s { s with registry := s.registry.update i x' }

def system [DecidableEq κ] (create : Registry κ ι → κ → Except ε ℕ × Registry κ ι → Prop)
    (uses : ι → ι → Prop) : TransitionSystem (Callers κ ι ε) :=
  ⟨(· = start), Step create uses⟩

variable [DecidableEq κ] {s s' : Callers κ ι ε} {k : κ} {c i : ℕ}

/-- Under the write lock the key is looked up again. -/
def LooksAgain (create : Registry κ ι → κ → Except ε ℕ × Registry κ ι → Prop) : Prop :=
  ∀ registry k result registry', create registry k (result, registry') →
    ∃ built, registry.getOrCreate k built = (result, registry')

/-- Every caller has the instance that is stored under its key. -/
structure Inv (s : Callers κ ι ε) : Prop where
  registry : s.registry.WellFormed
  returned : ∀ (c : ℕ) k i, s.calls[c]? = some ⟨k, .returned i⟩ → s.registry.get k = some i

theorem inv_start : (start : Callers κ ι ε).Inv := ⟨Registry.wellFormed_new, nofun⟩

/-- What callers can rely on from a state on. -/
structure OneInstance (create : Registry κ ι → κ → Except ε ℕ × Registry κ ι → Prop) (uses : ι → ι → Prop)
    (s : Callers κ ι ε) : Prop where
  /-- What a call returned is the instance that is stored under its key. -/
  stored : ∀ (c : ℕ) k i, s.calls[c]? = some ⟨k, .returned i⟩ →
    s.registry.get k = some i ∧ ∃ x, s.registry.instances[i]? = some x
  /-- Different keys have different instances. -/
  apart : ∀ k k' i, s.registry.get k = some i → s.registry.get k' = some i → k = k'
  /-- All calls for a key that succeed, now or later, return the same instance. -/
  same : ∀ s', (system create uses).Steps s s' → ∀ (c d : ℕ) k i j, s.calls[c]? = some ⟨k, .returned i⟩ →
    s'.calls[d]? = some ⟨k, .returned j⟩ → i = j
  kept : ∀ s', (system create uses).Steps s s' → ∀ k i, s.registry.get k = some i → s'.registry.get k = some i
  /-- A step changes at most the entry of the key whose call it completes. -/
  others : ∀ s', Step create uses s s' → ∀ k, s'.registry.get k ≠ s.registry.get k →
    ∃ (c : ℕ) (i : ℕ), s.calls[c]? = some ⟨k, .missed⟩ ∧ s'.calls[c]? = some ⟨k, .returned i⟩ ∧
      s.registry.get k = none ∧ s'.registry.get k = some i
  failed : ∀ s', Step create uses s s' → ∀ (c : ℕ) k e, s.calls[c]? = some ⟨k, .missed⟩ →
    s'.calls[c]? = some ⟨k, .failed e⟩ → s'.registry = s.registry

section

variable (hlooks : LooksAgain create)

include hlooks

theorem Step.get_mono (h : Step create uses s s') (hget : s.registry.get k = some i) :
    s'.registry.get k = some i := by
  cases h with
  | calls _ => exact hget
  | finds _ _ => exact hget
  | misses _ _ => exact hget
  | @creates c k' result registry _ hcreate =>
    obtain ⟨built, heq⟩ := hlooks _ _ _ _ hcreate
    have hkeep : (s.registry.getOrCreate k' built).2.get k = some i := Registry.get_getOrCreate_of_some hget
    rwa [heq] at hkeep
  | uses _ _ => exact hget

theorem Step.wellFormed (h : Step create uses s s') (hwf : s.registry.WellFormed) : s'.registry.WellFormed := by
  cases h with
  | calls _ => exact hwf
  | finds _ _ => exact hwf
  | misses _ _ => exact hwf
  | @creates c k' result registry _ hcreate =>
    obtain ⟨built, heq⟩ := hlooks _ _ _ _ hcreate
    have hkeep : (s.registry.getOrCreate k' built).2.WellFormed := hwf.getOrCreate
    rwa [heq] at hkeep
  | uses _ _ => exact hwf.update

theorem Inv.step (h : s.Inv) (hstep : Step create uses s s') : s'.Inv := by
  refine ⟨hstep.wellFormed hlooks h.registry, fun c k i hc => ?_⟩
  have hold : s.calls[c]? = some ⟨k, .returned i⟩ → s'.registry.get k = some i := fun hc =>
    hstep.get_mono hlooks (h.returned c k i hc)
  cases hstep with
  | calls k' =>
    rcases getElem?_concat_cases hc with hc | ⟨-, heq⟩
    · exact hold hc
    · cases heq
  | finds _ hget =>
    rcases getElem?_set_cases hc with ⟨-, heq⟩ | ⟨-, hc⟩
    · cases heq
      exact hget
    · exact hold hc
  | misses _ _ =>
    rcases getElem?_set_cases hc with ⟨-, heq⟩ | ⟨-, hc⟩
    · cases heq
    · exact hold hc
  | @creates _ _ result registry _ hcreate =>
    rcases getElem?_set_cases hc with ⟨-, heq⟩ | ⟨-, hc⟩
    · obtain ⟨built, hbuilt⟩ := hlooks _ _ _ _ hcreate
      obtain ⟨rfl, hphase⟩ := Call.mk.inj heq
      cases result with
      | ok j =>
        obtain rfl := CallPhase.returned.inj hphase
        have hget := Registry.get_of_getOrCreate (congrArg Prod.fst hbuilt)
        rwa [hbuilt] at hget
      | error e => cases hphase
    · exact hold hc
  | uses _ _ => exact hold hc

theorem Inv.of_reachable (h : (system create uses).Reachable s) : s.Inv :=
  h.invariant (P := Inv) (fun s hs => by rw [show s = start from hs]; exact inv_start)
    fun s t _ hinv hstep => hinv.step hlooks hstep

/-- An entry changes only when a call for its key, which missed, returns. -/
theorem Step.get_changes (h : Step create uses s s') (hne : s'.registry.get k ≠ s.registry.get k) :
    ∃ (c : ℕ) (i : ℕ), s.calls[c]? = some ⟨k, .missed⟩ ∧ s'.calls[c]? = some ⟨k, .returned i⟩ ∧
      s.registry.get k = none ∧ s'.registry.get k = some i := by
  cases h with
  | calls _ => exact absurd rfl hne
  | finds _ _ => exact absurd rfl hne
  | misses _ _ => exact absurd rfl hne
  | uses _ _ => exact absurd rfl hne
  | @creates c k' result registry hc hcreate =>
    obtain ⟨built, hbuilt⟩ := hlooks _ _ _ _ hcreate
    obtain rfl : k = k' := by
      by_contra hk
      have hsame : (s.registry.getOrCreate k' built).2.get k = s.registry.get k := Registry.get_getOrCreate_of_ne hk
      rw [hbuilt] at hsame
      exact hne hsame
    have hlen := (List.getElem?_eq_some_iff.1 hc).1
    rcases Registry.getOrCreate_cases s.registry k built with ⟨j, -, heq⟩ | ⟨hnone, x, -, heq⟩ | ⟨-, e, -, heq⟩ <;>
      obtain ⟨rfl, rfl⟩ := Prod.mk.inj (hbuilt.symm.trans heq)
    · exact absurd rfl hne
    · exact ⟨c, s.registry.instances.length, hc, List.getElem?_set_self hlen, hnone, Finmap.lookup_insert _⟩
    · exact absurd rfl hne

theorem Step.registry_eq_of_failed {e : ε} (h : Step create uses s s')
    (hc : s.calls[c]? = some ⟨k, .missed⟩) (hfailed : s'.calls[c]? = some ⟨k, .failed e⟩) :
    s'.registry = s.registry := by
  cases h with
  | calls _ => rfl
  | finds _ _ => rfl
  | misses _ _ => rfl
  | @creates c' k' result registry _ hcreate =>
    obtain ⟨built, hbuilt⟩ := hlooks _ _ _ _ hcreate
    rcases getElem?_set_cases hfailed with ⟨-, heq⟩ | ⟨-, h⟩
    · cases result with
      | ok j => cases heq
      | error e' =>
        have hsame := Registry.getOrCreate_error (congrArg Prod.fst hbuilt)
        rwa [hbuilt] at hsame
    · rw [hc] at h
      cases h
  | uses _ _ =>
    rw [hc] at hfailed
    cases hfailed

theorem get_steps (h : (system create uses).Steps s s') (hget : s.registry.get k = some i) :
    s'.registry.get k = some i := by
  induction h with
  | refl => exact hget
  | tail _ hlast ih => exact Step.get_mono hlooks hlast ih

theorem oneInstance (h : (system create uses).Reachable s) : OneInstance create uses s := by
  have hinv := Inv.of_reachable hlooks h
  refine ⟨fun c k i hc => ⟨hinv.returned c k i hc, ?_⟩, hinv.registry.apart, fun s' hsteps c d k i j hc hd => ?_,
    fun s' hsteps k i => get_steps hlooks hsteps, fun s' hstep k => hstep.get_changes hlooks,
    fun s' hstep c k e => hstep.registry_eq_of_failed hlooks⟩
  · exact ⟨_, List.getElem?_eq_getElem (hinv.registry.within k i (hinv.returned c k i hc))⟩
  · have hi := get_steps hlooks hsteps (hinv.returned c k i hc)
    rw [(Inv.of_reachable hlooks (h.steps hsteps)).returned d k j hd] at hi
    exact (Option.some.inj hi).symm

/-- What holds of the contents of an instance and is kept by every use of it, goes on to hold. -/
theorem contents_steps {P : ι → Prop} (huses : ∀ x x', uses x x' → P x → P x')
    (h : (system create uses).Steps s s') (hi : ∃ x, s.registry.instances[i]? = some x ∧ P x) :
    ∃ x, s'.registry.instances[i]? = some x ∧ P x := by
  induction h with
  | refl => exact hi
  | @tail t u _ hlast ih =>
    obtain ⟨x, hx, hP⟩ := ih
    cases hlast with
    | calls _ => exact ⟨x, hx, hP⟩
    | finds _ _ => exact ⟨x, hx, hP⟩
    | misses _ _ => exact ⟨x, hx, hP⟩
    | @creates c k result registry _ hcreate =>
      obtain ⟨built, hbuilt⟩ := hlooks _ _ _ _ hcreate
      have hkeep : (t.registry.getOrCreate k built).2.instances[i]? = some x := Registry.getElem?_getOrCreate hx
      rw [hbuilt] at hkeep
      exact ⟨x, hkeep, hP⟩
    | @uses j y y' hj huse =>
      have hlen := (List.getElem?_eq_some_iff.1 hx).1
      show ∃ x, (t.registry.instances.set j y')[i]? = some x ∧ P x
      by_cases hij : j = i
      · subst hij
        rw [hj] at hx
        obtain rfl := Option.some.inj hx
        exact ⟨y', List.getElem?_set_self hlen, huses _ _ huse hP⟩
      · rw [List.getElem?_set_ne hij]
        exact ⟨x, hx, hP⟩

end

end Callers

end Wire
