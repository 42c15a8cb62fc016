import Mathlib.Logic.Relation

/-!
# Transition systems

States, the states a system starts in, and the steps it can take. What holds of every initial state and is
preserved by every step holds of all reachable states (`Reachable.invariant`); a system that can mimic the
steps of another one reaches states related to all of its reachable states (`Reachable.simulation`).
-/

namespace Wire

structure TransitionSystem (σ : Type*) where
  init : σ → Prop
  step : σ → σ → Prop

namespace TransitionSystem

variable {σ τ : Type*} {T : TransitionSystem σ} {U : TransitionSystem τ}

/-- Any number of steps. -/
def Steps (T : TransitionSystem σ) : σ → σ → Prop := Relation.ReflTransGen T.step

def Reachable (T : TransitionSystem σ) (s : σ) : Prop := ∃ s₀, T.init s₀ ∧ T.Steps s₀ s

theorem Steps.refl (s : σ) : T.Steps s s := Relation.ReflTransGen.refl

theorem Steps.trans {s t u : σ} (h : T.Steps s t) (h' : T.Steps t u) : T.Steps s u :=
  Relation.ReflTransGen.trans h h'

theorem Steps.one {s t : σ} (h : T.step s t) : T.Steps s t := Relation.ReflTransGen.single h

theorem Steps.tail {s t u : σ} (h : T.Steps s t) (h' : T.step t u) : T.Steps s u :=
  Relation.ReflTransGen.tail h h'

theorem Steps.head {s t u : σ} (h : T.step s t) (h' : T.Steps t u) : T.Steps s u :=
  Relation.ReflTransGen.head h h'

theorem Reachable.start {s : σ} (h : T.init s) : T.Reachable s := ⟨s, h, Steps.refl s⟩

theorem Reachable.steps {s t : σ} (hs : T.Reachable s) (h : T.Steps s t) : T.Reachable t := by
  obtain ⟨s₀, hinit, hsteps⟩ := hs
  exact ⟨s₀, hinit, hsteps.trans h⟩

theorem Reachable.step {s t : σ} (hs : T.Reachable s) (h : T.step s t) : T.Reachable t :=
  hs.steps (Steps.one h)

/-- The invariant rule. The step may use that the state it starts from is reachable. -/
theorem Reachable.invariant {P : σ → Prop} (hinit : ∀ s, T.init s → P s)
    (hstep : ∀ s t, T.Reachable s → P s → T.step s t → P t) {s : σ} (hs : T.Reachable s) : P s := by
  obtain ⟨s₀, h₀, hsteps⟩ := hs
  suffices h : T.Reachable s ∧ P s from h.2
  induction hsteps with
  | refl => exact ⟨Reachable.start h₀, hinit s₀ h₀⟩
  | tail _ hlast ih => exact ⟨ih.1.step hlast, hstep _ _ ih.1 ih.2 hlast⟩

/-- The simulation rule: every step of `T` is mimicked by steps of `U`. -/
theorem Reachable.simulation {R : σ → τ → Prop} (hinit : ∀ s, T.init s → ∃ t, U.init t ∧ R s t)
    (hstep : ∀ s s' t, U.Reachable t → R s t → T.step s s' → ∃ t', U.Steps t t' ∧ R s' t') {s : σ}
    (hs : T.Reachable s) : ∃ t, U.Reachable t ∧ R s t := by
  refine @Reachable.invariant σ T (fun s => ∃ t, U.Reachable t ∧ R s t) ?_ ?_ s hs
  · intro s h
    obtain ⟨t, ht, hr⟩ := hinit s h
    exact ⟨t, Reachable.start ht, hr⟩
  · rintro s s' - ⟨t, ht, hr⟩ hlast
    obtain ⟨t', hsteps, hr'⟩ := hstep s s' t ht hr hlast
    exact ⟨t', ht.steps hsteps, hr'⟩

/-- No step is enabled. -/
def Stuck (T : TransitionSystem σ) (s : σ) : Prop := ∀ t, ¬ T.step s t

end TransitionSystem

end Wire
