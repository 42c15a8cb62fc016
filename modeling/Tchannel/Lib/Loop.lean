import Mathlib.Data.Nat.Notation

/-!
# Loops with a bound on their rounds

The body of a loop goes on with a new state or ends it with a result; `run` gives up after a number of rounds.
What the loop is to compute is given as a function of its state that no round changes. If every round also
makes a measure smaller, the loop returns it, in no more rounds than the measure says (`run_eq`).
-/

namespace Wire.Loop

variable {σ ρ : Type*}

def run (body : σ → σ ⊕ ρ) : ℕ → σ → Option ρ
  | 0, _ => none
  | n + 1, s =>
    match body s with
    | .inl s' => run body n s'
    | .inr r => some r

/-- `f` is what is left to compute, `μ` bounds how long that takes. -/
structure Computes (body : σ → σ ⊕ ρ) (f : σ → ρ) (μ : σ → ℕ) : Prop where
  next : ∀ {s s'}, body s = .inl s' → f s = f s' ∧ μ s' < μ s
  result : ∀ {s r}, body s = .inr r → f s = r

theorem Computes.run_eq {body : σ → σ ⊕ ρ} {f : σ → ρ} {μ : σ → ℕ} (h : Computes body f μ) {n : ℕ} {s : σ}
    (hn : μ s < n) : run body n s = some (f s) := by
  induction n generalizing s with
  | zero => exact absurd hn (Nat.not_lt_zero _)
  | succ n ih =>
    rw [run]
    cases hbody : body s with
    | inl s' =>
      obtain ⟨heq, hlt⟩ := h.next hbody
      show run body n s' = _
      rw [heq]
      exact ih (Nat.lt_of_lt_of_le hlt (Nat.le_of_lt_succ hn))
    | inr r =>
      show some r = _
      rw [h.result hbody]

end Wire.Loop
