import Mathlib.Algebra.BigOperators.Group.List.Basic
import Mathlib.Algebra.GroupWithZero.Nat
import Mathlib.Data.Prod.Lex
import Mathlib.Logic.Hydra
import Mathlib.Logic.Relation
import Mathlib.Order.WellFounded

/-!
# Runs that come to an end

Where every step makes a measure smaller there are no endless runs, and from every state a run leads to one in
which nothing moves any more (`exists_rest`). A measure may have two parts, of which the second may grow by any
amount when the first gets smaller. The measure of a list of parts is the sum of theirs, and one part moves at a
time.
-/

namespace Wire

variable {σ α : Type*} {R : σ → σ → Prop}

/-- The order of measures with two parts. -/
def Less : ℕ × ℕ → ℕ × ℕ → Prop := Prod.Lex (· < ·) (· < ·)

theorem Less.of_lt {m n : ℕ × ℕ} (h : m.1 < n.1) : Less m n := Prod.Lex.left _ _ h

theorem Less.of_le {m n : ℕ × ℕ} (h : m.1 ≤ n.1) (h' : m.2 < n.2) : Less m n := by
  rcases Nat.lt_or_eq_of_le h with hlt | heq
  · exact .of_lt hlt
  · obtain ⟨a, b⟩ := m
    obtain ⟨c, d⟩ := n
    obtain rfl : a = c := heq
    exact Prod.Lex.right _ h'

theorem wellFounded_of_less (measure : σ → ℕ × ℕ) (h : ∀ s t, R s t → Less (measure t) (measure s)) :
    WellFounded (Function.swap R) :=
  Subrelation.wf (fun {t s} hst => h s t hst)
    (InvImage.wf measure (WellFounded.prod_lex Nat.lt_wfRel.wf Nat.lt_wfRel.wf))

theorem exists_rest (h : WellFounded (Function.swap R)) (s : σ) :
    ∃ t, Relation.ReflTransGen R s t ∧ ∀ u, ¬ R t u := by
  obtain ⟨t, hst, hmin⟩ := h.has_min {t | Relation.ReflTransGen R s t} ⟨s, .refl⟩
  exact ⟨t, hst, fun u htu => hmin u (hst.tail htu) htu⟩

/-- A system ends if another one that ends can follow it, step by step, but for steps that make a measure
smaller. -/
theorem wellFounded_of_simulation {τ : Type*} {U : τ → τ → Prop} {r : α → α → Prop} (Rel : σ → τ → Prop)
    (measure : σ → α) (hr : WellFounded r) (hU : WellFounded (Function.swap U)) (hrel : ∀ s s', R s s' → ∃ t, Rel s t)
    (hstep : ∀ s s' t, Rel s t → R s s' →
      (∃ t', Relation.TransGen U t t' ∧ Rel s' t') ∨ (Rel s' t ∧ r (measure s') (measure s))) :
    WellFounded (Function.swap R) := by
  have hacc : ∀ t n s, Rel s t → measure s = n → Acc (Function.swap R) s := by
    intro t
    induction t using hU.transGen.induction with
    | _ t iht =>
      intro n
      induction n using hr.induction with
      | _ n ihn =>
        intro s hst hn
        refine Acc.intro s fun s' hmove => ?_
        rcases hstep s s' t hst hmove with ⟨t', hsteps, hst'⟩ | ⟨hst', hlt⟩
        · exact iht t' (Relation.transGen_swap.2 hsteps) _ s' hst' rfl
        · exact ihn _ (hn ▸ hlt) s' hst' rfl
  refine ⟨fun s => Acc.intro s fun s' hmove => ?_⟩
  obtain ⟨t, hst⟩ := hrel s s' hmove
  exact (hacc t _ s hst rfl).inv hmove

/-! ### Parts -/

/-- One part takes a step. -/
def PartSteps (R : σ → σ → Prop) (l l' : List σ) : Prop :=
  ∃ (k : ℕ) (a b : σ), l[k]? = some a ∧ R a b ∧ l' = l.set k b

theorem coe_set_add {l : List σ} {k : ℕ} {a : σ} (b : σ) (h : l[k]? = some a) :
    ((l.set k b : List σ) : Multiset σ) + {a} = (l : Multiset σ) + {b} := by
  induction l generalizing k with
  | nil => cases h
  | cons x l ih =>
    cases k with
    | zero =>
      obtain rfl := Option.some.inj h
      rw [List.set_cons_zero, ← Multiset.cons_coe, ← Multiset.cons_coe, ← Multiset.singleton_add b,
        ← Multiset.singleton_add x]
      ac_rfl
    | succ k =>
      rw [List.set_cons_succ, ← Multiset.cons_coe, ← Multiset.cons_coe, Multiset.cons_add, Multiset.cons_add]
      exact congrArg _ (ih h)

theorem PartSteps.wellFounded (h : WellFounded (Function.swap R)) : WellFounded (Function.swap (PartSteps R)) := by
  refine Subrelation.wf (fun {l' l} hstep => ?_) (InvImage.wf (fun l : List σ => (l : Multiset σ)) h.cutExpand)
  obtain ⟨k, a, b, ha, hab, rfl⟩ := hstep
  refine ⟨{b}, a, fun c hc => ?_, coe_set_add b ha⟩
  rw [Multiset.mem_singleton.1 hc]
  exact hab

theorem sum_map_set (measure : α → ℕ) {l : List α} {k : ℕ} {a : α} (b : α) (h : l[k]? = some a) :
    ((l.set k b).map measure).sum + measure a = (l.map measure).sum + measure b := by
  induction l generalizing k with
  | nil => cases h
  | cons x l ih =>
    cases k with
    | zero =>
      obtain rfl := Option.some.inj h
      simp only [List.set_cons_zero, List.map_cons, List.sum_cons]
      omega
    | succ k =>
      have ih := ih h
      simp only [List.set_cons_succ, List.map_cons, List.sum_cons]
      omega

end Wire
