import Mathlib.Tactic.Common

/-! # Labelled transition systems

Runs, reachable states, the invariant rule, runs whose steps all meet a
condition, and label-preserving simulation.
-/

namespace SegmentTransfer

universe u v w

/-- States, labelled steps between them and where runs begin. -/
structure Transition (σ : Type u) (α : Type v) where
  init : σ → Prop
  step : σ → α → σ → Prop

namespace Transition

variable {σ : Type u} {τ : Type w} {α : Type v}

/-- The run with the given labels from one state to another. -/
inductive Run (M : Transition σ α) : σ → List α → σ → Prop where
  | nil (s : σ) : Run M s [] s
  | cons {s t u : σ} {a : α} {as : List α} : M.step s a t → Run M t as u → Run M s (a :: as) u

namespace Run

variable {M : Transition σ α}

theorem single {s t : σ} {a : α} (h : M.step s a t) : M.Run s [a] t := .cons h (.nil t)

theorem append {s t u : σ} {as bs : List α} (left : M.Run s as t) (right : M.Run t bs u) :
    M.Run s (as ++ bs) u := by
  induction left with
  | nil => exact right
  | cons first _ ih => exact .cons first (ih right)

theorem snoc {s t u : σ} {as : List α} {a : α} (run : M.Run s as t) (last : M.step t a u) :
    M.Run s (as ++ [a]) u := run.append (.single last)

/-- What every step preserves, a run preserves. -/
theorem preserves {P : σ → Prop} (step : ∀ s a t, P s → M.step s a t → P t)
    {s t : σ} {as : List α} (run : M.Run s as t) (start : P s) : P t := by
  induction run with
  | nil => exact start
  | cons first _ ih => exact ih (step _ _ _ start first)

end Run

/-- Some run from an initial state ends here. -/
def Reachable (M : Transition σ α) (t : σ) : Prop := ∃ s as, M.init s ∧ M.Run s as t

theorem Reachable.of_init {M : Transition σ α} {s : σ} (h : M.init s) : M.Reachable s :=
  ⟨s, [], h, .nil s⟩

theorem Reachable.step {M : Transition σ α} {s t : σ} {a : α} (h : M.Reachable s)
    (next : M.step s a t) : M.Reachable t := by
  obtain ⟨s₀, as, start, run⟩ := h
  exact ⟨s₀, as ++ [a], start, run.snoc next⟩

/-- The invariant rule. -/
theorem Reachable.induct {M : Transition σ α} {P : σ → Prop} (init : ∀ s, M.init s → P s)
    (step : ∀ s a t, P s → M.step s a t → P t) {t : σ} (h : M.Reachable t) : P t := by
  obtain ⟨s, as, start, run⟩ := h
  exact run.preserves step (init s start)

/-- The same system with only those steps that meet a condition. -/
def restrict (M : Transition σ α) (C : σ → α → Prop) : Transition σ α where
  init := M.init
  step s a t := M.step s a t ∧ C s a

/-- A weaker condition admits the same steps. -/
theorem Run.weaken {M : Transition σ α} {C D : σ → α → Prop} {s t : σ} {as : List α}
    (run : (M.restrict C).Run s as t) (weaker : ∀ s a, C s a → D s a) :
    (M.restrict D).Run s as t := by
  induction run with
  | nil => exact .nil _
  | cons first _ ih => exact .cons ⟨first.1, weaker _ _ first.2⟩ ih

theorem Reachable.weaken {M : Transition σ α} {C D : σ → α → Prop} {t : σ}
    (h : (M.restrict C).Reachable t) (weaker : ∀ s a, C s a → D s a) : (M.restrict D).Reachable t := by
  obtain ⟨s, as, start, run⟩ := h
  exact ⟨s, as, start, run.weaken weaker⟩

/-- Without the condition there are only more runs. -/
theorem Reachable.of_restrict {M : Transition σ α} {C : σ → α → Prop} {t : σ}
    (h : (M.restrict C).Reachable t) : M.Reachable t := by
  apply h.induct
  · intro s start
    exact .of_init start
  · intro s a t reach next
    exact reach.step next.1

/-- A relation under which every step of `M` is matched by an equally labelled step of `N`. -/
structure Simulates (M : Transition σ α) (N : Transition τ α) (R : σ → τ → Prop) : Prop where
  init : ∀ s, M.init s → ∃ t, N.init t ∧ R s t
  step : ∀ s t a s', R s t → M.step s a s' → ∃ t', N.step t a t' ∧ R s' t'

namespace Simulates

variable {M : Transition σ α} {N : Transition τ α} {R : σ → τ → Prop}

theorem run (sim : Simulates M N R) {s s' : σ} {t : τ} {as : List α} (related : R s t)
    (h : M.Run s as s') : ∃ t', N.Run t as t' ∧ R s' t' := by
  induction h generalizing t with
  | nil => exact ⟨t, .nil t, related⟩
  | cons first _ ih =>
      obtain ⟨t₁, next, related₁⟩ := sim.step _ _ _ _ related first
      obtain ⟨t', rest, related'⟩ := ih related₁
      exact ⟨t', .cons next rest, related'⟩

theorem reachable (sim : Simulates M N R) {s : σ} (h : M.Reachable s) :
    ∃ t, N.Reachable t ∧ R s t := by
  obtain ⟨s₀, as, start, run⟩ := h
  obtain ⟨t₀, start', related⟩ := sim.init s₀ start
  obtain ⟨t, run', related'⟩ := sim.run related run
  exact ⟨t, ⟨t₀, as, start', run'⟩, related'⟩

/-- Simulation survives a condition on the steps that the relation carries across. -/
theorem restrict (sim : Simulates M N R) (C : σ → α → Prop) (D : τ → α → Prop)
    (carry : ∀ s t a, R s t → C s a → D t a) :
    Simulates (M.restrict C) (N.restrict D) R where
  init := sim.init
  step := by
    intro s t a s' related next
    obtain ⟨t', next', related'⟩ := sim.step s t a s' related next.1
    exact ⟨t', ⟨next', carry s t a related next.2⟩, related'⟩

end Simulates

end Transition

end SegmentTransfer
