import Mathlib.Order.WellFounded
import SegmentTransfer.Library.Transition

/-! # What runs can still reach

A state leads to a property when some run from it ends with the property.
Progress in a well-founded order gives such runs, and simulations carry them over.
-/

namespace SegmentTransfer.Transition

universe u v w

variable {σ : Type u} {τ : Type w} {α : Type v}

/-- Some run from the state ends where `P` holds. -/
def Leads (M : Transition σ α) (P : σ → Prop) (s : σ) : Prop := ∃ as t, M.Run s as t ∧ P t

namespace Leads

variable {M : Transition σ α} {P Q : σ → Prop} {s t : σ}

theorem here (h : P s) : M.Leads P s := ⟨[], s, .nil s, h⟩

theorem step {a : α} (next : M.step s a t) (h : M.Leads P t) : M.Leads P s := by
  obtain ⟨as, u, run, last⟩ := h
  exact ⟨a :: as, u, .cons next run, last⟩

theorem mono (h : M.Leads P s) (weaker : ∀ t, P t → Q t) : M.Leads Q s := by
  obtain ⟨as, t, run, last⟩ := h
  exact ⟨as, t, run, weaker t last⟩

/-- One run after another. -/
theorem trans (h : M.Leads P s) (further : ∀ t, P t → M.Leads Q t) : M.Leads Q s := by
  obtain ⟨as, t, run, last⟩ := h
  obtain ⟨bs, u, more, last'⟩ := further t last
  exact ⟨as ++ bs, u, run.append more, last'⟩

/-- Where every state leads to the goal or further down, the goal is reached. -/
theorem rounds {β : Type*} [LT β] [WellFoundedLT β] {I : σ → Prop} (measure : σ → β)
    (progress : ∀ s, I s → M.Leads (fun t => P t ∨ I t ∧ measure t < measure s) s)
    (start : I s) : M.Leads P s := by
  induction h : measure s using WellFoundedLT.induction generalizing s with
  | ind m ih =>
      refine (progress s start).trans fun t reached => ?_
      rcases reached with done | ⟨kept, less⟩
      · exact .here done
      · exact ih (measure t) (h ▸ less) kept rfl

/-- The same where each state that is not there yet has a step down. -/
theorem descend {β : Type*} [LT β] [WellFoundedLT β] {I : σ → Prop} (measure : σ → β)
    (progress : ∀ s, I s → P s ∨ ∃ a t, M.step s a t ∧ I t ∧ measure t < measure s)
    (start : I s) : M.Leads P s := by
  refine rounds measure (fun s kept => ?_) start
  rcases progress s kept with done | ⟨a, t, next, kept', less⟩
  · exact .here (.inl done)
  · exact .step next (.here (.inr ⟨kept', less⟩))

/-- With a weaker condition on the steps no run is lost. -/
theorem weaken {C D : σ → α → Prop} (h : (M.restrict C).Leads P s)
    (weaker : ∀ s a, C s a → D s a) : (M.restrict D).Leads P s := by
  obtain ⟨as, t, run, last⟩ := h
  exact ⟨as, t, run.weaken weaker, last⟩

/-- The other side of a simulation leads to whatever the goal means there. -/
theorem transfer {N : Transition τ α} {R : σ → τ → Prop} (sim : Simulates M N R) {b : τ}
    (related : R s b) {Q : τ → Prop} (h : M.Leads P s) (carry : ∀ s b, R s b → P s → Q b) :
    N.Leads Q b := by
  obtain ⟨as, t, run, last⟩ := h
  obtain ⟨c, run', related'⟩ := sim.run related run
  exact ⟨as, c, run', carry t c related' last⟩

end Leads

end SegmentTransfer.Transition
