import Mathlib.Tactic.Common

/-! # Computations that may fail, and bounded loops

Sequential code is a function into `Except ε`. Two such computations `Agree`
when they fail alike or produce related values; agreement is preserved by
sequencing, so two programs built from matching parts agree. A `while` loop is
run with a bound on its iterations, and a rule says what a loop with a known
trace returns. `OnlyFails` bounds what a computation may fail with, part by
part. `each` makes one call after another on one state, and a rule says what a
whole sequence of calls returns.
-/

namespace SegmentTransfer.Outcome

variable {ε α β γ δ σ : Type}

/-- Both fail alike, or both return and the values are related. -/
inductive Agree (R : α → β → Prop) : Except ε α → Except ε β → Prop where
  | ok {a b} : R a b → Agree R (.ok a) (.ok b)
  | error (e : ε) : Agree R (.error e) (.error e)

namespace Agree

variable {R : α → β → Prop} {S : γ → δ → Prop}

theorem bind {x : Except ε α} {y : Except ε β} {f : α → Except ε γ} {g : β → Except ε δ}
    (first : Agree R x y) (rest : ∀ a b, R a b → Agree S (f a) (g b)) :
    Agree S (x >>= f) (y >>= g) := by
  cases first with
  | ok related => exact rest _ _ related
  | error e => exact .error e

theorem of_ok_left {x : Except ε α} {y : Except ε β} (h : Agree R x y) {a : α} (left : x = .ok a) :
    ∃ b, y = .ok b ∧ R a b := by
  cases h with
  | ok related =>
      cases left
      exact ⟨_, rfl, related⟩
  | error e => cases left

theorem of_ok_right {x : Except ε α} {y : Except ε β} (h : Agree R x y) {b : β} (right : y = .ok b) :
    ∃ a, x = .ok a ∧ R a b := by
  cases h with
  | ok related =>
      cases right
      exact ⟨_, rfl, related⟩
  | error e => cases right

theorem of_error_left {e : ε} {y : Except ε β} (h : Agree R (.error e) y) : y = .error e := by
  cases h
  rfl

theorem of_error_right {e : ε} {x : Except ε α} (h : Agree R x (.error e)) : x = .error e := by
  cases h
  rfl

end Agree

@[simp] theorem ok_bind (a : α) (f : α → Except ε β) : (Except.ok a >>= f) = f a := rfl

@[simp] theorem pure_eq_ok (a : α) : (pure a : Except ε α) = .ok a := rfl

@[simp] theorem error_bind (e : ε) (f : α → Except ε β) :
    ((Except.error e : Except ε α) >>= f) = .error e := rfl

theorem bind_eq_ok {x : Except ε α} {f : α → Except ε β} {b : β} :
    (x >>= f) = .ok b ↔ ∃ a, x = .ok a ∧ f a = .ok b := by
  cases x with
  | error e => simp
  | ok a => simp

theorem bind_eq_error {x : Except ε α} {f : α → Except ε β} {e : ε} :
    (x >>= f) = .error e ↔ x = .error e ∨ ∃ a, x = .ok a ∧ f a = .error e := by
  cases x with
  | error e => simp
  | ok a => simp

/-- A value, or the given failure. -/
def orFail (e : ε) : Option α → Except ε α
  | some a => .ok a
  | none => .error e

@[simp] theorem orFail_some (e : ε) (a : α) : orFail e (some a) = .ok a := rfl

theorem orFail_eq_ok {e : ε} {x : Option α} {a : α} : orFail e x = .ok a ↔ x = some a := by
  cases x with
  | none => simp [orFail]
  | some b => simp

/-- The computation returns, or fails with one of the given failures. -/
structure OnlyFails (P : ε → Prop) (x : Except ε α) : Prop where
  of_error : ∀ e, x = .error e → P e

namespace OnlyFails

variable {P : ε → Prop}

theorem ok (a : α) : OnlyFails P (.ok a : Except ε α) := ⟨fun _ failed => by cases failed⟩

theorem error {e : ε} (here : P e) : OnlyFails P (.error e : Except ε α) where
  of_error := by
    intro _ failed
    cases failed
    exact here

theorem bind_ok {x : Except ε α} {f : α → Except ε β} (first : OnlyFails P x)
    (rest : ∀ a, x = .ok a → OnlyFails P (f a)) : OnlyFails P (x >>= f) where
  of_error := by
    intro e failed
    rcases bind_eq_error.mp failed with failed | ⟨a, returned, failed⟩
    · exact first.of_error e failed
    · exact (rest a returned).of_error e failed

theorem bind {x : Except ε α} {f : α → Except ε β} (first : OnlyFails P x)
    (rest : ∀ a, OnlyFails P (f a)) : OnlyFails P (x >>= f) :=
  first.bind_ok fun a _ => rest a

theorem orFail_bind {e : ε} {a : Option α} {f : α → Except ε β} (here : P e)
    (rest : ∀ a, OnlyFails P (f a)) : OnlyFails P (orFail e a >>= f) := by
  cases a with
  | none => exact error here
  | some a => exact rest a

end OnlyFails

/-- `while (cond) body`, given up with `spent` after `fuel` iterations. -/
def whileLoop (cond : σ → Bool) (body : σ → Except ε σ) (spent : ε) : Nat → σ → Except ε σ
  | 0, s => if cond s then .error spent else .ok s
  | fuel + 1, s => if cond s then body s >>= whileLoop cond body spent fuel else .ok s

variable {cond : σ → Bool} {body : σ → Except ε σ} {spent : ε}

theorem Agree.whileLoop {τ : Type} {R : σ → τ → Prop} {cond' : τ → Bool} {body' : τ → Except ε τ}
    (conds : ∀ s t, R s t → cond s = cond' t)
    (bodies : ∀ s t, R s t → cond s = true → Agree R (body s) (body' t)) (fuel : Nat)
    {s : σ} {t : τ} (related : R s t) :
    Agree R (whileLoop cond body spent fuel s) (whileLoop cond' body' spent fuel t) := by
  induction fuel generalizing s t with
  | zero =>
      simp only [Outcome.whileLoop, ← conds s t related]
      split
      · exact .error spent
      · exact .ok related
  | succ fuel ih =>
      simp only [Outcome.whileLoop, ← conds s t related]
      split
      · rename_i enter
        exact (bodies s t related enter).bind fun _ _ next => ih next
      · exact .ok related

/-- A loop whose states are known up to the first one that stops it makes that many iterations:
    given as many it returns that state, and given fewer it is given up. -/
theorem whileLoop_exact {fuel r : Nat} (trace : Nat → σ)
    (go : ∀ i, i < r → cond (trace i) = true ∧ body (trace i) = .ok (trace (i + 1)))
    (stop : cond (trace r) = false) :
    whileLoop cond body spent fuel (trace 0) =
      if r ≤ fuel then .ok (trace r) else .error spent := by
  induction r generalizing fuel trace with
  | zero => cases fuel <;> simp [whileLoop, stop]
  | succ r ih =>
      obtain ⟨enter, next⟩ := go 0 (by omega)
      cases fuel with
      | zero => simp [whileLoop, enter]
      | succ fuel =>
          have rest := @ih fuel (fun i => trace (i + 1)) (fun i hi => go (i + 1) (by omega)) stop
          simp only [whileLoop, enter, if_true, next, ok_bind, Nat.succ_le_succ_iff]
          exact rest

theorem whileLoop_trace {fuel r : Nat} (trace : Nat → σ) (enough : r ≤ fuel)
    (go : ∀ i, i < r → cond (trace i) = true ∧ body (trace i) = .ok (trace (i + 1)))
    (stop : cond (trace r) = false) :
    whileLoop cond body spent fuel (trace 0) = .ok (trace r) := by
  rw [whileLoop_exact trace go stop, if_pos enough]

theorem whileLoop_variant {I : σ → Prop} (measure : σ → Nat)
    (go : ∀ s, I s → cond s = true → ∃ s', body s = .ok s' ∧ I s' ∧ measure s' < measure s)
    {fuel : Nat} {s : σ} (start : I s) (enough : measure s ≤ fuel) :
    ∃ t, whileLoop cond body spent fuel s = .ok t ∧ I t ∧ cond t = false := by
  induction fuel generalizing s with
  | zero =>
      cases enter : cond s with
      | true =>
          obtain ⟨s', -, -, less⟩ := go s start enter
          omega
      | false => exact ⟨s, by simp only [whileLoop, enter, Bool.false_eq_true, if_false], start, enter⟩
  | succ fuel ih =>
      cases enter : cond s with
      | true =>
          obtain ⟨s', next, keeps, less⟩ := go s start enter
          obtain ⟨t, rest, kept, stop⟩ := ih keeps (by omega)
          refine ⟨t, ?_, kept, stop⟩
          simp only [whileLoop, enter, if_true, next, ok_bind, rest]
      | false => exact ⟨s, by simp only [whileLoop, enter, Bool.false_eq_true, if_false], start, enter⟩

theorem whileLoop_invariant {I : σ → Prop}
    (keeps : ∀ s s', I s → cond s = true → body s = .ok s' → I s')
    {fuel : Nat} {s t : σ} (start : I s) (run : whileLoop cond body spent fuel s = .ok t) :
    I t ∧ cond t = false := by
  induction fuel generalizing s with
  | zero =>
      unfold whileLoop at run
      cases enter : cond s with
      | true => simp [enter] at run
      | false =>
          simp only [enter, Bool.false_eq_true, if_false, Except.ok.injEq] at run
          exact run ▸ ⟨start, enter⟩
  | succ fuel ih =>
      unfold whileLoop at run
      cases enter : cond s with
      | true =>
          simp only [enter, if_true, bind_eq_ok] at run
          obtain ⟨s', next, rest⟩ := run
          exact ih (keeps s s' start enter next) rest
      | false =>
          simp only [enter, Bool.false_eq_true, if_false, Except.ok.injEq] at run
          exact run ▸ ⟨start, enter⟩

/-! ## One call after another -/

variable {ι : Type}

/-- The results of the calls, in order, and the state after the last. -/
def each (call : ι → σ → Except ε (β × σ)) : List ι → σ → Except ε (List β × σ)
  | [], s => .ok ([], s)
  | i :: is, s => do
      let first ← call i s
      let others ← each call is first.2
      return (first.1 :: others.1, others.2)

/-- The calls are matched one by one with what they are to achieve: `I` says what is still to be
    done and `R` what a call's result has to do with its part of it. -/
theorem each_rule {call : ι → σ → Except ε (β × σ)} {P : α → ι → Prop} {I : List α → σ → Prop}
    {R : α → β → Prop}
    (one : ∀ a as i s, P a i → I (a :: as) s →
      ∃ b s', call i s = .ok (b, s') ∧ R a b ∧ I as s')
    {as : List α} {is : List ι} (matched : List.Forall₂ P as is) {s : σ} (start : I as s) :
    ∃ bs s', each call is s = .ok (bs, s') ∧ List.Forall₂ R as bs ∧ I [] s' := by
  induction matched generalizing s with
  | nil => exact ⟨[], s, rfl, .nil, start⟩
  | cons here _ ih =>
      obtain ⟨b, s₁, called, related, next⟩ := one _ _ _ _ here start
      obtain ⟨bs, s', others, rest, last⟩ := ih next
      refine ⟨b :: bs, s', ?_, .cons related rest, last⟩
      simp only [each, called, ok_bind, others, pure_eq_ok]

end SegmentTransfer.Outcome
