import Mathlib.Logic.Function.Basic
import Mathlib.Tactic.Common

/-! # A ring of slots

Items are numbered from zero, and item `m` is put into slot `m % size`. The last
`size` of them are always there. A ring that is enlarged leaves them in their
slots, so items that went around its end are no longer where they are looked for.
-/

namespace SegmentTransfer.Ring

variable {α : Type*} {slots : Nat → Option α} {item : Nat → α} {size n : Nat}

theorem slot_ne {m n : Nat} (before : m < n) (close : n < m + size) : m % size ≠ n % size := by
  intro same
  have zero := Nat.sub_mod_eq_zero_of_mod_eq same.symm
  rw [Nat.mod_eq_of_lt (by omega)] at zero
  omega

/-- Of the first `n` items the last `size` are in their slots. -/
def Recent (slots : Nat → Option α) (item : Nat → α) (size n : Nat) : Prop :=
  ∀ m < n, n ≤ m + size → slots (m % size) = some (item m)

namespace Recent

theorem none (slots : Nat → Option α) (item : Nat → α) (size : Nat) : Recent slots item size 0 :=
  fun _ before => (Nat.not_lt_zero _ before).elim

theorem push (h : Recent slots item size n) :
    Recent (Function.update slots (n % size) (some (item n))) item size (n + 1) := by
  intro m before close
  by_cases last : m = n
  · rw [last, Function.update_self]
  · have apart : m % size ≠ n % size := slot_ne (by omega) (by omega)
    rw [Function.update_of_ne apart]
    apply h m
    · omega
    · omega

theorem resize (h : Recent slots item 1 n) (few : n ≤ 1) (size : Nat) : Recent slots item size n := by
  intro m before close
  have first : m = 0 := by omega
  have here := h m before (by omega)
  rw [first] at here ⊢
  rw [Nat.zero_mod] at here ⊢
  exact here

theorem latest (h : Recent slots item size n) (positive : 0 < size) {a : Nat} (before : a < n) :
    ∃ m, a ≤ m ∧ m < n ∧ slots (a % size) = some (item m) := by
  have split := Nat.div_add_mod (n - 1 - a) size
  have rest := Nat.mod_lt (n - 1 - a) positive
  have here := h (a + size * ((n - 1 - a) / size)) (by omega) (by omega)
  rw [Nat.add_mul_mod_self_left] at here
  refine ⟨a + size * ((n - 1 - a) / size), ?_, ?_, here⟩
  · omega
  · omega

end Recent

/-- The first `n` items are in the `n` slots from `first` on, around the ring. -/
def From (slots : Nat → Option α) (item : Nat → α) (size first n : Nat) : Prop :=
  ∀ i < n, slots ((first + i) % size) = some (item i)

/-- After the first `j` items are dropped and the ring is enlarged, the others are where they are
    looked for exactly when none of the `n` went around the end of the old ring. -/
theorem From.grown_iff {first size' j : Nat} (h : From slots item size first n)
    (inside : first < size) (fits : n ≤ size) (larger : size < size')
    (beyond : ∀ i, size ≤ i → slots i = none)
    (apart : ∀ i < n, ∀ m < n, item i = item m → i = m) (left : j < n) :
    From slots (fun i => item (j + i)) size' ((first + j) % size') (n - j) ↔ first + n ≤ size := by
  constructor
  · intro found
    by_contra around
    by_cases early : j ≤ size - first
    · -- the first item that went around is looked for in the first new slot
      have here := found (size - first - j) (by omega)
      rw [Nat.mod_add_mod, show first + j + (size - first - j) = size by omega,
        Nat.mod_eq_of_lt larger, beyond size (Nat.le_refl _)] at here
      cases here
    · -- the first item that is left went around
      have here := found 0 (by omega)
      rw [Nat.add_zero, Nat.mod_mod] at here
      by_cases new : first + j < size'
      · rw [Nat.mod_eq_of_lt new, beyond _ (by omega)] at here
        cases here
      · have other := h (j + size - size') (by omega)
        rw [show first + (j + size - size') = first + j - size' + size by omega,
          Nat.add_mod_right, Nat.mod_eq_of_lt (by omega)] at other
        rw [Nat.mod_eq_sub_mod (by omega), Nat.mod_eq_of_lt (by omega), other] at here
        have same := apart _ (by omega) _ (by omega) (Option.some.inj here)
        omega
  · intro straight i few
    have here := h (j + i) (by omega)
    rw [Nat.mod_eq_of_lt (by omega)] at here
    rw [Nat.mod_add_mod, Nat.mod_eq_of_lt (by omega), Nat.add_assoc]
    exact here

end SegmentTransfer.Ring
