import Mathlib.Logic.Function.Basic
import Mathlib.Tactic.Common

/-! # A table of blocks

Allocated blocks by their address. Addresses are handed out once: a new block
never gets that of an earlier one, whether it is still there or was released.
-/

namespace SegmentTransfer

/-- Blocks with contents in `β`; those from `next` on were never handed out. -/
structure Heap (β : Type*) where
  next : Nat
  get : Nat → Option β
  fresh : ∀ a, next ≤ a → get a = none

namespace Heap

variable {β : Type*} {h : Heap β} {a b : Nat} {block : β}

/-- No block. -/
def empty : Heap β where
  next := 0
  get _ := none
  fresh _ _ := rfl

/-- A new block, at the address `next`. -/
def malloc (h : Heap β) (block : β) : Heap β where
  next := h.next + 1
  get := Function.update h.get h.next (some block)
  fresh a beyond := by
    rw [Function.update_of_ne (by omega)]
    exact h.fresh a (by omega)

/-- Releasing a block; nothing happens for a null pointer. -/
def free (h : Heap β) : Option Nat → Heap β
  | none => h
  | some a =>
      { next := h.next
        get := Function.update h.get a none
        fresh := by
          intro b beyond
          by_cases same : b = a
          · rw [same, Function.update_self]
          · rw [Function.update_of_ne same]
            exact h.fresh b beyond }

/-- A store through a pointer to a block that is there. -/
def set (h : Heap β) (a : Nat) (block : β) : Heap β where
  next := h.next
  get := if (h.get a).isSome then Function.update h.get a (some block) else h.get
  fresh := by
    intro b beyond
    split
    · rename_i there
      have apart : b ≠ a := by
        rintro rfl
        rw [h.fresh b beyond] at there
        cases there
      rw [Function.update_of_ne apart]
      exact h.fresh b beyond
    · exact h.fresh b beyond

@[simp] theorem set_next (h : Heap β) (a : Nat) (block : β) : (h.set a block).next = h.next := rfl

theorem set_get_self {old : β} (there : h.get a = some old) (block : β) :
    (h.set a block).get a = some block := by
  simp only [set, there, Option.isSome_some, if_true, Function.update_self]

theorem set_get (apart : b ≠ a) (block : β) : (h.set a block).get b = h.get b := by
  unfold set
  split
  · exact Function.update_of_ne apart ..
  · rfl

@[simp] theorem malloc_next (h : Heap β) (block : β) : (h.malloc block).next = h.next + 1 := rfl

@[simp] theorem free_next (h : Heap β) (p : Option Nat) : (h.free p).next = h.next := by
  cases p <;> rfl

@[simp] theorem malloc_get_self (h : Heap β) (block : β) :
    (h.malloc block).get h.next = some block := Function.update_self ..

theorem malloc_get (old : a < h.next) (block : β) : (h.malloc block).get a = h.get a :=
  Function.update_of_ne (Nat.ne_of_lt old) ..

@[simp] theorem free_get_self (h : Heap β) (a : Nat) : (h.free (some a)).get a = none :=
  Function.update_self ..

theorem free_get {p : Option Nat} (apart : p ≠ some a) : (h.free p).get a = h.get a := by
  cases p with
  | none => rfl
  | some b =>
      apply Function.update_of_ne
      rintro rfl
      exact apart rfl

theorem free_get_none (p : Option Nat) (gone : h.get a = none) : (h.free p).get a = none := by
  by_cases same : p = some a
  · rw [same, free_get_self]
  · rw [free_get same, gone]

theorem lt_next (there : h.get a = some block) : a < h.next := by
  by_contra beyond
  rw [h.fresh a (Nat.not_lt.mp beyond)] at there
  cases there

/-- A new block for an old one, which is released or left behind. -/
def replace (h : Heap β) (release : Bool) (old : Option Nat) (block : β) : Heap β :=
  (if release then h.free old else h).malloc block

variable {release : Bool} {old : Option Nat} {new : β}

theorem lt_replace_next (h : Heap β) (release : Bool) (old : Option Nat) (new : β) :
    h.next < (h.replace release old new).next := by
  rw [replace, malloc_next]
  cases release with
  | true => exact Nat.lt_succ_of_le (Nat.le_of_eq (free_next h old).symm)
  | false => exact Nat.lt_succ_self h.next

theorem replace_get_self : (h.replace release old new).get h.next = some new := by
  cases release with
  | true => exact free_next h old ▸ malloc_get_self (h.free old) new
  | false => exact malloc_get_self h new

theorem replace_get (there : h.get a = some block) (apart : release = true → old ≠ some a) :
    (h.replace release old new).get a = some block := by
  have below := lt_next there
  cases release with
  | true =>
      simp only [replace, if_true]
      rw [malloc_get (by rw [free_next]; exact below), free_get (apart rfl), there]
  | false => exact (malloc_get below new).trans there

theorem replace_none (gone : h.get a = none) (below : a < h.next) :
    (h.replace release old new).get a = none := by
  cases release with
  | true =>
      simp only [replace, if_true]
      rw [malloc_get (by rw [free_next]; exact below), free_get_none old gone]
  | false => exact (malloc_get below new).trans gone

theorem replace_gone (there : h.get a = some block) :
    (h.replace true (some a) new).get a = none := by
  have below := lt_next there
  simp only [replace, if_true]
  rw [malloc_get (by rw [free_next]; exact below), free_get_self]

/-- The pointer is null, or its block is there. -/
def Holds (h : Heap β) (p : Option Nat) : Prop := ∀ a, p = some a → ∃ block, h.get a = some block

variable {p : Option Nat}

theorem Holds.replace (holds : h.Holds p)
    (apart : release = true → ∀ a, p = some a → old ≠ some a) (new : β) :
    (h.replace release old new).Holds p := by
  intro a pointer
  obtain ⟨block, there⟩ := holds a pointer
  exact ⟨block, replace_get there fun go => apart go a pointer⟩

theorem holds_new (h : Heap β) (release : Bool) (old : Option Nat) (new : β) :
    (h.replace release old new).Holds (some h.next) := by
  intro a same
  cases same
  exact ⟨new, replace_get_self⟩

theorem Holds.ne_next (holds : h.Holds p) : p ≠ some h.next := by
  intro same
  obtain ⟨block, there⟩ := holds _ same
  exact Nat.lt_irrefl _ (lt_next there)

end Heap

end SegmentTransfer
