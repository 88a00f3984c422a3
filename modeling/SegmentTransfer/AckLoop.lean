import SegmentTransfer.SenderRefinement

/-! # The loop of `adapt_buffer` over a sequence of ACKs

The loop makes one iteration for each sequence number it has to go forward. Going
there in several steps is going the same way, as long as the way does not lead
once around the sequence numbers, so an ACK makes up for those before it that
were lost.
-/

namespace SegmentTransfer

open Outcome

/-- How far it is forward from one sequence number to another. -/
def ahead (smallSeq seq : Nat) : Nat := (seq + 256 - smallSeq) % 256

/-- How far a sequence of ACKs goes forward, step by step. -/
def advance : Nat → List Nat → Nat
  | _, [] => 0
  | smallSeq, seq :: acks => ahead smallSeq seq + advance seq acks

/-- `adapt_buffer` for one ACK after another, on `small_seq` and `small_ind`. -/
def adaptAll (window : Nat) : List Nat → Nat × Nat → Except Fault (Nat × Nat)
  | [], v => return v
  | seq :: acks, v => do
      let moved ← adaptBuffer v.1 seq v.2 window
      adaptAll window acks (moved.1, moved.2.1)

variable {smallSeq smallInd window last : Nat} {acks sub : List Nat}

theorem advance_mod (small : smallSeq < 256) (bytes : ∀ seq ∈ acks, seq < 256) (byte : last < 256) :
    advance smallSeq (acks ++ [last]) % 256 = ahead smallSeq last := by
  induction acks generalizing smallSeq with
  | nil => simp [advance, ahead]
  | cons seq acks ih =>
      have here := bytes seq List.mem_cons_self
      have rest := ih here fun s member => bytes s (List.mem_cons_of_mem _ member)
      simp only [List.cons_append, advance, ahead] at rest ⊢
      omega

theorem advance_cons_le (small : smallSeq < 256) {seq : Nat} (byte : seq < 256)
    (bytes : ∀ s ∈ acks, s < 256) (some : acks ≠ []) :
    advance smallSeq acks ≤ advance smallSeq (seq :: acks) := by
  cases acks with
  | nil => exact (some rfl).elim
  | cons next acks =>
      have := bytes next List.mem_cons_self
      simp only [advance, ahead]
      omega

theorem advance_sublist_le (part : sub.Sublist acks) (small : smallSeq < 256)
    (bytes : ∀ seq ∈ acks, seq < 256) (byte : last < 256) :
    advance smallSeq (sub ++ [last]) ≤ advance smallSeq (acks ++ [last]) := by
  induction part generalizing smallSeq with
  | slnil => exact Nat.le_refl _
  | @cons sub acks seq part ih =>
      have here := bytes seq List.mem_cons_self
      have others : ∀ s ∈ acks, s < 256 := fun s member => bytes s (List.mem_cons_of_mem _ member)
      have all : ∀ s ∈ acks ++ [last], s < 256 := by
        simpa [or_imp, forall_and, byte] using others
      exact Nat.le_trans (ih small others) (advance_cons_le small here all (by simp))
  | @cons_cons sub acks seq part ih =>
      have here := bytes seq List.mem_cons_self
      have rest := ih here fun s member => bytes s (List.mem_cons_of_mem _ member)
      exact Nat.add_le_add_left rest _

theorem adaptAll_spec (small : smallSeq < 256) (inside : smallInd < window)
    (bytes : ∀ seq ∈ acks, seq < 256) (byte : last < 256) :
    adaptAll window (acks ++ [last]) (smallSeq, smallInd) =
      .ok (last, (smallInd + advance smallSeq (acks ++ [last])) % window) := by
  induction acks generalizing smallSeq smallInd with
  | nil =>
      simp only [List.nil_append, adaptAll, adaptBuffer_spec small byte inside, ok_bind, pure_eq_ok,
        advance, ahead, Nat.add_zero]
  | cons seq acks ih =>
      have here := bytes seq List.mem_cons_self
      have inside' := Nat.mod_lt (smallInd + ahead smallSeq seq) (Nat.zero_lt_of_lt inside)
      have rest := ih here inside' fun s member => bytes s (List.mem_cons_of_mem _ member)
      have first := adaptBuffer_spec small here inside
      rw [← ahead] at first
      simp only [List.cons_append, adaptAll, first, ok_bind, rest, advance, Nat.mod_add_mod,
        Nat.add_assoc]

/-- The loop goes forward to the number of the ACK, one iteration a number; and of a sequence of
    ACKs that does not lead around the sequence numbers all but the last may be lost. -/
theorem ack_sequence (small : smallSeq < 256) (inside : smallInd < window) :
    (∀ seq, seq < 256 → adaptBuffer smallSeq seq smallInd window =
        .ok (seq, (smallInd + ahead smallSeq seq) % window, ahead smallSeq seq)) ∧
      ∀ acks last, (∀ seq ∈ acks, seq < 256) → last < 256 →
        advance smallSeq (acks ++ [last]) < 256 → ∀ sub : List Nat, sub.Sublist acks →
          adaptAll window (sub ++ [last]) (smallSeq, smallInd) =
            .ok (last, (smallInd + ahead smallSeq last) % window) := by
  constructor
  · intro seq byte
    exact adaptBuffer_spec small byte inside
  · intro acks last bytes byte short sub part
    have bytes' : ∀ seq ∈ sub, seq < 256 := fun seq member => bytes seq (part.subset member)
    have shorter := @advance_sublist_le smallSeq last acks sub part small bytes byte
    have ends := advance_mod small bytes' byte
    rw [Nat.mod_eq_of_lt (Nat.lt_of_le_of_lt shorter short)] at ends
    rw [adaptAll_spec small inside bytes' byte, ends]

/-- From 250 the ACKs 255 and 2; in the second run the first is lost. -/
theorem ack_sequence_sample :
    adaptAll 5 [255, 2] (250, 3) = .ok (2, 1) ∧ adaptAll 5 [2] (250, 3) = .ok (2, 1) := by
  have both := (@ack_sequence 250 3 5 (by decide) (by decide)).2 [255] 2 (by decide) (by decide)
    (by decide)
  exact ⟨both [255] (.refl _), both [] (List.nil_sublist _)⟩

end SegmentTransfer
