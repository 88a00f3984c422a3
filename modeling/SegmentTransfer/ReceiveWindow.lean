import SegmentTransfer.Receiver

/-! # The receive window

`add_buffer` for any window. A packet is to be stored when its number is less
than `window` ahead of the one expected, modulo 256. The test for numbers that
wrap misses the case in which the last number of the window is 256, that is 0.
-/

namespace SegmentTransfer

/-- How far a number is ahead of the one expected, modulo 256. -/
def distance (seqExp seqRcv : Nat) : Nat := (seqRcv + 256 - seqExp) % 256

/-- A slot holds the length and the payload of a packet. -/
def Slots.Holds (slots : Slots) (i : Nat) (pkt : Pkt) : Prop :=
  slots.len i = (pktGetLength pkt).toNat ∧ slots.payload i = pktGetPayload pkt

/-- Two pairs of arrays agree everywhere but at one index. -/
def Slots.SameBut (slots slots' : Slots) (i : Nat) : Prop :=
  ∀ j ≠ i, slots'.len j = slots.len j ∧ slots'.payload j = slots.payload j

/-- The packet is stored when it is in the window, and nothing changes when it is not. -/
def StoresExactly (index seqRcv seqExp : Nat) (pkt : Pkt) (window : Nat) (slots : Slots) : Prop :=
  let d := distance seqExp seqRcv
  let i := (index + d) % window
  let slots' := addBuffer index seqRcv seqExp pkt window slots
  (d < window → slots'.Holds i pkt ∧ slots.SameBut slots' i) ∧ (window ≤ d → slots' = slots)

variable {index seqRcv seqExp window : Nat}

theorem Slots.SameBut.refl (slots : Slots) (i : Nat) : slots.SameBut slots i :=
  fun _ _ => ⟨rfl, rfl⟩

theorem Slots.store_sameBut (slots : Slots) (i : Nat) (len : Int) (payload : Payload) :
    slots.SameBut (slots.store i len payload) i := by
  intro j apart
  exact ⟨Function.update_of_ne apart .., Function.update_of_ne apart ..⟩

theorem realInd_eq (exp : seqExp < 256) (rcv : seqRcv < 256) :
    realInd index seqRcv seqExp window = (index + distance seqExp seqRcv) % window := by
  have same : (if seqRcv < seqExp then seqRcv + 256 else seqRcv) - seqExp =
      distance seqExp seqRcv := by
    unfold distance
    split <;> omega
  rw [realInd, same]

theorem inWindow_iff (positive : 0 < window) (small : window ≤ maxWindowSize) (exp : seqExp < 256)
    (rcv : seqRcv < 256) :
    InWindow seqRcv seqExp window ↔
      distance seqExp seqRcv < window ∧ ¬ (seqExp + window = 257 ∧ seqRcv = 0) := by
  simp only [maxWindowSize] at small
  unfold InWindow distance
  omega

/-- `add_buffer` stores exactly what is in the window, unless the window ends with the number 0,
    that is the number received and its slot does not hold the packet already. -/
theorem addBuffer_exact_iff (positive : 0 < window) (small : window ≤ maxWindowSize)
    (exp : seqExp < 256) (rcv : seqRcv < 256) (index : Nat) (pkt : Pkt) (slots : Slots) :
    StoresExactly index seqRcv seqExp pkt window slots ↔
      (seqExp + window = 257 ∧ seqRcv = 0 →
        slots.Holds ((index + (window - 1)) % window) pkt) := by
  have test := inWindow_iff positive small exp rcv
  simp only [maxWindowSize] at small
  simp only [StoresExactly, addBuffer, realInd_eq exp rcv]
  by_cases accepted : InWindow seqRcv seqExp window
  · obtain ⟨inside, regular⟩ := test.mp accepted
    rw [if_pos accepted]
    constructor
    · intro _ edge
      exact (regular edge).elim
    · intro _
      refine ⟨fun _ => ⟨⟨?_, ?_⟩, slots.store_sameBut _ _ _⟩, fun beyond => ?_⟩
      · exact Function.update_self ..
      · exact Function.update_self ..
      · omega
  · rw [if_neg accepted]
    constructor
    · intro exact_ edge
      -- at the edge the distance is `window - 1`, and nothing was stored
      have last : distance seqExp seqRcv = window - 1 := by
        unfold distance
        omega
      rw [last] at exact_
      exact (exact_.1 (by omega)).1
    · intro held
      refine ⟨fun inside => ?_, fun _ => rfl⟩
      have edge : seqExp + window = 257 ∧ seqRcv = 0 := by
        by_contra regular
        exact accepted (test.mpr ⟨inside, regular⟩)
      have last : distance seqExp seqRcv = window - 1 := by
        unfold distance
        omega
      rw [last]
      exact ⟨held edge, .refl slots _⟩

/-- With a window of three, 255 expected and 1 received the segment is stored two slots on. -/
theorem addBuffer_exact_iff_sample :
    StoresExactly 1 1 255 (pktNew ⟨0, 0, 0, 0, 0, 0, 0, .null, 0⟩) 3 .initial := by
  have exact_ := @addBuffer_exact_iff 1 255 3 (by omega) (by simp [maxWindowSize]) (by omega)
    (by omega) 1 (pktNew ⟨0, 0, 0, 0, 0, 0, 0, .null, 0⟩) .initial
  apply exact_.mpr
  omega

/-- With 254 expected and a window of three, 0 is in the window and is not stored. -/
theorem addBuffer_misses_zero :
    ¬ ∀ (window index seqExp seqRcv : Nat) (pkt : Pkt) (slots : Slots), 0 < window →
      window ≤ maxWindowSize → index < window → seqExp < 256 → seqRcv < 256 →
      StoresExactly index seqRcv seqExp pkt window slots := by
  intro exact_
  let pkt : Pkt := pktNew ⟨0, 0, 0, 0, 0, 0, 0, .null, 0⟩
  obtain ⟨stored, -⟩ := exact_ 3 2 254 0 pkt .initial (by omega) (by simp [maxWindowSize]) (by omega)
    (by omega) (by omega)
  obtain ⟨⟨length, -⟩, -⟩ := stored (show distance 254 0 < 3 by decide)
  rw [addBuffer, if_neg (by decide)] at length
  exact absurd length (by decide)

end SegmentTransfer
