import SegmentTransfer.Network
import SegmentTransfer.HeaderCalls
import SegmentTransfer.HeldSlots

/-! # Where what is written came from

A receiver to which anything may come. Of every data packet that it takes the
number and the payload are kept, with the number of segments written before.
What was written is then known: at each place the payload of the last packet
that fitted it, and as many places as there is no gap.
-/

namespace SegmentTransfer

open Bytes Outcome

/-- With `e` segments written, a packet numbered `n` modulo 256 is taken as segment `k`: the next one
    or one of the two after it. The second of these is refused when the number of the next is 254. -/
structure Suits (n e k : Nat) : Prop where
  number : n % 256 = k % 256
  lower : e ≤ k
  upper : k ≤ e + 2
  reached : e % 256 = 254 → k ≠ e + 2

/-- A data packet that was taken, and how many segments had been written before. -/
structure Heard where
  seqnum : UInt8
  payload : List UInt8
  written : Nat

/-- The packet was taken as segment `k`. -/
def Heard.Fits (h : Heard) (k : Nat) : Prop := Suits h.seqnum.toNat h.written k

/-- Of all that was heard `h` is the last, at `j`, that fits segment `k`. -/
structure Latest (heard : List Heard) (k j : Nat) (h : Heard) : Prop where
  here : heard[j]? = some h
  fits : h.Fits k
  last : ∀ j' h', j < j' → heard[j']? = some h' → ¬ h'.Fits k

theorem getElem?_concat_cases {α : Type} {l : List α} {x y : α} {i : Nat}
    (there : (l ++ [x])[i]? = some y) : l[i]? = some y ∨ i = l.length ∧ x = y := by
  rcases Nat.lt_trichotomy i l.length with inside | rfl | beyond
  · rw [List.getElem?_append_left inside] at there
    exact .inl there
  · rw [List.getElem?_concat_length, Option.some.injEq] at there
    exact .inr ⟨rfl, there⟩
  · have := (List.getElem?_eq_some_iff.mp there).1
    rw [List.length_append, List.length_singleton] at this
    omega

section

variable {n n' e k k' : Nat}

theorem Suits.unique (suits : Suits n e k) (suits' : Suits n e k') : k = k' := by
  have := suits.number.symm.trans suits'.number
  have := suits.lower
  have := suits.upper
  have := suits'.lower
  have := suits'.upper
  omega

theorem Suits.congr (suits : Suits n e k) (same : n' % 256 = n % 256) : Suits n' e k :=
  { suits with number := same.trans suits.number }

theorem inWindow_suits :
    InWindow (n % 256) (e % 256) receiverWindow ↔ ∃ k, Suits n e k := by
  constructor
  · intro accepted
    refine ⟨e + (n % 256 + 256 - e % 256) % 256, ?_, ?_, ?_, ?_⟩
    all_goals
      simp only [InWindow, receiverWindow] at accepted
      omega
  · rintro ⟨k, number, lower, upper, reached⟩
    simp only [InWindow, receiverWindow]
    omega

theorem Suits.realInd (suits : Suits n e k) :
    realInd (e % 3) (n % 256) (e % 256) receiverWindow = k % 3 := by
  obtain ⟨number, lower, upper, reached⟩ := suits
  simp only [SegmentTransfer.realInd, receiverWindow]
  split <;> omega

end

variable {heard : List Heard} {h : Heard} {j k : Nat}

theorem Latest.append (latest : Latest heard k j h) {new : Heard} (misfit : ¬ new.Fits k) :
    Latest (heard ++ [new]) k j h where
  here := by
    rw [List.getElem?_append_left (List.getElem?_eq_some_iff.mp latest.here).1]
    exact latest.here
  fits := latest.fits
  last := by
    intro j' h' later there
    rcases getElem?_concat_cases there with old | ⟨-, rfl⟩
    · exact latest.last j' h' later old
    · exact misfit

theorem Latest.new (heard : List Heard) (fits : h.Fits k) :
    Latest (heard ++ [h]) k heard.length h where
  here := List.getElem?_concat_length
  fits := fits
  last := by
    intro j' h' later there
    have := (List.getElem?_eq_some_iff.mp there).1
    rw [List.length_append, List.length_singleton] at this
    omega

/-! ## The slots -/

namespace Protocol.Receiver

variable {a a' : Receiver} {n : Nat} {Q Q' : Nat → Nat → Prop}

theorem place_slots (low : a.done ≤ k) (high : k ≤ a.done + 2) :
    (Suits n a.done k → (a.place n).slots (k % 3) = some n) ∧
      (¬ Suits n a.done k → (a.place n).slots (k % 3) = a.slots (k % 3)) := by
  unfold place
  split
  · rename_i accepted
    obtain ⟨k', suits'⟩ := inWindow_suits.mp accepted
    simp only [suits'.realInd]
    constructor
    · intro suits
      rw [suits'.unique suits, Function.update_self]
    · intro other
      have apart : k ≠ k' := fun same => other (same ▸ suits')
      have := suits'.lower
      have := suits'.upper
      exact Function.update_of_ne (by omega) ..
  · rename_i rejected
    exact ⟨fun suits => (rejected (inWindow_suits.mpr ⟨k, suits⟩)).elim, fun _ => rfl⟩

theorem writeSlot_ok (next : a.writeSlot = .ok a') :
    ∃ m, a.slots (a.done % 3) = some m ∧ a'.written = a.written ++ [m] ∧ a'.done = a.done + 1 ∧
      a'.slots ((a.done + 3) % 3) = none ∧
      ∀ k, a.done < k → k ≤ a.done + 2 → a'.slots (k % 3) = a.slots (k % 3) := by
  obtain ⟨n, there, rest⟩ := bind_eq_ok.mp next
  cases rest
  cases content : a.slots (a.done % 3) with
  | none => simp [content, orFail] at there
  | some m =>
      simp only [content, orFail_some, Except.ok.injEq] at there
      subst there
      refine ⟨m, rfl, rfl, ?_, ?_, fun k low high => Function.update_of_ne (by omega) ..⟩
      · simp only [done, List.length_append, List.length_singleton]
      · rw [Nat.add_mod_right]
        exact Function.update_self ..

/-- What is written or held at each place meets a condition on the place and the segment. -/
structure Each (Q : Nat → Nat → Prop) (a : Receiver) : Prop where
  written : ∀ k m, a.written[k]? = some m → Q k m
  held : ∀ k m, a.done ≤ k → k ≤ a.done + 2 → a.slots (k % 3) = some m → Q k m

theorem Each.start (Q : Nat → Nat → Prop) : Each Q .start where
  written := fun k m there => by cases there
  held := fun k m _ _ there => by cases there

theorem Each.congr (each : Each Q a) (written : a'.written = a.written) (slots : a'.slots = a.slots) :
    Each Q a' where
  written := by rw [written]; exact each.written
  held := by rw [done, written, slots]; exact each.held

theorem Each.place (each : Each Q a) (old : ∀ k m, Q k m → ¬ Suits n a.done k → Q' k m)
    (new : ∀ k, Suits n a.done k → Q' k n) : Each Q' (a.place n) where
  written := by
    intro k m there
    rw [place_written] at there
    have inside : k < a.done := (List.getElem?_eq_some_iff.mp there).1
    exact old k m (each.written k m there) fun suits => Nat.not_le.mpr inside suits.lower
  held := by
    intro k m low high there
    rw [done, place_written] at low high
    obtain ⟨placed, kept⟩ := @place_slots k a n low high
    by_cases suits : Suits n a.done k
    · rw [placed suits, Option.some.injEq] at there
      exact there ▸ new k suits
    · rw [kept suits] at there
      exact old k m (each.held k m low high there) suits

theorem Each.writeSlot (each : Each Q a) (next : a.writeSlot = .ok a') : Each Q a' := by
  obtain ⟨m, here, written, done', free, kept⟩ := writeSlot_ok next
  refine { written := fun k m' there => ?_, held := fun k m' low high there => ?_ }
  · rw [written] at there
    rcases getElem?_concat_cases there with old | ⟨rfl, rfl⟩
    · exact each.written k m' old
    · exact each.held a.done m (Nat.le_refl _) (by omega) here
  · rw [done'] at low high
    rcases Nat.lt_or_ge (a.done + 2) k with last | inside
    · obtain rfl : k = a.done + 3 := by omega
      rw [free] at there
      cases there
    · rw [kept k low inside] at there
      exact each.held k m' (by omega) inside there

/-- Where nothing is held, nothing heard fits. -/
structure Filed (heard : List Heard) (a : Receiver) : Prop
    extends Each (fun k m => ∃ h, Latest heard k (m / 256) h) a where
  free : ∀ k, a.done ≤ k → k ≤ a.done + 2 → a.slots (k % 3) = none → ∀ h ∈ heard, ¬ h.Fits k
  before : ∀ h ∈ heard, h.written ≤ a.done

/-- The packet at `j` of those heard stands for a segment whose number modulo 256 is its own. -/
def label (j : Nat) (h : Heard) : Nat := 256 * j + h.seqnum.toNat

theorem label_mod (j : Nat) (h : Heard) : label j h % 256 = h.seqnum.toNat % 256 :=
  Nat.mul_add_mod 256 j _

theorem label_div (j : Nat) (h : Heard) : label j h / 256 = j := by
  have := h.seqnum.toNat_lt
  simp only [label]
  omega

theorem Filed.start : Filed [] .start where
  toEach := .start _
  free := fun _ _ _ _ h member => by cases member
  before := fun h member => by cases member

theorem Filed.congr (filed : Filed heard a) (written : a'.written = a.written)
    (slots : a'.slots = a.slots) : Filed heard a' where
  toEach := filed.toEach.congr written slots
  free := by rw [done, written, slots]; exact filed.free
  before := by rw [done, written]; exact filed.before

theorem Filed.place (filed : Filed heard a) (now : h.written = a.done) :
    Filed (heard ++ [h]) (a.place (label heard.length h)) := by
  have fits : ∀ k, h.Fits k ↔ Suits (label heard.length h) a.done k := by
    intro k
    rw [Heard.Fits, now]
    exact ⟨fun fits => fits.congr (label_mod _ _), fun suits => suits.congr (label_mod _ _).symm⟩
  have done' : (a.place (label heard.length h)).done = a.done := by
    rw [done, place_written]
    rfl
  refine { toEach := filed.toEach.place ?_ ?_, free := ?_, before := ?_ }
  · rintro k m ⟨h', latest⟩ other
    exact ⟨h', latest.append fun here => other ((fits k).mp here)⟩
  · intro k suits
    rw [label_div]
    exact ⟨h, .new heard ((fits k).mpr suits)⟩
  · intro k low high there h' member
    rw [done'] at low high
    obtain ⟨placed, kept⟩ := @place_slots k a (label heard.length h) low high
    by_cases suits : Suits (label heard.length h) a.done k
    · rw [placed suits] at there
      cases there
    · rw [kept suits] at there
      rcases List.mem_append.mp member with old | new
      · exact filed.free k low high there h' old
      · rw [List.mem_singleton.mp new, fits]
        exact suits
  · intro h' member
    rw [done']
    rcases List.mem_append.mp member with old | new
    · exact filed.before h' old
    · rw [List.mem_singleton.mp new, now]

theorem Filed.writeSlot (filed : Filed heard a) (next : a.writeSlot = .ok a') : Filed heard a' := by
  obtain ⟨m, -, -, done', -, kept⟩ := writeSlot_ok next
  refine { toEach := filed.toEach.writeSlot next, free := ?_, before := ?_ }
  · intro k low high there h member
    rw [done'] at low high
    rcases Nat.lt_or_ge (a.done + 2) k with last | inside
    · -- what was heard before cannot fit the segment after the window
      intro fits
      have := filed.before h member
      have := fits.upper
      omega
    · rw [kept k low inside] at there
      exact filed.free k (by omega) inside there h member
  · intro h member
    rw [done']
    exact (filed.before h member).trans (Nat.le_succ _)

theorem Filed.arrival (filed : Filed heard a) (now : h.written = a.done)
    (drained : (a.place (label heard.length h)).drain = .ok a') :
    Filed (heard ++ [h]) a' ∧ a'.slots (a'.done % 3) = none := by
  obtain ⟨filed', stop⟩ := whileLoop_invariant
    (fun _ _ filed _ next => Filed.writeSlot filed next) (filed.place now) drained
  rw [occupied, Option.isSome_eq_false_iff, Option.isNone_iff_eq_none] at stop
  exact ⟨filed', stop⟩

end Protocol.Receiver

end SegmentTransfer
