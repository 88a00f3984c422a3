import Mathlib.Logic.Function.Iterate
import Mathlib.Tactic.Common

/-! # Reflected cyclic redundancy checks

A CRC register of `w` bits is shifted right one bit at a time and the
polynomial is added when a one falls out. The register is linear in its
contents and, when the polynomial has its top bit set, a shift loses nothing;
so two messages of one length which differ inside `w` consecutive bits only,
on byte boundaries, never have the same remainder.
-/

namespace SegmentTransfer.Crc

variable {w : Nat} (poly : BitVec w)

/-- One bit out of the register. -/
def shift (x : BitVec w) : BitVec w :=
  (x >>> 1) ^^^ (if x.getLsbD 0 then poly else 0#w)

/-- One byte into the register, low bit first. -/
def feed (x : BitVec w) (b : UInt8) : BitVec w :=
  (shift poly)^[8] (x ^^^ b.toBitVec.setWidth w)

/-- A whole message into the register. -/
def update (x : BitVec w) (bs : List UInt8) : BitVec w := bs.foldl (feed poly) x

/-- The first bytes of a message, low byte first, as a register's contents. -/
def pack : List UInt8 → BitVec w
  | [] => 0#w
  | b :: bs => b.toBitVec.setWidth w ^^^ (pack bs <<< 8)

/-! ## Linearity -/

private theorem xor_swap (a b c d : BitVec w) : (a ^^^ b) ^^^ (c ^^^ d) = (a ^^^ c) ^^^ (b ^^^ d) := by
  ac_rfl

theorem shift_xor (x y : BitVec w) : shift poly (x ^^^ y) = shift poly x ^^^ shift poly y := by
  have feedback : (if (x ^^^ y).getLsbD 0 then poly else 0#w) =
      (if x.getLsbD 0 then poly else 0#w) ^^^ (if y.getLsbD 0 then poly else 0#w) := by
    rw [BitVec.getLsbD_xor]
    cases x.getLsbD 0 <;> cases y.getLsbD 0 <;> simp
  simp only [shift, feedback, BitVec.ushiftRight_xor_distrib, xor_swap]

theorem iterate_shift_xor (k : Nat) (x y : BitVec w) :
    (shift poly)^[k] (x ^^^ y) = (shift poly)^[k] x ^^^ (shift poly)^[k] y := by
  induction k generalizing x y with
  | zero => rfl
  | succ k ih => simp only [Function.iterate_succ_apply, shift_xor, ih]

theorem shift_low_zero {x : BitVec w} (h : x.getLsbD 0 = false) : shift poly x = x >>> 1 := by
  simp [shift, h]

theorem iterate_shift_low_zero (k : Nat) {x : BitVec w}
    (h : ∀ i, i < k → x.getLsbD i = false) : (shift poly)^[k] x = x >>> k := by
  induction k generalizing x with
  | zero => simp only [Function.iterate_zero_apply, BitVec.ushiftRight_zero]
  | succ k ih =>
      have rest : ∀ i, i < k → (x >>> 1).getLsbD i = false := by
        intro i hi
        rw [BitVec.getLsbD_ushiftRight]
        exact h (1 + i) (by omega)
      rw [Function.iterate_succ_apply, shift_low_zero poly (h 0 (by omega)), ih rest,
        ← BitVec.shiftRight_add, Nat.add_comm]

/-! ## Nothing is lost by a shift -/

variable {poly}

theorem shift_eq_zero (top : poly.getLsbD (w - 1) = true) {x : BitVec w}
    (h : shift poly x = 0#w) : x = 0#w := by
  have wpos : 0 < w := by
    rcases Nat.eq_zero_or_pos w with rfl | hw
    · rw [BitVec.getLsbD_of_ge _ _ (by omega)] at top
      cases top
    · exact hw
  have low : x.getLsbD 0 = false := by
    cases hx : x.getLsbD 0 with
    | false => rfl
    | true =>
        -- the top bit of the shifted register is that of the polynomial
        have bit := congrArg (fun y : BitVec w => y.getLsbD (w - 1)) h
        have outside : x.getLsbD (1 + (w - 1)) = false := BitVec.getLsbD_of_ge _ _ (by omega)
        simp [shift, hx, top, outside] at bit
  rw [shift_low_zero poly low] at h
  apply BitVec.eq_of_getLsbD_eq
  intro i hi
  cases i with
  | zero => simpa using low
  | succ i =>
      have bit := congrArg (fun y : BitVec w => y.getLsbD i) h
      rw [BitVec.getLsbD_ushiftRight] at bit
      simpa [Nat.add_comm] using bit

theorem shift_injective (top : poly.getLsbD (w - 1) = true) :
    Function.Injective (shift poly) := by
  intro x y h
  have difference : shift poly (x ^^^ y) = 0#w := by
    rw [shift_xor, h, BitVec.xor_self]
  exact BitVec.xor_eq_zero_iff.mp (shift_eq_zero top difference)

theorem iterate_shift_injective (top : poly.getLsbD (w - 1) = true) (k : Nat) :
    Function.Injective (shift poly)^[k] :=
  (shift_injective top).iterate k

theorem feed_injective (top : poly.getLsbD (w - 1) = true) (b : UInt8) :
    Function.Injective (fun x => feed poly x b) := by
  intro x y h
  have := iterate_shift_injective top 8 h
  exact (BitVec.xor_left_inj _).mp this

theorem update_injective (top : poly.getLsbD (w - 1) = true) (bs : List UInt8) :
    Function.Injective (fun x => update poly x bs) := by
  induction bs with
  | nil => exact fun _ _ h => h
  | cons b bs ih => exact fun x y h => feed_injective top b (ih h)

/-! ## Short messages as register contents -/

theorem pack_high_zero (bs : List UInt8) {i : Nat} (h : 8 * bs.length ≤ i) :
    (pack bs : BitVec w).getLsbD i = false := by
  induction bs generalizing i with
  | nil => simp only [pack, BitVec.getLsbD_zero]
  | cons b bs ih =>
      simp only [List.length_cons] at h
      have byte : b.toBitVec.getLsbD i = false := BitVec.getLsbD_of_ge _ _ (by omega)
      have rest : (pack bs : BitVec w).getLsbD (i - 8) = false := ih (by omega)
      simp [pack, byte, rest]

theorem pack_cons_low (b : UInt8) (bs : List UInt8) {i : Nat} (hi : i < 8) (hw : i < w) :
    (pack (b :: bs) : BitVec w).getLsbD i = b.toBitVec.getLsbD i := by
  simp [pack, hi, hw]

theorem pack_cons_high (b : UInt8) (bs : List UInt8) {i : Nat} (hw : i + 8 < w) :
    (pack (b :: bs) : BitVec w).getLsbD (i + 8) = (pack bs : BitVec w).getLsbD i := by
  have byte : b.toBitVec.getLsbD (i + 8) = false := BitVec.getLsbD_of_ge _ _ (by omega)
  simp only [pack, BitVec.getLsbD_xor, BitVec.getLsbD_setWidth, BitVec.getLsbD_shiftLeft, byte,
    hw, decide_true, Bool.true_and, Bool.false_xor, Nat.add_sub_cancel,
    show ¬ i + 8 < 8 by omega, decide_false, Bool.not_false]

theorem pack_injective {us vs : List UInt8} (len : us.length = vs.length)
    (fits : 8 * us.length ≤ w) (h : (pack us : BitVec w) = pack vs) : us = vs := by
  induction us generalizing vs with
  | nil => exact (List.length_eq_zero_iff.mp len.symm).symm
  | cons u us ih =>
      cases vs with
      | nil => cases len
      | cons v vs =>
          simp only [List.length_cons] at len fits
          have head : u = v := by
            apply UInt8.toBitVec_inj.mp
            apply BitVec.eq_of_getLsbD_eq
            intro i hi
            rw [← pack_cons_low (w := w) u us hi (by omega),
              ← pack_cons_low (w := w) v vs hi (by omega), h]
          have tail : (pack us : BitVec w) = pack vs := by
            apply BitVec.eq_of_getLsbD_eq
            intro i hi
            by_cases inside : i + 8 < w
            · rw [← pack_cons_high u us inside, ← pack_cons_high v vs inside, h]
            · rw [pack_high_zero us (by omega), pack_high_zero vs (by omega)]
          rw [head, ih (by omega) (by omega) tail]

theorem iterate_shift_pack {bs : List UInt8} (fits : 8 * bs.length + 8 ≤ w) :
    (shift poly)^[8] ((pack bs : BitVec w) <<< 8) = pack bs := by
  rw [iterate_shift_low_zero poly 8 (by intro i hi; simp [hi])]
  apply BitVec.eq_of_getLsbD_eq
  intro i hi
  by_cases inside : i + 8 < w
  · simp only [BitVec.getLsbD_ushiftRight, BitVec.getLsbD_shiftLeft, Nat.add_comm 8 i, inside,
      decide_true, Bool.true_and, Nat.add_sub_cancel, show ¬ i + 8 < 8 by omega, decide_false,
      Bool.not_false]
  · rw [pack_high_zero bs (by omega)]
    have up : ¬ 8 + i < w := by omega
    simp [up]

theorem update_eq_iterate {bs : List UInt8} (fits : 8 * bs.length ≤ w) (x : BitVec w) :
    update poly x bs = (shift poly)^[8 * bs.length] (x ^^^ pack bs) := by
  induction bs generalizing x with
  | nil => simp [update, pack]
  | cons b bs ih =>
      simp only [List.length_cons] at fits
      have room : 8 * bs.length + 8 ≤ w := by omega
      calc
        update poly x (b :: bs) = update poly (feed poly x b) bs := rfl
        _ = (shift poly)^[8 * bs.length] (feed poly x b ^^^ pack bs) := ih (by omega) _
        _ = (shift poly)^[8 * bs.length]
              ((shift poly)^[8] (x ^^^ b.toBitVec.setWidth w ^^^ (pack bs <<< 8))) := by
            rw [iterate_shift_xor poly 8, iterate_shift_pack room, feed]
        _ = (shift poly)^[8 * (bs.length + 1)] (x ^^^ pack (b :: bs)) := by
            rw [← Function.iterate_add_apply, pack, BitVec.xor_assoc, Nat.mul_succ]

theorem update_ne_of_short {us vs : List UInt8} (top : poly.getLsbD (w - 1) = true)
    (len : us.length = vs.length) (fits : 8 * us.length ≤ w) (differ : us ≠ vs) (x : BitVec w) :
    update poly x us ≠ update poly x vs := by
  intro h
  rw [update_eq_iterate fits, update_eq_iterate (len ▸ fits), len] at h
  have packed := iterate_shift_injective top _ h
  exact differ (pack_injective len fits ((BitVec.xor_right_inj _).mp packed))

theorem update_append (x : BitVec w) (as bs : List UInt8) :
    update poly x (as ++ bs) = update poly (update poly x as) bs := by
  simp only [update, List.foldl_append]

/-- Burst detection: a change confined to at most `w` consecutive bits of a
    message, on byte boundaries, changes its remainder. -/
theorem update_ne_of_burst {pre us vs post : List UInt8} (top : poly.getLsbD (w - 1) = true)
    (len : us.length = vs.length) (fits : 8 * us.length ≤ w) (differ : us ≠ vs) (x : BitVec w) :
    update poly x (pre ++ us ++ post) ≠ update poly x (pre ++ vs ++ post) := by
  intro h
  simp only [update_append] at h
  exact update_ne_of_short top len fits differ _ (update_injective top post h)

/-! ## CRC-32 -/

/-- The polynomial of the standard 32-bit check, reflected. -/
def poly32 : BitVec 32 := 0xEDB88320#32

/-- The standard 32-bit check of a message. -/
def crc32 (bs : List UInt8) : UInt32 :=
  UInt32.ofBitVec (update poly32 0xFFFFFFFF#32 bs ^^^ 0xFFFFFFFF#32)

theorem crc32_ne_of_burst {pre us vs post : List UInt8} (len : us.length = vs.length)
    (fits : us.length ≤ 4) (differ : us ≠ vs) :
    crc32 (pre ++ us ++ post) ≠ crc32 (pre ++ vs ++ post) := by
  intro h
  have registers := (BitVec.xor_left_inj _).mp (congrArg UInt32.toBitVec h)
  exact update_ne_of_burst (show poly32.getLsbD (32 - 1) = true from rfl) len (by omega) differ _
    registers

-- the usual check value: that of the digits 1 to 9
example : crc32 [0x31, 0x32, 0x33, 0x34, 0x35, 0x36, 0x37, 0x38, 0x39] = 0xCBF43926 := by
  decide +kernel

end SegmentTransfer.Crc
