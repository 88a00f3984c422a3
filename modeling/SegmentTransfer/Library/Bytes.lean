import Mathlib.Data.List.Basic
import Mathlib.Tactic.Ring

/-! # Byte strings, byte orders and fixed-size buffers

Integers are laid out in memory as lists of bytes, least significant byte first
(`le`) or most significant byte first (`be`). A `Buf n` is an array of exactly
`n` bytes; reads and writes that would leave the array have no value.
-/

namespace SegmentTransfer.Bytes

/-- The `k` low bytes of `x`, least significant first. -/
def le : Nat → Nat → List UInt8
  | 0, _ => []
  | k + 1, x => UInt8.ofNat x :: le k (x / 256)

/-- The number whose bytes, least significant first, are given. -/
def ofLe : List UInt8 → Nat
  | [] => 0
  | b :: bs => b.toNat + 256 * ofLe bs

/-- The `k` low bytes of `x`, most significant first. -/
def be (k x : Nat) : List UInt8 := (le k x).reverse

/-- The number whose bytes, most significant first, are given. -/
def ofBe (bs : List UInt8) : Nat := ofLe bs.reverse

@[simp] theorem le_length (k x : Nat) : (le k x).length = k := by
  induction k generalizing x with
  | zero => rfl
  | succ k ih => simp only [le, List.length_cons, ih]

@[simp] theorem be_length (k x : Nat) : (be k x).length = k := by
  simp only [be, List.length_reverse, le_length]

theorem ofLe_le (k x : Nat) : ofLe (le k x) = x % 256 ^ k := by
  induction k generalizing x with
  | zero => simp only [le, ofLe, pow_zero, Nat.mod_one]
  | succ k ih =>
      have split : x % 256 ^ (k + 1) = x % 256 + 256 * (x / 256 % 256 ^ k) := by
        rw [pow_succ', Nat.mod_mul]
      simp only [le, ofLe, ih, split, UInt8.toNat_ofNat']

theorem le_ofLe (bs : List UInt8) : le bs.length (ofLe bs) = bs := by
  induction bs with
  | nil => rfl
  | cons b bs ih =>
      have low : UInt8.ofNat (b.toNat + 256 * ofLe bs) = b := by
        apply UInt8.toNat_inj.mp
        have := b.toNat_lt
        simp only [UInt8.toNat_ofNat']
        omega
      have high : (b.toNat + 256 * ofLe bs) / 256 = ofLe bs := by
        have := b.toNat_lt
        omega
      simp only [List.length_cons, le, ofLe, low, high, ih]

theorem ofLe_lt (bs : List UInt8) : ofLe bs < 256 ^ bs.length := by
  induction bs with
  | nil => simp only [ofLe, List.length_nil, pow_zero, Nat.zero_lt_one]
  | cons b bs ih =>
      have := b.toNat_lt
      simp only [ofLe, List.length_cons, pow_succ]
      omega

/-! Machine integers are read back from their bytes, and bytes from the integer they make. -/

theorem ofNat_le16 (x : UInt16) : UInt16.ofNat (ofLe (le 2 x.toNat)) = x := by
  apply UInt16.toNat_inj.mp
  have := x.toNat_lt
  rw [ofLe_le, UInt16.toNat_ofNat']
  omega

theorem ofNat_le32 (x : UInt32) : UInt32.ofNat (ofLe (le 4 x.toNat)) = x := by
  apply UInt32.toNat_inj.mp
  have := x.toNat_lt
  rw [ofLe_le, UInt32.toNat_ofNat']
  omega

theorem toNat16_pos {x : UInt16} : 0 < x.toNat ↔ x ≠ 0 := by
  rw [Nat.pos_iff_ne_zero, ← UInt16.toNat_inj.ne, UInt16.toNat_zero]

theorem ofNat_byte (b : UInt8) : UInt8.ofNat (ofLe [b]) = b := by
  simp only [ofLe, Nat.mul_zero, Nat.add_zero, UInt8.ofNat_toNat]

theorem le_ofNat16 {bs : List UInt8} (h : bs.length = 2) :
    le 2 (UInt16.ofNat (ofLe bs)).toNat = bs := by
  have := ofLe_lt bs
  have bytes := le_ofLe bs
  rw [h] at this bytes
  rw [UInt16.toNat_ofNat', Nat.mod_eq_of_lt (show _ < 2 ^ 16 from this), bytes]

theorem le_ofNat32 {bs : List UInt8} (h : bs.length = 4) :
    le 4 (UInt32.ofNat (ofLe bs)).toNat = bs := by
  have := ofLe_lt bs
  have bytes := le_ofLe bs
  rw [h] at this bytes
  rw [UInt32.toNat_ofNat', Nat.mod_eq_of_lt (show _ < 2 ^ 32 from this), bytes]

theorem ofBe_be (k x : Nat) : ofBe (be k x) = x % 256 ^ k := by
  simp only [ofBe, be, List.reverse_reverse, ofLe_le]

theorem ofBe_lt (bs : List UInt8) : ofBe bs < 256 ^ bs.length := by
  simpa only [ofBe, List.length_reverse] using ofLe_lt bs.reverse

/-- The `k` bytes of `bs` from offset `off`. -/
def slice (bs : List UInt8) (off k : Nat) : List UInt8 := (bs.drop off).take k

theorem slice_length {bs : List UInt8} {off k : Nat} (h : off + k ≤ bs.length) :
    (slice bs off k).length = k := by
  simp only [slice, List.length_take, List.length_drop]
  omega

theorem slice_append_left {as bs : List UInt8} {off k : Nat} (h : off + k ≤ as.length) :
    slice (as ++ bs) off k = slice as off k := by
  simp only [slice]
  rw [List.drop_append_of_le_length (by omega), List.take_append_of_le_length]
  simp only [List.length_drop]
  omega

theorem slice_append_right {as bs : List UInt8} {off k : Nat} (h : as.length ≤ off) :
    slice (as ++ bs) off k = slice bs (off - as.length) k := by
  simp only [slice, List.drop_append, List.drop_eq_nil_of_le h, List.nil_append]

theorem slice_self (bs : List UInt8) : slice bs 0 bs.length = bs := by
  simp only [slice, List.drop_zero, List.take_length]

theorem slice_middle (as ms bs : List UInt8) :
    slice (as ++ ms ++ bs) as.length ms.length = ms := by
  rw [List.append_assoc, slice_append_right (Nat.le_refl _), Nat.sub_self,
    slice_append_left (by omega), slice_self]

theorem slice_add (bs : List UInt8) (off j k : Nat) :
    slice bs off (j + k) = slice bs off j ++ slice bs (off + j) k := by
  simp only [slice, List.take_add, List.drop_drop]

theorem slice_congr {as bs : List UInt8} {m off k : Nat} (same : as.take m = bs.take m)
    (h : off + k ≤ m) : slice as off k = slice bs off k := by
  have below : ∀ cs : List UInt8, slice cs off k = slice (cs.take m) off k := by
    intro cs
    simp only [slice, List.drop_take, List.take_take]
    congr 1
    omega
  rw [below as, below bs, same]

/-- An array of exactly `n` bytes. -/
structure Buf (n : Nat) where
  bytes : List UInt8
  size : bytes.length = n
  deriving DecidableEq, Repr

namespace Buf

variable {n : Nat}

theorem ext_bytes {a b : Buf n} (h : a.bytes = b.bytes) : a = b := by
  cases a
  cases b
  simp only [mk.injEq]
  exact h

/-- An array holding one byte everywhere. -/
def replicate (n : Nat) (b : UInt8) : Buf n := ⟨List.replicate n b, List.length_replicate⟩

/-- The array whose first bytes are those of `d` (as many as fit), the others unchanged. -/
def fill (buf : Buf n) (d : List UInt8) : Buf n where
  bytes := d.take n ++ buf.bytes.drop d.length
  size := by
    have := buf.size
    simp only [List.length_append, List.length_take, List.length_drop]
    omega

/-- Read `k` bytes at `off`; no value when they are not all inside the array. -/
def read? (buf : Buf n) (off k : Nat) : Option (List UInt8) :=
  if off + k ≤ n then some (slice buf.bytes off k) else none

/-- Write `d` at `off`; no value when it does not fit inside the array. -/
def write? (buf : Buf n) (off : Nat) (d : List UInt8) : Option (Buf n) :=
  if h : off + d.length ≤ n then
    some
      { bytes := buf.bytes.take off ++ d ++ buf.bytes.drop (off + d.length)
        size := by
          have := buf.size
          simp only [List.length_append, List.length_take, List.length_drop]
          omega }
  else none

theorem read?_inside (buf : Buf n) {off k : Nat} (h : off + k ≤ n) :
    buf.read? off k = some (slice buf.bytes off k) := if_pos h

theorem fill_bytes (buf : Buf n) {d : List UInt8} (h : d.length ≤ n) :
    (buf.fill d).bytes = d ++ buf.bytes.drop d.length := by
  simp only [fill, List.take_of_length_le h]

theorem fill_slice (buf : Buf n) {d : List UInt8} (h : d.length ≤ n) {off k : Nat}
    (inside : off + k ≤ d.length) : slice (buf.fill d).bytes off k = slice d off k := by
  rw [fill_bytes buf h, slice_append_left inside]

theorem write?_zero (buf : Buf n) {d : List UInt8} (h : d.length ≤ n) :
    buf.write? 0 d = some (buf.fill d) := by
  have room : 0 + d.length ≤ n := by omega
  simp only [write?, dif_pos room, Option.some.injEq]
  apply ext_bytes
  simp only [fill_bytes buf h, List.take_zero, List.nil_append, Nat.zero_add]

theorem write?_fill (buf : Buf n) {as d : List UInt8} {off : Nat} (at_end : as.length = off)
    (h : off + d.length ≤ n) : (buf.fill as).write? off d = some (buf.fill (as ++ d)) := by
  subst at_end
  have room : (as ++ d).length ≤ n := by simpa only [List.length_append] using h
  simp only [write?, dif_pos h, Option.some.injEq]
  apply ext_bytes
  rw [fill_bytes buf room]
  simp only [fill_bytes buf (show as.length ≤ n by omega), List.take_left, List.drop_append,
    List.drop_drop, List.length_append]
  rw [List.drop_eq_nil_of_le (by omega), List.nil_append]
  congr 2
  omega

theorem write?_bytes {buf out : Buf n} {off : Nat} {d : List UInt8}
    (h : buf.write? off d = some out) :
    off + d.length ≤ n ∧
      out.bytes = buf.bytes.take off ++ d ++ buf.bytes.drop (off + d.length) := by
  unfold write? at h
  split at h
  · rename_i room
    cases h
    exact ⟨room, rfl⟩
  · cases h

theorem write?_slice_outside {buf out : Buf n} {off : Nat} {d : List UInt8}
    (h : buf.write? off d = some out) {a k : Nat} (apart : a + k ≤ off ∨ off + d.length ≤ a) :
    slice out.bytes a k = slice buf.bytes a k := by
  obtain ⟨room, bytes⟩ := write?_bytes h
  have size := buf.size
  have before : (buf.bytes.take off).length = off := by
    rw [List.length_take]
    omega
  rcases apart with left | right
  · refine slice_congr ?_ left
    rw [bytes, List.append_assoc, List.take_left' before]
  · rw [bytes, slice_append_right (by rw [List.length_append, before]; exact right)]
    rw [List.length_append, before, slice, List.drop_drop, slice]
    congr 2
    omega

theorem write?_slice_inside {buf out : Buf n} {off : Nat} {d : List UInt8}
    (h : buf.write? off d = some out) {a k : Nat} (left : a ≤ off)
    (right : off + d.length ≤ a + k) :
    ∃ pre post, slice out.bytes a k = pre ++ d ++ post ∧
      slice buf.bytes a k = pre ++ slice buf.bytes off d.length ++ post := by
  obtain ⟨room, bytes⟩ := write?_bytes h
  have size := buf.size
  have cut : ∀ cs, slice cs a k = slice cs a (off - a) ++ slice cs off d.length ++
      slice cs (off + d.length) (a + k - (off + d.length)) := by
    intro cs
    have first := slice_add cs a (off - a) d.length
    have second := slice_add cs a (off - a + d.length) (a + k - (off + d.length))
    rw [show a + (off - a) = off by omega] at first
    rw [show a + (off - a + d.length) = off + d.length by omega,
      show off - a + d.length + (a + k - (off + d.length)) = k by omega, first] at second
    exact second
  have middle : slice out.bytes off d.length = d := by
    have before : (buf.bytes.take off).length = off := by
      rw [List.length_take]
      omega
    have := slice_middle (buf.bytes.take off) d (buf.bytes.drop (off + d.length))
    rwa [before, ← bytes] at this
  refine ⟨_, _, ?_, cut buf.bytes⟩
  rw [cut out.bytes, middle, write?_slice_outside h (.inl (by omega)),
    write?_slice_outside h (.inr (Nat.le_refl _))]

theorem write?_ne {buf out : Buf n} {off : Nat} {d : List UInt8}
    (h : buf.write? off d = some out) (changed : out ≠ buf) : slice buf.bytes off d.length ≠ d := by
  intro same
  obtain ⟨pre, post, new, old⟩ := write?_slice_inside h (Nat.zero_le off)
    (show off + d.length ≤ 0 + n by have := (write?_bytes h).1; omega)
  have whole : ∀ b : Buf n, slice b.bytes 0 n = b.bytes := by
    intro b
    have := slice_self b.bytes
    rwa [b.size] at this
  apply changed
  apply ext_bytes
  rw [← whole out, ← whole buf, new, old, same]

end Buf

/-! ## Strings -/

/-- The string that begins here, when a zero ends it. -/
def cString : List UInt8 → Option (List UInt8)
  | [] => none
  | b :: bs => if b = 0 then some [] else (cString bs).map (b :: ·)

theorem cString_eq_some {bs m : List UInt8} :
    cString bs = some m ↔ 0 ∉ m ∧ ∃ rest, bs = m ++ 0 :: rest := by
  induction bs generalizing m with
  | nil => simp [cString]
  | cons b bs ih =>
      by_cases zero : b = 0
      · subst zero
        cases m with
        | nil => simp [cString]
        | cons c m =>
            simp only [cString, if_true, Option.some.injEq, reduceCtorEq, false_iff]
            rintro ⟨none, rest, same⟩
            cases same
            exact none (.head _)
      · cases m with
        | nil => simp [cString, zero]
        | cons c m =>
            have peeled : (∃ rest, b :: bs = (c :: m) ++ 0 :: rest) ↔
                b = c ∧ ∃ rest, bs = m ++ 0 :: rest := by simp
            rw [cString, if_neg zero, Option.map_eq_some_iff, peeled]
            constructor
            · rintro ⟨m', found, same⟩
              cases same
              obtain ⟨none, rest⟩ := ih.mp found
              exact ⟨by simp [none, Ne.symm zero], rfl, rest⟩
            · rintro ⟨none, rfl, rest⟩
              exact ⟨m, ih.mpr ⟨fun member => none (.tail _ member), rest⟩, rfl⟩

theorem cString_isSome {bs : List UInt8} (zero : 0 ∈ bs) : (cString bs).isSome = true := by
  induction bs with
  | nil => cases zero
  | cons b bs ih =>
      by_cases here : b = 0
      · simp [cString, here]
      · have rest : 0 ∈ bs := (List.mem_cons.mp zero).resolve_left (Ne.symm here)
        simp [cString, here, ih rest]

theorem Buf.cString_fits {n : Nat} {buf : Buf n} {m : List UInt8}
    (found : cString buf.bytes = some m) : 0 ∉ m ∧ m.length < n := by
  obtain ⟨none, rest, same⟩ := cString_eq_some.mp found
  have size := buf.size
  rw [same, List.length_append, List.length_cons] at size
  exact ⟨none, by omega⟩

theorem Buf.cString_fill {n : Nat} (buf : Buf n) {d : List UInt8} (none : 0 ∉ d) (h : d.length ≤ n) :
    cString (buf.fill d).bytes = some d ↔ buf.bytes[d.length]? = some 0 := by
  rw [cString_eq_some, Buf.fill_bytes buf h, ← List.head?_drop, List.head?_eq_some_iff]
  constructor
  · rintro ⟨-, rest, same⟩
    exact ⟨rest, List.append_cancel_left same⟩
  · rintro ⟨rest, same⟩
    exact ⟨none, rest, by rw [same]⟩

end SegmentTransfer.Bytes
