import Mathlib.Data.List.Basic

/-! # Streams of bytes

A stream open for reading is the list of its remaining bytes; one open for
writing is what was written to it and how many bytes still fit. Reads and writes
are of a number of items of one size, and may stop short.
-/

namespace SegmentTransfer.Stdio

/-! ## Reading -/

/-- What a read stores, how many whole items that is and what is left of the stream. -/
structure Read where
  items : Nat
  bytes : List UInt8
  rest : List UInt8

/-- `fread` of `count` items: the bytes of an item cut short are consumed too. -/
def fread (size count : Nat) (f : List UInt8) : Read where
  items := (f.take (size * count)).length / size
  bytes := f.take (size * count)
  rest := f.drop (size * count)

theorem fread_enough {size count : Nat} {f : List UInt8} (positive : 0 < size)
    (enough : size * count ≤ f.length) :
    fread size count f = ⟨count, f.take (size * count), f.drop (size * count)⟩ := by
  have whole : (f.take (size * count)).length / size = count := by
    rw [List.length_take_of_le enough, Nat.mul_div_cancel_left count positive]
  rw [fread, whole]

theorem fread_append {size count : Nat} {as bs : List UInt8} (positive : 0 < size)
    (length : as.length = size * count) : fread size count (as ++ bs) = ⟨count, as, bs⟩ := by
  rw [fread_enough positive (by rw [List.length_append]; omega), ← length, List.take_left,
    List.drop_left]

theorem fread_short {size count : Nat} {f : List UInt8} (short : f.length < size * count) :
    (fread size count f).items < count := by
  rw [fread, List.take_of_length_le (Nat.le_of_lt short)]
  exact Nat.div_lt_of_lt_mul short

/-! ## Writing -/

structure Sink where
  bytes : List UInt8
  room : Nat

/-- `fwrite` of the items that `data` is made of. -/
def fwrite (size : Nat) (data : List UInt8) (f : Sink) : Nat × Sink :=
  ((data.take f.room).length / size,
    { bytes := f.bytes ++ data.take f.room, room := f.room - data.length })

theorem fwrite_room {size count : Nat} {data : List UInt8} {f : Sink} (positive : 0 < size)
    (length : data.length = size * count) (room : data.length ≤ f.room) :
    fwrite size data f = (count, ⟨f.bytes ++ data, f.room - data.length⟩) := by
  rw [fwrite, List.take_of_length_le room, length, Nat.mul_div_cancel_left count positive]

end SegmentTransfer.Stdio
