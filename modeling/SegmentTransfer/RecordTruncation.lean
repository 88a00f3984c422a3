import SegmentTransfer.RecordStream

/-! # Records cut short

`record_read` looks at what `fread` returns for the payload and the footer. For
the two halves of the header it waits for a `-1` that never comes, and takes what
its variables held for what is missing, so whether a cut in the header is
reported depends on them.
-/

namespace SegmentTransfer

open Bytes Outcome Stdio

variable {r p : Record} {body f : List UInt8} {locals : ReadLocals}

/-! ## Reading any stream -/

/-- The first half of the header that `record_read` stores: what there is on the stream, and from
    there on what the variable held. -/
def ReadLocals.half (locals : ReadLocals) (f : List UInt8) : UInt16 :=
  UInt16.ofNat (ofLe (overlay (f.take 2) (le 2 locals.y.toNat)))

/-- The LENGTH that `record_read` stores. -/
def ReadLocals.length (locals : ReadLocals) (f : List UInt8) : UInt16 :=
  ntohs (UInt16.ofNat (ofLe (overlay ((f.drop 2).take 2) (le 2 locals.y1.toNat))))

/-- The record with that header. -/
def Record.headed (r : Record) (locals : ReadLocals) (f : List UInt8) : Record :=
  { r.withHalf (locals.half f) with length := locals.length f }

theorem recordRead_eq (locals : ReadLocals) (r : Record) (f : List UInt8) :
    ∃ count : Nat, recordRead locals r f =
      readPayload locals (r.headed locals f) count (f.drop 4) := by
  refine ⟨(f.take 2).length / 2 * 2 + ((f.drop 2).take 2).length / 2 * 2, ?_⟩
  simp only [recordRead, fread, Nat.mul_one, List.drop_drop]
  rfl

/-- How many bytes a header announces. -/
def Record.announced (r : Record) : Nat := r.length.toNat + if r.f = 1 then 4 else 0

theorem readFooter_fails_iff (r : Record) (count : Nat) (f : List UInt8) :
    (readFooter r count f).count = -1 ↔ r.f = 1 ∧ f.length < 4 := by
  by_cases set : r.f = 1
  · by_cases short : f.length < 4
    · exact iff_of_true (readFooter_short r count set short) ⟨set, short⟩
    · have got := @fread_enough 4 1 f (by decide) (by omega)
      apply iff_of_false
      · simp [readFooter, set, got]
        omega
      · exact fun both => short both.2
  · apply iff_of_false
    · rw [readFooter, if_neg set]
      simp only
      omega
    · exact fun both => set both.1

theorem readPayload_zero (zero : r.length = 0) (count : Int) (f : List UInt8) :
    readPayload locals r count f = .ok (readFooter r count f) := by
  simp only [readPayload, zero, ne_eq, not_true_eq_false, if_false, pure_eq_ok]

theorem readPayload_fault (malloc : locals.malloc = false) (nonzero : r.length ≠ 0) (count : Int)
    (some_ : f ≠ []) : readPayload locals r count f = .error .bufferWrite := by
  have positive : r.length.toNat ≠ 0 := Nat.ne_of_gt (toNat16_pos.mpr nonzero)
  have bytes : (fread 1 r.length.toNat f).bytes ≠ [] := by
    simp [fread, some_, positive]
  simp only [readPayload, if_pos nonzero, malloc, bytes, ne_eq, not_false_eq_true, and_self, if_true]
  rfl

theorem recordSetPayload_refused {realloc : Bool} {n : Int} (refused : realloc = false ∨ n < 0)
    (nonzero : n ≠ 0) (r : Record) (bytes : List UInt8) :
    recordSetPayload realloc r (some bytes) n = .ok (-1, { r with payload := none }) := by
  simp only [recordSetPayload, if_neg nonzero, if_pos refused, pure_eq_ok]

theorem readPayload_enough (malloc : locals.malloc = true) (nonzero : r.length ≠ 0) (count : Int)
    (enough : r.length.toNat ≤ f.length) :
    readPayload locals r count f =
      .ok (readFooter
        { r with payload := if locals.realloc then some (f.take r.length.toNat) else none }
        (count + r.length.toNat) (f.drop r.length.toNat)) := by
  have got := @fread_enough 1 r.length.toNat f (by decide) (by omega)
  rw [Nat.one_mul] at got
  have length := List.length_take_of_le enough
  have positive : (r.length.toNat : Int) ≠ 0 := by
    have := toNat16_pos.mpr nonzero
    omega
  simp only [readPayload, if_pos nonzero, malloc, got, ne_eq, not_true_eq_false, if_false,
    Bool.true_eq_false, false_and]
  cases realloc : locals.realloc with
  | true =>
      rw [recordSetPayload_whole r nonzero length]
      rfl
  | false =>
      rw [recordSetPayload_refused (.inl rfl) positive]
      rfl

/-- What follows a header: no payload, one that is cut short, one that is stored if `realloc`
    succeeds, or one with nothing to keep it in. -/
inductive ReadsPayload (locals : ReadLocals) (r : Record) (count : Int) (f : List UInt8) :
    Except Fault RecordRead → Prop where
  | none : r.length = 0 → ReadsPayload locals r count f (.ok (readFooter r count f))
  | cut (rest : List UInt8) : locals.malloc = true ∨ f = [] → r.length ≠ 0 →
      f.length < r.length.toNat → ReadsPayload locals r count f (.ok ⟨-1, r, rest⟩)
  | whole : locals.malloc = true → r.length ≠ 0 → r.length.toNat ≤ f.length →
      ReadsPayload locals r count f
        (.ok (readFooter
          { r with payload := if locals.realloc then some (f.take r.length.toNat) else none }
          (count + r.length.toNat) (f.drop r.length.toNat)))
  | fault : locals.malloc = false → r.length ≠ 0 → f ≠ [] →
      ReadsPayload locals r count f (.error .bufferWrite)

theorem readPayload_reads (locals : ReadLocals) (r : Record) (count : Int) (f : List UInt8) :
    ReadsPayload locals r count f (readPayload locals r count f) := by
  by_cases zero : r.length = 0
  · rw [readPayload_zero zero]
    exact .none zero
  by_cases memory : locals.malloc = true ∨ f = []
  · by_cases short : f.length < r.length.toNat
    · rw [readPayload_cut memory r count short]
      exact .cut _ memory zero short
    · have enough := Nat.not_lt.mp short
      have malloc : locals.malloc = true := by
        rcases memory with malloc | rfl
        · exact malloc
        · exact (Nat.not_le.mpr (toNat16_pos.mpr zero) enough).elim
      rw [readPayload_enough malloc zero count enough]
      exact .whole malloc zero enough
  · rw [not_or, Bool.not_eq_true] at memory
    rw [readPayload_fault memory.1 zero count memory.2]
    exact .fault memory.1 zero memory.2

/-- Reading on after the header fails when less comes than it announces; a payload that comes
    needs memory. -/
theorem readPayload_fails_iff (locals : ReadLocals) (r : Record) (count : Nat) (f : List UInt8) :
    (∃ read, readPayload locals r count f = .ok read ∧ read.count = -1) ↔
      f.length < r.announced ∧ (locals.malloc = true ∨ r.length = 0 ∨ f = []) := by
  have reads := readPayload_reads locals r count f
  generalize readPayload locals r count f = left at reads ⊢
  cases reads with
  | none zero =>
      have footer := readFooter_fails_iff r count f
      simp only [Except.ok.injEq, exists_eq_left', footer, zero, true_or, or_true, and_true,
        Record.announced, UInt16.toNat_zero, Nat.zero_add]
      by_cases set : r.f = 1
      · simp only [set, if_true, true_and]
      · simp only [set, if_false, false_and, Nat.not_lt_zero]
  | cut rest memory nonzero short =>
      have early : f.length < r.announced := Nat.lt_of_lt_of_le short (Nat.le_add_right _ _)
      exact iff_of_true ⟨_, rfl, rfl⟩ ⟨early, memory.imp_right .inr⟩
  | whole malloc nonzero enough =>
      have footer := readFooter_fails_iff
        { r with payload := if locals.realloc then some (f.take r.length.toNat) else none }
        (count + r.length.toNat) (f.drop r.length.toNat)
      rw [Nat.cast_add] at footer
      simp only [Except.ok.injEq, exists_eq_left', footer, malloc, true_or, and_true,
        Record.announced, List.length_drop]
      by_cases set : r.f = 1
      · simp only [set, if_true, true_and]
        omega
      · simp only [set, if_false, false_and, Nat.add_zero, Nat.not_lt.mpr enough]
  | fault malloc nonzero some_ => simp [malloc, nonzero, some_]

/-! ## Reading a part of an image -/

/-- The header that a stream and the variables make up together announces a payload or a footer. -/
def ReadLocals.Announces (locals : ReadLocals) (f : List UInt8) : Prop :=
  locals.length f ≠ 0 ∨ (locals.half f).toBitVec.extractLsb' 15 1 = 1

/-- A part of an image is reported when the header is in it and, if bytes of the payload are too,
    there is memory for them; without the whole header, when what the variables held makes it
    announce more. -/
theorem readPart_fails_iff (h : p.body? = some body) (r : Record) (locals : ReadLocals) {k : Nat}
    (cut : k < p.size) :
    (∃ read, recordRead locals r ((image p body).take k) = .ok read ∧ read.count = -1) ↔
      if 4 ≤ k then locals.malloc = true ∨ p.length = 0 ∨ k = 4
      else locals.Announces ((image p body).take k) := by
  have length := image_length h
  by_cases header : 4 ≤ k
  · -- the header is whole, so less follows than it announces
    have foot : p.footer.length = if p.f = 1 then 4 else 0 := by
      unfold Record.footer
      split <;> simp
    have split : (image p body).take k =
        le 2 p.half.toNat ++ (be 2 p.length.toNat ++ (body ++ p.footer).take (k - 4)) := by
      rw [image, List.append_assoc, List.append_assoc, List.take_append, List.take_append, le_length,
        be_length, List.take_of_length_le (by rw [le_length]; omega),
        List.take_of_length_le (by rw [be_length]; omega)]
      rfl
    have left : ((body ++ p.footer).take (k - 4)).length = k - 4 := by
      apply List.length_take_of_le
      rw [List.length_append, body?_length h]
      unfold Record.size at cut
      omega
    have less : k - 4 < p.length.toNat + if p.f = 1 then 4 else 0 := by
      unfold Record.size at cut
      omega
    have empty : (body ++ p.footer).take (k - 4) = [] ↔ k = 4 := by
      rw [← List.length_eq_zero_iff, left]
      omega
    have fails := readPayload_fails_iff locals
      { r with type := p.type, f := p.f, length := p.length } 4 ((body ++ p.footer).take (k - 4))
    rw [split, recordRead_half, if_pos header]
    rw [empty, left] at fails
    exact fails.trans (and_iff_right less)
  · rw [if_neg header]
    generalize image p body = bytes at length
    obtain ⟨count, read⟩ := recordRead_eq locals r (bytes.take k)
    have nothing : (bytes.take k).drop 4 = [] := by
      apply List.drop_eq_nil_of_le
      rw [List.length_take]
      omega
    have positive : 0 < (r.headed locals (bytes.take k)).announced ↔
        locals.Announces (bytes.take k) := by
      simp only [Record.announced, Record.headed, Record.withHalf, ReadLocals.Announces,
        ← toNat16_pos]
      by_cases set : (locals.half (bytes.take k)).toBitVec.extractLsb' 15 1 = 1
      · simp only [set, if_true, or_true, iff_true]
        omega
      · simp only [set, if_false, or_false]
        omega
    simp only [read, nothing, readPayload_fails_iff, List.length_nil, positive, or_true, and_true]

/-- The bytes of a well-formed record, cut short anywhere, are reported in these cases and no others. -/
theorem truncated_reported_iff (wellFormed : p.WellFormed) {room : Nat} (fits : p.size ≤ room) :
    ∃ out, recordWrite p ⟨[], room⟩ = .ok (p.size, out) ∧ out.bytes.length = p.size ∧
      ∀ k < p.size, ∀ (r : Record) (locals : ReadLocals),
        (∃ read, recordRead locals r (out.bytes.take k) = .ok read ∧ read.count = -1) ↔
          if 4 ≤ k then locals.malloc = true ∨ p.length = 0 ∨ k = 4
          else locals.Announces (out.bytes.take k) := by
  have held := WellFormed.body? wellFormed
  refine ⟨_, @recordWrite_spec p _ held ⟨[], room⟩ fits, image_length held, ?_⟩
  intro k cut r locals
  exact readPart_fails_iff held r locals cut

/-- A record with one byte of payload and a footer, cut in its footer and in its header. -/
theorem truncated_reported_sample :
    ∃ out, recordWrite ⟨1, 1, 1, some [65], 7⟩ ⟨[], 9⟩ = .ok (9, out) ∧
      (∃ read, recordRead ⟨0, 0, true, true⟩ ⟨0, 0, 0, none, 0⟩ (out.bytes.take 6) = .ok read ∧
        read.count = -1) ∧
      ∃ read, recordRead ⟨0, 256, true, true⟩ ⟨0, 0, 0, none, 0⟩ (out.bytes.take 1) = .ok read ∧
        read.count = -1 := by
  obtain ⟨out, written, -, reported⟩ :=
    @truncated_reported_iff ⟨1, 1, 1, some [65], 7⟩ rfl 9 (by decide)
  have bytes : recordWrite ⟨1, 1, 1, some [65], 7⟩ ⟨[], 9⟩ =
      .ok (9, ⟨[1, 128, 0, 1, 65, 7, 0, 0, 0], 0⟩) := rfl
  obtain ⟨-, rfl⟩ := Prod.mk.inj (Except.ok.inj (written.symm.trans bytes))
  refine ⟨_, bytes, ?_, ?_⟩
  · exact (reported 6 (by decide) _ _).mpr (.inl rfl)
  · exact (reported 1 (by decide) _ _).mpr (.inl (by decide))

/-- An empty stream is read as an empty record when the variables hold zeros. -/
theorem truncated_unreported :
    ¬ ∀ p : Record, p.WellFormed → ∀ out, recordWrite p ⟨[], p.size⟩ = .ok (p.size, out) →
      ∀ k < out.bytes.length, ∀ (r : Record) (locals : ReadLocals),
        locals.malloc = true → locals.realloc = true →
          ∃ read, recordRead locals r (out.bytes.take k) = .ok read ∧ read.count = -1 := by
  intro all
  obtain ⟨read, done, failed⟩ := all ⟨0, 0, 0, none, 0⟩ rfl ⟨[0, 0, 0, 0], 0⟩ rfl 0
    (by decide) ⟨0, 0, 0, none, 0⟩ ⟨0, 0, true, true⟩ rfl rfl
  have found : recordRead ⟨0, 0, true, true⟩ ⟨0, 0, 0, none, 0⟩ [] =
      .ok ⟨0, ⟨0, 0, 0, none, 0⟩, []⟩ := rfl
  rw [List.take_zero, found] at done
  cases done
  cases failed

end SegmentTransfer
