import SegmentTransfer.Library.Transition
import SegmentTransfer.RecordTruncation

/-! # Sequences of calls on a record

Any calls, one after another, on a record from `record_init`; an allocation may
fail in any of them. LENGTH is stored apart from the payload: `record_read` stores
it before there is a payload, and when `realloc` fails it is the payload that is
gone.
-/

namespace SegmentTransfer

open Bytes Outcome Stdio

variable {r : Record} {locals : ReadLocals} {f : List UInt8}

/-! ## What a read leaves -/

theorem readFooter_record (r : Record) (count : Int) (f : List UInt8) :
    ∃ uuid, (readFooter r count f).record = { r with uuid } := by
  simp only [readFooter]
  split
  · split <;> exact ⟨_, rfl⟩
  · exact ⟨_, rfl⟩

theorem readPayload_record {count : Nat} {read : RecordRead}
    (done : readPayload locals r count f = .ok read) :
    ∃ uuid, read.record =
      { r with
        uuid
        payload :=
          if r.length = 0 ∨ f.length < r.length.toNat then r.payload
          else if locals.realloc then some (f.take r.length.toNat) else none } := by
  have reads := readPayload_reads locals r count f
  rw [done] at reads
  cases reads with
  | none zero =>
      obtain ⟨uuid, left⟩ := readFooter_record r count f
      refine ⟨uuid, left.trans ?_⟩
      simp only [zero, true_or, if_true]
  | cut rest _ _ short =>
      refine ⟨r.uuid, ?_⟩
      simp only [short, or_true, if_true]
  | whole _ nonzero enough =>
      obtain ⟨uuid, left⟩ := readFooter_record
        { r with payload := if locals.realloc then some (f.take r.length.toNat) else none }
        (count + r.length.toNat) (f.drop r.length.toNat)
      refine ⟨uuid, left.trans ?_⟩
      simp only [nonzero, Nat.not_lt.mpr enough, or_self, if_false]

theorem recordRead_cut {read : RecordRead} (done : recordRead locals r f = .ok read)
    (nonzero : locals.length f ≠ 0) (short : f.length < 4 + (locals.length f).toNat) :
    read.count = -1 := by
  have left : (f.drop 4).length < (locals.length f).toNat := by
    have := toNat16_pos.mpr nonzero
    rw [List.length_drop]
    omega
  obtain ⟨count, reads⟩ := recordRead_eq locals r f
  rw [done] at reads
  have reads := reads ▸ readPayload_reads locals (r.headed locals f) count (f.drop 4)
  cases reads with
  | none zero => exact (nonzero zero).elim
  | cut => rfl
  | whole _ _ enough => exact (Nat.not_lt.mpr enough left).elim

theorem recordRead_record {read : RecordRead} (done : recordRead locals r f = .ok read) :
    ∃ uuid, read.record =
      { r.headed locals f with
        uuid
        payload :=
          if locals.length f = 0 ∨ f.length < 4 + (locals.length f).toNat then r.payload
          else if locals.realloc then some ((f.drop 4).take (locals.length f).toNat) else none } := by
  obtain ⟨count, read_⟩ := recordRead_eq locals r f
  rw [read_] at done
  obtain ⟨uuid, left⟩ := readPayload_record done
  refine ⟨uuid, left.trans ?_⟩
  have same : (locals.length f = 0 ∨ (f.drop 4).length < (locals.length f).toNat) ↔
      (locals.length f = 0 ∨ f.length < 4 + (locals.length f).toNat) := by
    rw [← UInt16.toNat_inj, UInt16.toNat_zero, List.length_drop]
    omega
  simp only [Record.headed, same]
  rfl

/-! ## Calls -/

/-- A call on a record; `memory` is what `buf` points to in `record_set_payload`, if it is not null,
    and `realloc` whether there is memory to be had. -/
inductive RecordCall where
  | setType (type : Int)
  | setPayload (realloc : Bool) (memory : Option (Nat → UInt8)) (n : Int)
  | setUuid (uuid : UInt32)
  | deleteFooter
  | free
  | read (locals : ReadLocals) (f : List UInt8)

/-- What the call returns, and the record it leaves. -/
def RecordCall.apply (r : Record) : RecordCall → Except Fault (Int × Record)
  | .setType type => .ok (0, recordSetType r type)
  | .setPayload realloc memory n =>
      recordSetPayload realloc r (memory.map fun bytes => (List.range n.toNat).map bytes) n
  | .setUuid uuid => .ok (0, recordSetUuid r uuid)
  | .deleteFooter => .ok (0, recordDeleteFooter r)
  | .free => .ok (0, recordFree r)
  | .read locals f => do
      let read ← recordRead locals r f
      return (read.count, read.record)

/-- Any calls, on a record from `record_init`. -/
def recordCalls : Transition Record RecordCall where
  init r := ∃ memory, r = recordInit memory
  step r call r' := ∃ result, call.apply r = .ok (result, r')

/-- The payload is there, and long enough for a LENGTH of `length`. -/
def Record.Covers (r : Record) (length : UInt16) : Prop :=
  0 < length.toNat → ∃ block, r.payload = some block ∧ length.toNat ≤ block.length

/-- The payload behind the length. -/
def Record.Backed (r : Record) : Prop := r.Covers r.length

/-- The call leaves no LENGTH without its payload: no `realloc` fails while there is a LENGTH, and
    what a header announces comes whole and is stored, or the old payload is long enough. -/
def RecordCall.Covered (r : Record) : RecordCall → Prop
  | .setPayload realloc memory n =>
      memory.isSome = true → n ≠ 0 → (realloc = false ∨ n < 0) → r.length = 0
  | .read locals f => locals.length f ≠ 0 →
      if f.length < 4 + (locals.length f).toNat then r.Covers (locals.length f)
      else locals.realloc = true
  | _ => True

theorem Record.backed_of_zero (zero : r.length = 0) : r.Backed := by
  intro positive
  rw [zero] at positive
  exact (Nat.lt_irrefl 0 positive).elim

theorem Record.Backed.writable (h : r.Backed) (sink : Sink) : ∃ w, recordWrite r sink = .ok w := by
  have footer : ∀ count f, ∃ w, writeFooter r count f = .ok w := by
    intro count f
    simp only [writeFooter]
    split
    · split <;> exact ⟨_, rfl⟩
    · exact ⟨_, rfl⟩
  have payload : ∀ count f, ∃ w, writePayload r count f = .ok w := by
    intro count f
    by_cases zero : r.length = 0
    · simp only [writePayload, zero, ne_eq, not_true_eq_false, if_false]
      exact footer count f
    · obtain ⟨block, held, enough⟩ := h (toNat16_pos.mpr zero)
      simp only [writePayload, zero, ne_eq, not_false_eq_true, if_true, held, orFail_some, ok_bind,
        Nat.not_lt.mpr enough, if_false]
      split
      · exact ⟨_, rfl⟩
      · exact footer _ _
  simp only [recordWrite]
  split
  · exact ⟨_, rfl⟩
  · split
    · exact ⟨_, rfl⟩
    · exact payload _ _

theorem recordFree_backed (r : Record) : (recordFree r).Backed := by
  apply Record.backed_of_zero
  unfold recordFree
  split
  · rfl
  · rename_i none
    exact not_not.mp none

/-- A payload is removed, lost for want of memory, or stored. -/
theorem recordSetPayload_cases {realloc : Bool} {buf : Option (List UInt8)} {n result : Int}
    {r' : Record} (called : recordSetPayload realloc r buf n = .ok (result, r')) :
    ((buf = none ∨ n = 0) ∧ result = 0 ∧ r' = recordFree r) ∨
      (buf.isSome = true ∧ n ≠ 0 ∧ (realloc = false ∨ n < 0) ∧ result = -1 ∧
        r' = { r with payload := none }) ∨
      ∃ bytes, 0 < n ∧ realloc = true ∧ result = 0 ∧ bytes.length = n.toNat ∧
        r' = { r with payload := some bytes, length := UInt16.ofInt n } := by
  cases buf with
  | none =>
      cases called
      exact .inl ⟨.inl rfl, rfl, rfl⟩
  | some bytes =>
      simp only [recordSetPayload] at called
      split at called
      · rename_i zero
        cases called
        exact .inl ⟨.inr zero, rfl, rfl⟩
      split at called
      · rename_i nonzero refused
        cases called
        exact .inr (.inl ⟨rfl, nonzero, refused, rfl, rfl⟩)
      split at called
      · cases called
      · rename_i nonzero granted there
        cases called
        rw [not_or, Bool.not_eq_false] at granted
        have length : (bytes.take n.toNat).length = n.toNat := by
          rw [List.length_take]
          omega
        exact .inr (.inr ⟨_, by omega, granted.1, rfl, length, rfl⟩)

/-- Setting a payload: LENGTH is the low half of `n`, so never more than is stored. -/
theorem recordSetPayload_backed_iff {realloc : Bool} {memory : Option (Nat → UInt8)} {n result : Int}
    {r' : Record} (called : recordSetPayload realloc r
      (memory.map fun bytes => (List.range n.toNat).map bytes) n = .ok (result, r')) :
    r'.Backed ↔ (memory.isSome = true → n ≠ 0 → (realloc = false ∨ n < 0) → r.length = 0) := by
  rcases recordSetPayload_cases called with ⟨nothing, -, rfl⟩ | ⟨some_, nonzero, refused, -, rfl⟩ |
    ⟨bytes, positive, granted, -, length, rfl⟩
  · apply iff_of_true (recordFree_backed r)
    intro some_ nonzero
    rcases nothing with none | zero
    · rw [Option.map_eq_none_iff.mp none] at some_
      cases some_
    · exact (nonzero zero).elim
  · constructor
    · intro backed _ _ _
      by_contra lengthy
      obtain ⟨block, held, -⟩ := backed (toNat16_pos.mpr lengthy)
      cases held
    · intro free
      rw [Option.isSome_map] at some_
      exact Record.backed_of_zero (free some_ nonzero refused)
  · apply iff_of_true
    · intro _
      refine ⟨bytes, rfl, ?_⟩
      simp only [UInt16.ofInt, UInt16.toNat_ofNat', length]
      omega
    · intro _ _ refused
      rw [granted] at refused
      rcases refused with refused | negative
      · cases refused
      · omega

/-- A call keeps the payload behind the length exactly when it is covered. -/
theorem RecordCall.backed_iff {call : RecordCall} {r' : Record} (h : r.Backed) {result : Int}
    (called : call.apply r = .ok (result, r')) : r'.Backed ↔ call.Covered r := by
  cases call with
  | setType | setUuid =>
      cases called
      exact iff_of_true h trivial
  | deleteFooter =>
      cases called
      apply iff_of_true _ trivial
      rw [recordDeleteFooter]
      split <;> exact h
  | free =>
      cases called
      exact iff_of_true (recordFree_backed r) trivial
  | setPayload realloc memory n => exact recordSetPayload_backed_iff called
  | read locals f =>
      obtain ⟨read, done, left⟩ := bind_eq_ok.mp called
      obtain ⟨uuid, record⟩ := recordRead_record done
      cases left
      rw [record, Record.Backed, Record.Covers, RecordCall.Covered]
      simp only [Record.headed, Record.withHalf, toNat16_pos]
      apply imp_congr_right
      intro nonzero
      by_cases short : f.length < 4 + (locals.length f).toNat
      · simp only [short, or_true, if_true, Record.Covers, toNat16_pos, nonzero, ne_eq,
          not_false_eq_true, forall_const]
      · have enough : (locals.length f).toNat ≤ (f.drop 4).length := by
          rw [List.length_drop]
          omega
        simp only [nonzero, short, or_self, if_false]
        cases locals.realloc with
        | true => simp [List.length_take_of_le enough]
        | false => simp

/-- In a run in which every call is covered the payload is behind the length and `record_write`
    reads nothing else, and a call that is not covered is the only one that leaves a LENGTH without
    its payload. -/
theorem record_backed (reach : (recordCalls.restrict fun r call => call.Covered r).Reachable r) :
    r.Backed ∧ (∀ sink, ∃ w, recordWrite r sink = .ok w) ∧
      ∀ call r', recordCalls.step r call r' → (r'.Backed ↔ call.Covered r) := by
  have backed : r.Backed := by
    apply reach.induct
    · rintro _ ⟨memory, rfl⟩
      exact Record.backed_of_zero rfl
    · rintro r call r' backed ⟨⟨result, called⟩, covered⟩
      exact (RecordCall.backed_iff backed called).mpr covered
  refine ⟨backed, backed.writable, ?_⟩
  rintro call r' ⟨result, called⟩
  exact RecordCall.backed_iff backed called

/-- A new record is given one byte. -/
theorem record_backed_sample : (⟨0, 0, 1, some [65], 9⟩ : Record).Backed := by
  have begins : (recordCalls.restrict fun r call => call.Covered r).Reachable
      (recordInit ⟨3, 1, 2, none, 9⟩) := .of_init ⟨_, rfl⟩
  have call : recordCalls.step (recordInit ⟨3, 1, 2, none, 9⟩)
      (.setPayload true (some fun _ => 65) 1) ⟨0, 0, 1, some [65], 9⟩ := ⟨0, rfl⟩
  have covered : (RecordCall.setPayload true (some fun _ => 65) 1).Covered
      (recordInit ⟨3, 1, 2, none, 9⟩) := fun _ _ _ => rfl
  exact (record_backed (begins.step ⟨call, covered⟩)).1

/-- A new record is read from a stream that ends after a header announcing one byte. -/
theorem record_unbacked : ¬ ∀ r, recordCalls.Reachable r → r.Backed := by
  intro backed
  have begins : recordCalls.Reachable (recordInit ⟨3, 1, 2, none, 9⟩) := .of_init ⟨_, rfl⟩
  have call : recordCalls.step (recordInit ⟨3, 1, 2, none, 9⟩)
      (.read ⟨0, 0, true, true⟩ [0, 0, 0, 1]) ⟨0, 0, 1, none, 9⟩ := ⟨-1, rfl⟩
  obtain ⟨block, held, -⟩ := backed _ (begins.step call) (by decide)
  cases held

/-! ## Copying the payload out -/

/-- The payload was stored by `record_set_payload`, called directly or by a read that succeeds, and
    only other fields were set since. -/
inductive Record.Stored : Record → Prop where
  | set {realloc : Bool} {r r' : Record} {bytes : List UInt8} {n : Int} :
      recordSetPayload realloc r (some bytes) n = .ok (0, r') → 1 ≤ n → n ≤ 65535 → Stored r'
  | read {locals : ReadLocals} {r : Record} {f : List UInt8} {read : RecordRead} :
      recordRead locals r f = .ok read → read.count ≠ -1 → locals.realloc = true →
      read.record.length ≠ 0 → Stored read.record
  | setType {r : Record} (type : Int) : Stored r → Stored (recordSetType r type)
  | setUuid {r : Record} (uuid : UInt32) : Stored r → Stored (recordSetUuid r uuid)
  | deleteFooter {r : Record} : Stored r → Stored (recordDeleteFooter r)

/-- The block is as long as LENGTH says. -/
theorem Record.Stored.block (stored : r.Stored) :
    ∃ block, r.payload = some block ∧ block.length = r.length.toNat ∧ r.length ≠ 0 := by
  induction stored with
  | @set realloc r r' bytes n called positive fits =>
      rcases recordSetPayload_cases called with ⟨none | zero, -, -⟩ | ⟨-, -, -, failed, -⟩ |
        ⟨block, -, -, -, length, rfl⟩
      · cases none
      · omega
      · cases failed
      · have kept : (UInt16.ofInt n).toNat = n.toNat := by
          simp only [UInt16.ofInt, UInt16.toNat_ofNat']
          omega
        refine ⟨block, rfl, length.trans kept.symm, ?_⟩
        rw [← toNat16_pos, kept]
        omega
  | @read locals r f read done succeeded realloc nonzero =>
      obtain ⟨uuid, left⟩ := recordRead_record done
      have length : read.record.length = locals.length f := by
        rw [left]
        rfl
      rw [length] at nonzero ⊢
      have enough : ¬ f.length < 4 + (locals.length f).toNat :=
        fun short => succeeded (recordRead_cut done nonzero short)
      simp only [nonzero, enough, or_self, if_false, realloc, if_true] at left
      refine ⟨(f.drop 4).take (locals.length f).toNat, by rw [left], ?_, nonzero⟩
      apply List.length_take_of_le
      rw [List.length_drop]
      omega
  | setType _ _ ih | setUuid _ _ ih => exact ih
  | deleteFooter _ ih =>
      rw [recordDeleteFooter]
      split <;> exact ih

/-- `record_get_payload` of `n` bytes, into a buffer of at least so many, copies what there is of
    the payload up to `n` bytes, changes nothing else of the buffer and returns how many it were. -/
def Record.Copies (r : Record) (n : Int) : Prop :=
  ∀ m : Nat, n ≤ m → ∀ buf : Buf m, ∃ block out, r.payload = some block ∧
    recordGetPayload r buf n = .ok (min n r.length.toNat, out) ∧
    out.bytes = block.take (min n r.length.toNat).toNat ++ buf.bytes.drop (min n r.length.toNat).toNat

/-- The copy is the one described when no more is asked for than there is. -/
theorem record_copies_iff (stored : r.Stored) {n : Int} (positive : 0 < n) :
    r.Copies n ↔ n ≤ recordGetLength r := by
  obtain ⟨block, held, length, nonzero⟩ := stored.block
  constructor
  · intro copies
    obtain ⟨block', out, held', copied, -⟩ := copies n.toNat (by omega) (.replicate n.toNat 0)
    by_contra more
    rw [recordGetPayload, held, orFail_some, ok_bind,
      if_pos (.inr (by rw [length]; exact Int.not_le.mp more))] at copied
    cases copied
  · intro enough m room buf
    simp only [recordGetLength] at enough
    have there : ¬ (n < 0 ∨ (block.length : Int) < n) := by
      omega
    have taken : (block.take n.toNat).length = n.toNat := by
      rw [List.length_take]
      omega
    have fits : (block.take n.toNat).length ≤ m := by
      omega
    have least : min n (r.length.toNat : Int) = n := min_eq_left enough
    refine ⟨block, buf.fill (block.take n.toNat), held, ?_, ?_⟩
    · rw [recordGetPayload, held, orFail_some, ok_bind, if_neg there, Buf.write?_zero buf fits, least]
      simp only [Int.not_lt.mpr enough, if_false]
      rfl
    · rw [Buf.fill_bytes buf fits, taken, least]

/-- One byte of a payload of two. -/
theorem record_copies_sample : (⟨0, 0, 2, some [65, 66], 9⟩ : Record).Copies 1 ↔
    (1 : Int) ≤ recordGetLength ⟨0, 0, 2, some [65, 66], 9⟩ := by
  have set : recordSetPayload true (recordInit ⟨3, 1, 2, none, 9⟩) (some [65, 66]) 2 =
      .ok (0, ⟨0, 0, 2, some [65, 66], 9⟩) := rfl
  exact record_copies_iff (.set set (by decide) (by decide)) (by decide)

/-- Two bytes of a payload of one. -/
theorem record_overread : ¬ ∀ r : Record, r.Stored → ∀ n : Int, 0 < n → r.Copies n := by
  intro all
  have set : recordSetPayload true (recordInit ⟨3, 1, 2, none, 9⟩) (some [65]) 1 =
      .ok (0, ⟨0, 0, 1, some [65], 9⟩) := rfl
  obtain ⟨block, out, -, copied, -⟩ :=
    all _ (.set set (by decide) (by decide)) 2 (by decide) 2 (by decide) (.replicate 2 0)
  have fault : recordGetPayload ⟨0, 0, 1, some [65], 9⟩ (.replicate 2 0) 2 = .error .payloadRead := rfl
  rw [fault] at copied
  cases copied

end SegmentTransfer
