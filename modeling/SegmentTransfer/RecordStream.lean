import Mathlib.Data.List.Forall2
import SegmentTransfer.Record

/-! # Records on a stream

A record whose payload is there is written as its image, and reading the image
into any record variable gives the record back. What is read whole from any
stream is the image of the record it leaves, so writing that record reproduces
the bytes.
-/

namespace SegmentTransfer

open Bytes Outcome Stdio

/-- The payload: the first `LENGTH` bytes at the pointer, when they are there. -/
def Record.body? (r : Record) : Option (List UInt8) :=
  if r.length = 0 then some []
  else r.payload.bind fun block =>
    if r.length.toNat ≤ block.length then some (block.take r.length.toNat) else none

/-- The payload is stored with its length. -/
def Record.WellFormed (r : Record) : Prop := r.body?.isSome = true

/-- The UUID, in the bytes of the host, when there is a footer. -/
def Record.footer (r : Record) : List UInt8 := if r.f = 1 then le 4 r.uuid.toNat else []

/-- How many bytes a record takes on a stream. -/
def Record.size (r : Record) : Nat := 4 + r.length.toNat + r.footer.length

/-- The bytes of a record with its payload. -/
def image (r : Record) (body : List UInt8) : List UInt8 :=
  le 2 r.half.toNat ++ be 2 r.length.toNat ++ body ++ r.footer

/-- What the accessors show of two records is the same. -/
structure SameRecord (p q : Record) : Prop where
  type : recordGetType q = recordGetType p
  length : recordGetLength q = recordGetLength p
  payload : q.body? = p.body?
  footer : recordHasFooter q = recordHasFooter p
  uuid : recordGetUuid q = recordGetUuid p

/-- The next `record_read` into one variable, from one stream. -/
def readInto (locals : ReadLocals) (s : Record × List UInt8) :
    Except Fault (RecordRead × Record × List UInt8) := do
  let read ← recordRead locals s.1 s.2
  return (read, read.record, read.rest)

variable {r p : Record} {body : List UInt8}

theorem body?_zero (zero : r.length = 0) : r.body? = some [] := if_pos zero

theorem body?_block {block : List UInt8} (nonzero : r.length ≠ 0) (held : r.payload = some block)
    (enough : r.length.toNat ≤ block.length) : r.body? = some (block.take r.length.toNat) := by
  simp [Record.body?, nonzero, held, enough]

theorem body?_cases (h : r.body? = some body) :
    (r.length = 0 ∧ body = []) ∨
      (r.length ≠ 0 ∧ ∃ block, r.payload = some block ∧ r.length.toNat ≤ block.length ∧
        body = block.take r.length.toNat) := by
  unfold Record.body? at h
  split at h
  · grind
  · right
    cases held : r.payload with
    | none => grind
    | some block => grind

theorem body?_length (h : r.body? = some body) : body.length = r.length.toNat := by
  rcases body?_cases h with ⟨zero, rfl⟩ | ⟨-, block, -, enough, rfl⟩
  · simp [zero]
  · exact List.length_take_of_le enough

theorem footer_some (set : r.f = 1) : r.footer = le 4 r.uuid.toNat := if_pos set

theorem footer_none (unset : r.f ≠ 1) : r.footer = [] := if_neg unset

theorem image_length (h : r.body? = some body) : (image r body).length = r.size := by
  simp only [image, List.length_append, le_length, be_length, body?_length h, Record.size]

/-! ## Writing -/

theorem writeFooter_spec (r : Record) (count : Int) {f : Sink} (room : r.footer.length ≤ f.room) :
    writeFooter r count f =
      .ok (count + r.footer.length, ⟨f.bytes ++ r.footer, f.room - r.footer.length⟩) := by
  by_cases set : r.f = 1
  · rw [footer_some set] at room ⊢
    have written := @fwrite_room 4 1 _ f (by decide) (le_length 4 r.uuid.toNat) room
    simp only [writeFooter, set, if_true, written, ne_eq, not_true_eq_false, if_false, le_length]
    rfl
  · simp only [writeFooter, set, if_false, footer_none set, List.append_nil, List.length_nil]
    simp

theorem writePayload_spec (h : r.body? = some body) (count : Int) {f : Sink}
    (room : r.length.toNat + r.footer.length ≤ f.room) :
    writePayload r count f =
      .ok (count + r.length.toNat + r.footer.length,
        ⟨f.bytes ++ body ++ r.footer, f.room - r.length.toNat - r.footer.length⟩) := by
  rcases body?_cases h with ⟨zero, rfl⟩ | ⟨nonzero, block, held, enough, rfl⟩
  · have footer := @writeFooter_spec r count f (by omega)
    simp [writePayload, zero, footer]
  · have length := body?_length h
    have written := @fwrite_room 1 r.length.toNat (block.take r.length.toNat) f (by decide)
      (by rw [length, Nat.one_mul]) (by omega)
    rw [length] at written
    simp only [writePayload, nonzero, ne_eq, not_false_eq_true, if_true, held, orFail_some, ok_bind,
      Nat.not_lt.mpr enough, if_false, written, not_true_eq_false]
    apply writeFooter_spec
    simp only
    omega

theorem recordWrite_spec (h : r.body? = some body) {f : Sink} (room : r.size ≤ f.room) :
    recordWrite r f = .ok ((r.size : Int), ⟨f.bytes ++ image r body, f.room - r.size⟩) := by
  unfold Record.size at room ⊢
  have first := @fwrite_room 2 1 (le 2 r.half.toNat) f (by decide) (le_length _ _)
    (by rw [le_length]; omega)
  have second := @fwrite_room 2 1 (be 2 r.length.toNat)
    ⟨f.bytes ++ le 2 r.half.toNat, f.room - 2⟩ (by decide) (be_length _ _)
    (by rw [be_length]; simp only; omega)
  have rest := @writePayload_spec r body h 4
    ⟨f.bytes ++ le 2 r.half.toNat ++ be 2 r.length.toNat, f.room - 2 - 2⟩ (by simp only; omega)
  rw [le_length] at first
  rw [be_length] at second
  have left : f.room - 2 - 2 - r.length.toNat - r.footer.length =
      f.room - (4 + r.length.toNat + r.footer.length) := by
    omega
  simp only [recordWrite, first, ne_eq, not_true_eq_false, if_false, le_htons, second, Nat.one_mul,
    Nat.reduceAdd, Nat.cast_ofNat, rest]
  simp only [left, image, List.append_assoc, Nat.cast_add, Nat.cast_ofNat]

/-! ## Reading an image -/

theorem overlay_whole {bytes old : List UInt8} (h : old.length = bytes.length) :
    overlay bytes old = bytes := by
  rw [overlay, ← h, List.drop_length, List.append_nil]

theorem half_read (y : UInt16) (rest : List UInt8) {bytes : List UInt8} (two : bytes.length = 2) :
    fread 2 1 (bytes ++ rest) = ⟨1, bytes, rest⟩ ∧ overlay bytes (le 2 y.toNat) = bytes :=
  ⟨fread_append (by decide) two, overlay_whole (by rw [le_length, two])⟩

theorem recordRead_header (locals : ReadLocals) (r : Record) {a b : List UInt8} (rest : List UInt8)
    (first : a.length = 2) (second : b.length = 2) :
    recordRead locals r (a ++ (b ++ rest)) =
      readPayload locals
        { r.withHalf (UInt16.ofNat (ofLe a)) with length := ntohs (UInt16.ofNat (ofLe b)) } 4 rest := by
  obtain ⟨readA, wholeA⟩ := half_read locals.y (b ++ rest) first
  obtain ⟨readB, wholeB⟩ := half_read locals.y1 rest second
  simp only [recordRead, readA, wholeA, readB, wholeB]
  rfl

/-- The record after a payload that comes whole. -/
def Record.withBody (r : Record) (body : List UInt8) : Record :=
  { r with payload := if r.length = 0 then r.payload else some body }

/-- The record after a footer that comes whole. -/
def Record.withFooter (r : Record) (foot : List UInt8) : Record :=
  { r with uuid := if r.f = 1 then UInt32.ofNat (ofLe foot) else r.uuid }

def taken (r : Record) (body foot : List UInt8) : Record := (r.withBody body).withFooter foot

theorem taken_body? (foot : List UInt8) (length : body.length = r.length.toNat) :
    (taken r body foot).body? = some body := by
  by_cases zero : r.length = 0
  · obtain rfl := List.eq_nil_of_length_eq_zero (length.trans (by rw [zero]; rfl))
    exact body?_zero zero
  · have held := @body?_block (taken r body foot) body zero (if_neg zero) (Nat.le_of_eq length.symm)
    rw [held]
    exact congrArg some (List.take_of_length_le (Nat.le_of_eq length))

theorem taken_footer (r : Record) (body : List UInt8) {foot : List UInt8}
    (length : foot.length = if r.f = 1 then 4 else 0) : (taken r body foot).footer = foot := by
  by_cases set : r.f = 1
  · rw [if_pos set] at length
    rw [@footer_some (taken r body foot) set]
    simp only [taken, Record.withFooter, Record.withBody, set, if_true]
    exact le_ofNat32 length
  · rw [if_neg set] at length
    rw [List.eq_nil_of_length_eq_zero length]
    exact footer_none set

theorem readFooter_whole (r : Record) (count : Int) {foot rest : List UInt8}
    (length : foot.length = if r.f = 1 then 4 else 0) :
    readFooter r count (foot ++ rest) =
      ⟨count + foot.length, r.withFooter foot, rest⟩ := by
  by_cases set : r.f = 1
  · rw [if_pos set] at length
    have got := @fread_append 4 1 foot rest (by decide) length
    have whole := @overlay_whole foot (le 4 r.uuid.toNat) (by rw [le_length, length])
    simp only [readFooter, if_pos set, got, whole, ne_eq, not_true_eq_false, if_false, length,
      Record.withFooter]
    rfl
  · rw [if_neg set] at length
    obtain rfl := List.eq_nil_of_length_eq_zero length
    simp only [readFooter, if_neg set, List.nil_append, List.length_nil, Nat.cast_zero, Int.add_zero,
      Record.withFooter]

theorem recordSetPayload_whole (r : Record) (nonzero : r.length ≠ 0)
    (length : body.length = r.length.toNat) :
    recordSetPayload true r (some body) r.length.toNat = .ok (0, { r with payload := some body }) := by
  have positive : (r.length.toNat : Int) ≠ 0 := by
    intro same
    apply nonzero
    apply UInt16.toNat_inj.mp
    exact Int.ofNat_inj.mp same
  have allocated : ¬(true = false ∨ (r.length.toNat : Int) < 0) := by
    grind
  have kept : UInt16.ofInt (r.length.toNat : Int) = r.length := by
    apply UInt16.toNat_inj.mp
    have := r.length.toNat_lt
    simp only [UInt16.ofInt, UInt16.toNat_ofNat']
    omega
  simp only [recordSetPayload, if_neg positive, if_neg allocated, kept, length, lt_self_iff_false,
    if_false, Int.toNat_natCast]
  rw [← length, List.take_length]
  rfl

theorem readFooter_short (r : Record) (count : Int) {f : List UInt8} (set : r.f = 1)
    (short : f.length < 4) : (readFooter r count f).count = -1 := by
  have items := @fread_short 4 1 f short
  have missing : (fread 4 1 f).items ≠ 1 := by
    omega
  simp only [readFooter, if_pos set, if_pos missing]

theorem readPayload_whole {locals : ReadLocals} (malloc : locals.malloc = true)
    (realloc : locals.realloc = true) (r : Record) (count : Int) (rest : List UInt8)
    (length : body.length = r.length.toNat) :
    readPayload locals r count (body ++ rest) =
      .ok (readFooter (r.withBody body) (count + body.length) rest) := by
  by_cases zero : r.length = 0
  · obtain rfl := List.eq_nil_of_length_eq_zero (length.trans (by rw [zero]; rfl))
    have kept : r.withBody [] = r := by
      rw [Record.withBody, if_pos zero]
    simp only [readPayload, zero, ne_eq, not_true_eq_false, if_false, List.nil_append, kept,
      List.length_nil, Nat.cast_zero, Int.add_zero, pure_eq_ok]
  · have got := @fread_append 1 r.length.toNat body rest (by decide) (by rw [length, Nat.one_mul])
    simp only [readPayload, zero, ne_eq, not_false_eq_true, if_true, got, malloc, realloc,
      recordSetPayload_whole r zero length, ok_bind, not_true_eq_false, if_false, length,
      Record.withBody]
    rfl

theorem readPayload_cut {locals : ReadLocals} {f : List UInt8}
    (memory : locals.malloc = true ∨ f = []) (r : Record) (count : Int)
    (short : f.length < r.length.toNat) :
    readPayload locals r count f = .ok ⟨-1, r, (fread 1 r.length.toNat f).rest⟩ := by
  have items := @fread_short 1 r.length.toNat f (by rw [Nat.one_mul]; exact short)
  have missing : (fread 1 r.length.toNat f).items ≠ r.length.toNat := by
    omega
  have nonzero : r.length ≠ 0 := by
    intro zero
    simp [zero] at short
  have kept : ¬ (locals.malloc = false ∧ (fread 1 r.length.toNat f).bytes ≠ []) := by
    rcases memory with malloc | rfl
    · simp [malloc]
    · simp [fread]
  simp only [readPayload, if_pos nonzero, if_neg kept, if_pos missing]
  rfl

theorem readPayload_short {locals : ReadLocals} (malloc : locals.malloc = true) (r : Record)
    (count : Int) {f : List UInt8} (short : f.length < r.length.toNat) :
    ∃ read, readPayload locals r count f = .ok read ∧ read.count = -1 :=
  ⟨_, readPayload_cut (.inl malloc) r count short, rfl⟩

theorem readPayload_taken {locals : ReadLocals} (malloc : locals.malloc = true)
    (realloc : locals.realloc = true) (r : Record) (count : Int) {foot rest : List UInt8}
    (length : body.length = r.length.toNat) (footLength : foot.length = if r.f = 1 then 4 else 0) :
    readPayload locals r count (body ++ (foot ++ rest)) =
      .ok ⟨count + body.length + foot.length, taken r body foot, rest⟩ := by
  rw [readPayload_whole malloc realloc r count _ length,
    @readFooter_whole (r.withBody body) _ foot rest footLength, taken]

theorem recordRead_half (locals : ReadLocals) (r p : Record) (rest : List UInt8) :
    recordRead locals r (le 2 p.half.toNat ++ (be 2 p.length.toNat ++ rest)) =
      readPayload locals { r with type := p.type, f := p.f, length := p.length } 4 rest := by
  have network : ntohs (UInt16.ofNat (ofLe (be 2 p.length.toNat))) = p.length := by
    rw [← le_htons, ofNat_le16, ntohs_htons]
  have header := @recordRead_header locals r _ _ rest (le_length 2 p.half.toNat)
    (be_length 2 p.length.toNat)
  rw [ofNat_le16, network, Record.withHalf_half] at header
  exact header

theorem recordRead_image {locals : ReadLocals} (malloc : locals.malloc = true)
    (realloc : locals.realloc = true) (h : p.body? = some body) (r : Record) (rest : List UInt8) :
    ∃ q, recordRead locals r (image p body ++ rest) = .ok ⟨p.size, q, rest⟩ ∧ SameRecord p q := by
  have length := body?_length h
  have footLength : p.footer.length = if p.f = 1 then 4 else 0 := by
    unfold Record.footer
    split <;> simp
  have whole := @readPayload_taken body locals malloc realloc
    { r with type := p.type, f := p.f, length := p.length } 4 p.footer rest length footLength
  have count : (4 + body.length + p.footer.length : Int) = p.size := by
    simp [Record.size, length]
  rw [count] at whole
  refine ⟨taken { r with type := p.type, f := p.f, length := p.length } body p.footer, ?_, ?_⟩
  · rw [image, List.append_assoc, List.append_assoc, List.append_assoc, recordRead_half]
    exact whole
  · refine ⟨rfl, rfl, ?_, rfl, ?_⟩
    · exact (@taken_body? { r with type := p.type, f := p.f, length := p.length } body p.footer
        length).trans h.symm
    · by_cases set : p.f = 1
      · simp only [recordGetUuid, taken, Record.withFooter, Record.withBody, set, if_true, footer_some set,
          ofNat_le32]
      · have unset : p.f = 0 := by
          grind
        simp only [recordGetUuid, taken, Record.withFooter, Record.withBody, unset, if_true]

/-- The images of records, one after another. -/
def images (records : List Record) : List UInt8 :=
  records.flatMap fun r => image r (r.body?.getD [])

theorem WellFormed.body? (h : r.WellFormed) : r.body? = some (r.body?.getD []) := by
  unfold Record.WellFormed at h
  cases held : r.body? with
  | none => simp [held] at h
  | some body => rfl

theorem map_eq_of_forall₂ {α β γ : Type} {f : α → γ} {g : β → γ} {as : List α} {bs : List β}
    (h : List.Forall₂ (fun a b => g b = f a) as bs) : bs.map g = as.map f := by
  induction h with
  | nil => rfl
  | cons here _ ih => simp only [List.map_cons, here, ih]

theorem write_images {records : List Record} (wellFormed : ∀ r ∈ records, r.WellFormed) {sink : Sink}
    (room : (records.map Record.size).sum ≤ sink.room) :
    ∃ counts sink', each recordWrite records sink = .ok (counts, sink') ∧
      counts = records.map (fun r => (r.size : Int)) ∧
      sink'.bytes = sink.bytes ++ images records := by
  let I : List Record → Sink → Prop := fun left s =>
    s.bytes ++ images left = sink.bytes ++ images records ∧ (left.map Record.size).sum ≤ s.room
  have one : ∀ r left r' s, (r = r' ∧ r.WellFormed) → I (r :: left) s →
      ∃ count s', recordWrite r' s = .ok (count, s') ∧ count = (r.size : Int) ∧ I left s' := by
    rintro r left _ s ⟨rfl, here⟩ ⟨bytes, fits⟩
    rw [List.map_cons, List.sum_cons] at fits
    have written := @recordWrite_spec r _ (WellFormed.body? here) s (by omega)
    refine ⟨_, _, written, rfl, ?_, ?_⟩
    · rw [← bytes, images, List.append_assoc, images, List.flatMap_cons]
    · simp only
      omega
  have matched : List.Forall₂ (fun r r' : Record => r = r' ∧ r.WellFormed) records records :=
    List.forall₂_same.mpr fun r member => ⟨rfl, wellFormed r member⟩
  obtain ⟨counts, sink', written, results, complete, -⟩ :=
    each_rule one matched (show I records sink from ⟨rfl, room⟩)
  refine ⟨counts, sink', written, ?_, ?_⟩
  · simpa using map_eq_of_forall₂ (g := id) results
  · simpa [images] using complete

theorem read_images {records : List Record} (wellFormed : ∀ r ∈ records, r.WellFormed)
    {calls : List ReadLocals}
    (memory : ∀ locals ∈ calls, locals.malloc = true ∧ locals.realloc = true)
    (same : calls.length = records.length) (dst : Record) :
    ∃ reads s, each readInto calls (dst, images records) = .ok (reads, s) ∧
      List.Forall₂ (fun r read => read.count = (r.size : Int) ∧ SameRecord r read.record)
        records reads := by
  let I : List Record → Record × List UInt8 → Prop := fun left s => s.2 = images left
  have one : ∀ (r : Record) left (locals : ReadLocals) s,
      (r.WellFormed ∧ locals.malloc = true ∧ locals.realloc = true) → I (r :: left) s →
      ∃ read s', readInto locals s = .ok (read, s') ∧
        (read.count = (r.size : Int) ∧ SameRecord r read.record) ∧ I left s' := by
    rintro r left locals s ⟨here, malloc, realloc⟩ stream
    obtain ⟨q, read, shown⟩ :=
      recordRead_image malloc realloc (WellFormed.body? here) s.1 (images left)
    refine ⟨⟨r.size, q, images left⟩, (q, images left), ?_, ⟨rfl, shown⟩, rfl⟩
    rw [readInto, stream, images, List.flatMap_cons, ← images, read]
    rfl
  have matched : List.Forall₂ (fun (r : Record) (locals : ReadLocals) =>
      r.WellFormed ∧ locals.malloc = true ∧ locals.realloc = true) records calls := by
    apply List.forall₂_iff_zip.mpr
    refine ⟨same.symm, fun member => ?_⟩
    obtain ⟨left, right⟩ := List.of_mem_zip member
    exact ⟨wellFormed _ left, memory _ right⟩
  obtain ⟨reads, s, read, results, -⟩ := each_rule one matched (show I records (dst, _) from rfl)
  exact ⟨reads, s, read, results⟩

/-- Any number of well-formed records, written one after another and read one after another into
    one variable, come back as they were, with the counts of the writes. -/
theorem records_round_trip {records : List Record} {calls : List ReadLocals}
    (wellFormed : ∀ r ∈ records, r.WellFormed)
    (memory : ∀ locals ∈ calls, locals.malloc = true ∧ locals.realloc = true)
    (same : calls.length = records.length) {sink : Sink}
    (room : (records.map Record.size).sum ≤ sink.room) (dst : Record) :
    ∃ counts sink' reads s, each recordWrite records sink = .ok (counts, sink') ∧
      each readInto calls (dst, sink'.bytes.drop sink.bytes.length) = .ok (reads, s) ∧
      reads.map RecordRead.count = counts ∧
      List.Forall₂ (fun r read => SameRecord r read.record) records reads := by
  obtain ⟨counts, sink', written, sizes, bytes⟩ := write_images wellFormed room
  obtain ⟨reads, s, read, results⟩ := read_images wellFormed memory same dst
  refine ⟨counts, sink', reads, s, written, ?_, ?_, results.imp fun _ _ here => here.2⟩
  · rw [bytes, List.drop_left]
    exact read
  · rw [sizes]
    exact map_eq_of_forall₂ (results.imp fun _ _ here => here.1)

/-- A record with a footer and no payload, then one with a payload and no footer. -/
theorem records_round_trip_sample :
    ∃ counts sink' reads s,
      each recordWrite [⟨1, 1, 0, none, 7⟩, ⟨2, 0, 1, some [65], 0⟩] ⟨[], 13⟩ = .ok (counts, sink') ∧
      each readInto [⟨0, 0, true, true⟩, ⟨5, 6, true, true⟩]
        (⟨0, 0, 0, none, 9⟩, sink'.bytes.drop ([] : List UInt8).length) = .ok (reads, s) ∧
      reads.map RecordRead.count = counts ∧
      List.Forall₂ (fun r read => SameRecord r read.record)
        [⟨1, 1, 0, none, 7⟩, ⟨2, 0, 1, some [65], 0⟩] reads :=
  @records_round_trip [⟨1, 1, 0, none, 7⟩, ⟨2, 0, 1, some [65], 0⟩]
    [⟨0, 0, true, true⟩, ⟨5, 6, true, true⟩] (by simp [Record.WellFormed, Record.body?]) (by simp) rfl
    ⟨[], 13⟩ (by decide) _

/-- A read leaves the record whose image it has taken off the stream, or reports failure. -/
theorem recordRead_spec {locals : ReadLocals} (malloc : locals.malloc = true)
    (realloc : locals.realloc = true) (r : Record) {f : List UInt8} (header : 4 ≤ f.length) :
    ∃ read, recordRead locals r f = .ok read ∧
      (0 ≤ read.count → ∃ body, read.record.body? = some body ∧
        read.count = read.record.size ∧ f = image read.record body ++ read.rest) := by
  obtain ⟨a, b, rest, rfl, first, second⟩ : ∃ a b rest : List UInt8,
      f = a ++ (b ++ rest) ∧ a.length = 2 ∧ b.length = 2 :=
    ⟨f.take 2, (f.drop 2).take 2, (f.drop 2).drop 2, by simp only [List.take_append_drop],
      by rw [List.length_take]; omega, by rw [List.length_take, List.length_drop]; omega⟩
  rw [recordRead_header locals r rest first second]
  have half := Record.half_withHalf r (UInt16.ofNat (ofLe a))
  have length := be_ntohs second
  generalize r.withHalf (UInt16.ofNat (ofLe a)) = q at half
  generalize ntohs (UInt16.ofNat (ofLe b)) = n at length
  by_cases enough : n.toNat ≤ rest.length
  · obtain ⟨body, tail, rfl, bodyLength⟩ : ∃ body tail : List UInt8,
        rest = body ++ tail ∧ body.length = n.toNat :=
      ⟨rest.take n.toNat, rest.drop n.toNat, (List.take_append_drop _ _).symm,
        List.length_take_of_le enough⟩
    by_cases footed : (if q.f = 1 then 4 else 0) ≤ tail.length
    · obtain ⟨foot, left, rfl, footLength⟩ : ∃ foot left : List UInt8,
          tail = foot ++ left ∧ foot.length = if q.f = 1 then 4 else 0 :=
        ⟨tail.take _, tail.drop _, (List.take_append_drop _ _).symm, List.length_take_of_le footed⟩
      have whole := @readPayload_taken body locals malloc realloc { q with length := n } 4 foot left
        bodyLength footLength
      have footer := @taken_footer { q with length := n } body foot footLength
      refine ⟨_, whole, fun _ => ⟨body, taken_body? foot bodyLength, ?_, ?_⟩⟩
      · rw [Record.size, footer]
        simp [taken, Record.withFooter, Record.withBody, bodyLength]
      · have head : (taken { q with length := n } body foot).half = q.half := rfl
        rw [image, footer, head, half, le_ofNat16 first]
        simp only [taken, Record.withFooter, Record.withBody, length, List.append_assoc]
    · have set : q.f = 1 := by
        by_contra unset
        exact footed (by rw [if_neg unset]; exact Nat.zero_le _)
      rw [if_pos set] at footed
      have cut := @readFooter_short (Record.withBody { q with length := n } body) (4 + body.length)
        tail set (by omega)
      refine ⟨_, @readPayload_whole body locals malloc realloc { q with length := n } 4 tail bodyLength, ?_⟩
      intro succeeded
      rw [cut] at succeeded
      omega
  · obtain ⟨read, done, failed⟩ :=
      @readPayload_short locals malloc { q with length := n } 4 rest (by simp only; omega)
    refine ⟨read, done, fun succeeded => ?_⟩
    rw [failed] at succeeded
    omega

/-- What is read whole is written again byte for byte. -/
theorem record_rewritten {locals : ReadLocals} (malloc : locals.malloc = true)
    (realloc : locals.realloc = true) (memory : Record) {f : List UInt8} (header : 4 ≤ f.length) :
    ∃ read, recordRead locals (recordInit memory) f = .ok read ∧
      (0 ≤ read.count →
        read.count = 4 + recordGetLength read.record +
            (if recordHasFooter read.record = 1 then 4 else 0) ∧
          ∀ sink : Sink, read.count ≤ sink.room →
            ∃ sink', recordWrite read.record sink = .ok (read.count, sink') ∧
              sink'.bytes = sink.bytes ++ f.take read.count.toNat) := by
  obtain ⟨read, done, whole⟩ := recordRead_spec malloc realloc (recordInit memory) header
  refine ⟨read, done, fun succeeded => ?_⟩
  obtain ⟨body, held, count, stream⟩ := whole succeeded
  constructor
  · rw [count, recordHasFooter, recordGetLength]
    by_cases set : read.record.f = 1
    · simp [Record.size, footer_some set, set]
    · have unset : read.record.f.toNat ≠ 1 := fun one => set (BitVec.eq_of_toNat_eq one)
      simp [Record.size, footer_none set, unset]
  · intro sink room
    rw [count] at room
    refine ⟨_, by rw [count]; exact recordWrite_spec held (Int.ofNat_le.mp room), ?_⟩
    rw [count, Int.toNat_natCast, ← image_length held, stream, List.take_left]

/-- A record with one byte of payload and a footer, and a byte that is not its own. -/
theorem record_rewritten_sample :
    ∃ read, recordRead ⟨0, 0, true, true⟩ (recordInit ⟨3, 1, 2, none, 9⟩)
        [1, 128, 0, 1, 65, 7, 0, 0, 0, 66] = .ok read ∧
      (0 ≤ read.count →
        read.count = 4 + recordGetLength read.record +
            (if recordHasFooter read.record = 1 then 4 else 0) ∧
          ∀ sink : Sink, read.count ≤ sink.room →
            ∃ sink', recordWrite read.record sink = .ok (read.count, sink') ∧
              sink'.bytes = sink.bytes ++
                [1, 128, 0, 1, 65, 7, 0, 0, 0, 66].take read.count.toNat) :=
  @record_rewritten ⟨0, 0, true, true⟩ rfl rfl ⟨3, 1, 2, none, 9⟩ _ (by decide)

end SegmentTransfer
