import SegmentTransfer.RoundTrip

/-! # Decoding truncated datagrams

`pkt_decode` is given the number of bytes received but compares it only with
zero and four: the rest of the frame is read from the buffer, whatever earlier
datagrams left there. `Settled` says exactly when the bytes received decide the
outcome all the same.
-/

namespace SegmentTransfer

open Bytes

/-- Every buffer that holds the same `len` bytes received gives the same status
    and, on success, a packet no accessor tells apart. -/
def Determined (crc32 : List UInt8 → UInt32) (data : Buf 528) (len : Nat) (dst : Pkt) : Prop :=
  ∀ other : Buf 528, other.bytes.take len = data.bytes.take len →
    ∃ status p q, pktDecode crc32 data len dst = .ok (status, p) ∧
      pktDecode crc32 other len dst = .ok (status, q) ∧ (status = .pktOk → SameView p q)

/-- The bytes received include the header, its checksum and, when they are
    announced and not truncated, the payload and its checksum. -/
def Covers (bs : List UInt8) (len : Nat) : Prop :=
  12 ≤ len ∧ (trField bs = 0 → lengthField bs ≠ 0 → 16 + (lengthField bs).toNat ≤ len)

/-- The received part of a checksum field at `off` already differs from the checksum of `covered`. -/
def Mismatch (crc32 : List UInt8 → UInt32) (bs covered : List UInt8) (off len : Nat) : Prop :=
  (slice bs off 4).take (len - off) ≠ (be 4 (crc32 covered).toNat).take (len - off)

/-- The bytes received decide what the decoder returns. -/
def Settled (crc32 : List UInt8 → UInt32) (bs : List UInt8) (len : Nat) : Prop :=
  len < 4 ∨ maxPayloadSize < (lengthField bs).toNat ∨
    (8 ≤ len ∧ Mismatch crc32 bs (slice bs 0 8) 8 len) ∨
    (12 ≤ len ∧ (trField bs ≠ 0 ∨ lengthField bs = 0 ∨ 16 + (lengthField bs).toNat ≤ len ∨
      (12 + (lengthField bs).toNat ≤ len ∧
        Mismatch crc32 bs (payloadField bs) (12 + (lengthField bs).toNat) len)))

variable {crc32 : List UInt8 → UInt32}

/-! ## What the bytes received say -/

section

variable {as bs : List UInt8} {len : Nat}

theorem lengthField_congr (same : as.take len = bs.take len) (h : 4 ≤ len) :
    lengthField as = lengthField bs := by
  rw [lengthField, lengthField, slice_congr same (by omega)]

theorem trField_congr (same : as.take len = bs.take len) (h : 1 ≤ len) :
    trField as = trField bs := by
  rw [trField, trField, firstField, firstField, slice_congr same (by omega)]

theorem slice_take_congr (same : as.take len = bs.take len) (off k : Nat) :
    (slice as off k).take (len - off) = (slice bs off k).take (len - off) := by
  have cut : ∀ cs : List UInt8, (slice cs off k).take (len - off) =
      ((cs.take len).drop off).take k := by
    intro cs
    rw [slice, List.drop_take, List.take_take, List.take_take, Nat.min_comm]
  rw [cut, cut, same]

theorem mismatch_congr (same : as.take len = bs.take len) {covered : List UInt8} {off : Nat}
    (h : Mismatch crc32 as covered off len) : Mismatch crc32 bs covered off len := by
  rwa [Mismatch, slice_take_congr same] at h

theorem settled_congr (same : as.take len = bs.take len) (h : Settled crc32 as len) :
    Settled crc32 bs len := by
  by_cases short : len < 4
  · exact .inl short
  have length := lengthField_congr same (by omega)
  have tr := trField_congr same (by omega)
  rcases h with h | h | ⟨long, h⟩ | ⟨long, h⟩
  · exact .inl h
  · exact .inr (.inl (length ▸ h))
  · rw [slice_congr same (by omega)] at h
    exact .inr (.inr (.inl ⟨long, mismatch_congr same h⟩))
  · refine .inr (.inr (.inr ⟨long, ?_⟩))
    rcases h with h | h | h | ⟨far, h⟩
    · exact .inl (tr ▸ h)
    · exact .inr (.inl (length ▸ h))
    · exact .inr (.inr (.inl (length ▸ h)))
    · rw [length] at far
      rw [payloadField, length, slice_congr same far] at h
      exact .inr (.inr (.inr ⟨far, mismatch_congr same h⟩))

theorem not_mismatch {covered : List UInt8} {off : Nat} (inside : off + 4 ≤ bs.length)
    (right : ntohl (UInt32.ofNat (ofLe (slice bs off 4))) = crc32 covered) :
    ¬ Mismatch crc32 bs covered off len := by
  rw [Mismatch, ← right, be_ntohl (slice_length inside)]
  exact not_not.mpr rfl

theorem covers_of_settled (size : bs.length = 528) (settled : Settled crc32 bs len)
    (accepted : verdict crc32 bs len = .pktOk) : Covers bs len := by
  obtain ⟨long, fits, crc1, crc2⟩ := verdict_ok accepted
  rcases settled with h | h | ⟨-, h⟩ | ⟨header, h⟩
  · omega
  · omega
  · exact (not_mismatch (by omega) crc1 h).elim
  · refine ⟨header, fun tr nonzero => ?_⟩
    rcases h with h | h | h | ⟨-, h⟩
    · exact (h tr).elim
    · exact (nonzero h).elim
    · exact h
    · simp only [maxPayloadSize] at fits
      exact (not_mismatch (by omega) (crc2 nonzero tr) h).elim

theorem verdict_of_covers (same : as.take len = bs.take len) (covers : Covers as len)
    (accepted : verdict crc32 as len = .pktOk) : verdict crc32 bs len = .pktOk := by
  obtain ⟨long, fits, crc1, crc2⟩ := verdict_ok accepted
  obtain ⟨header, rest⟩ := covers
  have length := lengthField_congr same (by omega)
  have tr := trField_congr same (by omega)
  have right1 : crc1Field bs = crc32 (slice bs 0 8) := by
    rw [crc1Field, slice_congr same (by omega), slice_congr same (by omega)] at crc1
    exact crc1
  rw [length] at fits
  rw [verdict, if_neg (by omega), if_neg (by omega), if_neg (by omega),
    if_neg (not_not.mpr right1), ← tr]
  apply if_neg
  rintro ⟨nonzero, tr0, mismatch⟩
  rw [← length] at nonzero
  have inside := rest tr0 nonzero
  have right2 := crc2 nonzero tr0
  rw [length] at inside
  rw [crc2Field, payloadField, length, slice_congr same (by omega),
    slice_congr same (by omega)] at right2
  exact mismatch right2

theorem sameView_of_covers (same : as.take len = bs.take len) (covers : Covers as len) (dst : Pkt) :
    SameView (received as dst) (received bs dst) := by
  obtain ⟨header, rest⟩ := covers
  have length := lengthField_congr same (by omega)
  have tr := trField_congr same (by omega)
  have head : headed as dst = headed bs dst := by
    have part : ∀ off k, off + k ≤ 12 → slice as off k = slice bs off k :=
      fun off k h => slice_congr same (by omega)
    rw [headed, headed, length, firstField, firstField, crc1Field, crc1Field, part 0 1 (by omega),
      part 1 1 (by omega), part 4 4 (by omega), part 8 4 (by omega)]
  by_cases shown : trField as = 0 ∧ lengthField as ≠ 0
  · have inside := rest shown.1 shown.2
    rw [length] at inside
    have equal : received as dst = received bs dst := by
      have payload : payloadField as = payloadField bs := by
        rw [payloadField, payloadField, length, slice_congr same (by omega)]
      have crc2 : crc2Field as = crc2Field bs := by
        rw [crc2Field, crc2Field, length, slice_congr same (by omega)]
      rw [received, received, head, payload, crc2, length, tr]
    rw [equal]
    exact ⟨rfl, rfl, rfl, rfl, rfl, rfl, rfl, rfl, rfl, Iff.rfl⟩
  · -- no payload is shown on either side, and the rest is the header's
    have none : ∀ cs, lengthField cs = lengthField as → trField cs = trField as →
        pktGetLength (received cs dst) = 0 := by
      intro cs length tr
      rw [received_length, length, tr]
      split
      · rename_i tr0
        by_contra nonzero
        exact shown ⟨tr0, nonzero⟩
      · rfl
    have noneA := none as rfl rfl
    have noneB := none bs length.symm tr.symm
    have field : ∀ {α : Type} (f : Pkt → α), f (headed as dst) = f (headed bs dst) :=
      fun f => congrArg f head
    exact
      { type := field pktGetType, tr := field pktGetTr, window := field pktGetWindow
        seqnum := field pktGetSeqnum, timestamp := field pktGetTimestamp
        crc1 := field pktGetCrc1
        length := by rw [noneA, noneB]
        crc2 := by simp only [pktGetCrc2, noneA, noneB, ne_eq, not_true_eq_false, and_false, if_false]
        payload := by simp only [pktGetPayload, noneA, noneB, if_true]
        absent := by simp only [pktGetPayload, noneA, noneB, if_true] }

theorem verdict_refused (long : 4 ≤ len) (fits : (lengthField bs).toNat ≤ maxPayloadSize)
    (refused : verdict crc32 bs len ≠ .pktOk) : verdict crc32 bs len = .eCrc := by
  rw [verdict, if_neg (by omega), if_neg (by omega), if_neg (by omega)] at refused ⊢
  split
  · rfl
  · rename_i crc1
    rw [if_neg crc1] at refused
    split
    · rfl
    · rename_i crc2
      rw [if_neg crc2] at refused
      exact (refused rfl).elim

theorem verdict_eq_of_iff (same : as.take len = bs.take len)
    (iff : verdict crc32 as len = .pktOk ↔ verdict crc32 bs len = .pktOk) :
    verdict crc32 as len = verdict crc32 bs len := by
  by_cases short : len < 4
  · simp only [verdict, short, if_true]
  have length := lengthField_congr same (by omega)
  by_cases long : (lengthField as).toNat > maxPayloadSize
  · have refused : ∀ cs, lengthField cs = lengthField as → verdict crc32 cs len = .eLength := by
      intro cs h
      rw [verdict, if_neg (by omega), if_neg short, if_pos (by rw [h]; exact long)]
    rw [refused as rfl, refused bs length.symm]
  by_cases accepted : verdict crc32 as len = .pktOk
  · rw [accepted, iff.mp accepted]
  · rw [verdict_refused (by omega) (by omega) accepted,
      verdict_refused (by omega) (by rw [← length]; omega) (fun h => accepted (iff.mpr h))]

end

/-! ## What the bytes not received can say -/

section

variable {bs c₁ c₂ : List UInt8} {len : Nat}

/-- The same frame with other checksum fields. -/
def assemble (bs c₁ c₂ : List UInt8) : List UInt8 :=
  slice bs 0 8 ++ (c₁ ++ (payloadField bs ++ (c₂ ++ bs.drop (16 + (lengthField bs).toNat))))

theorem assemble_self (bs : List UInt8) :
    assemble bs (slice bs 8 4) (slice bs (12 + (lengthField bs).toNat) 4) = bs := by
  have rest : ∀ off k, slice bs off k ++ bs.drop (off + k) = bs.drop off := by
    intro off k
    rw [slice, ← List.drop_drop, List.take_append_drop]
  rw [assemble, payloadField, show 16 + (lengthField bs).toNat = 12 + (lengthField bs).toNat + 4 by omega,
    rest, rest, rest 8 4, rest 0 8, List.drop_zero]

variable (whole : 16 + (lengthField bs).toNat ≤ bs.length) (four₁ : c₁.length = 4)
  (four₂ : c₂.length = 4)

include whole four₁ four₂

theorem assemble_length : (assemble bs c₁ c₂).length = bs.length := by
  have header : (slice bs 0 8).length = 8 := slice_length (by omega)
  have payload : (payloadField bs).length = (lengthField bs).toNat := slice_length (by omega)
  simp only [assemble, List.length_append, header, payload, four₁, four₂, List.length_drop]
  omega

theorem assemble_take (same₁ : c₁.take (len - 8) = (slice bs 8 4).take (len - 8))
    (same₂ : c₂.take (len - (12 + (lengthField bs).toNat)) =
      (slice bs (12 + (lengthField bs).toNat) 4).take (len - (12 + (lengthField bs).toNat))) :
    (assemble bs c₁ c₂).take len = bs.take len := by
  have header : (slice bs 0 8).length = 8 := slice_length (by omega)
  have payload : (payloadField bs).length = (lengthField bs).toNat := slice_length (by omega)
  have old₁ : (slice bs 8 4).length = 4 := slice_length (by omega)
  have old₂ : (slice bs (12 + (lengthField bs).toNat) 4).length = 4 := slice_length (by omega)
  have gap : len - 8 - 4 - (lengthField bs).toNat = len - (12 + (lengthField bs).toNat) := by omega
  conv_rhs => rw [← assemble_self bs]
  simp only [assemble, List.take_append, header, payload, four₁, four₂, old₁, old₂, gap, same₁,
    same₂]

theorem assemble_fields :
    slice (assemble bs c₁ c₂) 0 8 = slice bs 0 8 ∧ slice (assemble bs c₁ c₂) 8 4 = c₁ ∧
      lengthField (assemble bs c₁ c₂) = lengthField bs ∧
      trField (assemble bs c₁ c₂) = trField bs ∧
      payloadField (assemble bs c₁ c₂) = payloadField bs ∧
      slice (assemble bs c₁ c₂) (12 + (lengthField bs).toNat) 4 = c₂ := by
  have headerLength : (slice bs 0 8).length = 8 := slice_length (by omega)
  have payloadLength : (payloadField bs).length = (lengthField bs).toNat := slice_length (by omega)
  have header : slice (assemble bs c₁ c₂) 0 8 = slice bs 0 8 := by
    have self := slice_self (slice bs 0 8)
    rw [headerLength] at self
    rw [assemble, slice_append_left (by omega), self]
  have begins : (assemble bs c₁ c₂).take 8 = bs.take 8 := header
  have length := lengthField_congr begins (by omega)
  refine ⟨header, ?_, length, trField_congr begins (by omega), ?_, ?_⟩
  · have := slice_middle (slice bs 0 8) c₁
      (payloadField bs ++ (c₂ ++ bs.drop (16 + (lengthField bs).toNat)))
    simpa only [headerLength, four₁, assemble, List.append_assoc] using this
  · have := slice_middle (slice bs 0 8 ++ c₁) (payloadField bs)
      (c₂ ++ bs.drop (16 + (lengthField bs).toNat))
    rw [payloadField, length]
    simpa only [headerLength, four₁, payloadLength, assemble, List.append_assoc,
      List.length_append] using this
  · have := slice_middle (slice bs 0 8 ++ c₁ ++ payloadField bs) c₂
      (bs.drop (16 + (lengthField bs).toNat))
    simpa only [headerLength, four₁, four₂, payloadLength, assemble, List.append_assoc,
      List.length_append, ← Nat.add_assoc, Nat.reduceAdd] using this

/-- Whether such a frame is accepted is a matter of its checksum fields. -/
theorem verdict_assemble (long : 4 ≤ len) (fits : (lengthField bs).toNat ≤ maxPayloadSize) :
    verdict crc32 (assemble bs c₁ c₂) len = .pktOk ↔
      c₁ = be 4 (crc32 (slice bs 0 8)).toNat ∧
        (lengthField bs ≠ 0 → trField bs = 0 → c₂ = be 4 (crc32 (payloadField bs)).toNat) := by
  obtain ⟨header, field₁, length, tr, payload, field₂⟩ := assemble_fields whole four₁ four₂
  have field : ∀ {c : List UInt8} {x : UInt32}, c.length = 4 →
      (ntohl (UInt32.ofNat (ofLe c)) = x ↔ c = be 4 x.toNat) := by
    intro c x four
    constructor
    · rintro rfl
      exact (be_ntohl four).symm
    · rintro rfl
      exact ntohl_be32 x
  have right₁ : crc1Field (assemble bs c₁ c₂) = crc32 (slice bs 0 8) ↔
      c₁ = be 4 (crc32 (slice bs 0 8)).toNat := by
    rw [crc1Field, field₁, field four₁]
  have right₂ : crc2Field (assemble bs c₁ c₂) = crc32 (payloadField bs) ↔
      c₂ = be 4 (crc32 (payloadField bs)).toNat := by
    rw [crc2Field, length, field₂, field four₂]
  constructor
  · intro accepted
    obtain ⟨-, -, crc1, crc2⟩ := verdict_ok accepted
    rw [header] at crc1
    rw [length, tr, payload] at crc2
    exact ⟨right₁.mp crc1, fun nonzero tr0 => right₂.mp (crc2 nonzero tr0)⟩
  · rintro ⟨crc1, crc2⟩
    rw [verdict, if_neg (by omega), if_neg (by omega), length, if_neg (by omega), header,
      if_neg (not_not.mpr (right₁.mpr crc1)), tr, payload]
    apply if_neg
    rintro ⟨nonzero, tr0, mismatch⟩
    exact mismatch (right₂.mpr (crc2 nonzero tr0))

end

/-- A checksum field with its last byte changed. -/
def spoil (c : List UInt8) : List UInt8 := c.take 3 ++ (c.drop 3).map (· + 1)

theorem spoil_length (c : List UInt8) : (spoil c).length = c.length := by
  simp only [spoil, List.length_append, List.length_take, List.length_map, List.length_drop]
  omega

theorem spoil_take {c : List UInt8} {k : Nat} (four : c.length = 4) (short : k ≤ 3) :
    (spoil c).take k = c.take k := by
  have three : (c.take 3).length = 3 := by
    rw [List.length_take]
    omega
  rw [spoil, List.take_append_of_le_length (by omega), List.take_take, Nat.min_eq_left short]

theorem spoil_ne {c : List UInt8} (four : c.length = 4) : spoil c ≠ c := by
  intro h
  have last : (c.drop 3).map (· + 1) = c.drop 3 :=
    List.append_cancel_left (h.trans (List.take_append_drop 3 c).symm)
  obtain ⟨b, eq⟩ := List.length_eq_one_iff.mp (show (c.drop 3).length = 1 by
    rw [List.length_drop]
    omega)
  rw [eq] at last
  simp only [List.map_cons, List.map_nil, List.cons.injEq, and_true] at last
  have small := b.toNat_lt
  have := congrArg UInt8.toNat last
  rw [UInt8.toNat_add, show UInt8.toNat 1 = 1 from rfl] at this
  omega

/-- Where the bytes received do not settle the outcome, they go on to a frame that is
    accepted without being covered and to one that is refused. -/
theorem undecided {bs : List UInt8} {len : Nat} (size : bs.length = 528)
    (unsettled : ¬ Settled crc32 bs len) :
    ∃ good bad : List UInt8, good.length = 528 ∧ bad.length = 528 ∧
      good.take len = bs.take len ∧ bad.take len = bs.take len ∧
      verdict crc32 good len = .pktOk ∧ ¬ Covers good len ∧ verdict crc32 bad len ≠ .pktOk := by
  simp only [Settled, not_or, not_and, Mismatch, not_not, Nat.not_lt] at unsettled
  obtain ⟨long, fits, agree₁, rest⟩ := unsettled
  have whole : 16 + (lengthField bs).toNat ≤ bs.length := by
    simp only [maxPayloadSize] at fits
    omega
  -- the two checksums that the frame ought to have, and where they were received
  have four : ∀ c : UInt32, (be 4 c.toNat).length = 4 := fun c => be_length 4 c.toNat
  have spoilt : ∀ c : UInt32, (spoil (be 4 c.toNat)).length = 4 := by
    intro c
    rw [spoil_length, be_length]
  have same₁ : (be 4 (crc32 (slice bs 0 8)).toNat).take (len - 8) =
      (slice bs 8 4).take (len - 8) := by
    by_cases h : 8 ≤ len
    · exact (agree₁ h).symm
    · rw [show len - 8 = 0 by omega, List.take_zero, List.take_zero]
  have same₂ : (be 4 (crc32 (payloadField bs)).toNat).take (len - (12 + (lengthField bs).toNat)) =
      (slice bs (12 + (lengthField bs).toNat) 4).take (len - (12 + (lengthField bs).toNat)) := by
    by_cases h : 12 + (lengthField bs).toNat ≤ len
    · exact ((rest (by omega)).2.2.2 h).symm
    · rw [show len - (12 + (lengthField bs).toNat) = 0 by omega, List.take_zero, List.take_zero]
  have uncovered : ¬ Covers (assemble bs (be 4 (crc32 (slice bs 0 8)).toNat)
      (be 4 (crc32 (payloadField bs)).toNat)) len := by
    rintro ⟨header, covered⟩
    obtain ⟨tr, nonzero, short, -⟩ := rest header
    obtain ⟨-, -, length, trSame, -, -⟩ :=
      assemble_fields whole (four (crc32 (slice bs 0 8))) (four (crc32 (payloadField bs)))
    rw [length, trSame] at covered
    exact short (covered tr nonzero)
  obtain ⟨bad, sizeBad, sameBad, refused⟩ : ∃ bad : List UInt8, bad.length = 528 ∧
      bad.take len = bs.take len ∧ verdict crc32 bad len ≠ .pktOk := by
    by_cases header : 12 ≤ len
    · -- the end of the second checksum is missing
      obtain ⟨tr, nonzero, short, -⟩ := rest header
      refine ⟨assemble bs (be 4 (crc32 (slice bs 0 8)).toNat)
        (spoil (be 4 (crc32 (payloadField bs)).toNat)), ?_, ?_, ?_⟩
      · rw [assemble_length whole (four _) (spoilt _), size]
      · apply assemble_take whole (four _) (spoilt _) same₁
        rw [spoil_take (four _) (by omega), same₂]
      · intro accepted
        exact spoil_ne (four _)
          (((verdict_assemble whole (four _) (spoilt _) long fits).mp accepted).2 nonzero tr)
    · -- the end of the first checksum is missing
      refine ⟨assemble bs (spoil (be 4 (crc32 (slice bs 0 8)).toNat))
        (be 4 (crc32 (payloadField bs)).toNat), ?_, ?_, ?_⟩
      · rw [assemble_length whole (spoilt _) (four _), size]
      · refine assemble_take whole (spoilt _) (four _) ?_ same₂
        rw [spoil_take (four _) (by omega), same₁]
      · intro accepted
        exact spoil_ne (four _)
          ((verdict_assemble whole (spoilt _) (four _) long fits).mp accepted).1
  refine ⟨_, bad, ?_, sizeBad, assemble_take whole (four _) (four _) same₁ same₂, sameBad, ?_,
    uncovered, refused⟩
  · rw [assemble_length whole (four _) (four _), size]
  · exact (verdict_assemble whole (four _) (four _) long fits).mpr ⟨rfl, fun _ _ => rfl⟩

/-! ## When a decoder uses only what was received -/

theorem pktDecode_accepted {data : Buf 528} {len : Nat} {dst : Pkt} :
    (∃ q, pktDecode crc32 data len dst = .ok (.pktOk, q)) ↔
      verdict crc32 data.bytes len = .pktOk := by
  obtain ⟨q, decoded, -⟩ := pktDecode_spec crc32 data len dst
  rw [decoded]
  simp only [Except.ok.injEq, Prod.mk.injEq, exists_and_left, exists_eq', and_true]

theorem determined_of_settled {data : Buf 528} {len : Nat} (settled : Settled crc32 data.bytes len)
    (dst : Pkt) : Determined crc32 data len dst := by
  intro other same
  obtain ⟨p, decoded, filled⟩ := pktDecode_spec crc32 data len dst
  obtain ⟨q, decoded', filled'⟩ := pktDecode_spec crc32 other len dst
  have covers := fun h => covers_of_settled data.size settled h
  have covers' := fun h => covers_of_settled other.size (settled_congr same.symm settled) h
  have equal : verdict crc32 data.bytes len = verdict crc32 other.bytes len :=
    verdict_eq_of_iff same.symm
      ⟨fun h => verdict_of_covers same.symm (covers h) h, fun h => verdict_of_covers same (covers' h) h⟩
  refine ⟨_, p, q, decoded, equal ▸ decoded', fun accepted => ?_⟩
  rw [filled accepted, filled' (equal ▸ accepted)]
  exact sameView_of_covers same.symm (covers accepted) dst

theorem settled_of_determined {data : Buf 528} {len : Nat} {dst : Pkt}
    (determined : Determined crc32 data len dst) : Settled crc32 data.bytes len := by
  by_contra unsettled
  obtain ⟨good, bad, goodSize, badSize, goodSame, badSame, accepted, -, refused⟩ :=
    undecided data.size unsettled
  obtain ⟨status, p, q, decoded, decodedGood, -⟩ := determined ⟨good, goodSize⟩ goodSame
  obtain ⟨status', p', q', decoded', decodedBad, -⟩ := determined ⟨bad, badSize⟩ badSame
  obtain ⟨r, specGood, -⟩ := pktDecode_spec crc32 ⟨good, goodSize⟩ len dst
  obtain ⟨r', specBad, -⟩ := pktDecode_spec crc32 ⟨bad, badSize⟩ len dst
  rw [decoded] at decoded'
  rw [decodedGood] at specGood
  rw [decodedBad] at specBad
  simp only [Except.ok.injEq, Prod.mk.injEq] at decoded' specGood specBad
  exact refused (by rw [← specBad.1, ← decoded'.1, specGood.1]; exact accepted)

/-- A decoder's outcome depends on the bytes received alone, and what it accepts
    was received whole, exactly when the bytes received settle it. -/
theorem decode_determined_iff (data : Buf 528) (len : Nat) (dst : Pkt) :
    (Determined crc32 data len dst ↔ Settled crc32 data.bytes len) ∧
      ((∀ (other : Buf 528) (q : Pkt), other.bytes.take len = data.bytes.take len →
          pktDecode crc32 other len dst = .ok (.pktOk, q) → Covers other.bytes len) ↔
        Settled crc32 data.bytes len) := by
  refine ⟨⟨settled_of_determined, fun settled => determined_of_settled settled dst⟩, ?_, ?_⟩
  · intro whole
    by_contra unsettled
    obtain ⟨good, -, size, -, same, -, accepted, uncovered, -⟩ := undecided data.size unsettled
    obtain ⟨q, decoded⟩ := (@pktDecode_accepted crc32 ⟨good, size⟩ len dst).mpr accepted
    exact uncovered (whole ⟨good, size⟩ q same decoded)
  · intro settled other q same decoded
    exact covers_of_settled other.size (settled_congr same.symm settled)
      (pktDecode_accepted.mp ⟨q, decoded⟩)

/-- Four bytes received into a buffer where an earlier frame left the rest. -/
theorem decode_undetermined :
    ¬ ∀ (data : Buf 528) (len : Nat) (dst : Pkt), Determined Crc.crc32 data len dst := by
  intro determined
  obtain ⟨status, p, q, decoded, decoded', -⟩ := determined sampleBuf 4 samplePkt
    ((Buf.replicate 528 0).fill [0x43, 7, 0, 2]) (by decide)
  have accepted : (pktDecode Crc.crc32 sampleBuf 4 samplePkt).map Prod.fst = .ok .pktOk := by
    decide +kernel
  have refused : (pktDecode Crc.crc32 ((Buf.replicate 528 0).fill [0x43, 7, 0, 2]) 4 samplePkt).map
      Prod.fst = .ok .eCrc := by
    decide +kernel
  rw [decoded] at accepted
  rw [decoded'] at refused
  simp only [Except.map, Except.ok.injEq] at accepted refused
  rw [accepted] at refused
  cases refused

end SegmentTransfer
