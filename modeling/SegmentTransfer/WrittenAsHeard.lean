import SegmentTransfer.Integrity

/-! # What a receiver takes and writes

A pass takes at most one data packet, and a receiver writes what the places of
the packets it took say: the programs follow the places of the protocol, first by
values and then with their blocks.
-/

namespace SegmentTransfer

open Bytes Outcome

/-- The data packet that a pass takes: from the bytes then in its buffer, accepted, with `TR = 0` and
    a payload. -/
def heardIn (crc32 : List UInt8 → UInt32) (listens : Bool) (buf : Buf 528) (written : Nat) :
    Option ReadResult → Option Heard
  | some (some d) =>
      let bytes := (buf.fill d).bytes
      if listens = true ∧ verdict crc32 bytes (min d.length 528) = .pktOk ∧
          typeField bytes = ptypeData ∧ trField bytes = 0 ∧ lengthField bytes ≠ 0 then
        some ⟨UInt8.ofNat (ofLe (slice bytes 1 1)), payloadField bytes, written⟩
      else none
  | _ => none

/-- The payloads behind the labels. -/
def payloadOf (heard : List Heard) (n : Nat) : List UInt8 :=
  ((heard[n / 256]?).map Heard.payload).getD []

theorem payloadOf_latest {m : Nat} (latest : Latest heard k (m / 256) h) :
    payloadOf heard m = h.payload := by
  rw [payloadOf, latest.here, Option.map_some, Option.getD_some]

namespace Receiver

variable {crc32 : List UInt8 → UInt32} {chunk chunk' : Nat → List UInt8} {r r' : Receiver}
  {a a' : Protocol.Receiver} {arrival : Arrival} {out : List (List UInt8)}

/-- The packet that `receive_data` reads in a pass. -/
def hearing (crc32 : List UInt8 → UInt32) (r : Receiver) (arrival : Arrival) : Option Heard :=
  heardIn crc32 r.listens r.packetEncoded r.writes.length arrival.datagram

theorem Shows.rename (shown : r.Shows chunk a) (written : ∀ m ∈ a.written, chunk' m = chunk m)
    (held : ∀ i < 3, ∀ m, a.slots i = some m → chunk' m = chunk m) : r.Shows chunk' a :=
  { shown with
    slots := by
      intro i three
      have here := shown.slots i three
      have same := held i three
      revert here same
      cases a.slots i with
      | none => exact fun here _ => here
      | some m =>
          intro here same
          rw [ShowsSlot, same m rfl]
          exact here
    writes := by
      rw [shown.writes]
      exact (List.map_congr_left written).symm }

theorem Shows.replied (shown : r.Shows chunk a) (clock : Timeval) (stack : Buf 20) (seqnum : Int)
    {ack : Nat} (kind : ack = ptypeAck ∨ ack = ptypeNack) :
    ∃ r' out, r.reply crc32 clock stack seqnum ack = .ok (r', out) ∧ r'.Shows chunk a := by
  have numbered : UInt8.ofInt (seqnum + 1) = UInt8.ofNat (UInt8.ofInt (seqnum + 1)).toNat :=
    UInt8.ofNat_toNat.symm
  obtain ⟨p, d, sent, tr, -⟩ := sendAck_spec crc32 shown.ackTr kind receiverWindow_fits numbered
    clock stack (pktGetTimestamp r.pktRcv)
  refine ⟨{ r with pktAck := p }, [d], ?_, { shown with ackTr := tr }⟩
  simp only [Receiver.reply, sent, ok_bind]
  rfl

theorem received_fields (buf : Buf 528) (pkt : Pkt) :
    pktGetTr (received buf.bytes pkt) = (trField buf.bytes).toNat ∧
      pktGetType (received buf.bytes pkt) = typeField buf.bytes ∧
      pktGetSeqnum (received buf.bytes pkt) = UInt8.ofNat (ofLe (slice buf.bytes 1 1)) ∧
      (trField buf.bytes = 0 → pktGetLength (received buf.bytes pkt) = lengthField buf.bytes) := by
  refine ⟨rfl, rfl, rfl, fun tr => ?_⟩
  have length : ntohs (received buf.bytes pkt).length = lengthField buf.bytes := ntohs_htons _
  rw [pktGetLength, length]
  exact if_pos tr

/-- A packet that is taken goes to the slots as its payload, under any number that is its own
    modulo 256. -/
theorem Shows.hears (shown : r.Shows chunk a) {n : Nat} (taken : r.hearing crc32 arrival = some h)
    (numbered : n % 256 = h.seqnum.toNat % 256) (payload : chunk n = h.payload)
    (passed : r.pass crc32 arrival = .ok (r', out)) :
    h.written = a.done ∧ ∃ a', (a.place n).drain = .ok a' ∧ r'.Shows chunk a' := by
  unfold hearing heardIn at taken
  split at taken
  · rename_i d datagram
    rw [Option.ite_none_right_eq_some] at taken
    obtain ⟨⟨listens, accepted, type, tr, nonzero⟩, same⟩ := taken
    cases same
    refine ⟨by rw [shown.writes, List.length_map]; rfl, ?_⟩
    generalize filled : r.packetEncoded.fill d = buf at *
    obtain ⟨q, decoded, left⟩ := pktDecode_spec crc32 buf (min d.length 528) r.pktRcv
    rw [accepted] at decoded
    obtain rfl := left accepted
    have some_ : ¬ min d.length 528 = 0 := by
      intro zero
      rw [zero] at accepted
      cases accepted
    obtain ⟨fits, -⟩ := (verdict_ok accepted).2
    obtain ⟨getTr, getType, getSeqnum, getLength⟩ := received_fields buf r.pktRcv
    have bodyLength : (payloadField buf.bytes).length = (lengthField buf.bytes).toNat := by
      apply slice_length
      simp only [maxPayloadSize] at fits
      rw [buf.size]
      omega
    have nonempty : payloadField buf.bytes ≠ [] := by
      intro empty
      rw [empty] at bodyLength
      exact nonzero (UInt16.toNat_inj.mp bodyLength.symm)
    have number : UInt8.ofNat (ofLe (slice buf.bytes 1 1)) = UInt8.ofNat n := by
      rw [← ofNat_mod n, numbered, ofNat_mod]
      exact UInt8.ofNat_toNat.symm
    have open_ : r.returned = false ∧ r.endFile = false := by
      simpa [Receiver.listens] using listens
    have reads : r.pass crc32 arrival = ({ r with
        packetEncoded := buf, pktRcv := received buf.bytes r.pktRcv } : Receiver).handleData
          crc32 arrival.clock arrival.stack := by
      simp only [Receiver.pass, open_, datagram, Receiver.receivePacket, filled, some_, decoded,
        ok_bind, getType, type, and_self, Bool.false_eq_true, if_false, if_true]
    have stored : Shows chunk
        { r with packetEncoded := buf, pktRcv := received buf.bytes r.pktRcv } a := { shown with }
    have agree := @Shows.handleSegment crc32 chunk _ a stored arrival.clock arrival.stack n
      (payload ▸ nonempty) (getTr.trans (congrArg BitVec.toNat tr)) (getSeqnum.trans number)
      (by rw [payload, getLength tr, bodyLength])
      (by
        rw [payload, if_neg nonempty, pktGetPayload, getLength tr, if_neg nonzero]
        exact if_neg nonzero)
    rw [reads] at passed
    obtain ⟨⟨a', acks⟩, passed', shown', -⟩ := agree.of_ok_left passed
    obtain ⟨a'', drained, rest⟩ := bind_eq_ok.mp passed'
    cases rest
    exact ⟨_, drained, shown'⟩
  · cases taken

/-- A pass that takes no packet leaves what is written and what is held. -/
theorem Shows.quiet (shown : r.Shows chunk a) (nothing : r.hearing crc32 arrival = none)
    (passed : r.pass crc32 arrival = .ok (r', out)) :
    ∃ a', r'.Shows chunk a' ∧ a'.written = a.written ∧ a'.slots = a.slots := by
  unfold Receiver.pass at passed
  split at passed
  · cases passed
    exact ⟨a, shown, rfl, rfl⟩
  rename_i running
  split at passed
  · rename_i open_
    split at passed
    · cases passed
      exact ⟨a, shown, rfl, rfl⟩
    rename_i result datagram
    cases result with
    | none =>
        cases passed
        exact ⟨{ a with returned := true }, { shown with returned := rfl }, rfl, rfl⟩
    | some d =>
        simp only [hearing, heardIn, datagram] at nothing
        simp only [Receiver.receivePacket] at passed
        generalize r.packetEncoded.fill d = buf at nothing passed
        obtain ⟨q, decoded, left⟩ := pktDecode_spec crc32 buf (min d.length 528) r.pktRcv
        have stored : ∀ q, Shows chunk { r with packetEncoded := buf, pktRcv := q } a :=
          fun q => { shown with }
        split at passed
        · cases passed
          exact ⟨a, stored r.pktRcv, rfl, rfl⟩
        simp only [decoded, ok_bind] at passed
        split at passed
        · rename_i data
          obtain rfl := left data.1
          obtain ⟨getTr, getType, -, getLength⟩ := received_fields buf r.pktRcv
          unfold Receiver.handleData at passed
          simp only at passed
          split at passed
          · obtain ⟨r'', out', replied, shown'⟩ := @replied crc32 chunk _ a (stored _)
              arrival.clock arrival.stack _ ptypeNack (.inr rfl)
            rw [replied] at passed
            cases passed
            exact ⟨a, shown', rfl, rfl⟩
          rename_i one
          have tr : trField buf.bytes = 0 := by
            rw [getTr] at one
            apply BitVec.eq_of_toNat_eq
            have : (0 : BitVec 1).toNat = 0 := rfl
            omega
          rw [getLength tr] at passed
          split at passed
          · cases passed
            exact ⟨{ a with endFile := true },
              { stored (received buf.bytes r.pktRcv) with endFile := rfl }, rfl, rfl⟩
          rename_i nonzero
          have listens : r.listens = true := by simp [Receiver.listens, running, open_]
          rw [if_pos ⟨listens, data.1, getType.symm.trans data.2, tr, nonzero⟩] at nothing
          cases nothing
        · cases passed
          exact ⟨a, stored q, rfl, rfl⟩
  · split at passed
    · obtain ⟨r'', out', replied, shown'⟩ := @replied crc32 chunk r a shown arrival.clock
        arrival.stack ((r.seqExp : Int) - 1) ptypeAck (.inl rfl)
      rw [replied] at passed
      cases passed
      exact ⟨{ a with count := r''.count + 1 },
        { shown' with count := rfl }, rfl, rfl⟩
    · cases passed
      exact ⟨{ a with returned := true }, { shown with returned := rfl }, rfl, rfl⟩

/-- The receiver shows a protocol receiver whose segments are the packets heard. -/
def Traced (heard : List Heard) (r : Receiver) : Prop :=
  ∃ a, r.Shows (payloadOf heard) a ∧ Protocol.Receiver.Filed heard a ∧
    a.slots (a.done % 3) = none

theorem Traced.start (memoryRcv memoryAck : Pkt) (buf : Buf 528) :
    Traced [] (.start memoryRcv memoryAck buf) :=
  ⟨.start, .start _ memoryRcv memoryAck buf, .start, rfl⟩

theorem Shows.append (shown : r.Shows (payloadOf heard) a) (filed : Protocol.Receiver.Filed heard a)
    (new : Heard) : r.Shows (payloadOf (heard ++ [new])) a := by
  have same : ∀ k m h, Latest heard k (m / 256) h →
      payloadOf (heard ++ [new]) m = payloadOf heard m := by
    intro k m h latest
    rw [payloadOf, payloadOf, List.getElem?_append_left (List.getElem?_eq_some_iff.mp latest.here).1]
  apply shown.rename
  · intro m member
    obtain ⟨k, there⟩ := List.mem_iff_getElem?.mp member
    obtain ⟨h, latest⟩ := filed.written k m there
    exact same k m h latest
  · intro i three m there
    obtain ⟨k, low, high, slot⟩ : ∃ k, a.done ≤ k ∧ k ≤ a.done + 2 ∧ k % 3 = i :=
      ⟨a.done + (i + 3 - a.done % 3) % 3, by omega, by omega, by omega⟩
    rw [← slot] at there
    obtain ⟨h, latest⟩ := filed.held k m low high there
    exact same k m h latest

theorem Traced.pass (traced : r.Traced heard) (passed : r.pass crc32 arrival = .ok (r', out)) :
    r'.Traced (heard ++ (r.hearing crc32 arrival).toList) := by
  obtain ⟨a, shown, filed, missing⟩ := traced
  cases hearing : r.hearing crc32 arrival with
  | none =>
      obtain ⟨a', shown', written, slots⟩ := shown.quiet hearing passed
      rw [Option.toList_none, List.append_nil]
      refine ⟨a', shown', filed.congr written slots, ?_⟩
      rw [Protocol.Receiver.done, written, slots]
      exact missing
  | some h =>
      have named : payloadOf (heard ++ [h]) (Protocol.Receiver.label heard.length h) = h.payload := by
        rw [payloadOf, Protocol.Receiver.label_div, List.getElem?_concat_length]
        rfl
      obtain ⟨now, a', drained, shown'⟩ := (shown.append filed h).hears hearing
        (Protocol.Receiver.label_mod heard.length h) named passed
      obtain ⟨filed', missing'⟩ := filed.arrival now drained
      exact ⟨a', shown', filed', missing'⟩

/-- Every place written has the last packet heard that fits it, and the next place has none. -/
theorem Traced.sources (traced : r.Traced heard) :
    (∃ source : Nat → Nat, Set.InjOn source (Set.Iio r.writes.length) ∧
      ∀ k bytes, r.writes[k]? = some bytes →
        ∃ h, Latest heard k (source k) h ∧ h.payload = bytes) ∧
      ∀ h ∈ heard, ¬ h.Fits r.writes.length := by
  obtain ⟨a, shown, filed, missing⟩ := traced
  have length : r.writes.length = a.done := by
    rw [shown.writes, List.length_map]
    rfl
  let source : Nat → Nat := fun k => (a.written[k]?.getD 0) / 256
  have latest : ∀ k m, a.written[k]? = some m → ∃ h, Latest heard k (source k) h ∧
      h.payload = payloadOf heard m := by
    intro k m there
    obtain ⟨h, latest⟩ := filed.written k m there
    refine ⟨h, ?_, (payloadOf_latest latest).symm⟩
    simp only [source, there, Option.getD_some]
    exact latest
  refine ⟨⟨source, ?_, ?_⟩, ?_⟩
  · intro k inside k' inside' same
    rw [Set.mem_Iio, length] at inside inside'
    obtain ⟨h, left, -⟩ := latest k _ (List.getElem?_eq_getElem inside)
    obtain ⟨h', right, -⟩ := latest k' _ (List.getElem?_eq_getElem inside')
    have one : some h = some h' := left.here.symm.trans (same ▸ right.here)
    rw [← Option.some.inj one] at right
    exact left.fits.unique right.fits
  · intro k bytes there
    rw [shown.writes, List.getElem?_map, Option.map_eq_some_iff] at there
    obtain ⟨m, there, rfl⟩ := there
    exact latest k m there
  · rw [length]
    exact filed.free a.done (Nat.le_refl _) (by omega) missing

end Receiver

/-! ## The receiver with its blocks -/

namespace Blocks

/-- The packet that `receive_data` reads in a pass. -/
def Receiver.hearing (crc32 : List UInt8 → UInt32) (r : Receiver) (arrival : Arrival) :
    Option Heard :=
  heardIn crc32 (!r.returned && !r.endFile) r.packetEncoded r.writes.length arrival.datagram

/-- A receiver with everything it has heard. -/
structure Archive where
  rcv : Receiver
  heard : List Heard

/-- Any arrivals, with a record of the data packets taken. -/
def archive (crc32 : List UInt8 → UInt32) : Transition Archive Arrival where
  init s := (receiverLoop crc32).init s.rcv ∧ s.heard = []
  step s arrival s' := (receiverLoop crc32).step s.rcv arrival s'.rcv ∧
    s'.heard = s.heard ++ (s.rcv.hearing crc32 arrival).toList

variable {crc32 : List UInt8 → UInt32} {s s' : Archive} {arrival : Arrival}

/-- The receiver is viewed as one whose segments are the packets heard. -/
def Archive.Traced (s : Archive) : Prop :=
  ∃ c, s.rcv.Viewed c ∧ c.Traced s.heard

theorem Receiver.Viewed.hearing {r : Receiver} {c : SegmentTransfer.Receiver} (viewed : r.Viewed c)
    (arrival : Arrival) : c.hearing crc32 arrival = r.hearing crc32 arrival := by
  rw [SegmentTransfer.Receiver.hearing, Receiver.hearing, viewed.writes,
    SegmentTransfer.Receiver.listens, viewed.returned]
  cases running : r.returned with
  | false =>
      obtain ⟨-, rfl⟩ := viewed.running running
      rfl
  | true =>
      -- after its return neither hears anything
      cases arrival.datagram with
      | none => rfl
      | some result => cases result <;> simp [heardIn]

theorem Archive.Traced.step (traced : s.Traced) (next : (archive crc32).step s arrival s')
    (keeps : s.rcv.KeepsSlots crc32 arrival) : s'.Traced := by
  obtain ⟨c, viewed, traced⟩ := traced
  obtain ⟨c', ⟨out, passed⟩, viewed'⟩ :=
    (receiver_simulated crc32).step s.rcv c arrival s'.rcv viewed ⟨next.1, keeps⟩
  refine ⟨c', viewed', ?_⟩
  rw [next.2, ← viewed.hearing]
  exact traced.pass passed

/-- Whatever arrives, as long as no slot loses its block: at each place of the output is the payload
    of a packet of its own, the last one taken that fitted the place, and nothing taken fits the
    first place that is not written. -/
theorem written_as_heard (reach : ((archive crc32).restrict
      fun s arrival => s.rcv.KeepsSlots crc32 arrival).Reachable s) :
    (∃ source : Nat → Nat, Set.InjOn source (Set.Iio s.rcv.writes.length) ∧
      ∀ k bytes, s.rcv.writes[k]? = some bytes →
        ∃ h, Latest s.heard k (source k) h ∧ h.payload = bytes) ∧
      ∀ h ∈ s.heard, ¬ h.Fits s.rcv.writes.length := by
  obtain ⟨c, viewed, traced⟩ : s.Traced := by
    apply reach.induct
    · rintro s ⟨⟨memoryRcv, memoryAck, buf, starts⟩, nothing⟩
      rw [Archive.Traced, starts, nothing]
      exact ⟨_, (Receiver.Sound.start memoryRcv memoryAck buf).viewed, .start memoryRcv memoryAck buf⟩
    · intro s arrival s' traced next
      exact traced.step next.1 next.2
  rw [← viewed.writes]
  exact traced.sources

theorem archive_takes {C : Archive → Arrival → Prop} {c : SegmentTransfer.Receiver}
    {chunk : Nat → List UInt8} {a a' : Protocol.Receiver} {item : Protocol.Item} {acks : List Nat}
    {d : List UInt8} (reach : ((archive crc32).restrict C).Reachable s) (seen : s.rcv.Viewed c)
    (h : c.Shows chunk a) (shown : ShowsItem crc32 chunk d item)
    (passed : a.pass (some item) = .ok (a', acks))
    (meets : C s ⟨some (some d), ⟨0, 0⟩, .replicate 20 0⟩) :
    ∃ s' c', ((archive crc32).restrict C).Reachable s' ∧ s'.rcv.Viewed c' ∧ c'.Shows chunk a' := by
  obtain ⟨r', c', out, received, seen', shown'⟩ := seen.takes h shown passed ⟨0, 0⟩ (.replicate 20 0)
  exact ⟨⟨r', _⟩, c', reach.step ⟨⟨⟨out, received⟩, rfl⟩, meets⟩, seen', shown'⟩

/-- Of three segments the second comes late, after the third and after a second copy of the first. -/
theorem written_as_heard_sample : ∃ s : Archive, s.rcv.writes = [[0], [1], [2]] ∧
    ∃ m h, Latest s.heard 1 m h ∧ h.payload = [1] := by
  let chunk : Nat → List UInt8 := fun n => [UInt8.ofNat n]
  have item : ∀ n, ShowsItem Crc.crc32 chunk _ (.seg n 0) := fun n =>
    ⟨(singleton_payload _).1, (singleton_payload _).2, 1, isFrame_dataPkt Crc.crc32 n (chunk n)⟩
  have begins : ((archive Crc.crc32).restrict
      fun s arrival => s.rcv.KeepsSlots Crc.crc32 arrival).Reachable
        ⟨.start firstPkt firstPkt (.replicate 528 0), []⟩ := .of_init ⟨⟨_, _, _, rfl⟩, rfl⟩
  obtain ⟨s₁, c₁, first, seen₁, shown₁⟩ := archive_takes begins
    (Receiver.Sound.start firstPkt firstPkt (.replicate 528 0)).viewed
    (SegmentTransfer.Receiver.Shows.start chunk _ _ _) (item 0) rfl
    (Receiver.keepsSlots_item (item 0) rfl)
  obtain ⟨s₂, c₂, held, seen₂, shown₂⟩ := archive_takes first seen₁ shown₁ (item 2) rfl
    (Receiver.keepsSlots_item (item 2) rfl)
  obtain ⟨s₃, c₃, again, seen₃, shown₃⟩ := archive_takes held seen₂ shown₂ (item 0) rfl
    (Receiver.keepsSlots_item (item 0) rfl)
  obtain ⟨s, c, filled, seen, shown⟩ := archive_takes again seen₃ shown₃ (item 1) rfl
    (Receiver.keepsSlots_item (item 1) rfl)
  have writes : s.rcv.writes = [[0], [1], [2]] := by
    rw [← seen.writes, shown.writes]
    rfl
  obtain ⟨⟨source, -, sources⟩, -⟩ := written_as_heard filled
  obtain ⟨h, latest, payload⟩ := sources 1 [1] (by rw [writes]; rfl)
  exact ⟨s, writes, _, h, latest, payload⟩

end Blocks

end SegmentTransfer
