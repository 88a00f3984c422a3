import SegmentTransfer.SessionPasses

/-! # When the two programs meet

The receiver's loop is reached if and only if both programs are given one
address: that of one host, and ports that agree as far as 16 bits go.
-/

namespace SegmentTransfer

open Udp Outcome Bytes

variable {ι : Type} [DecidableEq ι]

/-- Both names give one address, and the ports agree as far as 16 bits go; a receiver without a port
    is given one. -/
structure Setup.Matches (setup : Setup ι) : Prop where
  host : ∃ host, realAddress setup.getaddrinfo setup.sndArgs.hostname = some host ∧
    realAddress setup.getaddrinfo setup.rcvArgs.hostname = some host
  sending : 0 < setup.sndArgs.port ∧ UInt16.ofInt setup.sndArgs.port ≠ 0
  receiving : 0 < setup.rcvArgs.port
  port : UInt16.ofInt setup.rcvArgs.port = 0 ∨
    UInt16.ofInt setup.sndArgs.port = UInt16.ofInt setup.rcvArgs.port

section

variable {crc32 : List UInt8 → UInt32} {setup : Setup ι} {s : Session ι}

/-- The first pass of the sender sends the first chunk. -/
theorem first_pass (crc32 : List UInt8 → UInt32) (file : Bool) {input : List (List UInt8)}
    (readable : Readable input) (some : input ≠ []) (memory : Pkt) (buf : Buf 528) :
    ∃ snd d, (Sender.start file memory buf).pass crc32
      { fd := .some (.some (input.headD [])), sfd := none, sendClock := ⟨0, 0⟩
        replyClock := ⟨0, 0⟩, timerClock := ⟨0, 0⟩, memory := fun _ => 0 } = .ok (snd, [d]) ∧
      snd.phase = .main ∧ snd.endFile = false ∧ snd.seqInd = 1 := by
  let n : Network :=
    { snd := .start file memory buf, rcv := .start memory memory buf, input, toRcv := []
      toSnd := [] }
  have shown : n.Shows crc32 input (.start file) := .start ⟨memory, memory, memory, buf, buf, rfl⟩
  obtain ⟨k, length⟩ : ∃ k, input.length = k + 1 :=
    Nat.exists_eq_succ_of_ne_zero (mt List.eq_nil_of_length_eq_zero some)
  obtain ⟨a, item, sends, sent, main, endFile, one⟩ : ∃ a item,
      (Protocol.State.start file).step input.length .reads = .ok a ∧ a.toRcv = [item] ∧
        a.snd.phase = .main ∧ a.snd.endFile = false ∧ a.snd.sent = 1 := by
    rw [length]
    exact ⟨_, _, rfl, rfl, rfl, rfl, rfl⟩
  obtain ⟨n', sends', shown'⟩ := (shown.step readable .reads).of_ok_right sends
  obtain ⟨⟨snd, out⟩, passed, rest⟩ := bind_eq_ok.mp sends'
  cases rest
  have toRcv := shown'.toRcv
  rw [sent] at toRcv
  obtain ⟨d, l, -, none, is⟩ := List.forall₂_cons_right_iff.mp toRcv
  rw [List.forall₂_nil_right_iff] at none
  subst none
  simp only [n, List.nil_append] at is
  subst is
  exact ⟨snd, d, passed, shown'.snd.phase.trans main, shown'.snd.endFile.trans endFile,
    shown'.snd.seqInd.trans one⟩

/-- No datagram is lost, and chunks are read inside the window. -/
def Session.Smooth (setup : Setup ι) (s : Session ι) (event : SessionEvent ι) : Prop :=
  s.Lossless setup event ∧ s.ReadsInWindow setup event

theorem Session.Lossless.smooth {event : SessionEvent ι} (lossless : s.Lossless setup event)
    (call : ∀ e, event ≠ .pass e) : s.Smooth setup event :=
  ⟨lossless, lossless.1, fun e _ _ is => (call e is).elim⟩

theorem Session.smooth_reads {here : Option (Address ι)} {file : Bool} {memory : Pkt}
    {buf : Buf 528} (begins : s.snd = .loop here (.start file memory buf)) :
    s.Smooth setup (.pass .reads) := by
  refine ⟨⟨trivial, fun _ => rfl⟩, trivial, ?_⟩
  · rintro e here' n ⟨⟩ there _
    rw [begins] at there
    injection there with _ snd
    intro _ _
    rw [← snd]
    simp [Sender.outstanding, Sender.start]

omit [DecidableEq ι] in
theorem exists_own (host : ι) (b : Address ι) : ∃ a : Address ι, a.1 = host ∧ a.2 ≠ 0 ∧ a ≠ b := by
  have ports : (2 : UInt16) ≠ 0 ∧ (2 : UInt16) ≠ 1 ∧ (1 : UInt16) ≠ 0 := by decide
  by_cases one : b.2 = 1
  · refine ⟨(host, 2), rfl, ports.1, fun same => ?_⟩
    rw [← same] at one
    exact ports.2.1 one
  · exact ⟨(host, 1), rfl, ports.2.2, fun same => one (congrArg Prod.snd same).symm⟩

omit [DecidableEq ι] in
/-- The receiver gets the address that the sender is told. -/
theorem Setup.Matches.bound (agree : setup.Matches) (host : ι) {free : Address ι}
    (chosen : free.2 = UInt16.ofInt setup.sndArgs.port) :
    boundAddress free host setup.rcvArgs.port = (host, UInt16.ofInt setup.sndArgs.port) := by
  rw [boundAddress, chosen]
  rcases agree.port with zero | same
  · rw [if_pos zero]
  · rw [← same, if_neg agree.sending.2]

theorem Session.receives {host : ι} {b : Address ι} {calls : SocketCalls ι}
    (name : realAddress setup.getaddrinfo setup.rcvArgs.hostname = some host)
    (positive : 0 < setup.rcvArgs.port) (socket : calls.socket = true) (binds : calls.bind = true)
    (bound : boundAddress calls.free host setup.rcvArgs.port = b) :
    (Session.start setup).step crc32 setup (.receiveData calls) =
      .ok ⟨Net.closed.bind b, .before, .waiting (some b), setup.input⟩ := by
  have created := @createSocket_binds ι _ calls host setup.rcvArgs.port 0 .closed socket binds
    positive rfl
  rw [bound] at created
  simp only [Session.step, Session.start, Session.receiveData, name, created]
  rfl

theorem Session.begins {host : ι} {a b : Address ι} (port : a.2 ≠ 0) (own : a.1 = setup.sndHost)
    (other : a ≠ b) (name : realAddress setup.getaddrinfo setup.sndArgs.hostname = some host)
    (positive : 0 < setup.sndArgs.port) (told : b = (host, UInt16.ofInt setup.sndArgs.port))
    (pkt : Pkt) (buf : Buf 528) :
    Session.step crc32 setup ⟨Net.closed.bind b, .before, .waiting (some b), setup.input⟩
        (.sendData ⟨true, true, true, a, port⟩ true ⟨some pkt, some pkt, buf⟩) =
      .ok ⟨(Net.closed.bind b).connect a b,
        .loop (some a) (.start setup.sndArgs.file.isSome pkt buf), .waiting (some b),
        setup.input⟩ := by
  have free : ((Net.closed.bind b).socket a).bound = false := by
    simp only [Net.bind, Net.setSocket_ne _ _ other]
    rfl
  have created := @createSocket_connects ι _ ⟨true, true, true, a, port⟩ host setup.sndArgs.port 0
    (Net.closed.bind b) rfl rfl positive free
  have same : (setup.sndHost, a.2) = a := by rw [← own]
  simp only [Session.step, Session.sendData, name, same, created, ← told]
  simp only [Allocations.packets, orFail_some, ok_bind, pure_eq_ok, Bool.not_true, Bool.and_false,
    Bool.false_eq_true, if_false]

/-- Programs that match can meet, with nothing lost. -/
theorem Setup.Matches.meets (agree : setup.Matches) (readable : Readable setup.input)
    (some : setup.input ≠ []) :
    ∃ s a b snd r, ((session crc32 setup).restrict (Session.Smooth setup)).Reachable s ∧
      s.snd = .loop (.some a) snd ∧ s.rcv = .loop b r ∧ snd.phase = .main ∧
      snd.endFile = false ∧ snd.seqInd = 1 := by
  obtain ⟨host, name, name'⟩ := agree.host
  obtain ⟨positive, nonzero⟩ := agree.sending
  obtain ⟨b, told⟩ : ∃ b : Address ι, b = (host, UInt16.ofInt setup.sndArgs.port) := ⟨_, rfl⟩
  obtain ⟨a, own, port, other⟩ := exists_own setup.sndHost b
  let pkt : Pkt :=
    { window := 0, tr := 0, type := 0, seqnum := 0, length := 0, timestamp := 0, crc1 := 0
      payload := .null, crc2 := 0 }
  let memory : Allocations := ⟨.some pkt, .some pkt, .replicate 528 0⟩
  let serves : SocketCalls ι := ⟨true, true, true, b, by rwa [told]⟩
  obtain ⟨snd, d, passed, main, endFile, one⟩ := first_pass crc32 setup.sndArgs.file.isSome readable some
    pkt (.replicate 528 0)
  have next : ∀ {s t : Session ι} (event : SessionEvent ι),
      ((session crc32 setup).restrict (Session.Smooth setup)).Reachable s →
      s.Smooth setup event → s.step crc32 setup event = .ok t →
      ((session crc32 setup).restrict (Session.Smooth setup)).Reachable t :=
    fun _ reach smooth step => reach.step ⟨step, smooth⟩
  have bound : boundAddress serves.free host setup.rcvArgs.port = b :=
    (agree.bound host (congrArg Prod.snd told)).trans told.symm
  have waits := next (.receiveData serves) (.of_init rfl)
    (Session.Lossless.smooth ⟨trivial, trivial⟩ (fun _ is => by cases is))
    (Session.receives name' agree.receiving rfl rfl bound)
  have begins := next (.sendData ⟨true, true, true, a, port⟩ true memory) waits
    (Session.Lossless.smooth ⟨trivial, trivial⟩ (fun _ is => by cases is))
    (Session.begins port own other name positive told pkt (.replicate 528 0))
  have sent := next
    (t := ⟨((Net.closed.bind b).connect a b).write a [d], .loop (.some a) snd,
      .waiting (.some b), _⟩)
    (.pass .reads) begins (Session.smooth_reads rfl) (by
      simp only [Session.step, Session.pass, Event.reads, Session.senderPass, Session.arriving,
        Bool.false_eq_true, if_false, if_true, passed, ok_bind, Session.after, Bool.false_and]
      rfl)
  have listening : ((((Net.closed.bind b).connect a b).write a [d]).socket b).bound = true ∧
      ((((Net.closed.bind b).connect a b).write a [d]).socket b).peer = none := by
    rw [Net.write_socket, Net.connect, Net.setSocket_ne _ _ other.symm, Net.bind, Net.setSocket_self]
    exact ⟨rfl, rfl⟩
  have connected : (((Net.closed.bind b).connect a b).socket a).peer = .some b := by
    rw [Net.connect, Net.setSocket_self]
  have queued := Net.first_arrival other d
  have arrived := next (.deliver 0) sent
    (Session.Lossless.smooth ⟨fun _ _ _ member => (List.not_mem_nil member).elim, fun e there _ => by
        have under : (((Net.closed.bind b).connect a b).write a [d]).flight[0]? =
            .some ⟨a, b, d⟩ := by
          rw [Net.write, connected]
          rfl
        rw [under] at there
        cases there
        rw [Socket.takes, listening.1, listening.2]
        rfl⟩ (fun _ is => by cases is)) rfl
  have undisturbed : ∀ e ∈ ((((((Net.closed.bind b).connect a b).write a [d]).deliver 0).socket
      b).queue), Option.some a = .some e.src := by
    intro e member
    rw [queued] at member
    rw [List.mem_singleton.mp member]
  have joined := next
    (t := ⟨((((Net.closed.bind b).connect a b).write a [d]).deliver 0).connect b a,
      .loop (.some a) snd, .loop b (.start pkt pkt (.replicate 528 0)), _⟩)
    (.waitForClient true true memory) arrived
    (Session.Lossless.smooth ⟨fun _ waits => by
      cases waits
      exact undisturbed, trivial⟩ (fun _ is => by cases is))
    (by
      simp only [Session.step, Session.waitForClient, SegmentTransfer.waitForClient, Net.peek, queued,
        List.head?_cons, Bool.not_true, Bool.false_eq_true, if_false, if_true, memory,
        Allocations.packets, orFail_some, ok_bind, pure_eq_ok]
      rfl)
  exact ⟨_, a, b, snd, _, joined, rfl, rfl, main, endFile, one⟩

end

/-! ## Ports that agree modulo 65536 -/

/-- A host that knows one address besides the wildcard. -/
def knownHost (name : String) : Option Bool := some (name != "::")

/-- Both programs are told ports that only differ by 65536. -/
def farPorts : Setup Bool where
  getaddrinfo := knownHost
  any := false
  sndHost := true
  sndArgs := ⟨"localhost", 69536, none⟩
  rcvArgs := ⟨"::1", 4000, none⟩
  input := [[7]]
  specific := by decide

theorem farPorts_match : farPorts.Matches where
  host := ⟨true, rfl, rfl⟩
  sending := by decide
  receiving := by decide
  port := by decide

/-- The sender has read its byte, and the receiver has met it. -/
theorem session_follows_sample : ∃ (s : Session Bool) (a b : Address Bool) (snd : Sender)
    (r : Receiver), farPorts.target = some b ∧ b.2 = 4000 ∧ s.rcv = .loop b r ∧
      s.snd = .loop (some a) snd ∧ snd.seqInd = 1 ∧
      (network Crc.crc32 false [[7]]).Reachable
        { snd, rcv := r, input := s.input, toRcv := s.net.between a b
          toSnd := s.net.between b a } := by
  obtain ⟨s, a, b, snd, r, reach, sending, loop, -, -, one⟩ := @Setup.Matches.meets _ _ Crc.crc32
    farPorts farPorts_match (by decide) (by decide)
  obtain ⟨target, a', snd', sending', follows⟩ :=
    session_follows (reach.weaken fun _ _ smooth => smooth.2.1) loop
  rw [sending] at sending'
  cases sending'
  have port : b.2 = 4000 := by
    cases target
    decide
  exact ⟨s, a, b, snd, r, target, port, loop, sending, one, follows⟩

end SegmentTransfer
