import SegmentTransfer.Session

/-! # What a session shows of the network of its two programs

Two addresses at most are in use by the programs, and only other hosts send
besides. What is under way between the two sockets is then what is in flight on
the network of the two programs, and the steps up to the loops keep it so.
-/

namespace SegmentTransfer

open Udp Outcome Bytes

variable {ι : Type} [DecidableEq ι]

namespace Session

/-- Who may have sent a datagram. -/
def Sends (setup : Setup ι) (s : Session ι) (x : Address ι) : Prop :=
  s.sndAddress = some x ∨ (∃ r, s.rcv = .loop x r) ∨ setup.Foreign x

structure Sound (setup : Setup ι) (s : Session ι) : Prop where
  net : s.net.Sound
  fresh : s.snd = .before → s.input = setup.input
  sources : ∀ x y, s.net.between x y ≠ [] → s.Sends setup x
  snd : ∀ a, s.sndAddress = some a → a.1 = setup.sndHost ∧ (s.net.socket a).bound = true ∧
    ∃ p, setup.target = some p ∧ (s.net.socket a).peer = some p ∧
      ∀ y, y ≠ p → s.net.between a y = []
  rcv : ∀ b, s.rcvAddress = some b → setup.Binds b ∧ (s.net.socket b).bound = true ∧
    s.sndAddress ≠ some b
  joined : ∀ b r, s.rcv = .loop b r →
    ∃ a, s.sndAddress = some a ∧ (s.net.socket a).peer = some b ∧ (s.net.socket b).peer = some a

/-- A program at its start, whatever its memory. -/
def Begins (r : Receiver) : Prop := ∃ memoryRcv memoryAck buf, r = .start memoryRcv memoryAck buf

/-- What the session shows of the network of the two programs, in runs that keep to a condition. -/
structure Follows (crc32 : List UInt8 → UInt32) (setup : Setup ι) (C : Network → Event → Prop)
    (s : Session ι) : Prop where
  sound : s.Sound setup
  alone : ∀ a p snd, s.snd = .loop (some a) snd → setup.target = some p → p ≠ a →
    ¬ setup.Foreign p → (∀ b r, s.rcv ≠ .loop b r) → ∀ r, Begins r →
      ((network crc32 setup.sndArgs.file.isSome setup.input).restrict C).Reachable
        { snd, rcv := r, input := s.input, toRcv := s.net.between a p, toSnd := [] }
  together : ∀ a b snd r, s.snd = .loop (some a) snd → s.rcv = .loop b r →
    ((network crc32 setup.sndArgs.file.isSome setup.input).restrict C).Reachable
      { snd, rcv := r, input := s.input, toRcv := s.net.between a b, toSnd := s.net.between b a }

/-- The steps that the condition admits in the network, whatever the socket then reports and with
    whatever receiver; the loss of a datagram of the two is one of its own. -/
def Allows (setup : Setup ι) (C : Network → Event → Prop) (s : Session ι) : SessionEvent ι → Prop
  | .pass (.sender fdReady _ sendClock replyClock timerClock memory) =>
      ∀ here snd, s.snd = .loop here snd → ∀ n : Network, n.snd = snd → n.input = s.input →
        ∀ sfdReady, C n (.sender fdReady sfdReady sendClock replyClock timerClock memory)
  | .pass (.receiver _ clock stack) => ∀ n arrives, C n (.receiver arrives clock stack)
  | .deliver i =>
      (∀ d, s.net.flight[i]? = some d → ¬ setup.Foreign d.src →
        (s.net.socket d.dst).takes d = true) ∨
      ∀ n k, C n (.loseData k) ∧ C n (.loseAck k)
  | .lose i =>
      (∀ d, s.net.flight[i]? = some d → setup.Foreign d.src) ∨
      ∀ n k, C n (.loseData k) ∧ C n (.loseAck k)
  | _ => True

variable {crc32 : List UInt8 → UInt32} {setup : Setup ι} {C : Network → Event → Prop}
  {s s' : Session ι}

theorem Follows.start (crc32 : List UInt8 → UInt32) (setup : Setup ι)
    (C : Network → Event → Prop) : Follows crc32 setup C (.start setup) where
  sound :=
    { net := .closed, fresh := fun _ => rfl, sources := fun _ _ some => (some rfl).elim
      snd := fun _ here => by cases here
      rcv := fun _ here => by cases here
      joined := fun _ _ here => by cases here }
  alone := fun _ _ _ here => by cases here
  together := fun _ _ _ _ here => by cases here

theorem Sound.silent (h : s.Sound setup) {x : Address ι} (never : ¬ s.Sends setup x)
    (y : Address ι) : s.net.between x y = [] := by
  by_contra some
  exact never (h.sources x y some)

theorem Sound.not_loop (h : s.Sound setup) (none : s.sndAddress = none) (b : Address ι)
    (r : Receiver) : s.rcv ≠ .loop b r := by
  intro loop
  obtain ⟨a, there, -⟩ := h.joined b r loop
  rw [none] at there
  cases there

/-- A sender without an address goes on without anybody noticing. -/
theorem Follows.unheard (h : s.Follows crc32 setup C) (none : s.sndAddress = none)
    {stage : SenderStage ι} (still : ∀ a snd, stage ≠ .loop (some a) snd)
    (left : stage ≠ .before) (input : List (List UInt8)) :
    Follows crc32 setup C { s with snd := stage, input } := by
  have none' : sndAddress { s with snd := stage, input } = Option.none := by
    cases stage with
    | before => rfl
    | ended => rfl
    | loop here snd =>
        cases here with
        | none => rfl
        | some a => exact (still a snd rfl).elim
  have rcv : rcvAddress { s with snd := stage, input } = s.rcvAddress := rfl
  refine ⟨⟨h.sound.net, fun before => (left before).elim, ?_, ?_, ?_, ?_⟩, ?_, ?_⟩
  · intro x y some
    rcases h.sound.sources x y some with here | rest
    · rw [none] at here
      cases here
    · exact .inr rest
  · intro a here
    rw [none'] at here
    cases here
  · intro b here
    rw [rcv] at here
    obtain ⟨host, bound, -⟩ := h.sound.rcv b here
    exact ⟨host, bound, by rw [none']; simp⟩
  · intro b r loop
    exact (h.sound.not_loop none b r loop).elim
  · intro a p snd here
    exact (still a snd here).elim
  · intro a b snd r here
    exact (still a snd here).elim

/-- The sender's socket is new to everybody. -/
theorem Follows.begins (h : s.Follows crc32 setup C) (before : s.snd = .before) {a p : Address ι}
    (free : (s.net.socket a).bound = false) (host : a.1 = setup.sndHost)
    (target : setup.target = some p) (pktSend : Pkt) (buf : Buf 528) :
    Follows crc32 setup C
      { s with
        net := s.net.connect a p
        snd := .loop (some a) (.start setup.sndArgs.file.isSome pktSend buf) } := by
  have none : s.sndAddress = none := by
    rw [sndAddress, before]
  have other : ∀ b, (s.net.socket b).bound = true → b ≠ a := by
    rintro b bound rfl
    rw [free] at bound
    cases bound
  have silent : ∀ y, s.net.between a y = [] := by
    apply h.sound.silent
    rintro (here | ⟨r, loop⟩ | foreign)
    · rw [none] at here
      cases here
    · exact h.sound.not_loop none a r loop
    · exact foreign.1 host
  refine ⟨⟨?_, ?_, ?_, ?_, ?_, ?_⟩, ?_, ?_⟩
  · apply h.sound.net.connect
    rw [h.sound.net.blank a free]
    exact fun _ member => (List.not_mem_nil member).elim
  · intro before
    cases before
  · intro x y some
    rw [Net.between_connect] at some
    rcases h.sound.sources x y some with here | rest
    · rw [none] at here
      cases here
    · exact .inr rest
  · intro a' here
    cases here
    refine ⟨host, by simp only [Net.connect, Net.setSocket_self], p, target,
      by simp only [Net.connect, Net.setSocket_self], fun y _ => ?_⟩
    rw [Net.between_connect, silent]
  · intro b here
    obtain ⟨name, bound, -⟩ := h.sound.rcv b here
    have apart := other b bound
    refine ⟨name, by rwa [Net.connect, Net.setSocket_ne _ _ apart], ?_⟩
    intro same
    cases same
    exact apart rfl
  · intro b r loop
    exact (h.sound.not_loop none b r loop).elim
  · intro a' p' snd here target' _ _ _ r begins
    cases here
    obtain ⟨memoryRcv, memoryAck, bufRcv, rfl⟩ := begins
    apply Transition.Reachable.of_init
    refine ⟨pktSend, memoryRcv, memoryAck, buf, bufRcv, ?_⟩
    simp only [Net.between_connect, silent, h.sound.fresh before]
  · intro a' b snd r _ loop
    exact (h.sound.not_loop none b r loop).elim

theorem Follows.sendData (h : s.Follows crc32 setup C) (before : s.snd = .before)
    {calls : SocketCalls ι} {opens : Bool} {memory : Allocations}
    (next : s.sendData setup calls opens memory = .ok s') : s'.Follows crc32 setup C := by
  have none : s.sndAddress = none := by
    rw [sndAddress, before]
  unfold Session.sendData at next
  cases name : realAddress setup.getaddrinfo setup.sndArgs.hostname with
  | none =>
      simp only [name] at next
      cases next
      exact h.unheard none (fun _ _ => by simp) (by simp) s.input
  | some host =>
      simp only [name] at next
      obtain ⟨⟨pktSend, pktAck⟩, -, next⟩ := bind_eq_ok.mp next
      obtain ⟨⟨here, net⟩, created, next⟩ := bind_eq_ok.mp next
      have created : createSocket { calls with free := (setup.sndHost, calls.free.2) } Option.none 0
          (some host) setup.sndArgs.port s.net = some (here, net) := by
        revert created
        generalize createSocket { calls with free := (setup.sndHost, calls.free.2) } Option.none 0
          (some host) setup.sndArgs.port s.net = sfd
        intro created
        cases sfd with
        | none => cases created
        | some sfd =>
            cases created
            rfl
      simp only at next
      split at next
      · cases next
      · cases next
        cases here with
        | none =>
            rw [createSocket_dest_none created]
            exact h.unheard none (fun _ _ => by simp) (by simp) s.input
        | some a =>
            obtain ⟨positive, rfl, free, rfl⟩ := createSocket_dest created
            refine h.begins before free rfl ?_ pktSend memory.packetEncoded
            rw [Setup.target, if_pos positive, name, Option.map_some]

/-- The receiver's socket is new to everybody, too. -/
theorem Follows.binds (h : s.Follows crc32 setup C) (before : s.rcv = .before) {b : Address ι}
    (free : (s.net.socket b).bound = false)
    (binds : setup.Binds b) :
    Follows crc32 setup C { s with net := s.net.bind b, rcv := .waiting (some b) } := by
  have other : ∀ a, (s.net.socket a).bound = true →
      a ≠ b ∧ (s.net.bind b).socket a = s.net.socket a := by
    intro a bound
    have apart : a ≠ b := by
      rintro rfl
      rw [free] at bound
      cases bound
    exact ⟨apart, Net.setSocket_ne _ _ apart⟩
  refine ⟨⟨h.sound.net.bind b, h.sound.fresh, ?_, ?_, ?_, ?_⟩, ?_, ?_⟩
  · intro x y some
    rw [Net.between_bind] at some
    rcases h.sound.sources x y some with here | ⟨r, loop⟩ | foreign
    · exact .inl here
    · rw [before] at loop
      cases loop
    · exact .inr (.inr foreign)
  · intro a here
    obtain ⟨own, bound, p, target, peer, only⟩ := h.sound.snd a here
    have same := (other a bound).2
    refine ⟨own, by rwa [same], p, target, by rwa [same], fun y apart => ?_⟩
    rw [Net.between_bind, only y apart]
  · intro b' here
    cases here
    refine ⟨binds, by simp only [Net.bind, Net.setSocket_self], ?_⟩
    intro here
    exact (other b (h.sound.snd b here).2.1).1 rfl
  · intro b' r loop
    cases loop
  · intro a p snd here target apart native _ r begins
    simp only [Net.between_bind]
    exact h.alone a p snd here target apart native (fun b r loop => by
      rw [before] at loop
      cases loop) r begins
  · intro a b' snd r _ loop
    cases loop

theorem Follows.unseen (h : s.Follows crc32 setup C) (idle : ∀ b r, s.rcv ≠ .loop b r)
    {stage : ReceiverStage ι} (still : ∀ b r, stage ≠ .loop b r)
    (address : ∀ b, rcvAddress { s with rcv := stage } = some b → s.rcvAddress = some b) :
    Follows crc32 setup C { s with rcv := stage } := by
  refine ⟨⟨h.sound.net, h.sound.fresh, ?_, h.sound.snd, ?_, ?_⟩, ?_, ?_⟩
  · intro x y some
    rcases h.sound.sources x y some with here | ⟨r, loop⟩ | foreign
    · exact .inl here
    · exact (idle x r loop).elim
    · exact .inr (.inr foreign)
  · intro b here
    exact h.sound.rcv b (address b here)
  · intro b r loop
    exact (still b r loop).elim
  · intro a p snd here target apart native _ r begins
    exact h.alone a p snd here target apart native idle r begins
  · intro a b snd r _ loop
    exact (still b r loop).elim

theorem Follows.receiveData (h : s.Follows crc32 setup C) (before : s.rcv = .before)
    (calls : SocketCalls ι) : (s.receiveData setup calls).Follows crc32 setup C := by
  have idle : ∀ b r, s.rcv ≠ .loop b r := by
    intro b r loop
    rw [before] at loop
    cases loop
  unfold Session.receiveData
  cases name : realAddress setup.getaddrinfo setup.rcvArgs.hostname with
  | none => exact h.unseen idle (fun _ _ => by simp) (fun _ here => by cases here)
  | some host =>
      simp only
      split
      · exact h.unseen idle (fun _ _ => by simp) (fun _ here => by cases here)
      · rename_i here net created
        cases here with
        | none =>
            rw [createSocket_source_none created]
            exact h.unseen idle (fun _ _ => by simp) (fun _ here => by cases here)
        | some b =>
            obtain ⟨positive, rfl, free, rfl⟩ := createSocket_source created
            obtain ⟨nonzero, port⟩ := boundAddress_port calls host setup.rcvArgs.port
            exact h.binds before free ⟨name, positive, nonzero, port⟩

/-- The receiver is connected to the sender, and is where the sender sends to. -/
theorem Follows.accepts (h : s.Follows crc32 setup C) {b : Address ι} {d : Datagram (Address ι)}
    (waits : s.rcv = .waiting (some b)) (first : s.net.peek b = some d)
    (undisturbed : ∀ d ∈ (s.net.socket b).queue, s.sndAddress = some d.src) {r : Receiver}
    (begins : Begins r) :
    Follows crc32 setup C { s with net := s.net.connect b d.src, rcv := .loop b r } := by
  have idle : ∀ b r, s.rcv ≠ .loop b r := by
    intro b r loop
    rw [waits] at loop
    cases loop
  have address : s.rcvAddress = some b := by
    rw [rcvAddress, waits]
  obtain ⟨binds, bound, notSender⟩ := h.sound.rcv b address
  have sender := undisturbed d (List.mem_of_mem_head? first)
  obtain ⟨own, boundSender, p, target, peer, only⟩ := h.sound.snd d.src sender
  have apart : d.src ≠ b := by
    intro same
    rw [same] at sender
    exact notSender sender
  have meets : b = p := by
    by_contra away
    have nothing := only b away
    rw [Net.between_receive first] at nothing
    cases nothing
  subst meets
  have same : (s.net.connect b d.src).socket d.src = s.net.socket d.src :=
    Net.setSocket_ne _ _ apart
  have native : ¬ setup.Foreign b := fun foreign => foreign.2 binds.host
  have silent : ∀ y, s.net.between b y = [] := by
    apply h.sound.silent
    rintro (here | ⟨r, loop⟩ | foreign)
    · exact notSender here
    · exact idle b r loop
    · exact native foreign
  refine ⟨⟨?_, h.sound.fresh, ?_, ?_, ?_, ?_⟩, ?_, ?_⟩
  · apply h.sound.net.connect
    intro e member
    have there := undisturbed e member
    rw [sender] at there
    exact (Option.some.inj there).symm
  · intro x y some
    rw [Net.between_connect] at some
    rcases h.sound.sources x y some with here | ⟨r, loop⟩ | foreign
    · exact .inl here
    · exact (idle x r loop).elim
    · exact .inr (.inr foreign)
  · intro a here
    have is : a = d.src := Option.some.inj (here.symm.trans sender)
    subst is
    refine ⟨own, by rwa [same], b, target, by rwa [same], fun y away => ?_⟩
    rw [Net.between_connect, only y away]
  · intro b' here
    cases here
    exact ⟨binds, by simp only [Net.connect, Net.setSocket_self], notSender⟩
  · intro b' r loop
    cases loop
    exact ⟨d.src, sender, by rwa [same], by simp only [Net.connect, Net.setSocket_self]⟩
  · intro a p snd _ _ _ _ idle
    exact (idle b r rfl).elim
  · intro a b' snd r' here loop
    cases loop
    have is : a = d.src := by
      have there : s.sndAddress = some a := by
        rw [sndAddress, here]
      exact Option.some.inj (there.symm.trans sender)
    subst is
    simp only [Net.between_connect, silent]
    exact h.alone d.src b snd here target apart.symm native idle r begins

theorem Follows.waitForClient (h : s.Follows crc32 setup C) {b : Address ι}
    (waits : s.rcv = .waiting (some b)) {recvfrom connect : Bool} {memory : Allocations}
    (undisturbed : ∀ d ∈ (s.net.socket b).queue, s.sndAddress = some d.src)
    (next : s.waitForClient recvfrom connect memory b = .ok s') : s'.Follows crc32 setup C := by
  unfold Session.waitForClient at next
  split at next
  · cases next
    exact h
  · cases next
    apply h.unseen (fun _ _ loop => by rw [waits] at loop; cases loop) (fun _ _ => by simp)
    intro b here
    cases here
  · rename_i net waited
    obtain ⟨d, first, rfl⟩ := waitForClient_ok waited
    obtain ⟨⟨pktRcv, pktAck⟩, -, next⟩ := bind_eq_ok.mp next
    cases next
    exact h.accepts waits first undisturbed ⟨pktRcv, pktAck, memory.packetEncoded, rfl⟩

end Session

end SegmentTransfer
