import SegmentTransfer.Completion
import SegmentTransfer.Recovery
import SegmentTransfer.SessionMeets

/-! # Transfers between programs that were started

Whatever the network of the two programs can do without losing a datagram, the
programs do with their sockets: a datagram that is to be read and has not
arrived does so first. What is known of the network therefore holds from the
first lines of both programs on.
-/

namespace SegmentTransfer

open Udp Outcome Bytes

variable {ι : Type} [DecidableEq ι]

namespace Session

/-- The sockets and the programs are where the network of the two is. -/
structure Meets (crc32 : List UInt8 → UInt32) (setup : Setup ι) (a b : Address ι) (n : Network)
    (s : Session ι) : Prop where
  follows : s.Follows crc32 setup fun _ _ => True
  snd : s.snd = .loop (some a) n.snd
  rcv : s.rcv = .loop b n.rcv
  input : s.input = n.input
  toRcv : s.net.between a b = n.toRcv
  toSnd : s.net.between b a = n.toSnd

/-- Where the next datagram has arrived, if there is one. -/
def Settled (s : Session ι) (x y : Address ι) : Prop :=
  s.net.between x y ≠ [] → (s.net.peek y).isSome = true

variable {crc32 : List UInt8 → UInt32} {setup : Setup ι} {a b x y : Address ι} {n n' : Network}
  {s : Session ι}

theorem Meets.sockets (h : s.Meets crc32 setup a b n) :
    b ≠ a ∧ (s.net.socket a).bound = true ∧ (s.net.socket a).peer = some b ∧
      (s.net.socket b).bound = true ∧ (s.net.socket b).peer = some a := by
  have address : s.sndAddress = some a := by
    rw [sndAddress, h.snd]
  obtain ⟨a', here, peer, peer'⟩ := h.follows.sound.joined b n.rcv h.rcv
  rw [address] at here
  cases here
  obtain ⟨-, bound', apart⟩ := h.follows.sound.rcv b (by rw [rcvAddress, h.rcv])
  refine ⟨?_, (h.follows.sound.snd a address).2.1, peer, bound', peer'⟩
  rintro rfl
  exact apart address

theorem Meets.deliver (h : s.Meets crc32 setup a b n) {i : Nat} (turn : s.net.InTurn i)
    (taken : ∀ d, s.net.flight[i]? = some d → (s.net.socket d.dst).takes d = true) :
    Meets crc32 setup a b n { s with net := s.net.deliver i } where
  follows := h.follows.step (.deliver i) turn (allows_true ..) rfl
  snd := h.snd
  rcv := h.rcv
  input := h.input
  toRcv := (Net.between_deliver_kept turn fun d there _ => taken d there).trans h.toRcv
  toSnd := (Net.between_deliver_kept turn fun d there _ => taken d there).trans h.toSnd

theorem arriving_settled (sound : s.net.Sound) (connected : (s.net.socket y).peer = some x)
    {ready : Bool} (settled : ready = true → s.Settled x y) :
    s.arriving (some y) ready = if ready then (s.net.between x y).head?.map some else none := by
  rw [arriving_eq sound connected]
  cases ready with
  | false => rfl
  | true =>
      by_cases none : s.net.between x y = []
      · simp [none]
      · simp [settled rfl none]

theorem after_settled (sound : s.net.Sound) (connected : (s.net.socket y).peer = some x)
    (apart : x ≠ y) {ready : Bool} (settled : ready = true → s.Settled x y) (listens : Bool)
    (out : List (List UInt8)) :
    (s.after y (ready && listens) out).between x y =
      if ready && listens then (s.net.between x y).tail else s.net.between x y := by
  rw [after_in sound connected apart]
  cases ready with
  | false => rfl
  | true =>
      by_cases none : s.net.between x y = []
      · simp [none]
      · simp [settled rfl none]

theorem Meets.sender (h : s.Meets crc32 setup a b n) {fdReady sfdReady : Bool}
    {sendClock replyClock timerClock : Timeval} {memory : Nat → UInt8}
    (settled : sfdReady = true → s.Settled b a)
    (step : n.step crc32 (.sender fdReady sfdReady sendClock replyClock timerClock memory) =
      .ok n') :
    ∃ t, s.step crc32 setup
      (.pass (.sender fdReady sfdReady sendClock replyClock timerClock memory)) = .ok t ∧
      t.Meets crc32 setup a b n' := by
  obtain ⟨apart, -, peer, -, -⟩ := h.sockets
  have sound := h.follows.sound.net
  have arriving := arriving_settled sound peer settled
  obtain ⟨⟨snd', out⟩, passed, rest⟩ := bind_eq_ok.mp step
  cases rest
  have next : s.step crc32 setup
      (.pass (.sender fdReady sfdReady sendClock replyClock timerClock memory)) =
        .ok { s with
          net := s.after a (sfdReady && n.snd.listens) out, snd := .loop (some a) snd'
          input := if fdReady && n.snd.wants then s.input.tail else s.input } := by
    simp only [Session.step, pass, h.snd, senderPass, arriving, h.toSnd, h.input, passed, ok_bind]
    rfl
  refine ⟨_, next, ?_⟩
  exact
    { follows := h.follows.step (.pass _) trivial (allows_true ..) next
      snd := rfl
      rcv := h.rcv
      input := by rw [← h.input]
      toRcv := by rw [after_out sound peer apart, h.toRcv]
      toSnd := by rw [after_settled sound peer apart settled, h.toSnd] }

theorem Meets.receiver (h : s.Meets crc32 setup a b n) {arrives : Bool} {clock : Timeval}
    {stack : Buf 20} (settled : arrives = true → s.Settled a b)
    (step : n.step crc32 (.receiver arrives clock stack) = .ok n') :
    ∃ t, s.step crc32 setup (.pass (.receiver arrives clock stack)) = .ok t ∧
      t.Meets crc32 setup a b n' := by
  obtain ⟨apart, -, -, -, peer⟩ := h.sockets
  have sound := h.follows.sound.net
  have arriving := arriving_settled sound peer settled
  obtain ⟨⟨rcv', out⟩, passed, rest⟩ := bind_eq_ok.mp step
  cases rest
  have next : s.step crc32 setup (.pass (.receiver arrives clock stack)) =
      .ok { s with
        net := s.after b (arrives && n.rcv.listens) out, rcv := .loop b rcv' } := by
    simp only [Session.step, pass, h.rcv, receiverPass, arriving, h.toRcv, passed, ok_bind]
    rfl
  refine ⟨_, next, ?_⟩
  exact
    { follows := h.follows.step (.pass _) trivial (allows_true ..) next
      snd := h.snd
      rcv := rfl
      input := h.input
      toRcv := by rw [after_settled sound peer apart.symm settled, h.toRcv]
      toSnd := by rw [after_out sound peer apart.symm, h.toSnd] }

theorem Meets.settle (h : s.Meets crc32 setup a b n) (bound : (s.net.socket y).bound = true)
    (peer : (s.net.socket y).peer = some x) :
    ((session crc32 setup).restrict (Session.Lossless setup)).Leads
      (fun t => t.Meets crc32 setup a b n ∧ t.Settled x y) s := by
  by_cases settled : s.Settled x y
  · exact .here ⟨h, settled⟩
  · obtain ⟨some, idle⟩ := Classical.not_imp.mp settled
    have takes : ∀ d : Datagram (Address ι), d.src = x → (s.net.socket y).takes d = true := by
      intro d source
      simp only [Socket.takes, bound, peer, source, Option.all_some, beq_self_eq_true, Bool.and_self]
    obtain ⟨i, turn, taken, arrived⟩ := Net.exists_arrival takes (by simpa using idle) some
    have next : s.step crc32 setup (.deliver i) = .ok { s with net := s.net.deliver i } := rfl
    have lossless : s.Lossless setup (.deliver i) := ⟨turn, fun d there _ => taken d there⟩
    exact .step ⟨next, lossless⟩ (.here ⟨h.deliver turn taken, fun _ => arrived⟩)

theorem Meets.step (h : s.Meets crc32 setup a b n) {event : Event}
    (lossless : event.Lossless setup.sndArgs.file.isSome) (next : n.step crc32 event = .ok n') :
    ((session crc32 setup).restrict (Session.Lossless setup)).Leads
      (fun t => t.Meets crc32 setup a b n') s := by
  obtain ⟨-, bound, peer, bound', peer'⟩ := h.sockets
  cases event with
  | sender fdReady sfdReady sendClock replyClock timerClock memory =>
      refine (h.settle bound peer).trans fun t ⟨meets, settled⟩ => ?_
      obtain ⟨u, passed, meets'⟩ := meets.sender (fun _ => settled) next
      exact .step ⟨passed, trivial, lossless⟩ (.here meets')
  | receiver arrives clock stack =>
      refine (h.settle bound' peer').trans fun t ⟨meets, settled⟩ => ?_
      obtain ⟨u, passed, meets'⟩ := meets.receiver (fun _ => settled) next
      exact .step ⟨passed, trivial, lossless⟩ (.here meets')
  | loseData i | loseAck i => exact lossless.elim

theorem Meets.leads (h : s.Meets crc32 setup a b n) {file : Bool} {input : List (List UInt8)}
    {P : Network → Prop}
    (leads : ((network crc32 file input).restrict fun _ event =>
      event.Lossless setup.sndArgs.file.isSome).Leads P n) :
    ((session crc32 setup).restrict (Session.Lossless setup)).Leads
      (fun t => ∃ n, t.Meets crc32 setup a b n ∧ P n) s := by
  obtain ⟨events, n', run, last⟩ := leads
  induction run generalizing s with
  | nil n => exact .here ⟨n, h, last⟩
  | cons first _ ih => exact (h.step first.2 first.1).trans fun t meets => ih meets last

end Session

/-! ## Transfers that come to an end -/

section

variable {crc32 : List UInt8 → UInt32} {setup : Setup ι} {s : Session ι} {a b : Address ι}
  {snd : Sender} {r : Receiver}

/-- Both programs have returned from their loops, with the whole input in the output. -/
def Session.Complete (setup : Setup ι) (s : Session ι) : Prop :=
  ∃ a b snd r, s.snd = .loop (some a) snd ∧ s.rcv = .loop b r ∧ snd.phase = .returned ∧
    r.returned = true ∧ r.writes.flatten = setup.input.flatten

theorem Session.allows_lossless {event : SessionEvent ι} (lossless : s.Lossless setup event) :
    s.Allows setup (fun _ event => event.Lossless setup.sndArgs.file.isSome) event := by
  obtain ⟨-, kept⟩ := lossless
  cases event with
  | pass event =>
      cases event with
      | sender => exact fun _ _ _ _ _ _ _ => kept
      | receiver => exact fun _ _ => trivial
      | loseData | loseAck => trivial
  | deliver i => exact .inl kept
  | lose i => exact .inl kept
  | sendData | receiveData | waitForClient | foreign => trivial

theorem Session.allows_readsInWindow {event : SessionEvent ι}
    (reads : s.ReadsInWindow setup event) : s.Allows setup Network.ReadsInWindow event := by
  obtain ⟨-, passes⟩ := reads
  cases event with
  | pass event =>
      cases event with
      | sender fdReady sfdReady sendClock replyClock timerClock memory =>
          intro here snd there n same input sfdReady'
          subst same
          have inside := passes _ here n rfl there input
          cases fdReady with
          | false => trivial
          | true => exact inside
      | receiver => exact fun _ _ => trivial
      | loseData | loseAck => trivial
  | deliver i => exact .inr fun _ _ => ⟨trivial, trivial⟩
  | lose i => exact .inr fun _ _ => ⟨trivial, trivial⟩
  | sendData | receiveData | waitForClient | foreign => trivial

theorem Session.leads_complete {C : Network → Event → Prop} (follows : s.Follows crc32 setup C)
    (reach : ((session crc32 setup).restrict (Session.Undisturbed setup)).Reachable s)
    (sending : s.snd = .loop (some a) snd) (loop : s.rcv = .loop b r)
    (leads : ∀ n : Network, n.snd = snd → n.rcv = r →
      ((network crc32 setup.sndArgs.file.isSome setup.input).restrict C).Reachable n →
      ((network crc32 setup.sndArgs.file.isSome setup.input).restrict fun _ event =>
        event.Lossless setup.sndArgs.file.isSome).Leads
        (fun n => n.snd.phase = .returned ∧ n.rcv.returned = true ∧
          n.output = setup.input.flatten) n) :
    ((session crc32 setup).restrict (Session.Lossless setup)).Leads (Session.Complete setup) s := by
  have meets : Session.Meets crc32 setup a b
      { snd, rcv := r, input := s.input, toRcv := s.net.between a b
        toSnd := s.net.between b a } s :=
    ⟨.of_undisturbed reach, sending, loop, rfl, rfl, rfl⟩
  refine (meets.leads (leads _ rfl rfl (follows.together a b snd r sending loop))).mono ?_
  rintro t ⟨n, there, gone, returned, whole⟩
  exact ⟨a, b, n.snd, n.rcv, there.snd, there.rcv, gone, returned, whole⟩

/-- Started anyhow, among other hosts that send what they like but are not first at the receiver: as
    long as nothing of the two programs is lost or overtaken, and once the receiver is in its loop,
    both can still come to their end with the whole input in the output. -/
theorem session_completes (readable : Readable setup.input)
    (enough : setup.sndArgs.file.isSome = true → 3 ≤ setup.input.length)
    (long : setup.input.length + 1 < 2 ^ 31)
    (reach : ((session crc32 setup).restrict (Session.Lossless setup)).Reachable s)
    (loop : s.rcv = .loop b r) :
    ((session crc32 setup).restrict (Session.Lossless setup)).Leads (Session.Complete setup) s := by
  have undisturbed := reach.weaken fun _ _ lossless => lossless.1
  have follows : s.Follows crc32 setup fun _ event =>
      event.Lossless setup.sndArgs.file.isSome :=
    .of_reachable (reach.weaken fun _ _ lossless => ⟨lossless.1, Session.allows_lossless lossless⟩)
  obtain ⟨a, snd, sending⟩ := follows.sound.sending loop
  refine Session.leads_complete follows undisturbed sending loop fun n _ _ reached => ?_
  obtain ⟨p, completing, shown⟩ := Network.completing readable reached
  exact shown.leads_complete readable (completing.leads_returned enough long)

/-- Nothing lost and programs that match: the session can start, and end as it should. -/
theorem session_completes_sample :
    ∃ s, ((session Crc.crc32 farPorts).restrict (Session.Lossless farPorts)).Reachable s ∧
      ((session Crc.crc32 farPorts).restrict (Session.Lossless farPorts)).Leads
        (Session.Complete farPorts) s := by
  obtain ⟨s, a, b, snd, r, reach, -, loop, -⟩ := @Setup.Matches.meets _ _ Crc.crc32 farPorts
    farPorts_match (by decide) (by decide)
  have lossless := reach.weaken fun _ _ smooth => smooth.1
  exact ⟨s, lossless, session_completes (by decide) (fun given => by cases given) (by decide)
    lossless loop⟩

/-- Whatever was lost while chunks were only read inside the window: as long as the sender is in its
    main loop, two chunks at least of the file given by name are left, and the last three segments it
    sent have numbers below 253, a run without loss can take both programs to their end with the
    whole input in the output. -/
theorem session_repaired (readable : Readable setup.input)
    (file : setup.sndArgs.file.isSome = true) (enough : 3 ≤ setup.input.length)
    (long : setup.input.length + 1 < 2 ^ 31)
    (reach : ((session crc32 setup).restrict (Session.ReadsInWindow setup)).Reachable s)
    (sending : s.snd = .loop (some a) snd) (loop : s.rcv = .loop b r) (main : snd.phase = .main)
    (open_ : snd.endFile = false) (more : snd.seqInd + 2 ≤ setup.input.length)
    (numbers : ∀ m < snd.seqInd, snd.seqInd ≤ m + 3 → m % 256 < 253) :
    ((session crc32 setup).restrict (Session.Lossless setup)).Leads (Session.Complete setup) s := by
  have undisturbed := reach.weaken fun _ _ reads => reads.1
  have follows : s.Follows crc32 setup Network.ReadsInWindow :=
    .of_reachable (reach.weaken fun _ _ reads => ⟨reads.1, Session.allows_readsInWindow reads⟩)
  refine Session.leads_complete follows undisturbed sending loop fun n there _ reached => ?_
  subst there
  rw [file] at reached ⊢
  obtain ⟨p, resumable, shown⟩ := Network.resumable readable reached main open_
  rw [shown.snd.seqInd] at more numbers
  exact shown.leads_complete readable (resumable.leads_returned enough long more numbers)

/-- A file of three bytes, between two programs of one host. -/
def nearPorts : Setup Bool where
  getaddrinfo := knownHost
  any := false
  sndHost := true
  sndArgs := ⟨"localhost", 4000, some "file"⟩
  rcvArgs := ⟨"::1", 4000, none⟩
  input := [[7], [8], [9]]
  specific := by decide

theorem session_repaired_sample :
    ∃ s, ((session Crc.crc32 nearPorts).restrict (Session.ReadsInWindow nearPorts)).Reachable s ∧
      ((session Crc.crc32 nearPorts).restrict (Session.Lossless nearPorts)).Leads
        (Session.Complete nearPorts) s := by
  have agree : nearPorts.Matches :=
    { host := ⟨true, rfl, rfl⟩, sending := by decide, receiving := by decide, port := by decide }
  obtain ⟨s, a, b, snd, r, reach, sending, loop, main, open_, sent⟩ :=
    @Setup.Matches.meets _ _ Crc.crc32 nearPorts agree (by decide) (by decide)
  have inside := reach.weaken fun _ _ smooth => smooth.2
  exact ⟨s, inside, session_repaired (by decide) rfl (by decide) (by decide) inside sending loop main
    open_ (by rw [sent]; decide) (fun m _ _ => by omega)⟩

end

end SegmentTransfer
