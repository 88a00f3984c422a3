import SegmentTransfer.SessionFollows

/-! # The session is a transfer

A pass of one of the programs reads what has arrived from the other and writes
to it, as on the network of the two, and whatever other hosts do does not show.
-/

namespace SegmentTransfer

open Udp Outcome Bytes

variable {ι : Type} [DecidableEq ι]

namespace Session

variable {crc32 : List UInt8 → UInt32} {setup : Setup ι} {C : Network → Event → Prop}
  {s s' : Session ι}

/-! ## Passes -/

section

variable {a p : Address ι}

theorem arriving_eq (sound : s.net.Sound) (connected : (s.net.socket a).peer = some p)
    (ready : Bool) :
    s.arriving (some a) ready =
      if ready && (s.net.peek a).isSome then (s.net.between p a).head?.map some else none := by
  cases ready with
  | false => rfl
  | true =>
      cases first : s.net.peek a with
      | none => simp [arriving, first]
      | some d => simp [arriving, first, sound.peek connected first]

theorem after_field {γ : Type} (field : Socket (Address ι) → γ)
    (queue : ∀ s queue, field { s with queue } = field s) (s : Session ι) (a x : Address ι)
    (read : Bool) (out : List (List UInt8)) :
    field ((s.after a read out).socket x) = field (s.net.socket x) := by
  rw [after, Net.write_socket]
  cases read with
  | false => rfl
  | true => exact Net.receive_field field queue s.net x a

theorem after_peer (s : Session ι) (a x : Address ι) (read : Bool) (out : List (List UInt8)) :
    ((s.after a read out).socket x).peer = (s.net.socket x).peer :=
  after_field Socket.peer (fun _ _ => rfl) s a x read out

theorem after_bound (s : Session ι) (a x : Address ι) (read : Bool) (out : List (List UInt8)) :
    ((s.after a read out).socket x).bound = (s.net.socket x).bound :=
  after_field Socket.bound (fun _ _ => rfl) s a x read out

theorem after_sound (sound : s.net.Sound) (a : Address ι) (read : Bool)
    (out : List (List UInt8)) : (s.after a read out).Sound := by
  unfold after
  cases read with
  | false => exact sound.write a out
  | true => exact (sound.receive a).write a out

theorem after_between (connected : (s.net.socket a).peer = some p) (read : Bool)
    (out : List (List UInt8)) (x y : Address ι) :
    (s.after a read out).between x y =
      (if read then s.net.receive a else s.net).between x y ++
        if a = x ∧ p = y then out else [] := by
  apply Net.between_write
  cases read with
  | false => exact connected
  | true => exact (Net.receive_peer ..).trans connected

theorem after_sublist (connected : (s.net.socket a).peer = some p) (read : Bool)
    (out : List (List UInt8)) {x y : Address ι} (away : ¬ (a = x ∧ p = y)) :
    ((s.after a read out).between x y).Sublist (s.net.between x y) := by
  rw [after_between connected, if_neg away, List.append_nil]
  cases read with
  | false => exact .refl _
  | true => exact Net.between_receive_sublist ..

theorem after_out (sound : s.net.Sound) (connected : (s.net.socket a).peer = some p)
    (apart : p ≠ a) (read : Bool) (out : List (List UInt8)) :
    (s.after a read out).between a p = s.net.between a p ++ out := by
  have sends : a = a ∧ p = p := ⟨rfl, rfl⟩
  rw [after_between connected, if_pos sends]
  cases read with
  | false => rfl
  | true =>
      rw [if_pos rfl, sound.receive_ne connected]
      exact fun both => apart both.1.symm

theorem after_in (sound : s.net.Sound) (connected : (s.net.socket a).peer = some p)
    (apart : p ≠ a) (read : Bool) (out : List (List UInt8)) :
    (s.after a read out).between p a =
      if read && (s.net.peek a).isSome then (s.net.between p a).tail else s.net.between p a := by
  have away : ¬ (a = p ∧ p = a) := fun both => apart both.2
  rw [after_between connected, if_neg away, List.append_nil]
  cases read with
  | false => rfl
  | true =>
      cases first : s.net.peek a with
      | none =>
          simp only [if_true, Option.isSome_none, Bool.and_false, Bool.false_eq_true, if_false]
          apply Net.between_setSocket
          rw [List.head?_eq_none_iff.mp first]
          rfl
      | some d => simp [sound.peek connected first]

end

/-- What a pass of the sender does to the sound parts. -/
theorem Sound.sender (h : s.Sound setup) {a p : Address ι} {snd snd' : Sender}
    (loop : s.snd = .loop (some a) snd) (connected : (s.net.socket a).peer = some p)
    (target : setup.target = some p) (read : Bool) (out : List (List UInt8))
    (input : List (List UInt8)) :
    Sound setup { s with net := s.after a read out, snd := .loop (some a) snd', input } := by
  have address : s.sndAddress = some a := by
    rw [sndAddress, loop]
  obtain ⟨own, bound, q, target', peer, only⟩ := h.snd a address
  have same : q = p := Option.some.inj (target'.symm.trans target)
  subst same
  have less : ∀ {x y : Address ι}, (s.after a read out).between x y ≠ [] → x ≠ a →
      s.net.between x y ≠ [] := by
    intro x y some other nothing
    have sublist := after_sublist connected read out (fun both : a = x ∧ q = y => other both.1.symm)
    rw [nothing] at sublist
    exact some (List.sublist_nil.mp sublist)
  refine
    { net := after_sound h.net a read out
      fresh := fun before => by cases before
      sources := ?_, snd := ?_, rcv := ?_, joined := ?_ }
  · intro x y some
    by_cases here : x = a
    · subst here
      exact .inl rfl
    · rcases h.sources x y (less some here) with there | rest
      · rw [address] at there
        exact (here (Option.some.inj there).symm).elim
      · exact .inr rest
  · intro a' here
    cases here
    refine ⟨own, by rwa [after_bound], q, target, by rwa [after_peer], fun y away => ?_⟩
    have sublist := after_sublist connected read out
      (fun both : a = a ∧ q = y => away both.2.symm)
    rw [only y away] at sublist
    exact List.sublist_nil.mp sublist
  · intro b here
    obtain ⟨host, bound, apart⟩ := h.rcv b here
    exact ⟨host, by rwa [after_bound], by rwa [address] at apart⟩
  · intro b r there
    obtain ⟨a', here, peer, peer'⟩ := h.joined b r there
    rw [address] at here
    cases here
    exact ⟨a, rfl, by rwa [after_peer], by rwa [after_peer]⟩

theorem Follows.senderPass (h : s.Follows crc32 setup C) {fdReady sfdReady : Bool}
    {sendClock replyClock timerClock : Timeval} {memory : Nat → UInt8} {here : Option (Address ι)}
    {snd : Sender} (loop : s.snd = .loop here snd)
    (allowed : ∀ n : Network, n.snd = snd → n.input = s.input → ∀ sfdReady,
      C n (.sender fdReady sfdReady sendClock replyClock timerClock memory))
    (next : s.senderPass crc32 fdReady sfdReady sendClock replyClock timerClock memory here snd =
      .ok s') : s'.Follows crc32 setup C := by
  obtain ⟨⟨snd', out⟩, passed, next⟩ := bind_eq_ok.mp next
  cases here with
  | none =>
      cases next
      refine h.unheard (by rw [sndAddress, loop]) ?_ ?_ _
      · intro a snd
        split <;> simp
      · split <;> simp
  | some a =>
      cases next
      have address : s.sndAddress = some a := by
        rw [sndAddress, loop]
      obtain ⟨-, -, p, target, connected, -⟩ := h.sound.snd a address
      refine ⟨h.sound.sender loop connected target _ out _, ?_, ?_⟩
      · intro a' p' snd'' there target' apart native idle r begins
        cases there
        rw [target] at target'
        cases target'
        have quiet : s.net.peek a = none := by
          cases first : s.net.peek a with
          | none => rfl
          | some d =>
              have some : s.net.between p a ≠ [] := by
                rw [h.sound.net.peek connected first]
                exact List.cons_ne_nil _ _
              rcases h.sound.sources p a some with there | ⟨r, there⟩ | there
              · rw [address] at there
                exact (apart (Option.some.inj there).symm).elim
              · exact (idle p r there).elim
              · exact (native there).elim
        rw [arriving_eq h.sound.net connected, quiet] at passed
        have reach := h.alone a p snd loop target apart native idle r begins
        have step : Network.step crc32
            { snd, rcv := r, input := s.input, toRcv := s.net.between a p, toSnd := [] }
            (.sender fdReady false sendClock replyClock timerClock memory) =
              .ok { snd := snd', rcv := r
                    input := if fdReady && snd.wants then s.input.tail else s.input
                    toRcv := s.net.between a p ++ out, toSnd := [] } := by
          simp only [Option.isSome_none, Bool.and_false, Bool.false_eq_true, if_false] at passed
          simp only [Network.step, Bool.false_eq_true, if_false, passed, ok_bind, Bool.false_and]
          rfl
        rw [after_out h.sound.net connected apart]
        exact reach.step ⟨step, allowed _ rfl rfl false⟩
      · intro a' b snd'' r there joined
        cases there
        obtain ⟨a', address', peer, peer'⟩ := h.sound.joined b r joined
        rw [address] at address'
        cases address'
        have meets : p = b := Option.some.inj (connected.symm.trans peer)
        subst meets
        have apart : p ≠ a := by
          rintro rfl
          exact (h.sound.rcv p (by rw [rcvAddress, joined])).2.2 address
        have reach := h.together a p snd r loop joined
        rw [arriving_eq h.sound.net connected] at passed
        have step : Network.step crc32
            { snd, rcv := r, input := s.input, toRcv := s.net.between a p
              toSnd := s.net.between p a }
            (.sender fdReady (sfdReady && (s.net.peek a).isSome) sendClock replyClock timerClock
              memory) =
              .ok { snd := snd', rcv := r
                    input := if fdReady && snd.wants then s.input.tail else s.input
                    toRcv := s.net.between a p ++ out
                    toSnd := if sfdReady && (s.net.peek a).isSome && snd.listens then
                      (s.net.between p a).tail else s.net.between p a } := by
          simp only [Network.step, passed, ok_bind]
          rfl
        rw [after_out h.sound.net connected apart, after_in h.sound.net connected apart,
          Bool.and_right_comm]
        exact reach.step ⟨step, allowed _ rfl rfl _⟩

theorem Follows.receiverPass (h : s.Follows crc32 setup C) {arrives : Bool} {clock : Timeval}
    {stack : Buf 20} {b : Address ι} {rcv : Receiver} (loop : s.rcv = .loop b rcv)
    (allowed : ∀ n arrives, C n (.receiver arrives clock stack))
    (next : s.receiverPass crc32 arrives clock stack b rcv = .ok s') : s'.Follows crc32 setup C := by
  obtain ⟨⟨rcv', out⟩, passed, next⟩ := bind_eq_ok.mp next
  cases next
  obtain ⟨a, address, peer, connected⟩ := h.sound.joined b rcv loop
  obtain ⟨own, bound, p, target, peer', only⟩ := h.sound.snd a address
  have meets : p = b := Option.some.inj (peer'.symm.trans peer)
  subst meets
  obtain ⟨host, boundRcv, apart⟩ := h.sound.rcv p (by rw [rcvAddress, loop])
  have other : a ≠ p := by
    rintro rfl
    exact apart address
  have less : ∀ {x y : Address ι}, (s.after p (arrives && rcv.listens) out).between x y ≠ [] →
      x ≠ p → s.net.between x y ≠ [] := by
    intro x y some away nothing
    have sublist := after_sublist connected (arrives && rcv.listens) out
      (fun both : p = x ∧ a = y => away both.1.symm)
    rw [nothing] at sublist
    exact some (List.sublist_nil.mp sublist)
  refine
    { sound :=
        { net := after_sound h.sound.net p _ out, fresh := h.sound.fresh
          sources := ?_, snd := ?_, rcv := ?_, joined := ?_ }
      alone := ?_, together := ?_ }
  · intro x y some
    by_cases here : x = p
    · subst here
      exact .inr (.inl ⟨rcv', rfl⟩)
    · rcases h.sound.sources x y (less some here) with there | ⟨r, there⟩ | there
      · exact .inl there
      · rw [loop] at there
        cases there
        exact (here rfl).elim
      · exact .inr (.inr there)
  · intro a' here
    have is : a' = a := Option.some.inj (here.symm.trans address)
    subst is
    refine ⟨own, by rwa [after_bound], p, target, by rwa [after_peer], fun y away => ?_⟩
    by_contra some
    exact less some other (only y away)
  · intro b here
    cases here
    exact ⟨host, by rwa [after_bound], apart⟩
  · intro b r there
    cases there
    exact ⟨a, address, by rwa [after_peer], by rwa [after_peer]⟩
  · intro a p' snd _ _ _ _ idle
    exact (idle p rcv' rfl).elim
  · intro a' b snd r here there
    cases there
    have is : a' = a := by
      have there : s.sndAddress = some a' := by
        rw [sndAddress, here]
      exact Option.some.inj (there.symm.trans address)
    subst is
    have reach := h.together a' p snd rcv here loop
    rw [arriving_eq h.sound.net connected] at passed
    have step : Network.step crc32
        { snd, rcv, input := s.input, toRcv := s.net.between a' p, toSnd := s.net.between p a' }
        (.receiver (arrives && (s.net.peek p).isSome) clock stack) =
          .ok { snd, rcv := rcv', input := s.input
                toRcv := if arrives && (s.net.peek p).isSome && rcv.listens then
                  (s.net.between a' p).tail else s.net.between a' p
                toSnd := s.net.between p a' ++ out } := by
      simp only [Network.step, passed, ok_bind]
      rfl
    rw [after_out h.sound.net connected other, after_in h.sound.net connected other,
      Bool.and_right_comm]
    exact reach.step ⟨step, allowed _ _⟩

/-- Between the programs datagrams are at most lost, and others' are their own affair. -/
theorem Follows.network (h : s.Follows crc32 setup C) {net : Net (Address ι)} (sound : net.Sound)
    (peer : ∀ x, (net.socket x).peer = (s.net.socket x).peer)
    (bound : ∀ x, (net.socket x).bound = (s.net.socket x).bound)
    (drops : ∀ x, ¬ setup.Foreign x → ∀ y, ∃ k, net.between x y = (s.net.between x y).eraseIdx k)
    (allowed : (∀ x, ¬ setup.Foreign x → ∀ y, net.between x y = s.net.between x y) ∨
      ∀ n k, C n (.loseData k) ∧ C n (.loseAck k)) :
    Follows crc32 setup C { s with net } := by
  have less : ∀ x, ¬ setup.Foreign x → ∀ y, s.net.between x y = [] → net.between x y = [] := by
    intro x native y nothing
    obtain ⟨k, same⟩ := drops x native y
    rw [same, nothing, List.eraseIdx_nil]
  have sender : ∀ a, s.sndAddress = some a → ¬ setup.Foreign a := fun a here foreign =>
    foreign.1 (h.sound.snd a here).1
  have receiver : ∀ b r, s.rcv = .loop b r → ¬ setup.Foreign b := fun b r loop foreign =>
    foreign.2 (h.sound.rcv b (by rw [rcvAddress, loop])).1.host
  have at_ : ∀ {a snd}, s.snd = .loop (some a) snd → s.sndAddress = some a := by
    intro a snd loop
    rw [sndAddress, loop]
  refine
    { sound :=
        { net := sound, fresh := h.sound.fresh
          sources := ?_, snd := ?_, rcv := ?_, joined := ?_ }
      alone := ?_, together := ?_ }
  · intro x y some
    by_cases native : setup.Foreign x
    · exact .inr (.inr native)
    · exact h.sound.sources x y fun nothing => some (less x native y nothing)
  · intro a here
    obtain ⟨own, bound', p, target, connected, only⟩ := h.sound.snd a here
    exact ⟨own, (bound a).trans bound', p, target, (peer a).trans connected,
      fun y away => less a (sender a here) y (only y away)⟩
  · intro b here
    obtain ⟨host, bound', apart⟩ := h.sound.rcv b here
    exact ⟨host, (bound b).trans bound', apart⟩
  · intro b r loop
    obtain ⟨a, here, connected, connected'⟩ := h.sound.joined b r loop
    exact ⟨a, here, (peer a).trans connected, (peer b).trans connected'⟩
  · intro a p snd here target apart native idle r begins
    have reach := h.alone a p snd here target apart native idle r begins
    rcases allowed with kept | lossy
    · simp only [kept a (sender a (at_ here))]
      exact reach
    · obtain ⟨k, same⟩ := drops a (sender a (at_ here)) p
      simp only [same]
      exact reach.step ⟨show Network.step crc32 _ (.loseData k) = .ok _ from rfl, (lossy _ k).1⟩
  · intro a b snd r here loop
    have reach := h.together a b snd r here loop
    rcases allowed with kept | lossy
    · simp only [kept a (sender a (at_ here)), kept b (receiver b r loop)]
      exact reach
    · obtain ⟨k, same⟩ := drops a (sender a (at_ here)) b
      obtain ⟨k', same'⟩ := drops b (receiver b r loop) a
      have lost := reach.step
        ⟨show Network.step crc32 _ (.loseData k) = .ok _ from rfl, (lossy _ k).1⟩
      simp only [same, same']
      exact lost.step ⟨show Network.step crc32 _ (.loseAck k') = .ok _ from rfl, (lossy _ k').2⟩

theorem Follows.step (h : s.Follows crc32 setup C) (event : SessionEvent ι)
    (undisturbed : s.Undisturbed setup event) (allowed : s.Allows setup C event)
    (next : s.step crc32 setup event = .ok s') : s'.Follows crc32 setup C := by
  cases event with
  | sendData calls opens memory =>
      simp only [Session.step] at next
      split at next
      · rename_i before
        exact h.sendData before next
      · cases next
        exact h
  | receiveData calls =>
      simp only [Session.step] at next
      split at next
      · rename_i before
        cases next
        exact h.receiveData before calls
      · cases next
        exact h
  | waitForClient recvfrom connect memory =>
      simp only [Session.step] at next
      split at next
      · rename_i here waits
        exact h.waitForClient waits (undisturbed here waits) next
      · cases next
        exact h
  | pass event =>
      cases event with
      | sender fdReady sfdReady sendClock replyClock timerClock memory =>
          simp only [Session.step, Session.pass] at next
          split at next
          · rename_i here snd loop
            exact h.senderPass loop (allowed here snd loop) next
          · cases next
            exact h
      | receiver arrives clock stack =>
          simp only [Session.step, Session.pass] at next
          split at next
          · rename_i here rcv loop
            exact h.receiverPass loop allowed next
          · cases next
            exact h
      | loseData i | loseAck i =>
          cases next
          exact h
  | deliver i =>
      cases next
      refine h.network (h.sound.net.deliver i) (Net.deliver_peer s.net i) (Net.deliver_bound s.net i)
        (fun x _ y => Net.between_deliver undisturbed x y) (allowed.imp_left fun taken x native y => ?_)
      apply Net.between_deliver_kept undisturbed
      intro d there joins
      apply taken d there
      rwa [(Datagram.joins_iff.mp joins).1]
  | lose i =>
      cases next
      refine h.network (h.sound.net.lose i) (fun _ => rfl) (fun _ => rfl)
        (fun x _ y => Net.between_lose s.net i x y) (allowed.imp_left fun foreign x native y => ?_)
      apply Net.between_lose_kept
      intro d there joins
      rw [(Datagram.joins_iff.mp joins).1.symm] at native
      exact native (foreign d there)
  | foreign d =>
      cases next
      have kept : ∀ x, ¬ setup.Foreign x → ∀ y,
          (s.net.send d.src d.dst d.bytes).between x y = s.net.between x y := by
        intro x native y
        have away : ¬ (d.src = x ∧ d.dst = y) := by
          rintro ⟨rfl, -⟩
          exact native undisturbed
        rw [Net.between_send, if_neg away, List.append_nil]
      refine h.network ⟨h.sound.net.blank, h.sound.net.faithful⟩ (fun _ => rfl) (fun _ => rfl)
        (fun x native y => ?_) (.inl kept)
      simp only [kept x native y]
      exact eraseIdx_none _

end Session

/-! ## The session is a transfer -/

section

variable {crc32 : List UInt8 → UInt32} {setup : Setup ι} {C : Network → Event → Prop}
  {s : Session ι}

theorem Session.Follows.of_reachable
    (reach : ((session crc32 setup).restrict fun s event =>
      s.Undisturbed setup event ∧ s.Allows setup C event).Reachable s) :
    s.Follows crc32 setup C := by
  apply reach.induct
  · rintro s rfl
    exact .start crc32 setup C
  · intro s event s' follows next
    exact follows.step event next.2.1 next.2.2 next.1

theorem Session.allows_true (setup : Setup ι) (s : Session ι) (event : SessionEvent ι) :
    s.Allows setup (fun _ _ => True) event := by
  cases event with
  | pass event => cases event <;> simp [Allows]
  | deliver i => exact .inr fun _ _ => ⟨trivial, trivial⟩
  | lose i => exact .inr fun _ _ => ⟨trivial, trivial⟩
  | sendData | receiveData | waitForClient | foreign => trivial

theorem Session.Follows.of_undisturbed
    (reach : ((session crc32 setup).restrict (Session.Undisturbed setup)).Reachable s) :
    s.Follows crc32 setup fun _ _ => True :=
  .of_reachable (reach.weaken fun s event undisturbed => ⟨undisturbed, s.allows_true setup event⟩)

theorem Session.Sound.told (h : s.Sound setup) {b : Address ι} {r : Receiver}
    (loop : s.rcv = .loop b r) : setup.target = some b := by
  obtain ⟨a, address, peer, -⟩ := h.joined b r loop
  obtain ⟨-, -, p, target, peer', -⟩ := h.snd a address
  rw [target, ← peer', peer]

theorem Session.Sound.sending (h : s.Sound setup) {b : Address ι} {r : Receiver}
    (loop : s.rcv = .loop b r) : ∃ a snd, s.snd = .loop (some a) snd := by
  obtain ⟨a, address, -⟩ := h.joined b r loop
  unfold Session.sndAddress at address
  split at address
  · rename_i here snd there
    exact ⟨a, snd, by rw [there, address]⟩
  · cases address

/-- Once the receiver is in its loop, started anyhow and among other hosts that send what they like,
    the two programs are in a state of the network of the two, and the receiver has the address that
    the sender was told. -/
theorem session_follows
    (reach : ((session crc32 setup).restrict (Session.Undisturbed setup)).Reachable s)
    {b : Address ι} {r : Receiver} (loop : s.rcv = .loop b r) :
    setup.target = some b ∧ ∃ a snd, s.snd = .loop (some a) snd ∧
      (network crc32 setup.sndArgs.file.isSome setup.input).Reachable
        { snd, rcv := r, input := s.input, toRcv := s.net.between a b
          toSnd := s.net.between b a } := by
  have follows := Session.Follows.of_undisturbed reach
  obtain ⟨a, snd, running⟩ := follows.sound.sending loop
  exact ⟨follows.sound.told loop, a, snd, running,
    (follows.together a b snd r running loop).of_restrict⟩

end

end SegmentTransfer
