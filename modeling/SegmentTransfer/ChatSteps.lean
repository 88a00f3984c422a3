import SegmentTransfer.Chat

/-! # What a step of the chat does

A program is kept well formed by every step, and no pass of `read_write_loop`
ends it. What is read of the standard input is what is added on the way to the
peer; only an arrival, a loss or an end of `wait_for_client` may take anything
away.
-/

namespace SegmentTransfer

open Udp

variable {ι : Type} [DecidableEq ι]

namespace Chats

variable {s s' : Chats ι} {a b : Address ι} {c : Chat ι} {after : Chat ι × Net (Address ι)}

theorem Sound.put (sound : s.Sound)
    (waits : after.1.waiting = true → after.1.typed = [])
    (stays : after.1.feof = false ∧ after.1.ended = false)
    (fits : ∀ x y, ∀ bytes ∈ after.2.between x y,
      bytes ∈ s.net.between x y ∨ (bytes ≠ [] ∧ bytes.length ≤ 1024))
    (bound : ∀ x, (s.net.socket x).bound = true → (after.2.socket x).bound = true)
    (mine : (after.2.socket a).bound = true) : (s.put a after).Sound where
  waits := by
    intro x d there
    by_cases same : x = a
    · subst same
      rw [put_program] at there
      cases there
      exact waits
    · rw [put_program_ne s after same] at there
      exact sound.waits x d there
  fits := by
    intro x y bytes member
    rcases fits x y bytes member with old | new
    · exact sound.fits x y bytes old
    · exact new
  bound := by
    intro x d there
    by_cases same : x = a
    · subst same
      exact mine
    · rw [put_program_ne s after same] at there
      exact bound x (sound.bound x d there)
  stays := by
    intro x d there
    by_cases same : x = a
    · subst same
      rw [put_program] at there
      cases there
      exact stays
    · rw [put_program_ne s after same] at there
      exact sound.stays x d there

omit [DecidableEq ι] in
theorem readStdin_keeps (a : Address ι) (input : List UInt8) (c : Chat ι) (n : Net (Address ι)) :
    (c.readStdin a input n).1.waiting = c.waiting ∧ (c.readStdin a input n).1.feof = c.feof ∧
      (c.readStdin a input n).1.ended = c.ended := by
  by_cases empty : input.take 1024 = []
  · simp only [Chat.readStdin, empty, if_true, and_self]
  · simp only [Chat.readStdin, if_neg empty, and_self]

theorem readSocket_keeps (a : Address ι) (listens : Bool) (c : Chat ι) (n : Net (Address ι)) :
    (c.readSocket a listens n).1.waiting = c.waiting ∧ (c.readSocket a listens n).1.feof = c.feof ∧
      (c.readSocket a listens n).1.ended = c.ended := by
  unfold Chat.readSocket
  cases if listens then n.peek a else none with
  | none => exact ⟨rfl, rfl, rfl⟩
  | some d =>
      by_cases empty : d.bytes.take 1024 = []
      · simp only [empty, if_true, and_self]
      · simp only [if_neg empty, and_self]

omit [DecidableEq ι] in
theorem readStdin_socket (a : Address ι) (input : List UInt8) (c : Chat ι) (n : Net (Address ι)) :
    (c.readStdin a input n).2.socket = n.socket := by
  by_cases empty : input.take 1024 = []
  · simp only [Chat.readStdin, empty, if_true]
  · simp only [Chat.readStdin, if_neg empty]
    split <;> rfl

theorem Sound.readStdin (sound : s.Sound) (here : s.program a = some c) (running : c.waiting = false)
    (input : List UInt8) : (s.put a (c.readStdin a input s.net)).Sound := by
  have bound := sound.bound a c here
  obtain ⟨waiting, feof, ended⟩ := readStdin_keeps a input c s.net
  apply sound.put
  · intro waits
    rw [waiting, running] at waits
    cases waits
  · rw [feof, ended]
    exact sound.stays a c here
  · intro x y bytes member
    by_cases empty : input.take 1024 = []
    · simp only [Chat.readStdin, empty, if_true] at member
      exact .inl member
    · simp only [Chat.readStdin, if_neg empty] at member
      cases peer : (s.net.socket a).peer with
      | none =>
          simp only [peer] at member
          exact .inl member
      | some p =>
          simp only [peer, Net.between_send, List.mem_append] at member
          rcases member with old | new
          · exact .inl old
          · split at new
            · rw [List.mem_singleton.mp new]
              exact .inr ⟨empty, List.length_take_le _ _⟩
            · cases new
  · intro x there
    rwa [readStdin_socket]
  · rwa [readStdin_socket]

theorem Sound.readSocket (sound : s.Sound) (here : s.program a = some c)
    (running : c.waiting = false) (listens : Bool) :
    (s.put a (c.readSocket a listens s.net)).Sound := by
  have bound := sound.bound a c here
  obtain ⟨waiting, feof, ended⟩ := readSocket_keeps a listens c s.net
  have waits : (c.readSocket a listens s.net).1.waiting = true →
      (c.readSocket a listens s.net).1.typed = [] := by
    intro waits
    rw [waiting, running] at waits
    cases waits
  have stays : (c.readSocket a listens s.net).1.feof = false ∧
      (c.readSocket a listens s.net).1.ended = false := by
    rw [feof, ended]
    exact sound.stays a c here
  cases first : (if listens then s.net.peek a else none) with
  | none =>
      have same : (c.readSocket a listens s.net).2 = s.net := by
        simp only [Chat.readSocket, first]
      apply sound.put waits stays
      · intro x y bytes member
        rw [same] at member
        exact .inl member
      · intro x there
        rwa [same]
      · rwa [same]
  | some d =>
      have there : s.net.peek a = some d := by
        cases listens with
        | false => cases first
        | true => exact first
      have same : (c.readSocket a listens s.net).2 = s.net.receive a := by
        simp only [Chat.readSocket, first]
      apply sound.put waits stays
      · intro x y bytes member
        rw [same] at member
        by_cases between : x = d.src ∧ y = a
        · obtain ⟨rfl, rfl⟩ := between
          rw [Net.between_receive there]
          exact .inl (.tail _ member)
        · rw [Net.between_receive_ne there between] at member
          exact .inl member
      · intro x bound
        rwa [same, Net.receive_bound]
      · rwa [same, Net.receive_bound]

theorem pass_flows (sound : s.Sound) (a : Address ι) (input : List UInt8) (listens : Bool) :
    s.Flows (s.pass a input listens) ∧ (s.pass a input listens).Sound := by
  unfold pass
  cases here : s.program a with
  | none => exact ⟨.refl s, sound⟩
  | some c =>
      obtain ⟨-, goes⟩ := sound.stays a c here
      cases running : c.waiting with
      | true =>
          simp only [running, if_true]
          exact ⟨.refl s, sound⟩
      | false =>
          simp only [running, goes, Bool.false_eq_true, if_false]
          have typed := Flows.readStdin here input
          have sound₁ := sound.readStdin here running input
          have running₁ := (readStdin_keeps a input c s.net).1.trans running
          generalize c.readStdin a input s.net = first at typed sound₁ running₁
          have shown := Flows.readSocket sound₁ (put_program s a first) listens
          have sound₂ := sound₁.readSocket (put_program s a first) running₁ listens
          have running₂ := (readSocket_keeps a listens first.1 first.2).1.trans running₁
          rw [put_net, put_put] at shown sound₂
          generalize first.1.readSocket a listens first.2 = second at shown sound₂ running₂
          have same : ({ second.1 with ended := second.1.feof }, second.2) = second := by
            obtain ⟨⟨_, _, _, _, _⟩, n'⟩ := second
            obtain ⟨rfl, rfl⟩ := sound₂.stays a _ (put_program s a _)
            rfl
          rw [same]
          exact ⟨typed.trans shown, sound₂⟩

/-- The end of a program that waits loses what its socket had queued. -/
theorem exit_drops (sound : s.Sound) (here : s.program a = some c) (waiting : c.waiting = true) :
    s.Drops (s.exit a) ∧ (s.exit a).Sound := by
  have nothing := sound.waits a c here waiting
  have gone : (s.exit a).program a = none := Function.update_self ..
  have others : ∀ x, x ≠ a → (s.exit a).program x = s.program x ∧
      (s.exit a).net.socket x = s.net.socket x := fun x other =>
    ⟨Function.update_of_ne other .., Net.setSocket_ne _ _ other⟩
  have kept : ∀ x d, (s.exit a).program x = some d →
      s.program x = some d ∧ (s.exit a).net.socket x = s.net.socket x := by
    intro x d there
    by_cases same : x = a
    · subst same
      rw [gone] at there
      cases there
    · rw [(others x same).1] at there
      exact ⟨there, (others x same).2⟩
  refine ⟨fun x y => ⟨?_, ?_⟩, ?_⟩
  · have between : ((s.exit a).net.between x y).Sublist (s.net.between x y) :=
      Net.between_close ..
    by_cases same : y = a
    · subst same
      simp only [relayed, shownAt, gone, Option.elim_none, List.filter_nil, List.map_nil,
        List.nil_append]
      exact between.trans (List.sublist_append_right _ _)
    · simp only [relayed, shownAt, (others y same).1]
      exact (List.Sublist.refl _).append between
  · by_cases same : x = a
    · subst same
      simp only [outgoing, gone, here, Option.elim_none, Option.elim_some, nothing, ite_self]
    · simp only [outgoing, others x same]
  · exact
      { waits := fun x d there => sound.waits x d (kept x d there).1
        fits := fun x y bytes member =>
          sound.fits x y bytes ((Net.between_close s.net x y a).subset member)
        bound := fun x d there => by
          rw [(kept x d there).2]
          exact sound.bound x d (kept x d there).1
        stays := fun x d there => sound.stays x d (kept x d there).1 }

theorem Sound.net (sound : s.Sound) {net : Net (Address ι)}
    (less : ∀ x y, (net.between x y).Sublist (s.net.between x y))
    (peers : ∀ x, (net.socket x).peer = (s.net.socket x).peer)
    (bound : ∀ x, (net.socket x).bound = (s.net.socket x).bound) :
    s.Drops { s with net } ∧ Sound { s with net } := by
  refine ⟨fun x y => ⟨(List.Sublist.refl _).append (less x y), ?_⟩, ?_⟩
  · simp only [outgoing, peers]
  · exact
      { waits := sound.waits
        fits := fun x y bytes member => sound.fits x y bytes ((less x y).subset member)
        bound := fun x d there => (bound x).trans (sound.bound x d there)
        stays := sound.stays }

theorem deliver_sublist {n : Net (Address ι)} {i : Nat} (turn : n.InTurn i) (x y : Address ι) :
    ((n.deliver i).between x y).Sublist (n.between x y) := by
  obtain ⟨k, same⟩ := Net.between_deliver turn x y
  rw [same]
  exact List.eraseIdx_sublist _ _

theorem deliver_flows {i : Nat} (turn : s.net.InTurn i)
    (taken : ∀ d, s.net.flight[i]? = some d → (s.net.socket d.dst).takes d = true) :
    s.Flows { s with net := s.net.deliver i } := by
  have same : ∀ x y, (s.net.deliver i).between x y = s.net.between x y := by
    intro x y
    cases there : s.net.flight[i]? with
    | none => simp only [Net.deliver, there]
    | some d =>
        simp only [Net.deliver, there]
        exact Net.between_arrive turn there (taken d there) x y
  intro x y
  refine ⟨[], ?_, ?_⟩
  · simp only [relayed, shownAt, same, List.append_nil]
  · simp only [outgoing, Net.deliver_peer, List.append_nil]

theorem start_flows (getaddrinfo : String → Option ι) (sound : s.Sound) (client : Bool)
    (host : String) (port : Int) (calls : SocketCalls ι) :
    s.Flows (s.start getaddrinfo client host port calls) ∧
      (s.start getaddrinfo client host port calls).Sound := by
  unfold start
  cases realAddress getaddrinfo host with
  | none => exact ⟨.refl s, sound⟩
  | some addr =>
      simp only
      split
      · rename_i a net created
        have opened : (s.net.socket a).bound = false ∧
            (net = s.net.bind a ∨ ∃ peer, net = s.net.connect a peer) := by
          cases client with
          | true =>
              obtain ⟨-, -, free, same⟩ := createSocket_dest created
              exact ⟨free, .inr ⟨_, same⟩⟩
          | false =>
              obtain ⟨-, -, free, same⟩ := createSocket_source created
              exact ⟨free, .inl same⟩
        refine ⟨.start sound opened.1 opened.2, sound.put (fun _ => rfl) ⟨rfl, rfl⟩ ?_ ?_ ?_⟩
        · intro x y bytes member
          rcases opened.2 with rfl | ⟨peer, rfl⟩
          · rw [Net.between_bind] at member
            exact .inl member
          · rw [Net.between_connect] at member
            exact .inl member
        · intro x bound
          by_cases same : x = a
          · subst same
            rcases opened.2 with rfl | ⟨peer, rfl⟩
            · simp only [Net.bind, Net.setSocket_self]
            · simp only [Net.connect, Net.setSocket_self]
          · rcases opened.2 with rfl | ⟨peer, rfl⟩
            · rwa [Net.bind, Net.setSocket_ne _ _ same]
            · rwa [Net.connect, Net.setSocket_ne _ _ same]
        · rcases opened.2 with rfl | ⟨peer, rfl⟩
          · simp only [Net.bind, Net.setSocket_self]
          · simp only [Net.connect, Net.setSocket_self]
      · exact ⟨.refl s, sound⟩

/-- A client that is waited for is kept, unless a call fails. -/
theorem accept_flows (sound : s.Sound) (a : Address ι) (recvfrom connect : Bool) :
    (s.Flows (s.accept a recvfrom connect) ∨
      ¬ (recvfrom = true ∧ connect = true) ∧ s.Drops (s.accept a recvfrom connect)) ∧
      (s.accept a recvfrom connect).Sound := by
  unfold accept
  cases here : s.program a with
  | none => exact ⟨.inl (.refl s), sound⟩
  | some c =>
      cases waiting : c.waiting with
      | false =>
          simp only [waiting, Bool.false_eq_true, if_false]
          exact ⟨.inl (.refl s), sound⟩
      | true =>
          simp only [waiting, if_true]
          split
          · exact ⟨.inl (.refl s), sound⟩
          · rename_i net waited
            obtain ⟨d, -, rfl⟩ := waitForClient_ok waited
            refine ⟨.inl (.accept sound here waiting d.src), ?_⟩
            apply sound.put
            · intro waits
              cases waits
            · exact sound.stays a c here
            · intro x y bytes member
              rw [Net.between_connect] at member
              exact .inl member
            · intro x bound
              by_cases same : x = a
              · subst same
                simp only [Net.connect, Net.setSocket_self]
              · rwa [Net.connect, Net.setSocket_ne _ _ same]
            · simp only [Net.connect, Net.setSocket_self]
          · rename_i net failed
            obtain ⟨drops, sound'⟩ := exit_drops sound here waiting
            refine ⟨.inr ⟨?_, drops⟩, sound'⟩
            rintro ⟨rfl, rfl⟩
            unfold waitForClient at failed
            simp only [Bool.not_true, Bool.false_eq_true, if_false, if_true] at failed
            split at failed <;> cases failed

theorem step_flows (getaddrinfo : String → Option ι) (sound : s.Sound) {event : ChatEvent ι}
    (turn : s.InOrder event) :
    (s.Flows (s.step getaddrinfo event) ∨
      ¬ s.Lossless event ∧ s.Drops (s.step getaddrinfo event)) ∧
      (s.step getaddrinfo event).Sound := by
  cases event with
  | start client host port calls =>
      obtain ⟨flows, sound'⟩ := start_flows getaddrinfo sound client host port calls
      exact ⟨.inl flows, sound'⟩
  | accept a recvfrom connect => exact accept_flows sound a recvfrom connect
  | pass a input listens =>
      obtain ⟨flows, sound'⟩ := pass_flows sound a input listens
      exact ⟨.inl flows, sound'⟩
  | deliver i =>
      obtain ⟨drops, sound'⟩ := sound.net (deliver_sublist turn) (Net.deliver_peer s.net i)
        (Net.deliver_bound s.net i)
      refine ⟨?_, sound'⟩
      by_cases taken : ∀ d, s.net.flight[i]? = some d → (s.net.socket d.dst).takes d = true
      · exact .inl (deliver_flows turn taken)
      · exact .inr ⟨fun lossless => taken lossless.2, drops⟩
  | lose i =>
      have less : ∀ x y, ((s.net.lose i).between x y).Sublist (s.net.between x y) := by
        intro x y
        obtain ⟨k, same⟩ := Net.between_lose s.net i x y
        rw [same]
        exact List.eraseIdx_sublist _ _
      obtain ⟨drops, sound'⟩ := sound.net less (fun _ => rfl) (fun _ => rfl)
      exact ⟨.inr ⟨id, drops⟩, sound'⟩

theorem Lossless.inOrder {event : ChatEvent ι} (h : s.Lossless event) : s.InOrder event := by
  cases event with
  | deliver i => exact h.1
  | lose i => exact h.elim
  | start | accept | pass => trivial

theorem Sound.closed : (closed : Chats ι).Sound where
  waits := fun _ _ there => by cases there
  fits := fun _ _ _ member => by cases member
  bound := fun _ _ there => by cases there
  stays := fun _ _ there => by cases there

theorem pass_listens (sound : s.Sound) (here : s.program a = some c) (running : c.waiting = false)
    {d : Datagram (Address ι)} (first : s.net.peek a = some d) :
    ∃ c', s.pass a [] true = s.put a (c', s.net.receive a) ∧ c'.typed = c.typed ∧
      c'.waiting = false := by
  obtain ⟨-, goes⟩ := sound.stays a c here
  have nothing : c.readStdin a [] s.net = (c, s.net) := by
    simp only [Chat.readStdin, List.take_nil, if_true]
  have read : ∃ c', c.readSocket a true s.net = (c', s.net.receive a) ∧ c'.typed = c.typed ∧
      c'.waiting = c.waiting := by
    simp only [Chat.readSocket, if_true, first]
    refine ⟨_, rfl, ?_⟩
    split <;> exact ⟨rfl, rfl⟩
  obtain ⟨c', read, typed, waiting⟩ := read
  refine ⟨{ c' with ended := c'.feof }, ?_, typed, waiting.trans running⟩
  simp only [pass, here, running, goes, Bool.false_eq_true, if_false, nothing, read]

theorem lossless_step (getaddrinfo : String → Option ι) (sound : s.Sound) {event : ChatEvent ι}
    (lossless : s.Lossless event) :
    s.Flows (s.step getaddrinfo event) ∧ (s.step getaddrinfo event).Sound := by
  obtain ⟨flows | ⟨lossy, -⟩, sound'⟩ := step_flows getaddrinfo sound lossless.inOrder
  · exact ⟨flows, sound'⟩
  · exact (lossy lossless).elim

end Chats

end SegmentTransfer
