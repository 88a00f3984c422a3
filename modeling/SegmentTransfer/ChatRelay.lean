import SegmentTransfer.Library.Liveness
import SegmentTransfer.ChatSteps

/-! # What the chat relays

Over whole runs of any number of programs: what is written was read by the peer,
in order and at most once, and as long as nothing is lost all of it can still be
written.
-/

namespace SegmentTransfer

open Udp

variable {ι : Type} [DecidableEq ι]

namespace Chats

variable {s s' : Chats ι} {a b : Address ι} {c : Chat ι} {after : Chat ι × Net (Address ι)}

/-- Nothing is lost between any two programs. -/
def Exact (s : Chats ι) : Prop := ∀ a b, s.relayed a b = s.outgoing a b

theorem Flows.exact (flows : s.Flows s') (same : s.Exact) : s'.Exact := by
  intro a b
  obtain ⟨new, relayed, outgoing⟩ := flows a b
  rw [relayed, outgoing, same]

theorem exact_of_reachable {getaddrinfo : String → Option ι}
    (reach : ((chats getaddrinfo).restrict Lossless).Reachable s) : s.Exact ∧ s.Sound := by
  apply reach.induct
  · rintro s rfl
    refine ⟨fun a b => ?_, .closed⟩
    simp only [relayed, shownAt, outgoing, Chats.closed, Net.between_closed, Option.elim_none,
      List.filter_nil, List.map_nil, List.append_nil]
    exact (ite_self _).symm
  · rintro s event s' ⟨same, sound⟩ ⟨rfl, keeps⟩
    obtain ⟨flows, sound'⟩ := lossless_step getaddrinfo sound keeps
    exact ⟨flows.exact same, sound'⟩

/-- Between two programs there is this much, of which some may not be written yet. -/
structure Sending (sent : List (List UInt8)) (a b : Address ι) (s : Chats ι) : Prop where
  sound : s.Sound
  exact : s.Exact
  outgoing : s.outgoing a b = sent
  joined : s.Joined a b

/-- The arrivals and reads until all of it is written. -/
def left (a b : Address ι) (s : Chats ι) : Nat :=
  2 * (s.net.flight.filter (Datagram.joins a b)).length + (s.net.socket b).queue.length

theorem Sending.reads (getaddrinfo : String → Option ι) {sent : List (List UInt8)}
    (h : s.Sending sent a b) {d : Datagram (Address ι)} (first : s.net.peek b = some d) :
    (s.step getaddrinfo (.pass b [] true)).Sending sent a b ∧
      (s.step getaddrinfo (.pass b [] true)).left a b < s.left a b := by
  obtain ⟨c, here, running⟩ := h.joined.reads
  obtain ⟨flows, sound⟩ := @lossless_step _ _ s getaddrinfo h.sound (.pass b [] true) trivial
  obtain ⟨c', passed, typed, running'⟩ := pass_listens h.sound here running first
  obtain ⟨rest, queue⟩ := List.head?_eq_some_iff.mp first
  refine ⟨⟨sound, flows.exact h.exact, ?_, ?_⟩, ?_⟩
  · rw [← h.outgoing, step, passed, Chats.outgoing, Chats.outgoing, put_net, Net.receive_peer]
    by_cases same : a = b
    · subst same
      rw [put_program, here, Option.elim_some, Option.elim_some, typed]
    · rw [put_program_ne _ _ same]
  · rw [step, passed]
    exact ⟨⟨c', put_program .., running'⟩, by rw [put_net, Net.receive_peer, h.joined.peer]⟩
  · simp only [step, passed, left, put_net, Net.receive, Net.setSocket_flight, Net.setSocket_self,
      queue, List.tail_cons, List.length_cons]
    omega

theorem Sending.delivers (getaddrinfo : String → Option ι) {sent : List (List UInt8)}
    (h : s.Sending sent a b) (under : s.net.flight.filter (Datagram.joins a b) ≠ []) :
    ∃ i, s.Lossless (.deliver i) ∧ (s.step getaddrinfo (.deliver i)).Sending sent a b ∧
      (s.step getaddrinfo (.deliver i)).left a b < s.left a b := by
  obtain ⟨i, d, there, rfl, rfl, turn⟩ := Net.exists_inTurn under
  obtain ⟨c, here, running⟩ := h.joined.reads
  have taken : (s.net.socket d.dst).takes d = true := by
    simp only [Socket.takes, h.sound.bound d.dst c here, h.joined.peer, Option.all_some, beq_self_eq_true,
      Bool.and_self]
  have keeps : s.Lossless (.deliver i) := by
    refine ⟨turn, fun e same => ?_⟩
    rw [there] at same
    cases same
    exact taken
  obtain ⟨flows, sound⟩ := lossless_step getaddrinfo h.sound keeps
  obtain ⟨queue, shorter⟩ := Net.deliver_taken there taken
  refine ⟨i, keeps, ⟨sound, flows.exact h.exact, ?_, ?_⟩, ?_⟩
  · rw [← h.outgoing]
    simp only [step, Chats.outgoing, Net.deliver_peer]
  · exact ⟨⟨c, here, running⟩, (Net.deliver_peer ..).trans h.joined.peer⟩
  · simp only [step, left, queue, shorter, List.length_append, List.length_singleton]
    omega

theorem Sending.done {sent : List (List UInt8)} (h : s.Sending sent a b)
    (queue : (s.net.socket b).queue = []) (flight : s.net.flight.filter (Datagram.joins a b) = []) :
    s.shownAt b a = sent := by
  have same := h.exact a b
  simp only [relayed, Net.between, queue, flight, List.filter_nil, List.map_nil, List.append_nil] at same
  rw [same, h.outgoing]

end Chats

/-! ## The chats -/

section

variable {getaddrinfo : String → Option ι} {s : Chats ι} {a b : Address ι}

/-- Whatever programs there are and whatever is lost, what one program wrote of another's datagrams
    and what is still under way between them was read by the other in this order, while it was
    connected to the one; and no program ever ends its loop. -/
theorem chat_relayed (reach : ((chats getaddrinfo).restrict Chats.InOrder).Reachable s) :
    (∀ a b, (s.shownAt b a ++ s.net.between a b).Sublist (s.outgoing a b)) ∧
      ∀ a c, s.program a = some c → c.ended = false := by
  have kept : (∀ a b, (s.relayed a b).Sublist (s.outgoing a b)) ∧ s.Sound := by
    apply reach.induct
    · rintro s rfl
      exact ⟨fun a b => List.nil_sublist _, .closed⟩
    · rintro s event s' ⟨related, sound⟩ ⟨rfl, turn⟩
      obtain ⟨flows | ⟨-, drops⟩, sound'⟩ := Chats.step_flows getaddrinfo sound turn
      · refine ⟨fun a b => ?_, sound'⟩
        obtain ⟨new, relayed, outgoing⟩ := flows a b
        rw [relayed, outgoing]
        exact (related a b).append (.refl _)
      · refine ⟨fun a b => ?_, sound'⟩
        rw [(drops a b).2]
        exact (drops a b).1.trans (related a b)
  exact ⟨kept.1, fun a c there => (kept.2.stays a c there).2⟩

/-- As long as nothing is lost, all that a program read since it is connected to another is written by
    that one or on the way there, and all of it can still be written. -/
theorem chat_complete (reach : ((chats getaddrinfo).restrict Chats.Lossless).Reachable s) :
    (∀ a b, s.shownAt b a ++ s.net.between a b = s.outgoing a b) ∧
      ∀ a b, s.Joined a b →
        ((chats getaddrinfo).restrict Chats.Lossless).Leads
          (fun t => t.shownAt b a = s.outgoing a b) s := by
  obtain ⟨same, sound⟩ := Chats.exact_of_reachable reach
  refine ⟨same, fun a b joined => ?_⟩
  have sending : s.Sending (s.outgoing a b) a b := ⟨sound, same, rfl, joined⟩
  refine Transition.Leads.descend (Chats.left a b) (fun t kept => ?_) sending
  cases queue : (t.net.socket b).queue with
  | cons d rest =>
      have first : t.net.peek b = some d := by
        rw [Net.peek, queue, List.head?_cons]
      exact .inr ⟨.pass b [] true, _, ⟨rfl, trivial⟩, kept.reads getaddrinfo first⟩
  | nil =>
      by_cases flight : t.net.flight.filter (Datagram.joins a b) = []
      · exact .inl (kept.done queue flight)
      · obtain ⟨i, keeps, further⟩ := kept.delivers getaddrinfo flight
        exact .inr ⟨.deliver i, _, ⟨rfl, keeps⟩, further⟩

end

/-! ## A server and a client -/

/-- Every name is that of one host. -/
def oneHost (_ : String) : Option Unit := some ()

/-- Every call succeeds, and port 1 is free. -/
def succeeding : SocketCalls Unit :=
  { socket := true, bind := true, connect := true, free := ((), 1), free_port := by decide }

def chatServer : Address Unit := ((), 4000)

def chatClient : Address Unit := ((), 1)

/-- Both are started, the client reads a line and the server is connected by it. -/
def chatted : Chats Unit :=
  [.start false "::1" 4000 succeeding, .start true "::1" 4000 succeeding,
    .pass chatClient [104, 105, 10] false, .deliver 0, .accept chatServer true true].foldl
    (Chats.step oneHost) .closed

/-- The server writes the line; of two more that the client reads, the first is lost. -/
def chatLost : Chats Unit :=
  [.pass chatServer [] true, .pass chatClient [63, 10] false, .pass chatClient [33, 10] false,
    .lose 0].foldl (Chats.step oneHost) chatted

theorem Chats.reachable_step {C : Chats Unit → ChatEvent Unit → Prop} {s : Chats Unit}
    (event : ChatEvent Unit) (reach : ((chats oneHost).restrict C).Reachable s) (keeps : C s event) :
    ((chats oneHost).restrict C).Reachable (s.step oneHost event) := reach.step ⟨rfl, keeps⟩

theorem chatted_reachable : ((chats oneHost).restrict Chats.Lossless).Reachable chatted := by
  have server := @Chats.reachable_step Chats.Lossless _ (.start false "::1" 4000 succeeding)
    (.of_init rfl) trivial
  have client := Chats.reachable_step (.start true "::1" 4000 succeeding) server trivial
  have typed := Chats.reachable_step (.pass chatClient [104, 105, 10] false) client trivial
  have arrived := Chats.reachable_step (.deliver 0) typed (by
    refine ⟨fun _ _ _ member => (List.not_mem_nil member).elim, fun d there => ?_⟩
    cases there
    rfl)
  exact Chats.reachable_step (.accept chatServer true true) arrived ⟨rfl, rfl⟩

/-- The first line is written, and the last is on the way. -/
theorem chat_relayed_sample :
    chatLost.shownAt chatServer chatClient = [[104, 105, 10]] ∧
      chatLost.net.between chatClient chatServer = [[33, 10]] ∧
      (chatLost.shownAt chatServer chatClient ++ chatLost.net.between chatClient chatServer).Sublist
        [[104, 105, 10], [63, 10], [33, 10]] := by
  have begun := chatted_reachable.weaken fun _ _ => Chats.Lossless.inOrder
  have shown := Chats.reachable_step (.pass chatServer [] true) begun trivial
  have second := Chats.reachable_step (.pass chatClient [63, 10] false) shown trivial
  have third := Chats.reachable_step (.pass chatClient [33, 10] false) second trivial
  have lost := Chats.reachable_step (.lose 0) third trivial
  exact ⟨rfl, rfl, (chat_relayed lost).1 chatClient chatServer⟩

/-- The line can still be written, though `wait_for_client` has seen it. -/
theorem chat_complete_sample :
    ((chats oneHost).restrict Chats.Lossless).Leads
      (fun t => t.shownAt chatServer chatClient = [[104, 105, 10]]) chatted :=
  (chat_complete chatted_reachable).2 chatClient chatServer ⟨⟨_, rfl, rfl⟩, rfl⟩

end SegmentTransfer
