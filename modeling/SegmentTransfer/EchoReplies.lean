import SegmentTransfer.Echo

/-! # Replies of the UDP server

Without loss every line a client sent can still be printed by it, whatever other
programs send to the server in between.
-/

namespace SegmentTransfer

open Bytes Outcome Udp

variable {α : Type} [DecidableEq α]

namespace Echo

/-- Undisturbed; no datagram of a client or to one is lost, those of other programs fit the array
    with a zero behind, and the server's array ends with a zero when it starts. -/
def Lossless (server : α) (others : α → Prop) (s : Echo α) (event : EchoEvent α) : Prop :=
  Undisturbed server others event ∧
    match event with
    | .serve memory => memory.bytes[511]? = some 0
    | .deliver i => ∀ d, s.net.flight[i]? = some d → ¬ (others d.src ∨ others d.dst) →
        (s.net.socket d.dst).takes d = true
    | .lose i => ∀ d, s.net.flight[i]? = some d → others d.src ∨ others d.dst
    | .foreign d => d.bytes.length < 512
    | _ => True

/-- What a client waits for is under way, and the server can print what it receives. -/
structure Exact (server : α) (others : α → Prop) (s : Echo α) : Prop where
  sound : s.Sound server others
  kept : ∀ a, a ≠ server → ¬ others a → (s.awaited a).length ≤ (s.pending server a).length
  short : ∀ x, ∀ m ∈ s.net.between x server, m.length < 512
  serving : ∀ v, s.server = some v →
    v.buf.bytes[511]? = some 0 ∧ (s.net.socket server).bound = true
  bound : ∀ a c, s.client a = some c → c.waiting = true → (s.net.socket a).bound = true
  peers : ∀ a, (s.net.socket a).peer = none

section

variable {server : α} {others : α → Prop} {s s' : Echo α} {a b : α} {c : EchoClient α}

theorem Exact.closed (server : α) (others : α → Prop) : (closed : Echo α).Exact server others where
  sound := .closed server others
  kept := fun _ _ _ => Nat.le_refl _
  short := fun _ _ member => by cases member
  serving := fun _ there => by cases there
  bound := fun _ _ there => by cases there
  peers := fun _ => rfl

theorem Exact.net (exact : s.Exact server others) {net : Net α}
    (sound : Sound server others { s with net })
    (kept : ∀ a, a ≠ server → ¬ others a → (s.pending server a).length ≤
      (net.between a server).length + (net.between server a).length)
    (short : ∀ x, ∀ m ∈ net.between x server, m ∈ s.net.between x server ∨ m.length < 512)
    (bound : ∀ a, (net.socket a).bound = (s.net.socket a).bound)
    (peers : ∀ a, (net.socket a).peer = (s.net.socket a).peer) :
    Exact server others { s with net } where
  sound := sound
  kept := fun a apart mine => by
    have more := kept a apart mine
    rw [← List.length_append] at more
    exact (exact.kept a apart mine).trans more
  short := fun x m member => (short x m member).elim (exact.short x m) id
  serving := fun v there => by
    obtain ⟨ends, listening⟩ := exact.serving v there
    exact ⟨ends, (bound server).trans listening⟩
  bound := fun a c there waits => (bound a).trans (exact.bound a c there waits)
  peers := fun a => (peers a).trans (exact.peers a)

/-- What a client does. -/
theorem Exact.put (exact : s.Exact server others) {net : Net α}
    (sound : (s.put a c net).Sound server others)
    (own : c.awaited.length ≤ (net.between a server).length + (net.between server a).length)
    (kept : ∀ b, b ≠ a → net.between b server = s.net.between b server ∧
      net.between server b = s.net.between server b)
    (short : ∀ m ∈ net.between a server, m.length < 512)
    (bound : ∀ b, (s.net.socket b).bound = true → (net.socket b).bound = true)
    (mine : c.waiting = true → (net.socket a).bound = true)
    (peers : ∀ b, (net.socket b).peer = (s.net.socket b).peer) :
    (s.put a c net).Exact server others where
  sound := sound
  kept := by
    intro b apart its
    by_cases here : b = a
    · subst here
      rw [awaited, put_client, Option.elim_some, Echo.pending, List.length_append]
      exact own
    · obtain ⟨there, back⟩ := kept b here
      have same := exact.kept b apart its
      rw [awaited, put_client_ne s c net here, Echo.pending]
      rw [awaited, Echo.pending, ← there, ← back] at same
      exact same
  short := by
    intro x m member
    by_cases here : x = a
    · subst here
      exact short m member
    · exact exact.short x m ((kept x here).1 ▸ member)
  serving := fun v there => by
    obtain ⟨ends, listening⟩ := exact.serving v there
    exact ⟨ends, bound server listening⟩
  bound := by
    intro b d there waits
    by_cases here : b = a
    · subst here
      rw [put_client] at there
      cases there
      exact mine waits
    · rw [put_client_ne s c net here] at there
      exact bound b (exact.bound b d there waits)
  peers := fun b => (peers b).trans (exact.peers b)

theorem Exact.enter (exact : s.Exact server others) {line : Option (List UInt8)}
    (next : s.enter a line = .ok s') : s'.Exact server others := by
  have sound := exact.sound.enter next
  unfold Echo.enter at next
  split at next
  · cases next
    exact exact
  · rename_i c here
    split at next
    · cases next
      exact exact
    · obtain ⟨message, -, next⟩ := bind_eq_ok.mp next
      obtain ⟨text, found, next⟩ := bind_eq_ok.mp next
      cases next
      have found := orFail_eq_ok.mp found
      obtain ⟨apart, mine, other, -⟩ := exact.sound.client a c here
      have to_ : ∀ b, ((s.net.bind a).send a c.siOther text).between b server =
          s.net.between b server ++ if a = b then [text] else [] := by
        intro b
        simp only [Net.between_send, Net.between_bind, other, and_true]
      have from_ : ∀ b, ((s.net.bind a).send a c.siOther text).between server b =
          s.net.between server b := by
        intro b
        have away : ¬ (a = server ∧ c.siOther = b) := fun both => apart both.1
        rw [Net.between_send, if_neg away, List.append_nil, Net.between_bind]
      refine exact.put sound ?_ (fun b away => ?_) (fun m member => ?_) (fun b => Net.bind_bound s.net a b)
        (fun _ => ?_) (fun b => Net.bind_peer s.net a b)
      · rw [to_, if_pos rfl, EchoClient.awaited]
        simp [found]
        omega
      · rw [to_, from_, if_neg (Ne.symm away), List.append_nil]
        exact ⟨rfl, rfl⟩
      · rw [to_, if_pos rfl] at member
        rcases List.mem_append.mp member with old | new
        · exact exact.short a m old
        · rw [List.mem_singleton.mp new]
          exact (Buf.cString_fits found).2
      · show ((s.net.bind a).socket a).bound = true
        rw [Net.bind, Net.setSocket_self]

theorem Exact.receive (exact : s.Exact server others) (next : s.receive a = .ok s') :
    s'.Exact server others := by
  have sound := exact.sound.receive next
  unfold Echo.receive at next
  split at next
  · rename_i c d here first
    split at next
    · obtain ⟨text, -, next⟩ := bind_eq_ok.mp next
      cases next
      obtain ⟨source, -⟩ := exact.sound.peek here first
      obtain ⟨apart, -⟩ := exact.sound.client a c here
      have to_ : ∀ x, (s.net.receive a).between x server = s.net.between x server := fun x =>
        Net.between_receive_ne first fun both => apart both.2.symm
      refine exact.put sound (Nat.zero_le _) (fun b away => ⟨to_ b, ?_⟩) (fun m member => ?_)
        (fun b there => (Net.receive_bound ..).trans there) (fun waits => by cases waits)
        fun b => Net.receive_peer ..
      · exact Net.between_receive_ne first fun both => away both.2
      · rw [to_] at member
        exact exact.short a m member
    · cases next
      exact exact
  · cases next
    exact exact

theorem Exact.answers (exact : s.Exact server others) {v : EchoServer} (here : s.server = some v)
    {d : Datagram α} (first : s.net.peek server = some d) :
    ∃ w, s.answer server = .ok
      { s with net := (s.net.receive server).send server d.src d.bytes, server := some w } ∧
      w.buf.bytes[511]? = some 0 := by
  have fits : d.bytes.length < 512 := by
    apply exact.short d.src
    rw [Net.between_receive first]
    exact .head _
  have ends : (v.buf.fill d.bytes).bytes[511]? = some 0 := by
    rw [Buf.fill_bytes _ (Nat.le_of_lt fits), List.getElem?_append_right (by omega),
      List.getElem?_drop, Nat.add_sub_of_le (by omega)]
    exact (exact.serving v here).1
  obtain ⟨text, found⟩ := Option.isSome_iff_exists.mp
    (cString_isSome (List.mem_of_getElem? ends))
  have whole : (v.buf.fill d.bytes).bytes.take (min d.bytes.length 512) = d.bytes := by
    rw [reply_eq, List.take_of_length_le (Nat.le_of_lt fits)]
  refine ⟨{ v with
    buf := v.buf.fill d.bytes, heard := v.heard ++ [d.bytes], printed := v.printed ++ [text] },
    ?_, ends⟩
  simp only [Echo.answer, here, first, found, orFail_some, ok_bind, whole]
  rfl

theorem Exact.answer (exact : s.Exact server others) (next : s.answer server = .ok s') :
    s'.Exact server others := by
  have sound := exact.sound.answer next
  cases here : s.server with
  | none =>
      simp only [Echo.answer, here] at next
      cases next
      exact exact
  | some v =>
      cases first : s.net.peek server with
      | none =>
          simp only [Echo.answer, here, first] at next
          cases next
          exact exact
      | some d =>
          obtain ⟨w, answers, ends⟩ := exact.answers here first
          rw [answers] at next
          cases next
          have turned := Net.between_receive first
          have received : ∀ x, x ≠ d.src →
              (s.net.receive server).between x server = s.net.between x server := fun x away =>
            Net.between_receive_ne first fun both => away both.1
          refine
            { sound, kept := ?_, short := ?_, serving := ?_, bound := ?_, peers := ?_ }
          · intro b apart mine
            refine (exact.kept b apart mine).trans ?_
            have back : ¬ (server = d.src ∧ b = server) := fun both => apart both.2
            have out : ¬ (server = b ∧ d.src = server) := fun both => apart both.1.symm
            rw [Echo.pending, Echo.pending, Net.between_send, if_neg out, Net.between_send,
              Net.between_receive_ne first back]
            by_cases its : d.src = b
            · subst its
              rw [turned]
              simp only [List.length_append, List.length_cons, List.length_nil, and_self, if_true]
              omega
            · rw [received b (Ne.symm its)]
              simp
          · intro x m member
            rw [Net.between_send] at member
            rcases List.mem_append.mp member with old | new
            · exact exact.short x m ((Net.between_receive_sublist ..).subset old)
            · split at new
              · apply exact.short d.src
                rw [turned, List.mem_singleton.mp new]
                exact .head _
              · cases new
          · intro v' there
            cases there
            exact ⟨ends, (Net.receive_bound ..).trans (exact.serving v here).2⟩
          · exact fun a c there waits => (Net.receive_bound ..).trans (exact.bound a c there waits)
          · exact fun a => (Net.receive_peer ..).trans (exact.peers a)

theorem Exact.step (apart : ¬ others server) (exact : s.Exact server others)
    {event : EchoEvent α} (lossless : s.Lossless server others event)
    (next : s.step server event = .ok s') : s'.Exact server others := by
  have sound := exact.sound.step apart lossless.1 next
  cases event with
  | serve memory =>
      cases next
      by_cases listening : (s.net.socket server).bound = true
      · have same : s.serve server memory = s := if_pos listening
        rw [same]
        exact exact
      · have opened : s.serve server memory =
            { s with net := s.net.bind server, server := some ⟨memory, memory, [], []⟩ } :=
          if_neg listening
        rw [opened] at sound ⊢
        refine
          { sound, kept := ?_, short := ?_, serving := ?_, bound := ?_, peers := ?_ }
        · intro b away mine
          rw [Echo.pending, Net.between_bind, Net.between_bind]
          exact exact.kept b away mine
        · intro x m member
          rw [Net.between_bind] at member
          exact exact.short x m member
        · intro v there
          cases there
          exact ⟨lossless.2, by rw [Net.bind, Net.setSocket_self]⟩
        · exact fun a c there waits => Net.bind_bound _ _ _ (exact.bound a c there waits)
        · exact fun a => (Net.bind_peer ..).trans (exact.peers a)
  | start a memory =>
      cases next
      by_cases taken : a = server ∨ (s.net.socket a).bound ∨ (s.client a).isSome
      · have same : s.start server a memory = s := if_pos taken
        rw [same]
        exact exact
      · have begun : s.start server a memory = _ := if_neg taken
        rw [begun] at sound ⊢
        exact exact.put sound (Nat.zero_le _) (fun _ _ => ⟨rfl, rfl⟩) (exact.short a)
          (fun _ there => there) (fun waits => by cases waits) fun _ => rfl
  | enter a line => exact exact.enter next
  | receive a => exact exact.receive next
  | answer => exact exact.answer next
  | deliver i =>
      cases next
      have taken : ∀ x y, ¬ (others x ∨ others y) →
          ((s.net.deliver i).between x y).Perm (s.net.between x y) := by
        intro x y native
        apply Net.between_deliver_perm
        intro d there joins
        obtain ⟨rfl, rfl⟩ := Datagram.joins_iff.mp joins
        exact lossless.2 d there native
      refine exact.net sound (fun b _ mine => ?_) (fun x m member => ?_) (Net.deliver_bound s.net i)
        (Net.deliver_peer s.net i)
      · rw [(taken b server (by simp [mine, apart])).length_eq,
          (taken server b (by simp [mine, apart])).length_eq, ← List.length_append]
        exact Nat.le_refl _
      · exact .inl ((s.net.between_deliver_subperm i x server).subset member)
  | lose i =>
      cases next
      have kept : ∀ x y, ¬ (others x ∨ others y) →
          (s.net.lose i).between x y = s.net.between x y := by
        intro x y native
        apply Net.between_lose_kept
        intro d there joins
        obtain ⟨rfl, rfl⟩ := Datagram.joins_iff.mp joins
        exact native (lossless.2 d there)
      refine exact.net sound (fun b _ mine => ?_) (fun x m member => ?_) (fun _ => rfl) fun _ => rfl
      · rw [kept b server (by simp [mine, apart]), kept server b (by simp [mine, apart]),
          ← List.length_append]
        exact Nat.le_refl _
      · obtain ⟨k, same⟩ := s.net.between_lose i x server
        rw [same] at member
        exact .inl ((List.eraseIdx_sublist _ _).subset member)
  | foreign d =>
      cases next
      refine exact.net sound (fun b _ _ => ?_) (fun x m member => ?_) (fun _ => rfl) fun _ => rfl
      · rw [Net.between_send, Net.between_send, Echo.pending]
        simp only [List.length_append]
        omega
      · rw [Net.between_send] at member
        rcases List.mem_append.mp member with old | new
        · exact .inl old
        · split at new
          · rw [List.mem_singleton.mp new]
            exact .inr lossless.2
          · cases new

theorem Exact.of_reachable (apart : ¬ others server)
    (reach : ((echo server).restrict (Lossless server others)).Reachable s) :
    s.Exact server others := by
  apply reach.induct
  · rintro s rfl
    exact .closed server others
  · intro s event s' exact next
    exact exact.step apart next.2 next.1

/-! ## The way of a line -/

/-- The client has printed all it sent. -/
def Answered (a : α) (sent : List (List UInt8)) (t : Echo α) : Prop :=
  ∃ d, t.client a = some d ∧ d.sent = sent ∧ d.shown = sent

theorem Exact.takes (exact : s.Exact server others) (bound : (s.net.socket b).bound = true)
    (d : Datagram α) : (s.net.socket b).takes d = true := by
  rw [Socket.takes, bound, exact.peers b]
  rfl

theorem Exact.prints (exact : s.Exact server others) (here : s.client a = some c)
    (waiting : c.waiting = true) {d : Datagram α} (first : s.net.peek a = some d) :
    ((echo server).restrict (Lossless server others)).Leads (Answered a c.sent) s := by
  obtain ⟨source, waits, -⟩ := exact.sound.peek here first
  obtain ⟨-, -, -, sent, -⟩ := exact.sound.client a c here
  obtain ⟨none, fits⟩ := c.awaited_fits (by rw [waits]; exact .head _)
  have reads : s.receive a = .ok (s.put a
      { c with siOther := d.src, waiting := false, shown := c.shown ++ [d.bytes] }
      (s.net.receive a)) := by
    simp only [Echo.receive, here, first, waiting, if_true, cString_line none fits, orFail_some,
      ok_bind]
    rfl
  have next : s.step server (.receive a) = _ := reads
  refine .step ⟨next, trivial, trivial⟩ (.here ⟨_, put_client .., rfl, ?_⟩)
  exact (sent.trans (by rw [waits])).symm

theorem Exact.returns (apart : ¬ others server) (exact : s.Exact server others)
    (here : s.client a = some c) (waiting : c.waiting = true)
    (back : s.net.between server a ≠ []) :
    ((echo server).restrict (Lossless server others)).Leads (Answered a c.sent) s := by
  cases first : s.net.peek a with
  | some d => exact exact.prints here waiting first
  | none =>
      have takes := exact.takes (exact.bound a c here waiting)
      obtain ⟨i, -, taken, arrived⟩ := Net.exists_arrival (fun d _ => takes d) first back
      have lossless : s.Lossless server others (.deliver i) :=
        ⟨trivial, fun d there _ => taken d there⟩
      have next : s.step server (.deliver i) = .ok { s with net := s.net.deliver i } := rfl
      obtain ⟨d, first'⟩ := Option.isSome_iff_exists.mp arrived
      exact .step ⟨next, lossless⟩ ((exact.step apart lossless next).prints here waiting first')

/-- The server replies when it has replied to those before. -/
theorem Exact.turns (apart : ¬ others server) (exact : s.Exact server others)
    (here : s.client a = some c) (waiting : c.waiting = true) (serving : s.server.isSome = true)
    (queued : ∃ d ∈ (s.net.socket server).queue, d.src = a) :
    ((echo server).restrict (Lossless server others)).Leads (Answered a c.sent) s := by
  induction queue : (s.net.socket server).queue generalizing s with
  | nil =>
      obtain ⟨d, member, -⟩ := queued
      rw [queue] at member
      cases member
  | cons e rest ih =>
      obtain ⟨v, there⟩ := Option.isSome_iff_exists.mp serving
      have first : s.net.peek server = some e := by
        rw [Net.peek, queue, List.head?_cons]
      obtain ⟨w, answers, -⟩ := exact.answers there first
      have next : s.step server .answer = _ := answers
      have lossless : s.Lossless server others .answer := ⟨trivial, trivial⟩
      have exact' := exact.step apart lossless next
      by_cases its : e.src = a
      · refine .step ⟨next, lossless⟩ (exact'.returns apart here waiting ?_)
        rw [Net.between_send, if_pos ⟨rfl, its⟩]
        simp
      · have left : (((s.net.receive server).send server e.src e.bytes).socket server).queue =
            rest := by
          show ((s.net.receive server).socket server).queue = rest
          rw [Net.receive, Net.setSocket_self, queue, List.tail_cons]
        refine .step ⟨next, lossless⟩ (ih exact' here rfl ?_ left)
        obtain ⟨d, member, mine⟩ := queued
        rw [queue] at member
        rw [left]
        rcases List.mem_cons.mp member with same | later
        · rw [same] at mine
          exact (its mine).elim
        · exact ⟨d, later, mine⟩

end

end Echo

section

variable {server : α} {others : α → Prop} {s : Echo α} {a : α} {c : EchoClient α}

/-- As long as nothing of the clients was lost, and the server runs, every client can still print the
    line it waits for, without loss. -/
theorem echo_answered (apart : ¬ others server)
    (reach : ((echo server).restrict (Echo.Lossless server others)).Reachable s)
    (serving : s.server.isSome = true) (here : s.client a = some c) (waiting : c.waiting = true) :
    ((echo server).restrict (Echo.Lossless server others)).Leads (Echo.Answered a c.sent) s := by
  have exact := Echo.Exact.of_reachable apart reach
  obtain ⟨away, mine, -, -, waits⟩ := exact.sound.client a c here
  by_cases back : s.net.between server a = []
  · have out : s.net.between a server ≠ [] := by
      intro none
      have under := exact.kept a away mine
      rw [Echo.pending, none, back, Echo.awaited, here, Option.elim_some] at under
      exact waits waiting (List.eq_nil_of_length_eq_zero (Nat.le_zero.mp under))
    by_cases queued : ∃ d ∈ (s.net.socket server).queue, d.src = a
    · exact exact.turns apart here waiting serving queued
    · have under : s.net.flight.filter (Datagram.joins a server) ≠ [] := by
        intro none
        apply out
        rw [Net.between, none]
        simpa using fun d member same => queued ⟨d, member, same⟩
      obtain ⟨i, d, there, rfl, source, -⟩ := Net.exists_inTurn under
      obtain ⟨v, running⟩ := Option.isSome_iff_exists.mp serving
      have takes : (s.net.socket d.dst).takes d = true := by
        rw [source]
        exact exact.takes (exact.serving v running).2 d
      have lossless : s.Lossless server others (.deliver i) := by
        refine ⟨trivial, fun e same _ => ?_⟩
        rw [there] at same
        cases same
        exact takes
      have next : s.step server (.deliver i) = .ok { s with net := s.net.deliver i } := rfl
      have arrived := (Net.deliver_taken there takes).1
      rw [source] at arrived
      refine .step ⟨next, lossless⟩
        ((exact.step apart lossless next).turns apart here waiting serving ⟨d, ?_, rfl⟩)
      rw [arrived]
      simp
  · exact exact.returns apart here waiting back

/-- Another program's line comes before the client's second. -/
theorem echo_answered_sample : ∃ (s : Echo Nat) (c : EchoClient Nat), s.client 1 = some c ∧
    c.shown = [[65]] ∧ c.sent = [[65], [66, 67]] ∧
      ((echo 0).restrict (Echo.Lossless 0 (· = 2))).Leads (Echo.Answered 1 c.sent) s := by
  have next : ∀ {s t : Echo Nat} (event : EchoEvent Nat),
      ((echo 0).restrict (Echo.Lossless 0 (· = 2))).Reachable s →
      s.Lossless 0 (· = 2) event → s.step 0 event = .ok t →
      ((echo 0).restrict (Echo.Lossless 0 (· = 2))).Reachable t :=
    fun _ reach lossless step => reach.step ⟨step, lossless⟩
  have zero : (Buf.replicate 512 0).bytes[511]? = some 0 := by
    rw [Buf.replicate, List.getElem?_replicate, if_pos (by decide)]
  have served := next (.serve (.replicate 512 0)) (.of_init rfl) ⟨trivial, zero⟩ rfl
  have begun := next (.start 1 (.replicate 512 0)) served ⟨show ¬ 1 = 2 by decide, trivial⟩ rfl
  have asked := next (.enter 1 (some [65])) begun ⟨trivial, trivial⟩ rfl
  have arrived := next (.deliver 0) asked
    ⟨trivial, fun d there _ => by cases there; rfl⟩ rfl
  have answered := next .answer arrived ⟨trivial, trivial⟩ rfl
  have back := next (.deliver 0) answered ⟨trivial, fun d there _ => by cases there; rfl⟩ rfl
  have printed := next (.receive 1) back ⟨trivial, trivial⟩ rfl
  have other := next (.foreign ⟨2, 0, [68, 69, 70]⟩) printed ⟨⟨rfl, .inl rfl⟩, by decide⟩ rfl
  have again := next (.enter 1 (some [66, 67])) other ⟨trivial, trivial⟩ rfl
  exact ⟨_, _, rfl, rfl, rfl, echo_answered (by decide) again rfl rfl rfl⟩

end

end SegmentTransfer
