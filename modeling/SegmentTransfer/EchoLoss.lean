import SegmentTransfer.Echo

/-! # A lost line

Clients of the UDP server while datagrams are lost: they print what they sent,
one line behind, and the first line that is lost is the last.
-/

namespace SegmentTransfer

open Bytes Outcome Udp

variable {α : Type} [DecidableEq α]

namespace Echo

/-- A client waits for a reply, and neither its line nor the reply is under way. -/
structure Stuck (server a : α) (c : EchoClient α) (s : Echo α) : Prop where
  here : s.client a = some c
  waiting : c.waiting = true
  gone : s.pending server a = []

section

variable {server : α} {others : α → Prop} {s s' : Echo α} {a b : α} {c : EchoClient α}

/-- The network brings nothing back. -/
theorem Stuck.net (stuck : s.Stuck server a c) {net : Net α} {v : Option EchoServer}
    (less : ∀ x y, (net.between x y).Subperm (s.net.between x y)) :
    Stuck server a c { s with net, server := v } where
  here := stuck.here
  waiting := stuck.waiting
  gone := by
    have none := (less a server).append (less server a)
    rwa [← Echo.pending, stuck.gone, List.subperm_nil] at none

/-- Nor does another client. -/
theorem Stuck.put (stuck : s.Stuck server a c) {e : EchoClient α} {net : Net α} (other : a ≠ b)
    (out : net.between a server = s.net.between a server)
    (back : net.between server a = s.net.between server a) :
    (s.put b e net).Stuck server a c where
  here := (put_client_ne s e net other).trans stuck.here
  waiting := stuck.waiting
  gone := by
    rw [Echo.pending, Echo.put, out, back]
    exact stuck.gone

theorem Stuck.start (stuck : s.Stuck server a c) (b : α) (memory : Buf 512) :
    (s.start server b memory).Stuck server a c := by
  unfold Echo.start
  split
  · exact stuck
  · rename_i free
    have other : a ≠ b := by
      rintro rfl
      simp [stuck.here] at free
    exact stuck.put other rfl rfl

theorem Stuck.enter (stuck : s.Stuck server a c) (sound : s.Sound server others)
    {line : Option (List UInt8)} (next : s.enter b line = .ok s') : s'.Stuck server a c := by
  unfold Echo.enter at next
  split at next
  · cases next
    exact stuck
  · rename_i e there
    split at next
    · cases next
      exact stuck
    · rename_i idle
      obtain ⟨message, -, next⟩ := bind_eq_ok.mp next
      obtain ⟨text, -, next⟩ := bind_eq_ok.mp next
      cases next
      have other : a ≠ b := by
        rintro rfl
        rw [stuck.here] at there
        cases there
        exact idle stuck.waiting
      have apart : b ≠ server := (sound.client b e there).1
      have out : ¬ (b = a ∧ e.siOther = server) := fun both => other both.1.symm
      have back : ¬ (b = server ∧ e.siOther = a) := fun both => apart both.1
      apply stuck.put other
      · rw [Net.between_send, if_neg out, List.append_nil, Net.between_bind]
      · rw [Net.between_send, if_neg back, List.append_nil, Net.between_bind]

theorem Stuck.receive (stuck : s.Stuck server a c) (sound : s.Sound server others)
    (next : s.receive b = .ok s') : s'.Stuck server a c := by
  obtain ⟨-, back⟩ := List.append_eq_nil_iff.mp stuck.gone
  unfold Echo.receive at next
  split at next
  · rename_i e d there first
    split at next
    · obtain ⟨text, -, next⟩ := bind_eq_ok.mp next
      cases next
      have other : a ≠ b := by
        -- what is queued at a client is the server's reply
        rintro rfl
        obtain ⟨source, -⟩ := sound.peek there first
        have some := Net.between_receive first
        rw [source, back] at some
        cases some
      apply stuck.put other
      · rw [Net.between_receive_ne first]
        exact fun both => (sound.client b e there).1 both.2.symm
      · rw [Net.between_receive_ne first]
        exact fun both => other both.2
    · cases next
      exact stuck
  · cases next
    exact stuck

theorem Stuck.answer (stuck : s.Stuck server a c) (away : a ≠ server)
    (next : s.answer server = .ok s') : s'.Stuck server a c := by
  obtain ⟨out, -⟩ := List.append_eq_nil_iff.mp stuck.gone
  unfold Echo.answer at next
  split at next
  · rename_i v d there first
    obtain ⟨text, -, next⟩ := bind_eq_ok.mp next
    cases next
    have other : d.src ≠ a := by
      rintro rfl
      have some := Net.between_receive first
      rw [out] at some
      cases some
    have less : ∀ x y, ((s.net.receive server).between x y).Subperm (s.net.between x y) :=
      fun x y => (Net.between_receive_sublist s.net x y server).subperm
    have kept := (stuck.net (v := s.server) less).gone
    refine { here := stuck.here, waiting := stuck.waiting, gone := ?_ }
    rw [Echo.pending, Net.between_send, if_neg fun both => away both.1.symm, Net.between_send,
      if_neg fun both => other both.2, List.append_nil, List.append_nil]
    exact kept
  · cases next
    exact stuck

/-- Other programs send nothing in the name of the server or of a client. -/
theorem Stuck.foreign (stuck : s.Stuck server a c) (apart : ¬ others server) (mine : ¬ others a)
    {d : Datagram α} (source : others d.src) :
    Stuck server a c { s with net := s.net.send d.src d.dst d.bytes } where
  here := stuck.here
  waiting := stuck.waiting
  gone := by
    have out : ¬ (d.src = a ∧ d.dst = server) := fun both => mine (both.1 ▸ source)
    have back : ¬ (d.src = server ∧ d.dst = a) := fun both => apart (both.1 ▸ source)
    rw [Echo.pending, Net.between_send, if_neg out, Net.between_send, if_neg back,
      List.append_nil, List.append_nil]
    exact stuck.gone

/-- Once the datagram of a client is lost, no step of anybody changes that. -/
theorem Stuck.step (stuck : s.Stuck server a c) (apart : ¬ others server)
    (sound : s.Sound server others) {event : EchoEvent α}
    (undisturbed : Undisturbed server others event) (next : s.step server event = .ok s') :
    s'.Stuck server a c := by
  obtain ⟨away, mine, -⟩ := sound.client a c stuck.here
  cases event with
  | serve memory =>
      cases next
      unfold Echo.serve
      split
      · exact stuck
      · exact stuck.net fun x y => by rw [Net.between_bind]
  | start b memory =>
      cases next
      exact stuck.start b memory
  | enter b line => exact stuck.enter sound next
  | receive b => exact stuck.receive sound next
  | answer => exact stuck.answer away next
  | deliver i =>
      cases next
      exact stuck.net (s.net.between_deliver_subperm i)
  | lose i =>
      cases next
      exact stuck.net (s.net.between_lose_subperm i)
  | foreign d =>
      cases next
      exact stuck.foreign apart mine undisturbed.1

end

end Echo

theorem line_lost : ∃ (s : Echo Nat) (c : EchoClient Nat),
    ((echo 0).restrict fun _ event => Echo.Undisturbed 0 (fun _ => False) event).Reachable s ∧
      s.client 1 = some c ∧ c.waiting = true ∧ s.pending 0 1 = [] ∧
      c.sent = [[65], [66, 67]] ∧ c.shown = [[65]] := by
  have next : ∀ {s t : Echo Nat} (event : EchoEvent Nat),
      ((echo 0).restrict fun _ event => Echo.Undisturbed 0 (fun _ => False) event).Reachable s →
      Echo.Undisturbed 0 (fun _ => False) event → s.step 0 event = .ok t →
      ((echo 0).restrict fun _ event => Echo.Undisturbed 0 (fun _ => False) event).Reachable t :=
    fun _ reach calm step => reach.step ⟨step, calm⟩
  have served := next (.serve (.replicate 512 0)) (.of_init rfl) trivial rfl
  have begun := next (.start 1 (.replicate 512 0)) served id rfl
  have asked := next (.enter 1 (some [65])) begun trivial rfl
  have arrived := next (.deliver 0) asked trivial rfl
  have answered := next .answer arrived trivial rfl
  have back := next (.deliver 0) answered trivial rfl
  have printed := next (.receive 1) back trivial rfl
  have again := next (.enter 1 (some [66, 67])) printed trivial rfl
  have lost := next (.lose 0) again trivial rfl
  exact ⟨_, _, lost, rfl, rfl, rfl, rfl, rfl⟩

section

variable {server : α} {others : α → Prop} {s : Echo α} {a : α} {c : EchoClient α}

/-- Whatever is lost or overtaken, and whatever other programs send to the server: a client has
    printed the lines it sent, in their order, but for the one it waits for, and of that one datagram
    is under way at most, to the server or back. -/
theorem echo_in_step (apart : ¬ others server)
    (reach : ((echo server).restrict fun _ event =>
      Echo.Undisturbed server others event).Reachable s)
    (here : s.client a = some c) :
    (c.waiting = false → c.sent = c.shown ∧ s.pending server a = []) ∧
      (c.waiting = true → ∃ m, c.sent = c.shown ++ [m] ∧
        (s.pending server a = [] ∨ s.pending server a = [m])) := by
  have sound := Echo.Sound.of_reachable apart reach
  obtain ⟨away, mine, -, sent, waits⟩ := sound.client a c here
  have under := sound.pending a away mine
  rw [Echo.awaited, here, Option.elim_some] at under
  constructor
  · intro idle
    rw [EchoClient.awaited_idle idle] at sent under
    exact ⟨by rw [sent, List.append_nil], List.subperm_nil.mp under⟩
  · intro waiting
    obtain nothing | ⟨m, -, is, -⟩ := c.awaited_eq
    · exact (waits waiting nothing).elim
    · rw [is] at sent under
      exact ⟨m, sent, Echo.subperm_singleton under⟩

/-- The client that lost its second line has printed the first. -/
theorem echo_in_step_sample : ∃ (s : Echo Nat) (c : EchoClient Nat), s.client 1 = some c ∧
    c.shown = [[65]] ∧ ∃ m, c.sent = c.shown ++ [m] ∧
      (s.pending 0 1 = [] ∨ s.pending 0 1 = [m]) := by
  obtain ⟨s, c, reach, here, waiting, -, -, shown⟩ := line_lost
  exact ⟨s, c, here, shown, (echo_in_step id reach here).2 waiting⟩

/-- A client whose datagram was lost waits for ever. -/
theorem echo_stuck (apart : ¬ others server)
    (reach : ((echo server).restrict fun _ event =>
      Echo.Undisturbed server others event).Reachable s)
    (here : s.client a = some c) (waiting : c.waiting = true) (gone : s.pending server a = [])
    {events : List (EchoEvent α)} {t : Echo α}
    (run : ((echo server).restrict fun _ event =>
      Echo.Undisturbed server others event).Run s events t) :
    t.client a = some c := by
  have stuck : s.Stuck server a c := { here, waiting, gone }
  refine (run.preserves (P := fun t : Echo α => t.Sound server others ∧ t.Stuck server a c)
    (fun s event t kept next => ?_) ⟨.of_reachable apart reach, stuck⟩).2.here
  obtain ⟨sound, stuck⟩ := kept
  exact ⟨sound.step apart next.2 next.1, stuck.step apart sound next.2 next.1⟩

/-- The client that lost its second line never prints it. -/
theorem echo_stuck_sample : ∃ (s : Echo Nat) (c : EchoClient Nat), s.client 1 = some c ∧
    c.shown = [[65]] ∧ ∀ events t, ((echo 0).restrict fun _ event =>
      Echo.Undisturbed 0 (fun _ => False) event).Run s events t → t.client 1 = some c := by
  obtain ⟨s, c, reach, here, waiting, gone, -, shown⟩ := line_lost
  exact ⟨s, c, here, shown, fun events t run => echo_stuck id reach here waiting gone run⟩

end

end SegmentTransfer
