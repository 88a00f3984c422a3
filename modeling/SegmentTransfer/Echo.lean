import SegmentTransfer.Library.Bytes
import SegmentTransfer.Library.Liveness
import SegmentTransfer.Library.Outcome
import SegmentTransfer.Library.Udp
import SegmentTransfer.Packet

/-! # The UDP client and server

`main` of the UDP server and of any number of its clients, one line at a time.
Both buffers have 512 bytes. A client clears its own before each reply and takes
whoever replies for the server from then on; the server prints what it receives
over what it received before. A client is known by the address that its socket
is given when it first sends; the server has every address of its host, of which
the model makes one. The calls succeed, and no program is stopped.
-/

namespace SegmentTransfer

open Bytes Outcome Udp

variable {α : Type} [DecidableEq α]

structure EchoServer where
  /-- What `buf` held at first. -/
  memory : Buf 512
  buf : Buf 512
  /-- What `recvfrom` returned, call after call. -/
  heard : List (List UInt8)
  /-- The lines printed after `Data: `. -/
  printed : List (List UInt8)

structure EchoClient (α : Type) where
  message : Buf 512
  siOther : α
  /-- In `recvfrom`. -/
  waiting : Bool
  sent : List (List UInt8)
  /-- What `puts` printed. -/
  shown : List (List UInt8)

/-- The network, the server if it runs, and the clients. -/
structure Echo (α : Type) where
  net : Net α
  server : Option EchoServer
  client : α → Option (EchoClient α)

inductive EchoEvent (α : Type) where
  /-- `main` of the server up to its loop. -/
  | serve (memory : Buf 512)
  /-- `main` of a client up to its loop. -/
  | start (a : α) (memory : Buf 512)
  /-- A client asks for a line and sends it; `gets` finds the end of the input or a line. -/
  | enter (a : α) (line : Option (List UInt8))
  /-- A client prints the reply. -/
  | receive (a : α)
  /-- A pass of the server. -/
  | answer
  /-- A datagram arrives. -/
  | deliver (i : Nat)
  /-- A datagram is lost. -/
  | lose (i : Nat)
  /-- Another program sends a datagram. -/
  | foreign (d : Datagram α)

/-- `gets`: without a line the array stays as it is. -/
def gets (message : Buf 512) : Option (List UInt8) → Except Fault (Buf 512)
  | none => .ok message
  | some line => orFail .bufferWrite (message.write? 0 (line ++ [0]))

namespace Echo

variable (server : α)

def closed : Echo α where
  net := .closed
  server := none
  client := fun _ => none

/-- A client and the network after something it did. -/
def put (s : Echo α) (a : α) (c : EchoClient α) (net : Net α) : Echo α :=
  { s with net, client := Function.update s.client a (some c) }

/-- A second server cannot bind its socket. -/
def serve (memory : Buf 512) (s : Echo α) : Echo α :=
  if (s.net.socket server).bound then s
  else { s with net := s.net.bind server, server := some ⟨memory, memory, [], []⟩ }

def start (a : α) (memory : Buf 512) (s : Echo α) : Echo α :=
  if a = server ∨ (s.net.socket a).bound ∨ (s.client a).isSome then s
  else
    s.put a { message := memory, siOther := server, waiting := false, sent := [], shown := [] } s.net

def enter (a : α) (line : Option (List UInt8)) (s : Echo α) : Except Fault (Echo α) :=
  match s.client a with
  | none => .ok s
  | some c =>
      if c.waiting then .ok s
      else do
        let message ← gets c.message line
        let text ← orFail .bufferRead (cString message.bytes)
        return s.put a { c with message, waiting := true, sent := c.sent ++ [text] }
          ((s.net.bind a).send a c.siOther text)

def receive (a : α) (s : Echo α) : Except Fault (Echo α) :=
  match s.client a, s.net.peek a with
  | some c, some d =>
      if c.waiting then do
        let buf := (Buf.replicate 512 0).fill d.bytes
        let text ← orFail .bufferRead (cString buf.bytes)
        return s.put a { c with siOther := d.src, waiting := false, shown := c.shown ++ [text] }
          (s.net.receive a)
      else .ok s
  | _, _ => .ok s

def answer (s : Echo α) : Except Fault (Echo α) :=
  match s.server, s.net.peek server with
  | some v, some d => do
      let recvLen := min d.bytes.length 512
      let buf := v.buf.fill d.bytes
      let text ← orFail .bufferRead (cString buf.bytes)
      let reply := buf.bytes.take recvLen
      return { s with
        net := (s.net.receive server).send server d.src reply
        server := some { v with buf, heard := v.heard ++ [reply], printed := v.printed ++ [text] } }
  | _, _ => .ok s

def step (s : Echo α) : EchoEvent α → Except Fault (Echo α)
  | .serve memory => .ok (s.serve server memory)
  | .start a memory => .ok (s.start server a memory)
  | .enter a line => s.enter a line
  | .receive a => s.receive a
  | .answer => s.answer server
  | .deliver i => .ok { s with net := s.net.deliver i }
  | .lose i => .ok { s with net := s.net.lose i }
  | .foreign d => .ok { s with net := s.net.send d.src d.dst d.bytes }

/-- Other programs have addresses of their own, and send nothing to the clients. -/
def Undisturbed (others : α → Prop) : EchoEvent α → Prop
  | .start a _ => ¬ others a
  | .foreign d => others d.src ∧ (d.dst = server ∨ others d.dst)
  | _ => True

end Echo

/-- A server and its clients that are started at any time. -/
def echo (server : α) : Transition (Echo α) (EchoEvent α) where
  init s := s = .closed
  step s event s' := s.step server event = .ok s'

/-! ## One line at a time -/

/-- What a client waits for. -/
def EchoClient.awaited (c : EchoClient α) : List (List UInt8) :=
  if c.waiting then (cString c.message.bytes).toList else []

omit [DecidableEq α] in
theorem EchoClient.awaited_fits (c : EchoClient α) {m : List UInt8} (waits : m ∈ c.awaited) :
    0 ∉ m ∧ m.length < 512 := by
  unfold EchoClient.awaited at waits
  split at waits
  · exact Buf.cString_fits (Option.mem_toList.mp waits)
  · cases waits

omit [DecidableEq α] in
theorem EchoClient.awaited_idle {c : EchoClient α} (idle : c.waiting = false) : c.awaited = [] := by
  rw [EchoClient.awaited, idle]
  rfl

omit [DecidableEq α] in
theorem EchoClient.awaited_eq (c : EchoClient α) :
    c.awaited = [] ∨ ∃ m, c.waiting = true ∧ c.awaited = [m] ∧ cString c.message.bytes = some m := by
  unfold EchoClient.awaited
  cases waits : c.waiting with
  | false => exact .inl rfl
  | true =>
      cases found : cString c.message.bytes with
      | none => exact .inl rfl
      | some m => exact .inr ⟨m, rfl, rfl, rfl⟩

namespace Echo

section

variable {server : α} {others : α → Prop} {s s' : Echo α} {a b : α} {c : EchoClient α}

/-- What is under way between a client and the server. -/
def pending (server : α) (s : Echo α) (a : α) : List (List UInt8) :=
  s.net.between a server ++ s.net.between server a

def awaited (s : Echo α) (a : α) : List (List UInt8) := (s.client a).elim [] EchoClient.awaited

/-- A client has one datagram under way at most, and hears of the server only. -/
structure Sound (server : α) (others : α → Prop) (s : Echo α) : Prop where
  client : ∀ a c, s.client a = some c → a ≠ server ∧ ¬ others a ∧ c.siOther = server ∧
    c.sent = c.shown ++ c.awaited ∧ (c.waiting = true → c.awaited ≠ [])
  strangers : ∀ x a, x ≠ server → a ≠ server → ¬ others a → s.net.between x a = []
  pending : ∀ a, a ≠ server → ¬ others a → (s.pending server a).Subperm (s.awaited a)

theorem Sound.closed (server : α) (others : α → Prop) : (closed : Echo α).Sound server others where
  client := fun _ _ there => by cases there
  strangers := fun _ _ _ _ _ => rfl
  pending := fun _ _ _ => .refl _

@[simp] theorem put_client (s : Echo α) (a : α) (c : EchoClient α) (net : Net α) :
    (s.put a c net).client a = some c := Function.update_self ..

theorem put_client_ne (s : Echo α) (c : EchoClient α) (net : Net α) (other : b ≠ a) :
    (s.put a c net).client b = s.client b := Function.update_of_ne other ..

theorem Sound.net (sound : s.Sound server others) {net : Net α} {v : Option EchoServer}
    (strangers : ∀ x a, x ≠ server → a ≠ server → ¬ others a →
      (net.between x a).Subperm (s.net.between x a))
    (pending : ∀ a, a ≠ server → ¬ others a →
      (net.between a server ++ net.between server a).Subperm (s.pending server a)) :
    Sound server others { s with net, server := v } where
  client := sound.client
  strangers := fun x a away apart mine => by
    have less := strangers x a away apart mine
    rwa [sound.strangers x a away apart mine, List.subperm_nil] at less
  pending := fun a apart mine => (pending a apart mine).trans (sound.pending a apart mine)

/-- What a client does, and what that changes between it and the server. -/
theorem Sound.put (sound : s.Sound server others) {net : Net α} (apart : a ≠ server)
    (mine : ¬ others a) (other : c.siOther = server) (sent : c.sent = c.shown ++ c.awaited)
    (waits : c.waiting = true → c.awaited ≠ [])
    (strangers : ∀ x b, x ≠ server → b ≠ server → ¬ others b → net.between x b = s.net.between x b)
    (pending : ∀ b, b ≠ a → net.between b server = s.net.between b server ∧
      net.between server b = s.net.between server b)
    (own : (net.between a server ++ net.between server a).Subperm c.awaited) :
    (s.put a c net).Sound server others where
  client := by
    intro b d there
    by_cases here : b = a
    · subst here
      rw [put_client] at there
      cases there
      exact ⟨apart, mine, other, sent, waits⟩
    · rw [put_client_ne s c net here] at there
      exact sound.client b d there
  strangers := fun x b away apart mine =>
    (strangers x b away apart mine).trans (sound.strangers x b away apart mine)
  pending := by
    intro b apart mine
    by_cases here : b = a
    · subst here
      rw [awaited, put_client]
      exact own
    · obtain ⟨there, back⟩ := pending b here
      have same := sound.pending b apart mine
      rw [awaited, put_client_ne s c net here, Echo.pending]
      rw [awaited, Echo.pending, ← there, ← back] at same
      exact same

theorem Sound.start (sound : s.Sound server others) (mine : ¬ others a) (memory : Buf 512) :
    (s.start server a memory).Sound server others := by
  unfold Echo.start
  split
  · exact sound
  · rename_i free
    simp only [not_or] at free
    obtain ⟨apart, -, new⟩ := free
    have none : s.client a = none := Option.not_isSome_iff_eq_none.mp new
    have nothing := sound.pending a apart mine
    rw [awaited, none] at nothing
    exact sound.put apart mine rfl rfl (fun waits => by cases waits) (fun _ _ _ _ _ => rfl)
      (fun _ _ => ⟨rfl, rfl⟩) nothing

/-- A client that waits for nothing sends its line. -/
theorem Sound.enter (sound : s.Sound server others) {line : Option (List UInt8)}
    (next : s.enter a line = .ok s') : s'.Sound server others := by
  unfold Echo.enter at next
  split at next
  · cases next
    exact sound
  · rename_i c here
    split at next
    · cases next
      exact sound
    · rename_i idle
      obtain ⟨message, -, next⟩ := bind_eq_ok.mp next
      obtain ⟨text, found, next⟩ := bind_eq_ok.mp next
      cases next
      have found := orFail_eq_ok.mp found
      obtain ⟨apart, mine, other, sent, -⟩ := sound.client a c here
      have nothing : s.pending server a = [] := by
        have none := sound.pending a apart mine
        rwa [awaited, here, Option.elim_some, EchoClient.awaited, if_neg idle,
          List.subperm_nil] at none
      have shown : c.sent = c.shown := by
        rwa [EchoClient.awaited, if_neg idle, List.append_nil] at sent
      obtain ⟨there, back⟩ := List.append_eq_nil_iff.mp nothing
      have waits : ∀ sent, EchoClient.awaited { c with message, waiting := true, sent } = [text] := by
        intro sent
        simp only [EchoClient.awaited, if_true, found, Option.toList_some]
      refine sound.put apart mine other ?_ (fun _ => ?_) ?_ ?_ ?_
      · simp only [waits, shown]
      · rw [waits]
        exact List.cons_ne_nil _ _
      · intro x b _ apart' _
        have away : ¬ (a = x ∧ c.siOther = b) := fun both => apart' (both.2.symm.trans other)
        rw [Net.between_send, if_neg away, List.append_nil, Net.between_bind]
      · intro b away
        have out : ¬ (a = b ∧ c.siOther = server) := fun both => away both.1.symm
        have in_ : ¬ (a = server ∧ c.siOther = b) := fun both => apart both.1
        simp only [Net.between_send, if_neg out, if_neg in_, List.append_nil, Net.between_bind,
          and_self]
      · have in_ : ¬ (a = server ∧ c.siOther = a) := fun both => apart both.1
        rw [waits, Net.between_send, if_pos ⟨rfl, other⟩, Net.between_send, if_neg in_,
          Net.between_bind, Net.between_bind, there, back]
        exact .refl [text]

theorem subperm_singleton {β : Type} {l : List β} {m : β} (h : l.Subperm [m]) :
    l = [] ∨ l = [m] := by
  obtain ⟨l', same, sub⟩ := h
  rcases List.sublist_singleton.mp sub with rfl | rfl
  · exact .inl (List.Perm.nil_eq same).symm
  · exact .inr (List.perm_singleton.mp same.symm)

theorem Sound.peek (sound : s.Sound server others) (here : s.client a = some c) {d : Datagram α}
    (first : s.net.peek a = some d) :
    d.src = server ∧ c.awaited = [d.bytes] ∧ s.net.between a server = [] ∧
      (s.net.receive a).between server a = [] := by
  obtain ⟨apart, mine, -⟩ := sound.client a c here
  have source : d.src = server := by
    by_contra away
    have nothing := sound.strangers d.src a away apart mine
    rw [Net.between_receive first] at nothing
    cases nothing
  have between := Net.between_receive first
  rw [source] at between
  have under := sound.pending a apart mine
  rw [Echo.pending, between, awaited, here, Option.elim_some] at under
  obtain nothing | ⟨m, -, waits, -⟩ := c.awaited_eq
  · rw [nothing, List.subperm_nil] at under
    simp at under
  · rw [waits] at under
    rcases subperm_singleton under with none | one
    · simp at none
    · have alone : s.net.between a server = [] ∧ d.bytes = m ∧
          (s.net.receive a).between server a = [] := by
        cases there : s.net.between a server with
        | nil => simpa [there] using one
        | cons x rest => simp [there] at one
      exact ⟨source, by rw [waits, alone.2.1], alone.1, alone.2.2⟩

theorem cString_line {m : List UInt8} (none : 0 ∉ m) (fits : m.length < 512) :
    cString ((Buf.replicate 512 0).fill m).bytes = some m := by
  rw [Buf.cString_fill _ none (Nat.le_of_lt fits)]
  rw [Buf.replicate, List.getElem?_replicate, if_pos fits]

/-- A reply is the line that was sent. -/
theorem Sound.receive (sound : s.Sound server others) (next : s.receive a = .ok s') :
    s'.Sound server others := by
  unfold Echo.receive at next
  split at next
  · rename_i c d here first
    split at next
    · obtain ⟨text, found, next⟩ := bind_eq_ok.mp next
      cases next
      have found := orFail_eq_ok.mp found
      obtain ⟨source, waits, out, back⟩ := sound.peek here first
      obtain ⟨apart, mine, -, sent, -⟩ := sound.client a c here
      obtain ⟨none, fits⟩ := c.awaited_fits (by rw [waits]; exact .head _)
      rw [cString_line none fits] at found
      cases found
      refine sound.put apart mine source ?_ (fun waits => by cases waits) ?_ ?_ ?_
      · rw [EchoClient.awaited_idle rfl, List.append_nil]
        exact sent.trans (by rw [waits])
      · intro x b away apart' _
        by_cases both : x = d.src ∧ b = a
        · exact (away (both.1.trans source)).elim
        · exact Net.between_receive_ne first both
      · intro b away
        have out : ¬ (b = d.src ∧ server = a) := fun both => apart both.2.symm
        have in_ : ¬ (server = d.src ∧ b = a) := fun both => away both.2
        exact ⟨Net.between_receive_ne first out, Net.between_receive_ne first in_⟩
      · have away : ¬ (a = d.src ∧ server = a) := fun both => apart both.2.symm
        rw [Net.between_receive_ne first away, out, back, EchoClient.awaited_idle rfl]
        exact .refl _
    · cases next
      exact sound
  · cases next
    exact sound

theorem reply_eq (buf : Buf 512) (d : List UInt8) :
    (buf.fill d).bytes.take (min d.length 512) = d.take 512 := by
  rw [Buf.fill, List.take_left' (by rw [List.length_take, Nat.min_comm])]

/-- The server turns a datagram around. -/
theorem Sound.answer (sound : s.Sound server others) (next : s.answer server = .ok s') :
    s'.Sound server others := by
  unfold Echo.answer at next
  split at next
  · rename_i v d here first
    obtain ⟨text, -, next⟩ := bind_eq_ok.mp next
    cases next
    rw [reply_eq]
    refine sound.net ?_ ?_
    · intro x b away apart _
      have out : ¬ (x = d.src ∧ b = server) := fun both => apart both.2
      have in_ : ¬ (server = x ∧ d.src = b) := fun both => away both.1.symm
      rw [Net.between_send, if_neg in_, List.append_nil, Net.between_receive_ne first out]
    · intro b apart mine
      have in_ : ¬ (server = b ∧ d.src = server) := fun both => apart both.1.symm
      have back : ¬ (server = d.src ∧ b = server) := fun both => apart both.2
      rw [Net.between_send, if_neg in_, List.append_nil, Net.between_send,
        Net.between_receive_ne first back]
      by_cases its : d.src = b
      · subst its
        have turned := Net.between_receive first
        have whole : d.bytes.take 512 = d.bytes := by
          have waits : d.bytes ∈ s.awaited d.src := by
            apply (sound.pending d.src apart mine).subset
            rw [Echo.pending, turned]
            exact .head _
          rw [awaited] at waits
          cases there : s.client d.src with
          | none =>
              rw [there] at waits
              cases waits
          | some c =>
              rw [there] at waits
              exact List.take_of_length_le (Nat.le_of_lt (c.awaited_fits waits).2)
        rw [Echo.pending, turned, whole, if_pos ⟨rfl, rfl⟩]
        apply List.Perm.subperm
        rw [← List.append_assoc]
        exact List.perm_append_singleton _ _
      · have away : ¬ (b = d.src ∧ server = server) := fun both => its both.1.symm
        have elsewhere : ¬ (server = server ∧ d.src = b) := fun both => its both.2
        rw [Net.between_receive_ne first away, if_neg elsewhere, List.append_nil, Echo.pending]
  · cases next
    exact sound

theorem Sound.step (apart : ¬ others server) (sound : s.Sound server others) {event : EchoEvent α}
    (undisturbed : Undisturbed server others event) (next : s.step server event = .ok s') :
    s'.Sound server others := by
  cases event with
  | serve memory =>
      cases next
      unfold Echo.serve
      split
      · exact sound
      · apply sound.net
        · intro x b _ _ _
          rw [Net.between_bind]
        · intro b _ _
          rw [Net.between_bind, Net.between_bind, Echo.pending]
  | start a memory =>
      cases next
      exact sound.start undisturbed memory
  | enter a line => exact sound.enter next
  | receive a => exact sound.receive next
  | answer => exact sound.answer next
  | deliver i =>
      cases next
      exact sound.net (fun x b _ _ _ => s.net.between_deliver_subperm i x b) fun b _ _ =>
        (s.net.between_deliver_subperm i b server).append
          (s.net.between_deliver_subperm i server b)
  | lose i =>
      cases next
      have less := s.net.between_lose_subperm i
      exact sound.net (fun x b _ _ _ => less x b) fun b _ _ => (less b server).append (less server b)
  | foreign d =>
      cases next
      obtain ⟨source, target⟩ := undisturbed
      have kept : ∀ x y, ¬ (d.src = x ∧ d.dst = y) →
          (s.net.send d.src d.dst d.bytes).between x y = s.net.between x y := by
        intro x y away
        rw [Net.between_send, if_neg away, List.append_nil]
      apply sound.net
      · intro x b _ apart' mine
        rw [kept x b]
        rintro ⟨-, rfl⟩
        exact target.elim apart' mine
      · intro b _ mine
        rw [kept b server, kept server b, Echo.pending]
        · rintro ⟨rfl, -⟩
          exact apart source
        · rintro ⟨rfl, -⟩
          exact mine source

theorem Sound.of_reachable (apart : ¬ others server)
    (reach : ((echo server).restrict fun _ event => Undisturbed server others event).Reachable s) :
    s.Sound server others := by
  apply reach.induct
  · rintro s rfl
    exact .closed server others
  · intro s event s' sound next
    exact sound.step apart next.2 next.1

end

end Echo

end SegmentTransfer
