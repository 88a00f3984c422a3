import SegmentTransfer.Library.Transition
import SegmentTransfer.Sockets

/-! # The chat

`main` of the chat and its `read_write_loop`, for any number of programs on one
network. A program is known by the address of its socket; one whose port is not
positive has none, and neither sends nor reads anything. Writing to the socket
and to the standard output succeeds. The loop is left when `feof(stdin)`, but
`read` on the descriptor does not set that flag.
-/

namespace SegmentTransfer

open Udp

variable {ι : Type} [DecidableEq ι]

structure Chat (ι : Type) where
  /-- Still in `wait_for_client`. -/
  waiting : Bool
  /-- `feof(stdin)`. -/
  feof : Bool
  /-- `end`. -/
  ended : Bool
  /-- What `read` on the standard input returned, read after read. -/
  typed : List (List UInt8)
  /-- What was written to the standard output, with its source, which the program does not know. -/
  shown : List (Datagram (Address ι))

/-- All the programs that run, and their sockets. -/
structure Chats (ι : Type) where
  net : Net (Address ι)
  program : Address ι → Option (Chat ι)

inductive ChatEvent (ι : Type) where
  /-- `main`, as far as the socket is created. -/
  | start (client : Bool) (host : String) (port : Int) (calls : SocketCalls ι)
  /-- `wait_for_client`, whose calls succeed or not. -/
  | accept (a : Address ι) (recvfrom connect : Bool)
  /-- A pass of `read_write_loop`: what is read of the standard input, nothing if `select` does not
      report it, the read fails or the input ends, and whether `select` reports the socket. -/
  | pass (a : Address ι) (input : List UInt8) (listens : Bool)
  /-- A datagram arrives. -/
  | deliver (i : Nat)
  /-- A datagram is lost. -/
  | lose (i : Nat)

namespace Chat

/-- Before `read_write_loop`; only a server waits for a client. -/
def start (client : Bool) : Chat ι :=
  { waiting := !client, feof := false, ended := false, typed := [], shown := [] }

/-- `if(FD_ISSET(STDIN, &readfds))`. -/
def readStdin (a : Address ι) (input : List UInt8) (c : Chat ι) (n : Net (Address ι)) :
    Chat ι × Net (Address ι) :=
  let buf1 := input.take 1024
  if buf1 = [] then (c, n)
  else
    ({ c with typed := c.typed ++ [buf1] },
      match (n.socket a).peer with
      | none => n
      | some peer => n.send a peer buf1)

/-- `if(FD_ISSET(sfd, &readfds))`. -/
def readSocket (a : Address ι) (listens : Bool) (c : Chat ι) (n : Net (Address ι)) :
    Chat ι × Net (Address ι) :=
  match if listens then n.peek a else none with
  | none => (c, n)
  | some d =>
      let buf2 := d.bytes.take 1024
      (if buf2 = [] then c else { c with shown := c.shown ++ [{ d with bytes := buf2 }] },
        n.receive a)

end Chat

namespace Chats

def closed : Chats ι where
  net := .closed
  program := fun _ => none

/-- The program at an address and the network after something it did. -/
def put (s : Chats ι) (a : Address ι) (after : Chat ι × Net (Address ι)) : Chats ι where
  net := after.2
  program := Function.update s.program a (some after.1)

/-- The program ends. -/
def exit (s : Chats ι) (a : Address ι) : Chats ι where
  net := s.net.close a
  program := Function.update s.program a none

/-- `main`, as far as the socket is created. -/
def start (getaddrinfo : String → Option ι) (client : Bool) (host : String) (port : Int)
    (calls : SocketCalls ι) (s : Chats ι) : Chats ι :=
  match realAddress getaddrinfo host with
  | none => s
  | some addr =>
      let sfd :=
        if client then createSocket calls none (-1) (some addr) port s.net
        else createSocket calls (some addr) port none (-1) s.net
      match sfd with
      | some (some a, net) => s.put a (.start client, net)
      | _ => s

/-- `wait_for_client`: without a datagram the program keeps waiting. -/
def accept (a : Address ι) (recvfrom connect : Bool) (s : Chats ι) : Chats ι :=
  match s.program a with
  | none => s
  | some c =>
      if c.waiting then
        match waitForClient recvfrom connect a s.net with
        | none => s
        | some (true, net) => s.put a ({ c with waiting := false }, net)
        | some (false, _) => s.exit a
      else s

/-- A pass of `read_write_loop`, or its end. -/
def pass (a : Address ι) (input : List UInt8) (listens : Bool) (s : Chats ι) : Chats ι :=
  match s.program a with
  | none => s
  | some c =>
      if c.waiting then s
      else if c.ended then s.exit a
      else
        let (c, net) := c.readStdin a input s.net
        let (c, net) := c.readSocket a listens net
        s.put a ({ c with ended := c.feof }, net)

def step (getaddrinfo : String → Option ι) (s : Chats ι) : ChatEvent ι → Chats ι
  | .start client host port calls => s.start getaddrinfo client host port calls
  | .accept a recvfrom connect => s.accept a recvfrom connect
  | .pass a input listens => s.pass a input listens
  | .deliver i => { s with net := s.net.deliver i }
  | .lose i => { s with net := s.net.lose i }

/-- Datagrams between two addresses arrive in the order in which they were sent. -/
def InOrder (s : Chats ι) : ChatEvent ι → Prop
  | .deliver i => s.net.InTurn i
  | _ => True

/-- Besides, none is lost: not under way, not at a socket that does not take it, and not with a
    socket that is closed. -/
def Lossless (s : Chats ι) : ChatEvent ι → Prop
  | .deliver i => s.net.InTurn i ∧
      ∀ d, s.net.flight[i]? = some d → (s.net.socket d.dst).takes d = true
  | .lose _ => False
  | .accept _ recvfrom connect => recvfrom = true ∧ connect = true
  | _ => True

end Chats

/-- Any number of programs that are started at any time. -/
def chats (getaddrinfo : String → Option ι) : Transition (Chats ι) (ChatEvent ι) where
  init s := s = .closed
  step s event s' := s' = s.step getaddrinfo event

/-! ## From one program to another -/

namespace Chats

/-- What the program at `b` wrote of the datagrams of `a`. -/
def shownAt (s : Chats ι) (b a : Address ι) : List (List UInt8) :=
  (((s.program b).elim [] Chat.shown).filter (·.src == a)).map Datagram.bytes

/-- What was sent from `a` to `b` and is written there, queued or under way. -/
def relayed (s : Chats ι) (a b : Address ι) : List (List UInt8) :=
  s.shownAt b a ++ s.net.between a b

/-- What the program at `a` read of its standard input, if it is connected to `b`. -/
def outgoing (s : Chats ι) (a b : Address ι) : List (List UInt8) :=
  if (s.net.socket a).peer = some b then (s.program a).elim [] Chat.typed else []

/-- The program at `b` reads what that at `a` sends. -/
structure Joined (s : Chats ι) (a b : Address ι) : Prop where
  reads : ∃ c, s.program b = some c ∧ c.waiting = false
  peer : (s.net.socket b).peer = some a

/-- Whatever was added on the way from one address to another was read there. -/
def Flows (s s' : Chats ι) : Prop :=
  ∀ a b, ∃ new, s'.relayed a b = s.relayed a b ++ new ∧ s'.outgoing a b = s.outgoing a b ++ new

/-- Nothing was added, and something may be lost. -/
def Drops (s s' : Chats ι) : Prop :=
  ∀ a b, (s'.relayed a b).Sublist (s.relayed a b) ∧ s'.outgoing a b = s.outgoing a b

/-- What the programs keep to. -/
structure Sound (s : Chats ι) : Prop where
  /-- Who waits has read nothing. -/
  waits : ∀ a c, s.program a = some c → c.waiting = true → c.typed = []
  /-- A datagram fits the buffer. -/
  fits : ∀ a b, ∀ bytes ∈ s.net.between a b, bytes ≠ [] ∧ bytes.length ≤ 1024
  /-- A program has a socket. -/
  bound : ∀ a c, s.program a = some c → (s.net.socket a).bound = true
  /-- Nothing ends the loop. -/
  stays : ∀ a c, s.program a = some c → c.feof = false ∧ c.ended = false

variable {s s' : Chats ι} {a b : Address ι} {c : Chat ι} {after : Chat ι × Net (Address ι)}

theorem Flows.refl (s : Chats ι) : s.Flows s := fun _ _ => ⟨[], by simp, by simp⟩

theorem Flows.trans {s'' : Chats ι} (h : s.Flows s') (next : s'.Flows s'') : s.Flows s'' := by
  intro a b
  obtain ⟨new, relayed, outgoing⟩ := h a b
  obtain ⟨new', relayed', outgoing'⟩ := next a b
  exact ⟨new ++ new', by rw [relayed', relayed, List.append_assoc],
    by rw [outgoing', outgoing, List.append_assoc]⟩

@[simp] theorem put_program (s : Chats ι) (a : Address ι) (after : Chat ι × Net (Address ι)) :
    (s.put a after).program a = some after.1 := Function.update_self ..

theorem put_program_ne (s : Chats ι) (after : Chat ι × Net (Address ι)) (other : b ≠ a) :
    (s.put a after).program b = s.program b := Function.update_of_ne other ..

@[simp] theorem put_net (s : Chats ι) (a : Address ι) (after : Chat ι × Net (Address ι)) :
    (s.put a after).net = after.2 := rfl

@[simp] theorem put_put (s : Chats ι) (a : Address ι) (first after : Chat ι × Net (Address ι)) :
    (s.put a first).put a after = s.put a after := by
  simp only [put, Function.update_idem]

theorem shownAt_ne (s : Chats ι) (after : Chat ι × Net (Address ι)) (other : b ≠ a)
    (x : Address ι) : (s.put a after).shownAt b x = s.shownAt b x := by
  simp only [shownAt, put_program_ne s after other]

theorem Flows.put (shown : after.1.shown = (s.program a).elim [] Chat.shown)
    (between : ∀ x y, after.2.between x y = s.net.between x y)
    (others : ∀ x, x ≠ a → (after.2.socket x).peer = (s.net.socket x).peer)
    (mine : ∀ y, (if (after.2.socket a).peer = some y then after.1.typed else []) = s.outgoing a y) :
    s.Flows (s.put a after) := by
  intro x y
  refine ⟨[], ?_, ?_⟩
  · rw [List.append_nil, relayed, relayed, put_net, between]
    by_cases here : y = a
    · subst here
      simp only [shownAt, put_program, Option.elim_some, shown]
    · rw [shownAt_ne s after here]
  · rw [List.append_nil]
    by_cases here : x = a
    · subst here
      simp only [outgoing, put_net, put_program, Option.elim_some]
      exact mine y
    · simp only [outgoing, put_net, put_program_ne s after here, others x here]

theorem Flows.still (here : s.program a = some c) : s.Flows (s.put a (c, s.net)) := by
  apply Flows.put
  · rw [here, Option.elim_some]
  · exact fun _ _ => rfl
  · exact fun _ _ => rfl
  · intro y
    rw [outgoing, here, Option.elim_some]

/-- What is typed is sent to the peer, if there is one. -/
theorem Flows.readStdin (here : s.program a = some c) (input : List UInt8) :
    s.Flows (s.put a (c.readStdin a input s.net)) := by
  by_cases empty : input.take 1024 = []
  · simp only [Chat.readStdin, empty, if_true]
    exact .still here
  simp only [Chat.readStdin, if_neg empty]
  intro x y
  cases peer : (s.net.socket a).peer with
  | none =>
      refine ⟨[], ?_, ?_⟩
      · simp only [relayed, put_net, List.append_nil]
        by_cases there : y = a
        · subst there
          simp only [shownAt, put_program, here, Option.elim_some]
        · rw [shownAt_ne s _ there]
      · by_cases there : x = a
        · subst there
          simp only [outgoing, put_net, peer, reduceCtorEq, if_false, List.append_nil]
        · simp only [outgoing, put_net, put_program_ne s _ there, List.append_nil]
  | some p =>
      refine ⟨if a = x ∧ p = y then [input.take 1024] else [], ?_, ?_⟩
      · simp only [relayed, put_net, Net.between_send, ← List.append_assoc]
        by_cases there : y = a
        · subst there
          simp only [shownAt, put_program, here, Option.elim_some]
        · rw [shownAt_ne s _ there]
      · by_cases there : x = a
        · subst there
          simp only [outgoing, put_net, put_program, here, Option.elim_some, Net.send, peer,
            Option.some.injEq, true_and]
          split
          · rfl
          · rfl
        · have away : ¬ (a = x ∧ p = y) := fun both => there both.1.symm
          simp only [outgoing, put_net, put_program_ne s _ there, Net.send, if_neg away,
            List.append_nil]

/-- A datagram that fits is written whole. -/
theorem Flows.readSocket (sound : s.Sound) (here : s.program a = some c) (listens : Bool) :
    s.Flows (s.put a (c.readSocket a listens s.net)) := by
  cases first : (if listens then s.net.peek a else none) with
  | none =>
      simp only [Chat.readSocket, first]
      exact .still here
  | some d =>
      have there : s.net.peek a = some d := by
        cases listens with
        | false => cases first
        | true => exact first
      have between := Net.between_receive there
      obtain ⟨nonempty, fits⟩ := sound.fits d.src a d.bytes (by rw [between]; exact .head _)
      have whole : d.bytes.take 1024 = d.bytes := List.take_of_length_le fits
      simp only [Chat.readSocket, first, whole, if_neg nonempty]
      intro x y
      refine ⟨[], ?_, ?_⟩
      · rw [List.append_nil, relayed, relayed, put_net]
        by_cases mine : y = a
        · subst mine
          by_cases source : x = d.src
          · subst source
            simp only [shownAt, put_program, here, Option.elim_some, between]
            simp
          · have elsewhere : (d.src == x) = false := beq_eq_false_iff_ne.mpr (Ne.symm source)
            rw [Net.between_receive_ne there (fun both => source both.1)]
            simp only [shownAt, put_program, here, Option.elim_some]
            simp [elsewhere]
        · rw [shownAt_ne s _ mine, Net.between_receive_ne there (fun both => mine both.2)]
      · rw [List.append_nil]
        by_cases mine : x = a
        · subst mine
          simp only [outgoing, put_net, put_program, here, Option.elim_some, Net.receive_peer]
        · simp only [outgoing, put_net, put_program_ne s _ mine, Net.receive_peer]

theorem Flows.start (sound : s.Sound) {client : Bool} {net : Net (Address ι)}
    (free : (s.net.socket a).bound = false)
    (opened : net = s.net.bind a ∨ ∃ peer, net = s.net.connect a peer) :
    s.Flows (s.put a (.start client, net)) := by
  have none : s.program a = none := by
    cases there : s.program a with
    | none => rfl
    | some c =>
        have bound := sound.bound a c there
        rw [free] at bound
        cases bound
  apply Flows.put
  · rw [none]
    rfl
  · intro x y
    rcases opened with rfl | ⟨peer, rfl⟩
    · exact Net.between_bind ..
    · exact Net.between_connect ..
  · intro x other
    rcases opened with rfl | ⟨peer, rfl⟩
    · rw [Net.bind, Net.setSocket_ne _ _ other]
    · rw [Net.connect, Net.setSocket_ne _ _ other]
  · intro y
    simp only [outgoing, none, Option.elim_none, Chat.start, ite_self]

theorem Flows.accept (sound : s.Sound) (here : s.program a = some c) (waiting : c.waiting = true)
    (peer : Address ι) :
    s.Flows (s.put a ({ c with waiting := false }, s.net.connect a peer)) := by
  have nothing := sound.waits a c here waiting
  apply Flows.put
  · rw [here, Option.elim_some]
  · exact fun x y => Net.between_connect ..
  · intro x other
    rw [Net.connect, Net.setSocket_ne _ _ other]
  · intro y
    simp only [outgoing, here, Option.elim_some, nothing, ite_self]

end Chats

end SegmentTransfer
