import Mathlib.Data.List.InsertIdx
import Mathlib.Data.List.Perm.Subperm
import Mathlib.Logic.Function.Basic

/-! # Datagram sockets

The sockets of a network, one for each address, and the datagrams under way
between them. A socket takes every datagram once it is bound, and those of its
peer only once it is connected; what was queued before stays queued. Datagrams
may be lost. Those from one address to another are looked at as one list, from
the oldest queued to the latest sent.
-/

namespace SegmentTransfer.Udp

structure Datagram (α : Type) where
  src : α
  dst : α
  bytes : List UInt8

structure Socket (α : Type) where
  bound : Bool
  peer : Option α
  queue : List (Datagram α)

/-- The socket of each address, and the datagrams under way. -/
structure Net (α : Type) where
  socket : α → Socket α
  flight : List (Datagram α)

variable {α : Type} [DecidableEq α]

def Datagram.joins (a b : α) (d : Datagram α) : Bool := d.src == a && d.dst == b

theorem Datagram.joins_iff {a b : α} {d : Datagram α} : d.joins a b = true ↔ d.src = a ∧ d.dst = b := by
  simp [joins]

/-- Whether a datagram that arrives is queued. -/
def Socket.takes (s : Socket α) (d : Datagram α) : Bool := s.bound && s.peer.all (· == d.src)

namespace Net

/-- No socket is open. -/
def closed : Net α where
  socket := fun _ => { bound := false, peer := none, queue := [] }
  flight := []

def setSocket (n : Net α) (a : α) (s : Socket α) : Net α :=
  { n with socket := Function.update n.socket a s }

def bind (n : Net α) (a : α) : Net α := n.setSocket a { n.socket a with bound := true }

/-- Connecting a socket binds it too. -/
def connect (n : Net α) (a peer : α) : Net α :=
  n.setSocket a { n.socket a with bound := true, peer := some peer }

def close (n : Net α) (a : α) : Net α := n.setSocket a { bound := false, peer := none, queue := [] }

def send (n : Net α) (a b : α) (bytes : List UInt8) : Net α :=
  { n with flight := n.flight ++ [⟨a, b, bytes⟩] }

/-- Datagrams to the peer, if there is one. -/
def write (n : Net α) (a : α) (out : List (List UInt8)) : Net α :=
  match (n.socket a).peer with
  | none => n
  | some b => { n with flight := n.flight ++ out.map (⟨a, b, ·⟩) }

/-- The datagram that is read next, and stays there when it is only peeked at. -/
def peek (n : Net α) (a : α) : Option (Datagram α) := (n.socket a).queue.head?

/-- The first datagram is taken off the queue. -/
def receive (n : Net α) (a : α) : Net α :=
  n.setSocket a { n.socket a with queue := (n.socket a).queue.tail }

def arrive (n : Net α) (d : Datagram α) : Net α :=
  if (n.socket d.dst).takes d then
    n.setSocket d.dst { n.socket d.dst with queue := (n.socket d.dst).queue ++ [d] }
  else n

def lose (n : Net α) (i : Nat) : Net α := { n with flight := n.flight.eraseIdx i }

def deliver (n : Net α) (i : Nat) : Net α :=
  match n.flight[i]? with
  | none => n
  | some d => (n.lose i).arrive d

/-- Nothing sent earlier is still under way between the same addresses. -/
def InTurn (n : Net α) (i : Nat) : Prop :=
  ∀ d, n.flight[i]? = some d → ∀ e ∈ n.flight.take i, e.joins d.src d.dst = false

/-- What is queued or under way from one address to another. -/
def between (n : Net α) (a b : α) : List (List UInt8) :=
  ((n.socket b).queue.filter (·.src == a)).map Datagram.bytes ++
    (n.flight.filter (Datagram.joins a b)).map Datagram.bytes

end Net

/-! ## What the operations do to the datagrams between two addresses -/

section

variable {β : Type}

theorem filter_eraseIdx (p : β → Bool) (l : List β) (i : Nat) :
    ∃ k, (l.eraseIdx i).filter p = (l.filter p).eraseIdx k := by
  induction l generalizing i with
  | nil => exact ⟨0, rfl⟩
  | cons x l ih =>
      cases i with
      | zero =>
          by_cases keep : p x = true
          · exact ⟨0, by simp [keep]⟩
          · exact ⟨(l.filter p).length, by simp [keep, List.eraseIdx_of_length_le]⟩
      | succ i =>
          obtain ⟨k, same⟩ := ih i
          by_cases keep : p x = true
          · exact ⟨k + 1, by simp [keep, same]⟩
          · exact ⟨k, by simp [keep, same]⟩

theorem eraseIdx_none (l : List β) : ∃ k, l = l.eraseIdx k :=
  ⟨l.length, (List.eraseIdx_of_length_le (Nat.le_refl _)).symm⟩

end

namespace Net

variable {n : Net α} {a b : α}

@[simp] theorem setSocket_flight (n : Net α) (a : α) (s : Socket α) :
    (n.setSocket a s).flight = n.flight := rfl

@[simp] theorem setSocket_self (n : Net α) (a : α) (s : Socket α) :
    (n.setSocket a s).socket a = s := Function.update_self ..

theorem setSocket_ne (n : Net α) {a c : α} (s : Socket α) (other : c ≠ a) :
    (n.setSocket a s).socket c = n.socket c := Function.update_of_ne other ..

theorem setSocket_field {γ : Type} (field : Socket α → γ) (n : Net α) {c : α} {s : Socket α}
    (same : field s = field (n.socket c)) (a : α) :
    field ((n.setSocket c s).socket a) = field (n.socket a) := by
  by_cases here : a = c
  · subst here
    rw [setSocket_self, same]
  · rw [setSocket_ne n s here]

theorem receive_field {γ : Type} (field : Socket α → γ)
    (queue : ∀ s queue, field { s with queue } = field s) (n : Net α) (a c : α) :
    field ((n.receive c).socket a) = field (n.socket a) :=
  setSocket_field field n (queue _ _) a

@[simp] theorem receive_peer (n : Net α) (a c : α) :
    ((n.receive c).socket a).peer = (n.socket a).peer :=
  n.receive_field Socket.peer (fun _ _ => rfl) a c

@[simp] theorem receive_bound (n : Net α) (a c : α) :
    ((n.receive c).socket a).bound = (n.socket a).bound :=
  n.receive_field Socket.bound (fun _ _ => rfl) a c

theorem bind_peer (n : Net α) (a b : α) : ((n.bind a).socket b).peer = (n.socket b).peer := by
  have same : Socket.peer { n.socket a with bound := true } = (n.socket a).peer := rfl
  exact setSocket_field Socket.peer n same b

theorem bind_bound (n : Net α) (a b : α) (bound : (n.socket b).bound = true) :
    ((n.bind a).socket b).bound = true := by
  by_cases here : b = a
  · subst here
    rw [bind, setSocket_self]
  · rwa [bind, setSocket_ne _ _ here]

theorem deliver_field {γ : Type} (field : Socket α → γ)
    (queue : ∀ s queue, field { s with queue } = field s) (n : Net α) (i : Nat) (a : α) :
    field ((n.deliver i).socket a) = field (n.socket a) := by
  unfold deliver
  split
  · rfl
  · unfold arrive
    split
    · exact setSocket_field field (n.lose i) (queue _ _) a
    · rfl

@[simp] theorem deliver_peer (n : Net α) (i : Nat) (a : α) :
    ((n.deliver i).socket a).peer = (n.socket a).peer :=
  n.deliver_field Socket.peer (fun _ _ => rfl) i a

@[simp] theorem deliver_bound (n : Net α) (i : Nat) (a : α) :
    ((n.deliver i).socket a).bound = (n.socket a).bound :=
  n.deliver_field Socket.bound (fun _ _ => rfl) i a

@[simp] theorem between_closed (a b : α) : (closed : Net α).between a b = [] := rfl

theorem between_setSocket {s : Socket α} (n : Net α) (a b c : α)
    (same : s.queue = (n.socket c).queue) : (n.setSocket c s).between a b = n.between a b := by
  by_cases here : b = c
  · subst here
    simp only [between, setSocket_self, same, setSocket_flight]
  · simp only [between, setSocket_ne n s here, setSocket_flight]

@[simp] theorem between_bind (n : Net α) (a b c : α) : (n.bind c).between a b = n.between a b :=
  between_setSocket n a b c rfl

@[simp] theorem between_connect (n : Net α) (a b c peer : α) :
    (n.connect c peer).between a b = n.between a b :=
  between_setSocket n a b c rfl

theorem between_close (n : Net α) (a b c : α) :
    ((n.close c).between a b).Sublist (n.between a b) := by
  by_cases here : b = c
  · subst here
    simp [between, close]
  · simp only [between, close, setSocket_ne n _ here, setSocket_flight]
    exact .refl _

theorem between_send (n : Net α) (a b c d : α) (bytes : List UInt8) :
    (n.send c d bytes).between a b =
      n.between a b ++ if c = a ∧ d = b then [bytes] else [] := by
  by_cases here : c = a ∧ d = b
  · obtain ⟨rfl, rfl⟩ := here
    simp [between, send, Datagram.joins]
  · simp [between, send, Datagram.joins, here]

theorem between_receive {d : Datagram α} (first : n.peek b = some d) :
    n.between d.src b = d.bytes :: (n.receive b).between d.src b := by
  obtain ⟨rest, queue⟩ := List.head?_eq_some_iff.mp first
  simp [between, receive, queue]

theorem between_receive_ne {d : Datagram α} (first : n.peek b = some d) {c e : α}
    (other : ¬ (c = d.src ∧ e = b)) : (n.receive b).between c e = n.between c e := by
  obtain ⟨rest, queue⟩ := List.head?_eq_some_iff.mp first
  by_cases here : e = b
  · subst here
    have elsewhere : (d.src == c) = false := by
      simp only [beq_eq_false_iff_ne]
      exact fun same => other ⟨same.symm, rfl⟩
    simp [between, receive, queue, elsewhere]
  · simp only [between, receive, setSocket_ne n _ here, setSocket_flight]

theorem between_receive_sublist (n : Net α) (a b c : α) :
    ((n.receive c).between a b).Sublist (n.between a b) := by
  by_cases here : b = c
  · subst here
    simp only [between, receive, setSocket_self, setSocket_flight]
    exact (((List.tail_sublist _).filter _).map _).append (.refl _)
  · simp only [between, receive, setSocket_ne n _ here, setSocket_flight]
    exact .refl _

theorem between_lose (n : Net α) (i : Nat) (a b : α) :
    ∃ k, (n.lose i).between a b = (n.between a b).eraseIdx k := by
  obtain ⟨k, same⟩ := filter_eraseIdx (Datagram.joins a b) n.flight i
  refine ⟨((n.socket b).queue.filter (·.src == a)).length + k, ?_⟩
  rw [between, between, List.eraseIdx_append_of_length_le (by simp), List.length_map,
    Nat.add_sub_cancel_left, List.eraseIdx_map, ← same]
  rfl

/-- A datagram whose turn it is and that is taken stays between its addresses, -/
theorem between_arrive {i : Nat} {d : Datagram α} (turn : n.InTurn i) (there : n.flight[i]? = some d)
    (taken : (n.socket d.dst).takes d = true) (a b : α) :
    ((n.lose i).arrive d).between a b = n.between a b := by
  obtain ⟨inside, rfl⟩ := List.getElem?_eq_some_iff.mp there
  generalize is : n.flight[i] = d at there taken
  have split : n.flight = n.flight.take i ++ d :: n.flight.drop (i + 1) := by
    rw [← is, List.getElem_cons_drop, List.take_append_drop]
  have erased : n.flight.eraseIdx i = n.flight.take i ++ n.flight.drop (i + 1) :=
    List.eraseIdx_eq_take_drop_succ n.flight i
  have taken' : ((n.lose i).socket d.dst).takes d = true := taken
  simp only [arrive, taken', if_true]
  by_cases joins : d.joins a b = true
  · obtain ⟨rfl, rfl⟩ := Datagram.joins_iff.mp joins
    have earlier : (n.flight.take i).filter (Datagram.joins d.src d.dst) = [] := by
      rw [List.filter_eq_nil_iff]
      intro e member
      simp [turn d there e member]
    conv_rhs => rw [between, split]
    simp [between, lose, erased, earlier, joins]
  · have flight : (n.flight.eraseIdx i).filter (Datagram.joins a b) =
        n.flight.filter (Datagram.joins a b) := by
      conv_rhs => rw [split]
      simp [erased, joins]
    by_cases here : b = d.dst
    · subst here
      have elsewhere : (d.src == a) = false := by
        rw [beq_eq_false_iff_ne]
        exact fun same => joins (Datagram.joins_iff.mpr ⟨same, rfl⟩)
      simp [between, lose, flight, elsewhere]
    · simp only [between, setSocket_ne _ _ here, setSocket_flight, lose, flight]

theorem between_deliver {i : Nat} (turn : n.InTurn i) (a b : α) :
    ∃ k, (n.deliver i).between a b = (n.between a b).eraseIdx k := by
  unfold deliver
  cases there : n.flight[i]? with
  | none => exact eraseIdx_none _
  | some d =>
      cases taken : (n.socket d.dst).takes d with
      | true =>
          simp only [between_arrive turn there taken]
          exact eraseIdx_none _
      | false =>
          have refused : (n.lose i).arrive d = n.lose i := by
            have taken' : ((n.lose i).socket d.dst).takes d = false := taken
            simp only [arrive, taken', Bool.false_eq_true, if_false]
          simp only [refused]
          exact between_lose n i a b

theorem between_lose_subperm (n : Net α) (i : Nat) (a b : α) :
    ((n.lose i).between a b).Subperm (n.between a b) := by
  obtain ⟨k, same⟩ := n.between_lose i a b
  rw [same]
  exact (List.eraseIdx_sublist _ _).subperm

theorem between_lose_kept {i : Nat} (others : ∀ d, n.flight[i]? = some d → ¬ d.joins a b = true) :
    (n.lose i).between a b = n.between a b := by
  cases there : n.flight[i]? with
  | none => rw [lose, List.eraseIdx_of_length_le (List.getElem?_eq_none_iff.mp there)]
  | some d =>
      obtain ⟨inside, is⟩ := List.getElem?_eq_some_iff.mp there
      have split : n.flight = n.flight.take i ++ d :: n.flight.drop (i + 1) := by
        rw [← is, List.getElem_cons_drop, List.take_append_drop]
      have flight : (n.flight.eraseIdx i).filter (Datagram.joins a b) =
          n.flight.filter (Datagram.joins a b) := by
        conv_rhs => rw [split]
        simp [List.eraseIdx_eq_take_drop_succ, others d there]
      simp only [between, lose, flight]

theorem between_deliver_kept {i : Nat} (turn : n.InTurn i)
    (taken : ∀ d, n.flight[i]? = some d → d.joins a b = true → (n.socket d.dst).takes d = true) :
    (n.deliver i).between a b = n.between a b := by
  unfold deliver
  cases there : n.flight[i]? with
  | none => rfl
  | some d =>
      cases takes : (n.socket d.dst).takes d with
      | true => exact between_arrive turn there takes a b
      | false =>
          have refused : (n.lose i).arrive d = n.lose i := by
            have takes' : ((n.lose i).socket d.dst).takes d = false := takes
            simp only [arrive, takes', Bool.false_eq_true, if_false]
          simp only [refused]
          apply between_lose_kept
          intro e here joins
          rw [there] at here
          cases here
          rw [taken d there joins] at takes
          cases takes

/-- Out of its turn it may overtake those between its addresses. -/
theorem between_deliver_perm {i : Nat}
    (taken : ∀ d, n.flight[i]? = some d → d.joins a b = true → (n.socket d.dst).takes d = true) :
    ((n.deliver i).between a b).Perm (n.between a b) := by
  unfold deliver
  cases there : n.flight[i]? with
  | none => exact .refl _
  | some d =>
      obtain ⟨inside, is⟩ := List.getElem?_eq_some_iff.mp there
      have split : n.flight = n.flight.take i ++ d :: n.flight.drop (i + 1) := by
        rw [← is, List.getElem_cons_drop, List.take_append_drop]
      by_cases joins : d.joins a b = true
      · have takes : ((n.lose i).socket d.dst).takes d = true := taken d there joins
        obtain ⟨rfl, rfl⟩ := Datagram.joins_iff.mp joins
        simp only [arrive, takes, if_true]
        conv_rhs => rw [between, split]
        simp only [between, setSocket_self, setSocket_flight, lose,
          List.eraseIdx_eq_take_drop_succ, List.filter_append, List.map_append,
          List.filter_cons_of_pos joins, List.map_cons, List.append_assoc,
          beq_self_eq_true, List.filter_cons_of_pos, List.filter_nil, List.map_nil,
          List.singleton_append]
        exact .append_left _ List.perm_middle.symm
      · have others : ∀ e, n.flight[i]? = some e → ¬ e.joins a b = true := by
          intro e here
          rw [there] at here
          cases here
          exact joins
        have same : ((n.lose i).arrive d).between a b = (n.lose i).between a b := by
          unfold arrive
          split
          · by_cases here : b = d.dst
            · subst here
              have elsewhere : (d.src == a) = false := by
                rw [beq_eq_false_iff_ne]
                exact fun same => joins (Datagram.joins_iff.mpr ⟨same, rfl⟩)
              simp [between, elsewhere]
            · simp only [between, setSocket_ne _ _ here, setSocket_flight]
          · rfl
        simp only [same, between_lose_kept others]
        exact .refl _

theorem between_deliver_subperm (n : Net α) (i : Nat) (a b : α) :
    ((n.deliver i).between a b).Subperm (n.between a b) := by
  by_cases taken : ∀ d, n.flight[i]? = some d → d.joins a b = true →
      (n.socket d.dst).takes d = true
  · exact (between_deliver_perm taken).subperm
  · simp only [not_forall] at taken
    obtain ⟨d, there, -, refused⟩ := taken
    have refused' : ¬ ((n.lose i).socket d.dst).takes d = true := refused
    simp only [deliver, there, arrive, if_neg refused']
    exact n.between_lose_subperm i a b

theorem deliver_taken {i : Nat} {d : Datagram α} (there : n.flight[i]? = some d)
    (taken : (n.socket d.dst).takes d = true) :
    ((n.deliver i).socket d.dst).queue = (n.socket d.dst).queue ++ [d] ∧
      (n.flight.filter (Datagram.joins d.src d.dst)).length =
        ((n.deliver i).flight.filter (Datagram.joins d.src d.dst)).length + 1 := by
  obtain ⟨inside, is⟩ := List.getElem?_eq_some_iff.mp there
  have split : n.flight = n.flight.take i ++ d :: n.flight.drop (i + 1) := by
    rw [← is, List.getElem_cons_drop, List.take_append_drop]
  have taken' : ((n.lose i).socket d.dst).takes d = true := taken
  have joins : d.joins d.src d.dst = true := Datagram.joins_iff.mpr ⟨rfl, rfl⟩
  simp only [deliver, there, arrive, taken', if_true, setSocket_self, setSocket_flight]
  refine ⟨rfl, ?_⟩
  rw [lose, List.eraseIdx_eq_take_drop_succ]
  conv_lhs => rw [split]
  simp only [List.filter_append, List.length_append, List.filter_cons_of_pos joins,
    List.length_cons]
  omega

theorem exists_inTurn (under : (n.flight.filter (Datagram.joins a b)) ≠ []) :
    ∃ i d, n.flight[i]? = some d ∧ d.src = a ∧ d.dst = b ∧ n.InTurn i := by
  obtain ⟨d, found⟩ : ∃ d, n.flight.find? (Datagram.joins a b) = some d := by
    rw [← Option.isSome_iff_exists, List.find?_isSome]
    obtain ⟨d, member⟩ := List.exists_mem_of_ne_nil _ under
    exact ⟨d, List.mem_filter.mp member⟩
  obtain ⟨joins, before, after, split, none⟩ := List.find?_eq_some_iff_append.mp found
  obtain ⟨rfl, rfl⟩ := Datagram.joins_iff.mp joins
  have there : n.flight[before.length]? = some d := by
    rw [split]
    simp
  refine ⟨before.length, d, there, rfl, rfl, ?_⟩
  intro e here x member
  rw [there] at here
  cases here
  rw [split, List.take_left] at member
  simpa using none x member

theorem exists_arrival (takes : ∀ d : Datagram α, d.src = a → (n.socket b).takes d = true)
    (idle : n.peek b = none) (some : n.between a b ≠ []) :
    ∃ i, n.InTurn i ∧ (∀ d, n.flight[i]? = .some d → (n.socket d.dst).takes d = true) ∧
      ((n.deliver i).peek b).isSome = true := by
  have under : n.flight.filter (Datagram.joins a b) ≠ [] := by
    intro none
    apply some
    rw [between, List.head?_eq_none_iff.mp idle, none]
    rfl
  obtain ⟨i, d, there, rfl, rfl, turn⟩ := exists_inTurn under
  have taken := takes d rfl
  refine ⟨i, turn, fun e here => ?_, ?_⟩
  · rw [there] at here
    cases here
    exact taken
  · rw [peek, (deliver_taken there taken).1, List.head?_append]
    simp

theorem between_write (n : Net α) {c peer : α} (connected : (n.socket c).peer = some peer)
    (out : List (List UInt8)) (a b : α) :
    (n.write c out).between a b = n.between a b ++ if c = a ∧ peer = b then out else [] := by
  have under : (out.map (⟨c, peer, ·⟩)).filter (Datagram.joins a b) =
      if c = a ∧ peer = b then out.map (⟨c, peer, ·⟩) else [] := by
    split
    · rename_i both
      rw [List.filter_eq_self]
      intro d member
      obtain ⟨bytes, -, rfl⟩ := List.mem_map.mp member
      exact Datagram.joins_iff.mpr both
    · rename_i away
      rw [List.filter_eq_nil_iff]
      intro d member
      obtain ⟨bytes, -, rfl⟩ := List.mem_map.mp member
      exact fun joins => away (Datagram.joins_iff.mp joins)
  simp only [write, connected, between, List.filter_append, under, List.map_append,
    ← List.append_assoc]
  split
  · rw [List.map_map]
    congr 1
    exact List.map_id _
  · rfl

omit [DecidableEq α] in
@[simp] theorem write_socket (n : Net α) (c : α) (out : List (List UInt8)) :
    (n.write c out).socket = n.socket := by
  unfold write
  split <;> rfl

theorem first_arrival (other : a ≠ b) (bytes : List UInt8) :
    (((((closed.bind b).connect a b).write a [bytes]).deliver 0).socket b).queue =
      [⟨a, b, bytes⟩] := by
  have peer : (((closed.bind b).connect a b).socket a).peer = some b := by
    simp only [connect, setSocket_self]
  have blank : (((closed.bind b).connect a b).write a [bytes]).socket b = ⟨true, none, []⟩ := by
    simp only [write_socket, connect, setSocket_ne _ _ other.symm, bind, setSocket_self]
    rfl
  have there : (((closed.bind b).connect a b).write a [bytes]).flight[0]? = some ⟨a, b, bytes⟩ := by
    simp only [write, peer]
    rfl
  have taken : ((((closed.bind b).connect a b).write a [bytes]).socket b).takes ⟨a, b, bytes⟩ =
      true := by
    rw [blank]
    rfl
  have arrives := (deliver_taken there taken).1
  rw [blank] at arrives
  exact arrives

/-! ## What connected sockets queue -/

/-- A socket that is not bound is blank, and one that is connected has datagrams of its peer only. -/
structure Sound (n : Net α) : Prop where
  blank : ∀ a, (n.socket a).bound = false → (n.socket a).queue = []
  faithful : ∀ a peer, (n.socket a).peer = some peer → ∀ d ∈ (n.socket a).queue, d.src = peer

namespace Sound

omit [DecidableEq α] in
theorem closed : (closed : Net α).Sound where
  blank := fun _ _ => rfl
  faithful := fun _ _ connected => by cases connected

theorem setSocket (h : n.Sound) {s : Socket α} (blank : s.bound = false → s.queue = [])
    (faithful : ∀ peer, s.peer = some peer → ∀ d ∈ s.queue, d.src = peer) :
    (n.setSocket a s).Sound where
  blank := by
    intro c
    by_cases here : c = a
    · subst here
      rw [setSocket_self]
      exact blank
    · rw [setSocket_ne n s here]
      exact h.blank c
  faithful := by
    intro c
    by_cases here : c = a
    · subst here
      rw [setSocket_self]
      exact faithful
    · rw [setSocket_ne n s here]
      exact h.faithful c

theorem bind (h : n.Sound) (a : α) : (n.bind a).Sound :=
  h.setSocket (fun unbound => by cases unbound) (h.faithful a)

theorem connect (h : n.Sound) {a peer : α} (queued : ∀ d ∈ (n.socket a).queue, d.src = peer) :
    (n.connect a peer).Sound :=
  h.setSocket (fun unbound => by cases unbound) fun _ same => by
    cases same
    exact queued

theorem receive (h : n.Sound) (a : α) : (n.receive a).Sound := by
  refine h.setSocket (fun unbound => ?_) fun peer connected d member => ?_
  · rw [h.blank a unbound, List.tail_nil]
  · exact h.faithful a peer connected d (List.mem_of_mem_tail member)

omit [DecidableEq α] in
theorem write (h : n.Sound) (a : α) (out : List (List UInt8)) : (n.write a out).Sound where
  blank := by simpa only [write_socket] using h.blank
  faithful := by simpa only [write_socket] using h.faithful

omit [DecidableEq α] in
theorem lose (h : n.Sound) (i : Nat) : (n.lose i).Sound where
  blank := h.blank
  faithful := h.faithful

theorem arrive (h : n.Sound) (d : Datagram α) : (n.arrive d).Sound := by
  unfold Net.arrive
  split
  · rename_i taken
    simp only [Socket.takes, Bool.and_eq_true] at taken
    refine h.setSocket (fun unbound => ?_) fun peer connected e member => ?_
    · rw [taken.1] at unbound
      cases unbound
    · rcases List.mem_append.mp member with old | new
      · exact h.faithful _ peer connected e old
      · rw [List.mem_singleton.mp new]
        have same := taken.2
        rw [connected, Option.all_some, beq_iff_eq] at same
        exact same.symm
  · exact h

theorem deliver (h : n.Sound) (i : Nat) : (n.deliver i).Sound := by
  unfold Net.deliver
  split
  · exact h
  · exact (h.lose i).arrive _

theorem peek (h : n.Sound) {peer : α} (connected : (n.socket a).peer = some peer) {d : Datagram α}
    (first : n.peek a = some d) : n.between peer a = d.bytes :: (n.receive a).between peer a := by
  rw [← h.faithful a peer connected d (List.mem_of_mem_head? first)]
  exact between_receive first

theorem receive_ne (h : n.Sound) {peer : α} (connected : (n.socket a).peer = some peer) {c e : α}
    (other : ¬ (c = peer ∧ e = a)) : (n.receive a).between c e = n.between c e := by
  cases first : n.peek a with
  | none =>
      apply between_setSocket
      rw [List.head?_eq_none_iff.mp first]
      rfl
  | some d =>
      apply between_receive_ne first
      rwa [h.faithful a peer connected d (List.mem_of_mem_head? first)]

end Sound

end Net

end SegmentTransfer.Udp
