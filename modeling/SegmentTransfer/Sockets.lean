import SegmentTransfer.Library.Udp

/-! # Names, addresses and sockets

`real_address`, `create_socket` and `wait_for_client`, which the programs share.
An address is a host with a port. What `getaddrinfo` knows is a parameter, and
what the system calls return is given with each call; an address that is in use
cannot be bound.
-/

namespace SegmentTransfer

open Udp

/-- A host and a port, as in a `struct sockaddr_in6`. -/
abbrev Address (ι : Type) := ι × UInt16

variable {ι : Type} [DecidableEq ι]

/-- `real_address`: the host of a name, if `getaddrinfo` finds one. -/
def realAddress (getaddrinfo : String → Option ι) (address : String) : Option ι :=
  getaddrinfo address

/-- Whether the calls of `create_socket` succeed, and the address the system gives a socket for
    which none is asked. -/
structure SocketCalls (ι : Type) where
  socket : Bool
  bind : Bool
  connect : Bool
  free : Address ι
  free_port : free.2 ≠ 0

/-- The address `bind` takes: a port that `htons` makes zero is for the system to choose. -/
def boundAddress (free : Address ι) (host : ι) (port : Int) : Address ι :=
  (host, if UInt16.ofInt port = 0 then free.2 else UInt16.ofInt port)

/-- `if(source_addr != NULL && src_port >0)`: the address of the socket, if it has one now, and the
    sockets. -/
def bindSource (calls : SocketCalls ι) (sourceAddr : Option ι) (srcPort : Int)
    (n : Net (Address ι)) : Option (Option (Address ι) × Net (Address ι)) :=
  match sourceAddr with
  | none => some (none, n)
  | some host =>
      if 0 < srcPort then
        let a := boundAddress calls.free host srcPort
        if calls.bind && !(n.socket a).bound then some (some a, n.bind a) else none
      else some (none, n)

/-- `if(dest_addr != NULL && dst_port >0)`: a socket that is not bound takes a free address. -/
def connectDest (calls : SocketCalls ι) (destAddr : Option ι) (dstPort : Int)
    (here : Option (Address ι)) (n : Net (Address ι)) :
    Option (Option (Address ι) × Net (Address ι)) :=
  match destAddr with
  | none => some (here, n)
  | some host =>
      if 0 < dstPort then
        let a := here.getD calls.free
        if calls.connect && (here.isSome || !(n.socket a).bound) then
          some (some a, n.connect a (host, UInt16.ofInt dstPort))
        else none
      else some (here, n)

/-- `create_socket`: the address of the socket, if it is given one, and the sockets after the call.
    There is none for `-1`. -/
def createSocket (calls : SocketCalls ι) (sourceAddr : Option ι) (srcPort : Int)
    (destAddr : Option ι) (dstPort : Int) (n : Net (Address ι)) :
    Option (Option (Address ι) × Net (Address ι)) :=
  if calls.socket then
    (bindSource calls sourceAddr srcPort n).bind fun bound =>
      connectDest calls destAddr dstPort bound.1 bound.2
  else none

/-- `wait_for_client` at the first datagram of a socket, which it only peeks at: whether it succeeds
    in connecting to its source. Without one the call blocks. -/
def waitForClient (recvfrom connect : Bool) (here : Address ι) (n : Net (Address ι)) :
    Option (Bool × Net (Address ι)) :=
  if !recvfrom then some (false, n)
  else
    match n.peek here with
    | none => none
    | some d => if connect then some (true, n.connect here d.src) else some (false, n)

/-! ## What they do to the sockets -/

omit [DecidableEq ι] in
theorem boundAddress_port (calls : SocketCalls ι) (host : ι) (port : Int) :
    (boundAddress calls.free host port).2 ≠ 0 ∧
      (UInt16.ofInt port ≠ 0 → (boundAddress calls.free host port).2 = UInt16.ofInt port) := by
  unfold boundAddress
  split
  · rename_i zero
    exact ⟨calls.free_port, fun nonzero => (nonzero zero).elim⟩
  · rename_i nonzero
    exact ⟨nonzero, fun _ => rfl⟩

variable {calls : SocketCalls ι} {host : ι} {port srcPort dstPort : Int} {n n' : Net (Address ι)}
  {a : Address ι}

theorem createSocket_source
    (h : createSocket calls (some host) port none dstPort n = some (some a, n')) :
    0 < port ∧ a = boundAddress calls.free host port ∧ (n.socket a).bound = false ∧
      n' = n.bind a := by
  simp only [createSocket, bindSource, connectDest] at h
  split at h
  · split at h
    · rename_i positive
      split at h
      · rename_i both
        simp only [Bool.and_eq_true, Bool.not_eq_true'] at both
        cases h
        exact ⟨positive, rfl, both.2, rfl⟩
      · cases h
    · cases h
  · cases h

theorem createSocket_dest
    (h : createSocket calls none srcPort (some host) port n = some (some a, n')) :
    0 < port ∧ a = calls.free ∧ (n.socket a).bound = false ∧
      n' = n.connect a (host, UInt16.ofInt port) := by
  simp only [createSocket, bindSource, connectDest, Option.bind_some, Option.getD_none,
    Option.isSome_none, Bool.false_or] at h
  split at h
  · split at h
    · rename_i positive
      split at h
      · rename_i both
        simp only [Bool.and_eq_true, Bool.not_eq_true'] at both
        cases h
        exact ⟨positive, rfl, both.2, rfl⟩
      · cases h
    · cases h
  · cases h

theorem createSocket_binds (socket : calls.socket = true) (binds : calls.bind = true)
    (positive : 0 < port) (free : (n.socket (boundAddress calls.free host port)).bound = false) :
    createSocket calls (some host) port none dstPort n =
      some (some (boundAddress calls.free host port), n.bind (boundAddress calls.free host port)) := by
  simp only [createSocket, bindSource, connectDest, socket, binds, positive, free, if_true,
    Bool.not_false, Bool.and_self, Option.bind_some]

theorem createSocket_connects (socket : calls.socket = true) (connects : calls.connect = true)
    (positive : 0 < port) (free : (n.socket calls.free).bound = false) :
    createSocket calls none srcPort (some host) port n =
      some (some calls.free, n.connect calls.free (host, UInt16.ofInt port)) := by
  simp only [createSocket, bindSource, connectDest, socket, connects, positive, if_true,
    Option.bind_some, Option.getD_none, Option.isSome_none, Bool.false_or, free, Bool.not_false,
    Bool.and_self]

theorem createSocket_source_none
    (h : createSocket calls (some host) port none dstPort n = some (none, n')) : n' = n := by
  simp only [createSocket, bindSource, connectDest] at h
  split at h
  · split at h
    · split at h <;> cases h
    · cases h
      rfl
  · cases h

theorem createSocket_dest_none
    (h : createSocket calls none srcPort (some host) port n = some (none, n')) : n' = n := by
  simp only [createSocket, bindSource, connectDest, Option.bind_some] at h
  split at h
  · split at h
    · split at h <;> cases h
    · cases h
      rfl
  · cases h

theorem waitForClient_ok {recvfrom connect : Bool}
    (h : waitForClient recvfrom connect a n = some (true, n')) :
    ∃ d, n.peek a = some d ∧ n' = n.connect a d.src := by
  unfold waitForClient at h
  split at h
  · cases h
  · split at h
    · cases h
    · rename_i d there
      split at h
      · cases h
        exact ⟨d, there, rfl⟩
      · cases h

end SegmentTransfer
