import SegmentTransfer.Lossless
import SegmentTransfer.Sockets
import SegmentTransfer.Unforged

/-! # The two programs with their sockets

`send_data` and `receive_data` from their first line, each with its own socket on
a network on which other hosts send what they like. What `main` hands over are
the arguments. The file given to `receive_data` is opened; a socket or a file
that is not there for `send_data` is used all the same, outside the bounds of a
`fd_set`. After its loops a program no longer uses its socket.
-/

namespace SegmentTransfer

open Udp Outcome Bytes

variable {ι : Type} [DecidableEq ι]

/-- The arguments of `send_data` and of `receive_data`. -/
structure Arguments where
  hostname : String
  port : Int
  file : Option String

/-- How the two programs are started. A socket with the address `in6addr_any` would take what is
    sent to any address of its host; the names given are not that address. -/
structure Setup (ι : Type) where
  getaddrinfo : String → Option ι
  /-- The address `in6addr_any`. -/
  any : ι
  /-- The host of the sender. -/
  sndHost : ι
  sndArgs : Arguments
  rcvArgs : Arguments
  /-- What reads of the sender's file return. -/
  input : List (List UInt8)
  specific : ∀ args ∈ [sndArgs, rcvArgs], realAddress getaddrinfo args.hostname ≠ some any

/-- Where `send_data` is: before its first line, in its loops with the address of its socket, if it
    has one, or returned early. -/
inductive SenderStage (ι : Type) where
  | before
  | loop (here : Option (Address ι)) (s : Sender)
  | ended

/-- Where `receive_data` is: before its first line, in `wait_for_client`, in its loops or returned
    early. -/
inductive ReceiverStage (ι : Type) where
  | before
  | waiting (here : Option (Address ι))
  | loop (here : Address ι) (r : Receiver)
  | ended

structure Session (ι : Type) where
  net : Net (Address ι)
  snd : SenderStage ι
  rcv : ReceiverStage ι
  input : List (List UInt8)

/-- What the allocations of a program return, and the memory of its buffer. -/
structure Allocations where
  first : Option Pkt
  second : Option Pkt
  packetEncoded : Buf 528

inductive SessionEvent (ι : Type) where
  /-- `send_data` up to its loop: how the calls end and whether the file is there. -/
  | sendData (calls : SocketCalls ι) (opens : Bool) (memory : Allocations)
  /-- `receive_data` up to `wait_for_client`. -/
  | receiveData (calls : SocketCalls ι)
  /-- `wait_for_client`, and `receive_data` from there up to its loop. -/
  | waitForClient (recvfrom connect : Bool) (memory : Allocations)
  /-- A pass of one of the programs, as on the network of the two. -/
  | pass (event : Event)
  /-- A datagram arrives. -/
  | deliver (i : Nat)
  /-- A datagram is lost. -/
  | lose (i : Nat)
  /-- Another host sends a datagram. -/
  | foreign (d : Datagram (Address ι))

/-- `pkt_new` twice: what follows a failure reads the payload of a packet that is not there. -/
def Allocations.packets (memory : Allocations) : Except Fault (Pkt × Pkt) := do
  let first ← orFail .payloadRead memory.first
  let second ← orFail .payloadRead memory.second
  return (first, second)

namespace Session

variable (crc32 : List UInt8 → UInt32) (setup : Setup ι)

def start : Session ι where
  net := .closed
  snd := .before
  rcv := .before
  input := setup.input

/-- `send_data` up to its loop. -/
def sendData (calls : SocketCalls ι) (opens : Bool) (memory : Allocations) (s : Session ι) :
    Except Fault (Session ι) := do
  match realAddress setup.getaddrinfo setup.sndArgs.hostname with
  | none => return { s with snd := .ended }
  | some host =>
      let calls := { calls with free := (setup.sndHost, calls.free.2) }
      let sfd := createSocket calls none 0 (some host) setup.sndArgs.port s.net
      let (pktSend, _) ← memory.packets
      let (here, net) ← orFail .bufferWrite sfd
      if setup.sndArgs.file.isSome && !opens then throw .bufferWrite
      return { s with
        net, snd := .loop here (.start setup.sndArgs.file.isSome pktSend memory.packetEncoded) }

/-- `receive_data` up to `wait_for_client`. -/
def receiveData (calls : SocketCalls ι) (s : Session ι) : Session ι :=
  match realAddress setup.getaddrinfo setup.rcvArgs.hostname with
  | none => { s with rcv := .ended }
  | some host =>
      match createSocket calls (some host) setup.rcvArgs.port none 0 s.net with
      | none => { s with rcv := .ended }
      | some (here, net) => { s with net, rcv := .waiting here }

/-- `wait_for_client`, and `receive_data` from there up to its loop. -/
def waitForClient (recvfrom connect : Bool) (memory : Allocations) (here : Address ι)
    (s : Session ι) : Except Fault (Session ι) :=
  match SegmentTransfer.waitForClient recvfrom connect here s.net with
  | none => return s
  | some (false, _) => return { s with rcv := .ended }
  | some (true, net) => do
      let (pktRcv, pktAck) ← memory.packets
      return { s with net, rcv := .loop here (.start pktRcv pktAck memory.packetEncoded) }

/-- A datagram that `select` reports. -/
def arriving (s : Session ι) (here : Option (Address ι)) (ready : Bool) : Option ReadResult :=
  if ready then (here.bind s.net.peek).map (some ·.bytes) else none

/-- The network after a pass that may have read a datagram and has sent some. -/
def after (s : Session ι) (here : Address ι) (read : Bool) (out : List (List UInt8)) :
    Net (Address ι) :=
  (if read then s.net.receive here else s.net).write here out

/-- A pass of `send_data`. Writing to a socket that is not connected fails, and `send_data` returns. -/
def senderPass (fdReady sfdReady : Bool) (sendClock replyClock timerClock : Timeval)
    (memory : Nat → UInt8) (here : Option (Address ι)) (snd : Sender) (s : Session ι) :
    Except Fault (Session ι) := do
  let ready : Ready :=
    { fd := if fdReady then some (some (s.input.headD [])) else none
      sfd := s.arriving here sfdReady
      sendClock, replyClock, timerClock, memory }
  let sent ← snd.pass crc32 ready
  let input := if fdReady && snd.wants then s.input.tail else s.input
  match here with
  | none => return { s with snd := if sent.2 = [] then .loop none sent.1 else .ended, input }
  | some a =>
      return { s with
        net := s.after a (sfdReady && snd.listens) sent.2, snd := .loop here sent.1, input }

/-- A pass of `receive_data`. -/
def receiverPass (arrives : Bool) (clock : Timeval) (stack : Buf 20) (here : Address ι)
    (rcv : Receiver) (s : Session ι) : Except Fault (Session ι) := do
  let replied ← rcv.pass crc32 { datagram := s.arriving here arrives, clock, stack }
  return { s with
    net := s.after here (arrives && rcv.listens) replied.2, rcv := .loop here replied.1 }

def pass (s : Session ι) : Event → Except Fault (Session ι)
  | .sender fdReady sfdReady sendClock replyClock timerClock memory =>
      match s.snd with
      | .loop here snd =>
          s.senderPass crc32 fdReady sfdReady sendClock replyClock timerClock memory here snd
      | _ => return s
  | .receiver arrives clock stack =>
      match s.rcv with
      | .loop here rcv => s.receiverPass crc32 arrives clock stack here rcv
      | _ => return s
  | .loseData _ | .loseAck _ => return s

def step (s : Session ι) : SessionEvent ι → Except Fault (Session ι)
  | .sendData calls opens memory =>
      match s.snd with
      | .before => s.sendData setup calls opens memory
      | _ => return s
  | .receiveData calls =>
      match s.rcv with
      | .before => return s.receiveData setup calls
      | _ => return s
  | .waitForClient recvfrom connect memory =>
      match s.rcv with
      | .waiting (some here) => s.waitForClient recvfrom connect memory here
      | _ => return s
  | .pass event => s.pass crc32 event
  | .deliver i => return { s with net := s.net.deliver i }
  | .lose i => return { s with net := s.net.lose i }
  | .foreign d => return { s with net := s.net.send d.src d.dst d.bytes }

/-- The address of the sender's socket. -/
def sndAddress (s : Session ι) : Option (Address ι) :=
  match s.snd with
  | .loop here _ => here
  | _ => none

/-- The address of the receiver's socket. -/
def rcvAddress (s : Session ι) : Option (Address ι) :=
  match s.rcv with
  | .waiting here => here
  | .loop here _ => some here
  | _ => none

end Session

namespace Setup

/-- An address of a host on which neither program runs. -/
def Foreign (setup : Setup ι) (a : Address ι) : Prop :=
  a.1 ≠ setup.sndHost ∧ realAddress setup.getaddrinfo setup.rcvArgs.hostname ≠ some a.1

/-- The address the sender is told to send to, if it takes the port. -/
def target (setup : Setup ι) : Option (Address ι) :=
  if 0 < setup.sndArgs.port then
    (realAddress setup.getaddrinfo setup.sndArgs.hostname).map (·, UInt16.ofInt setup.sndArgs.port)
  else none

/-- An address that the receiver may be given. -/
structure Binds (setup : Setup ι) (b : Address ι) : Prop where
  host : realAddress setup.getaddrinfo setup.rcvArgs.hostname = some b.1
  positive : 0 < setup.rcvArgs.port
  nonzero : b.2 ≠ 0
  port : UInt16.ofInt setup.rcvArgs.port ≠ 0 → b.2 = UInt16.ofInt setup.rcvArgs.port

end Setup

/-- Datagrams between two addresses arrive in the order in which they were sent, only other hosts
    send what they like, and nothing of theirs is queued at the receiver when it connects to the source
    of the first datagram. -/
def Session.Undisturbed (setup : Setup ι) (s : Session ι) : SessionEvent ι → Prop
  | .deliver i => s.net.InTurn i
  | .foreign d => setup.Foreign d.src
  | .waitForClient _ _ _ => ∀ here, s.rcv = .waiting (some here) →
      ∀ d ∈ (s.net.socket here).queue, s.sndAddress = some d.src
  | _ => True

/-- The two programs from their first lines. -/
def session (crc32 : List UInt8 → UInt32) (setup : Setup ι) :
    Transition (Session ι) (SessionEvent ι) where
  init s := s = .start setup
  step s event s' := s.step crc32 setup event = .ok s'

namespace Session

/-- Undisturbed; nothing that the two programs send one another is lost, and a regular file can always
    be read. -/
def Lossless (setup : Setup ι) (s : Session ι) (event : SessionEvent ι) : Prop :=
  s.Undisturbed setup event ∧
    match event with
    | .deliver i => ∀ d, s.net.flight[i]? = some d → ¬ setup.Foreign d.src →
        (s.net.socket d.dst).takes d = true
    | .lose i => ∀ d, s.net.flight[i]? = some d → setup.Foreign d.src
    | .pass event => event.Lossless setup.sndArgs.file.isSome
    | _ => True

/-- Whatever is lost, a chunk is only read when fewer than `window` segments are outstanding. -/
def ReadsInWindow (setup : Setup ι) (s : Session ι) (event : SessionEvent ι) : Prop :=
  s.Undisturbed setup event ∧ ∀ e here (n : Network), event = .pass e →
    s.snd = .loop here n.snd → n.input = s.input → n.ReadsInWindow e

end Session

end SegmentTransfer
