import Sponge.Net.Router
import Sponge.Tcp.Socket

/-!
# Lab 7: a socket, an interface, a router and the Internet

`apps/lab7.cc`, which runs once as the client and once as the server. A TCP socket writes Ethernet frames to
one end of a pair of datagram sockets; a second thread moves frames between the other end, the router, and a
UDP socket on the Internet. A program that bounces the datagrams connects the two routers.

The members of `NetworkInterfaceAdapter` are those of the adapter on Ethernet, with an end of the pair in the
place of the TAP device and without the dummy frame. The debugging output is left out. The front of a queue
that is empty is undefined in the source: the model then fails (`emptyQueue`).
-/

namespace Sponge

/-- `Router::interface`. -/
def Router.interface (r : Router) (n : Nat) : Except Exn AsyncNetworkInterface :=
  match r.interfaces[n]? with
  | some a => .ok a
  | none => .error (.outOfRange "vector::_M_range_check")

/-- The frames that wait at an interface. -/
def Router.framesOut (r : Router) (n : Nat) : List EthernetFrame :=
  (r.interfaces[n]?.map fun a => a.net.framesOut).getD []

/-- `Router::add_interface`. -/
def Router.addInterface (r : Router) (net : NetworkInterface) : Router :=
  { r with interfaces := r.interfaces ++ [{ net, datagramsOut := [] }] }

namespace Lab7

open EventLoop (Rule)

abbrev NetworkInterfaceAdapter := TCPOverIPv4OverEthernetAdapter

/-- The indices that `add_interface` answers. -/
def hostSide : Nat := 0

def internetSide : Nat := 1

/-- What the network thread works on: the router, the end of the pair, and the socket on the Internet, with
the address of the program that bounces. -/
structure Network where
  router : Router
  frameFd : FileDescriptor := {}
  internetSocket : UDPSocket := {}
  bounceAddress : InetAddress

namespace Network

variable (s : Network)

/-- The frame at the front is popped. -/
def popFrame (side : Nat) : Network :=
  { s with
    router := { s.router with
      interfaces := s.router.interfaces.modify side fun a =>
        { a with net := { a.net with framesOut := a.net.framesOut.tail } } } }

/-- The router takes a packet from a side, and routes. -/
def receive (side : Nat) (packet : Bytes) : Except Failure Network := do
  let frame := EthernetFrame.parse {} (Buffer.ofString packet)
  if frame.1 ≠ .noError then return s
  else
    let interface ← throws (s.router.interface side)
    let received := interface.recvFrame frame.2
    throws received.2
    let routed := { s.router with interfaces := s.router.interfaces.set side received.1 }.route
    throws routed.2
    return { s with router := routed.1 }

/-- Time passes for a side of the router. -/
def tick (side : Nat) (ms : Nat) : Network :=
  { s with
    router := { s.router with
      interfaces := s.router.interfaces.modify side fun a => { a with net := a.net.tick ms } } }

end Network

/-- The four rules of the network thread, in the order they are added. -/
inductive RuleName
  | hostToRouter
  | routerToHost
  | routerToInternet
  | internetToRouter
deriving DecidableEq, Repr

/-- What the kernel answers to the calls one callback may make: a read, and a write. -/
structure Answers where
  frame : Answer Bytes := .error 0
  written : Answer Unit := .ok ()

/-- Frames from host to router. -/
def hostToRouter (answers : Answers) (s : Network) : Except Failure Network := do
  let (frameFd, packet) ← s.frameFd.read SIZE_MAX answers.frame
  { s with frameFd }.receive hostSide packet

def emptyQueue : Failure := .exn (.outOfRange "queue::front")

/-- Frames from router to host. -/
def routerToHost (answers : Answers) (s : Network) : Except Failure Network :=
  match s.router.framesOut hostSide with
  | [] => .error emptyQueue
  | frame :: _ => do
    let frameFd ← s.frameFd.send frame.serialize.concatenate answers.written
    return { s with frameFd }.popFrame hostSide

/-- Frames from router to Internet. -/
def routerToInternet (answers : Answers) (s : Network) : Except Failure Network :=
  match s.router.framesOut internetSide with
  | [] => .error emptyQueue
  | frame :: _ => do
    let internetSocket ←
      s.internetSocket.sendto s.bounceAddress frame.serialize.concatenate answers.written
    return { s with internetSocket }.popFrame internetSide

/-- Frames from Internet to router: the datagram is read as from any descriptor. -/
def internetToRouter (answers : Answers) (s : Network) : Except Failure Network := do
  let (fd, packet) ← s.internetSocket.fd.read SIZE_MAX answers.frame
  { s with internetSocket := { s.internetSocket with fd } }.receive internetSide packet

/-- The event loop's rules. -/
def rule : RuleName → Rule Network Answers
  | .hostToRouter => { fd := Network.frameFd, direction := .In, callback := hostToRouter }
  | .routerToHost =>
    { fd := Network.frameFd
      direction := .Out
      callback := routerToHost
      interest := fun s => !(s.router.framesOut hostSide).isEmpty }
  | .routerToInternet =>
    { fd := fun s => s.internetSocket.fd
      direction := .Out
      callback := routerToInternet
      interest := fun s => !(s.router.framesOut internetSide).isEmpty }
  | .internetToRouter =>
    { fd := fun s => s.internetSocket.fd, direction := .In, callback := internetToRouter }

def rules : List RuleName := [.hostToRouter, .routerToHost, .routerToInternet, .internetToRouter]

/-- A turn of the network thread, with what `poll` answers and the flag that ends the thread: whether another
turn follows, the rules that are left, and what they work on. -/
def turn (c : List RuleName × Network) (poll : EventLoop.Poll RuleName Answers) (exitFlag : Bool) :
    Except Failure (Bool × List RuleName × Network) := do
  let (ret, rules, s) ← EventLoop.waitNextEvent rule c.1 c.2 poll
  if ret = .exit then return (false, rules, s)
  else return (!exitFlag, rules, (s.tick hostSide 50).tick internetSide 50)

/-- What the program draws at random, and the address it is given. -/
structure Choices where
  hostAddress : EthernetAddress
  routerAddress : EthernetAddress
  internetAddress : EthernetAddress
  port : UInt16
  bounceAddress : InetAddress

/-- 192.168.0.50 with the port that was drawn. -/
def clientAddress (c : Choices) : InetAddress := { ipv4Numeric := 0xc0a80032, port := c.port }

/-- 172.16.0.100, port 1234. -/
def serverAddress : InetAddress := { ipv4Numeric := 0xac100064, port := 1234 }

/-- The router. Neither prefix has length zero, so the shift by 32 does not occur. -/
def makeRouter (isClient : Bool) (c : Choices) : Router :=
  let router : Router := { interfaces := [], mapVec := [] }
  if isClient then
    -- 192.168.0.1 and 10.0.0.192
    let router := router.addInterface (.new c.routerAddress (.inet 0xc0a80001 0))
    let router := router.addInterface (.new c.internetAddress (.inet 0x0a0000c0 0))
    let router := router.addRoute 0 0xc0a80000 16 none hostSide
    let router := router.addRoute 0 0x0a000000 8 none internetSide
    router.addRoute 0 0xac100000 12 (some (.inet 0x0a0000ac 0)) internetSide
  else
    -- 172.16.0.1 and 10.0.0.172
    let router := router.addInterface (.new c.routerAddress (.inet 0xac100001 0))
    let router := router.addInterface (.new c.internetAddress (.inet 0x0a0000ac 0))
    let router := router.addRoute 0 0xac100000 12 none hostSide
    let router := router.addRoute 0 0x0a000000 8 none internetSide
    router.addRoute 0 0xc0a80000 16 (some (.inet 0x0a0000c0 0)) internetSide

/-- The adapter of the socket: the host's address, and the router's as the next hop. -/
def makeAdapter (isClient : Bool) (c : Choices) : NetworkInterfaceAdapter :=
  if isClient then
    { tap := {}, interface := .new c.hostAddress (.inet 0xc0a80032 0), nextHop := .inet 0xc0a80001 0 }
  else
    { tap := {}, interface := .new c.hostAddress (.inet 0xac100064 0), nextHop := .inet 0xac100001 0 }

/-- A running program: the loop of its socket, and its network thread. -/
structure Program where
  host : List TCPSpongeSocket.RuleName × TCPSpongeSocket NetworkInterfaceAdapter
  network : List RuleName × Network

/-- `program_body` up to its loops. Three empty datagrams let the bouncer know the program. -/
def programBody (isClient : Bool) (c : Choices) (writes : Nat → Answer Unit) : Except Failure Program := do
  let internetSocket ← UDPSocket.sendto {} c.bounceAddress [] (writes 0)
  let internetSocket ← internetSocket.sendto c.bounceAddress [] (writes 1)
  let internetSocket ← internetSocket.sendto c.bounceAddress [] (writes 2)
  let network : Network :=
    { router := makeRouter isClient c, internetSocket, bounceAddress := c.bounceAddress }
  let socket ←
    if isClient then
      TCPSpongeSocket.connect (makeAdapter isClient c) none {}
        { source := clientAddress c, destination := serverAddress }
    else TCPSpongeSocket.listenAndAccept (makeAdapter isClient c) none {} { source := serverAddress }
  return { host := (TCPSpongeSocket.rules, socket), network := (rules, network) }

end Lab7

end Sponge
