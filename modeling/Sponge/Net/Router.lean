import Sponge.Net.Interface

/-!
# The router

`libsponge/router.cc`. The routing table is a list of routes in the order they were added. The
selection loop of `route_one_datagram` is `select`; what it hands over, and to whom, is `handOff`, and
`routeOneDatagram` makes that call.

Two things are undefined in the source. `add_route` shifts a 32-bit mask by 32 for a prefix of length
zero: the result is the parameter `overshift`, and every law holds for each value of it. A route may
name an interface that is not there: the model then does nothing.
-/

namespace Sponge

/-- An entry of the routing table. -/
structure MapItem where
  routePrefix : UInt32
  prefixLength : UInt8
  nextHop : Option Address
  interfaceNum : Nat
deriving DecidableEq

/-- The router's state. -/
structure Router where
  interfaces : List AsyncNetworkInterface
  mapVec : List MapItem

/-- The mask of `add_route`. -/
def prefixMask (overshift : UInt32) (prefixLength : UInt8) : UInt32 :=
  if 0 < prefixLength ∧ prefixLength ≤ 32 then 0xffffffff <<< (32 - prefixLength.toUInt32)
  else overshift

/-- The loop of `matched_prefix_length`: count the leading ones, for at most `fuel` bits. -/
def matchedLen (matching : UInt32) : Nat → UInt32 → UInt8 → UInt8
  | 0, _, matched => matched
  | fuel + 1, mask, matched =>
    if mask &&& matching ≠ 0 then matchedLen matching fuel (mask >>> 1) (matched + 1) else matched

/-- `matched_prefix_length`: do the first `prefixLength` bits agree? -/
def matchedPrefixLength (ip pattern : UInt32) (prefixLength : UInt8) : Bool :=
  prefixLength ≤ matchedLen (~~~ (ip ^^^ pattern)) 32 ((1 : UInt32) <<< 31) 0

/-- The variables of the selection loop. -/
structure Selection where
  maxMatchLength : UInt8
  matchedInterfaceNum : Nat
  nextHop : Option Address
deriving DecidableEq

namespace Selection

/-- The variables before the loop. -/
def initial : Selection := ⟨0, 0, none⟩

/-- One turn of the loop: a matching route whose *prefix* is not below the last one's length field
takes over. -/
def turn (destIp : UInt32) (s : Selection) (item : MapItem) : Selection :=
  if matchedPrefixLength destIp item.routePrefix item.prefixLength ∧
      s.maxMatchLength.toUInt32 ≤ item.routePrefix then
    ⟨item.routePrefix.toUInt8, item.interfaceNum, item.nextHop⟩
  else s

end Selection

namespace Router

variable (r : Router)

/-- `add_route`. -/
def addRoute (overshift : UInt32) (routePrefix : UInt32) (prefixLength : UInt8)
    (nextHop : Option Address) (interfaceNum : Nat) : Router :=
  { r with
    mapVec := r.mapVec ++
      [⟨routePrefix &&& prefixMask overshift prefixLength, prefixLength, nextHop, interfaceNum⟩] }

/-- The selection loop of `route_one_datagram`. -/
def select (destIp : UInt32) : Selection := r.mapVec.foldl (Selection.turn destIp) Selection.initial

/-- The call `route_one_datagram` makes: the interface, the datagram with its time to live decreased,
and the next hop. There is none when the time to live runs out. -/
def handOff (dgram : IPv4Datagram) : Option (Nat × IPv4Datagram × Address) :=
  if dgram.header.ttl = 0 ∨ dgram.header.ttl = 1 then none
  else
    let dgram := { dgram with header := { dgram.header with ttl := dgram.header.ttl - 1 } }
    let selected := r.select dgram.header.dst
    some (selected.matchedInterfaceNum, dgram,
      selected.nextHop.getD (Address.fromIpv4Numeric dgram.header.dst))

/-- `route_one_datagram`. It changes the datagram it is given, which is answered with the result. -/
def routeOneDatagram (dgram : IPv4Datagram) : Router × IPv4Datagram × Except Exn Unit :=
  match r.handOff dgram with
  | none => (r, dgram, .ok ())
  | some (i, dgram, nextHop) =>
    match r.interfaces[i]? with
    | none => (r, dgram, .ok ())
    | some interface =>
      let sent := interface.net.sendDatagram dgram nextHop
      ({ r with interfaces := r.interfaces.set i { interface with net := sent.1 } }, dgram, sent.2)

/-- Replace the queue of an interface. -/
def setQueue (i : Nat) (queue : List IPv4Datagram) : Router :=
  { r with interfaces := r.interfaces.modify i fun a => { a with datagramsOut := queue } }

/-- The loop of `route` over the queue of interface `i`: route the front, then pop it. A datagram
whose routing throws stays at the front. -/
def routeQueue (i : Nat) : List IPv4Datagram → Router → Router × Except Exn Unit
  | [], r => (r, .ok ())
  | dgram :: rest, r =>
    match r.routeOneDatagram dgram with
    | (r, dgram, .error e) => (r.setQueue i (dgram :: rest), .error e)
    | (r, _, .ok ()) => routeQueue i rest (r.setQueue i rest)

/-- The loop of `route` over the interfaces. -/
def routeFrom : List Nat → Router → Router × Except Exn Unit
  | [], r => (r, .ok ())
  | i :: is, r =>
    match routeQueue i ((r.interfaces[i]?.map AsyncNetworkInterface.datagramsOut).getD []) r with
    | (r, .error e) => (r, .error e)
    | (r, .ok ()) => routeFrom is r

/-- `route`. -/
def route : Router × Except Exn Unit := routeFrom (List.range r.interfaces.length) r

end Router

end Sponge
