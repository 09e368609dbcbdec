import Mathlib.Logic.Function.Basic
import Sponge.Net.FdAdapter
import Sponge.Util.EventLoop

/-!
# The bouncer

`apps/bouncer.cc`: pairs of UDP sockets on neighbouring ports. What arrives at one socket of a pair is sent on
from the other, to the address that the last datagram for that one came from. So two programs behind address
translators can reach each other, if each knows one of the two ports.

The sockets are numbered as in the vector `sockets`, so that a pair is an even number and the next. The two
rules of a pair are the same with `x` and `y` exchanged. Binding the sockets and the messages on the terminal
are left out, with the call of `local_address` in them. What arrived is recorded in `log`.
-/

namespace Sponge

namespace Bouncer

open EventLoop (Rule)

/-- A datagram that came in: at which socket, where from, and its payload. -/
structure Arrival where
  socket : Nat
  source : InetAddress
  payload : Bytes
deriving DecidableEq

/-- What the rules' closures share. -/
structure State where
  sockets : Nat → UDPSocket := fun _ => {}
  peers : Nat → Option InetAddress := fun _ => none
  log : List Arrival := []

/-- What the kernel answers to the calls one callback may make. -/
structure Answers where
  datagram : Answer (InetAddress × Bytes) := .error 0
  sent : Answer Unit := .ok ()

/-- The other socket of the pair. -/
def partner (n : Nat) : Nat := if n % 2 = 0 then n + 1 else n - 1

/-- The callback of a socket: remember where the datagram came from, and send it on unless it is empty. -/
def bounce (n : Nat) (answers : Answers) (s : State) : Except Failure State := do
  let (socket, source, payload) ← (s.sockets n).recv 65536 answers.datagram
  let sockets := Function.update s.sockets n socket
  let peers := if s.peers n ≠ some source then Function.update s.peers n (some source) else s.peers
  let log := s.log ++ [⟨n, source, payload⟩]
  match peers (partner n) with
  | none => return { sockets, peers, log }
  | some peer =>
    if payload.isEmpty then return { sockets, peers, log }
    else
      let other ← (sockets (partner n)).sendto peer payload answers.sent
      return { sockets := Function.update sockets (partner n) other, peers, log }

/-- The event loop's rules. -/
def rule (n : Nat) : Rule State Answers where
  fd := fun s => (s.sockets n).fd
  direction := .In
  callback := bounce n

/-- Two rules for each pair. The program has 31489 pairs, on the ports 1024 to 64001. -/
def rules (pairs : Nat) : List Nat := List.range (2 * pairs)

end Bouncer

end Sponge
