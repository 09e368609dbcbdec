import Sponge.Util.FileDescriptor

/-!
# The event loop

`libsponge/util/eventloop.cc`, over any state `σ` that the rules' closures share. A rule is known by a name
of some type `ρ`, and the loop holds the names of the rules that were added and not cancelled; no closure
in the repository adds a rule while the loop runs. What the kernel answers to `poll` is an argument, and so
is, for each ready descriptor, what it answers to the system calls of the rule's callback, of type `κ`.

`wait_next_event` walks the rules twice. The first walk cancels the rules that are through and asks the
others whether they are interested; the second serves those that were interested then. A callback may so
run although its rule has lost its interest meanwhile, through a callback served before it.
-/

namespace Sponge

namespace EventLoop

/-- What a rule polls for. -/
inductive Direction
  | In
  | Out
deriving DecidableEq, Repr

/-- A rule: the descriptor it watches, and its closures. -/
structure Rule (σ κ : Type) where
  fd : σ → FileDescriptor
  direction : Direction
  callback : κ → σ → Except Failure σ
  interest : σ → Bool := fun _ => true
  cancel : σ → σ := id

namespace Rule

variable {σ κ : Type} (rule : Rule σ κ) (s : σ)

/-- `service_count`. -/
def serviceCount : UInt32 :=
  match rule.direction with
  | .In => (rule.fd s).readCount
  | .Out => (rule.fd s).writeCount

/-- The first walk drops the rule: there is no more to read, or the descriptor is closed. -/
def through : Bool := decide (rule.direction = .In) && (rule.fd s).eof || (rule.fd s).closed

end Rule

/-- What `poll` reports of a descriptor: an error, a hangup, and whether what was asked for is the case,
with the answers to the system calls that then follow. -/
structure Revents (κ : Type) where
  error : Bool := false
  hangup : Bool := false
  ready : Option κ := none

/-- What `poll` answers. An error other than an interruption is caught and forgotten. -/
inductive Poll (ρ κ : Type)
  | interrupted
  | failed
  | timeout
  | ready (revents : ρ → Revents κ)

inductive Result
  | success
  | timeout
  | exit
deriving DecidableEq, Repr

variable {ρ σ κ : Type} (rule : ρ → Rule σ κ)

/-- The first walk of `wait_next_event`: the rules that stay, each with whether it is interested. -/
def setUp : List ρ → σ → List (ρ × Bool) × σ
  | [], s => ([], s)
  | r :: rules, s =>
    if (rule r).through s then setUp rules ((rule r).cancel s)
    else
      let rest := setUp rules s
      ((r, (rule r).interest s) :: rest.1, rest.2)

def pollError : Failure := .exn (.runtimeError "EventLoop: error on polled file descriptor")

def busyWait : Failure :=
  .exn (.runtimeError "EventLoop: busy wait detected: callback did not read/write fd and is still interested")

/-- The service of a ready rule: its callback, and the check that it did something. -/
def service (r : ρ) (answers : κ) (s : σ) : Except Failure σ := do
  let s' ← (rule r).callback answers s
  if (rule r).serviceCount s = (rule r).serviceCount s' ∧ (rule r).interest s' then throw busyWait
  else return s'

/-- The second walk: the rules that stay, and the state they leave. -/
def serve (revents : ρ → Revents κ) : List (ρ × Bool) → σ → Except Failure (List ρ × σ)
  | [], s => .ok ([], s)
  | (r, asked) :: rules, s =>
    if (revents r).error then .error pollError
    else
      match if asked then (revents r).ready else none with
      | some answers => do
        let s' ← service rule r answers s
        let rest ← serve revents rules s'
        return (r :: rest.1, rest.2)
      | none =>
        if (revents r).hangup ∧ asked then serve revents rules ((rule r).cancel s)
        else do
          let rest ← serve revents rules s
          return (r :: rest.1, rest.2)

/-- `wait_next_event`: the result, the rules that are left, and the state. -/
def waitNextEvent (rules : List ρ) (s : σ) (poll : Poll ρ κ) : Except Failure (Result × List ρ × σ) :=
  let polled := setUp rule rules s
  let kept := polled.1.map Prod.fst
  if polled.1.all fun p => !p.2 then .ok (.exit, kept, polled.2)
  else
    match poll with
    | .interrupted => .ok (.exit, kept, polled.2)
    | .timeout => .ok (.timeout, kept, polled.2)
    | .failed => .ok (.success, kept, polled.2)
    | .ready revents => do
      let served ← serve rule revents polled.1 polled.2
      return (.success, served.1, served.2)

end EventLoop

end Sponge
