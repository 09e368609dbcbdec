import Mathlib.Data.List.Nodup
import Sponge.Lib.Run
import Sponge.Util.EventLoop

/-!
# Laws.Util.EventLoop — what a walk over the rules keeps

An invariant of an event loop is a relation between the rules that are left and the shared state. A rule's
callback is served some time after the rule was asked for its interest, so it cannot rely on the interest
itself. `Upholds` asks for a second predicate: `Owed r` is what the interest of `r` gives and the closures
of the other rules leave alone, so that it still holds when the turn of `r` comes.

The invariant is indexed by a budget: `P n` holds with `n` closures still to be called, and each call may
use one of them up. A walk calls each rule once at most, so what it needs is known beforehand. Where no
budget is needed the index is ignored. `Kernel` is what is assumed of the answers.

From that follows what `wait_next_event` keeps (`Upholds.wait`), that a failure is an error of `poll` or a
failure of some callback, and never the busy wait the loop checks for (`Upholds.wait_error`), and what it
means that the loop has nothing more to do (`wait_exit`).
-/

namespace Sponge

/-- A computation that returns has returned at each of its steps. -/
theorem bind_ok {ε α β : Type} {x : Except ε α} {f : α → Except ε β} {b : β} (h : x >>= f = .ok b) :
    ∃ a, x = .ok a ∧ f a = .ok b := by
  cases x with
  | error e => cases h
  | ok a => exact ⟨a, rfl, h⟩

/-- A computation that throws has thrown at one of its steps. -/
theorem bind_error {ε α β : Type} {x : Except ε α} {f : α → Except ε β} {e : ε} (h : x >>= f = .error e) :
    x = .error e ∨ ∃ a, x = .ok a ∧ f a = .error e := by
  cases x with
  | error e' =>
    cases h
    exact .inl rfl
  | ok a => exact .inr ⟨a, rfl, h⟩

/-- A test that is passed is passed by what was returned. -/
theorem ok_of_any {ε α : Type} {x : Except ε α} {test : α → Bool} (h : x.toOption.any test = true) :
    ∃ a, x = .ok a ∧ test a = true := by
  cases x with
  | error e => cases h
  | ok a => exact ⟨a, rfl, h⟩

/-- The kernel is to blame: it reports an error, or it answers what it must not. -/
inductive Failure.OfKernel : Failure → Prop
  | call (attempt : String) (errno : Nat) : OfKernel (.unixError attempt errno)
  | readMore : OfKernel (.exn (.runtimeError "read() read more than requested"))
  | wroteNone : OfKernel (.exn (.runtimeError "write returned 0 given non-empty input buffer"))
  | wroteMore : OfKernel (.exn (.runtimeError "write wrote more than length of input buffer"))
  | oversized : OfKernel (.exn (.runtimeError "recvfrom (oversized datagram)"))

theorem systemCall_error {α : Type} {attempt : String} {answer : Answer α} {e : Failure}
    (h : systemCall attempt answer = .error e) : e.OfKernel := by
  cases answer with
  | error errno =>
    cases h
    exact .call attempt errno
  | ok value => cases h

namespace FileDescriptor

variable {fd fd' : FileDescriptor} {limit n : Nat} {data buffer : Bytes} {e : Failure}

theorem read_ok {answer : Answer Bytes} (h : fd.read limit answer = .ok (fd', data)) :
    data.length ≤ limit ∧ fd' = { fd with
      eof := fd.eof || decide (0 < limit) && data.isEmpty
      readCount := fd.readCount + 1
      received := fd.received ++ data } := by
  obtain ⟨str, -, h⟩ := bind_ok h
  split at h
  · cases h
  next hshort =>
    cases h
    exact ⟨by omega, rfl⟩

theorem read_data {answer : Answer Bytes} (h : fd.read limit answer = .ok (fd', data)) :
    answer = .ok data := by
  obtain ⟨str, hcall, hrest⟩ := bind_ok h
  split at hrest
  · cases hrest
  · cases hrest
    cases answer with
    | error errno => cases hcall
    | ok value => rw [Except.ok.inj hcall]

theorem read_error {answer : Answer Bytes} (h : fd.read limit answer = .error e) : e.OfKernel := by
  rcases bind_error h with hcall | ⟨str, -, h⟩
  · exact systemCall_error hcall
  · split at h
    · cases h
      exact .readMore
    · cases h

theorem writev_ok {answer : Answer Nat} (h : fd.writev buffer answer = .ok (fd', n)) :
    n ≤ buffer.length ∧ fd' = { fd with
      writeCount := fd.writeCount + 1
      delivered := fd.delivered ++ buffer.take n
      packets := fd.packets ++ [buffer.take n] } := by
  obtain ⟨count, -, h⟩ := bind_ok h
  split at h
  · cases h
  · split at h
    · cases h
    next hshort =>
      cases h
      exact ⟨by omega, rfl⟩

theorem writev_error {answer : Answer Nat} (h : fd.writev buffer answer = .error e) : e.OfKernel := by
  rcases bind_error h with hcall | ⟨str, -, h⟩
  · exact systemCall_error hcall
  · split at h
    · cases h
      exact .wroteNone
    · split at h
      · cases h
        exact .wroteMore
      · cases h

theorem writev_count {answer : Answer Nat} (h : fd.writev buffer answer = .ok (fd', n)) :
    answer = .ok n := by
  obtain ⟨count, hcall, hrest⟩ := bind_ok h
  split at hrest
  · cases hrest
  · split at hrest
    · cases hrest
    · cases hrest
      cases answer with
      | error errno => cases hcall
      | ok value => rw [Except.ok.inj hcall]

theorem send_ok {packet : Bytes} {answer : Answer Unit} (h : fd.send packet answer = .ok fd') :
    fd' = { fd with
      writeCount := fd.writeCount + 1
      delivered := fd.delivered ++ packet
      packets := fd.packets ++ [packet] } := by
  obtain ⟨⟨written, n⟩, hwritten, h⟩ := bind_ok h
  cases h
  have hcount := writev_count hwritten
  obtain ⟨-, rfl⟩ := writev_ok hwritten
  cases answer with
  | error errno => cases hcount
  | ok _ =>
    obtain rfl : packet.length = n := Except.ok.inj hcount
    rw [List.take_length]

theorem send_error {packet : Bytes} {answer : Answer Unit} (h : fd.send packet answer = .error e) :
    e.OfKernel := by
  rcases bind_error h with hwrite | ⟨_, _, h⟩
  · exact writev_error hwrite
  · cases h

theorem close_error {answer : Answer Unit} (h : fd.close answer = .error e) : e.OfKernel := by
  rcases bind_error h with hcall | ⟨-, -, h⟩
  · exact systemCall_error hcall
  · cases h

theorem shutdown_error {how : How} {answer : Answer Unit} (h : fd.shutdown how answer = .error e) :
    e.OfKernel := by
  rcases bind_error h with hcall | ⟨-, -, h⟩
  · exact systemCall_error hcall
  · cases how <;> cases h

/-- Counting a few calls more changes a count. -/
theorem count_ne_add {count more : UInt32} (some : more ≠ 0) : count ≠ count + more := by
  intro h
  refine some (UInt32.toNat_inj.mp ?_)
  have hcount := congrArg UInt32.toNat h
  have hless := count.toNat_lt
  have hless' := more.toNat_lt
  rw [UInt32.toNat_add] at hcount
  show more.toNat = 0
  omega

end FileDescriptor

namespace EventLoop

/-- What is assumed of the kernel: the answers to a rule's callback, and the rules whose descriptor may
hang up. -/
structure Kernel (ρ κ : Type) where
  answers : ρ → κ → Prop
  hangs : ρ → Prop

/-- Nothing is assumed. -/
def Kernel.any (ρ κ : Type) : Kernel ρ κ := ⟨fun _ _ => True, fun _ => True⟩

variable {ρ σ κ : Type} {rule : ρ → Rule σ κ} {kernel : Kernel ρ κ} {P : Nat → List ρ → σ → Prop}
  {Owed : ρ → σ → Prop} {rules kept pre : List ρ} {r : ρ} {s s' : σ} {revents : ρ → Revents κ}
  {polled : List (ρ × Bool)} {n : Nat}

/-- What `poll` reports is as assumed. -/
def Kernel.Reports (kernel : Kernel ρ κ) (revents : ρ → Revents κ) : Prop :=
  ∀ r, (∀ answers, (revents r).ready = some answers → kernel.answers r answers) ∧
    ((revents r).hangup = true → kernel.hangs r)

/-- What `poll` answers is as assumed. -/
def Kernel.Polls (kernel : Kernel ρ κ) : Poll ρ κ → Prop
  | .ready revents => kernel.Reports revents
  | _ => True

theorem Kernel.Polls.mono {kernel kernel' : Kernel ρ κ} {poll : Poll ρ κ} (h : kernel.Polls poll)
    (answers : ∀ r a, kernel.answers r a → kernel'.answers r a)
    (hangs : ∀ r, kernel.hangs r → kernel'.hangs r) : kernel'.Polls poll := by
  cases poll with
  | ready revents =>
    exact fun r => ⟨fun a hready => answers r a ((h r).1 a hready), fun hhung => hangs r ((h r).2 hhung)⟩
  | _ => trivial

/-- One descriptor is ready. -/
def Poll.only [DecidableEq ρ] (r : ρ) (answers : κ) : Poll ρ κ :=
  .ready fun r' => if r' = r then { ready := some answers } else {}

theorem Kernel.polls_only [DecidableEq ρ] {answers : κ} (fair : kernel.answers r answers) :
    kernel.Polls (.only r answers) := by
  intro r'
  dsimp only
  by_cases hr : r' = r
  · rw [if_pos hr, hr]
    exact ⟨fun _ hready => Option.some.inj hready ▸ fair, fun hhung => absurd hhung Bool.false_ne_true⟩
  · rw [if_neg hr]
    exact ⟨fun _ hready => (by cases hready), fun hhung => absurd hhung Bool.false_ne_true⟩

theorem Kernel.any_polls (poll : Poll ρ κ) : (Kernel.any ρ κ).Polls poll := by
  cases poll with
  | ready revents => exact fun _ => ⟨fun _ _ => trivial, fun _ => trivial⟩
  | _ => trivial

/-- The closures of the rules uphold an invariant. -/
structure Upholds (rule : ρ → Rule σ κ) (kernel : Kernel ρ κ) (P : Nat → List ρ → σ → Prop)
    (Owed : ρ → σ → Prop) : Prop where
  spare : ∀ {n rules s}, P (n + 1) rules s → P n rules s
  cancel : ∀ {n pre r post s}, (rule r).through s = true ∨ kernel.hangs r → P (n + 1) (pre ++ r :: post) s →
    P n (pre ++ post) ((rule r).cancel s)
  asks : ∀ {n rules r s}, r ∈ rules → P n rules s → (rule r).through s = false →
    (rule r).interest s = true → Owed r s
  owedCancel : ∀ {r r' s}, r ≠ r' → Owed r s → Owed r ((rule r').cancel s)
  owedCallback : ∀ {n rules r r' answers s s'}, r ≠ r' → P n rules s → Owed r s →
    kernel.answers r' answers → (rule r').callback answers s = .ok s' → Owed r s'
  callback : ∀ {n rules r answers s s'}, r ∈ rules → P (n + 1) rules s → Owed r s → kernel.answers r answers →
    (rule r).callback answers s = .ok s' → P n rules s'
  busy : ∀ {n rules r answers s s'}, r ∈ rules → P n rules s → Owed r s → kernel.answers r answers →
    (rule r).callback answers s = .ok s' →
    (rule r).serviceCount s ≠ (rule r).serviceCount s' ∨ (rule r).interest s' = false

theorem service_ok {answers : κ} (h : service rule r answers s = .ok s') :
    (rule r).callback answers s = .ok s' := by
  obtain ⟨called, hcall, h⟩ := bind_ok h
  split at h
  · cases h
  · cases h
    exact hcall

/-- A service that fails has a callback that fails: the check behind the callback never does. -/
theorem Upholds.service_error (h : Upholds rule kernel P Owed) (here : r ∈ rules) (inv : P n rules s)
    (owed : Owed r s) {answers : κ} (fair : kernel.answers r answers) {e : Failure}
    (failed : service rule r answers s = .error e) : (rule r).callback answers s = .error e := by
  rcases bind_error failed with hcall | ⟨called, hcall, failed⟩
  · exact hcall
  · split at failed
    next hbusy =>
      exfalso
      rcases h.busy here inv owed fair hcall with hcount | hquiet
      · exact hcount hbusy.1
      · rw [hquiet] at hbusy
        exact absurd hbusy.2 Bool.false_ne_true
    next => cases failed

/-! ## The first walk -/

theorem setUp_sublist (rule : ρ → Rule σ κ) (rules : List ρ) (s : σ) :
    ((setUp rule rules s).1.map Prod.fst).Sublist rules := by
  induction rules generalizing s with
  | nil => exact .slnil
  | cons r rules ih =>
    unfold setUp
    split
    · exact (ih _).cons r
    · exact (ih s).cons_cons r

/-- The first walk keeps the invariant, what was owed to others, and owes to each rule that is interested.
It keeps as much of the budget as the second walk needs. -/
theorem Upholds.keeps_setUp (h : Upholds rule kernel P Owed) (pre : List ρ) (nodup : (pre ++ rules).Nodup)
    (inv : P (n + rules.length) (pre ++ rules) s) :
    P (n + (setUp rule rules s).1.length) (pre ++ (setUp rule rules s).1.map Prod.fst)
        (setUp rule rules s).2 ∧
      (∀ r, r ∉ rules → Owed r s → Owed r (setUp rule rules s).2) ∧
      ∀ p ∈ (setUp rule rules s).1, p.2 = true → Owed p.1 (setUp rule rules s).2 := by
  induction rules generalizing s pre n with
  | nil => exact ⟨inv, fun _ _ howed => howed, fun _ hp => absurd hp List.not_mem_nil⟩
  | cons r rules ih =>
    obtain ⟨hfresh, -⟩ := List.nodup_cons.mp nodup.of_append_right
    unfold setUp
    split
    next hthrough =>
      have hrest : (pre ++ rules).Nodup := nodup.sublist ((List.sublist_cons_self r rules).append_left pre)
      obtain ⟨hinv, howed, hasked⟩ := ih pre hrest (h.cancel (.inl hthrough) inv)
      refine ⟨hinv, fun q hq hold => howed q (fun hc => hq (List.mem_cons_of_mem r hc)) ?_, hasked⟩
      exact h.owedCancel (fun hc => hq (hc ▸ List.mem_cons_self)) hold
    next hstays =>
      have hmoved : pre ++ r :: rules = pre ++ [r] ++ rules := by simp
      have hbudget : n + (r :: rules).length = n + 1 + rules.length := by
        rw [List.length_cons]
        omega
      obtain ⟨hinv, howed, hasked⟩ := ih (pre ++ [r]) (hmoved ▸ nodup) (hbudget ▸ hmoved ▸ inv)
      refine ⟨?_, fun q hq hold => howed q (fun hc => hq (List.mem_cons_of_mem r hc)) hold,
        fun p hp hask => ?_⟩
      · rw [List.append_assoc, Nat.add_assoc, Nat.add_comm 1] at hinv
        exact hinv
      · rcases List.mem_cons.mp hp with rfl | hp
        · refine howed r hfresh (h.asks (List.mem_append_right _ List.mem_cons_self) inv ?_ hask)
          exact eq_false_of_ne_true hstays
        · exact hasked p hp hask

/-! ## The second walk -/

/-- One turn of the second walk. -/
theorem serve_cons (rule : ρ → Rule σ κ) (revents : ρ → Revents κ) (r : ρ) (asked : Bool)
    (polled : List (ρ × Bool)) (s : σ) :
    serve rule revents ((r, asked) :: polled) s = .error pollError ∨
      (∃ answers, asked = true ∧ (revents r).ready = some answers ∧
        serve rule revents ((r, asked) :: polled) s = (service rule r answers s).bind fun s' =>
          (serve rule revents polled s').map fun rest => (r :: rest.1, rest.2)) ∨
      (revents r).hangup = true ∧
        serve rule revents ((r, asked) :: polled) s = serve rule revents polled ((rule r).cancel s) ∨
      serve rule revents ((r, asked) :: polled) s =
        (serve rule revents polled s).map fun rest => (r :: rest.1, rest.2) := by
  rw [serve]
  split
  · exact .inl rfl
  · right
    split
    next answers hready =>
      cases asked with
      | true =>
        refine .inl ⟨answers, rfl, hready, ?_⟩
        simp only [bind, Except.bind, pure, Except.pure, Except.map]
      | false => cases hready
    next =>
      right
      split
      next hhung => exact .inl ⟨hhung.1, rfl⟩
      next =>
        right
        simp only [bind, Except.bind, pure, Except.pure, Except.map]

/-- What is owed behind the turn of another rule. -/
theorem owed_rest {asked : Bool}
    (nodup : (((r, asked) :: polled).map Prod.fst).Nodup)
    (owed : ∀ p ∈ (r, asked) :: polled, p.2 = true → Owed p.1 s)
    (moved : ∀ {q}, q ≠ r → Owed q s → Owed q s') : ∀ p ∈ polled, p.2 = true → Owed p.1 s' := by
  intro p hp hask
  refine moved (fun hc => ?_) (owed p (List.mem_cons_of_mem _ hp) hask)
  exact (List.nodup_cons.mp nodup).1 (List.mem_map.mpr ⟨p, hp, hc⟩)

/-- A failure is an error of `poll`, or that of a callback whose turn it was. -/
def Blamed (rule : ρ → Rule σ κ) (kernel : Kernel ρ κ) (P : Nat → List ρ → σ → Prop)
    (Owed : ρ → σ → Prop) (e : Failure) : Prop :=
  e = pollError ∨ ∃ n rules r answers s, r ∈ rules ∧ P n rules s ∧ Owed r s ∧ kernel.answers r answers ∧
    (rule r).callback answers s = .error e

/-- What a walk may end in: the invariant with some rules dropped, or a failure. -/
def Ends (rule : ρ → Rule σ κ) (kernel : Kernel ρ κ) (P : Nat → List ρ → σ → Prop) (Owed : ρ → σ → Prop)
    (n : Nat) (pre rules : List ρ) : Except Failure (List ρ × σ) → Prop
  | .ok (kept, s) => P n (pre ++ kept) s ∧ kept.Sublist rules
  | .error e => Blamed rule kernel P Owed e

theorem Ends.cons {walk : Except Failure (List ρ × σ)}
    (h : Ends rule kernel P Owed n (pre ++ [r]) rules walk) :
    Ends rule kernel P Owed n pre (r :: rules) (walk.map fun rest => (r :: rest.1, rest.2)) := by
  cases walk with
  | error e => exact h
  | ok rest =>
    obtain ⟨hinv, hsub⟩ := h
    rw [List.append_assoc] at hinv
    exact ⟨hinv, hsub.cons_cons r⟩

theorem Ends.drop {walk : Except Failure (List ρ × σ)} (h : Ends rule kernel P Owed n pre rules walk)
    (r : ρ) :
    Ends rule kernel P Owed n pre (r :: rules) walk := by
  cases walk with
  | error e => exact h
  | ok rest => exact ⟨h.1, h.2.cons r⟩

/-- **The second walk keeps the invariant**, and fails only where a callback does. -/
theorem Upholds.keeps_serve (h : Upholds rule kernel P Owed) (reports : kernel.Reports revents) (pre : List ρ)
    (nodup : (pre ++ polled.map Prod.fst).Nodup)
    (inv : P (n + polled.length) (pre ++ polled.map Prod.fst) s)
    (owed : ∀ p ∈ polled, p.2 = true → Owed p.1 s) :
    Ends rule kernel P Owed n pre (polled.map Prod.fst) (serve rule revents polled s) := by
  induction polled generalizing s pre with
  | nil => exact ⟨inv, .slnil⟩
  | cons p polled ih =>
    obtain ⟨r, asked⟩ := p
    have hmoved : pre ++ ((r, asked) :: polled).map Prod.fst = pre ++ [r] ++ polled.map Prod.fst := by simp
    have hhere : r ∈ pre ++ ((r, asked) :: polled).map Prod.fst :=
      List.mem_append_right _ List.mem_cons_self
    have hright := nodup.of_append_right
    rcases serve_cons rule revents r asked polled s with
      heq | ⟨answers, hask, hready, heq⟩ | ⟨hhung, heq⟩ | heq
    · rw [heq]
      exact .inl rfl
    · rw [heq]
      have howed : Owed r s := owed (r, asked) List.mem_cons_self hask
      have hfair := (reports r).1 answers hready
      cases hservice : service rule r answers s with
      | error e =>
        have hfailed := h.service_error hhere inv howed hfair hservice
        exact .inr ⟨_, _, r, answers, s, hhere, inv, howed, hfair, hfailed⟩
      | ok called =>
        have hcall := service_ok hservice
        have hinv := h.callback hhere inv howed hfair hcall
        refine Ends.cons (ih (pre ++ [r]) (hmoved ▸ nodup) (hmoved ▸ hinv) ?_)
        exact owed_rest hright owed fun hne hold => h.owedCallback hne inv hold hfair hcall
    · rw [heq]
      have hsub : (pre ++ polled.map Prod.fst).Sublist (pre ++ ((r, asked) :: polled).map Prod.fst) :=
        (List.sublist_cons_self r _).append_left pre
      have hinv := h.cancel (.inr ((reports r).2 hhung)) inv
      exact (ih pre (nodup.sublist hsub) hinv (owed_rest hright owed h.owedCancel)).drop r
    · rw [heq]
      refine Ends.cons (ih (pre ++ [r]) (hmoved ▸ nodup) (hmoved ▸ h.spare inv) fun p hp => ?_)
      exact owed p (List.mem_cons_of_mem _ hp)

/-! ## Waiting for an event -/

/-- What `wait_next_event` comes to: what its first walk leaves, or what its second does. -/
theorem wait_cases (rule : ρ → Rule σ κ) (rules : List ρ) (s : σ) (poll : Poll ρ κ) :
    (∃ result, waitNextEvent rule rules s poll =
        .ok (result, (setUp rule rules s).1.map Prod.fst, (setUp rule rules s).2) ∧
      (result = .exit → poll = .interrupted ∨ ∀ p ∈ (setUp rule rules s).1, p.2 = false)) ∨
    ∃ revents, poll = .ready revents ∧ waitNextEvent rule rules s poll =
      (serve rule revents (setUp rule rules s).1 (setUp rule rules s).2).map fun served =>
        (.success, served.1, served.2) := by
  unfold waitNextEvent
  dsimp only
  split
  next hnone =>
    refine .inl ⟨.exit, rfl, fun _ => .inr fun p hp => ?_⟩
    simpa using List.all_eq_true.mp hnone p hp
  next =>
    cases poll with
    | interrupted => exact .inl ⟨.exit, rfl, fun _ => .inl rfl⟩
    | timeout => exact .inl ⟨.timeout, rfl, fun hc => by cases hc⟩
    | failed => exact .inl ⟨.success, rfl, fun hc => by cases hc⟩
    | ready revents =>
      refine .inr ⟨revents, rfl, ?_⟩
      simp only [bind, Except.bind, pure, Except.pure, Except.map]

/-- What the second walk of a call comes to. -/
theorem Upholds.ends_serve (h : Upholds rule kernel P Owed) (nodup : rules.Nodup)
    (inv : P (n + rules.length) rules s) (reports : kernel.Reports revents) :
    Ends rule kernel P Owed n [] ((setUp rule rules s).1.map Prod.fst)
      (serve rule revents (setUp rule rules s).1 (setUp rule rules s).2) := by
  obtain ⟨hinv, -, howed⟩ := h.keeps_setUp [] nodup inv
  exact h.keeps_serve reports [] (nodup.sublist (setUp_sublist rule rules s)) hinv howed

theorem Upholds.spares (h : Upholds rule kernel P Owed) {m : Nat} (inv : P (n + m) rules s) :
    P n rules s := by
  induction m with
  | zero => exact inv
  | succ m ih => exact ih (h.spare inv)

/-- **`wait_next_event` keeps the invariant**, with some rules dropped. -/
theorem Upholds.wait (h : Upholds rule kernel P Owed) (nodup : rules.Nodup)
    (inv : P (n + rules.length) rules s) {poll : Poll ρ κ} (polls : kernel.Polls poll) {result : Result}
    (waited : waitNextEvent rule rules s poll = .ok (result, kept, s')) :
    P n kept s' ∧ kept.Sublist rules := by
  have hsub := setUp_sublist rule rules s
  rcases wait_cases rule rules s poll with ⟨result', heq, -⟩ | ⟨revents, rfl, heq⟩
  · obtain ⟨hinv, -⟩ := h.keeps_setUp [] nodup inv
    rw [heq] at waited
    obtain ⟨-, rfl, rfl⟩ : result' = result ∧ _ = kept ∧ _ = s' := by simpa using waited
    exact ⟨h.spares hinv, hsub⟩
  · have hends := h.ends_serve nodup inv polls
    rw [heq] at waited
    cases hserve : serve rule revents (setUp rule rules s).1 (setUp rule rules s).2 with
    | error e =>
      rw [hserve] at waited
      cases waited
    | ok served =>
      rw [hserve] at waited hends
      cases waited
      exact ⟨hends.1, hends.2.trans hsub⟩

/-- **`wait_next_event` fails only where `poll` or a callback does**: it never finds a busy wait. -/
theorem Upholds.wait_error (h : Upholds rule kernel P Owed) (nodup : rules.Nodup)
    (inv : P (n + rules.length) rules s) {poll : Poll ρ κ} (polls : kernel.Polls poll) {e : Failure}
    (failed : waitNextEvent rule rules s poll = .error e) : Blamed rule kernel P Owed e := by
  rcases wait_cases rule rules s poll with ⟨result', heq, -⟩ | ⟨revents, rfl, heq⟩
  · rw [heq] at failed
    cases failed
  · have hends := h.ends_serve nodup inv polls
    rw [heq] at failed
    cases hserve : serve rule revents (setUp rule rules s).1 (setUp rule rules s).2 with
    | error e' =>
      rw [hserve] at failed hends
      cases failed
      exact hends
    | ok served =>
      rw [hserve] at failed
      cases failed

/-! ## Runs -/

/-- A turn of a loop, on the rules it holds and the shared state. -/
def step (rule : ρ → Rule σ κ) (c : List ρ × σ) (poll : Poll ρ κ) : List ρ × σ :=
  match waitNextEvent rule c.1 c.2 poll with
  | .ok (_, next) => next
  | .error _ => c

/-- Whether the turn does not fail, and another one follows. -/
def goes (rule : ρ → Rule σ κ) (c : List ρ × σ) (poll : Poll ρ κ) : Bool :=
  match waitNextEvent rule c.1 c.2 poll with
  | .ok (result, _) => result != .exit
  | .error _ => false

/-- A loop that has gone on for some turns. -/
abbrev Run (rule : ρ → Rule σ κ) (start c : List ρ × σ) : Prop :=
  Runs.Reach (step rule) (fun c poll => goes rule c poll = true) start c

/-- A turn that does not fail keeps what needs no budget. -/
theorem Upholds.step {Q : List ρ → σ → Prop} (h : Upholds rule kernel (fun _ => Q) Owed) {c : List ρ × σ}
    (nodup : c.1.Nodup) (inv : Q c.1 c.2) {poll : Poll ρ κ} (polls : kernel.Polls poll)
    (goes : goes rule c poll = true) :
    Q (step rule c poll).1 (step rule c poll).2 ∧ (step rule c poll).1.Sublist c.1 := by
  unfold EventLoop.goes at goes
  unfold EventLoop.step
  cases hwait : waitNextEvent rule c.1 c.2 poll with
  | error e =>
    rw [hwait] at goes
    cases goes
  | ok waited => exact h.wait (n := 0) nodup inv polls hwait

/-- **What holds at the start of a loop holds along it**, if it needs no budget and the kernel always answers
as assumed. -/
theorem Upholds.run {Q : List ρ → σ → Prop} (h : Upholds rule kernel (fun _ => Q) Owed)
    (polls : ∀ poll, kernel.Polls poll) (nodup : rules.Nodup) (inv : Q rules s) {c : List ρ × σ}
    (run : Run rule (rules, s) c) : Q c.1 c.2 ∧ c.1.Sublist rules := by
  refine run.invariant (fun c => Q c.1 c.2 ∧ c.1.Sublist rules) ⟨inv, .refl rules⟩ ?_
  intro c poll hc hgoes
  obtain ⟨hinv, hsub⟩ := h.step (nodup.sublist hc.2) hc.1 (polls poll) hgoes
  exact ⟨hinv, hsub.trans hc.2⟩

/-! ## The end of the loop -/

/-- Cancelling a later rule does not wake an earlier one, in a state of these. -/
def Calm (rule : ρ → Rule σ κ) (Q : σ → Prop) (r r' : ρ) : Prop :=
  ∀ s, Q s → (rule r).interest s = false → (rule r).interest ((rule r').cancel s) = false

variable {Q : σ → Prop}

theorem setUp_calm (keeps : ∀ r s, Q s → Q ((rule r).cancel s)) (calm : ∀ r' ∈ rules, Calm rule Q r r')
    (inv : Q s) (quiet : (rule r).interest s = false) : (rule r).interest (setUp rule rules s).2 = false := by
  induction rules generalizing s with
  | nil => exact quiet
  | cons r' rules ih =>
    obtain ⟨hhead, hrest⟩ := List.forall_mem_cons.mp calm
    unfold setUp
    split
    · exact ih hrest (keeps r' s inv) (hhead s inv quiet)
    · exact ih hrest inv quiet

theorem setUp_quiet (keeps : ∀ r s, Q s → Q ((rule r).cancel s)) (calm : rules.Pairwise (Calm rule Q))
    (inv : Q s) (none : ∀ p ∈ (setUp rule rules s).1, p.2 = false) :
    ∀ p ∈ (setUp rule rules s).1, (rule p.1).interest (setUp rule rules s).2 = false := by
  induction rules generalizing s with
  | nil => exact fun _ hp => absurd hp List.not_mem_nil
  | cons r rules ih =>
    obtain ⟨hhead, hrest⟩ := List.pairwise_cons.mp calm
    unfold setUp at none ⊢
    split
    next hthrough =>
      rw [if_pos hthrough] at none
      exact ih hrest (keeps r s inv) none
    next hstays =>
      rw [if_neg hstays] at none
      obtain ⟨hquiet, hothers⟩ := List.forall_mem_cons.mp none
      exact List.forall_mem_cons.mpr ⟨setUp_calm keeps hhead inv hquiet, ih hrest inv hothers⟩

/-- **The loop ends when no rule that is left is interested**, or by an interruption. -/
theorem wait_exit (keeps : ∀ r s, Q s → Q ((rule r).cancel s)) (calm : rules.Pairwise (Calm rule Q))
    (inv : Q s) {poll : Poll ρ κ}
    (waited : waitNextEvent rule rules s poll = .ok (.exit, kept, s')) :
    poll = .interrupted ∨ ∀ r ∈ kept, (rule r).interest s' = false := by
  rcases wait_cases rule rules s poll with ⟨result, heq, hexit⟩ | ⟨revents, hpoll, heq⟩
  · rw [heq] at waited
    cases waited
    refine (hexit rfl).imp_right fun hnone r hr => ?_
    obtain ⟨p, hp, rfl⟩ := List.mem_map.mp hr
    exact setUp_quiet keeps calm inv hnone p hp
  · rw [heq] at waited
    cases hserve : serve rule revents (setUp rule rules s).1 (setUp rule rules s).2 with
    | error e =>
      rw [hserve] at waited
      cases waited
    | ok served =>
      rw [hserve] at waited
      cases waited

end EventLoop

end Sponge
