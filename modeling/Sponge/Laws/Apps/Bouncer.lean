import Mathlib.Data.List.TakeWhile
import Sponge.Apps.Bouncer
import Sponge.Laws.Net.FdAdapter

/-!
# Laws.Apps.Bouncer — what arrives at a socket leaves by its partner

The bouncer is a pair of pipes for datagrams (`bounce_exact`). What was sent from a socket is exactly what
arrived at its partner, in that order and once each, except for what is empty and for what came before this
socket had heard from anybody. And it was sent to addresses that this socket had heard from.
-/

namespace Sponge

namespace Bouncer

open EventLoop (Upholds Kernel)

variable {n m : Nat} {s s' : State} {answers : Answers} {log : List Arrival}

theorem partner_ne (n : Nat) : partner n ≠ n := by
  unfold partner
  split <;> omega

theorem partner_partner (n : Nat) : partner (partner n) = n := by
  unfold partner
  split <;> split <;> omega

/-- Something has arrived at the socket. -/
def Known (n : Nat) (log : List Arrival) : Prop := ∃ a ∈ log, a.socket = n

instance (n : Nat) (log : List Arrival) : Decidable (Known n log) :=
  inferInstanceAs (Decidable (∃ a ∈ log, a.socket = n))

/-- What arrived at the partner since something has arrived here, but for what is empty. -/
def relayed (n : Nat) (log : List Arrival) : List Bytes :=
  ((log.dropWhile fun a => a.socket ≠ n).filter fun a =>
    a.socket = partner n ∧ a.payload ≠ []).map Arrival.payload

theorem relayed_append (n : Nat) (log : List Arrival) (a : Arrival) :
    relayed n (log ++ [a]) = relayed n log ++
      if Known n log ∧ a.socket = partner n ∧ a.payload ≠ [] then [a.payload] else [] := by
  have hdrop : (log.dropWhile fun a => a.socket ≠ n) = [] ↔ ¬Known n log := by
    unfold Known
    simp [List.dropWhile_eq_nil_iff]
  unfold relayed
  rw [List.dropWhile_append]
  by_cases hknown : Known n log
  · have hsome := mt hdrop.mp (not_not.mpr hknown)
    rw [if_neg (by simpa using hsome), List.filter_append, List.map_append]
    by_cases hrelay : a.socket = partner n ∧ a.payload ≠ []
    · simp [hknown, hrelay]
    · simp [hknown, hrelay]
  · rw [if_pos (by simpa using hdrop.mpr hknown), hdrop.mpr hknown, if_neg fun h => hknown h.1]
    by_cases hhere : a.socket = n
    · simp [hhere, (partner_ne n).symm]
    · simp [hhere]

/-- What a callback does: one datagram is taken, its source is the peer from then on, and it is sent on from
the partner if that has a peer. -/
structure Bounces (n : Nat) (source : InetAddress) (payload : Bytes) (s s' : State) : Prop where
  log : s'.log = s.log ++ [⟨n, source, payload⟩]
  peers : s'.peers = Function.update s.peers n (some source)
  sent : ∀ m, (s'.sockets m).sent = (s.sockets m).sent ++
    if m = partner n ∧ payload ≠ [] then (s.peers m).toList.map fun peer => (peer, payload) else []
  count : (s'.sockets n).fd.readCount = (s.sockets n).fd.readCount + 1

theorem bounce_ok (called : bounce n answers s = .ok s') :
    ∃ source payload, answers.datagram = .ok (source, payload) ∧ Bounces n source payload s s' := by
  obtain ⟨⟨socket, source, payload⟩, hrecv, hrest⟩ := bind_ok called
  obtain ⟨hanswer, rfl⟩ := UDPSocket.recv_ok hrecv
  refine ⟨source, payload, hanswer, ?_⟩
  have hpeers : (if s.peers n ≠ some source then Function.update s.peers n (some source) else s.peers) =
      Function.update s.peers n (some source) := by
    split
    · rfl
    next hsame => rw [← not_not.mp hsame, Function.update_eq_self]
  have hother : Function.update s.peers n (some source) (partner n) = s.peers (partner n) :=
    Function.update_of_ne (partner_ne n) _ _
  have hsent (m : Nat) : (Function.update s.sockets n { s.sockets n with
      fd := (s.sockets n).fd.registerRead } m).sent = (s.sockets m).sent := by
    by_cases hm : m = n
    · rw [hm, Function.update_self]
    · rw [Function.update_of_ne hm]
  have hcount : (Function.update s.sockets n { s.sockets n with
      fd := (s.sockets n).fd.registerRead } n).fd.readCount = (s.sockets n).fd.readCount + 1 := by
    rw [Function.update_self]
    rfl
  dsimp only at hrest
  rw [hpeers, hother] at hrest
  generalize Function.update s.sockets n _ = sockets at *
  cases hpeer : s.peers (partner n) with
  | none =>
    rw [hpeer] at hrest
    cases hrest
    refine ⟨rfl, rfl, fun m => ?_, hcount⟩
    rw [hsent]
    split
    next hm => rw [hm.1, hpeer, Option.toList_none, List.map_nil, List.append_nil]
    next => rw [List.append_nil]
  | some peer =>
    rw [hpeer] at hrest
    dsimp only at hrest
    split at hrest
    next hempty =>
      cases hrest
      refine ⟨rfl, rfl, fun m => ?_, hcount⟩
      rw [hsent, if_neg fun h => h.2 (List.isEmpty_iff.mp hempty), List.append_nil]
    next hfull =>
      obtain ⟨other, hsend, hdone⟩ := bind_ok hrest
      cases hdone
      refine ⟨rfl, rfl, fun m => ?_, ?_⟩
      · dsimp only
        by_cases hm : m = partner n
        · have hpayload : payload ≠ [] := fun hnil => hfull (List.isEmpty_iff.mpr hnil)
          rw [if_pos ⟨hm, hpayload⟩, hm, Function.update_self, UDPSocket.sendto_ok hsend, hsent, hpeer]
          rfl
        · rw [Function.update_of_ne hm, hsent, if_neg fun h => hm h.1, List.append_nil]
      · dsimp only
        rw [Function.update_of_ne (partner_ne n).symm]
        exact hcount

/-- What the bouncer has sent and remembers is what arrived. -/
structure Exact (s : State) : Prop where
  peers : ∀ n, s.peers n = (s.log.filter fun a => a.socket = n).getLast?.map Arrival.source
  sent : ∀ n, (s.sockets n).sent.map Prod.snd = relayed n s.log
  known : ∀ n, ∀ sent ∈ (s.sockets n).sent, ∃ a ∈ s.log, a.socket = n ∧ a.source = sent.1

theorem exact_new : Exact {} :=
  ⟨fun _ => rfl, fun _ => rfl, fun _ _ hsent => absurd hsent List.not_mem_nil⟩

/-- A socket has a peer if something has arrived at it. -/
theorem Exact.peer_cases (h : Exact s) (n : Nat) :
    ¬Known n s.log ∧ s.peers n = none ∨ ∃ a ∈ s.log, a.socket = n ∧ s.peers n = some a.source := by
  rw [h.peers n]
  cases hlast : (s.log.filter fun a => a.socket = n).getLast? with
  | none =>
    refine .inl ⟨fun ⟨a, ha, hsocket⟩ => ?_, rfl⟩
    have hmem : a ∈ s.log.filter fun a => a.socket = n := List.mem_filter.mpr ⟨ha, decide_eq_true hsocket⟩
    rw [List.getLast?_eq_none_iff.mp hlast] at hmem
    exact absurd hmem List.not_mem_nil
  | some a =>
    obtain ⟨ha, hsocket⟩ := List.mem_filter.mp (List.mem_of_getLast? hlast)
    exact .inr ⟨a, ha, of_decide_eq_true hsocket, rfl⟩

theorem Exact.bounces (h : Exact s) {source : InetAddress} {payload : Bytes}
    (bounces : Bounces n source payload s s') : Exact s' := by
  refine ⟨fun m => ?_, fun m => ?_, fun m sent hmem => ?_⟩
  · rw [bounces.peers, bounces.log, List.filter_append]
    by_cases hm : m = n
    · rw [hm, Function.update_self]
      simp
    · rw [Function.update_of_ne hm, h.peers m]
      simp [Ne.symm hm]
  · rw [bounces.sent, bounces.log, relayed_append, List.map_append, h.sent]
    congr 1
    have hpartner : m = partner n ↔ n = partner m := by
      constructor <;> (rintro rfl; exact (partner_partner _).symm)
    rcases h.peer_cases m with ⟨hunknown, hpeer⟩ | ⟨a, ha, hsocket, hpeer⟩
    · rw [hpeer]
      split <;> (rw [if_neg fun hc => hunknown hc.1]; rfl)
    · have hknown : Known m s.log := ⟨a, ha, hsocket⟩
      rw [hpeer]
      by_cases hrelay : m = partner n ∧ payload ≠ []
      · rw [if_pos hrelay, if_pos ⟨hknown, hpartner.mp hrelay.1, hrelay.2⟩]
        rfl
      · rw [if_neg hrelay, if_neg fun hc => hrelay ⟨hpartner.mpr hc.2.1, hc.2.2⟩]
        rfl
  · rw [bounces.sent] at hmem
    rw [bounces.log]
    rcases List.mem_append.mp hmem with hold | hnew
    · obtain ⟨a, ha, hsource⟩ := h.known m sent hold
      exact ⟨a, List.mem_append_left _ ha, hsource⟩
    · split at hnew
      · rcases h.peer_cases m with ⟨-, hpeer⟩ | ⟨a, ha, hsocket, hpeer⟩
        · rw [hpeer] at hnew
          exact absurd hnew List.not_mem_nil
        · rw [hpeer] at hnew
          rw [List.mem_singleton.mp hnew]
          exact ⟨a, List.mem_append_left _ ha, hsocket, rfl⟩
      · exact absurd hnew List.not_mem_nil

/-- Whatever holds of all payloads that arrived holds of all that were sent on. -/
theorem Exact.relays (h : Exact s) {Q : Bytes → Prop} (good : ∀ a ∈ s.log, Q a.payload)
    {sent : InetAddress × Bytes} (was : sent ∈ (s.sockets n).sent) : Q sent.2 := by
  have hmem : sent.2 ∈ relayed n s.log := h.sent n ▸ List.mem_map_of_mem was
  obtain ⟨a, ha, hpayload⟩ := List.mem_map.mp hmem
  rw [← hpayload]
  exact good a ((List.dropWhile_sublist _).subset (List.mem_of_mem_filter ha))

theorem bounce_error {e : Failure} (failed : bounce n answers s = .error e) : e.OfKernel := by
  rcases bind_error failed with hrecv | ⟨⟨socket, source, payload⟩, -, hrest⟩
  · exact UDPSocket.recv_error hrecv
  · dsimp only at hrest
    split at hrest
    · cases hrest
    · split at hrest
      · cases hrest
      · rcases bind_error hrest with hsend | ⟨other, -, hdone⟩
        · exact UDPSocket.sendto_error hsend
        · cases hdone

/-- All payloads that arrive are of this kind. -/
def hearing (Q : Bytes → Prop) : Kernel Nat Answers where
  answers := fun _ answers => ∀ source payload, answers.datagram = .ok (source, payload) → Q payload
  hangs := fun _ => True

theorem hearing_polls (poll : EventLoop.Poll Nat Answers) : (hearing fun _ => True).Polls poll := by
  cases poll with
  | ready revents => exact fun _ => ⟨fun _ _ _ _ _ => trivial, fun _ => trivial⟩
  | _ => trivial

/-- **The rules keep what was sent exact.** -/
theorem upholds (Q : Bytes → Prop) :
    Upholds rule (hearing Q) (fun _ _ s => Exact s ∧ ∀ a ∈ s.log, Q a.payload) fun _ _ => True where
  spare := id
  cancel := fun _ h => h
  asks := fun _ _ _ _ => trivial
  owedCancel := fun _ _ => trivial
  owedCallback := fun _ _ _ _ _ => trivial
  callback := by
    intro n rules r answers s s' _ h _ hfair hcalled
    obtain ⟨source, payload, hanswer, hbounces⟩ := bounce_ok hcalled
    refine ⟨h.1.bounces hbounces, fun a ha => ?_⟩
    rw [hbounces.log] at ha
    rcases List.mem_append.mp ha with hold | hnew
    · exact h.2 a hold
    · rw [List.mem_singleton.mp hnew]
      exact hfair source payload hanswer
  busy := by
    intro n rules r answers s s' _ _ _ _ hcalled
    obtain ⟨source, payload, -, hbounces⟩ := bounce_ok hcalled
    left
    show (s.sockets r).fd.readCount ≠ (s'.sockets r).fd.readCount
    rw [hbounces.count]
    exact FileDescriptor.count_ne_add (by decide)

end Bouncer

end Sponge
