import Mathlib.Data.Nat.Bitwise
import Sponge.Laws.Net.Interface
import Sponge.Lib.Leader
import Sponge.Net.Router

/-!
# Laws.Net.Routing — which route a datagram takes

A route matches a destination when the first bits of its prefix, as many as its length says, are those
of the destination (`MapItem.Matches`); the loop of `matched_prefix_length` decides that
(`matchedPrefixLength_iff`). The selection loop compares and stores the *prefix* of a route where its
length was meant, and keeps the low eight bits of it. So it is a scan whose leader is replaced by any
matching route whose prefix is not below the low eight bits of the leader's prefix (`Lib.Leader`), and
`forwards_longest_iff` says for exactly which tables and destinations the route taken is a longest one.

When no route matches, the loop's variables are left as they were before it, and those name a direct
route on the first interface. The last part says what becomes of such a datagram.
-/

namespace Sponge

/-! ## Matching prefixes -/

/-- The first bits of two addresses agree, as many as the length says. -/
def AgreeOn (len : Nat) (a b : UInt32) : Prop := a.toNat / 2 ^ (32 - len) = b.toNat / 2 ^ (32 - len)

/-- The route's prefix is a prefix of the destination. -/
def MapItem.Matches (item : MapItem) (destIp : UInt32) : Prop :=
  AgreeOn item.prefixLength.toNat destIp item.routePrefix

instance (item : MapItem) (destIp : UInt32) : Decidable (item.Matches destIp) :=
  inferInstanceAs (Decidable (_ = _))

/-- Bit `j` of the agreement of two addresses. -/
theorem testBit_agreement (a b : UInt32) {j : Nat} (hj : j < 32) :
    (~~~ (a ^^^ b)).toNat.testBit j = (a.toNat.testBit j == b.toNat.testBit j) := by
  have hlt : (a ^^^ b).toNat < 2 ^ 32 := (a ^^^ b).toNat_lt
  have hnot : (~~~ (a ^^^ b)).toNat = 2 ^ 32 - ((a ^^^ b).toNat + 1) := by
    rw [UInt32.toNat_not, UInt32.size]
    omega
  rw [hnot, Nat.testBit_two_pow_sub_succ hlt, UInt32.toNat_xor, Nat.testBit_xor]
  cases a.toNat.testBit j <;> cases b.toNat.testBit j <;> simp [hj]

/-- Addresses agree on their first bits when those bits are equal, one by one. -/
theorem agreeOn_iff {len : Nat} (hlen : len ≤ 32) (a b : UInt32) :
    AgreeOn len a b ↔ ∀ i < len, a.toNat.testBit (31 - i) = b.toNat.testBit (31 - i) := by
  unfold AgreeOn
  constructor
  · intro heq i hi
    have hbit := congrArg (fun x => Nat.testBit x (len - 1 - i)) heq
    simp only [Nat.testBit_div_two_pow] at hbit
    rwa [show len - 1 - i + (32 - len) = 31 - i by omega] at hbit
  · intro hbits
    apply Nat.eq_of_testBit_eq
    intro j
    rw [Nat.testBit_div_two_pow, Nat.testBit_div_two_pow]
    by_cases hj : j + (32 - len) < 32
    · have hbit := hbits (31 - (j + (32 - len))) (by omega)
      rwa [show 31 - (31 - (j + (32 - len))) = j + (32 - len) by omega] at hbit
    · have hpow : 2 ^ 32 ≤ 2 ^ (j + (32 - len)) := Nat.pow_le_pow_right (by decide) (by omega)
      rw [Nat.testBit_lt_two_pow (Nat.lt_of_lt_of_le a.toNat_lt hpow),
        Nat.testBit_lt_two_pow (Nat.lt_of_lt_of_le b.toNat_lt hpow)]

/-- A single bit of a mask picks out that bit. -/
theorem mask_and_ne_zero {mask : UInt32} {j : Nat} (hmask : mask.toNat = 2 ^ j) (m : UInt32) :
    mask &&& m ≠ 0 ↔ m.toNat.testBit j = true := by
  have hand : (mask &&& m).toNat = 2 ^ j * (m.toNat.testBit j).toNat := by
    rw [UInt32.toNat_and, hmask, Nat.two_pow_and]
  rw [ne_eq, ← UInt32.toNat_inj, hand]
  cases m.toNat.testBit j with
  | false => simp
  | true => simp

/-- The loop of `matched_prefix_length`, with `fuel` bits to go: it reaches a length exactly when the
bits from its place up to the length are ones. -/
theorem le_matchedLen_iff (m : UInt32) {len : UInt8} (hlen : len.toNat ≤ 32) {fuel : Nat} {mask : UInt32}
    {matched : UInt8} (hmask : mask.toNat = 2 ^ fuel / 2) (hmatched : matched.toNat + fuel = 32) :
    len ≤ matchedLen m fuel mask matched ↔
      ∀ i, matched.toNat ≤ i → i < len.toNat → m.toNat.testBit (31 - i) = true := by
  induction fuel generalizing mask matched with
  | zero =>
    rw [matchedLen, UInt8.le_iff_toNat_le]
    exact ⟨fun _ i hi hlt => by omega, fun _ => by omega⟩
  | succ fuel ih =>
    have hbit : mask &&& m ≠ 0 ↔ m.toNat.testBit (31 - matched.toNat) = true := by
      rw [show 31 - matched.toNat = fuel by omega]
      refine mask_and_ne_zero ?_ m
      rw [hmask, Nat.pow_succ]
      omega
    rw [matchedLen]
    split
    next hset =>
      have hnext : (matched + 1).toNat = matched.toNat + 1 := by
        rw [UInt8.toNat_add]
        exact Nat.mod_eq_of_lt (by show matched.toNat + 1 < _; omega)
      have hshift : (mask >>> 1).toNat = 2 ^ fuel / 2 := by
        rw [UInt32.toNat_shiftRight, hmask, Nat.pow_succ, Nat.mul_div_cancel _ (by decide)]
        exact Nat.shiftRight_eq_div_pow _ 1
      rw [ih hshift (by omega), hnext]
      refine ⟨fun hrest i hi hlt => ?_, fun hall i hi hlt => hall i (by omega) hlt⟩
      rcases Nat.eq_or_lt_of_le hi with rfl | hgt
      · exact hbit.mp hset
      · exact hrest i hgt hlt
    next hclear =>
      rw [UInt8.le_iff_toNat_le]
      refine ⟨fun hle i hi hlt => by omega, fun hall => ?_⟩
      by_contra hgt
      exact hclear (hbit.mpr (hall matched.toNat (Nat.le_refl _) (by omega)))

/-- **The loop decides agreement.** -/
theorem matchedPrefixLength_iff (ip pattern : UInt32) {len : UInt8} (hlen : len.toNat ≤ 32) :
    matchedPrefixLength ip pattern len = true ↔ AgreeOn len.toNat ip pattern := by
  unfold matchedPrefixLength
  rw [decide_eq_true_eq, le_matchedLen_iff _ hlen rfl rfl, agreeOn_iff hlen]
  refine ⟨fun hall i hi => ?_, fun hall i _ hi => ?_⟩
  · have hbit := hall i (Nat.zero_le _) hi
    rw [testBit_agreement _ _ (by omega)] at hbit
    exact eq_of_beq hbit
  · rw [testBit_agreement _ _ (by omega), hall i hi]
    exact beq_self_eq_true _

/-- The mask of `add_route` has ones in its first bits. -/
theorem testBit_prefixMask (overshift : UInt32) {len : UInt8} (hlen : len.toNat ≤ 32) {i : Nat}
    (hi : i < len.toNat) : (prefixMask overshift len).toNat.testBit (31 - i) = true := by
  have hrange : 0 < len ∧ len ≤ 32 :=
    ⟨UInt8.lt_iff_toNat_lt.mpr (Nat.lt_of_le_of_lt (Nat.zero_le i) hi), UInt8.le_iff_toNat_le.mpr hlen⟩
  have hle : len.toUInt32 ≤ 32 := UInt32.le_iff_toNat_le.mpr hlen
  have hshift : (32 - len.toUInt32).toNat % 32 = 32 - len.toNat := by
    rw [UInt32.toNat_sub_of_le _ _ hle]
    exact Nat.mod_eq_of_lt (by show 32 - len.toNat < 32; omega)
  have hones : (0xffffffff : UInt32).toNat = 2 ^ 32 - 1 := rfl
  rw [prefixMask, if_pos hrange, UInt32.toNat_shiftLeft, hshift, hones, Nat.testBit_mod_two_pow,
    Nat.testBit_shiftLeft, Nat.testBit_two_pow_sub_one]
  simp only [Bool.and_eq_true, decide_eq_true_eq]
  omega

/-- A route's prefix is stored with its first bits. -/
theorem agreeOn_prefixMask (overshift routePrefix : UInt32) {len : UInt8} (hlen : len.toNat ≤ 32) :
    AgreeOn len.toNat (routePrefix &&& prefixMask overshift len) routePrefix := by
  rw [agreeOn_iff hlen]
  intro i hi
  rw [UInt32.toNat_and, Nat.testBit_and, testBit_prefixMask overshift hlen hi, Bool.and_true]

/-! ## The selection loop is a scan -/

namespace MapItem

/-- What `add_route` stores for a route. -/
def stored (overshift : UInt32) (item : MapItem) : MapItem :=
  { item with routePrefix := item.routePrefix &&& prefixMask overshift item.prefixLength }

/-- The test of the selection loop. -/
def found (destIp : UInt32) (item : MapItem) : Bool :=
  matchedPrefixLength destIp item.routePrefix item.prefixLength

/-- What the loop compares a stored route by: its prefix. -/
def strength (item : MapItem) : Nat := item.routePrefix.toNat

/-- What the loop remembers of it: the low eight bits. -/
def guard (item : MapItem) : Nat := item.strength % 256

/-- A route is found where it matches. -/
theorem found_stored (overshift destIp : UInt32) {item : MapItem} (hlen : item.prefixLength ≤ 32) :
    (item.stored overshift).found destIp = true ↔ item.Matches destIp := by
  have hlen' : item.prefixLength.toNat ≤ 32 := UInt8.le_iff_toNat_le.mp hlen
  have hstored := agreeOn_prefixMask overshift item.routePrefix hlen'
  refine (matchedPrefixLength_iff _ _ hlen').trans ?_
  exact ⟨fun hagree => Eq.trans hagree hstored, fun hagree => Eq.trans hagree hstored.symm⟩

end MapItem

/-- **A stored route matches exactly its prefix.** The route `add_route` appends is matched by the
destinations whose first bits, as many as the route's length says, are those of the prefix it was given,
whatever bits that prefix has below and whatever the undefined shift yields. -/
theorem Router.addRoute_matches (r : Router) (overshift routePrefix : UInt32) {prefixLength : UInt8}
    (hlen : prefixLength ≤ 32) (nextHop : Option Address) (interfaceNum : Nat) :
    ∃ item, (r.addRoute overshift routePrefix prefixLength nextHop interfaceNum).mapVec = r.mapVec ++ [item] ∧
      ∀ destIp, matchedPrefixLength destIp item.routePrefix item.prefixLength = true ↔
        ∀ i < prefixLength.toNat, destIp.toNat.testBit (31 - i) = routePrefix.toNat.testBit (31 - i) := by
  refine ⟨_, rfl, fun destIp => ?_⟩
  rw [← agreeOn_iff (UInt8.le_iff_toNat_le.mp hlen)]
  have hstored : (MapItem.mk routePrefix prefixLength nextHop interfaceNum).prefixLength ≤ 32 := hlen
  exact MapItem.found_stored overshift destIp hstored

/-- A prefix with bits set below its length, and a prefix of length zero under a shift that yields ones. -/
theorem Router.addRoute_matches_two :
    (∃ item, ((⟨[], []⟩ : Router).addRoute 0 0x0a0000ff 8 none 0).mapVec = [item] ∧
      matchedPrefixLength 0x0a630001 item.routePrefix item.prefixLength = true) ∧
    ∃ item, ((⟨[], []⟩ : Router).addRoute 0xffffffff 0x0a0000ff 0 none 0).mapVec = [item] ∧
      matchedPrefixLength 0xc0000001 item.routePrefix item.prefixLength = true := by
  obtain ⟨item, hitem, hmatch⟩ :=
    Router.addRoute_matches ⟨[], []⟩ 0 0x0a0000ff (show (8 : UInt8) ≤ 32 by decide) none 0
  obtain ⟨item', hitem', hmatch'⟩ :=
    Router.addRoute_matches ⟨[], []⟩ 0xffffffff 0x0a0000ff (show (0 : UInt8) ≤ 32 by decide) none 0
  exact ⟨⟨item, hitem, (hmatch _).mpr (by decide)⟩, item', hitem', (hmatch' _).mpr (by decide)⟩

namespace Selection

/-- The loop's variables when this route leads. -/
def ofLeader : Option MapItem → Selection
  | none => initial
  | some item => ⟨item.routePrefix.toUInt8, item.interfaceNum, item.nextHop⟩

/-- A turn with a route that is found is a challenge. -/
theorem turn_ofLeader {destIp : UInt32} {item : MapItem} (lead : Option MapItem)
    (hfound : item.found destIp = true) :
    turn destIp (ofLeader lead) item =
      ofLeader (Leader.challenge MapItem.strength MapItem.guard lead item) := by
  unfold MapItem.found at hfound
  cases lead with
  | none => exact if_pos ⟨hfound, UInt32.zero_le⟩
  | some z =>
    have hcmp : (ofLeader (some z)).maxMatchLength.toUInt32 ≤ item.routePrefix ↔
        z.guard ≤ item.strength := UInt32.le_iff_toNat_le
    unfold turn Leader.challenge
    simp only [hfound, true_and, hcmp]
    split <;> rfl

/-- The loop is a scan of the routes that are found. -/
theorem foldl_turn (destIp : UInt32) (items : List MapItem) (lead : Option MapItem) :
    items.foldl (turn destIp) (ofLeader lead) =
      ofLeader ((items.filter (MapItem.found destIp)).foldl
        (Leader.challenge MapItem.strength MapItem.guard) lead) := by
  induction items generalizing lead with
  | nil => rfl
  | cons item items ih =>
    by_cases hfound : item.found destIp = true
    · rw [List.filter_cons_of_pos hfound, List.foldl_cons, List.foldl_cons, turn_ofLeader lead hfound]
      exact ih _
    · rw [List.filter_cons_of_neg hfound, List.foldl_cons, turn, if_neg fun h => hfound h.1]
      exact ih lead

end Selection

/-! ## The table and the route taken -/

namespace Router

variable (r : Router)

/-- A run of `add_route` calls. -/
def addRoutes (overshift : UInt32) (routes : List MapItem) : Router :=
  routes.foldl
    (fun r g => r.addRoute overshift g.routePrefix g.prefixLength g.nextHop g.interfaceNum) r

theorem addRoutes_eq (overshift : UInt32) (routes : List MapItem) :
    r.addRoutes overshift routes =
      { r with mapVec := r.mapVec ++ routes.map (MapItem.stored overshift) } := by
  unfold addRoutes
  induction routes generalizing r with
  | nil => rw [List.map_nil, List.append_nil]; rfl
  | cons g routes ih =>
    rw [List.foldl_cons, ih]
    unfold addRoute
    rw [List.append_assoc]
    rfl

end Router

/-- Among the routes, the ones that match a destination. -/
def matching (destIp : UInt32) (routes : List MapItem) : List MapItem :=
  routes.filter fun g => g.Matches destIp

/-- The route that leads the scan of the matching ones. -/
def taken (overshift destIp : UInt32) (routes : List MapItem) : Option MapItem :=
  Leader.leader (fun g => (g.stored overshift).strength) (fun g => (g.stored overshift).guard)
    (matching destIp routes)

/-- **What the loop selects** from a table. -/
theorem Router.select_addRoutes (overshift destIp : UInt32) {r : Router} (hempty : r.mapVec = [])
    {routes : List MapItem} (hlen : ∀ g ∈ routes, g.prefixLength ≤ 32) :
    (r.addRoutes overshift routes).select destIp =
      Selection.ofLeader ((taken overshift destIp routes).map (MapItem.stored overshift)) := by
  have hmatching : (routes.map (MapItem.stored overshift)).filter (MapItem.found destIp) =
      (matching destIp routes).map (MapItem.stored overshift) := by
    rw [List.filter_map]
    refine congrArg (List.map _) (List.filter_congr fun g hg => ?_)
    rw [Function.comp_apply, Bool.eq_iff_iff, MapItem.found_stored overshift destIp (hlen g hg),
      decide_eq_true_eq]
  rw [addRoutes_eq, hempty, List.nil_append, select, taken, ← Leader.leader_map, ← hmatching]
  exact Selection.foldl_turn destIp _ none

/-- The datagram, one hop older. -/
def IPv4Datagram.aged (d : IPv4Datagram) : IPv4Datagram :=
  { d with header := { d.header with ttl := d.header.ttl - 1 } }

/-- The next hop of a route, for a destination. -/
def MapItem.hop (item : MapItem) (destIp : UInt32) : Address :=
  item.nextHop.getD (Address.fromIpv4Numeric destIp)

/-- The router hands the datagram, one hop older, to the interface of the route, for the route's next
hop. -/
structure Router.Forwards (r : Router) (d : IPv4Datagram) (item : MapItem) : Prop where
  call : r.handOff d = some (item.interfaceNum, d.aged, item.hop d.header.dst)
  made : ∃ a, r.interfaces[item.interfaceNum]? = some a ∧
    let sent := a.net.sendDatagram d.aged (item.hop d.header.dst)
    r.routeOneDatagram d =
      ({ r with interfaces := r.interfaces.set item.interfaceNum { a with net := sent.1 } },
        d.aged, sent.2)

/-- A call to an interface that is there is made. -/
theorem Router.Forwards.of_call {r : Router} {d : IPv4Datagram} {item : MapItem}
    (call : r.handOff d = some (item.interfaceNum, d.aged, item.hop d.header.dst))
    (there : item.interfaceNum < r.interfaces.length) : r.Forwards d item := by
  have hget := List.getElem?_eq_getElem there
  refine ⟨call, _, hget, ?_⟩
  unfold routeOneDatagram
  rw [call]
  dsimp only
  rw [hget]

/-- A route of the table that matches a destination, and none that does is longer. -/
structure IsLongest (routes : List MapItem) (destIp : UInt32) (g : MapItem) : Prop where
  mem : g ∈ routes
  matched : g.Matches destIp
  longest : ∀ h ∈ routes, h.Matches destIp → h.prefixLength ≤ g.prefixLength

/-- The route stays in front of the matching ones: no later one has a stored prefix that reaches the
low eight bits of its own, and an earlier one whose low eight bits it does not reach was passed by
another in between. -/
def Prevails (overshift destIp : UInt32) (routes : List MapItem) (f : MapItem) : Prop :=
  ∃ before after, matching destIp routes = before ++ f :: after ∧
    Leader.Unmatched (fun g => (g.stored overshift).strength) (fun g => (g.stored overshift).guard)
      f after ∧
    Leader.Open (fun g => (g.stored overshift).strength) (fun g => (g.stored overshift).guard)
      before f

theorem taken_eq_some {overshift destIp : UInt32} {routes : List MapItem} {f : MapItem} :
    taken overshift destIp routes = some f ↔ Prevails overshift destIp routes f :=
  Leader.leader_eq_some fun _ => Nat.mod_le _ _

/-- When every matching prefix is too large for eight bits, the matching route added last prevails. -/
theorem prevails_last {overshift destIp : UInt32} {routes : List MapItem}
    (large : ∀ g ∈ matching destIp routes, 256 ≤ (g.stored overshift).strength) {f : MapItem} :
    Prevails overshift destIp routes f ↔ (matching destIp routes).getLast? = some f := by
  have hguard : ∀ g : MapItem, (g.stored overshift).guard < 256 := fun g => Nat.mod_lt _ (by decide)
  rw [List.getLast?_eq_some_iff]
  constructor
  · rintro ⟨before, after, hsplit, hunmatched, -⟩
    cases after with
    | nil => exact ⟨before, hsplit⟩
    | cons k after =>
      have hlt := hunmatched k List.mem_cons_self
      have hlarge := large k (by rw [hsplit]; simp)
      exact absurd (Nat.lt_of_le_of_lt hlarge hlt) (Nat.not_lt_of_gt (hguard f))
  · rintro ⟨before, hsplit⟩
    refine ⟨before, [], hsplit, nofun, fun a z b _ hlt => ?_⟩
    have hlarge := large f (by rw [hsplit]; simp)
    exact absurd (Nat.lt_of_le_of_lt hlarge hlt) (Nat.not_lt_of_gt (hguard z))

/-- The call made is that of the route taken. -/
theorem Router.handOff_addRoutes {overshift : UInt32} {r : Router} (hempty : r.mapVec = [])
    {routes : List MapItem} (hlen : ∀ g ∈ routes, g.prefixLength ≤ 32) {d : IPv4Datagram}
    (httl : 1 < d.header.ttl) {f : MapItem}
    (htaken : taken overshift d.header.dst routes = some f) :
    (r.addRoutes overshift routes).handOff d =
      some (f.interfaceNum, d.aged, f.hop d.header.dst) := by
  have hlive : ¬ (d.header.ttl = 0 ∨ d.header.ttl = 1) := by
    rintro (h | h) <;> rw [h] at httl <;> exact absurd httl (by decide)
  unfold handOff
  rw [if_neg hlive]
  dsimp only
  rw [select_addRoutes overshift _ hempty hlen, htaken]
  rfl

namespace Router

/-- **When the route taken is a longest one.** Take any table built by `add_route` calls and any
datagram that matches. It goes to the interface and next hop of a longest matching route exactly when
the matching route that prevails has the interface and next hop of a longest one. -/
theorem forwards_longest_iff (overshift : UInt32) {r : Router} (hempty : r.mapVec = [])
    {routes : List MapItem} (hlen : ∀ g ∈ routes, g.prefixLength ≤ 32)
    (hthere : ∀ g ∈ routes, g.interfaceNum < r.interfaces.length) {d : IPv4Datagram}
    (httl : 1 < d.header.ttl) (hmatch : ∃ g ∈ routes, g.Matches d.header.dst) :
    (∃ g, IsLongest routes d.header.dst g ∧ (r.addRoutes overshift routes).Forwards d g) ↔
      ∃ f, Prevails overshift d.header.dst routes f ∧ ∃ g, IsLongest routes d.header.dst g ∧
        g.interfaceNum = f.interfaceNum ∧ g.hop d.header.dst = f.hop d.header.dst := by
  have hsome : matching d.header.dst routes ≠ [] := by
    obtain ⟨g, hg, hgm⟩ := hmatch
    exact List.ne_nil_of_mem (List.mem_filter.mpr ⟨hg, decide_eq_true hgm⟩)
  obtain ⟨f, htaken⟩ : ∃ f, taken overshift d.header.dst routes = some f :=
    Leader.exists_leader hsome
  have hcall := handOff_addRoutes hempty hlen httl htaken
  constructor
  · rintro ⟨g, hg, hforwards⟩
    rw [hforwards.call, Option.some.injEq, Prod.mk.injEq, Prod.mk.injEq] at hcall
    exact ⟨f, taken_eq_some.mp htaken, g, hg, hcall.1, hcall.2.2⟩
  · rintro ⟨f', hprevails, g, hg, hnum, hhop⟩
    have hsame : f' = f := by
      rw [← taken_eq_some, htaken, Option.some.injEq] at hprevails
      exact hprevails.symm
    refine ⟨g, hg, .of_call ?_ ?_⟩
    · rw [hcall, hnum, hhop, hsame]
    · rw [addRoutes_eq]
      exact hthere g hg.mem

/-- Two interfaces, no routes. -/
def twoPorts : Router where
  interfaces := [⟨.new EthernetAddress.zero (.inet 1 0), []⟩, ⟨.new EthernetAddress.zero (.inet 2 0), []⟩]
  mapVec := []

/-- 10.0.0.0/8, on the first interface. -/
def wide : MapItem := ⟨0x0a000000, 8, none, 0⟩

/-- 10.0.0.0/24, on the second interface. -/
def narrow : MapItem := ⟨0x0a000000, 24, none, 1⟩

/-- A datagram for 10.0.0.1. -/
def toHost : IPv4Datagram := { header := { len := 20, dst := 0x0a000001 } }

theorem isLongest_narrow {routes : List MapItem} (hmem : narrow ∈ routes)
    (hall : ∀ g ∈ routes, g = wide ∨ g = narrow) : IsLongest routes toHost.header.dst narrow := by
  refine ⟨hmem, by decide, fun h hh _ => ?_⟩
  rcases hall h hh with rfl | rfl <;> decide

/-- With the longer route added last, it is taken. -/
theorem forwards_longest_wide_narrow :
    ∃ g, IsLongest [wide, narrow] toHost.header.dst g ∧
      (twoPorts.addRoutes 0 [wide, narrow]).Forwards toHost g := by
  refine (forwards_longest_iff 0 rfl (by decide) (by decide) (by decide)
    ⟨wide, List.mem_cons_self, by decide⟩).mpr ?_
  refine ⟨narrow, ⟨[wide], [], by decide, nofun, ?_⟩, narrow,
    isLongest_narrow (by decide) (by decide), rfl, rfl⟩
  intro a z b hsplit hlt
  have hz : z ∈ [wide] := hsplit ▸ List.mem_append_right a List.mem_cons_self
  rw [List.mem_singleton.mp hz] at hlt
  exact absurd hlt (by decide)

/-- **A shorter route added later is taken.** The table has 10.0.0.0/24 and then 10.0.0.0/8; the
datagram for 10.0.0.1 goes out on the interface of the second. -/
theorem forwards_shorter :
    (∀ g ∈ [narrow, wide], g.prefixLength ≤ 32 ∧ g.interfaceNum < twoPorts.interfaces.length ∧
      g.Matches toHost.header.dst) ∧
    1 < toHost.header.ttl ∧
    (twoPorts.addRoutes 0 [narrow, wide]).handOff toHost =
      some (wide.interfaceNum, toHost.aged, wide.hop toHost.header.dst) ∧
    ¬ ∃ g, IsLongest [narrow, wide] toHost.header.dst g ∧
      (twoPorts.addRoutes 0 [narrow, wide]).Forwards toHost g := by
  have hcall : (twoPorts.addRoutes 0 [narrow, wide]).handOff toHost =
      some (wide.interfaceNum, toHost.aged, wide.hop toHost.header.dst) := by decide +kernel
  refine ⟨by decide, by decide, hcall, ?_⟩
  rintro ⟨g, hg, hforwards⟩
  rw [hforwards.call, Option.some.injEq, Prod.mk.injEq] at hcall
  have hle := hg.longest narrow (by decide) (by decide)
  rcases List.mem_pair.mp hg.mem with rfl | rfl
  · exact absurd hcall.1 (by decide)
  · exact absurd hle (by decide)

end Router

/-! ## Datagrams without a route -/

namespace NetworkInterface

variable {n : NetworkInterface} {d : IPv4Datagram} {ip : UInt32}

/-- Sending the datagram for the address changes nothing. The address is known and the datagram cannot be
serialized; or it is not known, the very datagram waits for it already, and the address was asked for
lately or there is no address to ask from. -/
def Unmoved (n : NetworkInterface) (d : IPv4Datagram) (ip : UInt32) : Prop :=
  (n.ipMap.find? ip ≠ none ∧ d.wellFormed = false) ∨
    n.ipMap.find? ip = none ∧ n.unknownDatagramMap.find? ip = some d ∧
      (n.ipArpTime.contains ip = true ∨ n.ipAddress.ipv4Numeric.isOk = false)

instance (n : NetworkInterface) (d : IPv4Datagram) (ip : UInt32) : Decidable (n.Unmoved d ip) :=
  inferInstanceAs (Decidable (_ ∨ _))

/-- A frame queued is a change. -/
theorem ne_of_queued {n' : NetworkInterface} {frame : EthernetFrame}
    (queued : n'.framesOut = n.framesOut ++ [frame]) : n' ≠ n := by
  intro heq
  rw [heq] at queued
  exact absurd (List.append_right_eq_self.mp queued.symm) (List.cons_ne_nil _ _)

/-- **When sending changes nothing.** -/
theorem sendDatagram_fst_eq_iff {nextHop : Address} (inet : nextHop.ipv4Numeric = .ok ip) :
    (n.sendDatagram d nextHop).1 = n ↔ n.Unmoved d ip := by
  unfold sendDatagram Unmoved
  rw [inet]
  dsimp only
  cases hfind : n.ipMap.find? ip with
  | some mapping =>
    rcases n.sendSerialized_cases mapping.1 d with ⟨e, heq, hbad⟩ | ⟨payload, -, hgood, heq⟩
    · simp [heq, hbad]
    · simpa [heq, hgood] using ne_of_queued (n := n) rfl
  | none =>
    dsimp only
    have hkept : { n with unknownDatagramMap := n.unknownDatagramMap.insert ip d } = n ↔
        n.unknownDatagramMap.find? ip = some d := by
      constructor
      · intro heq
        rw [← heq]
        exact SortedMap.find?_insert_self
      · intro hwaits
        rw [SortedMap.insert_of_mem (SortedMap.find?_eq_some.mp hwaits)]
    generalize hk : { n with unknownDatagramMap := n.unknownDatagramMap.insert ip d } = kept at *
    have harp : kept.ipArpTime = n.ipArpTime := hk ▸ rfl
    have hown : kept.ipAddress = n.ipAddress := hk ▸ rfl
    have hframes : kept.framesOut = n.framesOut := hk ▸ rfl
    obtain ⟨hlately, heq⟩ | ⟨hlong, ⟨e, hbad, heq⟩ | ⟨own, payload, hgood, -, heq⟩⟩ :=
      kept.broadCast_cases inet
    · rw [harp] at hlately
      simp [heq, hkept, hlately]
    · rw [hown] at hbad
      simp [heq, hkept, hbad, Except.isOk, Except.toBool]
    · rw [hown] at hgood
      rw [harp] at hlong
      have hmoved : kept.asked ip payload ≠ n := ne_of_queued (congrArg (· ++ _) hframes)
      simp [heq, hmoved, hlong, hgood, Except.isOk, Except.toBool]

end NetworkInterface

namespace Router

variable {r : Router} {d : IPv4Datagram}

/-- No route of the table is found for the destination. -/
def Unmatched (r : Router) (destIp : UInt32) : Prop := ∀ item ∈ r.mapVec, item.found destIp = false

instance (r : Router) (destIp : UInt32) : Decidable (r.Unmatched destIp) :=
  inferInstanceAs (Decidable (∀ item ∈ r.mapVec, _))

/-- The time to live is used up. -/
def Expired (d : IPv4Datagram) : Prop := d.header.ttl = 0 ∨ d.header.ttl = 1

instance (d : IPv4Datagram) : Decidable (Expired d) := inferInstanceAs (Decidable (_ ∨ _))

/-- The loop leaves its variables as they were when no route is found. -/
theorem select_of_unmatched {destIp : UInt32} (unmatched : r.Unmatched destIp) :
    r.select destIp = Selection.initial := by
  have hnone : r.mapVec.filter (MapItem.found destIp) = [] := by
    rw [List.filter_eq_nil_iff]
    intro item hitem hfound
    rw [unmatched item hitem] at hfound
    cases hfound
  have hscan := Selection.foldl_turn destIp r.mapVec none
  rw [hnone] at hscan
  exact hscan

/-- What a router does with a datagram that is neither expired nor matched: the first interface sends it
to its destination. -/
theorem routeOneDatagram_of_unmatched (alive : ¬ Expired d) (unmatched : r.Unmatched d.header.dst)
    {a : AsyncNetworkInterface} (first : r.interfaces[0]? = some a) :
    (r.routeOneDatagram d).1 = { r with
      interfaces := r.interfaces.set 0
        { a with net := (a.net.sendDatagram d.aged (Address.fromIpv4Numeric d.header.dst)).1 } } := by
  have hcall : r.handOff d = some (0, d.aged, Address.fromIpv4Numeric d.header.dst) := by
    have hlive : ¬ (d.header.ttl = 0 ∨ d.header.ttl = 1) := alive
    unfold handOff
    rw [if_neg hlive]
    dsimp only
    rw [select_of_unmatched unmatched]
    rfl
  unfold routeOneDatagram
  rw [hcall]
  dsimp only
  rw [first]

/-- The datagram is dropped without a trace: its time is used up, or the first interface is not moved by
it. -/
def Drops (r : Router) (d : IPv4Datagram) : Prop :=
  Expired d ∨ ∃ a ∈ r.interfaces[0]?, a.net.Unmoved d.aged d.header.dst

instance (r : Router) (d : IPv4Datagram) : Decidable (r.Drops d) :=
  inferInstanceAs (Decidable (_ ∨ ∃ a ∈ r.interfaces[0]?, _))

/-- **When an unroutable datagram is dropped.** A datagram whose destination matches no route, or whose
time is used up, leaves the router as it was if it is expired or the first interface is not moved by it,
and, for a router with an interface, only then. -/
theorem unroutable_dropped (unroutable : r.Unmatched d.header.dst ∨ Expired d) :
    (r.Drops d → (r.routeOneDatagram d).1 = r) ∧
      (r.interfaces ≠ [] → (r.routeOneDatagram d).1 = r → r.Drops d) := by
  have hexpired : Expired d → (r.routeOneDatagram d).1 = r := by
    intro hexp
    have hdead : d.header.ttl = 0 ∨ d.header.ttl = 1 := hexp
    unfold routeOneDatagram handOff
    rw [if_pos hdead]
  by_cases hexp : Expired d
  · exact ⟨fun _ => hexpired hexp, fun _ _ => .inl hexp⟩
  have hunmatched := unroutable.resolve_right hexp
  have hiff : ∀ a, r.interfaces[0]? = some a →
      ((r.routeOneDatagram d).1 = r ↔ a.net.Unmoved d.aged d.header.dst) := by
    intro a hfirst
    rw [routeOneDatagram_of_unmatched hexp hunmatched hfirst,
      ← NetworkInterface.sendDatagram_fst_eq_iff
        (show (Address.fromIpv4Numeric d.header.dst).ipv4Numeric = .ok d.header.dst from rfl)]
    generalize (a.net.sendDatagram d.aged (Address.fromIpv4Numeric d.header.dst)).1 = sent
    constructor
    · intro hsame
      have hset : (r.interfaces.set 0 { a with net := sent })[0]? = r.interfaces[0]? :=
        congrArg (fun r : Router => r.interfaces[0]?) hsame
      obtain ⟨hlt, -⟩ := List.getElem?_eq_some_iff.mp hfirst
      rw [List.getElem?_set_self hlt, hfirst, Option.some.injEq] at hset
      exact congrArg AsyncNetworkInterface.net hset
    · intro hsame
      obtain ⟨hlt, hget⟩ := List.getElem?_eq_some_iff.mp hfirst
      rw [hsame, ← hget, List.set_getElem_self]
  constructor
  · rintro (hc | ⟨a, hfirst, hunmoved⟩)
    · exact absurd hc hexp
    · exact (hiff a hfirst).mpr hunmoved
  · intro hsome hsame
    obtain ⟨a, rest, hlist⟩ := List.exists_cons_of_ne_nil hsome
    have hfirst : r.interfaces[0]? = some a := by rw [hlist]; rfl
    exact .inr ⟨a, hfirst, (hiff a hfirst).mp hsame⟩

/-- Two interfaces, and 192.168.0.0/16 on the second. -/
def oneRoute : Router := twoPorts.addRoutes 0 [⟨0xc0a80000, 16, none, 1⟩]

/-- A datagram for 10.0.0.1 comes twice: the second time the first interface keeps it already. -/
theorem unroutable_dropped_again :
    let r := (oneRoute.routeOneDatagram toHost).1
    r.Unmatched toHost.header.dst ∧ (r.routeOneDatagram toHost).1 = r := by
  intro r
  have hunmatched : r.Unmatched toHost.header.dst := by decide +kernel
  exact ⟨hunmatched, (unroutable_dropped (.inl hunmatched)).1 (by decide +kernel)⟩

/-- **A datagram without a route is sent on the first interface**: it is stored there, and its destination
is asked for. -/
theorem unroutable_sent :
    oneRoute.Unmatched toHost.header.dst ∧
      (∀ a ∈ oneRoute.interfaces[0]?, a.net.framesOut = [] ∧
        a.net.unknownDatagramMap.find? toHost.header.dst = none) ∧
      ∃ a ∈ (oneRoute.routeOneDatagram toHost).1.interfaces[0]?, a.net.framesOut.length = 1 ∧
        a.net.unknownDatagramMap.find? toHost.header.dst = some toHost.aged := by
  decide +kernel

end Router

end Sponge
