import Sponge.Laws.Stream.Rest

/-!
# Laws.Stream.Empty — which empty pushes are ignored

An empty substring past the expected index is stored like any other. In a gap it is harmless: merging
paints nothing with it, eviction makes no room with it, and the assembly loop consumes it in passing.
All three stages commute with forgetting it (`bare_fixCap`, `bare_pushUnassem`, `bare_assem`), as long as
no entry reaches into a later one.

Inside a stored substring it is not harmless. The merge leaves it where it is, and once the assembly has
run over it the loop waits for ever behind a key that has gone by (`empty_push_blocks`). So the law is
about empty pushes outside the stored substrings, which find nothing waiting for the output
(`empty_pushes_ignored`).
-/

namespace Sponge

open Word64 (add sub add_eq sub_eq)

namespace StreamReassembler

variable {r r' : StreamReassembler} {data : Bytes} {index : Nat}

/-! ## The merge -/

section Merge

variable {buf : SortedMap Nat Bytes} {validIdx : Nat} {validStr : Bytes}

/-- The right-hand loop does not see empty entries: they end below the bound. -/
theorem mergeRight_filter {bound : Nat} {l : List Entry} {rb : Nat}
    (sorted : l.Pairwise (fun a b => a.1 < b.1)) (below : bound ≤ rb) :
    mergeRight bound (l.filter fun e => !e.2.isEmpty) rb =
      ((mergeRight bound l rb).1, (mergeRight bound l rb).2.filter fun e => !e.2.isEmpty) := by
  induction l generalizing rb with
  | nil => rfl
  | cons e l ih =>
    obtain ⟨hfirst, hrest⟩ := List.pairwise_cons.mp sorted
    by_cases hlt : e.1 < bound
    · by_cases hempty : e.2 = []
      · have hstop : Entry.stop e ≤ rb := by
          rw [Entry.stop, hempty]
          have hmod : add e.1 ([] : Bytes).length ≤ e.1 := Nat.mod_le _ _
          omega
        rw [List.filter_cons_of_neg (by simp [hempty]), ih hrest below, mergeRight, if_pos hlt]
        dsimp only
        rw [Nat.max_eq_left hstop, List.filter_cons_of_neg (by simp [hempty])]
      · rw [List.filter_cons_of_pos (by simp [hempty]), mergeRight, mergeRight, if_pos hlt, if_pos hlt,
          ih hrest (Nat.le_trans below (Nat.le_max_left _ _))]
        dsimp only
        rw [List.filter_cons_of_pos (by simp [hempty])]
    · -- the list is sorted, so nothing behind the first entry is below the bound either
      have hnone : ∀ {l' : List Entry}, (∀ a ∈ l', ¬a.1 < bound) → mergeRight bound l' rb = (rb, []) := by
        intro l' hl'
        cases l' with
        | nil => rfl
        | cons a l' => rw [mergeRight, if_neg (hl' a List.mem_cons_self)]
      have hpast : ∀ a ∈ e :: l, ¬a.1 < bound := by
        intro a ha
        rcases List.mem_cons.mp ha with rfl | ha
        · exact hlt
        · have := hfirst a ha
          omega
      rw [hnone hpast, hnone fun a ha => hpast a (List.mem_filter.mp ha).1]
      rfl

/-- Nor does the left neighbour: an empty entry before the substring reaches nowhere, and what lies before
it does not reach past it. -/
theorem leftNeighbour_nonempties (apart : Apart buf) :
    leftNeighbour (nonempties (buf.insert validIdx validStr)) validIdx =
      leftNeighbour (buf.insert validIdx validStr) validIdx := by
  cases hl : leftNeighbour (buf.insert validIdx validStr) validIdx with
  | some l =>
    obtain ⟨hlow, hreach⟩ := leftNeighbour_eq_some hl
    obtain ⟨hmem, hlt, hlast⟩ := SortedMap.lower?_eq_some hlow
    have hfull : l.2 ≠ [] := by
      intro hc
      have hmod : add l.1 ([] : Bytes).length ≤ l.1 := Nat.mod_le _ _
      rw [Entry.stop, hc] at hreach
      omega
    have hlow' : (nonempties (buf.insert validIdx validStr)).lower? validIdx = some l :=
      SortedMap.lower?_of_greatest (mem_nonempties.mpr ⟨hmem, hfull⟩) hlt fun e he hlt' =>
        hlast e (mem_nonempties.mp he).1 hlt'
    rw [leftNeighbour, hlow']
    dsimp only
    rw [if_neg (Nat.not_le_of_lt hreach)]
  | none =>
    cases hlow' : (nonempties (buf.insert validIdx validStr)).lower? validIdx with
    | none => rw [leftNeighbour, hlow']
    | some l' =>
      obtain ⟨hmem', hlt', -⟩ := SortedMap.lower?_eq_some hlow'
      have hin := (mem_nonempties.mp hmem').1
      have hstop : Entry.stop l' ≤ validIdx := by
        rcases leftNeighbour_eq_none hl with hnone | ⟨l, hlow, hstop⟩
        · exact absurd hlt' (SortedMap.lower?_eq_none.mp hnone l' hin)
        · obtain ⟨-, hlt, hlast⟩ := SortedMap.lower?_eq_some hlow
          rcases hlast l' hin hlt' with rfl | hless
          · exact hstop
          · have hold : l' ∈ buf.entries := by
              rcases SortedMap.mem_insert.mp hin with rfl | ⟨hold, -⟩
              · exact absurd hlt' (Nat.lt_irrefl _)
              · exact hold
            have hapart := apart l' hold l (lower_insert hlow) hless
            have hmod : Entry.stop l' ≤ l'.1 + l'.2.length := Nat.mod_le _ _
            omega
      rw [leftNeighbour, hlow']
      dsimp only
      rw [if_pos hstop]

/-- The range of a merge without the empty entries. -/
theorem mergeRange_nonempties (inRange : validIdx + validStr.length < 2 ^ 64) (apart : Apart buf) :
    let all := buf.insert validIdx validStr
    leftEnd (nonempties all) validIdx validStr = leftEnd all validIdx validStr ∧
      mergeRange (nonempties all) validIdx validStr (validIdx + validStr.length) =
        ((mergeRange all validIdx validStr (validIdx + validStr.length)).1,
          (mergeRange all validIdx validStr (validIdx + validStr.length)).2.filter
            fun e => !e.2.isEmpty) := by
  intro all
  have hleft : leftNeighbour (nonempties all) validIdx = leftNeighbour all validIdx :=
    leftNeighbour_nonempties apart
  have hend : leftEnd (nonempties all) validIdx validStr = leftEnd all validIdx validStr := by
    rw [leftEnd, leftEnd, hleft]
  have hfrom : (nonempties all).from validIdx = (all.from validIdx).filter fun e => !e.2.isEmpty :=
    SortedMap.from_filter _ _ _
  have htoList : ((leftNeighbour all validIdx).toList.filter fun e => !e.2.isEmpty) =
      (leftNeighbour all validIdx).toList := by
    cases hl : leftNeighbour all validIdx with
    | none => rfl
    | some l =>
      have hmem := (SortedMap.lower?_eq_some (leftNeighbour_eq_some (hleft.trans hl)).1).1
      exact List.filter_cons_of_pos (by simp [(mem_nonempties.mp hmem).2])
  have hsorted : (all.from validIdx).Pairwise (fun a b => a.1 < b.1) := all.sorted.filter _
  refine ⟨hend, ?_⟩
  unfold mergeRange
  rw [hend, hleft, hfrom, add_eq inRange, mergeRight_filter hsorted (Nat.le_max_right _ _)]
  dsimp only
  rw [List.filter_append, htoList]

/-- **Merging commutes with forgetting the empty entries.** -/
theorem nonempties_mergeAt (held : ∀ e ∈ buf.entries, e.1 + e.2.length < 2 ^ 64)
    (inRange : validIdx + validStr.length < 2 ^ 64) (apart : Apart buf) (nonempty : validStr ≠ []) :
    nonempties (mergeAt (buf.insert validIdx validStr) validIdx validStr (validIdx + validStr.length)) =
      mergeAt ((nonempties buf).insert validIdx validStr) validIdx validStr
        (validIdx + validStr.length) := by
  obtain ⟨hend, hrange⟩ := mergeRange_nonempties inRange apart
  rw [← nonempties_insert _ _ nonempty]
  have held' := insert_inRange held inRange
  have mem : (validIdx, validStr) ∈ (buf.insert validIdx validStr).entries :=
    SortedMap.mem_insert.mpr (.inl rfl)
  generalize buf.insert validIdx validStr = all at *
  have hmerged : mergedStr (nonempties all) validIdx validStr (validIdx + validStr.length) =
      mergedStr all validIdx validStr (validIdx + validStr.length) := by
    rw [mergedStr, mergedStr, hend, hrange]
    exact List.paint_filter _ _ _
  have hheld : ∀ e ∈ (nonempties all).entries, e.1 + e.2.length < 2 ^ 64 := fun e he =>
    held' e (mem_nonempties.mp he).1
  have hmem : (validIdx, validStr) ∈ (nonempties all).entries := mem_nonempties.mpr ⟨mem, nonempty⟩
  apply SortedMap.ext_mem
  intro e
  rw [mem_nonempties, mem_mergeAt_iff held' mem nonempty, mem_mergeAt_iff hheld hmem nonempty, hend,
    hmerged, hrange, mem_nonempties]
  dsimp only
  rw [List.mem_filter]
  constructor
  · rintro ⟨rfl | ⟨he, hout⟩, hfull⟩
    · exact .inl rfl
    · exact .inr ⟨⟨he, hfull⟩, fun hc => hout hc.1⟩
  · rintro (rfl | ⟨⟨he, hfull⟩, hout⟩)
    · exact ⟨.inl rfl, mergedStr_ne_nil held' mem nonempty⟩
    · exact ⟨.inr ⟨he, fun hc => hout ⟨hc, by simp [hfull]⟩⟩, hfull⟩

end Merge

/-! ## A map whose entries stay apart -/

/-- What a push keeps when an empty one lies outside the stored substrings: the entries end at 64-bit
indices, none reaches into a later one, and all lie ahead of the expected index. -/
structure Spaced (r : StreamReassembler) : Prop where
  inRange : r.InRange
  apart : Apart r.unassemBuf
  ahead : ∀ e ∈ r.unassemBuf.entries, r.expectIdx ≤ e.1

/-- The index lies strictly inside no stored substring. -/
def Outside (r : StreamReassembler) (i : Nat) : Prop :=
  ∀ e ∈ r.unassemBuf.entries, ¬(e.1 < i ∧ i < e.1 + e.2.length)

instance (r : StreamReassembler) (i : Nat) : Decidable (r.Outside i) :=
  inferInstanceAs (Decidable (∀ e ∈ _, _))

theorem spaced_new (capacity : Nat) : (new capacity).Spaced where
  inRange := fun _ h => by cases h
  apart := fun _ h => by cases h
  ahead := fun _ h => by cases h

/-- Entries that are cut or dropped stay apart. -/
theorem Spaced.shrink (h : r.Spaced) {buf : SortedMap Nat Bytes}
    (part : ∀ e ∈ buf.entries, ∃ a ∈ r.unassemBuf.entries, a.1 = e.1 ∧ e.2.length ≤ a.2.length) :
    { r with unassemBuf := buf }.Spaced := by
  refine ⟨fun e he => ?_, fun a ha b hb hab => ?_, fun e he => ?_⟩
  · obtain ⟨a, ha, hkey, hlen⟩ := part e he
    have := h.inRange a ha
    omega
  · obtain ⟨a', ha', hkey, hlen⟩ := part a ha
    obtain ⟨b', hb', hkey', -⟩ := part b hb
    have := h.apart a' ha' b' hb' (by omega)
    omega
  · obtain ⟨a, ha, hkey, -⟩ := part e he
    exact hkey ▸ h.ahead a ha

theorem Spaced.fixCap (h : r.Spaced) : r.fixCap.Spaced := by
  rw [fixCap_frame]
  refine h.shrink fun e he => ?_
  rcases mem_fixCap he with hmem | ⟨a, ha, n, rfl⟩
  · exact ⟨e, hmem, rfl, Nat.le_refl _⟩
  · exact ⟨a, ha, rfl, List.length_take_le' _ _⟩

/-- One turn of the assembly loop: what is left starts where the entry ended, or later. -/
theorem Spaced.assemble (h : r.Spaced) {e : Entry} {l : List Entry} (hl : r.unassemBuf.entries = e :: l)
    (heq : e.1 = r.expectIdx) :
    { r with
      assemBuf := r.assemBuf ++ e.2
      expectIdx := r.expectIdx + e.2.length
      unassemBuf := r.unassemBuf.erase e.1 }.Spaced := by
  have hsub : ∀ a ∈ (r.unassemBuf.erase e.1).entries, a ∈ r.unassemBuf.entries := fun a ha =>
    (SortedMap.mem_erase.mp ha).1
  refine ⟨fun a ha => h.inRange a (hsub a ha), fun a ha b hb => h.apart a (hsub a ha) b (hsub b hb),
    fun a ha => ?_⟩
  have hsorted := r.unassemBuf.sorted
  rw [hl] at hsorted
  rw [SortedMap.entries_erase_head hl] at ha
  have hlt := (List.pairwise_cons.mp hsorted).1 a ha
  have hapart := h.apart e (by rw [hl]; exact List.mem_cons_self) a
    (by rw [hl]; exact List.mem_cons_of_mem _ ha) hlt
  dsimp only
  omega

/-- **The assembly loop commutes with forgetting the empty entries**: it consumes one that starts at the
expected index, and stops before a later one as before the entry behind it. -/
theorem bare_assemLoop {l : List Entry} (h : r.Spaced) (hl : r.unassemBuf.entries = l) :
    (assemLoop r l).bare = assemLoop r.bare (l.filter fun e => !e.2.isEmpty) ∧ (assemLoop r l).Spaced := by
  induction l generalizing r with
  | nil => exact ⟨rfl, h⟩
  | cons e l ih =>
    have hmem : e ∈ r.unassemBuf.entries := by rw [hl]; exact List.mem_cons_self
    have hrest := SortedMap.entries_erase_head hl
    by_cases heq : e.1 = r.expectIdx
    · obtain ⟨hbare, hspaced⟩ := ih (h.assemble hl heq) hrest
      rw [assemLoop, if_pos heq]
      refine ⟨hbare.trans ?_, hspaced⟩
      by_cases hempty : e.2 = []
      · rw [List.filter_cons_of_neg (by simp [hempty])]
        congr 1
        unfold bare
        dsimp only
        rw [nonempties_erase_empty hmem hempty, hempty, List.append_nil, List.length_nil, Nat.add_zero]
      · rw [List.filter_cons_of_pos (by simp [hempty]), assemLoop,
          if_pos (show e.1 = r.bare.expectIdx from heq)]
        congr 1
        unfold bare
        dsimp only
        rw [nonempties_erase]
    · rw [assemLoop, if_neg heq]
      refine ⟨(assemLoop_of_gap fun a ha => ?_).symm, h⟩
      have hsorted := r.unassemBuf.sorted
      rw [hl] at hsorted
      have hmem' := (List.mem_filter.mp (List.mem_of_mem_head? ha)).1
      have hfirst := h.ahead e hmem
      show a.1 ≠ r.expectIdx
      rcases List.mem_cons.mp hmem' with rfl | hin
      · exact heq
      · have := (List.pairwise_cons.mp hsorted).1 a hin
        omega

theorem bare_assem (h : r.Spaced) : r.assem.bare = r.bare.assem ∧ r.assem.Spaced := by
  obtain ⟨hbare, hspaced⟩ := bare_assemLoop h rfl
  refine ⟨?_, ⟨hspaced.inRange, hspaced.apart, hspaced.ahead⟩⟩
  have hloop : (assemLoop r r.unassemBuf.entries).bare = assemLoop r.bare r.bare.unassemBuf.entries := hbare
  unfold assem
  dsimp only
  rw [← hloop]
  generalize assemLoop r r.unassemBuf.entries = out
  unfold bare
  dsimp only
  rw [show storedBytes (nonempties out.unassemBuf).entries = storedBytes out.unassemBuf.entries from
    storedBytes_filter _]

theorem bare_endOutput (r : StreamReassembler) : r.endOutput.bare = r.bare.endOutput := by
  unfold endOutput
  split
  next hc => exact (if_pos hc).symm
  next hc => exact (if_neg hc).symm

/-- **The stages behind the merge commute with forgetting the empty substrings.** -/
theorem bare_stages (h : r.Spaced) :
    r.fixCap.assem.writeStr.endOutput.bare = r.bare.fixCap.assem.writeStr.endOutput ∧
      r.fixCap.assem.writeStr.endOutput.Spaced := by
  obtain ⟨hbare, hspaced⟩ := bare_assem h.fixCap
  rw [bare_fixCap] at hbare
  constructor
  · rw [bare_endOutput, ← hbare]
    rfl
  · rw [endOutput_frame]
    exact ⟨hspaced.inRange, hspaced.apart, hspaced.ahead⟩

/-! ## A whole push -/

/-- Merging a substring that is not empty commutes with forgetting the empty ones. -/
theorem bare_pushUnassem (h : r.Spaced) (nonempty : data ≠ []) (inRange : index + data.length < 2 ^ 64) :
    (r.pushUnassem data index).bare = r.bare.pushUnassem data index ∧
      (r.pushUnassem data index).Spaced := by
  have hpos := List.length_pos_iff.mpr nonempty
  have hfull : r.expectIdx < index + data.length → data.drop (r.expectIdx - index) ≠ [] := by
    intro hlt
    apply List.length_pos_iff.mp
    rw [List.length_drop]
    omega
  have hbare := pushUnassem_cases r.bare data index inRange
  rcases pushUnassem_cases r data index inRange with
    ⟨heq, hdone⟩ | ⟨heq, hlt, old, hold, hle⟩ | ⟨heq, hlt, hlonger⟩
  · rcases hbare with ⟨heq', -⟩ | ⟨-, hlt, -⟩ | ⟨-, hlt, -⟩
    · rw [heq, heq']
      exact ⟨rfl, h⟩
    · exact absurd hdone (Nat.not_le_of_lt hlt)
    · exact absurd hdone (Nat.not_le_of_lt hlt)
  · rcases hbare with ⟨heq', -⟩ | ⟨heq', -, -⟩ | ⟨-, -, hlonger⟩
    · rw [heq, heq']
      exact ⟨rfl, h⟩
    · rw [heq, heq']
      exact ⟨rfl, h⟩
    · -- the substring that stands there is not empty, so it stands there without the empty ones too
      have hne : old ≠ [] := by
        have := List.length_pos_iff.mpr (hfull hlt)
        exact List.length_pos_iff.mp (by omega)
      have hold' : r.bare.unassemBuf.find? (max index r.expectIdx) = some old :=
        SortedMap.find?_eq_some.mpr (mem_nonempties.mpr ⟨SortedMap.find?_eq_some.mp hold, hne⟩)
      exact absurd (hlonger old hold') (Nat.not_lt.mpr hle)
  · have hstop : max index r.expectIdx + (data.drop (r.expectIdx - index)).length < 2 ^ 64 := by
      rw [List.length_drop]
      omega
    have hspaced : (r.pushUnassem data index).Spaced := by
      have hin := (pushUnassem_stored h.inRange inRange).1
      rw [heq] at hin ⊢
      refine ⟨hin, mergeAt_apart h.inRange hstop h.apart (hfull hlt), fun e he => ?_⟩
      have held := insert_inRange h.inRange hstop
      have hold : ∀ a ∈ (r.unassemBuf.insert (max index r.expectIdx)
          (data.drop (r.expectIdx - index))).entries, r.expectIdx ≤ a.1 := by
        intro a ha
        rcases SortedMap.mem_insert.mp ha with rfl | ⟨hmem, -⟩
        · exact Nat.le_max_right _ _
        · exact h.ahead a hmem
      rcases mem_mergeAt he with rfl | hmem
      · have hleft := leftEnd_mem held (SortedMap.mem_insert.mpr (.inl rfl)) (hfull hlt) 0
        have hahead := hold _ (mem_mergeRange hleft).1
        exact hahead
      · exact hold e hmem
    rcases hbare with ⟨-, hdone⟩ | ⟨-, -, old, hold, hle⟩ | ⟨heq', -, -⟩
    · exact absurd hdone (Nat.not_le_of_lt hlt)
    · have hold' := (mem_nonempties.mp (SortedMap.find?_eq_some.mp hold)).1
      exact absurd (hlonger old (SortedMap.find?_eq_some.mpr hold')) (Nat.not_lt.mpr hle)
    · refine ⟨?_, hspaced⟩
      rw [heq, heq']
      unfold bare
      dsimp only
      rw [nonempties_mergeAt h.inRange hstop h.apart (hfull hlt)]

/-- Storing an empty substring outside the others keeps them apart. -/
theorem Spaced.pushUnassem_nil (h : r.Spaced) (inRange : index < 2 ^ 64) (outside : r.Outside index) :
    (r.pushUnassem [] index).bare = r.bare ∧ (r.pushUnassem [] index).Spaced := by
  have hshort : ∀ e ∈ r.unassemBuf.entries, e.2.length < 2 ^ 64 := fun e he =>
    Nat.lt_of_le_of_lt (Nat.le_add_left _ _) (h.inRange e he)
  rcases StreamReassembler.pushUnassem_nil inRange hshort with heq | ⟨hlt, hfree, heq⟩
  · rw [heq]
    exact ⟨rfl, h⟩
  · rw [heq]
    refine ⟨?_, ⟨fun e he => ?_, fun a ha b hb hab => ?_, fun e he => ?_⟩⟩
    · rw [bare, nonempties_insert_nil hfree]
      rfl
    · rcases SortedMap.mem_insert.mp he with rfl | ⟨hmem, -⟩
      · exact inRange
      · exact h.inRange e hmem
    · rcases SortedMap.mem_insert.mp ha with rfl | ⟨hma, -⟩ <;>
        rcases SortedMap.mem_insert.mp hb with rfl | ⟨hmb, -⟩
      · exact Nat.le_refl _
      · exact Nat.le_of_lt hab
      · exact Nat.le_of_not_lt fun hin => outside a hma ⟨hab, hin⟩
      · exact h.apart a hma b hmb hab
    · rcases SortedMap.mem_insert.mp he with rfl | ⟨hmem, -⟩
      · exact Nat.le_of_lt hlt
      · exact h.ahead e hmem

/-- What reaches `fixCap`, without the empty substrings, is decided by what was there without them. -/
theorem bare_beforeFixCap (h : r.Spaced) (inRange : index + data.length < 2 ^ 64)
    (outside : data = [] → r.Outside index) (eof : Bool) :
    let noted := { r.bare with eofIndex := if eof then add index data.length else r.bare.eofIndex }
    (r.beforeFixCap data index eof).bare = (if data = [] then noted else noted.pushUnassem data index) ∧
      (r.beforeFixCap data index eof).Spaced := by
  intro noted
  have hspaced : { r with eofIndex := noted.eofIndex }.Spaced := ⟨h.inRange, h.apart, h.ahead⟩
  have hnoted : (if eof then { r with eofIndex := add index data.length } else r) =
      { r with eofIndex := noted.eofIndex } := noted_eq r _ eof
  rw [beforeFixCap, hnoted]
  split
  next hnil =>
    rw [hnil] at inRange ⊢
    exact hspaced.pushUnassem_nil inRange (outside hnil)
  next hne => exact bare_pushUnassem hspaced hne inRange

/-- **A push does the same to two reassemblers that differ in empty substrings.** -/
theorem bare_push (h : r.Spaced) (h' : r'.Spaced) (same : r.bare = r'.bare)
    (inRange : index + data.length < 2 ^ 64) (outside : data = [] → r.Outside index)
    (outside' : data = [] → r'.Outside index) (eof : Bool) :
    (r.pushSubstring data index eof).bare = (r'.pushSubstring data index eof).bare ∧
      (r.pushSubstring data index eof).Spaced ∧ (r'.pushSubstring data index eof).Spaced := by
  obtain ⟨hbefore, hspaced⟩ := bare_beforeFixCap h inRange outside eof
  obtain ⟨hbefore', hspaced'⟩ := bare_beforeFixCap h' inRange outside' eof
  rw [same, ← hbefore'] at hbefore
  obtain ⟨hstages, hkept⟩ := bare_stages hspaced
  obtain ⟨hstages', hkept'⟩ := bare_stages hspaced'
  rw [pushSubstring_eq_fixCap, pushSubstring_eq_fixCap]
  exact ⟨by rw [hstages, hstages', hbefore], hkept, hkept'⟩

/-- Only a substring that is not empty has an inside. -/
theorem Outside.congr (h : r.Outside index) (same : r.bare = r'.bare) : r'.Outside index := by
  intro e he hin
  have hne : e.2 ≠ [] := List.length_pos_iff.mp (by omega)
  have hmem : e ∈ r.bare.unassemBuf.entries := by
    rw [same]
    exact mem_nonempties.mpr ⟨he, hne⟩
  exact h e (mem_nonempties.mp hmem).1 hin

end StreamReassembler

/-! ## Two runs side by side -/

/-- A run of pushes and reads, and the same run with empty pushes inserted. -/
structure Padding where
  plain : Session
  padded : Session

namespace Padding

/-- An operation of both runs, or an empty push of the second. -/
inductive Move
  | both (op : Session.Op)
  | empty (index : Nat)

def new (capacity : Nat) : Padding := ⟨Session.new capacity, Session.new capacity⟩

def step (p : Padding) : Move → Padding
  | .both op => ⟨p.plain.step op, p.padded.step op⟩
  | .empty index => { p with padded := p.padded.step (.push [] index false) }

/-- Substrings are pushed at 64-bit indices, and empty ones outside the stored substrings. An inserted one
also finds nothing waiting that the output would take, and does not make eviction run off the map. -/
def Harmless (p : Padding) : Move → Prop
  | .both (.push data index _) =>
    index + data.length < 2 ^ 64 ∧ (data = [] → p.padded.reassembler.Outside index)
  | .both (.pop _) | .both (.read _) => True
  | .empty index =>
    index < 2 ^ 64 ∧ p.padded.reassembler.Outside index ∧ p.padded.reassembler.Flushed ∧
      (p.padded.reassembler.beforeFixCap [] index false).StopsInside

instance (p : Padding) : (move : Move) → Decidable (Harmless p move)
  | .both (.push _ _ _) => inferInstanceAs (Decidable (_ ∧ (_ → _)))
  | .both (.pop _) | .both (.read _) => inferInstanceAs (Decidable True)
  | .empty _ => inferInstanceAs (Decidable (_ ∧ _ ∧ _ ∧ _))

/-- What holds of the two runs: they differ in empty substrings only. -/
structure Alike (p : Padding) : Prop where
  plain : p.plain.reassembler.Spaced
  padded : p.padded.reassembler.Spaced
  rested : p.padded.reassembler.Rested
  same : p.padded.reassembler.bare = p.plain.reassembler.bare
  log : p.padded.readLog = p.plain.readLog

variable {p : Padding}

theorem alike_new (capacity : Nat) : Alike (new capacity) where
  plain := StreamReassembler.spaced_new capacity
  padded := StreamReassembler.spaced_new capacity
  rested := StreamReassembler.rested_new capacity
  same := rfl
  log := rfl

theorem Alike.output_eq (h : p.Alike) : p.padded.reassembler.output = p.plain.reassembler.output :=
  congrArg (·.output) h.same

theorem Alike.pop (h : p.Alike) (len : Nat) : (p.step (.both (.pop len))).Alike where
  plain := ⟨h.plain.inRange, h.plain.apart, h.plain.ahead⟩
  padded := ⟨h.padded.inRange, h.padded.apart, h.padded.ahead⟩
  rested := h.rested.popOutput len
  same := congrArg (·.popOutput len) h.same
  log := by
    show p.padded.readLog ++ p.padded.reassembler.output.buf.take len =
      p.plain.readLog ++ p.plain.reassembler.output.buf.take len
    rw [h.log, h.output_eq]

theorem Alike.push (h : p.Alike) {data : Bytes} {index : Nat} (inRange : index + data.length < 2 ^ 64)
    (outside : data = [] → p.padded.reassembler.Outside index) (eof : Bool) :
    (p.step (.both (.push data index eof))).Alike := by
  obtain ⟨hsame, hpadded, hplain⟩ := StreamReassembler.bare_push h.padded h.plain h.same inRange outside
    (fun hnil => (outside hnil).congr h.same) eof
  have hrested := p.padded.reassembler.rested_push data index eof
  dsimp only [Padding.step, Session.step]
  generalize p.plain.reassembler.pushSubstring data index eof = plain at *
  generalize p.padded.reassembler.pushSubstring data index eof = padded at *
  exact ⟨hplain, hpadded, hrested, hsame, h.log⟩

/-- **An empty push outside the stored substrings keeps the runs alike.** -/
theorem Alike.empty (h : p.Alike) {index : Nat} (inRange : index < 2 ^ 64)
    (outside : p.padded.reassembler.Outside index) (flushed : p.padded.reassembler.Flushed) :
    (p.step (.empty index)).Alike := by
  have hshort : ∀ e ∈ p.padded.reassembler.unassemBuf.entries, e.2.length < 2 ^ 64 := fun e he =>
    Nat.lt_of_le_of_lt (Nat.le_add_left _ _) (h.padded.inRange e he)
  have hnil : index + ([] : Bytes).length < 2 ^ 64 := inRange
  obtain ⟨buf, hpush, hbuf⟩ := h.rested.push_nil flushed hshort inRange (show false = true → _ from nofun)
  obtain ⟨-, hpadded, -⟩ := StreamReassembler.bare_push h.padded h.padded rfl hnil (fun _ => outside)
    (fun _ => outside) false
  have hrested := p.padded.reassembler.rested_push [] index false
  have hsame : (p.padded.reassembler.pushSubstring [] index false).bare = p.plain.reassembler.bare := by
    rw [hpush, ← h.same]
    unfold StreamReassembler.bare
    dsimp only
    rw [hbuf]
    rfl
  dsimp only [Padding.step, Session.step]
  generalize p.padded.reassembler.pushSubstring [] index false = padded at *
  exact ⟨h.plain, hpadded, hrested, hsame, h.log⟩

theorem Alike.step (h : p.Alike) {move : Move} (ok : Harmless p move) : (p.step move).Alike := by
  cases move with
  | empty index => exact h.empty ok.1 ok.2.1 ok.2.2.1
  | both op =>
    cases op with
    | push data index eof => exact h.push ok.1 ok.2 eof
    | pop len => exact h.pop len
    | read len =>
      rw [Padding.step, Session.step_read, Session.step_read]
      exact h.pop len

/-- **Empty pushes outside the stored substrings are ignored.** A run of pushes and reads, and the run with
such pushes inserted anywhere, write the same bytes, store as many, end their outputs alike, and have
handed the same bytes to the reader. -/
theorem empty_pushes_ignored {capacity : Nat} (run : Runs.Reach step Harmless (new capacity) p) :
    p.padded.reassembler.output = p.plain.reassembler.output ∧
      p.padded.reassembler.unassembledBytes = p.plain.reassembler.unassembledBytes ∧
      p.padded.readLog = p.plain.readLog := by
  have h : p.Alike := run.invariant Alike (alike_new capacity) fun _ _ ih ok => ih.step ok
  exact ⟨h.output_eq, congrArg (·.unassemSize) h.same, h.log⟩

/-- Empty pushes before a stored substring, at its start, at its end and far behind it. -/
theorem empty_pushes_ignored_four :
    let p := [.both (.push [3, 4] 2 false), .empty 1, .empty 2, .empty 4, .empty 9,
      .both (.push [1, 2] 0 false), .both (.read 1), .both (.push [5] 4 true)].foldl step (new 8)
    p.padded.reassembler.output = p.plain.reassembler.output ∧
      p.padded.reassembler.unassembledBytes = p.plain.reassembler.unassembledBytes ∧
      p.padded.readLog = p.plain.readLog :=
  empty_pushes_ignored (Runs.reach_foldl .start (by decide +kernel))

/-- Pushes carry excerpts of `S`, and the inserted ones are empty, at any index below `2 ^ 63`. -/
def Carries (S : Bytes) (p : Padding) : Move → Prop
  | .both op => Session.Excerpts S p.plain op
  | .empty index => index < 2 ^ 63

instance (S : Bytes) (p : Padding) : (move : Move) → Decidable (Carries S p move)
  | .both op => inferInstanceAs (Decidable (Session.Excerpts S p.plain op))
  | .empty _ => inferInstanceAs (Decidable (_ < _))

/-- **An empty push inside a stored substring blocks the assembly.** The last byte of the stream is written
in the run without it, and stays unassembled in the run with it. -/
theorem empty_push_blocks :
    let p := [.both (.push [3, 4, 5, 6] 2 false), .empty 4, .both (.push [1, 2] 0 false),
      .both (.push [7] 6 true)].foldl step (new 8)
    Runs.Reach step (Carries [1, 2, 3, 4, 5, 6, 7]) (new 8) p ∧
      p.plain.reassembler.output.bytesWritten = 7 ∧ p.padded.reassembler.output.bytesWritten = 6 ∧
      p.plain.reassembler.unassembledBytes = 0 ∧ p.padded.reassembler.unassembledBytes = 1 ∧
      p.plain.reassembler.output.inputEnded = true ∧ p.padded.reassembler.output.inputEnded = false :=
  ⟨Runs.reach_foldl .start (by decide +kernel), by decide +kernel⟩

end Padding

end Sponge
