import Columnar.Proofs.Kernel.FirstSight

namespace Columnar

namespace SlotCounts

theorem bump_gap {counts : SlotCounts} {slot : ℕ} (h : counts.size < slot) :
    bump counts slot = .error (.internal (.countSlotGap slot counts.size)) := by
  change (if slot < counts.size then _ else if slot = counts.size then _ else _) = _
  rw [if_neg (Nat.not_lt_of_lt h), if_neg h.ne']

/-- The number of counts after an occurrence of each of the slots, if there were `count` before. -/
def tracked (count : ℕ) (slots : List ℕ) : ℕ :=
  slots.foldl (fun count slot => if slot = count then count + 1 else count) count

/-- The slot at position `p` has a count when its turn comes, or is the next to have one. There is no
slot beyond the largest. -/
def InTurn (count : ℕ) (slots : List ℕ) (p : ℕ) : Prop :=
  ∀ slot, slots[p]? = some slot → slot ≤ Memo.largestSlot ∧ slot ≤ tracked count (slots.take p)

/-- Counts to which one is added for each occurrence of a slot. -/
def plus (counts : SlotCounts) (slots : List ℕ) : SlotCounts :=
  ((List.range (tracked counts.size slots)).map fun slot =>
    counts.getD slot 0 + slots.count slot).toArray

theorem tracked_concat (count : ℕ) (slots : List ℕ) (slot : ℕ) :
    tracked count (slots ++ [slot]) =
      if slot = tracked count slots then tracked count slots + 1 else tracked count slots := by
  rw [tracked, List.foldl_append]
  rfl

theorem inTurn_prefix_iff {count : ℕ} {slots all : List ℕ} (hstart : slots <+: all) {p : ℕ}
    (hp : p < slots.length) : InTurn count all p ↔ InTurn count slots p := by
  obtain ⟨more, rfl⟩ := hstart
  rw [InTurn, InTurn, List.getElem?_append_left hp, List.take_append_of_le_length hp.le]

theorem inTurn_concat_iff {count : ℕ} {slots : List ℕ} {slot : ℕ} :
    InTurn count (slots ++ [slot]) slots.length ↔
      slot ≤ Memo.largestSlot ∧ slot ≤ tracked count slots := by
  simp [InTurn]

end SlotCounts

namespace Ledger

variable {α : Type} [DecidableEq α] {seen counted xs : List (Option α)} {x : Option α}

/-- The slots of elements, the new ones among which come after those seen. -/
def slotsIn (seen xs : List (Option α)) : List ℕ := xs.map ((seen ++ xs).eraseDups.idxOf ·)

theorem nodup_enter (hnodup : seen.Nodup) (x : Option α) : (enter seen x).Nodup := by
  unfold enter
  split
  · exact hnodup
  · next h => exact Memo.nodup_concat hnodup h

theorem eraseDups_eq_self (hnodup : seen.Nodup) : seen.eraseDups = seen := by
  induction seen using List.reverseRecOn with
  | nil => rfl
  | append_singleton seen x ih =>
    obtain ⟨hseen, -, hdisjoint⟩ := List.nodup_append.mp hnodup
    have hnew : x ∉ seen := fun h => hdisjoint x h x (List.mem_singleton_self x) rfl
    rw [eraseDups_concat, ih hseen, enter, if_neg hnew]

theorem eraseDups_eraseDups_append (xs ys : List (Option α)) :
    (xs.eraseDups ++ ys).eraseDups = (xs ++ ys).eraseDups := by
  rw [List.eraseDups_append, List.eraseDups_append, eraseDups_eq_self (nodup_eraseDups xs)]
  simp [List.removeAll]

theorem slotsIn_append (seen xs ys : List (Option α)) :
    slotsIn seen (xs ++ ys) = slotsIn seen xs ++ slotsIn (seen ++ xs) ys := by
  have hall : (seen ++ xs ++ ys).eraseDups =
      (seen ++ xs).eraseDups ++ (ys.removeAll (seen ++ xs)).eraseDups := List.eraseDups_append
  have hold : ∀ x ∈ xs, (seen ++ xs ++ ys).eraseDups.idxOf x = (seen ++ xs).eraseDups.idxOf x := by
    intro x hx
    rw [hall, List.idxOf_append, if_pos (by simp [hx])]
  rw [slotsIn, List.map_append, ← List.append_assoc, List.map_congr_left hold]
  rfl

theorem take_slotsIn (seen xs : List (Option α)) (p : ℕ) :
    (slotsIn seen xs).take p = slotsIn seen (xs.take p) := by
  conv_lhs => rw [← List.take_append_drop p xs, slotsIn_append]
  rcases Nat.le_total p xs.length with hp | hp
  · exact List.take_left' (by simp [slotsIn, hp])
  · simp [slotsIn, List.take_of_length_le, List.drop_of_length_le, hp]

theorem slotsIn_concat (seen xs : List (Option α)) (x : Option α) :
    slotsIn seen (xs ++ [x]) = slotsIn seen xs ++ [(seen ++ xs).eraseDups.idxOf x] := by
  rw [slotsIn_append, slotsIn.eq_def (seen ++ xs), eraseDups_concat, List.map_singleton, idxOf_enter]

theorem getElem?_slotsIn (seen : List (Option α)) {p : ℕ} (hp : p < xs.length) :
    (slotsIn seen xs)[p]? = some ((seen ++ xs.take p).eraseDups.idxOf xs[p]) := by
  rw [← List.getElem?_take_of_lt (Nat.lt_succ_self p), take_slotsIn,
    List.take_succ_eq_append_getElem hp, slotsIn_concat]
  simp [slotsIn, hp.le]

/-- A ledger that lists `seen`, and has counted `counted` since its counts were last taken. -/
def counting (seen counted : List (Option α)) : Ledger .valueCounts α :=
  ⟨seen, (counted.eraseDups.map (counted.count ·)).toArray⟩

/-- What has been counted since are the first elements of the list. -/
structure Counting (seen counted : List (Option α)) : Prop where
  nodup : seen.Nodup
  slots : seen.length ≤ Memo.largestSlot + 1
  front : counted.eraseDups <+: seen

theorem Counting.nil : Counting ([] : List (Option α)) [] where
  nodup := List.nodup_nil
  slots := Nat.zero_le _
  front := List.nil_prefix

theorem size_counting (seen counted : List (Option α)) :
    (counting seen counted).tally.size = counted.eraseDups.length := by
  simp [counting]

theorem idxOf_front {front : List (Option α)} (hfront : front <+: seen)
    (hslot : seen.idxOf x ≤ front.length) :
    seen.idxOf x = front.idxOf x ∧ enter front x <+: enter seen x := by
  obtain ⟨rest, rfl⟩ := hfront
  by_cases hx : x ∈ front
  · rw [List.idxOf_append, if_pos hx, enter, if_pos hx, enter, if_pos (List.mem_append_left _ hx)]
    exact ⟨rfl, List.prefix_append front rest⟩
  · rw [List.idxOf_append, if_neg hx] at hslot ⊢
    have hnext : rest.idxOf x = 0 := by omega
    rw [enter, if_neg hx, hnext, Nat.zero_add, List.idxOf_eq_length hx]
    refine ⟨rfl, ?_⟩
    -- The element comes next, or the front is all there is.
    cases rest with
    | nil => simp [enter, hx]
    | cons y rest =>
      obtain rfl : y = x := by
        by_contra hne
        simp [hne] at hnext
      rw [enter, if_pos (by simp)]
      exact ⟨rest, by simp⟩

theorem idxOf_le_largestSlot_iff (hslots : seen.length ≤ Memo.largestSlot + 1) :
    seen.idxOf x ≤ Memo.largestSlot ↔ x ∈ seen ∨ seen.length ≤ Memo.largestSlot := by
  by_cases hx : x ∈ seen
  · have hlt := List.idxOf_lt_length_of_mem hx
    simp only [hx, true_or, iff_true]
    omega
  · simp [hx]

theorem visit_counting (seen counted : List (Option α)) (x : Option α) :
    (counting seen counted).visit x =
      if x ∈ seen ∨ seen.length ≤ Memo.largestSlot then
        observe ⟨enter seen x, (counting seen counted).tally⟩ (.found (seen.idxOf x))
      else (counting seen counted, .error (.capacity .distinctValues)) :=
  if_neg (by simp [Operation.memoizesNulls])

section Visit

variable (h : Counting seen counted)

include h

theorem Counting.enter (hslot : seen.idxOf x ≤ Memo.largestSlot) {others : List (Option α)}
    (hfront : others.eraseDups <+: Ledger.enter seen x) : Counting (Ledger.enter seen x) others where
  nodup := nodup_enter h.nodup x
  slots := by
    rcases (idxOf_le_largestSlot_iff h.slots).mp hslot with hx | hroom
    · rw [Ledger.enter, if_pos hx]
      exact h.slots
    · unfold Ledger.enter
      split
      · exact h.slots
      · simpa using hroom
  front := hfront

theorem visit_inTurn (hslot : seen.idxOf x ≤ Memo.largestSlot)
    (hturn : seen.idxOf x ≤ counted.eraseDups.length) :
    (counting seen counted).visit x = (counting (enter seen x) (counted ++ [x]), .ok ()) ∧
      Counting (enter seen x) (counted ++ [x]) := by
  obtain ⟨hidx, hfront⟩ := idxOf_front h.front hturn
  rw [← eraseDups_concat] at hfront
  have hbump := bump_counts (nodup_eraseDups counted) (fun y => List.mem_eraseDups) x
  rw [← hidx, ← eraseDups_concat] at hbump
  refine ⟨?_, h.enter hslot hfront⟩
  rw [visit_counting, if_pos ((idxOf_le_largestSlot_iff h.slots).mp hslot), observe, counting,
    Tally.observe, hbump]
  rfl

theorem visit_gap (hslot : seen.idxOf x ≤ Memo.largestSlot)
    (hgap : counted.eraseDups.length < seen.idxOf x) :
    (counting seen counted).visit x = (counting (enter seen x) counted,
        .error (.internal (.countSlotGap (seen.idxOf x) counted.eraseDups.length))) ∧
      Counting (enter seen x) counted := by
  obtain ⟨more, hmore⟩ := enter_eq_append seen x
  have hfront : counted.eraseDups <+: enter seen x := by
    rw [hmore]
    exact h.front.trans (List.prefix_append seen more)
  have hbump := SlotCounts.bump_gap ((size_counting seen counted).symm ▸ hgap)
  rw [size_counting] at hbump
  refine ⟨?_, h.enter hslot hfront⟩
  rw [visit_counting, if_pos ((idxOf_le_largestSlot_iff h.slots).mp hslot), observe, Tally.observe,
    hbump]
  rfl

theorem visit_full (hslot : Memo.largestSlot < seen.idxOf x) :
    (counting seen counted).visit x =
      (counting seen counted, .error (.capacity .distinctValues)) := by
  have hfull := mt (idxOf_le_largestSlot_iff h.slots).mpr (Nat.not_le_of_lt hslot)
  rw [visit_counting, if_neg hfull]

end Visit

theorem length_enter (seen : List (Option α)) (x : Option α) :
    (enter seen x).length =
      if seen.idxOf x = seen.length then seen.length + 1 else seen.length := by
  by_cases hx : x ∈ seen
  · rw [enter, if_pos hx, if_neg (List.idxOf_lt_length_of_mem hx).ne]
  · rw [length_enter_of_not_mem hx, if_pos (List.idxOf_eq_length hx)]

theorem visitAll_append {op : Operation} {ledger next : Ledger op α}
    (h : ledger.visitAll xs = (next, .ok ())) (ys : List (Option α)) :
    ledger.visitAll (xs ++ ys) = next.visitAll ys := by
  induction xs generalizing ledger with
  | nil =>
    obtain rfl : ledger = next := congrArg Prod.fst h
    rfl
  | cons x xs ih =>
    rw [visitAll] at h
    rw [List.cons_append, visitAll]
    rcases hx : ledger.visit x with ⟨after, result⟩
    rw [hx] at h
    cases result with
    | error e => cases h
    | ok _ => exact ih h

theorem visitAll_cons_ok {op : Operation} {ledger next : Ledger op α}
    (h : ledger.visit x = (next, .ok ())) (xs : List (Option α)) :
    ledger.visitAll (x :: xs) = next.visitAll xs := by
  rw [visitAll, h]

theorem visitAll_cons_error {op : Operation} {ledger next : Ledger op α} {e : Failure}
    (h : ledger.visit x = (next, .error e)) (xs : List (Option α)) :
    ledger.visitAll (x :: xs) = (next, .error e) := by
  rw [visitAll, h]

theorem inTurn_take {count p : ℕ} (h : ∀ q < p, SlotCounts.InTurn count (slotsIn seen xs) q) :
    ∀ q < (xs.take p).length, SlotCounts.InTurn count (slotsIn seen (xs.take p)) q := by
  intro q hq
  have hqp : q < p := by
    rw [List.length_take] at hq
    omega
  have hlength : (slotsIn seen (xs.take p)).length = (xs.take p).length := List.length_map _
  rw [← hlength] at hq
  rw [← take_slotsIn] at hq ⊢
  exact (SlotCounts.inTurn_prefix_iff (List.take_prefix p _) hq).mp (h q hqp)

section VisitAll

variable (h : Counting seen counted)

include h

/-- As long as every slot has its turn, what is visited is counted. -/
theorem visitAll_inTurn (xs : List (Option α))
    (hturn : ∀ p < xs.length, SlotCounts.InTurn counted.eraseDups.length (slotsIn seen xs) p) :
    (counting seen counted).visitAll xs =
        (counting (seen ++ xs).eraseDups (counted ++ xs), .ok ()) ∧
      Counting (seen ++ xs).eraseDups (counted ++ xs) ∧
      SlotCounts.tracked counted.eraseDups.length (slotsIn seen xs) =
        (counted ++ xs).eraseDups.length := by
  -- The induction is on the end of the pass: whether the last slot has its turn depends on all before it.
  induction xs using List.reverseRecOn with
  | nil =>
    rw [List.append_nil, List.append_nil, eraseDups_eq_self h.nodup]
    exact ⟨rfl, h, rfl⟩
  | append_singleton xs x ih =>
    have hlength : (slotsIn seen xs).length = xs.length := List.length_map _
    rw [slotsIn_concat] at hturn ⊢
    obtain ⟨hvisit, hcounting, htracked⟩ := ih fun p hp =>
      (SlotCounts.inTurn_prefix_iff (List.prefix_append _ _) (hlength.symm ▸ hp)).mp
        (hturn p (by simp; omega))
    obtain ⟨hslot, hlast⟩ :=
      SlotCounts.inTurn_concat_iff.mp (hlength.symm ▸ hturn xs.length (by simp))
    rw [htracked] at hlast
    obtain ⟨hx, hnext⟩ := visit_inTurn hcounting hslot hlast
    have hidx := (idxOf_front hcounting.front hlast).1
    rw [← eraseDups_concat, List.append_assoc, List.append_assoc] at hx hnext
    refine ⟨?_, hnext, ?_⟩
    · rw [visitAll_append hvisit, visitAll_cons_ok hx, visitAll]
    · rw [SlotCounts.tracked_concat, htracked, hidx, ← List.append_assoc, eraseDups_concat,
        length_enter]

theorem visitAll_stops {p slot : ℕ} (hp : (slotsIn seen xs)[p]? = some slot)
    (hbefore : ∀ q < p, SlotCounts.InTurn counted.eraseDups.length (slotsIn seen xs) q) :
    let count := SlotCounts.tracked counted.eraseDups.length ((slotsIn seen xs).take p)
    (slot ≤ Memo.largestSlot → count < slot →
      (counting seen counted).visitAll xs =
          (counting (seen ++ xs.take (p + 1)).eraseDups (counted ++ xs.take p),
            .error (.internal (.countSlotGap slot count)))) ∧
    (Memo.largestSlot < slot →
      (counting seen counted).visitAll xs =
          (counting (seen ++ xs.take p).eraseDups (counted ++ xs.take p),
            .error (.capacity .distinctValues))) := by
  intro count
  have hlt : p < xs.length := by
    obtain ⟨hlt, -⟩ := List.getElem?_eq_some_iff.mp hp
    simpa [slotsIn] using hlt
  have hxs : xs = xs.take p ++ xs[p] :: xs.drop (p + 1) := by
    rw [← List.drop_eq_getElem_cons hlt, List.take_append_drop]
  obtain rfl : (seen ++ xs.take p).eraseDups.idxOf xs[p] = slot := by
    rw [getElem?_slotsIn seen hlt] at hp
    exact Option.some.inj hp
  -- Up to the position everything is counted, and there the pass is over.
  obtain ⟨hvisit, hcounting, htracked⟩ := visitAll_inTurn h (xs.take p) (inTurn_take hbefore)
  rw [← take_slotsIn] at htracked
  rw [show count = _ from htracked]
  constructor
  · intro hslot hgap
    obtain ⟨hx, -⟩ := visit_gap hcounting hslot hgap
    rw [← eraseDups_concat, List.append_assoc, ← List.take_succ_eq_append_getElem hlt] at hx
    conv_lhs => rw [hxs, visitAll_append hvisit, visitAll_cons_error hx]
  · intro hslot
    have hx := visit_full hcounting hslot
    conv_lhs => rw [hxs, visitAll_append hvisit, visitAll_cons_error hx]

theorem visitAll_ok_iff (xs : List (Option α)) :
    ((counting seen counted).visitAll xs).2 = .ok () ↔
      ∀ p, SlotCounts.InTurn counted.eraseDups.length (slotsIn seen xs) p := by
  constructor
  · intro hok p
    induction p using Nat.strongRecOn with
    | ind p hbefore =>
      intro slot hslot
      obtain ⟨hgap, hfull⟩ := visitAll_stops h hslot hbefore
      have hsmall : slot ≤ Memo.largestSlot := by
        by_contra hlarge
        rw [hfull (Nat.lt_of_not_le hlarge)] at hok
        cases hok
      refine ⟨hsmall, ?_⟩
      by_contra hlate
      rw [hgap hsmall (Nat.lt_of_not_le hlate)] at hok
      cases hok
  · intro hturn
    rw [(visitAll_inTurn h xs fun p _ => hturn p).1]

theorem getD_tally_counting {i : ℕ} (hi : i < seen.length) :
    (counting seen counted).tally.getD i 0 = counted.count seen[i] := by
  obtain ⟨hnodup, -, rest, rfl⟩ := h
  by_cases hcounted : i < counted.eraseDups.length
  · simp [counting, hcounted]
  · have hlast : (counted.eraseDups ++ rest)[i] ∉ counted.eraseDups := by
      rw [List.getElem_append_right (Nat.le_of_not_lt hcounted)]
      exact fun hmem => (List.nodup_append.mp hnodup).2.2 _ hmem _ (List.getElem_mem _) rfl
    rw [List.mem_eraseDups] at hlast
    rw [List.count_eq_zero.mpr hlast]
    simp [counting, hcounted]

theorem counting_append_eq
    (hturn : ∀ p < xs.length, SlotCounts.InTurn counted.eraseDups.length (slotsIn seen xs) p)
    (all : List (Option α)) : counting all (counted ++ xs) =
      ⟨all, SlotCounts.plus (counting seen counted).tally (slotsIn seen xs)⟩ := by
  obtain ⟨-, hafter, htracked⟩ := visitAll_inTurn h xs hturn
  have hfront : counted.eraseDups <+: (counted ++ xs).eraseDups := by
    rw [List.eraseDups_append]
    exact List.prefix_append _ _
  have hbefore : Counting (seen ++ xs).eraseDups counted :=
    ⟨hafter.nodup, hafter.slots, hfront.trans hafter.front⟩
  rw [counting, SlotCounts.plus, size_counting, htracked, Ledger.mk.injEq]
  refine ⟨rfl, congrArg List.toArray (List.ext_getElem (by simp) fun i hi _ => ?_)⟩
  have hi : i < (counted ++ xs).eraseDups.length := by simpa using hi
  have hlt := Nat.lt_of_lt_of_le hi hafter.front.length_le
  -- A slot counts what it had counted before and what the pass adds.
  have hold : (counting seen counted).tally.getD i 0 = counted.count (seen ++ xs).eraseDups[i] :=
    getD_tally_counting hbefore hlt
  have hnew : (slotsIn seen xs).count i = xs.count (seen ++ xs).eraseDups[i] := by
    rw [slotsIn, List.count_eq_countP, List.countP_map, List.count_eq_countP]
    refine List.countP_congr fun z _ => ?_
    rw [Function.comp_apply, beq_iff_eq, beq_iff_eq, ← getElem_eq_iff_idxOf hafter.nodup hlt,
      eq_comm]
  simp only [List.getElem_map, List.getElem_range, hold, hnew, List.count_append,
    hafter.front.getElem hi]

end VisitAll

/-- A ledger whose counts belong to the first elements of its list. -/
def Counts (ledger : Ledger .valueCounts α) : Prop :=
  ∃ seen counted, Counting seen counted ∧ ledger = counting seen counted

theorem Counts.visit {ledger : Ledger .valueCounts α} (h : ledger.Counts) (x : Option α) :
    (ledger.visit x).1.Counts := by
  obtain ⟨seen, counted, h, rfl⟩ := h
  rcases Nat.lt_or_ge Memo.largestSlot (seen.idxOf x) with hlarge | hsmall
  · rw [visit_full h hlarge]
    exact ⟨seen, counted, h, rfl⟩
  · rcases Nat.lt_or_ge counted.eraseDups.length (seen.idxOf x) with hgap | hturn
    · obtain ⟨hvisit, hcounting⟩ := visit_gap h hsmall hgap
      rw [hvisit]
      exact ⟨_, _, hcounting, rfl⟩
    · obtain ⟨hvisit, hcounting⟩ := visit_inTurn h hsmall hturn
      rw [hvisit]
      exact ⟨_, _, hcounting, rfl⟩

theorem Counts.visitAll {ledger : Ledger .valueCounts α} (h : ledger.Counts)
    (xs : List (Option α)) : (ledger.visitAll xs).1.Counts := by
  induction xs generalizing ledger with
  | nil => exact h
  | cons x xs ih =>
    have hnext := h.visit x
    rcases hx : ledger.visit x with ⟨next, result⟩
    rw [hx] at hnext
    cases result with
    | error e => rwa [visitAll_cons_error hx]
    | ok _ => rw [visitAll_cons_ok hx]; exact ih hnext

end Ledger

end Columnar
