import Columnar.Proofs.Merge.Runs

namespace Columnar.Merge

variable {α : Type} {order : α → α → Ordering}

/-! ### Stable sorts -/

/-- The items of one list in ascending order, tied items in the order in which they were. -/
structure IsStableSort (order : α → α → Ordering) (items sorted : List α) : Prop where
  perm : sorted.Perm items
  ascending : sorted.Pairwise fun a b => order a b ≠ .gt
  ties : ∀ a, sorted.filter (order a · = .eq) = items.filter (order a · = .eq)

section Preorder

variable [Std.TransCmp order]

theorem ne_gt_trans (a b c : α) : order a b != .gt → order b c != .gt → order a c != .gt := by
  simp only [bne_iff_ne, ← Ordering.isLE_iff_ne_gt]
  exact Std.TransCmp.isLE_trans

theorem ne_gt_total (a b : α) : order a b != .gt || order b a != .gt := by
  rw [@Std.OrientedCmp.eq_swap _ order _ a b]
  cases order b a <;> rfl

theorem keeps_eq_ne_gt (a b : α) : keeps order a b = (order a b != .gt) := by
  rw [keeps, @Std.OrientedCmp.eq_swap _ order _ b a]
  cases order a b <;> rfl

theorem isStableSort_mergeSort (items : List α) :
    IsStableSort order items (items.mergeSort fun a b => order a b != .gt) where
  perm := List.mergeSort_perm _ _
  ascending := by
    simpa only [bne_iff_ne] using List.pairwise_mergeSort ne_gt_trans ne_gt_total items
  ties a := by
    -- Tied items are in order as they stand, so they are a part of the sorted list as they stand.
    have hties : (items.filter (order a · = .eq)).Pairwise fun b c => order b c != .gt := by
      rw [List.pairwise_filter]
      refine List.pairwise_of_forall fun b c hb hc => ?_
      have hba : order b a = .eq := Std.OrientedCmp.eq_symm (by simpa using hb)
      have hbc : order b c = .eq := Std.TransCmp.eq_trans hba (by simpa using hc)
      simp [hbc]
    have hsub := (List.sublist_mergeSort ne_gt_trans ne_gt_total hties List.filter_sublist).filter
      (order a · = .eq)
    rw [List.filter_filter] at hsub
    have hlength := ((List.mergeSort_perm items fun b c => order b c != .gt).filter
      (order a · = .eq)).length_eq
    exact (hsub.eq_of_length (by simpa using hlength.symm)).symm.trans (by simp)

theorem mem_of_ties {l m : List α} {a : α}
    (h : ∀ b, l.filter (order b · = .eq) = m.filter (order b · = .eq)) (ha : a ∈ l) : a ∈ m := by
  have hmem : a ∈ l.filter (order a · = .eq) := by simp [ha, Std.ReflCmp.compare_self]
  rw [h a] at hmem
  exact (List.mem_filter.mp hmem).1

/-- The smallest tie comes first in both lists, and of those that tie with it the same one. -/
theorem eq_of_ties {l m : List α} (hl : l.Pairwise fun a b => order a b ≠ .gt)
    (hm : m.Pairwise fun a b => order a b ≠ .gt)
    (h : ∀ a, l.filter (order a · = .eq) = m.filter (order a · = .eq)) : l = m := by
  induction l generalizing m with
  | nil =>
    cases m with
    | nil => rfl
    | cons b m => exact absurd (mem_of_ties (fun a => (h a).symm) List.mem_cons_self) List.not_mem_nil
  | cons a l ih =>
    cases m with
    | nil => exact absurd (mem_of_ties h List.mem_cons_self) List.not_mem_nil
    | cons b m =>
      -- Either head occurs in the other list, so neither is greater.
      have hab : order a b = .eq := by
        have hb := mem_of_ties (fun c => (h c).symm) (List.mem_cons_self (a := b))
        have ha := mem_of_ties h (List.mem_cons_self (a := a))
        rcases List.mem_cons.mp hb with rfl | hb
        · exact Std.ReflCmp.compare_self
        · rcases List.mem_cons.mp ha with rfl | ha
          · exact Std.ReflCmp.compare_self
          · exact Std.OrientedCmp.isLE_antisymm
              (Ordering.isLE_iff_ne_gt.mpr (List.rel_of_pairwise_cons hl hb))
              (Ordering.isLE_iff_ne_gt.mpr (List.rel_of_pairwise_cons hm ha))
      have hfirst := h a
      rw [List.filter_cons_of_pos (by simp [Std.ReflCmp.compare_self]),
        List.filter_cons_of_pos (by simp [hab])] at hfirst
      obtain rfl := (List.cons.inj hfirst).1
      refine congrArg (a :: ·) (ih hl.of_cons hm.of_cons fun c => ?_)
      have hc := h c
      -- With `c` both heads tie or neither does.
      by_cases hca : order c a = .eq
      · rw [List.filter_cons_of_pos (by simp [hca]), List.filter_cons_of_pos (by simp [hca])] at hc
        exact (List.cons.inj hc).2
      · rwa [List.filter_cons_of_neg (by simp [hca]), List.filter_cons_of_neg (by simp [hca])] at hc

theorem IsStableSort.unique {items sorted other : List α} (h : IsStableSort order items sorted)
    (h' : IsStableSort order items other) : other = sorted :=
  eq_of_ties h'.ascending h.ascending fun a => (h'.ties a).trans (h.ties a).symm

end Preorder

/-! ### Runs side by side -/

def Run.items (run : Run) (buffer : Array α) : List α := (buffer.extract run.start run.stop).toList

/-- From where the first run starts to where the last one stops. Without runs it is empty. -/
def cover (runs : List Run) : Run :=
  ⟨(runs.head?.map Run.start).getD 0, (runs.getLast?.map Run.stop).getD 0⟩

/-- Runs of a buffer that a merge can take: each starts where the one before it stops, and each is in
order. -/
structure Mergeable (order : α → α → Ordering) (buffer : Array α) (runs : List Run) : Prop where
  adjacent : runs.IsChain fun left right => left.stop = right.start
  within : ∀ run ∈ runs, run.start ≤ run.stop ∧ run.stop ≤ buffer.size
  ascending : ∀ run ∈ runs, (run.items buffer).Pairwise fun a b => order a b ≠ .gt

theorem Run.start_add_length_items {run : Run} {buffer : Array α}
    (h : run.start ≤ run.stop ∧ run.stop ≤ buffer.size) :
    run.start + (run.items buffer).length = run.stop := by
  rw [items, Array.length_toList, Array.size_extract]
  omega

theorem cover_cons_cons (first second : Run) (runs : List Run) :
    cover (first :: second :: runs) = ⟨first.start, (cover (second :: runs)).stop⟩ := by
  simp [cover]

namespace Mergeable

variable {buffer : Array α} {first : Run} {runs : List Run}

theorem tail (h : Mergeable order buffer (first :: runs)) : Mergeable order buffer runs where
  adjacent := h.adjacent.tail
  within run hrun := h.within run (List.mem_cons_of_mem _ hrun)
  ascending run hrun := h.ascending run (List.mem_cons_of_mem _ hrun)

theorem cover_within (h : Mergeable order buffer runs) :
    (cover runs).start ≤ (cover runs).stop ∧ (cover runs).stop ≤ buffer.size := by
  induction runs with
  | nil => simp [cover]
  | cons first runs ih =>
    have hfirst := h.within first List.mem_cons_self
    cases runs with
    | nil => exact hfirst
    | cons second runs =>
      have hnext : first.stop = second.start := h.adjacent.rel
      have hrest := ih h.tail
      rw [cover_cons_cons]
      exact ⟨hfirst.1.trans (hnext.le.trans hrest.1), hrest.2⟩

theorem eq_runsFrom (h : Mergeable order buffer runs) :
    runs = runsFrom (cover runs).start (runs.map (·.items buffer)) := by
  induction runs with
  | nil => rfl
  | cons first runs ih =>
    have hstop := Run.start_add_length_items (h.within first List.mem_cons_self)
    cases runs with
    | nil => simp [runsFrom, cover, hstop]
    | cons second runs =>
      have hnext : first.stop = second.start := h.adjacent.rel
      rw [cover_cons_cons, List.map_cons, runsFrom, hstop]
      have hrest := ih h.tail
      rw [show (cover (second :: runs)).start = first.stop from hnext.symm] at hrest
      exact congrArg (first :: ·) hrest

theorem flatten_items (h : Mergeable order buffer runs) :
    (runs.map (·.items buffer)).flatten = (cover runs).items buffer := by
  induction runs with
  | nil => simp [cover, Run.items]
  | cons first runs ih =>
    cases runs with
    | nil => simp [cover]
    | cons second runs =>
      have hnext : first.stop = second.start := h.adjacent.rel
      have hfirst := (h.within first List.mem_cons_self).1
      have hrest := h.tail.cover_within.1
      rw [List.map_cons, List.flatten_cons, ih h.tail, cover_cons_cons, Run.items, Run.items, Run.items,
        ← Array.toList_append]
      change (buffer.extract first.start first.stop ++ buffer.extract second.start _).toList = _
      rw [← hnext, Array.extract_append_extract, Nat.min_eq_left hfirst, Nat.max_eq_right]
      exact hnext.le.trans hrest

end Mergeable

theorem getElem?_runsFrom (start : ℕ) (parts : List (List α)) (k : ℕ) :
    (runsFrom start parts)[k]? = parts[k]?.map fun part =>
      ⟨start + (parts.take k).flatten.length,
        start + (parts.take k).flatten.length + part.length⟩ := by
  induction parts generalizing start k with
  | nil => rfl
  | cons part parts ih =>
    cases k with
    | zero => rfl
    | succ k => simp [runsFrom, ih, Nat.add_assoc]

theorem cover_runsFrom (parts : List (List α)) :
    cover (runsFrom 0 parts) = ⟨0, parts.flatten.length⟩ := by
  rw [cover, Run.mk.injEq]
  constructor
  · cases parts <;> rfl
  · induction parts using List.reverseRecOn with
    | nil => rfl
    | append_singleton parts part =>
      rw [runsFrom_append]
      simp [runsFrom]

theorem items_runsFrom {parts : List (List α)} {k : ℕ} {run : Run}
    (hrun : (runsFrom 0 parts)[k]? = some run) (after : List α) :
    (run.start ≤ run.stop ∧ run.stop ≤ parts.flatten.length) ∧
      parts[k]? = some (run.items (parts.flatten ++ after).toArray) := by
  rw [getElem?_runsFrom, Option.map_eq_some_iff] at hrun
  obtain ⟨part, hpart, rfl⟩ := hrun
  obtain ⟨hk, rfl⟩ := List.getElem?_eq_some_iff.mp hpart
  have hflat : parts.flatten = (parts.take k).flatten ++ (parts[k] ++ (parts.drop (k + 1)).flatten) := by
    rw [← List.flatten_cons, ← List.drop_eq_getElem_cons hk, ← List.flatten_append,
      List.take_append_drop]
  rw [hflat, List.length_append, List.length_append, hpart]
  refine ⟨⟨Nat.le_add_right _ _, by dsimp only; omega⟩, ?_⟩
  simp [Run.items, List.extract_eq_take_drop, List.append_assoc]

theorem isChain_runsFrom (start : ℕ) (parts : List (List α)) :
    (runsFrom start parts).IsChain fun left right => left.stop = right.start := by
  induction parts generalizing start with
  | nil => exact .nil
  | cons part parts ih =>
    cases parts with
    | nil => exact .singleton _
    | cons next parts => exact .cons_cons rfl (ih _)

theorem mergeable_runsFrom {parts : List (List α)} (after : List α)
    (hsorted : ∀ part ∈ parts, part.Pairwise fun a b => order a b ≠ .gt) :
    Mergeable order (parts.flatten ++ after).toArray (runsFrom 0 parts) where
  adjacent := isChain_runsFrom 0 parts
  within run hrun := by
    obtain ⟨k, hk⟩ := List.getElem?_of_mem hrun
    have h := (items_runsFrom hk after).1
    refine ⟨h.1, h.2.trans ?_⟩
    rw [List.size_toArray, List.length_append]
    exact Nat.le_add_right _ _
  ascending run hrun := by
    obtain ⟨k, hk⟩ := List.getElem?_of_mem hrun
    exact hsorted _ (List.mem_of_getElem? (items_runsFrom hk after).2)

/-! ### The buffer after a merge -/

section Splice

variable {buffer items : Array α} {start : ℕ} (h : start + items.size ≤ buffer.size)
include h

theorem size_splice : (splice buffer start items).size = buffer.size := by
  simp only [splice, Array.size_append, Array.size_extract]
  omega

theorem getElem?_splice {i : ℕ} (hi : i < start ∨ start + items.size ≤ i) :
    (splice buffer start items)[i]? = buffer[i]? := by
  have hfront : (buffer.extract 0 start).size = start := by
    rw [Array.size_extract]
    omega
  rcases hi with hi | hi
  · rw [splice, Array.append_assoc, Array.getElem?_append_left (by omega), Array.getElem?_extract,
      if_pos (by omega), Nat.zero_add]
  · rw [splice, Array.getElem?_append_right (by rw [Array.size_append]; omega), Array.getElem?_extract,
      Array.size_append, hfront]
    split
    · congr 1
      omega
    · rw [Array.getElem?_eq_none (by omega)]

theorem extract_splice : (splice buffer start items).extract start (start + items.size) = items := by
  have hfront : (buffer.extract 0 start).size = start := by
    rw [Array.size_extract]
    omega
  rw [splice, Array.append_assoc, Array.extract_append, hfront, Array.extract_append]
  simp

end Splice

variable {buffer : Array α} {runs : List Run}

theorem Run.split_buffer {run : Run} (h : run.start ≤ run.stop ∧ run.stop ≤ buffer.size) :
    (buffer.toList.take run.start ++ run.items buffer ++ buffer.toList.drop run.stop).toArray =
      buffer := by
  apply Array.ext'
  have hdrop : buffer.toList.drop run.stop =
      (buffer.toList.drop run.start).drop (run.stop - run.start) := by
    rw [List.drop_drop, Nat.add_sub_cancel' h.1]
  rw [items, Array.toList_extract, List.extract_eq_take_drop, hdrop, List.append_assoc,
    List.take_append_drop, List.take_append_drop]

variable [Std.TransCmp order]

/-- What the room holds at first does not show in the result. -/
theorem mergeRuns_eq_splice (h : Mergeable order buffer runs) (scratch : Array α) :
    ∃ scratch', mergeRuns order runs ⟨buffer, scratch⟩ = .ok (cover runs,
      ⟨splice buffer (cover runs).start
        (((cover runs).items buffer).mergeSort fun a b => order a b != .gt).toArray, scratch'⟩) := by
  by_cases hne : runs = []
  · subst hne
    exact ⟨scratch, by simp [mergeRuns, cover, Run.items, splice]⟩
  · have hcover := h.cover_within
    have hlength : (buffer.toList.take (cover runs).start).length = (cover runs).start := by
      rw [List.length_take, Array.length_toList]
      omega
    have hsorted : ∀ part ∈ runs.map (·.items buffer), part.Pairwise fun a b => order a b != .gt := by
      intro part hpart
      obtain ⟨run, hrun, rfl⟩ := List.mem_map.mp hpart
      simpa only [bne_iff_ne] using h.ascending run hrun
    obtain ⟨scratch', hmerge⟩ := mergeRuns_toArray ne_gt_trans ne_gt_total (runs.map (·.items buffer))
      (by simpa using hne) (fun a _ b _ => keeps_eq_ne_gt a b) hsorted
      (buffer.toList.take (cover runs).start) (buffer.toList.drop (cover runs).stop) scratch
    -- What lies before and behind the runs is what the merge of lists leaves on either side.
    have hsplice := splice_toArray (buffer.toList.take (cover runs).start) ((cover runs).items buffer)
      (buffer.toList.drop (cover runs).stop)
      (((cover runs).items buffer).mergeSort fun a b => order a b != .gt).toArray (by simp)
    rw [Run.split_buffer hcover, hlength] at hsplice
    rw [hlength, ← h.eq_runsFrom, h.flatten_items, Run.split_buffer hcover,
      Run.start_add_length_items hcover, ← hsplice] at hmerge
    exact ⟨scratch', hmerge⟩

/-- Merging runs never fails, and whatever the room for it held before, the buffer comes out the same: the
stretch that the runs cover is the one stable sort of what it was, and nothing else has moved. -/
theorem mergeRuns_sorts_inPlace (h : Mergeable order buffer runs) :
    ∃ merged : Array α,
      (∀ scratch, ∃ scratch', mergeRuns order runs ⟨buffer, scratch⟩ =
        .ok (cover runs, ⟨merged, scratch'⟩)) ∧
      merged.size = buffer.size ∧
      (∀ i, i < (cover runs).start ∨ (cover runs).stop ≤ i → merged[i]? = buffer[i]?) ∧
      IsStableSort order ((cover runs).items buffer) ((cover runs).items merged) ∧
      ∀ sorted, IsStableSort order ((cover runs).items buffer) sorted →
        sorted = (cover runs).items merged := by
  have hmerge := mergeRuns_eq_splice h
  have hcover := h.cover_within
  have hsort : IsStableSort order _ _ := isStableSort_mergeSort ((cover runs).items buffer)
  generalize ((cover runs).items buffer).mergeSort (fun a b => order a b != .gt) = sorted
    at hmerge hsort
  have hstop : (cover runs).start + sorted.toArray.size = (cover runs).stop := by
    rw [List.size_toArray, hsort.perm.length_eq, Run.start_add_length_items hcover]
  have hfits : (cover runs).start + sorted.toArray.size ≤ buffer.size := hstop.le.trans hcover.2
  have hitems : (cover runs).items (splice buffer (cover runs).start sorted.toArray) = sorted := by
    rw [Run.items, ← hstop, extract_splice hfits]
  refine ⟨_, hmerge, size_splice hfits, fun i hi => ?_, ?_, fun other hother => ?_⟩
  · exact getElem?_splice hfits (hi.imp_right hstop.le.trans)
  · rwa [hitems]
  · rw [hitems]
    exact hsort.unique hother

/-- Three runs, one of them empty, between two items that stay. The letters tell tied items apart. -/
theorem mergeRuns_sorts_inPlace_ties :
    let order : ℕ × Char → ℕ × Char → Ordering := compareOn Prod.fst
    let buffer := #[(9, 'x'), (1, 'a'), (3, 'b'), (1, 'c'), (3, 'd'), (0, 'y')]
    let runs : List Run := [⟨1, 3⟩, ⟨3, 3⟩, ⟨3, 5⟩]
    Std.TransCmp order ∧ Mergeable order buffer runs ∧
    ∃ merged, (∀ scratch, ∃ scratch', mergeRuns order runs ⟨buffer, scratch⟩ =
        .ok (⟨1, 5⟩, ⟨merged, scratch'⟩)) ∧
      merged[0]? = some (9, 'x') ∧ merged[5]? = some (0, 'y') ∧
      [(1, 'a'), (1, 'c'), (3, 'b'), (3, 'd')] = Run.items ⟨1, 5⟩ merged := by
  intro order buffer runs
  have htrans : Std.TransCmp order := inferInstanceAs (Std.TransCmp (compareOn Prod.fst))
  have hmergeable : Mergeable order buffer runs := ⟨by decide, by decide, by decide⟩
  obtain ⟨merged, hmerge, -, houtside, -, hunique⟩ := mergeRuns_sorts_inPlace hmergeable
  refine ⟨htrans, hmergeable, merged, hmerge, ?_, ?_, hunique _ ⟨by decide, by decide, ?_⟩⟩
  · exact houtside 0 (by decide)
  · exact houtside 5 (by decide)
  · intro a
    change List.filter (fun b => compare a.1 b.1 = .eq) _ =
      List.filter (fun b => compare a.1 b.1 = .eq) [(1, 'a'), (3, 'b'), (1, 'c'), (3, 'd')]
    simp only [compare_eq_iff_eq]
    by_cases h₁ : a.1 = 1
    · simp [h₁]
    · by_cases h₃ : a.1 = 3
      · simp [h₃]
      · simp [h₁, h₃]

end Columnar.Merge
