import Mathlib

namespace Columnar.Merge

variable {α : Type} {le : α → α → Bool}

theorem places_eq_of_zipIdxLE {a b : α × ℕ} (hab : List.zipIdxLE le a b)
    (hba : List.zipIdxLE le b a) : a.2 = b.2 := by
  simp only [List.zipIdxLE] at hab hba
  grind

theorem zipIdx_snd_injective (l : List α) (n : ℕ) {a b : α × ℕ} (ha : a ∈ l.zipIdx n)
    (hb : b ∈ l.zipIdx n) (h : a.2 = b.2) : a = b := by
  have ha' := List.mem_zipIdx ha
  have hb' := List.mem_zipIdx hb
  have hi : a.2 - n = b.2 - n := by rw [h]
  exact Prod.ext (by rw [ha'.2.2, hb'.2.2]; simp only [hi]) h

/-- Counting the places from `n` on breaks ties in the same way. -/
theorem mergeSort_zipIdx_from (l : List α) (n : ℕ) :
    ((l.zipIdx n).mergeSort (List.zipIdxLE le)).map Prod.fst = l.mergeSort le := by
  have hle : ∀ a ∈ l.zipIdx, ∀ b ∈ l.zipIdx, List.zipIdxLE le a b =
      List.zipIdxLE le (a.1, n + a.2) (b.1, n + b.2) := by
    intro a _ b _
    simp [List.zipIdxLE]
  rw [List.zipIdx_eq_map_add, ← List.map_mergeSort hle, List.map_map]
  exact List.mergeSort_zipIdx

theorem mergeSort_congr {r s : α → α → Bool} {l : List α}
    (h : ∀ a ∈ l, ∀ b ∈ l, r a b = s a b) : l.mergeSort r = l.mergeSort s := by
  simpa using List.map_mergeSort (f := id) h

theorem merge_congr {r s : α → α → Bool} {l m : List α}
    (h : ∀ a ∈ l, ∀ b ∈ m, r a b = s a b) : l.merge m r = l.merge m s := by
  simpa using List.map_merge (f := id) h

section Preorder

variable (trans : ∀ a b c, le a b → le b c → le a c) (total : ∀ a b, le a b || le b a)
include trans total

theorem merge_mergeSort (l m : List α) :
    (l.mergeSort le).merge (m.mergeSort le) le = (l ++ m).mergeSort le := by
  have htrans := List.zipIdxLE_trans trans
  have htotal := List.zipIdxLE_total total
  let left := l.zipIdx.mergeSort (List.zipIdxLE le)
  let right := (m.zipIdx l.length).mergeSort (List.zipIdxLE le)
  have hplaces : ∀ a b, a ∈ left → b ∈ right → a.2 ≤ b.2 := by
    intro a b ha hb
    have ha' := List.mem_zipIdx (List.mem_mergeSort.mp ha)
    have hb' := List.mem_zipIdx (List.mem_mergeSort.mp hb)
    omega
  -- With the places in the order no two items tie, so the items alone fix the sorted list.
  have hmerged : left.merge right (List.zipIdxLE le) =
      (l ++ m).zipIdx.mergeSort (List.zipIdxLE le) := by
    have hperm : (left.merge right (List.zipIdxLE le)).Perm (l ++ m).zipIdx := by
      rw [List.zipIdx_append, Nat.zero_add]
      exact (List.merge_perm_append _).trans
        ((List.mergeSort_perm _ _).append (List.mergeSort_perm _ _))
    refine @List.Perm.eq_of_pairwise _ (fun a b => List.zipIdxLE le a b) _ _ ?_
      (List.pairwise_merge htrans htotal _ _ (List.pairwise_mergeSort htrans htotal _)
        (List.pairwise_mergeSort htrans htotal _))
      (List.pairwise_mergeSort htrans htotal _) (hperm.trans (List.mergeSort_perm _ _).symm)
    intro a b ha hb hab hba
    exact zipIdx_snd_injective (l ++ m) 0 (hperm.mem_iff.mp ha) (List.mem_mergeSort.mp hb)
      (places_eq_of_zipIdxLE hab hba)
  calc (l.mergeSort le).merge (m.mergeSort le) le
      = (left.map Prod.fst).merge (right.map Prod.fst) le := by
        rw [mergeSort_zipIdx_from l 0, mergeSort_zipIdx_from m l.length]
    _ = (left.merge right (List.zipIdxLE le)).map Prod.fst := (List.merge_stable _ _ hplaces).symm
    _ = (l ++ m).mergeSort le := by rw [hmerged, mergeSort_zipIdx_from]

theorem mergeSort_flatten_sorted (parts : List (List α)) :
    (parts.map fun part => part.mergeSort le).flatten.mergeSort le =
      parts.flatten.mergeSort le := by
  induction parts with
  | nil => rfl
  | cons part parts ih =>
    have htwice : (part.mergeSort le).mergeSort le = part.mergeSort le :=
      List.mergeSort_of_pairwise (List.pairwise_mergeSort trans total part)
    rw [List.map_cons, List.flatten_cons, List.flatten_cons, ← merge_mergeSort trans total, htwice,
      ih, merge_mergeSort trans total]

/-- Tied items keep whatever order relation all items had before the sort. -/
theorem pairwise_mergeSort_ties {R : α → α → Prop} {l : List α} (h : l.Pairwise R) :
    (l.mergeSort le).Pairwise fun a b => le a b ∧ (le b a → R a b) := by
  have htrans := List.zipIdxLE_trans trans
  have htotal := List.zipIdxLE_total total
  have hperm := List.mergeSort_perm l.zipIdx (List.zipIdxLE le)
  have hnodup : (l.zipIdx.mergeSort (List.zipIdxLE le)).Nodup :=
    hperm.nodup_iff.mpr (List.Nodup.of_map Prod.snd (by simp [List.nodup_range']))
  -- A tie is broken by the places, and those are in order where the items were.
  rw [← mergeSort_zipIdx_from l 0, List.pairwise_map]
  refine ((List.pairwise_mergeSort htrans htotal l.zipIdx).and hnodup).imp_of_mem ?_
  rintro ⟨a, i⟩ ⟨b, j⟩ ha hb ⟨hle, hne⟩
  have ha' := List.mem_zipIdx (hperm.mem_iff.mp ha)
  have hb' := List.mem_zipIdx (hperm.mem_iff.mp hb)
  simp only [Nat.zero_add, Nat.sub_zero] at ha' hb'
  unfold List.zipIdxLE at hle
  split_ifs at hle with hab hba
  · refine ⟨hab, fun _ => ?_⟩
    have hij : i ≠ j := by
      rintro rfl
      exact hne (Prod.ext (ha'.2.2.trans hb'.2.2.symm) rfl)
    have hlt : i < j := lt_of_le_of_ne (by simpa using hle) hij
    rw [ha'.2.2, hb'.2.2]
    exact List.pairwise_iff_getElem.mp h i j ha'.2.1 hb'.2.1 hlt
  · exact ⟨hab, fun hba' => absurd hba' hba⟩

end Preorder

end Columnar.Merge
