import Columnar.Merge.Runs
import Columnar.Proofs.Merge.StableSort

namespace Columnar.Merge

variable {α : Type}

/-- The runs of a buffer in which the parts lie side by side from `start` on. -/
def runsFrom (start : ℕ) : List (List α) → List Run
  | [] => []
  | part :: parts => ⟨start, start + part.length⟩ :: runsFrom (start + part.length) parts

@[simp] theorem length_runsFrom (start : ℕ) (parts : List (List α)) :
    (runsFrom start parts).length = parts.length := by
  induction parts generalizing start with
  | nil => rfl
  | cons part parts ih => simp [runsFrom, ih]

theorem runsFrom_append (start : ℕ) (front back : List (List α)) :
    runsFrom start (front ++ back) =
      runsFrom start front ++ runsFrom (start + front.flatten.length) back := by
  induction front generalizing start with
  | nil => simp [runsFrom]
  | cons part front ih => simp [runsFrom, ih, Nat.add_assoc]

theorem take_runsFrom (start n : ℕ) (parts : List (List α)) :
    (runsFrom start parts).take n = runsFrom start (parts.take n) := by
  induction parts generalizing start n with
  | nil => simp [runsFrom]
  | cons part parts ih => cases n <;> simp [runsFrom, ih]

theorem drop_runsFrom (start n : ℕ) (parts : List (List α)) :
    (runsFrom start parts).drop n =
      runsFrom (start + (parts.take n).flatten.length) (parts.drop n) := by
  have h := runsFrom_append start (parts.take n) (parts.drop n)
  rw [List.take_append_drop, ← take_runsFrom] at h
  exact List.append_cancel_left ((List.take_append_drop n _).trans h)

theorem splice_toArray (before old after : List α) (items : Array α)
    (h : items.size = old.length) :
    splice (before ++ old ++ after).toArray before.length items =
      (before ++ items.toList ++ after).toArray := by
  have hfront : (before ++ old ++ after).take before.length = before := by
    rw [List.append_assoc, List.take_left]
  have hback : (before ++ old ++ after).drop (before.length + items.size) = after := by
    rw [h, ← List.length_append, List.drop_left]
  apply Array.ext'
  simp only [splice, Array.toList_append, Array.toList_extract, List.extract_eq_take_drop,
    List.size_toArray, hback, Nat.sub_zero, List.drop_zero, hfront]
  rw [List.take_of_length_le (by simp only [List.length_append]; omega)]

variable (order : α → α → Ordering)

/-- Two items side by side stay so unless the right one is less. -/
def keeps (a b : α) : Bool := order b a != .lt

theorem toList_extract_cons (run : Array α) {i j : ℕ} (hij : i < j) (hj : j ≤ run.size) :
    (run.extract i j).toList = run[i] :: (run.extract (i + 1) j).toList := by
  have hi : i < run.toList.length := by simp; omega
  have hn : j - i = j - (i + 1) + 1 := by omega
  rw [Array.toList_extract, Array.toList_extract, List.extract_eq_take_drop,
    List.extract_eq_take_drop, List.drop_eq_getElem_cons hi, hn, List.take_succ_cons]
  simp

theorem toList_collect (run : Array α) (middle : ℕ) (hm : middle ≤ run.size) (left right : ℕ)
    (scratch : Array α) :
    (collect order run middle hm left right scratch).toList = scratch.toList ++
      (run.extract left middle).toList.merge (run.extract right run.size).toList
        (keeps order) := by
  fun_induction collect order run middle hm left right scratch with
  | case1 left right scratch h hlt ih =>
    rw [ih, toList_extract_cons run h.1 hm, toList_extract_cons run h.2 le_rfl,
      List.cons_merge_cons_neg]
    · simp
    · simp [keeps, hlt]
  | case2 left right scratch h hlt ih =>
    rw [ih, toList_extract_cons run h.1 hm, toList_extract_cons run h.2 le_rfl,
      List.cons_merge_cons_pos]
    · simp
    · simp [keeps, hlt]
  | case3 left right scratch h =>
    rcases Nat.lt_or_ge left middle with hl | hl
    · have hr : run.size ≤ right := by omega
      simp [List.extract_eq_take_drop, Nat.sub_eq_zero_of_le hr]
    · simp [List.extract_eq_take_drop, Nat.sub_eq_zero_of_le hl]

theorem mergeAdjacent_toArray (before left right after : List α) (scratch : Array α) :
    ∃ scratch', mergeAdjacent order
        ⟨before.length, before.length + (left.length + right.length)⟩ left.length
        ⟨(before ++ (left ++ right) ++ after).toArray, scratch⟩ =
      .ok ⟨(before ++ left.merge right (keeps order) ++ after).toArray, scratch'⟩ := by
  have hitems : (before ++ (left ++ right) ++ after).toArray.extract before.length
      (before.length + (left.length + right.length)) = (left ++ right).toArray := by
    apply Array.ext'
    simp [List.extract_eq_take_drop, List.take_append]
  -- The stretch lies in the buffer, so the check on its bounds passes.
  have hin : ¬(before.length + (left.length + right.length) < before.length ∨
      (before ++ (left ++ right) ++ after).toArray.size <
        before.length + (left.length + right.length)) := by
    simp only [List.size_toArray, List.length_append]
    omega
  have hmiddle : left.length ≤ (left ++ right).toArray.size := by simp
  simp only [mergeAdjacent, hin, if_false, hitems, hmiddle, dif_pos]
  by_cases hempty : left.length = 0 ∨ left.length = (left ++ right).toArray.size
  · rw [if_pos hempty]
    -- Next to an empty half there is nothing to merge, and the buffer stays as it is.
    refine ⟨scratch, ?_⟩
    rcases hempty with h | h
    · simp [List.length_eq_zero_iff.mp h]
    · have hr : right = [] := by simpa using h
      simp [hr]
  · rw [if_neg hempty]
    have hmerged := toList_collect order (left ++ right).toArray left.length hmiddle 0 left.length
      (scratch.take 0)
    generalize collect order (left ++ right).toArray left.length hmiddle 0 left.length
      (scratch.take 0) = merged at hmerged ⊢
    have hlist : merged.toList = left.merge right (keeps order) := by
      simpa [List.extract_eq_take_drop] using hmerged
    have hsize : merged.size = (left ++ right).length := by
      rw [← Array.length_toList, hlist, List.length_merge, List.length_append]
    simp only [List.size_toArray, hsize, if_true]
    exact ⟨merged, by rw [splice_toArray before (left ++ right) after merged hsize, hlist]⟩

theorem mergeRuns_halves (runs : List Run) (h : 2 ≤ runs.length) (work : Workspace α) :
    mergeRuns order runs work = (do
      let (left, work) ← mergeRuns order (runs.take (runs.length / 2)) work
      let (right, work) ← mergeRuns order (runs.drop (runs.length / 2)) work
      let work ← mergeAdjacent order ⟨left.start, right.stop⟩ left.length work
      return (⟨left.start, right.stop⟩, work)) := by
  match runs, h with
  | _ :: _ :: _, _ => rw [mergeRuns]

/-- Merging the runs of these parts sorts the stretch they cover, whatever lies before and after it. -/
def SortsInPlace (le : α → α → Bool) (parts : List (List α)) : Prop :=
  ∀ (before after : List α) (scratch : Array α), ∃ scratch',
    mergeRuns order (runsFrom before.length parts)
        ⟨(before ++ parts.flatten ++ after).toArray, scratch⟩ =
      .ok (⟨before.length, before.length + parts.flatten.length⟩,
        ⟨(before ++ parts.flatten.mergeSort le ++ after).toArray, scratch'⟩)

section Preorder

variable {order} {le : α → α → Bool}
  (trans : ∀ a b c, le a b → le b c → le a c) (total : ∀ a b, le a b || le b a)
include trans total

theorem SortsInPlace.append {front back : List (List α)} (hfront : SortsInPlace order le front)
    (hback : SortsInPlace order le back) (hmany : 2 ≤ (front ++ back).length)
    (hhalf : (front ++ back).length / 2 = front.length)
    (hle : ∀ a ∈ front.flatten, ∀ b ∈ back.flatten, keeps order a b = le a b) :
    SortsInPlace order le (front ++ back) := by
  intro before after scratch
  -- The right half is still unsorted while the left one is sorted, and then starts after it.
  obtain ⟨scratch₁, h₁⟩ := hfront before (back.flatten ++ after) scratch
  obtain ⟨scratch₂, h₂⟩ := hback (before ++ front.flatten.mergeSort le) after scratch₁
  obtain ⟨scratch₃, h₃⟩ := mergeAdjacent_toArray order before (front.flatten.mergeSort le)
    (back.flatten.mergeSort le) after scratch₂
  have hmerge : (front.flatten.mergeSort le).merge (back.flatten.mergeSort le) (keeps order) =
      (front.flatten ++ back.flatten).mergeSort le := by
    rw [← merge_mergeSort trans total]
    apply merge_congr
    intro a ha b hb
    exact hle a (List.mem_mergeSort.mp ha) b (List.mem_mergeSort.mp hb)
  refine ⟨scratch₃, ?_⟩
  simp only [List.length_append, List.length_mergeSort, List.append_assoc, Nat.add_assoc]
    at h₁ h₂ h₃
  rw [mergeRuns_halves order _ (by simpa using hmany), length_runsFrom, hhalf, take_runsFrom,
    drop_runsFrom, List.take_left, List.drop_left]
  simp only [List.flatten_append, List.length_append, List.append_assoc, h₁, bind, Except.bind, h₂,
    Run.length, Nat.add_sub_cancel_left, h₃, hmerge, pure, Except.pure]

/-- The order need only agree with a preorder on the items that are merged. -/
theorem mergeRuns_toArray (parts : List (List α)) (hne : parts ≠ [])
    (hle : ∀ a ∈ parts.flatten, ∀ b ∈ parts.flatten, keeps order a b = le a b)
    (hsorted : ∀ part ∈ parts, part.Pairwise fun a b => le a b) : SortsInPlace order le parts := by
  -- Both halves are shorter than the whole, but neither is its tail.
  induction hn : parts.length using Nat.strong_induction_on generalizing parts with
  | _ n ih =>
  rcases Nat.lt_or_ge parts.length 2 with hone | hmany
  · obtain ⟨part, rfl⟩ : ∃ part, parts = [part] := by
      have hpos := List.length_pos_iff.mpr hne
      exact List.length_eq_one_iff.mp (by omega)
    have hpart : part.mergeSort le = part := List.mergeSort_of_pairwise (hsorted part (by simp))
    intro before after scratch
    exact ⟨scratch, by simp [runsFrom, mergeRuns, hpart]⟩
  · obtain ⟨front, back, hfront, hparts⟩ : ∃ front back,
        parts.length / 2 = front.length ∧ parts = front ++ back :=
      ⟨parts.take (parts.length / 2), parts.drop (parts.length / 2), by simp; omega, by simp⟩
    subst hparts
    rw [List.length_append] at hn hmany hfront
    have hfront_ne : front ≠ [] := List.length_pos_iff.mp (by omega)
    have hback_ne : back ≠ [] := List.length_pos_iff.mp (by omega)
    have hfront_mem : ∀ a ∈ front.flatten, a ∈ (front ++ back).flatten := by
      intro a ha
      rw [List.flatten_append]
      exact List.mem_append_left _ ha
    have hback_mem : ∀ a ∈ back.flatten, a ∈ (front ++ back).flatten := by
      intro a ha
      rw [List.flatten_append]
      exact List.mem_append_right _ ha
    apply SortsInPlace.append trans total
    · exact ih front.length (by omega) front hfront_ne
        (fun a ha b hb => hle a (hfront_mem a ha) b (hfront_mem b hb))
        (fun part hp => hsorted part (List.mem_append_left _ hp)) rfl
    · exact ih back.length (by omega) back hback_ne
        (fun a ha b hb => hle a (hback_mem a ha) b (hback_mem b hb))
        (fun part hp => hsorted part (List.mem_append_right _ hp)) rfl
    · rwa [List.length_append]
    · rwa [List.length_append]
    · intro a ha b hb
      exact hle a (hfront_mem a ha) b (hback_mem b hb)

theorem mergeRuns_flatten (parts : List (List α))
    (hle : ∀ a ∈ parts.flatten, ∀ b ∈ parts.flatten, keeps order a b = le a b)
    (hsorted : ∀ part ∈ parts, part.Pairwise fun a b => le a b) (scratch : Array α) :
    ∃ run scratch', mergeRuns order (runsFrom 0 parts) ⟨parts.flatten.toArray, scratch⟩ =
      .ok (run, ⟨(parts.flatten.mergeSort le).toArray, scratch'⟩) := by
  by_cases hne : parts = []
  · exact ⟨⟨0, 0⟩, scratch, by simp [hne, runsFrom, mergeRuns]⟩
  · obtain ⟨scratch', h⟩ := mergeRuns_toArray trans total parts hne hle hsorted [] [] scratch
    exact ⟨_, scratch', by simpa using h⟩

end Preorder

end Columnar.Merge
