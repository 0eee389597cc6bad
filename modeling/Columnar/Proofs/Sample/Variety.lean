import Columnar.Proofs.Distinct.Unique
import Columnar.Proofs.Sample.Forms

namespace Columnar.Sample

/-- After how many rows a sample of so many numbers repeats itself. -/
def period (l : Layout) (distinct : ℕ) : ℕ :=
  (variety? l).elim (max distinct 1) (min (max distinct 1))

theorem period_le (l : Layout) (distinct : ℕ) : period l distinct ≤ max distinct 1 := by
  rw [period]
  cases variety? l with
  | none => exact le_refl _
  | some k => exact min_le_left _ _

theorem residue_of_lt_period {l : Layout} {distinct n : ℕ} (h : n < period l distinct) :
    residue l n = n := by
  rw [period] at h
  rw [residue]
  cases hk : variety? l with
  | none => rfl
  | some k =>
    rw [hk] at h
    exact Nat.mod_eq_of_lt (h.trans_le (min_le_right _ _))

theorem residue_lt_period (l : Layout) (distinct i : ℕ) :
    residue l (i % max distinct 1) < period l distinct := by
  have hlt : i % max distinct 1 < max distinct 1 := Nat.mod_lt i (by omega)
  rw [residue, period]
  cases hk : variety? l with
  | none => exact hlt
  | some k => exact lt_min ((Nat.mod_le _ _).trans_lt hlt) (Nat.mod_lt _ (variety?_pos hk))

/-- A list of which only the first elements are new comes down to these. -/
theorem eraseDups_map_range {α : Type} [DecidableEq α] (f : ℕ → Option α) (m : ℕ) {n : ℕ}
    (hnew : ∀ i < n, i < m → ∀ j < i, f j ≠ f i) (hold : ∀ i < n, m ≤ i → ∃ j < m, f j = f i) :
    ((List.range n).map f).eraseDups = (List.range (min n m)).map f := by
  induction n with
  | zero => simp
  | succ n ih =>
    have hbefore := ih (fun i hi => hnew i (by omega)) (fun i hi => hold i (by omega))
    rw [List.range_succ, List.map_append, List.map_singleton, Ledger.eraseDups_concat, hbefore,
      Ledger.enter]
    -- Of the first `m` each is new; every later one has been seen.
    rcases Nat.lt_or_ge n m with hlt | hge
    · have hfresh : f n ∉ (List.range n).map f := by
        intro hmem
        obtain ⟨j, hj, heq⟩ := List.mem_map.mp hmem
        exact hnew n (Nat.lt_succ_self n) hlt j (List.mem_range.mp hj) heq
      rw [min_eq_left hlt.le, if_neg hfresh, min_eq_left hlt, List.range_succ, List.map_append,
        List.map_singleton]
    · obtain ⟨j, hj, heq⟩ := hold n (Nat.lt_succ_self n) hge
      have hseen : f n ∈ (List.range m).map f :=
        List.mem_map.mpr ⟨j, List.mem_range.mpr hj, heq⟩
      rw [min_eq_right hge, if_pos hseen, min_eq_right (by omega)]

def elements {α : Type} (form : ℕ → α) (rows distinct : ℕ) (withNulls : Bool) : List (Option α) :=
  (List.range rows).map fun i => (number? distinct withNulls i).map form

theorem elements_succ {α : Type} (form : ℕ → α) (rows distinct : ℕ) (withNulls : Bool) :
    elements form (rows + 1) distinct withNulls =
      elements form rows distinct withNulls ++ [(number? distinct withNulls rows).map form] := by
  rw [elements, List.range_succ, List.map_append, List.map_singleton, elements]

section Rows

variable {t : DataType} {form : ℕ → t.Element} (hform : form? t = some form) {rows distinct : ℕ}

include hform

theorem lastOffset_eq_reach (withNulls : Bool) :
    lastOffset t rows distinct withNulls = t.layout.reach (elements form rows distinct withNulls) := by
  induction rows with
  | zero => rfl
  | succ rows ih =>
    have hrow : (number? distinct withNulls rows).elim 0 (extent t) =
        ((number? distinct withNulls rows).map form).elim 0 t.layout.extent := by
      cases number? distinct withNulls rows with
      | none => rfl
      | some n => exact (extent_form hform n).symm
    rw [lastOffset] at ih ⊢
    rw [Nat.fold_succ, ih, elements_succ, hrow]
    simp [Layout.reach]

theorem column?_eq_some_iff {withNulls : Bool} {column : Column} :
    column? t rows distinct withNulls = some column ↔
      t.layout.reach (elements form rows distinct withNulls) ≤ Layout.largestOffset ∧
        column = ⟨t, .ofList (elements form rows distinct withNulls)⟩ := by
  unfold column?
  split
  · cases hform
  · rw [hform]
    change (if lastOffset t rows distinct withNulls ≤ _ then
      some (Column.mk t (.ofList (elements form rows distinct withNulls))) else none) = _ ↔ _
    rw [lastOffset_eq_reach hform]
    split_ifs with h
    · rw [Option.some.injEq, eq_comm]
      exact ⟨fun hcolumn => ⟨h, hcolumn⟩, And.right⟩
    · exact iff_of_false (by simp) fun hcolumn => h hcolumn.1

/-- Numbers have the same form again after a period, and not before. -/
theorem eraseDups_elements (hfloat : ∀ size, t ≠ .float size) (hrows : rows < 2 ^ 31) :
    (elements form rows distinct false).eraseDups =
      (List.range (min rows (period t.layout distinct))).map fun j => some (form j) := by
  have hperiod := period_le t.layout distinct
  have hresidue (i : ℕ) : residue t.layout (i % max distinct 1) % max distinct 1 =
      residue t.layout (i % max distinct 1) :=
    Nat.mod_eq_of_lt ((residue_lt_period _ _ _).trans_le hperiod)
  have hiff {i j : ℕ} (hi : i < rows) (hj : j < rows) :
      form (j % max distinct 1) = form (i % max distinct 1) ↔
        residue t.layout (j % max distinct 1) = residue t.layout (i % max distinct 1) :=
    form_eq_iff hform hfloat (by have := Nat.mod_le j (max distinct 1); omega)
      (by have := Nat.mod_le i (max distinct 1); omega)
  have hmap : elements form rows distinct false =
      (List.range rows).map fun i => some (form (i % max distinct 1)) := by
    simp [elements, number?]
  rw [hmap, eraseDups_map_range _ (period t.layout distinct)]
  · refine List.map_congr_left fun j hj => ?_
    rw [Nat.mod_eq_of_lt]
    have := List.mem_range.mp hj
    omega
  · intro i hi hlt j hj heq
    rw [Option.some.injEq, hiff hi (hj.trans hi), Nat.mod_eq_of_lt (hlt.trans_le hperiod),
      Nat.mod_eq_of_lt ((hj.trans hlt).trans_le hperiod), residue_of_lt_period hlt,
      residue_of_lt_period (hj.trans hlt)] at heq
    exact hj.ne heq
  · intro i hi hge
    have hle : residue t.layout (i % max distinct 1) ≤ i :=
      (residue_le _ _).trans (Nat.mod_le _ _)
    -- The row of that number has the number itself, as it comes before the sample begins anew.
    refine ⟨_, residue_lt_period t.layout distinct i, congrArg some ?_⟩
    rw [hiff hi (hle.trans_lt hi), hresidue, residue_residue]

theorem reach_elements_le_mul {k : ℕ} (hk : ∀ n < 2 ^ 31, extent t n ≤ k) (hrows : rows < 2 ^ 31)
    (withNulls : Bool) : t.layout.reach (elements form rows distinct withNulls) ≤ k * rows := by
  have hrow : ∀ x ∈ (elements form rows distinct withNulls).map (·.elim 0 t.layout.extent),
      x ≤ k := by
    intro x hx
    rw [elements, List.map_map] at hx
    obtain ⟨i, hi, rfl⟩ := List.mem_map.mp hx
    have hlt : i % max distinct 1 < 2 ^ 31 :=
      (Nat.mod_le _ _).trans_lt ((List.mem_range.mp hi).trans hrows)
    simp only [Function.comp_apply, number?]
    split_ifs
    · exact Nat.zero_le _
    · exact (extent_form hform _).trans_le (hk _ hlt)
  have hsum := List.sum_le_card_nsmul _ k hrow
  rwa [List.length_map, elements, List.length_map, List.length_range, smul_eq_mul, mul_comm] at hsum

theorem reach_elements_le_largestOffset (hrows : rows < 2 ^ 31) (withNulls : Bool)
    (hstrings : t = .utf8 ∨ t = .binary → 10 * rows ≤ Layout.largestOffset) :
    t.layout.reach (elements form rows distinct withNulls) ≤ Layout.largestOffset := by
  by_cases h : t = .utf8 ∨ t = .binary
  · have hten : ∀ n < 2 ^ 31, extent t n ≤ 10 := fun n hn => extent_le t (hn.trans (by decide))
    exact (reach_elements_le_mul hform hten hrows withNulls).trans (hstrings h)
  · have hnone : ∀ n < 2 ^ 31, extent t n ≤ 0 := fun n _ => (extent_eq_zero h n).le
    refine (reach_elements_le_mul hform hnone hrows withNulls).trans ?_
    rw [zero_mul]
    exact Nat.zero_le _

end Rows

theorem countP_seventh (n : ℕ) : (List.range n).countP (fun i => i % 7 == 6) = n / 7 := by
  induction n with
  | zero => rfl
  | succ n ih =>
    rw [List.range_succ, List.countP_append, ih, List.countP_singleton]
    split_ifs with h <;> simp at h <;> omega

theorem reach_elements_le (l : Layout) (form : ℕ → l.Element) (rows distinct : ℕ) :
    l.reach (elements form rows distinct true) ≤ l.reach (elements form rows distinct false) := by
  simp only [Layout.reach, elements, List.map_map]
  refine List.sum_le_sum fun i _ => ?_
  by_cases h : i % 7 = 6 <;> simp [number?, h]

section Nulls

variable {l : Layout} (form : ℕ → l.Element) (rows distinct : ℕ)

theorem nullCount_elements :
    (Cells.ofList (l := l) (elements form rows distinct true)).nullCount = rows / 7 := by
  rw [Cells.nullCount, Cells.toList_ofList, elements, List.countP_map, ← countP_seventh rows]
  refine List.countP_congr fun i _ => ?_
  by_cases h : i % 7 = 6 <;> simp [number?, h]

theorem get_elements (withNulls : Bool) {i : ℕ} (hi : i < rows) :
    (Cells.ofList (l := l) (elements form rows distinct withNulls)).get i =
      if withNulls ∧ i % 7 = 6 then none else some (form (i % max distinct 1)) := by
  rw [Cells.get_eq_getElem?, Cells.toList_ofList, elements, List.getElem?_map, List.getElem?_range hi]
  by_cases h : withNulls = true ∧ i % 7 = 6 <;> simp [number?, h]

end Nulls

theorem reach_eraseDups_le (l : Layout) (xs : List (Option l.Element)) :
    l.reach xs.eraseDups ≤ l.reach xs := by
  induction xs using List.reverseRecOn with
  | nil => exact le_refl _
  | append_singleton xs x ih =>
    have hmore (ys : List (Option l.Element)) :
        l.reach (ys ++ [x]) = l.reach ys + l.reach [x] := by
      simp [Layout.reach]
    rw [Ledger.eraseDups_concat, Ledger.enter, hmore]
    split_ifs with h
    · exact ih.trans (Nat.le_add_right _ _)
    · rw [hmore]
      exact Nat.add_le_add_right ih _

/-- Samples are made of these types only. -/
theorem exists_column?_iff {t : DataType} :
    (∃ rows distinct withNulls column, column? t rows distinct withNulls = some column) ↔
      t = .null ∨ Sampled t := by
  rw [← exists_form_iff]
  constructor
  · rintro ⟨rows, distinct, withNulls, column, h⟩
    unfold column? at h
    split at h
    · exact Or.inl rfl
    · cases hform : form? t with
      | none =>
        rw [hform] at h
        cases h
      | some form => exact Or.inr ⟨form, rfl⟩
  · rintro (rfl | ⟨form, hform⟩)
    · exact ⟨0, 0, false, _, rfl⟩
    · exact ⟨0, 0, false, _, (column?_eq_some_iff hform).mpr ⟨Nat.zero_le _, rfl⟩⟩

section Unique

variable [Memory] {t : DataType} (hsampled : Sampled t) (hfloat : ∀ size, t ≠ .float size)
  (ht : t ≠ .fixedSizeBinary 0) {rows : ℕ} (hrows : rows < 2 ^ 31) (distinct : ℕ)

include hsampled hfloat ht hrows

theorem unique_elements {form : ℕ → t.Element} (hform : form? t = some form)
    (hfit : t.layout.reach (elements form rows distinct false) ≤ Layout.largestOffset) :
    ∃ cells, Column.unique ⟨t, .ofList (elements form rows distinct false)⟩ = .ok ⟨t, cells⟩ ∧
      cells.toList = (List.range (min rows (period t.layout distinct))).map fun j => some (form j) := by
  have hall : (elements form rows distinct false).eraseDups = _ :=
    eraseDups_elements hform hfloat hrows
  have hkernel : ∃ kernel, Kernel.create .unique t 0 = .ok kernel :=
    Kernel.exists_create_of_supported hsampled.supported (hsampled.width_pos ht)
      (Memo.reserve_zero t.layout)
  have hfits : t.layout.Fits ([Cells.ofList (elements form rows distinct false)].flatMap
      Cells.toList).eraseDups := by
    rw [List.flatMap_singleton, Cells.toList_ofList]
    refine ⟨?_, (reach_eraseDups_le _ _).trans hfit⟩
    have hslots : Memo.largestSlot + 1 = 2 ^ 31 := by decide
    rw [hall, List.length_map, List.length_range, hslots]
    exact (min_le_left _ _).trans hrows.le
  obtain ⟨cells, hcells, hlist⟩ := uniqueChunked_ok hkernel ht _ hfits
  refine ⟨cells, hcells, ?_⟩
  rw [hlist, List.flatMap_singleton, Cells.toList_ofList, hall]

/-- A sample without nulls has as many distinct values as it has rows, numbers, or forms of numbers, whichever are
the fewest, and shows them in the order of the numbers. With nulls, every seventh row is null and the others are
what they are without. There is a sample of any number of rows, as long as the strings of one column can be that
long together. -/
theorem unique_sample : ∃ form : ℕ → t.Element, form? t = some form ∧
    (∀ withNulls, (∃ column, column? t rows distinct withNulls = some column) ↔
      t.layout.reach (elements form rows distinct withNulls) ≤ Layout.largestOffset) ∧
    ((t = .utf8 ∨ t = .binary → 10 * rows ≤ Layout.largestOffset) →
      ∀ withNulls, ∃ column, column? t rows distinct withNulls = some column) ∧
    (∀ column, column? t rows distinct false = some column → ∃ sample : Cells t.layout,
      column = ⟨t, sample⟩ ∧
      (∃ cells, Column.unique ⟨t, sample⟩ = .ok ⟨t, cells⟩ ∧ cells.toList =
        (List.range (min rows (period t.layout distinct))).map fun j => some (form j)) ∧
      ∃ nulled : Cells t.layout, column? t rows distinct true = some ⟨t, nulled⟩ ∧
        ∀ i < rows, nulled.get i = if i % 7 = 6 then none else sample.get i) ∧
    ∀ column, column? t rows distinct true = some column → ∃ nulled : Cells t.layout,
      column = ⟨t, nulled⟩ ∧ nulled.length = rows ∧ nulled.nullCount = rows / 7 ∧
      ∀ i < rows, nulled.get i = if i % 7 = 6 then none else some (form (i % max distinct 1)) := by
  obtain ⟨form, hform⟩ := exists_form_iff.mpr hsampled
  have hexists (withNulls : Bool) : (∃ column, column? t rows distinct withNulls = some column) ↔
      t.layout.reach (elements form rows distinct withNulls) ≤ Layout.largestOffset := by
    simp only [column?_eq_some_iff hform, exists_and_left, exists_eq, and_true]
  refine ⟨form, hform, hexists, fun hstrings withNulls => (hexists withNulls).mpr
    (reach_elements_le_largestOffset hform hrows withNulls hstrings), fun column hcolumn => ?_,
    fun column hcolumn => ?_⟩
  · obtain ⟨hfit, rfl⟩ := (column?_eq_some_iff hform).mp hcolumn
    have hnulled := (column?_eq_some_iff hform).mpr
      ⟨(reach_elements_le t.layout form rows distinct).trans hfit, rfl⟩
    refine ⟨_, rfl, unique_elements hsampled hfloat ht hrows distinct hform hfit, _, hnulled,
      fun i hi => ?_⟩
    rw [get_elements _ _ _ _ hi, get_elements _ _ _ _ hi]
    simp
  · obtain ⟨-, rfl⟩ := (column?_eq_some_iff hform).mp hcolumn
    refine ⟨_, rfl, ?_, nullCount_elements form rows distinct, fun i hi => ?_⟩
    · simp [Cells.ofList, elements]
    · rw [get_elements _ _ _ _ hi]
      simp

end Unique

/-- There are fewer bytes than rows and numbers, so the bytes come again. -/
theorem unique_sample_bytes :
    letI : Memory := .of47Bits
    let t : DataType := .int .w8
    Sampled t ∧ (∀ size, t ≠ .float size) ∧ t ≠ .fixedSizeBinary 0 ∧ 300 < 2 ^ 31 ∧
    ∃ sample nulled : Cells t.layout, column? t 300 1000 false = some ⟨t, sample⟩ ∧
      (∃ cells, Column.unique ⟨t, sample⟩ = .ok ⟨t, cells⟩ ∧
        cells.toList = (List.range 256).map fun j => some (BitVec.ofNat 8 j)) ∧
      column? t 300 1000 true = some ⟨t, nulled⟩ ∧
      ∀ i < 300, nulled.get i = if i % 7 = 6 then none else sample.get i := by
  intro t
  let memory : Memory := .of47Bits
  have hsampled : Sampled t := .int .w8
  have hfloat : ∀ size, t ≠ .float size := fun size h => DataType.noConfusion h
  have htype : t ≠ .fixedSizeBinary 0 := by decide
  have hrows : 300 < 2 ^ 31 := by decide
  obtain ⟨form, hform, -, hexists, hsample, -⟩ := unique_sample hsampled hfloat htype hrows 1000
  obtain rfl : BitVec.ofNat 8 = form := Option.some.inj hform
  obtain ⟨column, hcolumn⟩ := hexists (by decide) false
  obtain ⟨sample, rfl, hunique, nulled, hnulled, hget⟩ := hsample column hcolumn
  exact ⟨hsampled, hfloat, htype, hrows, sample, nulled, hcolumn, hunique, hnulled, hget⟩

theorem lastOffset_binary (rows distinct : ℕ) : lastOffset .binary rows distinct false = 8 * rows := by
  induction rows with
  | zero => rfl
  | succ rows ih =>
    rw [lastOffset] at ih ⊢
    rw [Nat.fold_succ, ih]
    rfl

/-- The bytes of so many rows are one more than offsets can reach. -/
theorem column?_binary_refused :
    Sampled .binary ∧ DataType.binary ≠ .fixedSizeBinary 0 ∧ 268435456 < 2 ^ 31 ∧
    column? .binary 268435456 1 false = none := by
  have hform : form? .binary = some eightBytes := rfl
  have hover : ¬lastOffset .binary 268435456 1 false ≤ Layout.largestOffset := by
    rw [lastOffset_binary]
    decide
  refine ⟨.binary, by decide, by decide, ?_⟩
  refine Option.eq_none_iff_forall_ne_some.mpr fun column hcolumn => hover ?_
  rw [lastOffset_eq_reach hform]
  exact ((column?_eq_some_iff hform).mp hcolumn).1

end Columnar.Sample
