import Columnar.Proofs.Kernel.Create
import Columnar.Proofs.Layout.TotalOrder
import Columnar.Proofs.Memo.Requests
import Columnar.Proofs.Merge.Ascending

namespace Columnar

namespace Merge

/-- A comparison that orders some positions linearly, up to those it cannot tell apart. -/
structure Linear (S : Position → Prop) (order : Position → Position → Ordering) : Prop where
  self : ∀ p, S p → order p p = .eq
  swap : ∀ p q, S p → S q → order q p = (order p q).swap
  trans : ∀ p q r, S p → S q → S r → ∀ o, order p q = o → order q r = o → order p r = o
  isLE_trans : ∀ p q r, S p → S q → S r → (order p q).isLE → (order q r).isLE → (order p r).isLE

section Compare

variable {l : Layout} {sources : Array (Cells l)} {p q : Position} {x y : l.Element}

theorem compareAt_eq_order (hp : Position.element? sources p = some (some x))
    (hq : Position.element? sources q = some (some y)) :
    compareAt sources p q = l.order (l.key x) (l.key y) := by
  simp only [compareAt, hp, hq]

theorem linear_compareAt (sources : Array (Cells l)) :
    Linear (IsValue sources) (compareAt sources) where
  self := by
    rintro p ⟨x, hp⟩
    rw [compareAt_eq_order hp hp]
    exact l.order_self _
  swap := by
    rintro p q ⟨x, hp⟩ ⟨y, hq⟩
    rw [compareAt_eq_order hp hq, compareAt_eq_order hq hp]
    exact (l.order_swap _ _).symm
  trans := by
    rintro p q r ⟨x, hp⟩ ⟨y, hq⟩ ⟨z, hr⟩ o
    rw [compareAt_eq_order hp hq, compareAt_eq_order hq hr, compareAt_eq_order hp hr]
    intro hxy hyz
    cases o with
    | lt => exact Std.TransCmp.lt_trans hxy hyz
    | eq => exact Std.TransCmp.eq_trans hxy hyz
    | gt => exact Std.TransCmp.gt_trans hxy hyz
  isLE_trans := by
    rintro p q r ⟨x, hp⟩ ⟨y, hq⟩ ⟨z, hr⟩
    rw [compareAt_eq_order hp hq, compareAt_eq_order hq hr, compareAt_eq_order hp hr]
    exact Std.TransCmp.isLE_trans

end Compare

theorem exists_create_of_hasOrder [Memory] {t : DataType} (horder : hasOrder t) (hlayout : t.layout ≠ .none)
    (hash : t.layout.Key → UInt64) :
    ∃ family memo, Memo.create family t hash 0 = .ok memo := by
  have hfamily : ∃ family, Kernel.family? t = some family := by
    unfold hasOrder at horder
    split at horder
    case h_1 => exact absurd rfl hlayout
    all_goals first | exact ⟨_, rfl⟩ | cases horder
  obtain ⟨family, hfamily⟩ := hfamily
  exact ⟨family, _, Memo.create_eq_ok hash hlayout (Kernel.accepts_of_family? hfamily hlayout)
    (Memo.reserve_zero _)⟩

/-- Values of columns of one type are compared by a linear order, whose ties are values that are the same bit
by bit. In a table of that type, whatever was asked of it before, these are the values with one slot. -/
theorem compareAt_linear [Memory] {t : DataType} (columns : List (Cells t.layout)) :
    let sources := columns.toArray
    Linear (IsValue sources) (compareAt sources) ∧
    (∀ p q x y, Position.element? sources p = some (some x) →
      Position.element? sources q = some (some y) →
      (compareAt sources p q = .eq ↔ x = y) ∧
      (t = .float32 ∨ t = .float64 → ∃ a b, t.layout.datum? x = some a ∧ t.layout.datum? y = some b ∧
        (compareAt sources p q = .lt ↔ a.TotalLess b)) ∧
      ∀ family hash capacity memo, Memo.create family t hash capacity = .ok memo →
        ∀ requests, (∀ key, .insert key ∈ requests → t.layout.Takes key) →
        let table := (trace Memo.serve memo requests).2
        (∀ first grown second last, table.insert (t.layout.key x) = .ok (first, grown) →
          grown.insert (t.layout.key y) = .ok (second, last) →
          (compareAt sources p q = .eq ↔ first.slot = second.slot)) ∧
        (table.size < Memo.largestSlot → ∃ first grown second last,
          table.insert (t.layout.key x) = .ok (first, grown) ∧
          grown.insert (t.layout.key y) = .ok (second, last))) ∧
    (hasOrder t → t.layout ≠ .none →
      ∀ hash, ∃ family memo, Memo.create family t hash 0 = .ok memo) := by
  intro sources
  refine ⟨linear_compareAt sources, fun p q x y hp hq => ?_, exists_create_of_hasOrder⟩
  rw [compareAt_eq_order hp hq]
  refine ⟨Layout.order_eq_eq_iff x y, fun hfloat => ?_, ?_⟩
  · obtain ⟨a, ha⟩ : ∃ a, t.layout.datum? x = some a := by
      rcases hfloat with rfl | rfl <;> exact ⟨_, rfl⟩
    obtain ⟨b, hb⟩ : ∃ b, t.layout.datum? y = some b := by
      rcases hfloat with rfl | rfl <;> exact ⟨_, rfl⟩
    exact ⟨a, b, ha, hb, (Layout.order_eq_lt_iff x y).trans (Layout.less_iff_of_datum? ha hb)⟩
  · intro family hash capacity memo hmemo requests hkeys table
    have htable := Memo.trace_serve_holds (Memo.holds_of_create hmemo).1 requests hkeys
    have hx := t.layout.takes_key x
    have hy := t.layout.takes_key y
    refine ⟨fun first grown second last hfirst hsecond => ?_, htable.exists_slots hx hy⟩
    rw [htable.slot_eq_iff hx hy hfirst hsecond, (Layout.key_injective _).eq_iff]
    exact Layout.order_eq_eq_iff x y

/-- A NaN with a sign comes before both zeros, and these are not the same: in a table that has had other
values, nulls and a clearing they take two slots. The one NaN has its slot from either column. -/
theorem compareAt_linear_floats :
    letI : Memory := .of47Bits
    let columns : List (Cells DataType.float32.layout) :=
      [.ofList [some 0xffc00000#32, none, some 0x80000000#32],
        .ofList [some 0x00000000#32, some 0xffc00000#32]]
    let compare := compareAt columns.toArray
    let requests : List (Memo.Request DataType.float32.layout.Key) :=
      [.insert 0x80000000#32, .insertNull, .clear, .insert 0x00000000#32]
    compare ⟨0, 0⟩ ⟨0, 2⟩ = .lt ∧ compare ⟨0, 2⟩ ⟨1, 0⟩ = .lt ∧ compare ⟨0, 0⟩ ⟨1, 0⟩ = .lt ∧
      compare ⟨1, 0⟩ ⟨0, 0⟩ = .gt ∧
    ∃ family memo, Memo.create family .float32 (fun _ => 7) 0 = .ok memo ∧
      let table := (trace Memo.serve memo requests).2
      (∃ first grown second last, table.insert 0x80000000#32 = .ok (first, grown) ∧
        grown.insert 0x00000000#32 = .ok (second, last) ∧ first.slot ≠ second.slot) ∧
      ∃ first grown second last, table.insert 0xffc00000#32 = .ok (first, grown) ∧
        grown.insert 0xffc00000#32 = .ok (second, last) ∧ first.slot = second.slot := by
  intro columns compare requests
  let memory : Memory := .of47Bits
  obtain ⟨hlinear, hcompare, hcreate⟩ := compareAt_linear (t := .float32) columns
  have hzeros := hcompare ⟨0, 2⟩ ⟨1, 0⟩ 0x80000000#32 0x00000000#32 rfl rfl
  have hnans := hcompare ⟨0, 0⟩ ⟨1, 1⟩ 0xffc00000#32 0xffc00000#32 rfl rfl
  have hfirst : compare ⟨0, 0⟩ ⟨0, 2⟩ = .lt := by
    obtain ⟨a, b, ha, hb, hiff⟩ :=
      (hcompare ⟨0, 0⟩ ⟨0, 2⟩ 0xffc00000#32 0x80000000#32 rfl rfl).2.1 (Or.inl rfl)
    cases ha
    cases hb
    exact hiff.mpr (Or.inl (by decide))
  have hsecond : compare ⟨0, 2⟩ ⟨1, 0⟩ = .lt := by
    obtain ⟨a, b, ha, hb, hiff⟩ := hzeros.2.1 (Or.inl rfl)
    have hminus : DataType.float32.layout.datum? 0x80000000#32 = some (.finite true 0) := by cbv
    have hplus : DataType.float32.layout.datum? 0x00000000#32 = some (.finite false 0) := by cbv
    obtain rfl := Option.some.inj (ha.symm.trans hminus)
    obtain rfl := Option.some.inj (hb.symm.trans hplus)
    exact hiff.mpr (Or.inr (Or.inr ⟨rfl, rfl, rfl⟩))
  have hthird : compare ⟨0, 0⟩ ⟨1, 0⟩ = .lt :=
    hlinear.trans _ _ _ ⟨0xffc00000#32, rfl⟩ ⟨0x80000000#32, rfl⟩ ⟨0x00000000#32, rfl⟩ .lt hfirst
      hsecond
  obtain ⟨family, memo, hmemo⟩ := hcreate rfl (by decide) fun _ => 7
  have hkeys : ∀ key, .insert key ∈ requests → DataType.float32.layout.Takes key :=
    fun _ _ => trivial
  have hsize := Memo.Holds.size_eq
    (Memo.trace_serve_holds (Memo.holds_of_create hmemo).1 requests hkeys)
  have hroom : (trace Memo.serve memo requests).2.size < Memo.largestSlot :=
    hsize.trans_lt (by decide)
  refine ⟨hfirst, hsecond, hthird, ?_, family, memo, hmemo, ?_, ?_⟩
  · exact (hlinear.swap _ _ ⟨0xffc00000#32, rfl⟩ ⟨0x00000000#32, rfl⟩).trans
      (congrArg Ordering.swap hthird)
  · obtain ⟨hslots, hexists⟩ := hzeros.2.2 family _ 0 memo hmemo requests hkeys
    obtain ⟨first, grown, second, last, hx, hy⟩ := hexists hroom
    refine ⟨first, grown, second, last, hx, hy, fun hsame => ?_⟩
    have heq := (hslots _ _ _ _ hx hy).mpr hsame
    exact absurd (heq.symm.trans hsecond) (by decide)
  · obtain ⟨hslots, hexists⟩ := hnans.2.2 family _ 0 memo hmemo requests hkeys
    obtain ⟨first, grown, second, last, hx, hy⟩ := hexists hroom
    exact ⟨first, grown, second, last, hx, hy, (hslots _ _ _ _ hx hy).mp (hnans.1.mpr rfl)⟩

end Merge

end Columnar
