import Columnar.Proofs.Kernel.Create

namespace Columnar

def Tally.pending : {op : Operation} → Tally op → Option (Cells DataType.int32.layout)
  | .unique, _ | .valueCounts, _ => none
  | .dictionaryEncode, keys => some keys.cells

/-- The distinct elements seen, in the order of their slots, and what was made of the observations. -/
structure Ledger (op : Operation) (α : Type) where
  seen : List (Option α)
  tally : Tally op

namespace Ledger

variable {op : Operation} {α : Type} [DecidableEq α]

def empty (op : Operation) (α : Type) : Ledger op α := ⟨[], .empty op⟩

def observe (ledger : Ledger op α) (observation : Observation) : Step (Ledger op α) Unit :=
  match ledger.tally.observe observation with
  | .error e => (ledger, .error e)
  | .ok tally => (⟨ledger.seen, tally⟩, .ok ())

def enter (seen : List (Option α)) (x : Option α) : List (Option α) :=
  if x ∈ seen then seen else seen ++ [x]

def visit (ledger : Ledger op α) (x : Option α) : Step (Ledger op α) Unit :=
  if x = none ∧ ¬op.memoizesNulls then ledger.observe (.nullFound none)
  else if x ∈ ledger.seen ∨ ledger.seen.length ≤ Memo.largestSlot then
    observe ⟨enter ledger.seen x, ledger.tally⟩ (.found (ledger.seen.idxOf x))
  else (ledger, .error (.capacity .distinctValues))

def visitAll (ledger : Ledger op α) : List (Option α) → Step (Ledger op α) Unit
  | [] => (ledger, .ok ())
  | x :: xs =>
    match ledger.visit x with
    | (ledger, .ok ()) => ledger.visitAll xs
    | stopped => stopped

def append [Memory] (ledger : Ledger op α) (xs : List (Option α)) : Step (Ledger op α) Unit :=
  match ledger.tally.reserve xs.length with
  | .error e => (ledger, .error e)
  | .ok () => ledger.visitAll xs

def flush (ledger : Ledger op α) : Option (Cells DataType.int32.layout) × Ledger op α :=
  (ledger.tally.pending, ⟨ledger.seen, ledger.tally.flush.2⟩)

def flushFinal (ledger : Ledger op α) : Option (Cells DataType.int64.layout) × Ledger op α :=
  let (out, tally) := ledger.tally.flushFinal
  (out, ⟨ledger.seen, tally⟩)

end Ledger

namespace Tally

variable {op : Operation}

theorem flush_fst (tally : Tally op) : tally.flush.1 = .ok tally.pending := by
  cases op with
  | unique | valueCounts => rfl
  | dictionaryEncode => exact congrArg (Except.map some) tally.toCells_eq_ok

/-- Whether an element is new makes no difference to a tally. -/
theorem observe_inserted (tally : Tally op) (slot : ℤ) :
    tally.observe (.inserted slot) = tally.observe (.found slot) := by
  cases op <;> rfl

theorem observe_nullFound (hop : op.memoizesNulls) (tally : Tally op) (slot : ℤ) :
    tally.observe (.nullFound (some slot)) = tally.observe (.found slot) := by
  cases op with
  | unique | valueCounts => rfl
  | dictionaryEncode => exact absurd hop (by decide)

theorem observe_nullInserted (tally : Tally op) (slot : Option ℤ) :
    tally.observe (.nullInserted slot) = tally.observe (.nullFound slot) := by
  cases op with
  | unique | dictionaryEncode => rfl
  | valueCounts => cases slot <;> rfl

end Tally

namespace Kernel

variable {op : Operation} {t : DataType} {l : Layout} {memo : Memo l}

def valueSeen : Memo.Lookup → Observation
  | .found slot => .found slot
  | .inserted slot => .inserted slot

def nullSeen : Memo.Lookup → Observation
  | .found slot => .nullFound (some slot)
  | .inserted slot => .nullInserted (some slot)

/-- What follows once a table has answered. -/
def settle (memo : Memo l) (tally : Tally op) (answer : Except Failure (Memo.Lookup × Memo l))
    (report : Memo.Lookup → Observation) : Step (Memo l × Tally op) Unit :=
  match answer with
  | .error e => ((memo, tally), .error e)
  | .ok (lookup, memo) =>
    match tally.observe (report lookup) with
    | .error e => ((memo, tally), .error e)
    | .ok tally => ((memo, tally), .ok ())

/-- A step with a table and a step of the ledger come to the same. -/
structure Follows (s : Step (Memo l × Tally op) Unit) (u : Step (Ledger op l.Element) Unit) :
    Prop where
  result : s.2 = u.2
  lists : s.1.1.Lists u.1.seen
  tally : s.1.2 = u.1.tally

theorem settle_follows (report : Memo.Lookup → Observation) {seen : List (Option l.Element)}
    {x : Option l.Element} {tally : Tally op} {answer : Except Failure (Memo.Lookup × Memo l)}
    (h : memo.Lists seen) (hadm : Memo.Admitted Memo.Lists memo seen x answer)
    (hreport : ∀ lookup, tally.observe (report lookup) = tally.observe (.found lookup.slot))
    (hx : ¬(x = none ∧ ¬op.memoizesNulls)) :
    Follows (settle memo tally answer report) ((⟨seen, tally⟩ : Ledger op _).visit x) := by
  rw [Ledger.visit, if_neg hx]
  cases hadm with
  | @found slot hslot =>
    have hmem : x ∈ seen := List.mem_of_getElem? hslot
    -- Nothing is listed twice, so the slot that was found is the first place of the element.
    have hidx : seen.idxOf x = slot := Memo.idxOf_eq_slot h.nodup hslot
    rw [if_pos (Or.inl hmem), Ledger.enter, if_pos hmem, hidx]
    simp only [settle, Ledger.observe, hreport, Memo.Lookup.slot]
    cases tally.observe (.found slot) <;> exact ⟨rfl, h, rfl⟩
  | @inserted grown hnew hroom hgrown =>
    rw [if_pos (Or.inr hroom), Ledger.enter, if_neg hnew, List.idxOf_eq_length hnew]
    simp only [settle, Ledger.observe, hreport, Memo.Lookup.slot]
    cases tally.observe (.found seen.length) <;> exact ⟨rfl, hgrown, rfl⟩
  | full hnew hfull =>
    rw [if_neg (by simp [hnew, hfull])]
    exact ⟨rfl, h, rfl⟩

theorem visit_follows {seen : List (Option l.Element)} (h : memo.Lists seen) (tally : Tally op)
    (x : Option l.Element) :
    Follows (visit memo tally x) ((⟨seen, tally⟩ : Ledger op _).visit x) := by
  cases x with
  | some x =>
    apply settle_follows valueSeen h (h.insert_admitted x) _ (by simp)
    intro lookup
    cases lookup with
    | found slot => rfl
    | inserted slot => exact tally.observe_inserted slot
  | none =>
    by_cases hop : op.memoizesNulls
    · rw [visit, visitNull, if_pos hop]
      apply settle_follows nullSeen h h.insertNull_admitted _ (by simp [hop])
      intro lookup
      cases lookup with
      | found slot => exact tally.observe_nullFound hop slot
      | inserted slot =>
        exact (tally.observe_nullInserted _).trans (tally.observe_nullFound hop slot)
    · rw [visit, visitNull, if_neg hop, Ledger.visit, if_pos ⟨rfl, hop⟩, Ledger.observe,
        tally.observe_nullInserted]
      cases tally.observe (.nullFound none) <;> exact ⟨rfl, h, rfl⟩

theorem visitAll_follows {seen : List (Option l.Element)} (h : memo.Lists seen) (tally : Tally op)
    (xs : List (Option l.Element)) :
    Follows (visitAll memo tally xs) ((⟨seen, tally⟩ : Ledger op _).visitAll xs) := by
  induction xs generalizing memo seen tally with
  | nil => exact ⟨rfl, h, rfl⟩
  | cons x xs ih =>
    have hstep := visit_follows h tally x
    rw [visitAll, Ledger.visitAll]
    rcases hs : visit memo tally x with ⟨⟨memo', tally'⟩, result⟩
    rcases hu : (⟨seen, tally⟩ : Ledger op _).visit x with ⟨⟨seen', _⟩, _⟩
    rw [hs, hu] at hstep
    obtain ⟨rfl, hlists, rfl⟩ := hstep
    cases result with
    | error e => exact ⟨rfl, hlists, rfl⟩
    | ok _ => exact ih hlists tally'

theorem visitAll_values (memo : Memo l) (tally : Tally op) (xs : List l.Element) :
    visitAll memo tally (xs.map some) = visitValues memo tally xs := by
  induction xs generalizing memo tally with
  | nil => rfl
  | cons x xs ih =>
    rw [List.map_cons, visitAll, visit, visitValues]
    rcases visitValue memo tally (l.key x) with ⟨after, result⟩
    cases result with
    | error e => rfl
    | ok _ => exact ih after.1 after.2

theorem visitCells_eq_visitAll (memo : Memo l) (tally : Tally op) (cells : Cells l) :
    visitCells memo tally cells = visitAll memo tally cells.toList := by
  rw [visitCells]
  split_ifs with hnulls
  · rw [← visitAll_values, cells.map_some_values hnulls]
  · rfl

def Holds : {t : DataType} → Kernel op t → Ledger op t.Element → Prop
  | _, .nulls seen tally, ledger =>
    ledger.seen = (if op.memoizesNulls ∧ seen then [none] else []) ∧ tally = ledger.tally
  | _, .values _ memo tally, ledger => memo.Lists ledger.seen ∧ tally = ledger.tally

/-- The ledger that a table would keep in place of the flag. Nothing but nulls is listed, so the elements may
be of any type. -/
def nullLedger (α : Type) (seen : Bool) (tally : Tally op) : Ledger op α :=
  ⟨if op.memoizesNulls ∧ seen then [none] else [], tally⟩

section Nulls

variable {α : Type} [DecidableEq α]

theorem visit_nullLedger (seen : Bool) (tally : Tally op) :
    (nullLedger α seen tally).visit none =
      (nullLedger α true tally).observe (.nullFound (nullSlot op)) := by
  by_cases hop : op.memoizesNulls
  · have hfound := tally.observe_nullFound hop 0
    cases seen <;> simp [nullLedger, Ledger.visit, Ledger.observe, Ledger.enter, nullSlot, hop, hfound]
  · simp [nullLedger, Ledger.visit, nullSlot, hop]

/-- The kernel of nulls needs no table to know what a table would say. -/
theorem visitAll_nullLedger (seen : Bool) (tally : Tally op) (n : ℕ) :
    (nullLedger α seen tally).visitAll (List.replicate n none) =
      let s := visitNulls seen tally n
      (nullLedger α s.1.1 s.1.2, s.2) := by
  induction n generalizing seen tally with
  | zero => rfl
  | succ n ih =>
    -- The first null is reported as a new one, which no tally minds.
    have hobserve : tally.observe (if seen then .nullFound (nullSlot op)
        else .nullInserted (nullSlot op)) = tally.observe (.nullFound (nullSlot op)) := by
      cases seen with
      | true => rfl
      | false => exact tally.observe_nullInserted _
    rw [List.replicate_succ, visitNulls, Ledger.visitAll, visit_nullLedger, Ledger.observe, hobserve]
    have htally : (nullLedger α true tally).tally = tally := rfl
    rw [htally]
    cases tally.observe (.nullFound (nullSlot op)) with
    | error e => rfl
    | ok next => exact ih true next

theorem append_nullLedger [Memory] (seen : Bool) (tally : Tally op) (nulls : Cells DataType.null.layout) :
    ∃ marked next result,
      append (.nulls seen tally) ⟨.null, nulls⟩ = (.nulls marked next, result) ∧
      (nullLedger α seen tally).append (List.replicate nulls.length none) =
        (nullLedger α marked next, result) := by
  have htally : (nullLedger α seen tally).tally = tally := rfl
  simp only [append, Column.as?_mk, reserve, visitColumn, Ledger.append, List.length_replicate,
    htally]
  cases tally.reserve nulls.length with
  | error e => exact ⟨seen, tally, .error e, rfl, rfl⟩
  | ok _ => exact ⟨_, _, _, rfl, visitAll_nullLedger seen tally nulls.length⟩

end Nulls

theorem toList_eq_replicate (cells : Cells .none) :
    cells.toList = List.replicate cells.length none := by
  refine List.eq_replicate_iff.mpr ⟨cells.length_toList, fun x _ => ?_⟩
  cases x with
  | none => rfl
  | some x => exact x.elim

theorem create_holds [Memory] {capacity : ℕ} {kernel : Kernel op t}
    (h : create op t capacity = .ok kernel) : kernel.Holds (.empty op _) := by
  obtain rfl | ⟨⟨family, hfamily⟩, hlayout, hroom⟩ := create_ok_iff.mp ⟨kernel, h⟩
  · obtain rfl := Except.ok.inj h
    exact ⟨by simp [Ledger.empty], rfl⟩
  · rw [create_eq_ok op hfamily hlayout hroom] at h
    obtain rfl := Except.ok.inj h
    exact ⟨Memo.holds_empty t.layout _ hlayout, rfl⟩

theorem append_holds [Memory] {kernel : Kernel op t} {ledger : Ledger op t.Element} (h : kernel.Holds ledger)
    (cells : Cells t.layout) :
    (kernel.append ⟨t, cells⟩).2 = (ledger.append cells.toList).2 ∧
      (kernel.append ⟨t, cells⟩).1.Holds (ledger.append cells.toList).1 := by
  cases kernel with
  | nulls seen tally =>
    obtain rfl : ledger = nullLedger _ seen tally := by
      obtain ⟨entries, _⟩ := ledger
      obtain ⟨rfl, rfl⟩ := h
      rfl
    obtain ⟨marked, next, result, happend, hledger⟩ :=
      append_nullLedger (α := DataType.null.Element) seen tally cells
    have hcells : cells.toList = List.replicate cells.length none := toList_eq_replicate cells
    rw [hcells, happend, hledger]
    exact ⟨rfl, rfl, rfl⟩
  | values served memo tally =>
    obtain ⟨hlists, rfl⟩ := h
    simp only [append, Column.as?_mk, reserve, visitColumn, visitCells_eq_visitAll, Ledger.append,
      Cells.length_toList]
    cases ledger.tally.reserve cells.length with
    | error e => exact ⟨rfl, hlists, rfl⟩
    | ok _ =>
      obtain ⟨hresult, hlists, htally⟩ := visitAll_follows hlists ledger.tally cells.toList
      exact ⟨hresult, hlists, htally⟩

/-- What columns hold decides what a kernel does with them. -/
theorem append_congr [Memory] (kernel : Kernel op t) {cells others : Cells t.layout}
    (h : others.toList = cells.toList) :
    kernel.append ⟨t, others⟩ = kernel.append ⟨t, cells⟩ := by
  have hlength : others.length = cells.length := by
    rw [← Cells.length_toList, h, Cells.length_toList]
  cases kernel <;>
    simp only [append, Column.as?_mk, reserve, visitColumn, visitCells_eq_visitAll, h, hlength]

theorem exists_flush (kernel : Kernel op t) : ∃ keys, kernel.flush.1 = .ok keys := by
  cases kernel <;> exact ⟨_, Tally.flush_fst _⟩

theorem flush_holds {kernel : Kernel op t} {ledger : Ledger op t.Element} (h : kernel.Holds ledger) :
    kernel.flush.1 = .ok ledger.flush.1 ∧ kernel.flush.2.Holds ledger.flush.2 := by
  cases kernel <;> obtain ⟨hseen, rfl⟩ := h <;> exact ⟨ledger.tally.flush_fst, hseen, rfl⟩

theorem flushFinal_holds {kernel : Kernel op t} {ledger : Ledger op t.Element}
    (h : kernel.Holds ledger) :
    kernel.flushFinal.1 = ledger.flushFinal.1 ∧ kernel.flushFinal.2.Holds ledger.flushFinal.2 := by
  cases kernel <;> obtain ⟨hseen, rfl⟩ := h <;> exact ⟨rfl, hseen, rfl⟩

theorem reset_holds (kernel : Kernel op t) : kernel.reset.Holds (.empty op _) := by
  cases kernel with
  | nulls seen tally => exact ⟨by simp [Ledger.empty], rfl⟩
  | values served memo tally => exact ⟨Memo.holds_clear memo, rfl⟩

theorem dictionary_shown {kernel : Kernel op t} {ledger : Ledger op t.Element}
    (h : kernel.Holds ledger) (hfit : t.layout.reach ledger.seen ≤ Layout.largestOffset) :
    ∃ cells, kernel.dictionary = .ok ⟨t, cells⟩ ∧ cells.toList = t.layout.shown ledger.seen := by
  cases kernel with
  | nulls seen tally =>
    refine ⟨_, rfl, ?_⟩
    rw [Layout.shown_eq_self (by decide), Cells.toList_nulls, h.1]
    cases op.memoizesNulls <;> cases seen <;> rfl
  | values served memo tally =>
    obtain ⟨cells, hcells, hshown⟩ := h.1.toCells_shown hfit
    exact ⟨cells, by rw [dictionary_values, hcells]; rfl, hshown⟩

theorem dictionary_ok {kernel : Kernel op t} {ledger : Ledger op t.Element}
    (h : kernel.Holds ledger) (hwidth : t.layout ≠ .block 0)
    (hfit : t.layout.reach ledger.seen ≤ Layout.largestOffset) :
    ∃ cells, kernel.dictionary = .ok ⟨t, cells⟩ ∧ cells.toList = ledger.seen :=
  t.layout.shown_eq_self hwidth ledger.seen ▸ dictionary_shown h hfit

theorem dictionary_refused {kernel : Kernel op t} {ledger : Ledger op t.Element}
    (h : kernel.Holds ledger) (hover : Layout.largestOffset < t.layout.reach ledger.seen) :
    kernel.dictionary =
      .error (.capacity (.offsets t.layout.offsetType (t.layout.reach ledger.seen))) := by
  cases kernel with
  | nulls seen tally =>
    -- A null has no bytes.
    rw [h.1] at hover
    exact absurd hover (by split <;> decide)
  | values served memo tally =>
    rw [dictionary_values, h.1.toCells_refused hover]
    rfl

theorem toList_dictionary {kernel : Kernel op t} {ledger : Ledger op t.Element}
    (h : kernel.Holds ledger) (hwidth : t.layout ≠ .block 0) {cells : Cells t.layout}
    (hcells : kernel.dictionary = .ok ⟨t, cells⟩) : cells.toList = ledger.seen := by
  rcases Nat.lt_or_ge Layout.largestOffset (t.layout.reach ledger.seen) with hover | hfit
  · rw [dictionary_refused h hover] at hcells
    cases hcells
  · obtain ⟨cells, hok, hlist⟩ := dictionary_ok h hwidth hfit
    cases Except.ok.inj (hok.symm.trans hcells)
    exact hlist

/-- Kernels that have seen the same, be it for different operations, have the same dictionary, or fail alike. -/
theorem Holds.dictionary_unique {op' : Operation} {kernel : Kernel op t} {other : Kernel op' t}
    {ledger : Ledger op t.Element} {ledger' : Ledger op' t.Element} (h : kernel.Holds ledger)
    (hother : other.Holds ledger') (hseen : ledger.seen = ledger'.seen) :
    kernel.dictionary = other.dictionary := by
  cases kernel with
  | nulls seen tally =>
    cases other with
    | nulls otherSeen otherTally =>
      have hsame := h.1.symm.trans (hseen.trans hother.1)
      rw [dictionary, dictionary]
      split_ifs at hsame ⊢ <;> simp_all
    | values _ memo _ => exact memo.elim
  | values served memo tally =>
    cases other with
    | nulls _ _ => exact memo.elim
    | values _ otherMemo _ =>
      have hentries := h.1
      rw [hseen] at hentries
      rw [dictionary_values, dictionary_values, Memo.Holds.toCells_unique hentries hother.1]

end Kernel

end Columnar
