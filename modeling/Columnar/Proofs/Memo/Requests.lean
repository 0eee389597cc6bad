import Columnar.Proofs.Memo.Holds
import Columnar.Proofs.Trace

namespace Columnar.Memo

inductive Request (κ : Type)
  | insert (key : κ)
  | insertNull
  | clear
  deriving DecidableEq, Repr

namespace Entries

variable {κ : Type} [DecidableEq κ]

/-- An entry of the list is found at its place, and another one comes to the end as long as there is a
slot for it. -/
def lookUp (entries : List (Option κ)) (entry : Option κ) :
    Except Failure Lookup × List (Option κ) :=
  match entries.idxOf? entry with
  | some slot => (.ok (.found slot), entries)
  | none =>
    if entries.length ≤ largestSlot then (.ok (.inserted entries.length), entries ++ [entry])
    else (.error (.capacity .distinctValues), entries)

def serve (entries : List (Option κ)) :
    Request κ → Option (Except Failure Lookup) × List (Option κ)
  | .insert key => (some (lookUp entries (some key)).1, (lookUp entries (some key)).2)
  | .insertNull => (some (lookUp entries none).1, (lookUp entries none).2)
  | .clear => (none, [])

end Entries

/-- The answer and what is left of the table. A look-up that fails leaves it as it was. -/
def answered {τ : Type} (table : τ) :
    Except Failure (Lookup × τ) → Option (Except Failure Lookup) × τ
  | .error e => (some (.error e), table)
  | .ok (lookup, table) => (some (.ok lookup), table)

theorem Admitted.answered_eq {κ τ : Type} [DecidableEq κ] {holds : τ → List (Option κ) → Prop}
    {table : τ} {entries : List (Option κ)} {entry : Option κ}
    {answer : Except Failure (Lookup × τ)} (h : Admitted holds table entries entry answer)
    (hholds : holds table entries) (hnodup : entries.Nodup) :
    (answered table answer).1 = some (Entries.lookUp entries entry).1 ∧
      holds (answered table answer).2 (Entries.lookUp entries entry).2 := by
  unfold Entries.lookUp
  cases h with
  | @found slot hslot =>
    obtain ⟨hlt, hget⟩ := List.getElem?_eq_some_iff.mp hslot
    have hfirst : ∀ j (hj : j < slot), ¬entries[j] = entry := fun j hj heq =>
      hj.ne (slot_unique hnodup (List.getElem?_eq_some_iff.mpr ⟨hj.trans hlt, heq⟩) hslot)
    rw [List.idxOf?_eq_some_iff.mpr ⟨hlt, hget, hfirst⟩]
    exact ⟨rfl, hholds⟩
  | inserted hnew hroom hgrown =>
    simp only [List.idxOf?_eq_none_iff.mpr hnew, if_pos hroom]
    exact ⟨rfl, hgrown⟩
  | full hnew hfull =>
    simp only [List.idxOf?_eq_none_iff.mpr hnew, if_neg (Nat.not_le_of_lt hfull)]
    exact ⟨rfl, hholds⟩

variable {l : Layout}

def serve (memo : Memo l) : Request l.Key → Option (Except Failure Lookup) × Memo l
  | .insert key => answered memo (memo.insert key)
  | .insertNull => answered memo memo.insertNull
  | .clear => (none, memo.clear)

theorem serve_holds {memo : Memo l} {entries : List (Option l.Key)} (h : memo.Holds entries)
    (request : Request l.Key) (hkey : ∀ key, request = .insert key → l.Takes key) :
    (memo.serve request).1 = (Entries.serve entries request).1 ∧
      (memo.serve request).2.Holds (Entries.serve entries request).2 := by
  cases request with
  | insert key => exact (insert_admitted h (hkey key rfl)).answered_eq h h.nodup
  | insertNull => exact (insertNull_admitted h).answered_eq h h.nodup
  | clear => exact ⟨rfl, holds_clear memo⟩

theorem trace_serve_holds {memo : Memo l} (h : memo.Holds []) (requests : List (Request l.Key))
    (hkeys : ∀ key, .insert key ∈ requests → l.Takes key) :
    (trace serve memo requests).2.Holds (trace Entries.serve [] requests).2 :=
  (trace_agrees (R := Holds) (fun _ _ request hkey h => serve_holds h request hkey) h requests
    fun _ hmem key hkey => hkeys key (hkey ▸ hmem)).2

theorem holds_of_create [Memory] {family : MemoFamily} {t : DataType} {hash : t.layout.Key → UInt64}
    {capacity : ℕ} {memo : Memo t.layout} (h : create family t hash capacity = .ok memo) :
    memo.Holds [] ∧ family.accepts t := by
  unfold create at h
  split at h
  · next hlayout =>
    cases hroom : reserve capacity t.layout with
    | error e => simp [hroom, bind, Except.bind] at h
    | ok _ =>
      rw [hroom] at h
      obtain rfl := Except.ok.inj h
      exact ⟨holds_empty t.layout hash hlayout.1, hlayout.2⟩
  · cases h

/-- Whatever its hashes are, a table gives the answers of the list of its entries to every request of a
run. Its size, the slot of null and, where the entries are the keys of elements, its column are those of the
list. -/
theorem serve_agrees [Memory] {family : MemoFamily} {t : DataType} {hash : t.layout.Key → UInt64}
    {capacity : ℕ} {memo : Memo t.layout} (hmemo : create family t hash capacity = .ok memo)
    (requests : List (Request t.layout.Key))
    (hkeys : ∀ key, .insert key ∈ requests → t.layout.Takes key) :
    let served := trace serve memo requests
    let listed := trace Entries.serve [] requests
    served.1 = listed.1 ∧ listed.2.Nodup ∧ served.2.size = listed.2.length ∧
      served.2.isEmpty = listed.2.isEmpty ∧
      (∀ slot, served.2.nullSlot? = some slot ↔ listed.2[slot]? = some none) ∧
      (t.layout ≠ .block 0 → ∀ xs : List (Option t.Element),
        listed.2 = xs.map (Option.map t.layout.key) →
        (t.layout.reach xs ≤ Layout.largestOffset →
          ∃ cells, toColumn family t served.2 t = .ok ⟨t, cells⟩ ∧ cells.toList = xs) ∧
        (Layout.largestOffset < t.layout.reach xs → toColumn family t served.2 t =
          .error (.capacity (.offsets t.layout.offsetType (t.layout.reach xs))))) := by
  intro served listed
  obtain ⟨hempty, haccepts⟩ := holds_of_create hmemo
  obtain ⟨hanswers, hholds⟩ := trace_agrees (R := Holds)
    (fun memo entries request hkey h => serve_holds h request hkey) hempty requests
    fun request hmem key hkey => hkeys key (hkey ▸ hmem)
  refine ⟨hanswers, hholds.nodup, hholds.size_eq, hholds.isEmpty_eq, hholds.nullSlot?_eq_some_iff,
    ?_⟩
  intro hwidth xs hxs
  have hlists : served.2.Lists xs := by
    rw [Lists, ← hxs]
    exact hholds
  rw [toColumn_self haccepts]
  constructor
  · intro hfit
    obtain ⟨cells, hcells, hlist⟩ := hlists.toCells_ok hwidth hfit
    exact ⟨cells, by rw [hcells]; rfl, hlist⟩
  · intro hover
    rw [hlists.toCells_refused hover]
    rfl

/-- All hashes collide here. A null comes before and after two zero bytes, which its slot has too. -/
theorem serve_agrees_zeros :
    letI : Memory := .of47Bits
    let t : DataType := .fixedSizeBinary 2
    let requests : List (Request t.layout.Key) :=
      [.insert [0, 0], .insertNull, .insert [0, 1], .insert [0, 0], .insertNull, .clear,
        .insertNull, .insert [0, 0]]
    (∀ key, .insert key ∈ requests → t.layout.Takes key) ∧
    ∃ memo, create .fixedSizeBinary t (fun _ => 7) 3 = .ok memo ∧
      (trace serve memo requests).1 =
        [some (.ok (.inserted 0)), some (.ok (.inserted 1)), some (.ok (.inserted 2)),
          some (.ok (.found 0)), some (.ok (.found 1)), none, some (.ok (.inserted 0)),
          some (.ok (.inserted 1))] ∧
      ∃ cells : Cells (.block 2),
        toColumn .fixedSizeBinary t (trace serve memo requests).2 t = .ok ⟨t, cells⟩ ∧
        cells.toList = [none, some ⟨[0, 0], rfl⟩] := by
  intro t requests
  let memory : Memory := .of47Bits
  have hkeys : ∀ key, .insert key ∈ requests → t.layout.Takes key := by
    intro key hkey
    simp only [requests, List.mem_cons, reduceCtorEq, List.not_mem_nil, or_false, false_or] at hkey
    rcases hkey with h | h | h | h <;> cases h <;> rfl
  have hmemo : create .fixedSizeBinary t (fun _ => 7) 3 =
      .ok (BlockTable.empty fun _ => 7 : BlockTable 2) := rfl
  obtain ⟨hanswers, -, -, -, -, hcolumn⟩ := serve_agrees hmemo requests hkeys
  obtain ⟨cells, hcells, hlist⟩ :=
    (hcolumn (by decide) [none, some ⟨[0, 0], rfl⟩] rfl).1 (by decide)
  exact ⟨hkeys, _, hmemo, hanswers, cells, hcells, hlist⟩

end Columnar.Memo
