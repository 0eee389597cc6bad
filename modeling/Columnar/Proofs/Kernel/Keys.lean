import Columnar.Proofs.Kernel.FirstSight

namespace Columnar

/-- Keys that stand for the elements of a chunk: null for null, and otherwise the position in the
dictionary of that very element. -/
structure Encodes {l : Layout} (dictionary : Cells l) (keys : Cells DataType.int32.layout)
    (chunk : Cells l) : Prop where
  length : keys.length = chunk.length
  null_iff : ∀ j, keys.get j = none ↔ chunk.get j = none
  decodes : ∀ j k, keys.get j = some k →
    0 ≤ k.toInt ∧ k.toInt < dictionary.length ∧ dictionary.get k.toInt.toNat = chunk.get j

theorem toInt_ofNat_of_lt {w n : ℕ} (h : 2 * n < 2 ^ w) : (BitVec.ofNat w n).toInt = n := by
  have hn : (BitVec.ofNat w n).toNat = n := by
    rw [BitVec.toNat_ofNat, Nat.mod_eq_of_lt (by omega)]
  rw [BitVec.toInt_eq_toNat_of_lt (by rwa [hn]), hn]

theorem SlotCounts.toInt_cell_count {α : Type} [DecidableEq α] {xs : List (Option α)}
    (h : xs.length < 2 ^ 63) (x : Option α) : (SlotCounts.cell (xs.count x)).toInt = xs.count x := by
  have hcount : xs.count x ≤ xs.length := List.count_le_length
  exact toInt_ofNat_of_lt (w := 64) (by omega)

theorem PendingKeys.toInt_key {slot : ℕ} (h : slot ≤ Memo.largestSlot) :
    (PendingKeys.key slot).toInt = slot := by
  have hlt : slot < 2 ^ 31 := Nat.lt_succ_of_le h
  exact toInt_ofNat_of_lt (w := 32) (by omega)

section Slots

variable {l : Layout} {dictionary chunk : Cells l}
  (hslots : dictionary.length ≤ Memo.largestSlot + 1)
  (hchunk : ∀ x, some x ∈ chunk.toList → some x ∈ dictionary.toList)

include hslots hchunk

theorem PendingKeys.toInt_key_idxOf {x : l.Element} (hx : some x ∈ chunk.toList) :
    (PendingKeys.key (dictionary.toList.idxOf (some x))).toInt = dictionary.toList.idxOf (some x) ∧
      dictionary.toList.idxOf (some x) < dictionary.length := by
  have hlt := List.idxOf_lt_length_of_mem (hchunk x hx)
  rw [Cells.length_toList] at hlt
  exact ⟨PendingKeys.toInt_key (by omega), hlt⟩

theorem encodes_of_slots {keys : Cells DataType.int32.layout} (hkeys : keys.toList =
      (Ledger.slots dictionary.toList chunk.toList).map (Option.map PendingKeys.key)) :
    Encodes dictionary keys chunk := by
  have hget : ∀ j, keys.get j =
      (chunk.get j).map fun x => PendingKeys.key (dictionary.toList.idxOf (some x)) := by
    intro j
    rw [Cells.get_eq_getElem?, Cells.get_eq_getElem?, hkeys, Ledger.slots, List.getElem?_map,
      List.getElem?_map]
    rcases chunk.toList[j]? with _ | _ | x <;> rfl
  constructor
  · rw [← Cells.length_toList, hkeys, List.length_map, Ledger.slots, List.length_map,
      Cells.length_toList]
  · intro j
    rw [hget, Option.map_eq_none_iff]
  · intro j k hk
    rw [hget, Option.map_eq_some_iff] at hk
    obtain ⟨x, hx, rfl⟩ := hk
    have hmem : some x ∈ chunk.toList := by
      rw [Cells.get_eq_getElem?, Option.join_eq_some_iff] at hx
      exact List.mem_of_getElem? hx
    -- Slots stay below 2 ^ 31, so that a key reads as the slot it was made of.
    obtain ⟨hkey, hlt⟩ := PendingKeys.toInt_key_idxOf hslots hchunk hmem
    rw [hkey, hx]
    refine ⟨Int.natCast_nonneg _, Int.ofNat_lt.mpr hlt, ?_⟩
    rw [Int.toNat_natCast, Cells.get_eq_getElem?, List.getElem?_eq_getElem (by simpa using hlt),
      List.getElem_idxOf]
    rfl

end Slots

end Columnar
