import Mathlib
import Columnar.Column
import Columnar.Memo.Slot

namespace Columnar

namespace Memo

variable {κ τ : Type} {entries : List (Option κ)} {entry : Option κ}

/-- How a table answers when it is given an entry: with the slot the entry has, or with the next one. A
table that has no slot left refuses. -/
inductive Admitted (holds : τ → List (Option κ) → Prop) (table : τ) (entries : List (Option κ))
    (entry : Option κ) : Except Failure (Lookup × τ) → Prop
  | found {slot : ℕ} (hslot : entries[slot]? = some entry) :
    Admitted holds table entries entry (.ok (.found slot, table))
  | inserted {grown : τ} (hnew : entry ∉ entries) (hroom : entries.length ≤ largestSlot)
    (hgrown : holds grown (entries ++ [entry])) :
    Admitted holds table entries entry (.ok (.inserted entries.length, grown))
  | full (hnew : entry ∉ entries) (hfull : largestSlot < entries.length) :
    Admitted holds table entries entry (.error (.capacity .distinctValues))

/-- What every table does with an entry: it answers with the slot it finds, and otherwise grows. -/
def respond (table : τ) (find : Option ℕ) (size : ℕ) (grow : ℕ → τ) : Except Failure (Lookup × τ) :=
  match find with
  | some slot => .ok (.found slot, table)
  | none => do
    let slot ← nextSlot size
    return (.inserted slot, grow slot)

theorem Admitted.of_find {holds : τ → List (Option κ) → Prop} {table : τ} {find : Option ℕ}
    {size : ℕ} {grow : ℕ → τ} (hfind : ∀ slot, find = some slot ↔ entries[slot]? = some entry)
    (hsize : size = entries.length)
    (hgrow : entry ∉ entries → holds (grow entries.length) (entries ++ [entry])) :
    Admitted holds table entries entry (respond table find size grow) := by
  subst hsize
  cases find with
  | some slot => exact .found ((hfind slot).mp rfl)
  | none =>
    have hnew : entry ∉ entries := by
      intro hmem
      obtain ⟨slot, hslot⟩ := List.mem_iff_getElem?.mp hmem
      simpa using (hfind slot).mpr hslot
    by_cases hroom : entries.length ≤ largestSlot
    · simp only [respond, nextSlot, if_pos hroom]
      exact .inserted hnew hroom (hgrow hnew)
    · simp only [respond, nextSlot, if_neg hroom]
      exact .full hnew (Nat.lt_of_not_le hroom)

/-- Entries may be named by other things, as long as different things name different entries. -/
theorem Admitted.of_map {α : Type} {name : α → κ} (hname : Function.Injective name)
    {holds : τ → List (Option κ) → Prop} {table : τ} {xs : List (Option α)} {x : Option α}
    {answer : Except Failure (Lookup × τ)}
    (h : Admitted holds table (xs.map (Option.map name)) (x.map name) answer) :
    Admitted (fun table xs => holds table (xs.map (Option.map name))) table xs x answer := by
  have hmem : x.map name ∉ xs.map (Option.map name) → x ∉ xs := by
    intro h hx
    exact h (List.mem_map_of_mem hx)
  cases h with
  | found hslot =>
    rw [List.getElem?_map, Option.map_eq_some_iff] at hslot
    obtain ⟨y, hy, heq⟩ := hslot
    exact .found (Option.map_injective hname heq ▸ hy)
  | inserted hnew hroom hgrown =>
    rw [List.length_map] at hroom ⊢
    exact .inserted (hmem hnew) hroom (by simpa using hgrown)
  | full hnew hfull => exact .full (hmem hnew) (by simpa using hfull)

theorem getElem?_concat_eq_some {slot : ℕ} {other : Option κ} :
    (entries ++ [entry])[slot]? = some other ↔
      entries[slot]? = some other ∨ slot = entries.length ∧ entry = other := by
  rcases Nat.lt_trichotomy slot entries.length with h | rfl | h
  · rw [List.getElem?_append_left h]
    simp [h.ne]
  · simp
  · rw [List.getElem?_append_right h.le, List.getElem?_eq_none (by simp; omega),
      List.getElem?_eq_none h.le]
    simp [h.ne']

theorem slot_unique (hnodup : entries.Nodup) {i j : ℕ} (hi : entries[i]? = some entry)
    (hj : entries[j]? = some entry) : i = j :=
  (List.getElem?_inj (List.getElem?_eq_some_iff.mp hi).1 hnodup).mp (hi.trans hj.symm)

theorem idxOf_eq_slot [DecidableEq κ] (hnodup : entries.Nodup) {slot : ℕ}
    (h : entries[slot]? = some entry) : entries.idxOf entry = slot := by
  obtain ⟨hslot, rfl⟩ := List.getElem?_eq_some_iff.mp h
  exact hnodup.idxOf_getElem slot hslot

theorem nodup_concat (hnodup : entries.Nodup) (hnew : entry ∉ entries) :
    (entries ++ [entry]).Nodup := by
  apply List.nodup_append.mpr
  refine ⟨hnodup, List.nodup_singleton entry, ?_⟩
  intro a ha b hb hab
  rw [hab, List.mem_singleton.mp hb] at ha
  exact hnew ha

theorem Admitted.eq_found {holds : τ → List (Option κ) → Prop} {table : τ}
    {answer : Except Failure (Lookup × τ)} (h : Admitted holds table entries entry answer)
    (hnodup : entries.Nodup) {slot : ℕ} (hslot : entries[slot]? = some entry) :
    answer = .ok (.found slot, table) := by
  cases h with
  | found hother => rw [slot_unique hnodup hother hslot]
  | inserted hnew | full hnew => exact absurd (List.mem_of_getElem? hslot) hnew

theorem Admitted.getElem?_slot {holds : τ → List (Option κ) → Prop} {table grown : τ}
    {lookup : Lookup} (h : Admitted holds table entries entry (.ok (lookup, grown)))
    (hholds : holds table entries) :
    ∃ more, holds grown more ∧ entries <+: more ∧ more.length ≤ entries.length + 1 ∧
      more[lookup.slot]? = some entry := by
  cases h with
  | found hslot => exact ⟨entries, hholds, List.prefix_rfl, Nat.le_succ _, hslot⟩
  | inserted hnew hroom hgrown =>
    refine ⟨entries ++ [entry], hgrown, List.prefix_append _ _, by simp, ?_⟩
    exact List.getElem?_concat_length

theorem Admitted.exists_ok {holds : τ → List (Option κ) → Prop} {table : τ}
    {answer : Except Failure (Lookup × τ)} (h : Admitted holds table entries entry answer)
    (hroom : entries.length ≤ largestSlot) : ∃ lookup grown, answer = .ok (lookup, grown) := by
  cases h with
  | found _ => exact ⟨_, _, rfl⟩
  | inserted _ _ _ => exact ⟨_, _, rfl⟩
  | full _ hfull => exact absurd hroom (Nat.not_le_of_lt hfull)

theorem nullSlot_concat_key {nullSlot : Option ℕ} {key : κ}
    (h : ∀ slot, nullSlot = some slot ↔ entries[slot]? = some none) (slot : ℕ) :
    nullSlot = some slot ↔ (entries ++ [some key])[slot]? = some none := by
  simp [h, getElem?_concat_eq_some]

theorem nullSlot_concat_null (hnew : none ∉ entries) (slot : ℕ) :
    some entries.length = some slot ↔ (entries ++ [none])[slot]? = some none := by
  have habsent : entries[slot]? ≠ some none := by
    intro h
    exact hnew (List.mem_of_getElem? h)
  rw [getElem?_concat_eq_some, Option.some.injEq, eq_comm]
  simp [habsent]

theorem nullSlot_unique {nullSlot other : Option ℕ}
    (h : ∀ slot, nullSlot = some slot ↔ entries[slot]? = some none)
    (hother : ∀ slot, other = some slot ↔ entries[slot]? = some none) : nullSlot = other :=
  Option.ext fun slot => (h slot).trans (hother slot).symm

/-- Of what a buffer keeps end to end, each item is between where those before it end and its own end. -/
theorem extract_flatMap {α β : Type} (f : α → List β) {buffer : Array β} {xs : List α} {i : ℕ}
    {x : α} (hbuffer : buffer.toList = xs.flatMap f) (hx : xs[i]? = some x) :
    (buffer.extract ((xs.take i).flatMap f).length
      ((xs.take (i + 1)).flatMap f).length).toList = f x := by
  obtain ⟨hi, rfl⟩ := List.getElem?_eq_some_iff.mp hx
  have hsplit : xs.flatMap f =
      (xs.take i).flatMap f ++ (f xs[i] ++ (xs.drop (i + 1)).flatMap f) := by
    rw [← List.flatMap_cons, ← List.drop_eq_getElem_cons hi, ← List.flatMap_append,
      List.take_append_drop]
  have hend : ((xs.take (i + 1)).flatMap f).length =
      ((xs.take i).flatMap f).length + (f xs[i]).length := by
    rw [List.take_succ_eq_append_getElem hi, List.flatMap_append, List.length_append]
    simp
  rw [Array.toList_extract, List.extract_eq_take_drop, hbuffer, hsplit, hend, List.drop_left,
    Nat.add_sub_cancel_left, List.take_left]

/-- The bucket of a hash has the slots of the entries with that hash, and no others. -/
structure Indexed (index : SlotIndex) (hash : κ → UInt64) (entries : List (Option κ)) : Prop where
  nodup : entries.Nodup
  mem_bucket : ∀ h slot, slot ∈ index.bucket h ↔
    ∃ key, entries[slot]? = some (some key) ∧ hash key = h

namespace Indexed

variable {index : SlotIndex} {hash : κ → UInt64} {key : κ}

theorem empty (hash : κ → UInt64) : Indexed .empty hash [] where
  nodup := List.nodup_nil
  mem_bucket := by simp

theorem insert (h : Indexed index hash entries) (hnew : some key ∉ entries) :
    Indexed (index.insert (hash key) entries.length) hash (entries ++ [some key]) where
  nodup := nodup_concat h.nodup hnew
  mem_bucket other slot := by
    rw [SlotIndex.bucket_insert]
    simp only [getElem?_concat_eq_some, Option.some.injEq]
    split
    -- The bucket of the new key's hash gains its slot, and no other bucket does.
    · next heq =>
      subst heq
      rw [List.mem_cons, h.mem_bucket]
      constructor
      · rintro (rfl | ⟨other, hslot, hhash⟩)
        · exact ⟨key, Or.inr ⟨rfl, rfl⟩, rfl⟩
        · exact ⟨other, Or.inl hslot, hhash⟩
      · rintro ⟨other, hslot | ⟨rfl, rfl⟩, hhash⟩
        · exact Or.inr ⟨other, hslot, hhash⟩
        · exact Or.inl rfl
    · next hne =>
      rw [h.mem_bucket]
      constructor
      · rintro ⟨other, hslot, hhash⟩
        exact ⟨other, Or.inl hslot, hhash⟩
      · rintro ⟨other, hslot | ⟨-, rfl⟩, hhash⟩
        · exact ⟨other, hslot, hhash⟩
        · exact absurd hhash.symm hne

theorem insertNull (h : Indexed index hash entries) (hnew : none ∉ entries) :
    Indexed index hash (entries ++ [none]) where
  nodup := nodup_concat h.nodup hnew
  mem_bucket other slot := by
    rw [h.mem_bucket]
    simp [getElem?_concat_eq_some]

/-- Keys that share a hash are told apart by what their slots hold. -/
theorem find?_eq_some_iff (h : Indexed index hash entries) {holds : ℕ → Bool}
    (hholds : ∀ slot other, entries[slot]? = some (some other) → (holds slot ↔ other = key))
    (slot : ℕ) :
    index.find? (hash key) holds = some slot ↔ entries[slot]? = some (some key) := by
  have hsound : ∀ slot, index.find? (hash key) holds = some slot →
      entries[slot]? = some (some key) := by
    intro slot hfind
    obtain ⟨other, hslot, -⟩ := (h.mem_bucket _ _).mp (List.mem_of_find?_eq_some hfind)
    obtain rfl := (hholds slot other hslot).mp (List.find?_some hfind)
    exact hslot
  refine ⟨hsound slot, ?_⟩
  intro hslot
  -- The slot looked for passes the test, so some slot is found, and only one slot has the key.
  have hsome : (index.find? (hash key) holds).isSome := by
    apply List.find?_isSome.mpr
    exact ⟨slot, (h.mem_bucket _ _).mpr ⟨key, hslot, rfl⟩, (hholds slot key hslot).mpr rfl⟩
  obtain ⟨found, hfound⟩ := Option.isSome_iff_exists.mp hsome
  rw [hfound, slot_unique h.nodup (hsound found hfound) hslot]

end Indexed

end Memo

namespace Cells

variable {l : Layout} {slots : Array (Option l.Element)} {nullSlot : Option ℕ}

@[simp] theorem length_withNull : (withNull slots nullSlot).length = slots.size := by
  cases nullSlot <;> rfl

theorem get_withNull {i : ℕ} (hi : i < slots.size) :
    (withNull slots nullSlot).get i = if nullSlot = some i then none else slots[i] := by
  cases nullSlot with
  | none => simp [withNull, get, isValid, hi]
  | some n =>
    by_cases hn : n = i
    · simp [withNull, masked, get, isValid, hi, hn]
    · simp [withNull, masked, get, isValid, hi, hn, Ne.symm hn]

theorem toList_withNull {xs : List (Option l.Element)} (hsize : slots.size = xs.length)
    (hnull : ∀ slot, nullSlot = some slot ↔ xs[slot]? = some none)
    (hvalue : ∀ (slot : ℕ) (x : l.Element), xs[slot]? = some (some x) →
      slots[slot]? = some (some x)) :
    (withNull slots nullSlot).toList = xs := by
  apply List.ext_getElem (by simpa using hsize)
  intro i _ hi
  have hslot : i < slots.size := hsize ▸ hi
  simp only [toList, List.getElem_map, List.getElem_range, get_withNull hslot, hnull,
    List.getElem?_eq_getElem hi, Option.some.injEq]
  cases hx : xs[i] with
  | none => rfl
  | some x =>
    have hvalue := hvalue i x (by rw [List.getElem?_eq_getElem hi, hx])
    rw [Array.getElem?_eq_getElem hslot, Option.some.injEq] at hvalue
    simpa using hvalue

end Cells

end Columnar
