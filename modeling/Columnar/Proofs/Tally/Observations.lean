import Columnar.Proofs.Kernel.Keys
import Columnar.Proofs.Trace

namespace Columnar

/-- The slot that an observation names. That of a null may be missing. -/
def Observation.slot? : Observation → Option ℤ
  | .found slot | .inserted slot => some slot
  | .nullFound slot | .nullInserted slot => slot

namespace SlotCounts

/-- Counts of exactly the slots that were taken, as often as each of them was. -/
structure Tracks (counts : SlotCounts) (taken : List ℤ) : Prop where
  mem_iff : ∀ slot : ℤ, slot ∈ taken ↔ 0 ≤ slot ∧ slot < counts.size
  getElem_eq : ∀ (slot : ℕ) (h : slot < counts.size), counts[slot] = taken.count (slot : ℤ)

variable {counts next : SlotCounts} {taken : List ℤ} {slot : ℤ}

theorem bump_ok_iff : (∃ next, counts.bump slot = .ok next) ↔ 0 ≤ slot ∧ slot ≤ counts.size := by
  cases slot with
  | negSucc n => simp [bump]
  | ofNat n =>
    simp only [bump, Int.ofNat_eq_natCast]
    split_ifs with htracked hnext <;> simp <;> omega

theorem Tracks.nil : Tracks #[] [] where
  mem_iff slot := by
    simp only [List.not_mem_nil, Array.size_empty, false_iff]
    omega
  getElem_eq slot h := absurd h (Nat.not_lt_zero slot)

theorem Tracks.bump (h : counts.Tracks taken) (hbump : counts.bump slot = .ok next) :
    next.Tracks (taken ++ [slot]) := by
  obtain ⟨hpos, hle⟩ := bump_ok_iff.mp ⟨next, hbump⟩
  obtain ⟨n, rfl⟩ := Int.eq_ofNat_of_zero_le hpos
  have hcount : ∀ i : ℕ, (taken ++ [(n : ℤ)]).count (i : ℤ) =
      taken.count (i : ℤ) + if n = i then 1 else 0 := by
    intro i
    rw [List.count_append, List.count_singleton]
    simp
  -- The slot has a count already, or it is the next to get one.
  rcases Nat.lt_or_ge n counts.size with hlt | hge
  · obtain rfl : counts.modify n (· + 1) = next :=
      Except.ok.inj ((bump_tracked hlt).symm.trans hbump)
    refine ⟨fun i => ?_, fun i hi => ?_⟩
    · have hmem := (h.mem_iff n).mpr ⟨hpos, by omega⟩
      rw [List.mem_append, List.mem_singleton, Array.size_modify, ← h.mem_iff]
      exact or_iff_left_of_imp fun heq => heq ▸ hmem
    · rw [Array.size_modify] at hi
      rw [Array.getElem_modify, hcount, ← h.getElem_eq i hi]
      split <;> rfl
  · obtain rfl : n = counts.size := by omega
    obtain rfl : counts.push 1 = next := Except.ok.inj ((bump_next counts).symm.trans hbump)
    have hnew : taken.count (counts.size : ℤ) = 0 := by
      rw [List.count_eq_zero, h.mem_iff]
      omega
    refine ⟨fun i => ?_, fun i hi => ?_⟩
    · rw [List.mem_append, List.mem_singleton, h.mem_iff, Array.size_push]
      omega
    · rw [Array.getElem_push, hcount]
      split
      · next hlt => rw [h.getElem_eq i hlt, if_neg hlt.ne', Nat.add_zero]
      · next hge =>
        obtain rfl : i = counts.size := by
          rw [Array.size_push] at hi
          omega
        rw [hnew, if_pos rfl]

section Tracks

variable (h : counts.Tracks taken)
include h

theorem Tracks.toList_eq :
    counts.toList = (List.range counts.size).map fun slot : ℕ => taken.count (slot : ℤ) := by
  apply List.ext_getElem (by simp)
  intro slot hslot _
  simpa using h.getElem_eq slot (by simpa using hslot)

theorem Tracks.one_le {n : ℕ} (hn : n ∈ counts.toList) : 1 ≤ n := by
  obtain ⟨slot, hslot, rfl⟩ := List.getElem_of_mem hn
  rw [Array.length_toList] at hslot
  rw [Array.getElem_toList, h.getElem_eq slot hslot]
  exact List.one_le_count_iff.mpr ((h.mem_iff slot).mpr ⟨by omega, by omega⟩)

theorem Tracks.sum_eq : counts.toList.sum = taken.length := by
  -- The slots that have counts are those taken, each of them once.
  have hperm : List.Perm ((List.range counts.size).map fun slot : ℕ => (slot : ℤ)) taken.dedup := by
    refine (List.perm_ext_iff_of_nodup ?_ taken.nodup_dedup).mpr fun i => ?_
    · exact List.nodup_range.map Nat.cast_injective
    · rw [List.mem_dedup, h.mem_iff, List.mem_map]
      constructor
      · rintro ⟨slot, hslot, rfl⟩
        rw [List.mem_range] at hslot
        omega
      · rintro ⟨hpos, hlt⟩
        exact ⟨i.toNat, List.mem_range.mpr (by omega), Int.toNat_of_nonneg hpos⟩
  have hsum := (hperm.map fun slot => taken.count slot).sum_eq
  rw [List.map_map] at hsum
  rw [h.toList_eq, ← List.sum_map_count_dedup_eq_length taken]
  exact hsum

end Tracks

end SlotCounts

namespace Tally

inductive Call
  | observe (seen : Observation)
  | reserve (length : ℕ)
  | flush
  | flushFinal
  | reset

inductive Answer
  | observed (result : Except Failure Unit)
  | reserved (result : Except Failure Unit)
  | flushed (keys : Except Failure (Option (Cells DataType.int32.layout)))
  | flushedFinal (counts : Option (Cells DataType.int64.layout))
  | reset

def call [Memory] {op : Operation} (tally : Tally op) : Call → Answer × Tally op
  | .observe seen =>
    match tally.observe seen with
    | .error e => (.observed (.error e), tally)
    | .ok next => (.observed (.ok ()), next)
  | .reserve length => (.reserved (tally.reserve length), tally)
  | .flush => (.flushed tally.flush.1, tally.flush.2)
  | .flushFinal => (.flushedFinal tally.flushFinal.1, tally.flushFinal.2)
  | .reset => (.reset, .empty op)

/-- The slots of the observations that succeeded since the counts were last taken or dropped. -/
def note (taken : List ℤ) : Call → Answer → List ℤ
  | .observe seen, .observed (.ok ()) => taken ++ seen.slot?.toList
  | .flushFinal, _ | .reset, _ => []
  | .observe _, _ | .reserve _, _ | .flush, _ => taken

variable {counts : Tally .valueCounts} {taken : List ℤ}

theorem observe_eq_bump (counts : Tally .valueCounts) (seen : Observation) :
    counts.observe seen =
      seen.slot?.elim (.error (.internal .nullWithoutSlot)) (SlotCounts.bump counts) := by
  rcases seen with slot | slot | (_ | slot) | (_ | slot) <;> rfl

variable [Memory]

theorem observe_ok_iff {seen : Observation} :
    (counts.call (.observe seen)).1 = .observed (.ok ()) ↔
      ∃ slot : ℤ, seen.slot? = some slot ∧ 0 ≤ slot ∧ slot ≤ Array.size counts := by
  have hcall : (counts.call (.observe seen)).1 = .observed (.ok ()) ↔
      ∃ next, counts.observe seen = .ok next := by
    rw [call]
    cases counts.observe seen <;> simp
  rw [hcall, observe_eq_bump]
  cases seen.slot? with
  | none => simp
  | some slot => simpa using SlotCounts.bump_ok_iff

theorem call_tracks (h : SlotCounts.Tracks counts taken) (c : Call) :
    SlotCounts.Tracks (counts.call c).2 (note taken c (counts.call c).1) := by
  cases c with
  | observe seen =>
    rw [call]
    cases hseen : counts.observe seen with
    | error e => exact h
    | ok next =>
      rw [observe_eq_bump] at hseen
      cases hslot : seen.slot? with
      | none =>
        rw [hslot] at hseen
        cases hseen
      | some slot =>
        rw [hslot] at hseen
        simp only [note, hslot]
        exact h.bump hseen
  | reserve length | flush => exact h
  | flushFinal | reset => exact SlotCounts.Tracks.nil

/-- After any calls, an observation succeeds if and only if its slot is there and has a count or is the next to
have one, and one that fails leaves the counts as they are. The counts handed out are, slot by slot, the numbers
of observations that succeeded since counts were last handed out or dropped, and cover all of those. -/
theorem flushFinal_observed (calls : List Call) :
    let ran := trace call (Tally.empty .valueCounts) calls
    let counts : SlotCounts := ran.2
    let taken := noted note [] calls ran.1
    (∀ seen, (ran.2.call (.observe seen)).1 = .observed (.ok ()) ↔
      ∃ slot : ℤ, seen.slot? = some slot ∧ 0 ≤ slot ∧ slot ≤ counts.size) ∧
    (∀ seen, (ran.2.call (.observe seen)).1 ≠ .observed (.ok ()) →
      (ran.2.call (.observe seen)).2 = ran.2) ∧
    (ran.2.call .flushFinal).1 = .flushedFinal (some counts.toCells) ∧
    counts.toCells.toList = counts.toList.map (fun n => some (SlotCounts.cell n)) ∧
    counts.toList = (List.range counts.size).map (fun slot : ℕ => taken.count (slot : ℤ)) ∧
    (∀ slot : ℤ, slot ∈ taken ↔ 0 ≤ slot ∧ slot < counts.size) ∧
    (∀ n ∈ counts.toList, 1 ≤ n) ∧ counts.toList.sum = taken.length ∧
    (taken.length < 2 ^ 63 → ∀ n ∈ counts.toList, (SlotCounts.cell n).toInt = n) := by
  intro ran counts taken
  have htracks : counts.Tracks taken :=
    trace_noted (R := SlotCounts.Tracks) (A := fun _ _ => True)
      (fun counts taken c _ h => call_tracks h c) SlotCounts.Tracks.nil calls fun _ _ => trivial
  refine ⟨fun seen => observe_ok_iff, fun seen hfailed => ?_, rfl, counts.toList_toCells,
    htracks.toList_eq, htracks.mem_iff, fun n hn => htracks.one_le hn, htracks.sum_eq,
    fun hfew n hn => ?_⟩
  · rw [call] at hfailed ⊢
    cases hseen : Tally.observe ran.2 seen with
    | error e => rfl
    | ok next =>
      rw [hseen] at hfailed
      exact absurd rfl hfailed
  · have hle : n ≤ counts.toList.sum := List.le_sum_of_mem hn
    rw [htracks.sum_eq] at hle
    exact toInt_ofNat_of_lt (w := 64) (by omega)

omit [Memory] in
/-- A slot is skipped, one is negative and one is missing, before and after the counts are dropped. -/
theorem flushFinal_observed_unruly :
    letI : Memory := .of47Bits
    let calls : List Call :=
      [.observe (.inserted 0), .observe (.found 2), .reset, .observe (.nullInserted none),
        .observe (.nullFound (some 0)), .reserve 7, .observe (.found (-1)), .observe (.found 1),
        .flush, .observe (.inserted 0)]
    let ran := trace call (Tally.empty .valueCounts) calls
    ∃ cells, (ran.2.call .flushFinal).1 = .flushedFinal (some cells) ∧
      cells.toList = [some 2#64, some 1#64] ∧
      (noted note [] calls ran.1).length < 2 ^ 63 ∧ (SlotCounts.cell 2).toInt = 2 := by
  intro calls ran
  let memory : Memory := .of47Bits
  obtain ⟨-, -, hcells, hlist, -, -, -, -, hexact⟩ := flushFinal_observed calls
  have hfew : (noted note [] calls ran.1).length < 2 ^ 63 := by decide
  exact ⟨_, hcells, hlist, hfew, hexact hfew 2 (by decide)⟩

end Tally

end Columnar
