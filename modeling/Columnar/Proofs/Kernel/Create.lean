import Columnar.Kernel
import Columnar.Proofs.Memo.Holds

namespace Columnar.Kernel

variable {op : Operation} {t : DataType} {family : MemoFamily} {capacity : ℕ}

theorem accepts_of_family? (h : family? t = some family) (hlayout : t.layout ≠ .none) :
    family.accepts t := by
  unfold family? at h
  split at h <;> cases h
  all_goals simp_all [MemoFamily.accepts, DataType.memoFamily?, DataType.layout]

theorem accepts_get (served : (family? t).isSome) (hlayout : t.layout ≠ .none) :
    ((family? t).get served).accepts t :=
  accepts_of_family? (Option.some_get served).symm hlayout

section Memory

variable [Memory]

theorem create_eq_ok (op : Operation) (h : family? t = some family) (hlayout : t.layout ≠ .none)
    (hroom : Memo.reserve capacity t.layout = .ok ()) :
    create op t capacity = .ok (.values (Option.isSome_of_mem h)
      (Memo.empty t.layout (Memo.defaultHash t.layout) hlayout) (.empty op)) := by
  have haccepts := accepts_get (Option.isSome_of_mem h) hlayout
  unfold create
  split
  · cases h
  · simp only [dif_pos (Option.isSome_of_mem h), Memo.create_eq_ok _ hlayout haccepts hroom, bind,
      Except.bind, pure, Except.pure]

theorem create_ok_iff :
    (∃ kernel, create op t capacity = .ok kernel) ↔
      t = .null ∨ (∃ family, family? t = some family) ∧ t.layout ≠ .none ∧
        Memo.reserve capacity t.layout = .ok () := by
  constructor
  · rintro ⟨kernel, h⟩
    unfold create at h
    split at h
    · exact Or.inl rfl
    · split at h
      · next served =>
        refine Or.inr ⟨Option.isSome_iff_exists.mp served, ?_⟩
        unfold Memo.create at h
        split at h
        · next hlayout =>
          cases hroom : Memo.reserve capacity t.layout with
          | error e => simp [hroom, bind, Except.bind] at h
          | ok _ => exact ⟨hlayout.1, rfl⟩
        · cases h
      · cases h
  · rintro (rfl | ⟨⟨family, hfamily⟩, hlayout, hroom⟩)
    · exact ⟨_, rfl⟩
    · exact ⟨_, create_eq_ok op hfamily hlayout hroom⟩

end Memory

/-- Zone, precision, scale and width of the type come back with the elements. -/
theorem dictionary_values (served : (family? t).isSome) (memo : Memo t.layout) (tally : Tally op) :
    (values served memo tally).dictionary = memo.toCells.map (Column.mk t) := by
  have hlayout : t.layout ≠ .none := by
    intro hnone
    rw [hnone] at memo
    exact memo.elim
  exact Memo.toColumn_self (accepts_get served hlayout) memo

end Columnar.Kernel
