import Columnar.Proofs.Kernel.Calls

namespace Columnar

def Step.andThen {σ : Type} (s : Step σ Unit) (next : σ → Step σ Unit) : Step σ Unit :=
  match s with
  | (after, .ok ()) => next after
  | (after, .error e) => (after, .error e)

theorem Step.andThen_assoc {σ : Type} (s : Step σ Unit) (f g : σ → Step σ Unit) :
    (s.andThen f).andThen g = s.andThen fun after => (f after).andThen g := by
  obtain ⟨after, result⟩ := s
  cases result <;> rfl

namespace Tally

variable [Memory] {op : Operation} {tally next : Tally op}

theorem reserve_of_le {m n : ℕ} (hle : m ≤ n) (h : tally.reserve n = .ok ()) :
    tally.reserve m = .ok () := by
  cases op with
  | unique | valueCounts => rfl
  | dictionaryEncode => exact Capacity.reserveItems_of_le (Nat.add_le_add_left hle _) h

theorem reserve_observe {seen : Observation} (h : tally.observe seen = .ok next) (n : ℕ) :
    next.reserve n = tally.reserve (n + 1) := by
  cases op with
  | unique | valueCounts => rfl
  | dictionaryEncode =>
    have hsize : next.slots.size = tally.slots.size + 1 := by
      cases seen <;> obtain rfl := Except.ok.inj h <;>
        simp [PendingKeys.push, PendingKeys.pushNull]
    rw [reserve, reserve, hsize, Nat.add_right_comm, Nat.add_assoc]

end Tally

namespace Kernel

variable {op : Operation} {t : DataType} {l : Layout}

def see : {t : DataType} → Kernel op t → Option t.Element → Step (Kernel op t) Unit
  | _, .nulls seen tally, _ =>
    match tally.observe (if seen then .nullFound (nullSlot op) else .nullInserted (nullSlot op)) with
    | .error e => (.nulls true tally, .error e)
    | .ok tally => (.nulls true tally, .ok ())
  | _, .values served memo tally, x =>
    let ((memo, tally), result) := visit memo tally x
    (.values served memo tally, result)

def seeAll (kernel : Kernel op t) : List (Option t.Element) → Step (Kernel op t) Unit
  | [] => (kernel, .ok ())
  | x :: xs => (kernel.see x).andThen fun next => next.seeAll xs

theorem seeAll_append (kernel : Kernel op t) (xs ys : List (Option t.Element)) :
    kernel.seeAll (xs ++ ys) = (kernel.seeAll xs).andThen fun next => next.seeAll ys := by
  induction xs generalizing kernel with
  | nil => rfl
  | cons x xs ih =>
    rw [List.cons_append, seeAll, seeAll, Step.andThen_assoc]
    congr 1
    funext next
    exact ih next

theorem reserve_settle [Memory] {memo : Memo l} {tally : Tally op}
    {answer : Except Failure (Memo.Lookup × Memo l)} {report : Memo.Lookup → Observation}
    {after : Memo l × Tally op} (h : settle memo tally answer report = (after, .ok ())) (n : ℕ) :
    after.2.reserve n = tally.reserve (n + 1) := by
  rcases answer with e | ⟨lookup, grown⟩
  · cases h
  · rw [settle] at h
    cases hobserve : tally.observe (report lookup) with
    | error e =>
      rw [hobserve] at h
      cases h
    | ok next =>
      rw [hobserve] at h
      obtain rfl : (grown, next) = after := congrArg Prod.fst h
      exact Tally.reserve_observe hobserve n

theorem reserve_visit [Memory] {memo : Memo l} {tally : Tally op} {x : Option l.Element}
    {after : Memo l × Tally op} (h : visit memo tally x = (after, .ok ())) (n : ℕ) :
    after.2.reserve n = tally.reserve (n + 1) := by
  cases x with
  | some x =>
    have hvalue : settle memo tally (memo.insert (l.key x)) valueSeen = (after, .ok ()) := h
    exact reserve_settle hvalue n
  | none =>
    rw [visit, visitNull] at h
    split_ifs at h with hop
    · have hnull : settle memo tally memo.insertNull nullSeen = (after, .ok ()) := h
      exact reserve_settle hnull n
    · -- A null without a slot is as good as one that the table finds.
      have hnull : settle memo tally (.ok (.found 0, memo)) (fun _ => .nullInserted none) =
          (after, .ok ()) := h
      exact reserve_settle hnull n

theorem reserve_see [Memory] {kernel next : Kernel op t} {x : Option t.Element}
    (h : kernel.see x = (next, .ok ())) (n : ℕ) : next.reserve n = kernel.reserve (n + 1) := by
  cases kernel with
  | nulls seen tally =>
    rw [see] at h
    cases hobserve : tally.observe (if seen then .nullFound (nullSlot op)
        else .nullInserted (nullSlot op)) with
    | error e =>
      rw [hobserve] at h
      cases h
    | ok after =>
      rw [hobserve] at h
      -- The flag takes no room; the observation takes that of one position.
      obtain rfl : nulls true after = next := congrArg Prod.fst h
      exact Tally.reserve_observe hobserve n
  | values served memo tally =>
    rcases hx : visit memo tally x with ⟨after, result⟩
    rw [see, hx] at h
    obtain rfl : values served after.1 after.2 = next := congrArg Prod.fst h
    obtain rfl : result = .ok () := congrArg Prod.snd h
    exact reserve_visit hx n

theorem reserve_seeAll [Memory] {kernel next : Kernel op t} {xs : List (Option t.Element)}
    (h : kernel.seeAll xs = (next, .ok ())) (n : ℕ) :
    next.reserve n = kernel.reserve (xs.length + n) := by
  induction xs generalizing kernel with
  | nil =>
    obtain rfl : kernel = next := congrArg Prod.fst h
    rw [List.length_nil, Nat.zero_add]
  | cons x xs ih =>
    rw [seeAll] at h
    rcases hx : kernel.see x with ⟨after, result⟩
    rw [hx] at h
    cases result with
    | error e => cases h
    | ok _ => rw [ih h, reserve_see hx, List.length_cons, Nat.add_right_comm]

theorem seeAll_nulls (seen : Bool) (tally : Tally op) (xs : List (Option DataType.null.Element)) :
    seeAll (.nulls seen tally) xs =
      let s := visitNulls seen tally xs.length
      (.nulls s.1.1 s.1.2, s.2) := by
  induction xs generalizing seen tally with
  | nil => rfl
  | cons x xs ih =>
    rw [seeAll, see, List.length_cons, visitNulls]
    cases tally.observe _ with
    | error e => rfl
    | ok tally => exact ih true tally

theorem seeAll_values (served : (family? t).isSome) (memo : Memo t.layout) (tally : Tally op)
    (xs : List (Option t.Element)) :
    seeAll (.values served memo tally) xs =
      let s := visitAll memo tally xs
      (.values served s.1.1 s.1.2, s.2) := by
  induction xs generalizing memo tally with
  | nil => rfl
  | cons x xs ih =>
    rw [seeAll, see, visitAll]
    rcases visit memo tally x with ⟨⟨memo, tally⟩, result⟩
    cases result with
    | error e => rfl
    | ok _ => exact ih memo tally

theorem visitColumn_eq_seeAll (kernel : Kernel op t) (cells : Cells t.layout) :
    kernel.visitColumn cells = kernel.seeAll cells.toList := by
  cases kernel with
  | nulls seen tally => rw [visitColumn, seeAll_nulls, Cells.length_toList]
  | values served memo tally => rw [visitColumn, seeAll_values, visitCells_eq_visitAll]

/-- An append asks for room and then takes in one element after the other. -/
theorem append_eq_seeAll [Memory] (kernel : Kernel op t) (cells : Cells t.layout) :
    kernel.append ⟨t, cells⟩ =
      match kernel.reserve cells.length with
      | .error e => (kernel, .error e)
      | .ok () => kernel.seeAll cells.toList := by
  cases hroom : kernel.reserve cells.length with
  | error e => simp only [append, Column.as?_mk, hroom]
  | ok _ => simp only [append, Column.as?_mk, hroom, visitColumn_eq_seeAll]

theorem reserve_of_le [Memory] (kernel : Kernel op t) {m n : ℕ} (hle : m ≤ n)
    (h : kernel.reserve n = .ok ()) : kernel.reserve m = .ok () := by
  cases kernel <;> exact Tally.reserve_of_le hle h

/-- The loop that a part without nulls is taken in by asks of no position whether it is null, and would come
to the same if it did. -/
theorem visitCells_values (memo : Memo l) (tally : Tally op) {part : Cells l} {xs : List l.Element}
    (h : part.toList = xs.map some) :
    visitCells memo tally part = visitValues memo tally xs ∧
      visitValues memo tally xs = visitAll memo tally part.toList := by
  rw [visitCells_eq_visitAll, h, visitAll_values]
  exact ⟨rfl, rfl⟩

/-- Appending a column comes to the same as appending its two parts, the second only if the first was
accepted: the same result and the very same kernel, with its dictionary, its counts and its pending keys. It
does not matter what state the kernel was in, nor which of its two loops takes in a part: for a part without
nulls that is the loop for values alone, which does what the other does. -/
theorem append_concat [Memory] (kernel : Kernel op t) {whole a b : Cells t.layout}
    (hwhole : whole.toList = a.toList ++ b.toList)
    (hroom : kernel.reserve whole.length = .ok ()) :
    kernel.append ⟨t, whole⟩ =
        (kernel.append ⟨t, a⟩).andThen (fun next => next.append ⟨t, b⟩) ∧
      ∀ (part : Cells t.layout) (xs : List t.Element), part.toList = xs.map some →
        ∀ (memo : Memo t.layout) (tally : Tally op),
          visitCells memo tally part = visitValues memo tally xs ∧
          visitValues memo tally xs = visitAll memo tally part.toList := by
  refine ⟨?_, fun part xs hpart memo tally => visitCells_values memo tally hpart⟩
  have hlength : whole.length = a.length + b.length := by
    rw [← Cells.length_toList, hwhole, List.length_append, Cells.length_toList, Cells.length_toList]
  have hfirst : kernel.reserve a.length = .ok () := kernel.reserve_of_le (by omega) hroom
  rw [append_eq_seeAll, hroom, append_eq_seeAll kernel a, hfirst, hwhole]
  rcases hseen : kernel.seeAll a.toList with ⟨next, result⟩
  have hall : kernel.seeAll (a.toList ++ b.toList) =
      Step.andThen (next, result) fun next => next.seeAll b.toList := by
    rw [seeAll_append, hseen]
  cases result with
  | error e => exact hall
  | ok _ =>
    -- What the first part took of the room is what the whole leaves to the second.
    have hsecond : next.reserve b.length = .ok () := by
      rw [reserve_seeAll hseen, Cells.length_toList, ← hlength, hroom]
    apply hall.trans
    change next.seeAll b.toList = next.append ⟨t, b⟩
    rw [append_eq_seeAll, hsecond]

/-- Counts were taken before, and the second part stops at an element whose slot is not in turn. Only the
first part is free of nulls. -/
theorem append_concat_booleans :
    letI : Memory := .of47Bits
    let calls : List Call :=
      [.append ⟨.boolean, .ofList [some true, none, some false]⟩, .flushFinal]
    let whole : Cells DataType.boolean.layout :=
      .masked #[some true, some true, some false, some true] #[true, true, true, false]
    let a : Cells DataType.boolean.layout := .ofList [some true, some true]
    let b : Cells DataType.boolean.layout := .ofList [some false, none]
    ∃ kernel : Kernel .valueCounts .boolean, kernel.Begun ∧
      whole.toList = a.toList ++ b.toList ∧
      let now := (trace call kernel calls).2
      now.reserve whole.length = .ok () ∧
      now.append ⟨.boolean, whole⟩ =
        (now.append ⟨.boolean, a⟩).andThen (fun next => next.append ⟨.boolean, b⟩) ∧
      (now.append ⟨.boolean, a⟩).2 = .ok () ∧
      (now.append ⟨.boolean, whole⟩).2 = .error (.internal (.countSlotGap 2 1)) := by
  intro calls whole a b
  let memory : Memory := .of47Bits
  let kernel : Kernel .valueCounts .boolean := .values rfl Memo.BooleanTable.empty #[]
  have hcreate : create .valueCounts .boolean 4 = .ok kernel := rfl
  have hwhole : whole.toList = a.toList ++ b.toList := rfl
  have hroom : (trace call kernel calls).2.reserve whole.length = .ok () := rfl
  obtain ⟨hconcat, -⟩ := append_concat (trace call kernel calls).2 hwhole hroom
  exact ⟨kernel, .made hcreate, hwhole, hroom, hconcat, rfl, rfl⟩

end Kernel

end Columnar
