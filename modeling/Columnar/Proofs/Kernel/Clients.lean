import Columnar.Proofs.Kernel.KeyAccount
import Columnar.Proofs.Kernel.Shared

namespace Columnar

/-- The orders in which lists can be served one item at a time, each from its front. -/
inductive Serialised {α : Type} : List (List α) → List α → Prop
  | done {clients : List (List α)} (h : ∀ items ∈ clients, items = []) : Serialised clients []
  | turn {clients : List (List α)} {k : ℕ} {item : α} {items order : List α}
    (hk : clients[k]? = some (item :: items)) (h : Serialised (clients.set k items) order) :
    Serialised clients (item :: order)

theorem Serialised.perm {α : Type} {clients : List (List α)} {order : List α}
    (h : Serialised clients order) : List.Perm order clients.flatten := by
  induction h with
  | done h =>
    have hempty := List.flatten_eq_nil_iff.mpr h
    rw [hempty]
  | @turn clients k item items order hk _ ih =>
    obtain ⟨hlt, hitem⟩ := List.getElem?_eq_some_iff.mp hk
    have hsplit : clients = clients.take k ++ (item :: items) :: clients.drop (k + 1) := by
      rw [← hitem, ← List.drop_eq_getElem_cons hlt, List.take_append_drop]
    have hrest : (clients.set k items).flatten =
        (clients.take k).flatten ++ (items ++ (clients.drop (k + 1)).flatten) := by
      rw [List.set_eq_take_append_cons_drop, if_pos hlt, List.flatten_append, List.flatten_cons]
    rw [hrest] at ih
    conv_rhs => rw [hsplit, List.flatten_append, List.flatten_cons, List.cons_append]
    exact (ih.cons item).trans List.perm_middle.symm

variable [Memory] {op : Operation} {t : DataType}

/-- What a shared kernel can take in of a column: all of it, unless it is of another type or there is no
room for its keys. -/
def Column.offered (op : Operation) (t : DataType) (column : Column) : List (Option t.Element) :=
  match (Tally.empty op).reserve (column.elements t).length with
  | .error _ => []
  | .ok () => column.elements t

theorem Column.offered_other {column : Column} (h : column.as? t = none) :
    column.offered op t = [] := by
  rw [offered, elements, h]
  split <;> rfl

theorem Column.offered_mk (op : Operation) (cells : Cells t.layout) :
    Column.offered op t ⟨t, cells⟩ =
      match (Tally.empty op).reserve cells.length with
      | .error _ => []
      | .ok () => cells.toList := by
  rw [offered, elements_mk, Cells.length_toList]

/-- The reply to an append, seen from the end of a run in which `taken` was taken in. -/
inductive Settled (op : Operation) (taken : List (Option t.Element)) : Column → SharedReply → Prop
  | accepted (cells : Cells t.layout) (hroom : (Tally.empty op).reserve cells.length = .ok ())
    (htaken : cells.toList ⊆ taken) :
    Settled op taken ⟨t, cells⟩ (.ok (op.keys (op.recorded taken).eraseDups cells.toList))
  | other {column : Column} (h : column.type ≠ t) :
    Settled op taken column (.error (.invalidInput (.chunkType t column.type)))
  | noRoom (cells : Cells t.layout) {e : Failure}
    (hroom : (Tally.empty op).reserve cells.length = .error e) :
    Settled op taken ⟨t, cells⟩ (.error e)
  | full (cells : Cells t.layout) :
    Settled op taken ⟨t, cells⟩ (.error (.capacity .distinctValues))

/-- Keys handed out early are the keys of the end. -/
theorem Settled.grow {taken : List (Option t.Element)} {column : Column} {reply : SharedReply}
    (h : Settled op taken column reply) (more : List (Option t.Element)) :
    Settled op (taken ++ more) column reply := by
  cases h with
  | accepted cells hroom htaken =>
    rw [← op.keys_append htaken more]
    exact .accepted cells hroom (List.subset_append_of_subset_left more htaken)
  | other h => exact .other h
  | noRoom cells hroom => exact .noRoom cells hroom
  | full cells => exact .full cells

theorem Settled.ok_iff {taken : List (Option t.Element)} {column : Column} {reply : SharedReply}
    (h : Settled op taken column reply) (hnot : reply ≠ .error (.capacity .distinctValues)) :
    (∃ out, reply = .ok out) ↔
      column.type = t ∧ (Tally.empty op).reserve column.length = .ok () := by
  cases h with
  | accepted cells hroom _ => exact ⟨fun _ => ⟨rfl, hroom⟩, fun _ => ⟨_, rfl⟩⟩
  | other hother => simp [hother]
  | noRoom cells hroom =>
    have hlength : (Tally.empty op).reserve (Column.mk t cells).length = _ := hroom
    simp [hlength]
  | full cells => exact absurd rfl hnot

theorem Settled.ok_none_iff {taken : List (Option t.Element)} {column : Column} {reply : SharedReply}
    (h : Settled .valueCounts taken column reply)
    (hnot : reply ≠ .error (.capacity .distinctValues)) : reply = .ok none ↔ column.type = t := by
  cases h with
  | accepted => exact ⟨fun _ => rfl, fun _ => rfl⟩
  | other hother => simp [hother]
  | noRoom cells hroom => cases hroom
  | full cells => exact absurd rfl hnot

theorem Settled.keys {taken : List (Option t.Element)} {column : Column}
    {out : Option (Cells DataType.int32.layout)}
    (h : Settled .dictionaryEncode taken column (.ok out)) :
    ∃ (cells : Cells t.layout) (keys : Cells DataType.int32.layout), column = ⟨t, cells⟩ ∧
      out = some keys ∧ keys.length = cells.length ∧ cells.toList ⊆ taken ∧
      keys.toList = (Ledger.slots (Operation.dictionaryEncode.recorded taken).eraseDups
        cells.toList).map (Option.map PendingKeys.key) := by
  cases h with
  | accepted cells _ htaken =>
    refine ⟨cells, _, rfl, rfl, ?_, htaken, PendingKeys.toList_cells_ofSlots _⟩
    rw [← Cells.length_toList, PendingKeys.toList_cells_ofSlots, List.length_map, Ledger.slots,
      List.length_map, Cells.length_toList]

theorem Settled.of_not_mem {taken : List (Option t.Element)} {order : List Column}
    {replies : List SharedReply} (h : List.Forall₂ (Settled op taken) order replies)
    (hnone : .error (.capacity .distinctValues) ∉ replies) :
    List.Forall₂ (fun column reply => Settled op taken column reply ∧
      reply ≠ .error (.capacity .distinctValues)) order replies := by
  induction h with
  | nil => exact .nil
  | cons hsettled _ ih =>
    rw [List.mem_cons, not_or] at hnone
    obtain ⟨hfirst, hrest⟩ := hnone
    exact .cons ⟨hsettled, Ne.symm hfirst⟩ (ih hrest)

theorem Tally.reserve_empty_ne_distinctValues (op : Operation) (n : ℕ) :
    (Tally.empty op).reserve n ≠ .error (.capacity .distinctValues) := by
  cases op with
  | unique | valueCounts => simp [reserve]
  | dictionaryEncode => exact Capacity.reserveItems_ne_distinctValues 4 _

namespace Ledger

variable {history : List (Option t.Element)}

theorem appendShared_other {column : Column} (h : column.as? t = none) :
    (after op history []).appendShared column =
      (after op history [], .error (.invalidInput (.chunkType t column.type))) := by
  simp only [appendShared, appendColumn, h, flush_after]
  rfl

theorem appendShared_refused (cells : Cells t.layout) {e : Failure}
    (hroom : (Tally.empty op).reserve cells.length = .error e) :
    (after op history []).appendShared ⟨t, cells⟩ = (after op history [], .error e) := by
  rw [← Cells.length_toList] at hroom
  simp only [appendShared, appendColumn, Column.as?_mk, append_refused cells.toList hroom, flush_after]
  rfl

/-- The keys of all that was taken in are handed out, or dropped if the slots ran out. -/
theorem appendShared_intake (hroomy : Roomy op history) (cells : Cells t.layout)
    (hroom : (Tally.empty op).reserve cells.length = .ok ()) :
    let share := intake op history cells.toList
    (after op history []).appendShared ⟨t, cells⟩ = (after op (history ++ share) [],
      if Roomy op (history ++ cells.toList) then
        .ok (op.keys (op.recorded (history ++ share)).eraseDups share)
      else .error (.capacity .distinctValues)) := by
  intro share
  have happend : (after op history []).append cells.toList = (after op (history ++ share) share,
      if Roomy op (history ++ cells.toList) then .ok ()
      else .error (.capacity .distinctValues)) := by
    rw [append, reserve_after, Cells.length_toList, hroom]
    exact visitAll_intake hroomy (List.nil_subset _) cells.toList
  simp only [appendShared, appendColumn, Column.as?_mk, happend, flush_after]
  split <;> rfl

/-- A shared append takes in what is offered, unless the slots run out. It leaves nothing pending. -/
theorem appendShared_after (hroomy : Roomy op history) (column : Column) :
    ∃ share reply, (after op history []).appendShared column = (after op (history ++ share) [], reply) ∧
      Roomy op (history ++ share) ∧ Settled op (history ++ share) column reply ∧
      (reply = .error (.capacity .distinctValues) ∧ ¬Roomy op (history ++ column.offered op t) ∨
        reply ≠ .error (.capacity .distinctValues) ∧ share = column.offered op t) := by
  rcases hcolumn : column.as? t with _ | cells
  · have hshared : (after op history []).appendShared column =
        (after op (history ++ []) [], .error (.invalidInput (.chunkType t column.type))) := by
      rw [List.append_nil]
      exact appendShared_other hcolumn
    refine ⟨[], _, hshared, ?_, .other (Column.as?_eq_none.mp hcolumn), Or.inr ⟨by simp, ?_⟩⟩
    · rwa [List.append_nil]
    · exact (Column.offered_other hcolumn).symm
  obtain rfl := Column.as?_eq_some.mp hcolumn
  have hoffered := Column.offered_mk op cells
  cases hroom : (Tally.empty op).reserve cells.length with
  | error e =>
    have hshared : (after op history []).appendShared ⟨t, cells⟩ =
        (after op (history ++ []) [], .error e) := by
      rw [List.append_nil]
      exact appendShared_refused cells hroom
    have he : (.error e : SharedReply) ≠ .error (.capacity .distinctValues) := by
      intro h
      obtain rfl := Except.error.inj h
      exact Tally.reserve_empty_ne_distinctValues op _ hroom
    rw [hroom] at hoffered
    refine ⟨[], _, hshared, ?_, .noRoom cells hroom, Or.inr ⟨he, hoffered.symm⟩⟩
    rwa [List.append_nil]
  | ok _ =>
    rw [hroom] at hoffered
    have hshared := appendShared_intake hroomy cells hroom
    rw [hoffered]
    refine ⟨_, _, hshared, roomy_intake hroomy cells.toList, ?_⟩
    -- Only a column that is looked at can run out of slots.
    by_cases hfits : Roomy op (history ++ cells.toList)
    · have hself := (intake_eq_self_iff hroomy cells.toList).mpr hfits
      rw [if_pos hfits, hself]
      exact ⟨.accepted cells hroom (List.subset_append_right history _), Or.inr ⟨by simp, rfl⟩⟩
    · rw [if_neg hfits]
      exact ⟨.full cells, Or.inl ⟨rfl, hfits⟩⟩

end Ledger

namespace SharedKernel

def serve (shared : SharedKernel op t) (column : Column) : SharedReply × SharedKernel op t :=
  ((shared.append column).2, (shared.append column).1)

/-- A run takes in what its columns offer, unless the slots run out on the way. -/
theorem serve_settled {shared : SharedKernel op t} {history : List (Option t.Element)}
    (h : shared.inner.Holds (.after op history [])) (hroomy : Ledger.Roomy op history)
    (order : List Column) :
    let run := trace serve shared order
    let offered := order.flatMap (Column.offered op t)
    ∃ taken, run.2.inner.Holds (.after op (history ++ taken) []) ∧
      Ledger.Roomy op (history ++ taken) ∧
      List.Forall₂ (Settled op (history ++ taken)) order run.1 ∧
      (.error (.capacity .distinctValues) ∈ run.1 ∧ ¬Ledger.Roomy op (history ++ offered) ∨
        .error (.capacity .distinctValues) ∉ run.1 ∧ taken = offered) := by
  induction order generalizing shared history with
  | nil =>
    refine ⟨[], ?_, ?_, .nil, Or.inr ⟨List.not_mem_nil, rfl⟩⟩
    · rwa [List.append_nil]
    · rwa [List.append_nil]
  | cons column order ih =>
    intro run offered
    obtain ⟨share, reply, happend, hshare, hsettled, hfirst⟩ :=
      Ledger.appendShared_after hroomy column
    obtain ⟨hreply, hholds⟩ := append_holds h column
    rw [happend] at hreply hholds
    obtain ⟨taken, hlast, htaken, hrest, hlater⟩ := ih hholds hshare
    rw [List.append_assoc] at hlast htaken hrest
    have hreplies : run.1 = reply :: (trace serve (shared.append column).1 order).1 :=
      congrArg (· :: _) hreply
    have hoffered : offered = column.offered op t ++ order.flatMap (Column.offered op t) :=
      List.flatMap_cons
    -- Slots that this column runs out of are too few for the whole run; otherwise the rest of the run decides.
    rw [hreplies, hoffered]
    refine ⟨share ++ taken, hlast, htaken, .cons ?_ hrest, ?_⟩
    · rw [← List.append_assoc]
      exact hsettled.grow taken
    · rcases hfirst with ⟨hfull, hcrowded⟩ | ⟨hnot, rfl⟩
      · refine Or.inl ⟨hfull ▸ List.mem_cons_self, fun hall => hcrowded ?_⟩
        rw [← List.append_assoc] at hall
        exact hall.of_append
      · rw [List.append_assoc] at hlater
        rcases hlater with ⟨hfull, hcrowded⟩ | ⟨hnone, rfl⟩
        · exact Or.inl ⟨List.mem_cons_of_mem _ hfull, hcrowded⟩
        · exact Or.inr ⟨List.not_mem_cons_of_ne_of_not_mem hnot.symm hnone, rfl⟩

/-- The dictionary has the distinct elements of `held` that get slots, in some order. -/
structure Entries (shared : SharedKernel op t) (held : List (Option t.Element)) : Prop where
  read : t.layout.reach (op.recorded held).eraseDups ≤ Layout.largestOffset →
    ∃ dictionary : Cells t.layout, shared.dictionary = .ok ⟨t, dictionary⟩ ∧
      List.Perm dictionary.toList (op.recorded held).eraseDups
  refused : Layout.largestOffset < t.layout.reach (op.recorded held).eraseDups →
    shared.dictionary = .error (.capacity
      (.offsets t.layout.offsetType (t.layout.reach (op.recorded held).eraseDups)))

section Final

variable {taken held : List (Option t.Element)} (ht : t ≠ .fixedSizeBinary 0)

omit [Memory]

include ht

theorem entries_of_holds {shared : SharedKernel op t}
    (h : shared.inner.Holds (.after op taken [])) (hheld : List.Perm taken held) :
    shared.Entries held := by
  have hperm : List.Perm (op.recorded taken).eraseDups (op.recorded held).eraseDups :=
    eraseDups_perm fun x => (hheld.filter _).mem_iff
  have hreach : t.layout.reach (op.recorded taken).eraseDups =
      t.layout.reach (op.recorded held).eraseDups := Layout.reach_perm hperm
  constructor
  · intro hfit
    rw [← hreach] at hfit
    obtain ⟨dictionary, hdictionary, hentries⟩ :=
      Kernel.dictionary_ok h (DataType.layout_ne_block_zero ht) hfit
    refine ⟨dictionary, hdictionary, ?_⟩
    rw [hentries]
    exact hperm
  · intro hover
    rw [← hreach] at hover ⊢
    exact Kernel.dictionary_refused h hover

theorem counts_of_holds {shared : SharedKernel .valueCounts t}
    (h : shared.inner.Holds (.after .valueCounts taken [])) (hheld : List.Perm taken held)
    {dictionary : Cells t.layout} (hdictionary : shared.dictionary = .ok ⟨t, dictionary⟩) :
    ∃ counts, shared.flushFinal.1 = some counts ∧ dictionary.length = counts.length ∧
      List.Perm (dictionary.toList.zip counts.toList) (occurrences held) := by
  obtain ⟨counts, hcounts, hlength, hzip⟩ := Kernel.counts_of_holds h ht hdictionary
  refine ⟨counts, hcounts, hlength, ?_⟩
  rw [hzip]
  exact occurrences_perm hheld

theorem encodes_of_holds {shared : SharedKernel .dictionaryEncode t}
    (h : shared.inner.Holds (.after .dictionaryEncode taken []))
    (hroomy : Ledger.Roomy .dictionaryEncode taken) {cells : Cells t.layout}
    {keys : Cells DataType.int32.layout} (htaken : cells.toList ⊆ taken)
    (hkeys : keys.toList = (Ledger.slots (Operation.dictionaryEncode.recorded taken).eraseDups
      cells.toList).map (Option.map PendingKeys.key))
    {dictionary : Cells t.layout} (hdictionary : shared.dictionary = .ok ⟨t, dictionary⟩) :
    Encodes dictionary keys cells := by
  have hentries : dictionary.toList = (Operation.dictionaryEncode.recorded taken).eraseDups :=
    Kernel.toList_dictionary h (DataType.layout_ne_block_zero ht) hdictionary
  rw [← hentries] at hkeys
  refine encodes_of_slots ?_ ?_ hkeys
  · rw [← Cells.length_toList, hentries]
    exact hroomy
  · intro x hx
    rw [hentries, List.mem_eraseDups, Operation.mem_recorded]
    exact ⟨htaken hx, by simp⟩

end Final

section Serialised

variable {clients : List (List Column)} {order : List Column} (horder : Serialised clients order)

include horder

/-- A run on behalf of clients takes in what they offer together, unless the slots run out. -/
theorem serve_serialised {kernel : Kernel op t} (hkernel : kernel.Begun) :
    let run := trace serve ⟨kernel⟩ order
    let offered := clients.flatten.flatMap (Column.offered op t)
    ∃ taken, run.2.inner.Holds (.after op taken []) ∧ Ledger.Roomy op taken ∧
      List.Forall₂ (Settled op taken) order run.1 ∧
      (.error (.capacity .distinctValues) ∈ run.1 ↔ ¬Ledger.Roomy op offered) ∧
      (.error (.capacity .distinctValues) ∉ run.1 → List.Perm taken offered) := by
  intro run offered
  have hfresh : (SharedKernel.mk kernel).inner.Holds (.after op [] []) := by
    rw [Ledger.after_nil]
    exact hkernel.holds
  obtain ⟨taken, hholds, hroomy, hsettled, hslots⟩ := serve_settled hfresh (Nat.zero_le _) order
  rw [List.nil_append] at hholds hroomy hsettled hslots
  have hperm : List.Perm (order.flatMap (Column.offered op t)) offered :=
    horder.perm.flatMap_right _
  refine ⟨taken, hholds, hroomy, hsettled, ?_⟩
  rcases hslots with ⟨hfull, hcrowded⟩ | ⟨hnone, rfl⟩
  · have hcrowded : ¬Ledger.Roomy op offered := mt (Ledger.Roomy.congr hperm).mpr hcrowded
    exact ⟨iff_of_true hfull hcrowded, fun hnone => absurd hfull hnone⟩
  · have hroom : Ledger.Roomy op offered := (Ledger.Roomy.congr hperm).mp hroomy
    exact ⟨iff_of_false hnone (not_not_intro hroom), fun _ => hperm⟩

/-- Whatever the order in which the clients' columns are served, a kernel that counts has each element with
the number of its occurrences in all columns of its type, and every column that a kernel that encodes accepts
is answered with its own keys, which read back through the dictionary of the end. Columns are refused for
their type and for want of room for their keys; others only if the clients together have more distinct
elements than there are slots. -/
theorem serve_any_order {counter : Kernel .valueCounts t} {encoder : Kernel .dictionaryEncode t}
    (hcounter : counter.Begun) (hencoder : encoder.Begun) (ht : t ≠ .fixedSizeBinary 0) :
    let full : SharedReply := .error (.capacity .distinctValues)
    let counted := trace serve ⟨counter⟩ order
    let encoded := trace serve ⟨encoder⟩ order
    let held := clients.flatten.flatMap (Column.elements t)
    let keyed := clients.flatten.flatMap (Column.offered .dictionaryEncode t)
    ((full ∈ counted.1 ↔ ¬Ledger.Roomy .valueCounts held) ∧
      (Ledger.Roomy .valueCounts held →
        List.Forall₂ (fun column reply => reply = .ok none ↔ column.type = t) order counted.1 ∧
        counted.2.Entries held ∧
        (∀ dictionary : Cells t.layout, counted.2.dictionary = .ok ⟨t, dictionary⟩ → ∃ counts,
          counted.2.flushFinal.1 = some counts ∧ dictionary.length = counts.length ∧
          List.Perm (dictionary.toList.zip counts.toList) (occurrences held)) ∧
        (held.length < 2 ^ 63 → ∀ x, (SlotCounts.cell (held.count x)).toInt = held.count x))) ∧
    (full ∈ encoded.1 ↔ ¬Ledger.Roomy .dictionaryEncode keyed) ∧
    List.Forall₂ (fun column reply => ∀ out, reply = .ok out →
      ∃ (cells : Cells t.layout) (keys : Cells DataType.int32.layout), column = ⟨t, cells⟩ ∧
        out = some keys ∧ keys.length = cells.length ∧
        ∀ dictionary : Cells t.layout, encoded.2.dictionary = .ok ⟨t, dictionary⟩ →
          Encodes dictionary keys cells)
      order encoded.1 ∧
    (Ledger.Roomy .dictionaryEncode keyed →
      List.Forall₂ (fun column reply => (∃ out, reply = .ok out) ↔
        column.type = t ∧ (Tally.empty .dictionaryEncode).reserve column.length = .ok ())
        order encoded.1 ∧
      encoded.2.Entries keyed) := by
  intro full counted encoded held keyed
  -- Counting asks for no room by position, so all of a column of the type is offered.
  have hoffered : clients.flatten.flatMap (Column.offered .valueCounts t) = held := rfl
  obtain ⟨taken, hholds, -, hsettled, hfull, hall⟩ := serve_serialised horder hcounter
  rw [hoffered] at hfull hall
  obtain ⟨kept, hkept, hroomy, hanswered, hcrowded, hkeyed⟩ := serve_serialised horder hencoder
  refine ⟨⟨hfull, fun hroom => ?_⟩, hcrowded, ?_, fun hroom => ?_⟩
  · have hnone : full ∉ counted.1 := fun hmem => hfull.mp hmem hroom
    have hperm := hall hnone
    have hreplies := Settled.of_not_mem hsettled hnone
    refine ⟨hreplies.imp fun _ _ h => h.1.ok_none_iff h.2, entries_of_holds ht hholds hperm,
      fun dictionary => counts_of_holds ht hholds hperm, fun hfew => ?_⟩
    exact SlotCounts.toInt_cell_count hfew
  · refine hanswered.imp fun column reply h out hok => ?_
    obtain rfl := hok
    obtain ⟨cells, keys, hcolumn, hout, hlength, htaken, hkeys⟩ := h.keys
    exact ⟨cells, keys, hcolumn, hout, hlength,
      fun dictionary => encodes_of_holds ht hkept hroomy htaken hkeys⟩
  · have hnone : full ∉ encoded.1 := fun hmem => hcrowded.mp hmem hroom
    have hreplies := Settled.of_not_mem hanswered hnone
    exact ⟨hreplies.imp fun _ _ h => h.1.ok_iff h.2, entries_of_holds ht hkept (hkeyed hnone)⟩

end Serialised

omit [Memory] in
/-- Two clients, one of which sends a column of another type in between. In this order the second client's
null and its `false` come first. -/
theorem serve_any_order_booleans :
    letI : Memory := .of47Bits
    let column (xs : List (Option Bool)) : Column := ⟨.boolean, .ofList xs⟩
    let other : Column := ⟨.int32, .ofList [some 0#32]⟩
    let clients := [[column [some true, none], column [some true]],
      [column [none, some false], other, column [some false]]]
    let order := [column [none, some false], column [some true, none], other, column [some true],
      column [some false]]
    Serialised clients order ∧ DataType.boolean ≠ .fixedSizeBinary 0 ∧
    ∃ (counter : Kernel .valueCounts .boolean) (encoder : Kernel .dictionaryEncode .boolean),
      counter.Begun ∧ encoder.Begun ∧
      (∃ dictionary counts, (trace serve ⟨counter⟩ order).2.dictionary = .ok ⟨.boolean, dictionary⟩ ∧
        (trace serve ⟨counter⟩ order).2.flushFinal.1 = some counts ∧
        List.Perm (dictionary.toList.zip counts.toList)
          [(some true, some 2#64), (none, some 2#64), (some false, some 2#64)]) ∧
      ∃ dictionary keys, (trace serve ⟨encoder⟩ order).2.dictionary = .ok ⟨.boolean, dictionary⟩ ∧
        (trace serve ⟨encoder⟩ order).1[1]? = some (.ok (some keys)) ∧
        Encodes dictionary keys (.ofList [some true, none]) := by
  intro column other clients order
  let memory : Memory := .of47Bits
  have horder : Serialised clients order := by
    apply Serialised.turn (k := 1) rfl
    apply Serialised.turn (k := 0) rfl
    apply Serialised.turn (k := 1) rfl
    apply Serialised.turn (k := 0) rfl
    apply Serialised.turn (k := 1) rfl
    exact .done (by simp [clients])
  have htype : DataType.boolean ≠ .fixedSizeBinary 0 := by decide
  let counter : Kernel .valueCounts .boolean := .values rfl Memo.BooleanTable.empty #[]
  let encoder : Kernel .dictionaryEncode .boolean :=
    .values rfl Memo.BooleanTable.empty PendingKeys.empty
  have hcreateCounter : Kernel.create .valueCounts .boolean 4 = .ok counter := rfl
  have hcreateEncoder : Kernel.create .dictionaryEncode .boolean 4 = .ok encoder := rfl
  have hcounter : counter.Begun := .made hcreateCounter
  have hencoder : encoder.Begun := .made hcreateEncoder
  obtain ⟨⟨-, hcounted⟩, -, hdecodes, hkeyed⟩ := serve_any_order horder hcounter hencoder htype
  refine ⟨horder, htype, counter, encoder, hcounter, hencoder, ?_, ?_⟩
  · obtain ⟨-, hentries, hcounts, -⟩ := hcounted (by decide)
    obtain ⟨dictionary, hdictionary, -⟩ := hentries.read (by decide)
    obtain ⟨counts, hflushed, -, hperm⟩ := hcounts dictionary hdictionary
    exact ⟨dictionary, counts, hdictionary, hflushed, hperm⟩
  · obtain ⟨-, hentries⟩ := hkeyed (by decide)
    obtain ⟨dictionary, hdictionary, -⟩ := hentries.read (by decide)
    obtain ⟨cells, keys, hcells, hkeys, -, hreads⟩ :=
      (List.forall₂_iff_get.mp hdecodes).2 1 (by decide) (by decide) _ rfl
    obtain rfl : cells = .ofList [some true, none] :=
      Option.some.inj ((Column.as?_eq_some.mpr hcells).symm.trans (Column.as?_mk _ _))
    refine ⟨dictionary, keys, hdictionary, ?_, hreads dictionary hdictionary⟩
    rw [← hkeys]
    rfl

end SharedKernel

end Columnar
