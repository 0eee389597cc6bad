import Columnar.Proofs.Kernel.FirstSight
import Columnar.Proofs.Memo.Requests
import Columnar.Proofs.Text.Boundaries

namespace Columnar.Memo

/-! ### What a run leaves in a table -/

section Since

variable {κ : Type}

/-- What was asked for since the last clearing, with one more request. -/
def Request.note (asked : List (Option κ)) : Request κ → List (Option κ)
  | .insert key => asked ++ [some key]
  | .insertNull => asked ++ [none]
  | .clear => []

def sinceClear (requests : List (Request κ)) : List (Option κ) := requests.foldl Request.note []

variable [DecidableEq κ]

def distinctSinceClear (requests : List (Request κ)) : List (Option κ) :=
  (sinceClear requests).eraseDups

theorem Entries.lookUp_eraseDups (asked : List (Option κ)) (entry : Option κ)
    (hroom : (asked ++ [entry]).eraseDups.length ≤ largestSlot + 1) :
    (Entries.lookUp asked.eraseDups entry).2 = (asked ++ [entry]).eraseDups := by
  rw [Ledger.eraseDups_concat] at hroom ⊢
  unfold Entries.lookUp
  by_cases hmem : entry ∈ asked.eraseDups
  · obtain ⟨slot, hslot⟩ := Option.isSome_iff_exists.mp (List.isSome_idxOf?.mpr hmem)
    rw [hslot, Ledger.enter, if_pos hmem]
  · rw [Ledger.length_enter_of_not_mem hmem] at hroom
    rw [List.idxOf?_eq_none_iff.mpr hmem, Ledger.enter, if_neg hmem]
    simp only [if_pos (Nat.le_of_succ_le_succ hroom)]

/-- As long as there are slots for it, a list of entries is what was asked for since the last clearing. -/
theorem trace_serve_sinceClear (requests : List (Request κ))
    (hroom : (distinctSinceClear requests).length ≤ largestSlot + 1) :
    (trace Entries.serve [] requests).2 = distinctSinceClear requests := by
  -- A list that ran out of slots may catch up at the next clearing, so the two agree only while slots last.
  suffices hrun : ∀ asked entries : List (Option κ),
      (asked.eraseDups.length ≤ largestSlot + 1 → entries = asked.eraseDups) →
      (requests.foldl Request.note asked).eraseDups.length ≤ largestSlot + 1 →
      (trace Entries.serve entries requests).2 =
        (requests.foldl Request.note asked).eraseDups from
    hrun [] [] (fun _ => rfl) hroom
  clear hroom
  induction requests with
  | nil => exact fun asked entries h hroom => h hroom
  | cons request requests ih =>
    intro asked entries h hroom
    refine ih (request.note asked) _ (fun hnext => ?_) hroom
    have hasked (entry : Option κ) (hlook : (asked ++ [entry]).eraseDups.length ≤ largestSlot + 1) :
        entries = asked.eraseDups := by
      refine h (Nat.le_trans ?_ hlook)
      rw [List.eraseDups_append, List.length_append]
      exact Nat.le_add_right _ _
    cases request with
    | insert key =>
      obtain rfl := hasked (some key) hnext
      exact Entries.lookUp_eraseDups asked (some key) hnext
    | insertNull =>
      obtain rfl := hasked none hnext
      exact Entries.lookUp_eraseDups asked none hnext
    | clear => rfl

end Since

namespace ByteTable

variable {table : ByteTable} {entries : List (Option (List UInt8))}

def shortEntries : List (Option (List UInt8)) :=
  none :: some [] :: (List.range 256).map fun n => some [UInt8.ofNat n]

theorem mem_shortEntries {entry : Option (List UInt8)} (h : (stored entry).length < 2) :
    entry ∈ shortEntries := by
  match entry, h with
  | none, _ => exact List.mem_cons_self
  | some [], _ => exact List.mem_cons_of_mem _ List.mem_cons_self
  | some [b], _ =>
    refine List.mem_cons_of_mem _ (List.mem_cons_of_mem _ (List.mem_map.mpr ⟨b.toNat, ?_, ?_⟩))
    · exact List.mem_range.mpr b.toNat_lt
    · rw [UInt8.ofNat_toNat]
  | some (_ :: _ :: bytes), h => simp [stored] at h

theorem two_mul_length_le (entries : List (Option (List UInt8))) :
    2 * entries.length ≤ (entries.flatMap stored).length +
      2 * (entries.filter fun entry => (stored entry).length < 2).length := by
  induction entries with
  | nil => rfl
  | cons entry entries ih =>
    rw [List.length_cons, List.flatMap_cons, List.length_append]
    by_cases hshort : (stored entry).length < 2
    · rw [List.filter_cons_of_pos (by simpa using hshort), List.length_cons]
      omega
    · rw [List.filter_cons_of_neg (by simpa using hshort)]
      omega

/-- Different byte strings run out of bytes before they run out of slots. -/
theorem length_le_of_nodup (hnodup : entries.Nodup)
    (hfit : (entries.flatMap stored).length ≤ Layout.largestOffset) : entries.length ≤ largestSlot + 1 := by
  have hshort : (entries.filter fun entry => (stored entry).length < 2).length ≤
      shortEntries.length := by
    refine (List.subperm_of_subset (hnodup.filter _) fun entry hentry => ?_).length_le
    exact mem_shortEntries (by simpa using (List.mem_filter.mp hentry).2)
  have hcount : shortEntries.length = 258 := by simp [shortEntries]
  have hall := two_mul_length_le entries
  simp only [Layout.largestOffset] at hfit
  simp only [largestSlot]
  omega

/-! ### Text -/

/-- Bytes that read as text, cut where characters start, are entries that read as text. -/
theorem isText_of_checkText (h : table.Holds entries) (hcheck : table.checkText = .ok ()) :
    ∀ bytes, some bytes ∈ entries → Text.IsText bytes := by
  unfold checkText at hcheck
  split at hcheck
  · cases hcheck
  · next s hdecode =>
    split at hcheck
    · cases hcheck
    · next hfind =>
      have hbuffer : table.buffer = (entries.map stored).flatten.toArray :=
        Array.ext' (h.buffer.trans List.flatMap_def)
      have hcuts : ∀ n ≤ (entries.map stored).length, Text.isBoundary
          (entries.map stored).flatten.toArray ((entries.map stored).take n).flatten.length := by
        intro n hn
        rw [List.length_map] at hn
        have hoffset := Array.find?_eq_none.mp hfind _ (Array.mem_of_getElem? (h.offsets n hn))
        rw [← hbuffer, ← List.map_take, ← List.flatMap_def]
        simpa using hoffset
      have hall : Text.IsText (entries.map stored).flatten := by
        rw [← List.flatMap_def, ← h.buffer]
        exact Text.isText_of_decode hdecode
      intro bytes hmem
      exact Text.isText_of_boundaries hall hcuts bytes (List.mem_map_of_mem (f := stored) hmem)

theorem checkText_eq_ok_or (table : ByteTable) :
    table.checkText = .ok () ∨ ∃ fault, table.checkText = .error (.format fault) := by
  unfold checkText
  split
  · exact Or.inr ⟨_, rfl⟩
  · split
    · exact Or.inr ⟨_, rfl⟩
    · exact Or.inl rfl

theorem exists_texts (h : ∀ bytes, some bytes ∈ entries → Text.IsText bytes) :
    ∃ xs : List (Option String), xs.map (Option.map (·.toUTF8.toList)) = entries := by
  refine Set.mem_range.mp ?_
  rw [Set.range_list_map]
  intro entry hentry
  cases entry with
  | none => exact ⟨none, rfl⟩
  | some bytes =>
    obtain ⟨s, hs⟩ := h bytes hentry
    exact ⟨some s, congrArg some hs⟩

section Fits

variable (h : table.Holds entries) (hfit : (entries.flatMap stored).length ≤ Layout.largestOffset)

include h hfit

theorem toTextCells_of_texts (htexts : ∀ bytes, some bytes ∈ entries → Text.IsText bytes) :
    ∃ cells, table.toTextCells = .ok cells ∧
      cells.toList.map (Option.map (·.toUTF8.toList)) = entries := by
  obtain ⟨xs, rfl⟩ := exists_texts htexts
  obtain ⟨cells, hcells, hlist⟩ := toTextCells_ok h hfit
  exact ⟨cells, hcells, congrArg _ hlist⟩

theorem toTextCells_of_fragment {bytes : List UInt8} (hmem : some bytes ∈ entries)
    (hfragment : ¬Text.IsText bytes) : ∃ fault, table.toTextCells = .error (.format fault) := by
  rcases checkText_eq_ok_or table with hcheck | ⟨fault, hcheck⟩
  · exact absurd (isText_of_checkText h hcheck bytes hmem) hfragment
  · refine ⟨fault, ?_⟩
    rw [toTextCells, h.checkOffsets_eq_ok _ hfit, hcheck]
    rfl

end Fits

end ByteTable

section Served

variable {l : Layout} {memo : Memo l}

/-- A request for an entry is answered with its place among the entries, and changes nothing. -/
structure Numbers (memo : Memo l) (entries : List (Option l.Key)) : Prop where
  insert : ∀ slot key, entries[slot]? = some (some key) →
    serve memo (.insert key) = (some (.ok (.found slot)), memo)
  insertNull : ∀ slot, entries[slot]? = some none →
    serve memo .insertNull = (some (.ok (.found slot)), memo)

theorem Holds.numbers {entries : List (Option l.Key)} (h : memo.Holds entries)
    (hkeys : ∀ key, some key ∈ entries → l.Takes key) : memo.Numbers entries := by
  constructor
  · intro slot key hslot
    have hkey := hkeys key (List.mem_of_getElem? hslot)
    rw [serve, (insert_admitted h hkey).eq_found h.nodup hslot]
    rfl
  · intro slot hslot
    rw [serve, (insertNull_admitted h).eq_found h.nodup hslot]
    rfl

end Served

/-- A table of text can be read if and only if each byte string that was put in since the last clearing is text
by itself, wherever characters begin and end in the others, and a table of bytes can always be read. Either
gives out these byte strings, once each, with a null if one was put in, in the order of their slots. -/
theorem serve_toColumn_bytes [Memory] {hash hash' : List UInt8 → UInt64} {capacity capacity' : ℕ}
    {texts : Memo DataType.utf8.layout} (htexts : create .utf8 .utf8 hash capacity = .ok texts)
    {strings : Memo DataType.binary.layout}
    (hstrings : create .binary .binary hash' capacity' = .ok strings)
    (requests : List (Request (List UInt8))) (as : DataType)
    (hfit : ((distinctSinceClear requests).flatMap ByteTable.stored).length ≤
      Layout.largestOffset) :
    let distinct := distinctSinceClear requests
    let text := (trace serve texts requests).2
    let binary := (trace serve strings requests).2
    text.Numbers distinct ∧ binary.Numbers distinct ∧
    ((∃ column, toColumn .utf8 .utf8 text as = .ok column) ↔
      ∀ bytes, some bytes ∈ distinct → Text.IsText bytes) ∧
    (∀ column, toColumn .utf8 .utf8 text as = .ok column →
      ∃ cells : Cells .text, column = ⟨.utf8, cells⟩ ∧
        cells.toList.map (Option.map (·.toUTF8.toList)) = distinct) ∧
    (∀ bytes, some bytes ∈ distinct → ¬Text.IsText bytes →
      ∃ fault, toColumn .utf8 .utf8 text as = .error (.format fault)) ∧
    ∃ cells : Cells .bytes, toColumn .binary .binary binary as = .ok ⟨.binary, cells⟩ ∧
      cells.toList = distinct := by
  intro distinct text binary
  -- Strings that fit into a column are too few to run out of slots, so no request was refused.
  have hlisted : (trace Entries.serve [] requests).2 = distinct :=
    trace_serve_sinceClear requests
      (ByteTable.length_le_of_nodup (Ledger.nodup_eraseDups _) hfit)
  have htext : text.Holds distinct :=
    hlisted ▸ trace_serve_holds (holds_of_create htexts).1 requests fun _ _ => trivial
  have hbinary : binary.Holds distinct :=
    hlisted ▸ trace_serve_holds (holds_of_create hstrings).1 requests fun _ _ => trivial
  have hcolumn : toColumn .utf8 .utf8 text as =
      (ByteTable.toTextCells text).map fun cells => ⟨.utf8, cells⟩ := rfl
  have hrefused (bytes : List UInt8) (hmem : some bytes ∈ distinct)
      (hfragment : ¬Text.IsText bytes) :
      ∃ fault, toColumn .utf8 .utf8 text as = .error (.format fault) := by
    obtain ⟨fault, hfault⟩ := ByteTable.toTextCells_of_fragment htext hfit hmem hfragment
    exact ⟨fault, by rw [hcolumn, hfault]; rfl⟩
  have hread (hall : ∀ bytes, some bytes ∈ distinct → Text.IsText bytes) :
      ∃ cells : Cells .text, toColumn .utf8 .utf8 text as = .ok ⟨.utf8, cells⟩ ∧
        cells.toList.map (Option.map (·.toUTF8.toList)) = distinct := by
    obtain ⟨cells, hcells, hlist⟩ := ByteTable.toTextCells_of_texts htext hfit hall
    exact ⟨cells, by rw [hcolumn, hcells]; rfl, hlist⟩
  have htexts_of_ok {column : Column} (hok : toColumn .utf8 .utf8 text as = .ok column) :
      ∀ bytes, some bytes ∈ distinct → Text.IsText bytes := by
    intro bytes hmem
    by_contra hfragment
    obtain ⟨fault, hfault⟩ := hrefused bytes hmem hfragment
    rw [hfault] at hok
    cases hok
  refine ⟨htext.numbers fun _ _ => trivial, hbinary.numbers fun _ _ => trivial,
    ⟨fun ⟨_, hok⟩ => htexts_of_ok hok, fun hall => ?_⟩, fun column hok => ?_, hrefused, ?_⟩
  · obtain ⟨cells, hcells, -⟩ := hread hall
    exact ⟨_, hcells⟩
  · obtain ⟨cells, hcells, hlist⟩ := hread (htexts_of_ok hok)
    exact ⟨cells, Except.ok.inj (hok.symm.trans hcells), hlist⟩
  · obtain ⟨cells, hcells, hlist⟩ := ByteTable.toCells_ok hbinary hfit
    refine ⟨cells, ?_, hlist⟩
    change (ByteTable.toCells binary).map (fun cells => (⟨.binary, cells⟩ : Column)) = _
    rw [hcells]
    rfl

/-- The three bytes of one character in two slots, with an empty slot and that of null between them, make no
text, although all the bytes together do. After a clearing no fragment counts any more. -/
theorem serve_toColumn_bytes_fragments :
    letI : Memory := .of47Bits
    let fragments : List (Request (List UInt8)) :=
      [.insert [0xe2], .insert [], .insertNull, .insert [0x82, 0xac]]
    let whole : List (Request (List UInt8)) :=
      fragments ++ [.clear, .insert [0xc3, 0xa9], .insertNull, .insert [0xc3, 0xa9], .insert []]
    ∃ texts strings, create .utf8 .utf8 (fun _ => 7) 4 = .ok texts ∧
      create .binary .binary (fun _ => 7) 4 = .ok strings ∧
      Text.IsText ((distinctSinceClear fragments).flatMap ByteTable.stored) ∧
      (∃ fault, toColumn .utf8 .utf8 (trace serve texts fragments).2 .utf8 =
        .error (.format fault)) ∧
      (∃ cells : Cells .bytes, toColumn .binary .binary (trace serve strings fragments).2 .binary =
        .ok ⟨.binary, cells⟩ ∧
        cells.toList = [some [0xe2], some [], none, some [0x82, 0xac]]) ∧
      ∃ cells : Cells .text,
        toColumn .utf8 .utf8 (trace serve texts whole).2 .utf8 = .ok ⟨.utf8, cells⟩ ∧
        cells.toList.map (Option.map (·.toUTF8.toList)) =
          [some [0xc3, 0xa9], none, some []] := by
  intro fragments whole
  let memory : Memory := .of47Bits
  have htexts : create .utf8 .utf8 (fun _ => 7) 4 =
      .ok (ByteTable.empty fun _ => 7 : ByteTable) := rfl
  have hstrings : create .binary .binary (fun _ => 7) 4 =
      .ok (ByteTable.empty fun _ => 7 : ByteTable) := rfl
  have hfragment : ¬Text.IsText [0xe2] := by
    rintro ⟨s, hs⟩
    have hdecode := Text.decode_toUTF8 s
    rw [hs] at hdecode
    revert hdecode
    simp [Text.decode, Text.decodeFrom, Text.firstChar, Text.openSequence, Text.continueSequence,
      Except.map]
  obtain ⟨-, -, -, -, hrefused, hbytes⟩ :=
    serve_toColumn_bytes htexts hstrings fragments .utf8 (by decide)
  obtain ⟨-, -, hiff, hread, -, -⟩ :=
    serve_toColumn_bytes htexts hstrings whole .utf8 (by decide)
  obtain ⟨column, hcolumn⟩ := hiff.mpr (by
    intro bytes hmem
    have hdistinct : distinctSinceClear whole = [some [0xc3, 0xa9], none, some []] := by decide
    rw [hdistinct] at hmem
    simp only [List.mem_cons, Option.some.injEq, reduceCtorEq, List.not_mem_nil, or_false,
      false_or] at hmem
    rcases hmem with rfl | rfl
    · exact Text.isText_iff.mpr ⟨['é'], by decide⟩
    · exact Text.isText_iff.mpr ⟨[], rfl⟩)
  obtain ⟨cells, rfl, hlist⟩ := hread column hcolumn
  exact ⟨_, _, htexts, hstrings, Text.isText_iff.mpr ⟨['€'], by decide⟩,
    hrefused _ (by decide) hfragment, hbytes, cells, hcolumn, hlist⟩

end Columnar.Memo
