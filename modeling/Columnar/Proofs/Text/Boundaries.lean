import Columnar.Proofs.Text.Utf8

namespace Columnar.Text

def IsText (bytes : List UInt8) : Prop := ∃ s : String, s.toUTF8.toList = bytes

theorem isText_iff {bytes : List UInt8} :
    IsText bytes ↔ ∃ cs : List Char, bytes = cs.flatMap String.utf8EncodeChar := by
  constructor
  · rintro ⟨s, rfl⟩
    exact ⟨s.toList, toUTF8_toList s⟩
  · rintro ⟨cs, rfl⟩
    exact ⟨String.ofList cs, by rw [toUTF8_toList, String.toList_ofList]⟩

/-! ### What is read is what was written -/

theorem exists_of_continueSequence {more taken point least greatest p : ℕ} {bytes : List UInt8}
    (h : continueSequence (more + 1) taken point least greatest bytes = .ok p) :
    ∃ b rest, bytes = b :: rest ∧ least ≤ b.toNat ∧ b.toNat ≤ greatest ∧
      continueSequence more (taken + 1) (64 * point + b.toNat % 64) 0x80 0xbf rest = .ok p := by
  cases bytes with
  | nil => cases h
  | cons b rest =>
    rw [continueSequence] at h
    split_ifs at h with hb
    exact ⟨b, rest, rfl, hb.1, hb.2, h⟩

theorem openSequence_eq_some {lead more point least greatest : ℕ}
    (h : openSequence lead = some (more, point, least, greatest)) :
    (more = 1 ∧ 0xc2 ≤ lead ∧ lead < 0xe0 ∧ point = lead - 0xc0 ∧ least = 0x80 ∧ greatest = 0xbf) ∨
    (more = 2 ∧ 0xe0 ≤ lead ∧ lead < 0xf0 ∧ point = lead - 0xe0 ∧ 0x80 ≤ least ∧ greatest ≤ 0xbf ∧
      (lead = 0xe0 → 0xa0 ≤ least) ∧ (lead = 0xed → greatest ≤ 0x9f)) ∨
    (more = 3 ∧ 0xf0 ≤ lead ∧ lead < 0xf5 ∧ point = lead - 0xf0 ∧ 0x80 ≤ least ∧ greatest ≤ 0xbf ∧
      (lead = 0xf0 → 0x90 ≤ least) ∧ (lead = 0xf4 → greatest ≤ 0x8f)) := by
  unfold openSequence at h
  split_ifs at h <;> cases h <;> omega

theorem utf8EncodeChar_ofNat {v : ℕ} (hvalid : v < 0xd800 ∨ 0xdfff < v ∧ v < 0x110000) :
    String.utf8EncodeChar (Char.ofNat v) =
      if v ≤ 0x7f then [UInt8.ofNat v]
      else if v ≤ 0x7ff then [UInt8.ofNat (v / 64 % 32 + 0xc0), UInt8.ofNat (v % 64 + 0x80)]
      else if v ≤ 0xffff then [UInt8.ofNat (v / 4096 % 16 + 0xe0), UInt8.ofNat (v / 64 % 64 + 0x80),
        UInt8.ofNat (v % 64 + 0x80)]
      else [UInt8.ofNat (v / 262144 % 8 + 0xf0), UInt8.ofNat (v / 4096 % 64 + 0x80),
        UInt8.ofNat (v / 64 % 64 + 0x80), UInt8.ofNat (v % 64 + 0x80)] := by
  have hv : (Char.ofNat v).val.toNat = v := (Char.toNat_ofNat v).trans (if_pos hvalid)
  simp only [String.utf8EncodeChar, hv]

theorem ofNat_eq_byte {b : UInt8} {n : ℕ} (h : n = b.toNat) : UInt8.ofNat n = b := by
  rw [h, UInt8.ofNat_toNat]

/-- The bytes that a character was read from are those that it is written with. -/
theorem utf8EncodeChar_of_firstChar {lead : UInt8} {rest : List UInt8} {c : Char} {more : ℕ}
    (h : firstChar lead rest = .ok (c, more)) :
    ∃ tail after, rest = tail ++ after ∧ tail.length = more ∧
      String.utf8EncodeChar c = lead :: tail := by
  unfold firstChar at h
  split_ifs at h with hascii
  · obtain ⟨rfl, rfl⟩ := Prod.mk.inj (Except.ok.inj h)
    refine ⟨[], rest, rfl, rfl, ?_⟩
    rw [utf8EncodeChar_ofNat (Or.inl (by omega)), if_pos (by omega), ofNat_eq_byte rfl]
  · cases hopen : openSequence lead.toNat with
    | none => simp [hopen] at h
    | some sequence =>
      obtain ⟨m, point, least, greatest⟩ := sequence
      simp only [hopen] at h
      cases hread : continueSequence m 1 point least greatest rest with
      | error e => simp [hread, Except.map] at h
      | ok v =>
        rw [hread] at h
        obtain ⟨rfl, rfl⟩ := Prod.mk.inj (Except.ok.inj h)
        -- One case for each number of bytes after the first.
        rcases openSequence_eq_some hopen with ⟨rfl, hopen⟩ | ⟨rfl, hopen⟩ | ⟨rfl, hopen⟩
        · obtain ⟨b, after, rfl, hb, hb', hread⟩ := exists_of_continueSequence hread
          obtain rfl : _ = v := Except.ok.inj hread
          refine ⟨[b], after, rfl, rfl, ?_⟩
          rw [utf8EncodeChar_ofNat (by omega), if_neg (by omega), if_pos (by omega),
            ofNat_eq_byte (b := lead) (by omega), ofNat_eq_byte (b := b) (by omega)]
        · obtain ⟨b, _, rfl, hb, hb', hread⟩ := exists_of_continueSequence hread
          obtain ⟨d, after, rfl, hd, hd', hread⟩ := exists_of_continueSequence hread
          obtain rfl : _ = v := Except.ok.inj hread
          refine ⟨[b, d], after, rfl, rfl, ?_⟩
          rw [utf8EncodeChar_ofNat (by omega), if_neg (by omega), if_neg (by omega),
            if_pos (by omega), ofNat_eq_byte (b := lead) (by omega),
            ofNat_eq_byte (b := b) (by omega), ofNat_eq_byte (b := d) (by omega)]
        · obtain ⟨b, _, rfl, hb, hb', hread⟩ := exists_of_continueSequence hread
          obtain ⟨d, _, rfl, hd, hd', hread⟩ := exists_of_continueSequence hread
          obtain ⟨e, after, rfl, he, he', hread⟩ := exists_of_continueSequence hread
          obtain rfl : _ = v := Except.ok.inj hread
          refine ⟨[b, d, e], after, rfl, rfl, ?_⟩
          rw [utf8EncodeChar_ofNat (by omega), if_neg (by omega), if_neg (by omega),
            if_neg (by omega), ofNat_eq_byte (b := lead) (by omega),
            ofNat_eq_byte (b := b) (by omega), ofNat_eq_byte (b := d) (by omega),
            ofNat_eq_byte (b := e) (by omega)]

theorem eq_of_decodeFrom {start : ℕ} {bytes : List UInt8} {cs : List Char}
    (h : decodeFrom start bytes = .ok cs) : bytes = cs.flatMap String.utf8EncodeChar := by
  fun_induction decodeFrom start bytes generalizing cs with
  | case1 start =>
    obtain rfl := Except.ok.inj h
    rfl
  | case2 start lead rest length hfirst => cases h
  | case3 start lead rest c more hfirst ih =>
    cases hrest : decodeFrom (start + more + 1) (rest.drop more) with
    | error e => simp [hrest, Except.map] at h
    | ok ds =>
      rw [hrest] at h
      obtain rfl := Except.ok.inj h
      obtain ⟨tail, after, rfl, rfl, hc⟩ := utf8EncodeChar_of_firstChar hfirst
      have hds := ih hrest
      rw [List.drop_left] at hds
      rw [List.flatMap_cons, hc, ← hds, List.cons_append]

theorem isText_of_decode {bytes : List UInt8} {s : String} (h : decode bytes = .ok s) :
    IsText bytes := by
  cases hfrom : decodeFrom 0 bytes with
  | error e => simp [decode, hfrom, Except.map] at h
  | ok cs => exact isText_iff.mpr ⟨cs, eq_of_decodeFrom hfrom⟩

/-! ### Boundaries -/

/-- Inside a character there are only bytes that no character starts with. -/
theorem utf8EncodeChar_tail (c : Char) :
    ∃ lead tail, String.utf8EncodeChar c = lead :: tail ∧
      ∀ b ∈ tail, 0x80 ≤ b.toNat ∧ b.toNat < 0xc0 := by
  have hbyte (n : ℕ) : 0x80 ≤ (UInt8.ofNat (n % 64 + 0x80)).toNat ∧
      (UInt8.ofNat (n % 64 + 0x80)).toNat < 0xc0 := by
    rw [toNat_byte (by omega)]
    omega
  simp only [String.utf8EncodeChar]
  split_ifs
  · exact ⟨_, [], rfl, List.forall_mem_nil _⟩
  · exact ⟨_, [_], rfl, List.forall_mem_singleton.mpr (hbyte _)⟩
  · exact ⟨_, [_, _], rfl, List.forall_mem_cons.mpr ⟨hbyte _,
      List.forall_mem_singleton.mpr (hbyte _)⟩⟩
  · exact ⟨_, [_, _, _], rfl, List.forall_mem_cons.mpr ⟨hbyte _, List.forall_mem_cons.mpr ⟨hbyte _,
      List.forall_mem_singleton.mpr (hbyte _)⟩⟩⟩

theorem isBoundary_append_right (front back : List UInt8) (offset : ℕ) :
    isBoundary (front ++ back).toArray (front.length + offset) = isBoundary back.toArray offset := by
  rw [isBoundary, isBoundary, List.getElem?_toArray, List.getElem?_toArray,
    List.getElem?_append_right (Nat.le_add_right _ _), Nat.add_sub_cancel_left]
  cases back[offset]? with
  | some b => rfl
  | none => simp

/-- A boundary of a text divides its characters into those before and those behind it. -/
theorem exists_split_of_isBoundary {cs : List Char} {offset : ℕ}
    (h : isBoundary (cs.flatMap String.utf8EncodeChar).toArray offset) :
    ∃ front back, cs = front ++ back ∧
      offset = (front.flatMap String.utf8EncodeChar).length := by
  induction cs generalizing offset with
  | nil =>
    have hend : offset = 0 := by simpa [isBoundary] using h
    exact ⟨[], [], rfl, hend⟩
  | cons c cs ih =>
    obtain ⟨lead, tail, hc, htail⟩ := utf8EncodeChar_tail c
    rw [List.flatMap_cons, hc] at h
    rcases Nat.eq_zero_or_pos offset with rfl | hpos
    · exact ⟨[], c :: cs, rfl, rfl⟩
    rcases Nat.lt_or_ge offset (lead :: tail).length with hinside | hbehind
    · -- The byte there belongs to the middle of the first character.
      have hplace : offset - 1 < tail.length := by
        rw [List.length_cons] at hinside
        omega
      have hbyte : (lead :: tail ++ cs.flatMap String.utf8EncodeChar)[offset]? =
          some tail[offset - 1] := by
        rw [List.getElem?_append_left hinside, List.getElem?_cons, if_neg hpos.ne',
          List.getElem?_eq_getElem hplace]
      obtain ⟨hleast, hmost⟩ := htail _ (List.getElem_mem hplace)
      simp only [isBoundary, List.getElem?_toArray, hbyte, Bool.or_eq_true, decide_eq_true_eq] at h
      omega
    · obtain ⟨later, rfl⟩ := Nat.exists_eq_add_of_le hbehind
      rw [isBoundary_append_right] at h
      obtain ⟨front, back, rfl, rfl⟩ := ih h
      refine ⟨c :: front, back, rfl, ?_⟩
      rw [List.flatMap_cons, hc, List.length_append]

/-- Pieces of a text that meet at boundaries only are texts. -/
theorem isText_of_boundaries {pieces : List (List UInt8)} (h : IsText pieces.flatten)
    (hcuts : ∀ n ≤ pieces.length,
      isBoundary pieces.flatten.toArray (pieces.take n).flatten.length) :
    ∀ piece ∈ pieces, IsText piece := by
  induction pieces with
  | nil => exact List.forall_mem_nil _
  | cons piece pieces ih =>
    obtain ⟨cs, hcs⟩ := isText_iff.mp h
    have hfirst := hcuts 1 (by simp)
    rw [hcs] at hfirst
    -- The end of the first piece is a boundary, so no character reaches over it.
    obtain ⟨front, back, rfl, hlength⟩ := exists_split_of_isBoundary hfirst
    rw [List.flatten_cons, List.flatMap_append] at hcs
    obtain ⟨hpiece, hrest⟩ := List.append_inj hcs (by simpa using hlength)
    refine List.forall_mem_cons.mpr ⟨isText_iff.mpr ⟨front, hpiece⟩, ?_⟩
    refine ih (isText_iff.mpr ⟨back, hrest⟩) fun n hn => ?_
    have hcut := hcuts (n + 1) (by simpa using hn)
    rwa [List.take_succ_cons, List.flatten_cons, List.flatten_cons, List.length_append,
      isBoundary_append_right] at hcut

end Columnar.Text
