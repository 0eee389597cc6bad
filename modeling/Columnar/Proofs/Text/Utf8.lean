import Mathlib
import Columnar.Text.Utf8

namespace Columnar.Text

theorem toList_loop_eq (bytes : ByteArray) (i : ℕ) (done : List UInt8) :
    ByteArray.toList.loop bytes i done = done.reverse ++ bytes.data.toList.drop i := by
  fun_induction ByteArray.toList.loop bytes i done with
  | case1 i done h ih =>
    have hi : i < bytes.data.toList.length := by simpa using h
    have hget : bytes.get! i = bytes.data.toList[i] := by
      simp [ByteArray.get!, getElem!_pos bytes.data i h]
    rw [ih, List.drop_eq_getElem_cons hi, List.reverse_cons, List.append_assoc, hget]
    rfl
  | case2 i done h =>
    have hi : bytes.data.toList.length ≤ i := by simpa using h
    rw [List.drop_of_length_le hi, List.append_nil]

theorem toList_eq_data (bytes : ByteArray) : bytes.toList = bytes.data.toList :=
  toList_loop_eq bytes 0 []

theorem toUTF8_toList (s : String) :
    s.toUTF8.toList = s.toList.flatMap String.utf8EncodeChar := by
  have h : s.toUTF8 = s.toList.utf8Encode := String.utf8Encode_toList.symm
  rw [h, toList_eq_data]
  simp [List.utf8Encode]

theorem toUTF8_toList_injective : Function.Injective fun s : String => s.toUTF8.toList := by
  intro s t h
  simp only [toList_eq_data, Array.toList_inj] at h
  exact String.toByteArray_inj.mp (ByteArray.ext h)

theorem toNat_byte {n : ℕ} (h : n < 0x100) : (UInt8.ofNat n).toNat = n :=
  UInt8.toNat_ofNat_of_lt' h

/-- A byte that continues a sequence adds six bits to the code point. -/
theorem continueSequence_cons (more taken point least greatest n : ℕ) (rest : List UInt8)
    (hleast : least ≤ n % 64 + 0x80) (hgreatest : n % 64 + 0x80 ≤ greatest) :
    continueSequence (more + 1) taken point least greatest
        (UInt8.ofNat (n % 64 + 0x80) :: rest) =
      continueSequence more (taken + 1) (64 * point + n % 64) 0x80 0xbf rest := by
  have hbits : (n % 64 + 0x80) % 64 = n % 64 := by omega
  rw [continueSequence, toNat_byte (by omega), if_pos ⟨hleast, hgreatest⟩, hbits]

theorem openSequence_two {v : ℕ} (hleast : 0x80 ≤ v) (hmost : v < 0x800) :
    openSequence (v / 64 % 0x20 + 0xc0) = some (1, v / 64, 0x80, 0xbf) := by
  rw [openSequence, if_neg (by omega), if_pos (by omega),
    show (v / 64 % 0x20 + 0xc0) % 32 = v / 64 by omega]

/-- The second byte of three keeps out what two bytes can say, and surrogates. -/
theorem openSequence_three {v : ℕ} (hleast : 0x800 ≤ v) (hmost : v < 0x10000)
    (hscalar : v < 0xd800 ∨ 0xdfff < v) :
    ∃ least greatest, openSequence (v / 4096 % 0x10 + 0xe0) =
      some (2, v / 4096, least, greatest) ∧
        least ≤ v / 64 % 64 + 0x80 ∧ v / 64 % 64 + 0x80 ≤ greatest := by
  rw [openSequence, if_neg (by omega), if_neg (by omega)]
  split_ifs
  · exact ⟨0xa0, 0xbf, by rw [show v / 4096 = 0 by omega], by omega, by omega⟩
  · exact ⟨0x80, 0x9f, by rw [show v / 4096 = 13 by omega], by omega, by omega⟩
  · exact ⟨0x80, 0xbf, by rw [show (v / 4096 % 0x10 + 0xe0) % 16 = v / 4096 by omega],
      by omega, by omega⟩
  all_goals omega

/-- The second byte of four keeps out what three bytes can say, and what lies above the last code
point. -/
theorem openSequence_four {v : ℕ} (hleast : 0x10000 ≤ v) (hmost : v < 0x110000) :
    ∃ least greatest, openSequence (v / 262144 % 0x08 + 0xf0) =
      some (3, v / 262144, least, greatest) ∧
        least ≤ v / 4096 % 64 + 0x80 ∧ v / 4096 % 64 + 0x80 ≤ greatest := by
  rw [openSequence, if_neg (by omega), if_neg (by omega), if_neg (by omega), if_neg (by omega),
    if_neg (by omega)]
  split_ifs
  · exact ⟨0x90, 0xbf, by rw [show v / 262144 = 0 by omega], by omega, by omega⟩
  · exact ⟨0x80, 0xbf, by rw [show (v / 262144 % 0x08 + 0xf0) % 8 = v / 262144 by omega],
      by omega, by omega⟩
  · exact ⟨0x80, 0x8f, by rw [show v / 262144 = 4 by omega], by omega, by omega⟩
  all_goals omega

theorem firstChar_utf8EncodeChar (c : Char) (rest : List UInt8) :
    ∃ lead tail, String.utf8EncodeChar c = lead :: tail ∧
      (lead.toNat < 0x80 ∨ 0xc0 ≤ lead.toNat) ∧
      firstChar lead (tail ++ rest) = .ok (c, tail.length) := by
  have hc : Char.ofNat c.val.toNat = c := Char.ofNat_toNat c
  have hvalid : c.val.toNat < 0xd800 ∨ 0xdfff < c.val.toNat ∧ c.val.toNat < 0x110000 := c.valid
  simp only [String.utf8EncodeChar]
  generalize c.val.toNat = v at hc hvalid ⊢
  -- One case for each number of bytes.
  split_ifs with h1 h2 h3
  · refine ⟨_, _, rfl, ?_⟩
    rw [toNat_byte (by omega), firstChar, toNat_byte (by omega), if_pos (by omega), hc]
    exact ⟨Or.inl (by omega), rfl⟩
  · refine ⟨_, _, rfl, ?_⟩
    rw [toNat_byte (by omega), firstChar, toNat_byte (by omega), if_neg (by omega),
      openSequence_two (by omega) (by omega)]
    refine ⟨Or.inr (by omega), ?_⟩
    simp only [List.cons_append, List.nil_append]
    rw [continueSequence_cons _ _ _ _ _ _ _ (by omega) (by omega), continueSequence,
      show 64 * (v / 64) + v % 64 = v by omega]
    exact congrArg (fun c => Except.ok (c, 1)) hc
  · obtain ⟨least, greatest, hopen, hleast, hgreatest⟩ :=
      openSequence_three (v := v) (by omega) (by omega) (by omega)
    refine ⟨_, _, rfl, ?_⟩
    rw [toNat_byte (by omega), firstChar, toNat_byte (by omega), if_neg (by omega), hopen]
    refine ⟨Or.inr (by omega), ?_⟩
    simp only [List.cons_append, List.nil_append]
    rw [continueSequence_cons _ _ _ _ _ _ _ hleast hgreatest,
      continueSequence_cons _ _ _ _ _ _ _ (by omega) (by omega), continueSequence,
      show 64 * (64 * (v / 4096) + v / 64 % 64) + v % 64 = v by omega]
    exact congrArg (fun c => Except.ok (c, 2)) hc
  · obtain ⟨least, greatest, hopen, hleast, hgreatest⟩ :=
      openSequence_four (v := v) (by omega) (by omega)
    refine ⟨_, _, rfl, ?_⟩
    rw [toNat_byte (by omega), firstChar, toNat_byte (by omega), if_neg (by omega), hopen]
    refine ⟨Or.inr (by omega), ?_⟩
    simp only [List.cons_append, List.nil_append]
    rw [continueSequence_cons _ _ _ _ _ _ _ hleast hgreatest,
      continueSequence_cons _ _ _ _ _ _ _ (by omega) (by omega),
      continueSequence_cons _ _ _ _ _ _ _ (by omega) (by omega), continueSequence,
      show 64 * (64 * (64 * (v / 262144) + v / 4096 % 64) + v / 64 % 64) + v % 64 = v by omega]
    exact congrArg (fun c => Except.ok (c, 3)) hc

theorem decodeFrom_utf8 (start : ℕ) (cs : List Char) :
    decodeFrom start (cs.flatMap String.utf8EncodeChar) = .ok cs := by
  induction cs generalizing start with
  | nil => simp [decodeFrom]
  | cons c cs ih =>
    obtain ⟨lead, tail, henc, -, hfirst⟩ :=
      firstChar_utf8EncodeChar c (cs.flatMap String.utf8EncodeChar)
    rw [List.flatMap_cons, henc, List.cons_append, decodeFrom, hfirst]
    simp only [List.drop_left, ih]
    rfl

theorem decode_toUTF8 (s : String) : decode s.toUTF8.toList = .ok s := by
  rw [toUTF8_toList, decode, decodeFrom_utf8]
  exact congrArg Except.ok String.ofList_toList

theorem isBoundary_utf8 (front back : List Char) :
    isBoundary ((front ++ back).flatMap String.utf8EncodeChar).toArray
      (front.flatMap String.utf8EncodeChar).length = true := by
  rw [List.flatMap_append, isBoundary, List.getElem?_toArray,
    List.getElem?_append_right (Nat.le_refl _), Nat.sub_self]
  cases back with
  | nil => simp
  | cons c back =>
    obtain ⟨lead, tail, henc, hlead, -⟩ := firstChar_utf8EncodeChar c []
    rw [List.flatMap_cons, henc]
    simpa using hlead

end Columnar.Text
