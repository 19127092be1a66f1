import Mathlib.Data.Nat.Notation
import TableClient.Base64

/-!
# Base64 loses nothing

A text that is read is written back as it was: the padding and the zero bits that reading insists on
leave only one text for each sequence of bytes. And what is written is read again, since letters
stand for their six bits and are never padding. So reading is the inverse of writing on what writing
makes, and fails on all else (`decode?_eq_some_iff`).
-/

namespace TableClient.Base64

/-- Six bits are written as the letter that they were read from. -/
theorem letter_of_value? {c : Char} {n : ℕ} (h : value? c = some n) : n < 64 ∧ letter n = c := by
  have hA : 'A'.toNat = 65 := rfl
  have hZ : 'Z'.toNat = 90 := rfl
  have ha : 'a'.toNat = 97 := rfl
  have hz : 'z'.toNat = 122 := rfl
  have h0 : '0'.toNat = 48 := rfl
  have h9 : '9'.toNat = 57 := rfl
  have hle (x y : Char) : x ≤ y ↔ x.toNat ≤ y.toNat := UInt32.le_iff_toNat_le
  simp only [value?, hle, hA, hZ, ha, hz, h0, h9] at h
  split at h
  · obtain rfl := Option.some.inj h
    refine ⟨by omega, ?_⟩
    rw [letter, if_pos (by omega), hA, Nat.add_sub_cancel' (by omega), Char.ofNat_toNat]
  split at h
  · obtain rfl := Option.some.inj h
    refine ⟨by omega, ?_⟩
    rw [letter, if_neg (by omega), if_pos (by omega), ha, Nat.add_sub_cancel,
      Nat.add_sub_cancel' (by omega), Char.ofNat_toNat]
  split at h
  · obtain rfl := Option.some.inj h
    refine ⟨by omega, ?_⟩
    rw [letter, if_neg (by omega), if_neg (by omega), if_pos (by omega), h0, Nat.add_sub_cancel,
      Nat.add_sub_cancel' (by omega), Char.ofNat_toNat]
  split at h
  · next hc =>
    obtain rfl := Option.some.inj h
    exact ⟨by decide, hc.symm⟩
  split at h
  · next hc =>
    obtain rfl := Option.some.inj h
    exact ⟨by decide, hc.symm⟩
  · cases h

private theorem toNat_ofNat {n : ℕ} (h : n < 256) : (UInt8.ofNat n).toNat = n :=
  UInt8.toNat_ofNat_of_lt' h

/-! Four letters of six bits each make three bytes. The letters are found again in the bytes. -/

private theorem first_letter (m : ℕ) {n : ℕ} (hn : n < 64) : (m * 4 + n / 16) / 4 = m := by
  omega

private theorem second_letter (m : ℕ) {n k : ℕ} (hn : n < 64) (hk : k < 64) :
    (m * 4 + n / 16) % 4 * 16 + (n % 16 * 16 + k / 4) / 16 = n := by
  omega

private theorem third_letter (n : ℕ) {k l : ℕ} (hk : k < 64) (hl : l < 64) :
    (n % 16 * 16 + k / 4) % 16 * 4 + (k % 4 * 64 + l) / 64 = k := by
  omega

private theorem fourth_letter (k : ℕ) {l : ℕ} (hl : l < 64) : (k % 4 * 64 + l) % 64 = l := by
  omega

/-- Letters that are read are the letters of what was read. -/
theorem letters_of_bytes? {cs : List Char} {bytes : Bytes} (h : bytes? cs = some bytes) :
    letters bytes = cs := by
  -- over the groups of four letters, the last of which may be padded
  induction cs using bytes?.induct generalizing bytes with
  | case1 =>
    obtain rfl := Option.some.inj h
    rfl
  | case2 p q =>
    simp only [bytes?, Option.bind_eq_bind, Option.bind_eq_some_iff] at h
    obtain ⟨m, hm, n, hn, h⟩ := h
    obtain ⟨hmlt, rfl⟩ := letter_of_value? hm
    obtain ⟨hnlt, rfl⟩ := letter_of_value? hn
    split at h
    · next hpadded =>
      obtain rfl := Option.some.inj h
      -- the bits that no byte takes are zero
      have hsecond : (m * 4 + n / 16) % 4 * 16 = n := by omega
      rw [letters, toNat_ofNat (by omega), first_letter m hnlt, hsecond]
    · cases h
  | case3 p q r hr =>
    simp only [bytes?, Option.bind_eq_bind, Option.bind_eq_some_iff] at h
    obtain ⟨m, hm, n, hn, k, hk, h⟩ := h
    obtain ⟨hmlt, rfl⟩ := letter_of_value? hm
    obtain ⟨hnlt, rfl⟩ := letter_of_value? hn
    obtain ⟨hklt, rfl⟩ := letter_of_value? hk
    split at h
    · next hpadded =>
      obtain rfl := Option.some.inj h
      have hthird : (n % 16 * 16 + k / 4) % 16 * 4 = k := by omega
      rw [letters, toNat_ofNat (by omega), toNat_ofNat (by omega), first_letter m hnlt,
        second_letter m hnlt hklt, hthird]
    · cases h
  | case4 p q r s rest h2 h3 ih =>
    rw [bytes?] at h
    · simp only [Option.bind_eq_bind, Option.bind_eq_some_iff] at h
      obtain ⟨m, hm, n, hn, k, hk, l, hl, more, hmore, h⟩ := h
      obtain ⟨hmlt, rfl⟩ := letter_of_value? hm
      obtain ⟨hnlt, rfl⟩ := letter_of_value? hn
      obtain ⟨hklt, rfl⟩ := letter_of_value? hk
      obtain ⟨hllt, rfl⟩ := letter_of_value? hl
      obtain rfl := Option.some.inj h
      rw [letters, toNat_ofNat (by omega), toNat_ofNat (by omega), toNat_ofNat (by omega),
        ih hmore, first_letter m hnlt, second_letter m hnlt hklt, third_letter n hklt hllt,
        fourth_letter k hllt]
    · exact h2
    · exact h3
  | case5 cs h1 h2 h3 h4 =>
    rw [bytes?] at h
    · cases h
    · exact h1
    · exact h2
    · exact h3
    · exact h4

/-- A text that is read is written back as it was. -/
theorem encode_of_decode? {text : String} {bytes : Bytes} (h : decode? text = some bytes) :
    encode bytes = text := by
  rw [encode, letters_of_bytes? h, String.ofList_toList]

/-! ## What is written is read -/

/-- A letter is read as the six bits that it was written for. -/
theorem value?_letter {n : ℕ} (h : n < 64) : value? (letter n) = some n := by
  have hall : ∀ n < 64, value? (letter n) = some n := by decide
  exact hall n h

/-- No six bits are written as padding. -/
theorem letter_ne_padding {n : ℕ} (h : n < 64) : letter n ≠ '=' := by
  intro heq
  have hread := value?_letter h
  rw [heq] at hread
  cases hread

/-- Letters of bytes are read as these bytes. -/
theorem bytes?_letters (bytes : Bytes) : bytes? (letters bytes) = some bytes := by
  induction bytes using letters.induct with
  | case1 => rfl
  | case2 a =>
    have ha : a.toNat < 256 := a.toNat_lt
    have hbyte : a.toNat / 4 * 4 + a.toNat % 4 * 16 / 16 = a.toNat := by omega
    have hpadded : a.toNat % 4 * 16 % 16 = 0 := by omega
    simp only [letters, bytes?, value?_letter (show a.toNat / 4 < 64 by omega),
      value?_letter (show a.toNat % 4 * 16 < 64 by omega), Option.bind_eq_bind, Option.bind_some,
      hbyte, if_pos hpadded, UInt8.ofNat_toNat]
  | case3 a b =>
    have ha : a.toNat < 256 := a.toNat_lt
    have hb : b.toNat < 256 := b.toNat_lt
    have hr : b.toNat % 16 * 4 < 64 := by omega
    have hfirst : a.toNat / 4 * 4 + (a.toNat % 4 * 16 + b.toNat / 16) / 16 = a.toNat := by omega
    have hsecond :
        (a.toNat % 4 * 16 + b.toNat / 16) % 16 * 16 + b.toNat % 16 * 4 / 4 = b.toNat := by omega
    have hpadded : b.toNat % 16 * 4 % 4 = 0 := by omega
    rw [letters, bytes?]
    · simp only [value?_letter (show a.toNat / 4 < 64 by omega),
        value?_letter (show a.toNat % 4 * 16 + b.toNat / 16 < 64 by omega), value?_letter hr,
        Option.bind_eq_bind, Option.bind_some, hfirst, hsecond, if_pos hpadded, UInt8.ofNat_toNat]
    · exact letter_ne_padding hr
  | case4 a b c rest ih =>
    have ha : a.toNat < 256 := a.toNat_lt
    have hb : b.toNat < 256 := b.toNat_lt
    have hc : c.toNat < 256 := c.toNat_lt
    have hs : c.toNat % 64 < 64 := by omega
    have hfirst : a.toNat / 4 * 4 + (a.toNat % 4 * 16 + b.toNat / 16) / 16 = a.toNat := by omega
    have hsecond : (a.toNat % 4 * 16 + b.toNat / 16) % 16 * 16 +
        (b.toNat % 16 * 4 + c.toNat / 64) / 4 = b.toNat := by omega
    have hthird : (b.toNat % 16 * 4 + c.toNat / 64) % 4 * 64 + c.toNat % 64 = c.toNat := by omega
    rw [letters, bytes?]
    · simp only [value?_letter (show a.toNat / 4 < 64 by omega),
        value?_letter (show a.toNat % 4 * 16 + b.toNat / 16 < 64 by omega),
        value?_letter (show b.toNat % 16 * 4 + c.toNat / 64 < 64 by omega), value?_letter hs, ih,
        Option.bind_eq_bind, Option.bind_some, hfirst, hsecond, hthird, UInt8.ofNat_toNat]
      rfl
    · -- no group before the last one is read as padded
      intro _ hpadding
      exact absurd hpadding (letter_ne_padding hs)
    · intro hpadding
      exact absurd hpadding (letter_ne_padding hs)

/-- Reading takes exactly what writing makes. -/
theorem decode?_eq_some_iff {text : String} {bytes : Bytes} :
    decode? text = some bytes ↔ encode bytes = text := by
  constructor
  · exact encode_of_decode?
  · rintro rfl
    rw [decode?, encode, String.toList_ofList, bytes?_letters]

end TableClient.Base64
