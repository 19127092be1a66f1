import Mathlib.Data.Int.Notation
import Mathlib.Data.Nat.Notation
import TableClient.Decimal.Literal

/-!
# Digits are read back

Natural numbers are read from numerals (`IsNumeral`), which may begin with zeros. The decimal digits
of a number are one of its numerals, and a range that has the number reads it from its text.
-/

namespace TableClient.Decimal

theorem isDigit_eq (c : Char) : isDigit c = c.isDigit := by
  simp [isDigit, Char.isDigit, Char.le_def, UInt32.le_iff_toNat_le]

/-- What the digits of a number are made of. -/
theorem isDigit_of_mem_toDigits {n : ℕ} {c : Char} (h : c ∈ Nat.toDigits 10 n) :
    isDigit c = true := by
  rw [isDigit_eq]
  exact Nat.isDigit_of_mem_toDigits (by decide) (by decide) h

theorem isDigit_of_mem_toString {n : ℕ} {c : Char} (h : c ∈ (toString n).toList) :
    isDigit c = true :=
  isDigit_of_mem_toDigits (n := n) (by simpa using h)

theorem ne_of_isDigit {c d : Char} (hc : isDigit c = true) (hd : isDigit d = false) : c ≠ d := by
  rintro rfl
  simp [hc] at hd

/-! ## Numerals -/

/-- One digit or more that denote the number. There may be zeros in front. -/
structure IsNumeral (ds : List Char) (n : ℕ) : Prop where
  ne_nil : ds ≠ []
  isDigit : ∀ d ∈ ds, d.isDigit = true
  value : Nat.ofDigitChars 10 ds 0 = n

namespace IsNumeral

variable {ds : List Char} {n : ℕ}

theorem toDigits (n : ℕ) : IsNumeral (Nat.toDigits 10 n) n where
  ne_nil := Nat.toDigits_ne_nil
  isDigit _ := Nat.isDigit_of_mem_toDigits (by decide) (by decide)
  value := Nat.ofDigitChars_ten_toDigits

theorem ne_of_mem (h : IsNumeral ds n) {d c : Char} (hd : d ∈ ds) (hc : c.isDigit = false) :
    d ≠ c := by
  rintro rfl
  exact Bool.false_ne_true (hc.symm.trans (h.isDigit d hd))

theorem head_ne (h : IsNumeral ds n) {c : Char} (hc : c.isDigit = false) (rest : List Char) :
    ds ≠ c :: rest := by
  rintro rfl
  exact h.ne_of_mem List.mem_cons_self hc rfl

end IsNumeral

theorem natural?_eq_some_iff {ds : List Char} {n : ℕ} : natural? ds = some n ↔ IsNumeral ds n := by
  rw [natural?, Option.ite_none_right_eq_some, List.all_eq_true]
  simp only [isDigit_eq, Option.some.injEq]
  constructor
  · rintro ⟨⟨hne, hdigits⟩, hvalue⟩
    exact ⟨hne, hdigits, hvalue⟩
  · rintro ⟨hne, hdigits, hvalue⟩
    exact ⟨⟨hne, hdigits⟩, hvalue⟩

theorem natural?_toDigits (n : ℕ) : natural? (Nat.toDigits 10 n) = some n :=
  natural?_eq_some_iff.mpr (.toDigits n)

/-- Numbers with the same decimal text are the same. -/
theorem toString_inj {m n : ℕ} (h : toString m = toString n) : m = n := by
  have hdigits : Nat.toDigits 10 m = Nat.toDigits 10 n := by
    simpa using congrArg String.toList h
  have hnumber := natural?_toDigits m
  rw [hdigits, natural?_toDigits] at hnumber
  exact (Option.some.inj hnumber).symm

namespace IntegerRange

/-- A number of the range is read back from its decimal text. -/
theorem ofText?_toString {r : IntegerRange} {n : ℕ} (h : r.has n = true) :
    r.ofText? (toString n) = some (n : ℤ) := by
  have htext : (toString n).toList = Nat.toDigits 10 n := by simp
  rcases hdigits : Nat.toDigits 10 n with _ | ⟨c, cs⟩
  · exact absurd hdigits Nat.toDigits_ne_nil
  have hc : isDigit c = true := isDigit_of_mem_toDigits (n := n) (by simp [hdigits])
  have hplus : c ≠ '+' := ne_of_isDigit hc rfl
  have hminus : c ≠ '-' := ne_of_isDigit hc rfl
  have hnat : natural? (c :: cs) = some n := hdigits ▸ natural?_toDigits n
  unfold ofText?
  rw [htext, hdigits]
  split
  · simp_all
  · simp_all
  · simp [hnat, h]

/-- An integer of the range is read back from its decimal text. A range with a negative number has
a negative least one, so it reads the sign. -/
theorem ofText?_toString_int {r : IntegerRange} {n : ℤ} (h : r.has n = true) :
    r.ofText? (toString n) = some n := by
  cases n with
  | ofNat n => exact ofText?_toString h
  | negSucc n =>
    have htext : (toString (Int.negSucc n)).toList = '-' :: Nat.toDigits 10 (n + 1) := by
      rw [show toString (Int.negSucc n) = "-" ++ Nat.repr (n + 1) from rfl]
      simp
    have hleast : r.least < 0 := by
      rw [has, Bool.and_eq_true, decide_eq_true_iff] at h
      omega
    rw [ofText?, htext]
    simp only [natural?_toDigits, if_pos hleast, Option.map_some]
    exact Option.filter_some_pos h

/-- A range without negative numbers reads numerals, with or without a plus sign. -/
theorem ofText?_unsigned_eq_some_iff {bits : ℕ} {text : String} {n : ℤ} :
    (unsigned bits).ofText? text = some n ↔ ∃ k : ℕ, n = k ∧ k < Nat.pow 2 bits ∧
      (IsNumeral text.toList k ∨ ∃ ds, text.toList = '+' :: ds ∧ IsNumeral ds k) := by
  have hhas (k : ℕ) : (unsigned bits).has k = true ↔ k < Nat.pow 2 bits := by
    rw [has, unsigned, Bool.and_eq_true, decide_eq_true_iff, decide_eq_true_iff]
    generalize Nat.pow 2 bits = bound
    dsimp only
    omega
  have hread (ds : List Char) : ((natural? ds).map Int.ofNat).filter (unsigned bits).has = some n ↔
      ∃ k : ℕ, n = k ∧ k < Nat.pow 2 bits ∧ IsNumeral ds k := by
    rw [Option.filter_eq_some_iff, Option.map_eq_some_iff]
    simp only [natural?_eq_some_iff]
    constructor
    · rintro ⟨⟨k, hk, rfl⟩, hrange⟩
      exact ⟨k, rfl, (hhas k).mp hrange, hk⟩
    · rintro ⟨k, rfl, hrange, hk⟩
      exact ⟨⟨k, hk, rfl⟩, (hhas k).mpr hrange⟩
  rw [ofText?]
  split
  · next ds htext =>
    rw [hread]
    refine exists_congr fun k ↦ and_congr_right fun _ ↦ and_congr_right fun _ ↦ ?_
    have hsign : ¬ IsNumeral text.toList k := fun hk ↦ hk.head_ne rfl ds htext
    rw [or_iff_right hsign, htext]
    simp
  · next ds htext =>
    rw [if_neg (show ¬ (unsigned bits).least < 0 from Int.lt_irrefl 0)]
    apply iff_of_false (by simp)
    rintro ⟨k, -, -, hk | ⟨ds', hplus, -⟩⟩
    · exact hk.head_ne rfl ds htext
    · simp [htext] at hplus
  · next hplus _ =>
    rw [hread]
    refine exists_congr fun k ↦ and_congr_right fun _ ↦ and_congr_right fun _ ↦ ?_
    rw [or_iff_left]
    rintro ⟨ds, htext, -⟩
    exact hplus ds htext

end IntegerRange
end TableClient.Decimal
