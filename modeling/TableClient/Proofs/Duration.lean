import Mathlib.Order.Lattice
import TableClient.Duration

/-!
# Durations in words

A duration is a number of nanoseconds, at most that of the longest one. What is kept of it are two
words, its whole seconds and the nanoseconds beyond them (`DurationWords`). A word may be too short
for a sum or a product. So the operations on durations stand here once more, in words: a result that
no word holds is replaced where that is provided for, and elsewhere the operation fails. It never
does, and it agrees with the operation on numbers (`words_times`, `words_shorter`).
-/

namespace TableClient

/-! ## The shorter of a multiple and a bound -/

namespace Duration

theorem nanos_shorter (d e : Duration) : (d.shorter e).nanos = min d.nanos e.nanos := by
  rw [shorter]
  split
  · next hle => exact (Nat.min_eq_left hle).symm
  · next hlt => exact (Nat.min_eq_right (Nat.le_of_not_le hlt)).symm

/-- That products are cut to the longest duration does not show below a bound. -/
theorem nanos_shorter_times (d e : Duration) (n : ℕ) :
    ((d.times n).shorter e).nanos = min (d.nanos * n) e.nanos := by
  rw [nanos_shorter, times, saturated, Nat.min_assoc,
    Nat.min_eq_right (Nat.le_sub_one_of_lt e.nanos_lt)]

end Duration

/-! ## Words -/

/-- The word of a number, if there is one. -/
def word? (n : ℕ) : Option UInt64 :=
  if h : n < UInt64.size then some (UInt64.ofNatLT n h) else none

theorem word?_eq_some_iff {n : ℕ} {w : UInt64} : word? n = some w ↔ w.toNat = n := by
  by_cases h : n < UInt64.size
  · rw [word?, dif_pos h, Option.some.injEq, ← UInt64.toNat_inj, UInt64.toNat_ofNatLT, eq_comm]
  · rw [word?, dif_neg h]
    exact iff_of_false (fun hw ↦ nomatch hw) fun hw ↦ h (hw ▸ w.toNat_lt_size)

theorem exists_word? {n : ℕ} (h : n < UInt64.size) : ∃ w, word? n = some w ∧ w.toNat = n :=
  ⟨UInt64.ofNatLT n h, dif_pos h, UInt64.toNat_ofNatLT⟩

/-- A duration in words: the whole seconds, and the nanoseconds beyond them. -/
@[ext]
structure DurationWords where
  seconds : UInt64
  nanos : UInt32
  nanos_lt : nanos.toNat < nanosPerSecond
deriving DecidableEq

/-- The words of a duration. -/
def Duration.words (d : Duration) : DurationWords where
  seconds := UInt64.ofNatLT (d.nanos / nanosPerSecond)
    (Nat.div_lt_of_lt_mul (Nat.mul_comm _ _ ▸ d.nanos_lt))
  nanos := UInt32.ofNatLT (d.nanos % nanosPerSecond)
    ((Nat.mod_lt _ (by decide)).trans (by decide))
  nanos_lt := Nat.mod_lt _ (by decide)

namespace DurationWords

variable {w v : DurationWords}

/-- The nanoseconds in all. -/
def total (w : DurationWords) : ℕ :=
  w.seconds.toNat * nanosPerSecond + w.nanos.toNat

theorem total_words (d : Duration) : d.words.total = d.nanos :=
  Nat.div_add_mod' d.nanos nanosPerSecond

theorem total_lt (w : DurationWords) : w.total < UInt64.size * nanosPerSecond := by
  have hseconds := w.seconds.toNat_lt_size
  have hnanos := w.nanos_lt
  simp only [total, nanosPerSecond] at hnanos ⊢
  omega

theorem eq_of_total_eq (h : w.total = v.total) : w = v := by
  have hw := w.nanos_lt
  have hv := v.nanos_lt
  simp only [total, nanosPerSecond] at h hw hv
  exact DurationWords.ext (UInt64.toNat_inj.mp (by omega)) (UInt32.toNat_inj.mp (by omega))

/-! ## Operations in words -/

/-- The longest duration. -/
def longest : DurationWords where
  seconds := UInt64.ofNat (UInt64.size - 1)
  nanos := UInt32.ofNat (nanosPerSecond - 1)
  nanos_lt := by decide

/-- The nanoseconds in a second. -/
def second : UInt64 := UInt64.ofNat nanosPerSecond

theorem toNat_div_second (nanos : UInt64) :
    (nanos / second).toNat = nanos.toNat / nanosPerSecond :=
  UInt64.toNat_div ..

theorem toNat_mod_second (nanos : UInt64) :
    (nanos % second).toUInt32.toNat = nanos.toNat % nanosPerSecond := by
  rw [UInt64.toNat_toUInt32, UInt64.toNat_mod]
  exact Nat.mod_eq_of_lt ((Nat.mod_lt _ (by decide)).trans (by decide))

/-- So many seconds and nanoseconds, if a word holds the seconds and those that the nanoseconds make
up. -/
def ofParts? (seconds nanos : UInt64) : Option DurationWords :=
  (word? (seconds.toNat + (nanos / second).toNat)).map fun seconds ↦
    { seconds
      nanos := (nanos % second).toUInt32
      nanos_lt := (toNat_mod_second nanos).trans_lt (Nat.mod_lt _ (by decide)) }

/-- A multiple. It is the longest duration if its seconds are too many for a word. Nothing is
provided for a product of the nanoseconds that is too large. -/
def times (w : DurationWords) (n : UInt32) : Option DurationWords := do
  let nanos ← word? (w.nanos.toNat * n.toNat)
  let multiple? := word? (w.seconds.toNat * n.toNat) >>= fun seconds ↦ ofParts? seconds nanos
  return multiple?.getD longest

/-- The shorter of two durations, by their seconds first. -/
def shorter (w v : DurationWords) : DurationWords :=
  if w.seconds < v.seconds ∨ w.seconds = v.seconds ∧ w.nanos ≤ v.nanos then w else v

theorem ofParts?_eq_some_iff {seconds nanos : UInt64} :
    ofParts? seconds nanos = some w ↔
      w.total = seconds.toNat * nanosPerSecond + nanos.toNat := by
  rw [ofParts?, Option.map_eq_some_iff]
  simp only [word?_eq_some_iff, toNat_div_second]
  constructor
  · rintro ⟨sum, hsum, rfl⟩
    rw [total, hsum, toNat_mod_second, Nat.add_mul, Nat.add_assoc, Nat.div_add_mod']
  · intro htotal
    have hnanos := w.nanos_lt
    have hrest := toNat_mod_second nanos
    simp only [total, nanosPerSecond] at htotal hnanos hrest ⊢
    refine ⟨w.seconds, by omega, DurationWords.ext rfl (UInt32.toNat_inj.mp ?_)⟩
    exact hrest.trans (by omega)

theorem word?_bind_ofParts?_eq_some_iff {seconds : ℕ} {nanos : UInt64} :
    (word? seconds >>= fun seconds ↦ ofParts? seconds nanos) = some w ↔
      w.total = seconds * nanosPerSecond + nanos.toNat := by
  rw [Option.bind_eq_bind, Option.bind_eq_some_iff]
  simp only [word?_eq_some_iff, ofParts?_eq_some_iff]
  constructor
  · rintro ⟨word, rfl, htotal⟩
    exact htotal
  · intro htotal
    have hle : seconds * nanosPerSecond ≤ w.total := htotal ▸ Nat.le_add_right _ _
    obtain ⟨word, -, rfl⟩ :=
      exists_word? (Nat.lt_of_mul_lt_mul_right (hle.trans_lt w.total_lt))
    exact ⟨word, rfl, htotal⟩

/-- What has a result exactly if words have so many nanoseconds in all, with the longest duration in
place of a missing result, is the nearest duration. -/
theorem getD_longest {o : Option DurationWords} {nanos : ℕ}
    (h : ∀ w, o = some w ↔ w.total = nanos) :
    o.getD longest = (Duration.saturated nanos).words := by
  by_cases hfits : nanos < UInt64.size * nanosPerSecond
  · have hsome : o = some (Duration.saturated nanos).words :=
      (h _).mpr ((total_words _).trans (Nat.min_eq_left (Nat.le_pred_of_lt hfits)))
    rw [hsome, Option.getD_some]
  · have hnone : o = none :=
      Option.eq_none_iff_forall_ne_some.mpr fun w hw ↦ hfits ((h w).mp hw ▸ w.total_lt)
    rw [hnone, Option.getD_none]
    refine eq_of_total_eq (Eq.trans ?_ (total_words _).symm)
    exact (Nat.min_eq_right ((Nat.pred_le _).trans (Nat.not_lt.mp hfits))).symm

theorem words_times (d : Duration) (n : UInt32) :
    d.words.times n = some (d.times n.toNat).words := by
  -- The nanoseconds are fewer than a second has, so 62 bits are enough for their product.
  have hfits : d.words.nanos.toNat * n.toNat < UInt64.size :=
    (Nat.mul_lt_mul'' d.words.nanos_lt n.toNat_lt_size).trans (by decide)
  obtain ⟨nanos, hword, hnanos⟩ := exists_word? hfits
  have htotal : d.words.seconds.toNat * n.toNat * nanosPerSecond + nanos.toNat =
      d.nanos * n.toNat := by
    rw [hnanos, Nat.mul_right_comm, ← Nat.add_mul]
    exact congrArg (· * n.toNat) (total_words d)
  rw [times, hword]
  refine congrArg some (getD_longest fun w ↦ ?_)
  rw [word?_bind_ofParts?_eq_some_iff, htotal]

theorem words_shorter (d e : Duration) : d.words.shorter e.words = (d.shorter e).words := by
  have hd := total_words d
  have he := total_words e
  have hd' := d.words.nanos_lt
  have he' := e.words.nanos_lt
  rw [shorter, Duration.shorter, apply_ite Duration.words]
  refine if_congr ?_ rfl rfl
  rw [UInt64.lt_iff_toNat_lt, ← UInt64.toNat_inj, UInt32.le_iff_toNat_le]
  simp only [total, nanosPerSecond] at hd he hd' he'
  omega

end DurationWords
end TableClient
