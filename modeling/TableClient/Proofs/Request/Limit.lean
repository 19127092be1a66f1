import TableClient.Proofs.Except
import TableClient.Request.Scan

/-!
# The limit of a request for a page

A limit is a word of 32 bits that is sent as a signed one, so the upper half of the limits cannot be
sent (`Request.Sendable`). All else that a request for a page of a scan is checked for depends
neither on its limit nor on where it starts (`Request.scan_eq_bind`).
-/

namespace TableClient.Request

variable {table : TableDescriptor} {config : ClientConfig} {o : ScanOptions}

/-- The limit, if there is one, fits a signed word of 32 bits. -/
def Sendable (limit : Option UInt32) : Prop :=
  ∀ n, limit = some n → 2 * n.toNat < UInt32.size

theorem sendable_some_iff {n : UInt32} : Sendable (some n) ↔ 2 * n.toNat < UInt32.size := by
  simp [Sendable]

theorem exists_wireLimit_iff {limit : Option UInt32} :
    (∃ sent, wireLimit limit = .ok sent) ↔ Sendable limit := by
  cases limit with
  | none => exact iff_of_true ⟨none, rfl⟩ fun n h ↦ nomatch h
  | some n =>
    rw [sendable_some_iff, wireLimit]
    split
    · next hsmall => exact iff_of_true ⟨_, rfl⟩ hsmall
    · next hlarge => exact iff_of_false (fun ⟨sent, h⟩ ↦ nomatch h) hlarge

theorem wireLimit_eq_error_iff {limit : Option UInt32} {e : ClientError} :
    wireLimit limit = .error e ↔
      ∃ n, limit = some n ∧ ¬ Sendable limit ∧ e = .validation (.limitTooLarge n) := by
  cases limit with
  | none => exact iff_of_false (fun h ↦ nomatch h) fun ⟨n, h, _⟩ ↦ nomatch h
  | some n =>
    simp only [sendable_some_iff, wireLimit, Option.some.injEq, exists_eq_left']
    split
    · next hsmall => exact iff_of_false (fun h ↦ nomatch h) fun ⟨hlarge, _⟩ ↦ hlarge hsmall
    · next hlarge => rw [Except.error.injEq, and_iff_right hlarge, eq_comm]

/-- The request without its limit and its start, checked before they are. -/
def opening (table : TableDescriptor) (config : ClientConfig) (o : ScanOptions) :
    Checked ScanInput :=
  scan table config { o with limit := none, exclusiveStartKey := none }

theorem scan_eq_bind (table : TableDescriptor) (config : ClientConfig) (o : ScanOptions) :
    scan table config o = opening table config o >>= fun i ↦ (wireLimit o.limit).map fun limit ↦
      { i with limit, exclusiveStartKey := o.exclusiveStartKey.getD [] } := by
  simp only [opening, scan, bind_assoc, pure_bind]
  rfl

/-- How much of the capacity account is asked for is not checked either. -/
theorem exists_opening_capacity_iff (level : Option ReturnConsumedCapacity) :
    (∃ i, opening table config { o with returnConsumedCapacity := level } = .ok i) ↔
      ∃ i, opening table config o = .ok i := by
  have hmap : opening table config { o with returnConsumedCapacity := level } =
      opening table config o >>= fun i ↦
        pure { i with returnConsumedCapacity := capacityLevel config level } := by
    simp only [opening, scan, bind_assoc, pure_bind]
  rw [hmap]
  simp only [Except.bind_eq_ok_iff, Except.pure_eq_ok_iff]
  constructor
  · rintro ⟨-, i, hi, -⟩
    exact ⟨i, hi⟩
  · rintro ⟨i, hi⟩
    exact ⟨_, i, hi, rfl⟩

/-- A request for a page is built if its opening is and its limit can be sent. -/
theorem exists_scan_iff : (∃ i, scan table config o = .ok i) ↔
    (∃ i, opening table config o = .ok i) ∧ Sendable o.limit := by
  rw [scan_eq_bind]
  simp only [Except.bind_eq_ok_iff, Except.map_eq_ok_iff, ← exists_wireLimit_iff]
  constructor
  · rintro ⟨-, i, hi, sent, hsent, -⟩
    exact ⟨⟨i, hi⟩, sent, hsent⟩
  · rintro ⟨⟨i, hi⟩, sent, hsent⟩
    exact ⟨_, i, hi, sent, hsent, rfl⟩

/-- Otherwise its limit is why it is not. -/
theorem scan_eq_error_iff {i : ScanInput} (hopening : opening table config o = .ok i)
    {e : ClientError} : scan table config o = .error e ↔
      ∃ n, o.limit = some n ∧ ¬ Sendable o.limit ∧ e = .validation (.limitTooLarge n) := by
  rw [← wireLimit_eq_error_iff, scan_eq_bind, hopening]
  cases wireLimit o.limit with
  | error e' =>
    rw [Except.error.injEq]
    exact iff_of_eq (Except.error.injEq ..)
  | ok sent => exact iff_of_false (fun h ↦ nomatch h) fun h ↦ nomatch h

end TableClient.Request
