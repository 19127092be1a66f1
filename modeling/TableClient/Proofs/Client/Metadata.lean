import TableClient.Client.Connection
import TableClient.Proofs.Client.Ensures

/-!
# The metadata that a connection knows

An operation that needs the metadata of the table uses what the connection knows, or else describes
the table first (`Knows`). A description is kept only after it was checked (`Refreshes`): an answer
that does not tell the key of the table leaves the connection as it was.
-/

namespace TableClient

/-- The request of a call. -/
def Event.request? : Event → Option (Operation × Json)
  | .call _ op params _ => some (op, params)
  | .sleep _ _ => none

/-- What was answered to a call. -/
def Event.answer? : Event → Option (Except ServiceError Json)
  | .call _ _ _ answer => some answer
  | .sleep _ _ => none

namespace Connection

variable {σ : Type}

/-! ## Describing the table -/

/-- What the answer to a description of the table tells of it. -/
def described (answer : Except ServiceError Json) :
    Except ClientError (TableDescription × TableDescriptor) := do
  let output : DescribeTableOutput ← Client.received answer
  return (output.table, ← TableDescriptor.ofDescription output.table)

/-- The description of the table: what comes back, and the world after it. -/
def describing (env : Environment σ) (s : Session Connection σ) :
    Except ServiceError Json × World σ :=
  s.world.call env .describeTable (Wire.write (Request.describeTable s.own.tableName))

/-- The call that describes the table. -/
def describeCall (env : Environment σ) (s : Session Connection σ) : Event :=
  .call s.world.clock .describeTable (Wire.write (Request.describeTable s.own.tableName))
    (describing env s).1

/-- How the table is described: its metadata is kept if the answer has it. -/
inductive Refreshes (env : Environment σ) (before : Session Connection σ) :
    Except ClientError (TableDescription × TableDescriptor) → Session Connection σ → Prop
  | kept {d : TableDescription} {t : TableDescriptor}
      (hanswer : described (describing env before).1 = .ok (d, t)) :
      Refreshes env before (.ok (d, t))
        ⟨{ before.own with descriptor := some t }, (describing env before).2⟩
  | failed {e : ClientError} (hanswer : described (describing env before).1 = .error e) :
      Refreshes env before (.error e) ⟨before.own, (describing env before).2⟩

theorem described_eq_ok_iff {answer : Except ServiceError Json} {d : TableDescription}
    {t : TableDescriptor} : described answer = .ok (d, t) ↔
      ∃ output : DescribeTableOutput, Client.received answer = .ok output ∧
        TableDescriptor.ofDescription output.table = .ok t ∧ output.table = d := by
  simp only [described, Except.bind_eq_ok_iff, Except.pure_eq_ok_iff, Prod.mk.injEq]
  constructor
  · rintro ⟨output, hreceived, t', ht, hd, rfl⟩
    exact ⟨output, hreceived, ht, hd⟩
  · rintro ⟨output, hreceived, ht, hd⟩
    exact ⟨output, hreceived, t, ht, hd, rfl⟩

theorem described_of_error {answer : Except ServiceError Json} {e : ClientError}
    (h : (Client.received answer : Except ClientError DescribeTableOutput) = .error e ∨
      ∃ output : DescribeTableOutput, Client.received answer = .ok output ∧
        TableDescriptor.ofDescription output.table = .error e) :
    described answer = .error e := by
  refine Except.bind_eq_error_iff.mpr (h.imp_right fun ⟨output, hreceived, hdescriptor⟩ ↦ ?_)
  exact ⟨output, hreceived, Except.bind_eq_error_iff.mpr (.inl hdescriptor)⟩

theorem refresh_refreshes (env : Environment σ) (before : Session Connection σ) :
    (refresh env).Ensures before (Refreshes env before) := by
  rw [refresh, Client.ensures_own_bind_iff, Client.ensures_bind_iff, Client.ensures_send_iff,
    ← describing]
  split
  · next output hreceived =>
    rw [Client.ensures_bind_iff, Client.ensures_check_iff]
    split
    · next t hdescriptor =>
      exact .kept (described_eq_ok_iff.mpr ⟨output, hreceived, hdescriptor, rfl⟩)
    · next e hdescriptor =>
      exact .failed (described_of_error (.inr ⟨output, hreceived, hdescriptor⟩))
  · next e hreceived => exact .failed (described_of_error (.inl hreceived))

/-! ## Looking for the metadata -/

/-- How the metadata is looked for: the table is described only if nothing is known of it. -/
inductive Knows (env : Environment σ) (before : Session Connection σ) :
    Except ClientError TableDescriptor → Session Connection σ → Prop
  | known {t : TableDescriptor} (hknown : before.own.descriptor = some t) :
      Knows env before (.ok t) before
  | fetched {d : TableDescription} {t : TableDescriptor} {after : Session Connection σ}
      (hunknown : before.own.descriptor = none)
      (hrefresh : Refreshes env before (.ok (d, t)) after) :
      Knows env before (.ok t) after
  | failed {e : ClientError} {after : Session Connection σ}
      (hunknown : before.own.descriptor = none) (hrefresh : Refreshes env before (.error e) after) :
      Knows env before (.error e) after

theorem known_knows (env : Environment σ) (before : Session Connection σ) :
    (known env).Ensures before (Knows env before) := by
  rw [known, Client.ensures_own_bind_iff]
  split
  · next t hknown => exact .known hknown
  · next hunknown =>
    refine (refresh_refreshes env before).bind ?_ fun e after ↦ .failed hunknown
    rintro ⟨d, t⟩ after hrefresh
    exact .fetched hunknown hrefresh

/-- The calls that look for the metadata. -/
def lookup (env : Environment σ) (s : Session Connection σ) : List Event :=
  match s.own.descriptor with
  | some _ => []
  | none => [describeCall env s]

section Knows

variable {env : Environment σ} {before after : Session Connection σ}

theorem Refreshes.history {r : Except ClientError (TableDescription × TableDescriptor)}
    (h : Refreshes env before r after) :
    after.world.history = before.world.history ++ [describeCall env before] := by
  cases h with
  | kept | failed => rfl

theorem Knows.history {r : Except ClientError TableDescriptor} (h : Knows env before r after) :
    after.world.history = before.world.history ++ lookup env before := by
  rw [lookup]
  cases h with
  | known hknown =>
    rw [hknown]
    exact (List.append_nil _).symm
  | fetched hunknown hrefresh | failed hunknown hrefresh =>
    rw [hunknown]
    exact hrefresh.history

/-- The metadata that is found is known afterwards, and nothing else has changed. -/
theorem Knows.own {r : Except ClientError TableDescriptor} (h : Knows env before r after) :
    after.own = { before.own with descriptor := r.toOption } := by
  cases h with
  | known hknown =>
    rw [Except.toOption, ← hknown]
  | fetched hunknown hrefresh =>
    cases hrefresh
    rfl
  | failed hunknown hrefresh =>
    cases hrefresh
    rw [Except.toOption, ← hunknown]

theorem Knows.own_of_ok {t : TableDescriptor} (h : Knows env before (.ok t) after) :
    after.own = { before.own with descriptor := some t } :=
  h.own

theorem Knows.own_of_error {e : ClientError} (h : Knows env before (.error e) after) :
    before.own.descriptor = none ∧ after.own = before.own := by
  cases h with
  | failed hunknown hrefresh =>
    cases hrefresh
    exact ⟨hunknown, rfl⟩

/-- The metadata that are found: those that are known, or else what the answer to a description of
the table tells of it. -/
def metadata (env : Environment σ) (s : Session Connection σ) :
    Except ClientError TableDescriptor :=
  match s.own.descriptor with
  | some t => .ok t
  | none => (described (describing env s).1).map Prod.snd

theorem Knows.eq_metadata {r : Except ClientError TableDescriptor} (h : Knows env before r after) :
    r = metadata env before := by
  rw [metadata]
  cases h with
  | known hknown => rw [hknown]
  | fetched hunknown hrefresh =>
    rw [hunknown]
    cases hrefresh with
    | kept hanswer =>
      dsimp only
      rw [hanswer]
      rfl
  | failed hunknown hrefresh =>
    rw [hunknown]
    cases hrefresh with
    | failed hanswer =>
      dsimp only
      rw [hanswer]
      rfl

/-- The metadata that a call fetches, if it describes the table and the answer has it. -/
def fetched? : Event → Option TableDescriptor
  | .call _ .describeTable _ answer => (described answer).toOption.map Prod.snd
  | _ => none

/-- The metadata that was fetched last. -/
def lastFetched? (events : List Event) : Option TableDescriptor :=
  (events.filterMap fetched?).getLast?

theorem lastFetched?_of_ok {d : TableDescription} {t : TableDescriptor}
    (h : described (describing env before).1 = .ok (d, t)) :
    lastFetched? [describeCall env before] = some t := by
  simp [lastFetched?, describeCall, fetched?, h, Except.toOption]

theorem lastFetched?_of_error {e : ClientError}
    (h : described (describing env before).1 = .error e) :
    lastFetched? [describeCall env before] = none := by
  simp [lastFetched?, describeCall, fetched?, h, Except.toOption]

/-- Calls of other operations fetch no metadata. -/
theorem lastFetched?_append {looked sent : List Event}
    (h : ∀ request ∈ sent.filterMap Event.request?, request.1 ≠ .describeTable) :
    lastFetched? (looked ++ sent) = lastFetched? looked := by
  have hnone : sent.filterMap fetched? = [] := by
    refine List.filterMap_eq_nil_iff.mpr fun event hevent ↦ ?_
    match event with
    | .sleep _ _ => rfl
    | .call _ op params answer =>
      have hop : op ≠ .describeTable := h (op, params) (List.mem_filterMap.mpr ⟨_, hevent, rfl⟩)
      rw [fetched?]
      rintro _ _ answer' ⟨⟩
      exact hop rfl
  rw [lastFetched?, List.filterMap_append, hnone, List.append_nil, lastFetched?]

/-- The metadata that is known is what was fetched for it, or what was known before. -/
theorem Knows.fetched_of_ok {t : TableDescriptor} (h : Knows env before (.ok t) after) :
    (lastFetched? (lookup env before)).or before.own.descriptor = some t := by
  rw [lookup]
  cases h with
  | known hknown =>
    rw [hknown]
    rfl
  | fetched hunknown hrefresh =>
    rw [hunknown]
    cases hrefresh with
    | kept hanswer =>
      dsimp only
      rw [lastFetched?_of_ok hanswer, Option.or_none]

theorem Knows.fetched_of_error {e : ClientError} (h : Knows env before (.error e) after) :
    lastFetched? (lookup env before) = none := by
  rw [lookup]
  cases h with
  | failed hunknown hrefresh =>
    rw [hunknown]
    cases hrefresh with
    | failed hanswer => exact lastFetched?_of_error hanswer

end Knows

end Connection
end TableClient
