import Mathlib.Data.Int.Notation
import Mathlib.Data.List.TakeWhile
import TableClient.Http.Response
import TableClient.Proofs.Except

/-!
# What responses ask for

A response is an answer only if its body is not damaged (`ChecksumHolds`) and is a document
(`HasDocument`). It asks to be repeated if it is a failure whose document has one of three types
(`AsksRetry`). These are statements about the response as it came; the rest of the module is that
the client reads responses in this way.
-/

namespace TableClient

/-! ## Types of failures -/

namespace ErrorCode

/-- What stands behind the last `#` of a type, or the whole type if it has none. -/
def IsLastPart (type part : String) : Prop :=
  '#' ∉ part.toList ∧ (type = part ∨ ∃ before, type = before ++ "#" ++ part)

/-- The end of a list behind the last occurrence of an item. -/
theorem lastPart_eq_iff {α : Type} [DecidableEq α] {a : α} {items part : List α} :
    (items.reverse.takeWhile (· ≠ a)).reverse = part ↔
      a ∉ part ∧ (items = part ∨ ∃ before, items = before ++ a :: part) := by
  constructor
  · rintro rfl
    have hsplit := List.takeWhile_append_dropWhile (p := (· ≠ a)) (l := items.reverse)
    constructor
    · intro hmem
      have hne := List.mem_takeWhile_imp (List.mem_reverse.mp hmem)
      exact absurd rfl (of_decide_eq_true hne)
    · cases hrest : items.reverse.dropWhile (· ≠ a) with
      | nil =>
        rw [hrest, List.append_nil] at hsplit
        left
        rw [hsplit, List.reverse_reverse]
      | cons b rest =>
        have hb : b = a := by
          have hhead := List.head?_dropWhile_not (· ≠ a) items.reverse
          rw [hrest] at hhead
          simpa using hhead
        right
        refine ⟨rest.reverse, ?_⟩
        rw [hrest, hb] at hsplit
        have hitems := congrArg List.reverse hsplit
        rw [List.reverse_append, List.reverse_cons, List.reverse_reverse, List.append_assoc,
          List.singleton_append] at hitems
        exact hitems.symm
  · rintro ⟨hpart, rfl | ⟨before, rfl⟩⟩
    · have hall : items.reverse.takeWhile (· ≠ a) = items.reverse := by
        refine List.takeWhile_eq_self_iff.mpr fun b hb ↦ decide_eq_true ?_
        rintro rfl
        exact hpart (List.mem_reverse.mp hb)
      rw [hall, List.reverse_reverse]
    · have hall : ∀ b ∈ part.reverse, decide (b ≠ a) = true := by
        intro b hb
        refine decide_eq_true ?_
        rintro rfl
        exact hpart (List.mem_reverse.mp hb)
      rw [List.reverse_append, List.reverse_cons, List.append_assoc,
        List.takeWhile_append_of_pos hall]
      simp

theorem isLastPart_iff {type part : String} : IsLastPart type part ↔ typeName type = part := by
  have hpart : typeName type = part ↔
      (type.toList.reverse.takeWhile (· ≠ '#')).reverse = part.toList := by
    rw [typeName, ← String.toList_inj, String.toList_ofList]
  have hbefore : (∃ before, type.toList = before ++ '#' :: part.toList) ↔
      ∃ before, type = before ++ "#" ++ part := by
    constructor
    · rintro ⟨before, htype⟩
      refine ⟨String.ofList before, String.toList_inj.mp ?_⟩
      simp [htype]
    · rintro ⟨before, rfl⟩
      exact ⟨before.toList, by simp⟩
  rw [hpart, lastPart_eq_iff, hbefore, String.toList_inj, IsLastPart]

/-- The types that ask for a call to be repeated later. -/
def throttlingNames : List String :=
  ["ProvisionedThroughputExceededException", "RequestLimitExceeded", "ThrottlingException"]

theorem isThrottling_ofName_iff {name : String} :
    (ofName name).isThrottling = true ↔ name ∈ throttlingNames := by
  constructor
  · intro h
    cases hname : (Named.ofName? name : Option ErrorCode) with
    | none =>
      rw [ofName, hname] at h
      cases h
    | some code =>
      rw [ofName, hname, Option.getD_some] at h
      rw [← Named.name_of_ofName? hname]
      revert h
      cases code <;> decide
  · intro h
    simp only [throttlingNames, List.mem_cons, List.not_mem_nil, or_false] at h
    rcases h with rfl | rfl | rfl
    · rfl
    · rfl
    · rfl

end ErrorCode

namespace Http.Response

variable {r : Response}

/-! ## Bodies -/

/-- The checksum of the response, if there is one, is that of its body. -/
def ChecksumHolds (r : Response) : Prop :=
  ∀ text, r.checksum = some text →
    (Decimal.IntegerRange.unsigned 32).ofText? text = some ((Crc32.checksum r.body).toNat : ℤ)

/-- The document of the response: that of its body, or one without fields if there is no body. -/
def HasDocument (r : Response) (document : Json) : Prop :=
  (r.body = [] ∧ document = .object []) ∨
    r.body ≠ [] ∧ ∃ text, String.fromUTF8? ⟨r.body.toArray⟩ = some text ∧
      Json.ofText? text = some document

theorem verify_eq_ok_iff : r.verify = .ok () ↔ r.ChecksumHolds := by
  rw [verify, ChecksumHolds]
  cases r.checksum with
  | none => simp
  | some text =>
    cases hexpected : (Decimal.IntegerRange.unsigned 32).ofText? text with
    | none => simp [hexpected]
    | some expected =>
      by_cases hequal : expected = ((Crc32.checksum r.body).toNat : ℤ)
      · simp [hexpected, hequal]
      · simp [hexpected, hequal]

/-- A damaged response is a failure of the service, which does not ask for repetition. -/
theorem verify_of_error {e : ServiceError} (h : r.verify = .error e) :
    e.code = .internalServerError := by
  rw [verify] at h
  split at h
  · cases h
  · split at h
    · obtain rfl := Except.error.inj h
      rfl
    · dsimp only at h
      split at h
      · cases h
      · obtain rfl := Except.error.inj h
        rfl

theorem document?_eq_some_iff {document : Json} :
    document? r.body = some document ↔ r.HasDocument document := by
  rw [document?, HasDocument]
  by_cases hempty : r.body = []
  · simp [hempty, eq_comm]
  · simp [hempty, Option.bind_eq_some_iff]

/-! ## Answers -/

/-- The response asks for its call to be repeated: its body is undamaged, its status says that the
call failed, and its document has a type that ends in one of three names. -/
structure AsksRetry (r : Response) : Prop where
  checksum : r.ChecksumHolds
  status : ¬(200 ≤ r.status ∧ r.status < 300)
  type : ∃ document, r.HasDocument document ∧
    ∃ type, document.field? "__type" = some (.string type) ∧
      ∃ part, ErrorCode.IsLastPart type part ∧ part ∈ ErrorCode.throttlingNames

theorem isSuccess_iff {status : ℕ} : isSuccess status = true ↔ 200 ≤ status ∧ status < 300 := by
  simp [isSuccess]

/-- A response is an answer, or a failure of one of three kinds: its body is damaged, it is no
document, or the document describes a failure. -/
theorem answer_cases (r : Response) :
    (¬r.ChecksumHolds ∧ ∃ e, r.answer = .error e ∧ e.code = .internalServerError) ∨
    (r.ChecksumHolds ∧ (∀ document, ¬r.HasDocument document) ∧
      ∃ e, r.answer = .error e ∧ e.code = .serialization ∧ e.status = r.status) ∨
    ∃ document, r.ChecksumHolds ∧ r.HasDocument document ∧
      r.answer = if isSuccess r.status then .ok document
        else .error (failure r.status document) := by
  cases hverify : r.verify with
  | error e =>
    refine .inl ⟨fun hholds ↦ ?_, e, ?_, verify_of_error hverify⟩
    · cases hverify.symm.trans (verify_eq_ok_iff.mpr hholds)
    · rw [answer, hverify]
      rfl
  | ok =>
    have hholds := verify_eq_ok_iff.mp hverify
    cases hdocument : document? r.body with
    | none =>
      have hanswer : r.answer = .error
          ⟨.serialization, "invalid response body: not a JSON document", r.status⟩ := by
        rw [answer, hverify, hdocument]
        rfl
      refine .inr (.inl ⟨hholds, fun document h ↦ ?_, _, hanswer, rfl, rfl⟩)
      cases hdocument.symm.trans (document?_eq_some_iff.mpr h)
    | some document =>
      refine .inr (.inr ⟨document, hholds, document?_eq_some_iff.mp hdocument, ?_⟩)
      rw [answer, hverify, hdocument]
      rfl

theorem HasDocument.unique {document document' : Json} (h : r.HasDocument document)
    (h' : r.HasDocument document') : document = document' := by
  rw [← document?_eq_some_iff] at h h'
  exact Option.some.inj (h.symm.trans h')

theorem answer_eq_ok_iff {document : Json} : r.answer = .ok document ↔
    r.ChecksumHolds ∧ r.HasDocument document ∧ isSuccess r.status = true := by
  obtain ⟨hdamaged, e, hanswer, -⟩ | ⟨hholds, hunread, e, hanswer, -⟩ |
    ⟨document', hholds, hdocument, hanswer⟩ := answer_cases r
  · rw [hanswer]
    constructor
    · intro h
      cases h
    · rintro ⟨hholds, -⟩
      exact absurd hholds hdamaged
  · rw [hanswer]
    constructor
    · intro h
      cases h
    · rintro ⟨-, hdocument, -⟩
      exact absurd hdocument (hunread document)
  · rw [hanswer]
    constructor
    · intro h
      by_cases hsuccess : isSuccess r.status = true
      · rw [if_pos hsuccess] at h
        obtain rfl := Except.ok.inj h
        exact ⟨hholds, hdocument, hsuccess⟩
      · rw [if_neg hsuccess] at h
        cases h
    · rintro ⟨-, hdocument', hsuccess⟩
      rw [if_pos hsuccess, hdocument.unique hdocument']

theorem isThrottling_failure_iff {status : ℕ} {document : Json} :
    (failure status document).isThrottling = true ↔
      ∃ type, document.field? "__type" = some (.string type) ∧
        ∃ part, ErrorCode.IsLastPart type part ∧ part ∈ ErrorCode.throttlingNames := by
  have hcode : (failure status document).isThrottling =
      (((document.field? "__type").bind Json.string?).elim .unknown
        ErrorCode.ofType).isThrottling := rfl
  have htype : ∀ type, (document.field? "__type").bind Json.string? = some type ↔
      document.field? "__type" = some (.string type) := by
    intro type
    rw [Option.bind_eq_some_iff]
    constructor
    · rintro ⟨value, hfield, hvalue⟩
      cases value with
      | string text =>
        obtain rfl := Option.some.inj hvalue
        exact hfield
      | null | bool | number | array | object => cases hvalue
    · intro hfield
      exact ⟨_, hfield, rfl⟩
  simp only [← htype, ErrorCode.isLastPart_iff, exists_eq_left']
  rw [hcode]
  cases (document.field? "__type").bind Json.string? with
  | none =>
    constructor
    · intro h
      cases h
    · rintro ⟨type, h, -⟩
      cases h
  | some type =>
    rw [Option.elim_some, ErrorCode.ofType, ErrorCode.isThrottling_ofName_iff]
    constructor
    · intro h
      exact ⟨type, rfl, h⟩
    · rintro ⟨type', htype', h⟩
      obtain rfl := Option.some.inj htype'
      exact h

/-- A response asks to be repeated exactly if the client takes it for a throttled answer. -/
theorem asksRetry_iff : r.AsksRetry ↔ ∃ e, r.answer = .error e ∧ e.isThrottling = true := by
  obtain ⟨hdamaged, e, hanswer, hcode⟩ | ⟨hholds, hunread, e, hanswer, hcode, -⟩ |
    ⟨document, hholds, hdocument, hanswer⟩ := answer_cases r
  · constructor
    · intro h
      exact absurd h.checksum hdamaged
    · rintro ⟨e', he', hthrottling⟩
      obtain rfl := Except.error.inj (hanswer.symm.trans he')
      rw [ServiceError.isThrottling, hcode] at hthrottling
      cases hthrottling
  · constructor
    · rintro ⟨-, -, document, hdocument, -⟩
      exact absurd hdocument (hunread document)
    · rintro ⟨e', he', hthrottling⟩
      obtain rfl := Except.error.inj (hanswer.symm.trans he')
      rw [ServiceError.isThrottling, hcode] at hthrottling
      cases hthrottling
  · rw [hanswer]
    by_cases hsuccess : isSuccess r.status = true
    · rw [if_pos hsuccess]
      constructor
      · intro h
        exact absurd (isSuccess_iff.mp hsuccess) h.status
      · rintro ⟨e, he, -⟩
        cases he
    · rw [if_neg hsuccess]
      constructor
      · rintro ⟨-, -, document', hdocument', htype⟩
        obtain rfl := hdocument.unique hdocument'
        exact ⟨_, rfl, isThrottling_failure_iff.mpr htype⟩
      · rintro ⟨e, he, hthrottling⟩
        obtain rfl := Except.error.inj he
        exact ⟨hholds, fun h ↦ hsuccess (isSuccess_iff.mpr h), document, hdocument,
          isThrottling_failure_iff.mp hthrottling⟩

theorem exists_answer_of_damaged (h : ¬r.ChecksumHolds) : ∃ e, r.answer = .error e := by
  obtain ⟨-, e, hanswer, -⟩ | ⟨hholds, -⟩ | ⟨document, hholds, -⟩ := answer_cases r
  · exact ⟨e, hanswer⟩
  · exact absurd hholds h
  · exact absurd hholds h

/-- What is wrong with an undamaged response is reported with its status. -/
theorem status_of_answer (hholds : r.ChecksumHolds) {e : ServiceError} (h : r.answer = .error e) :
    e.status = r.status := by
  obtain ⟨hdamaged, -⟩ | ⟨-, -, e', hanswer, -, hstatus⟩ | ⟨document, -, -, hanswer⟩ :=
    answer_cases r
  · exact absurd hholds hdamaged
  · obtain rfl := Except.error.inj (hanswer.symm.trans h)
    exact hstatus
  · by_cases hsuccess : isSuccess r.status = true
    · rw [if_pos hsuccess] at hanswer
      cases hanswer.symm.trans h
    · rw [if_neg hsuccess] at hanswer
      obtain rfl := Except.error.inj (hanswer.symm.trans h)
      rfl

end Http.Response
end TableClient
