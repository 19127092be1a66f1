import TableClient.Payload.Output
import TableClient.Proofs.Wire.Record
import TableClient.Request.Scan

/-!
# The documents of a scan

An answer names the key after which the next page starts. Reading it and writing it into the next
request loses nothing, so the request has the key as it stands in the answer. All requests of one
scan agree on every other field but the limit.
-/

namespace TableClient

variable {document : Json}

/-- The document of a key where it is a field that is left out when empty. -/
def keyField (key : Key) : Option Json :=
  if key.isEmpty then none else some (Wire.write key)

/-! ## Answers -/

namespace ScanOutput

/-- The last evaluated key of an answer, if it has one. It is the fourth item of an answer that is
an array. -/
def keyDocument? : Json → Option Json
  | .object fields => Dict.get? fields "LastEvaluatedKey"
  | .array row => row[3]?
  | _ => none

/-- The key after which the page after an answer starts. An empty one counts as none. -/
def nextStart? (document : Json) : Option Json :=
  match keyDocument? document with
  | some (.object []) => none
  | found => found

theorem readsList_lastEvaluatedKey {page : ScanOutput} (h : Wire.read document = .ok page) :
    Record.ReadsList (keyDocument? document) page.lastEvaluatedKey := by
  cases document with
  | object fields =>
    have hfields := Record.ofFields_of_read h
    simp only [ScanOutput.record, Record.ofFields_seq_eq_ok_iff, Record.ofFields_map_eq_ok_iff]
      at hfields
    obtain ⟨_, capacity, ⟨_, key, ⟨_, scanned, ⟨_, count, ⟨items, -, rfl⟩, -, rfl⟩, -, rfl⟩, hkey,
      rfl⟩, -, rfl⟩ := hfields
    exact Record.ofFields_nonempty hkey
  | array row =>
    have hrow := Record.ofRow_of_read h
    simp only [ScanOutput.record, Record.ofRow_seq_eq_ok_iff, Record.ofRow_map_eq_ok_iff] at hrow
    obtain ⟨_, row₄, capacity, ⟨_, row₃, key, ⟨_, row₂, scanned, ⟨_, row₁, count,
      ⟨items, hitems, rfl⟩, hcount, rfl⟩, hscanned, rfl⟩, hkey, rfl⟩, -, rfl⟩ := hrow
    -- each of the three fields before the key takes one item
    have hthird : row.tail.tail.tail.head? = row[3]? := by
      rw [List.head?_eq_getElem?, List.getElem?_tail, List.getElem?_tail, List.getElem?_tail]
    rw [keyDocument?, ← hthird, ← Record.ofRow_field hitems, ← Record.ofRow_field hcount,
      ← Record.ofRow_field hscanned]
    exact Record.ofRow_nonempty hkey
  | null | bool | number | string => cases h

theorem nextStart?_of_read {page : ScanOutput} (h : Wire.read document = .ok page) :
    nextStart? document = keyField page.lastEvaluatedKey := by
  have hreads := readsList_lastEvaluatedKey h
  rw [nextStart?, keyField]
  cases hkey : keyDocument? document with
  | none =>
    rw [hkey] at hreads
    have hempty : page.lastEvaluatedKey = [] := hreads
    rw [hempty]
    rfl
  | some key =>
    rw [hkey] at hreads
    obtain rfl := AttributeValue.write_of_read_dict hreads
    cases page.lastEvaluatedKey with
    | nil => rfl
    | cons entry rest => rfl

end ScanOutput

/-! ## Requests -/

namespace ScanInput

variable (input : ScanInput)

theorem field?_exclusiveStartKey :
    (Wire.write input).field? "ExclusiveStartKey" = keyField input.exclusiveStartKey := by
  rw [Record.field?_write]
  simp [ScanInput.record, keyField]

theorem field?_limit : (Wire.write input).field? "Limit" = input.limit.map Wire.write := by
  rw [Record.field?_write]
  simp [ScanInput.record]

/-- The limit and the start of a page stand in fields of their own. -/
theorem field?_of_ne (limit : Option Int32) (key : Key) {name : String}
    (hkey : name ≠ "ExclusiveStartKey") (hlimit : name ≠ "Limit") :
    (Wire.write { input with limit, exclusiveStartKey := key }).field? name =
      (Wire.write input).field? name := by
  rw [Record.field?_write, Record.field?_write]
  simp [ScanInput.record, hkey.symm, hlimit.symm]

end ScanInput

/-- A request for a page from a start. In all fields but two it is a given request. -/
structure RequestsPage (request : Json) (start : Key) (limit : ℕ) (params : Json) : Prop where
  key : params.field? "ExclusiveStartKey" = keyField start
  limit : params.field? "Limit" = some (.integer limit)
  others : ∀ name, name ≠ "ExclusiveStartKey" → name ≠ "Limit" →
    params.field? name = request.field? name

namespace Request

variable {table : TableDescriptor} {config : ClientConfig} {o : ScanOptions} {opening : ScanInput}
  {limit : UInt32}

theorem scan_resume {start : Option Key} {input : ScanInput}
    (hopening : scan table config o = .ok opening)
    (hinput : scan table config
      { o with limit := some limit, exclusiveStartKey := start } = .ok input) :
    2 * limit.toNat < UInt32.size ∧
      input = { opening with
        limit := some (Int32.ofNat limit.toNat), exclusiveStartKey := start.getD [] } := by
  simp only [scan, Except.bind_eq_ok_iff] at hopening hinput
  obtain ⟨_, -, _, -, _, -, parts, hparts, _, -, filter, hfilter, texts, htexts, _, -, hopening⟩ :=
    hopening
  obtain ⟨_, -, _, -, _, -, parts', hparts', _, -, filter', hfilter', texts', htexts', limit',
    hlimit, hinput⟩ := hinput
  obtain rfl := Except.ok.inj (hparts.symm.trans hparts')
  obtain rfl := Except.ok.inj (hfilter.symm.trans hfilter')
  obtain rfl := Except.ok.inj (htexts.symm.trans htexts')
  obtain rfl := Except.pure_eq_ok_iff.mp hopening
  obtain rfl := Except.pure_eq_ok_iff.mp hinput
  rw [wireLimit] at hlimit
  split at hlimit
  · next hsmall =>
    obtain rfl := Except.ok.inj hlimit
    exact ⟨hsmall, rfl⟩
  · cases hlimit

/-- A request that was built once is built for each page, if the limit of the page can be sent. -/
theorem exists_scan_resume (hopening : scan table config o = .ok opening)
    (hsmall : 2 * limit.toNat < UInt32.size) (start : Option Key) :
    ∃ input, scan table config { o with limit := some limit, exclusiveStartKey := start } =
      .ok input := by
  simp only [scan, Except.bind_eq_ok_iff] at hopening ⊢
  obtain ⟨_, hindex, _, hfilters, _, hoperator, parts, hparts, _, hselect, filter, hfilter, texts,
    htexts, -⟩ := hopening
  exact ⟨_, _, hindex, _, hfilters, _, hoperator, parts, hparts, _, hselect, filter, hfilter, texts,
    htexts, _, if_pos hsmall, rfl⟩

/-- Otherwise the limit is why it is refused. -/
theorem eq_limitTooLarge_of_scan_resume (hopening : scan table config o = .ok opening)
    {start : Option Key} {e : ClientError}
    (h : scan table config { o with limit := some limit, exclusiveStartKey := start } = .error e) :
    e = .validation (.limitTooLarge limit) := by
  have hlarge : ¬2 * limit.toNat < UInt32.size := fun hsmall ↦ by
    obtain ⟨input, hinput⟩ := exists_scan_resume hopening hsmall start
    cases h.symm.trans hinput
  simp only [scan, Except.bind_eq_ok_iff] at hopening
  obtain ⟨_, hindex, _, hfilters, _, hoperator, parts, hparts, _, hselect, filter, hfilter, texts,
    htexts, -⟩ := hopening
  simp only [scan, Except.bind_eq_error_iff, hindex, hfilters, hoperator, hparts, hselect, hfilter,
    wireLimit, if_neg hlarge, reduceCtorEq, false_or, Except.ok.injEq, exists_eq_left', htexts,
    exists_const, false_and, or_false, true_and] at h
  exact (Except.error.inj h).symm

theorem requestsPage_of_scan {start : Option Key} {input : ScanInput}
    (hopening : scan table config o = .ok opening)
    (hinput : scan table config
      { o with limit := some limit, exclusiveStartKey := start } = .ok input) :
    RequestsPage (Wire.write opening) (start.getD []) limit.toNat (Wire.write input) := by
  obtain ⟨hsmall, rfl⟩ := scan_resume hopening hinput
  refine ⟨ScanInput.field?_exclusiveStartKey _, ?_, fun name hkey hlimit ↦ ?_⟩
  · rw [ScanInput.field?_limit]
    have hint : (Int32.ofNat limit.toNat).toInt = limit.toNat :=
      Int32.toInt_ofNat_of_lt (by rw [UInt32.size] at hsmall; omega)
    change some (Json.integer (Int32.ofNat limit.toNat).toInt) = _
    rw [hint]
  · exact ScanInput.field?_of_ne opening _ _ hkey hlimit

end Request
end TableClient
