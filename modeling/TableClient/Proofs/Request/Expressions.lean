import TableClient.Proofs.Except
import TableClient.Proofs.Expression.Discipline
import TableClient.Request.Batch
import TableClient.Request.Query
import TableClient.Request.Scan

/-!
# The expressions of requests

A request with expressions is built with one placeholder table for all of them, which starts empty.
The expressions are compiled in one order, and in this order their texts fit the dictionaries of the
request (`Disciplined`). Reads of items have no dictionary for literals; their projections have
none.
-/

namespace TableClient

/-! ## Steps of building a request -/

namespace Checked

theorem expressions_eq_ok_iff {α : Type} {interning : Interning α} {a : α} {t : PlaceholderTable} :
    expressions interning = .ok (a, t) ↔ interning.Yields {} a t := by
  rw [expressions, Interning.Yields, Interning.outcome]
  rcases interning.run.run {} with ⟨_ | b, u⟩ <;> simp

end Checked

namespace Request

variable {t t' : PlaceholderTable} {text : Option String}

theorem printed_of_optionalCondition {c : Option (Condition String AttributeValue)}
    (h : (optionalCondition c).Yields t text t') : Printed t t' text.toList := by
  cases c with
  | none =>
    obtain ⟨rfl, rfl⟩ := Interning.yields_pure_iff.mp h
    exact .refl t
  | some c =>
    obtain ⟨text, htext, rfl⟩ := Interning.yields_map_iff.mp h
    exact Condition.printed_of_compile htext

theorem printed_of_projection {attributesToGet : List String}
    (h : (projection attributesToGet).Yields t text t') : Printed t t' text.toList := by
  rw [projection] at h
  split at h
  · obtain ⟨rfl, rfl⟩ := Interning.yields_pure_iff.mp h
    exact .refl t
  · simp only [Interning.yields_bind_iff, Interning.yields_require_iff,
      Interning.yields_map_iff] at h
    obtain ⟨paths, _, ⟨-, rfl⟩, text, htext, rfl⟩ := h
    exact Path.printed_of_compileProjection htext

/-- Projections have no literals. -/
theorem values_of_projection {attributesToGet : List String}
    (h : (projection attributesToGet).Yields t text t') : t'.values = t.values := by
  rw [projection] at h
  split at h
  · obtain ⟨rfl, rfl⟩ := Interning.yields_pure_iff.mp h
    rfl
  · simp only [Interning.yields_bind_iff, Interning.yields_require_iff,
      Interning.yields_map_iff, Path.compileProjection, Interning.yields_pure_iff] at h
    obtain ⟨paths, _, ⟨-, rfl⟩, -, ⟨ns, t', hns, rfl, rfl⟩, rfl⟩ := h
    refine (Path.mapM_numbered_spec hns).1.values_eq ?_
    rw [List.filterMap_map, List.filterMap_eq_nil_iff]
    exact fun _ _ ↦ rfl

/-- The expression of a projection fits a request without literals. -/
theorem disciplined_of_projection {attributesToGet : List String}
    (h : (projection attributesToGet).Yields {} text t) :
    Disciplined text.toList t.attributeNames [] := by
  have hvalues : t.attributeValues = [] := by
    rw [PlaceholderTable.attributeValues, values_of_projection h]
    rfl
  have hdisciplined := (printed_of_projection h).disciplined
  rwa [hvalues] at hdisciplined

end Request

/-! ## The texts of a request -/

/-- The expressions of a read of an item. -/
def GetItemInput.expressions (i : GetItemInput) : List String :=
  i.projectionExpression.toList

/-- The expressions of a put. -/
def PutItemInput.expressions (i : PutItemInput) : List String :=
  i.conditionExpression.toList

/-- The expressions of an update, the condition first. -/
def UpdateItemInput.expressions (i : UpdateItemInput) : List String :=
  i.conditionExpression.toList ++ i.updateExpression.toList

/-- The expressions of a delete. -/
def DeleteItemInput.expressions (i : DeleteItemInput) : List String :=
  i.conditionExpression.toList

/-- The expressions of a query: the key condition, the filter and the projection. -/
def QueryInput.expressions (i : QueryInput) : List String :=
  i.keyConditionExpression.toList ++ i.filterExpression.toList ++ i.projectionExpression.toList

/-- The expressions of a scan: the filter and the projection. -/
def ScanInput.expressions (i : ScanInput) : List String :=
  i.filterExpression.toList ++ i.projectionExpression.toList

/-- The expressions of a read of several items of a table. -/
def KeysAndAttributes.expressions (k : KeysAndAttributes) : List String :=
  k.projectionExpression.toList

namespace Request

variable {table : TableDescriptor} {config : ClientConfig} {hash : AttributeValue}
  {range : Option AttributeValue}

theorem disciplined_getItem {o : ReadOptions} {i : GetItemInput}
    (h : getItem table hash range o = .ok i) :
    Disciplined i.expressions i.expressionAttributeNames [] := by
  simp only [getItem, Except.bind_eq_ok_iff, Prod.exists, Checked.expressions_eq_ok_iff] at h
  obtain ⟨key, -, text, t, hyields, h⟩ := h
  obtain rfl := Except.ok.inj h
  exact disciplined_of_projection hyields

theorem disciplined_putItem {attributes : Item} {o : WriteOptions} {i : PutItemInput}
    (h : putItem table config hash range attributes o = .ok i) :
    Disciplined i.expressions i.expressionAttributeNames i.expressionAttributeValues := by
  simp only [putItem, Except.bind_eq_ok_iff, Prod.exists, Checked.expressions_eq_ok_iff] at h
  obtain ⟨key, -, condition, -, text, t, hyields, h⟩ := h
  obtain rfl := Except.ok.inj h
  exact (printed_of_optionalCondition hyields).disciplined

theorem disciplined_updateItem {o : UpdateItemOptions} {i : UpdateItemInput}
    (h : updateItem table config hash range o = .ok i) :
    Disciplined i.expressions i.expressionAttributeNames i.expressionAttributeValues := by
  simp only [updateItem, Except.bind_eq_ok_iff, Prod.exists, Checked.expressions_eq_ok_iff,
    Interning.yields_bind_iff, Interning.yields_pure_iff] at h
  obtain ⟨key, -, actions, -, condition, -, text, update, t,
    ⟨_, u, hcondition, _, t', hupdate, heq, rfl⟩, h⟩ := h
  obtain ⟨rfl, rfl⟩ := Prod.mk.inj heq
  obtain rfl := Except.ok.inj h
  have hprinted := (printed_of_optionalCondition hcondition).append
    (UpdateAction.printed_of_compile hupdate)
  exact hprinted.disciplined

theorem disciplined_deleteItem {o : WriteOptions} {i : DeleteItemInput}
    (h : deleteItem table config hash range o = .ok i) :
    Disciplined i.expressions i.expressionAttributeNames i.expressionAttributeValues := by
  simp only [deleteItem, Except.bind_eq_ok_iff, Prod.exists, Checked.expressions_eq_ok_iff] at h
  obtain ⟨key, -, condition, -, text, t, hyields, h⟩ := h
  obtain rfl := Except.ok.inj h
  exact (printed_of_optionalCondition hyields).disciplined

theorem disciplined_query {o : QueryOptions} {i : QueryInput}
    (h : query table config hash o = .ok i) :
    Disciplined i.expressions i.expressionAttributeNames i.expressionAttributeValues := by
  simp only [query, Except.bind_eq_ok_iff, Prod.exists, Checked.expressions_eq_ok_iff,
    Interning.yields_bind_iff, Interning.yields_pure_iff] at h
  obtain ⟨keys, -, -, -, -, -, filter, -, sort, filter', -, -, -, key, filterText, projectionText,
    t, ⟨_, u, hkey, _, u', hfilter, _, t', hprojection, heq, rfl⟩, limit, -, h⟩ := h
  obtain ⟨rfl, htexts⟩ := Prod.mk.inj heq
  obtain ⟨rfl, rfl⟩ := Prod.mk.inj htexts
  obtain rfl := Except.ok.inj h
  have hprinted := ((Condition.printed_of_compileKey hkey).append
    (printed_of_optionalCondition hfilter)).append (printed_of_projection hprojection)
  exact hprinted.disciplined

theorem disciplined_scan {o : ScanOptions} {i : ScanInput}
    (h : scan table config o = .ok i) :
    Disciplined i.expressions i.expressionAttributeNames i.expressionAttributeValues := by
  simp only [scan, Except.bind_eq_ok_iff, Prod.exists, Checked.expressions_eq_ok_iff,
    Interning.yields_bind_iff, Interning.yields_pure_iff] at h
  obtain ⟨-, -, -, -, -, -, segment, total, -, -, -, filter, -, filterText, projectionText, t,
    ⟨_, u, hfilter, _, t', hprojection, heq, rfl⟩, limit, -, h⟩ := h
  obtain ⟨rfl, rfl⟩ := Prod.mk.inj heq
  obtain rfl := Except.ok.inj h
  have hprinted := (printed_of_optionalCondition hfilter).append
    (printed_of_projection hprojection)
  exact hprinted.disciplined

theorem disciplined_batchGet {keys : List Key} {o : ReadOptions} {is : List BatchGetItemInput}
    (h : batchGet table config keys o = .ok is) {i : BatchGetItemInput} (hi : i ∈ is)
    {name : String} {entry : KeysAndAttributes} (hentry : (name, entry) ∈ i.requestItems) :
    Disciplined entry.expressions entry.expressionAttributeNames [] := by
  simp only [batchGet, Except.bind_eq_ok_iff, Prod.exists, Checked.expressions_eq_ok_iff] at h
  obtain ⟨-, -, -, -, text, t, hyields, h⟩ := h
  obtain rfl := Except.ok.inj h
  obtain ⟨chunk, -, rfl⟩ := List.mem_map.mp hi
  obtain ⟨-, rfl⟩ := Prod.mk.inj (List.mem_singleton.mp hentry)
  exact disciplined_of_projection hyields

end Request

/-- **The placeholder discipline.** Whatever request is built, its expressions in the order of their
compilation fit its dictionaries. -/
theorem request_expressions_disciplined :
    (∀ table hash range o i, Request.getItem table hash range o = .ok i →
      Disciplined i.expressions i.expressionAttributeNames []) ∧
    (∀ table config hash range attributes o i,
      Request.putItem table config hash range attributes o = .ok i →
      Disciplined i.expressions i.expressionAttributeNames i.expressionAttributeValues) ∧
    (∀ table config hash range o i, Request.updateItem table config hash range o = .ok i →
      Disciplined i.expressions i.expressionAttributeNames i.expressionAttributeValues) ∧
    (∀ table config hash range o i, Request.deleteItem table config hash range o = .ok i →
      Disciplined i.expressions i.expressionAttributeNames i.expressionAttributeValues) ∧
    (∀ table config hash o i, Request.query table config hash o = .ok i →
      Disciplined i.expressions i.expressionAttributeNames i.expressionAttributeValues) ∧
    (∀ table config o i, Request.scan table config o = .ok i →
      Disciplined i.expressions i.expressionAttributeNames i.expressionAttributeValues) ∧
    (∀ table config keys o is, Request.batchGet table config keys o = .ok is →
      ∀ i ∈ is, ∀ name entry, (name, entry) ∈ i.requestItems →
        Disciplined entry.expressions entry.expressionAttributeNames []) :=
  ⟨fun _ _ _ _ _ ↦ Request.disciplined_getItem, fun _ _ _ _ _ _ _ ↦ Request.disciplined_putItem,
    fun _ _ _ _ _ _ ↦ Request.disciplined_updateItem,
    fun _ _ _ _ _ _ ↦ Request.disciplined_deleteItem, fun _ _ _ _ _ ↦ Request.disciplined_query,
    fun _ _ _ _ ↦ Request.disciplined_scan,
    fun _ _ _ _ _ h _ hi _ _ hentry ↦ Request.disciplined_batchGet h hi hentry⟩

/-- An update whose condition and actions share a name and whose clauses are given out of order; and
a query whose key condition, filter and projection are written from one table, in which the filter
has a name and a literal twice and the projection has the hash key once more. -/
theorem update_with_condition_disciplined :
    Request.updateItem ⟨"things", ⟨"id", none⟩, [], []⟩ {} (.string "a") none
        { condition := some (.logical .and
            (.compare (.reference ⟨"version", []⟩) .eq (.literal (.number "1")))
            (.function .attributeExists [.reference ⟨"next", []⟩]))
          actions := [.delete ⟨"tags", []⟩ (.stringSet ["old"]),
            .set ⟨"next", []⟩ (.plus (.operand (.reference ⟨"version", []⟩))
              (.operand (.literal (.number "1"))))] } =
      .ok {
        tableName := "things"
        key := [("id", .string "a")]
        conditionExpression := some "(#0 = :0 AND attribute_exists (#1))"
        updateExpression := some "SET #1 = #0 + :1 DELETE #2 :2"
        expressionAttributeNames := [("#0", "version"), ("#1", "next"), ("#2", "tags")]
        expressionAttributeValues :=
          [(":0", .number "1"), (":1", .number "1"), (":2", .stringSet ["old"])]
        returnConsumedCapacity := some .total } ∧
      Disciplined ["(#0 = :0 AND attribute_exists (#1))", "SET #1 = #0 + :1 DELETE #2 :2"]
        [("#0", "version"), ("#1", "next"), ("#2", "tags")]
        [(":0", .number "1"), (":1", .number "1"), (":2", .stringSet ["old"])] ∧
      Request.query ⟨"things", ⟨"id", some "at"⟩, [], []⟩ {} (.string "a")
        { rangeKeyCondition := some
            (.compare (.reference ⟨"at", []⟩) .lt (.literal (.number "9")))
          filterCondition := some (.logical .or
            (.compare (.reference ⟨"size", []⟩) .gt (.literal (.number "9")))
            (.function .attributeNotExists [.reference ⟨"size", []⟩]))
          attributesToGet := ["id", "size", "tags[0]"] } =
      .ok {
        tableName := "things"
        keyConditionExpression := some "(#0 = :0 AND #1 < :1)"
        filterExpression := some "(#2 > :2 OR attribute_not_exists (#2))"
        projectionExpression := some "#0, #2, #3[0]"
        expressionAttributeNames := [("#0", "id"), ("#1", "at"), ("#2", "size"), ("#3", "tags")]
        expressionAttributeValues := [(":0", .string "a"), (":1", .number "9"), (":2", .number "9")]
        returnConsumedCapacity := some .total } ∧
      Disciplined ["(#0 = :0 AND #1 < :1)", "(#2 > :2 OR attribute_not_exists (#2))",
          "#0, #2, #3[0]"]
        [("#0", "id"), ("#1", "at"), ("#2", "size"), ("#3", "tags")]
        [(":0", .string "a"), (":1", .number "9"), (":2", .number "9")] := by
  refine ⟨?updated, request_expressions_disciplined.2.2.1 _ _ _ _ _ _ ?updated, ?queried,
    request_expressions_disciplined.2.2.2.2.1 _ _ _ _ _ ?queried⟩
  case updated => rfl
  case queried =>
    have hpaths : ["id", "size", "tags[0]"].mapM Path.parse =
        .ok [⟨"id", []⟩, ⟨"size", []⟩, ⟨"tags", [.index 0]⟩] := by decide +kernel
    have hprojection : Request.projection ["id", "size", "tags[0]"] =
        some <$> Path.compileProjection [⟨"id", []⟩, ⟨"size", []⟩, ⟨"tags", [.index 0]⟩] := by
      rw [Request.projection, hpaths]
      rfl
    rw [Request.query, hprojection]
    rfl

end TableClient
