import TableClient.Payload.Kind
import TableClient.Proofs.Wire.RoundTrip

/-!
# The documents of requests are read back

Every kind of request is a lawful record, and so is every part of requests that has fields of its
own. For each record this takes one look at the names of its fields; all else follows from the types
of the fields.
-/

namespace TableClient

/-! ## Parts of requests -/

instance : LawfulRecord KeySchemaElement :=
  .of_record (by unfold KeySchemaElement.record; infer_instance) (by decide) (by decide)

instance : LawfulRecord AttributeDefinition :=
  .of_record (by unfold AttributeDefinition.record; infer_instance) (by decide) (by decide)

instance : LawfulRecord ProvisionedThroughput :=
  .of_record (by unfold ProvisionedThroughput.record; infer_instance) (by decide) (by decide)

instance : LawfulRecord Projection :=
  .of_record (by unfold Projection.record; infer_instance) (by decide) (by decide)

instance : LawfulRecord GlobalSecondaryIndex :=
  .of_record (by unfold GlobalSecondaryIndex.record; infer_instance) (by decide) (by decide)

instance : LawfulRecord LocalSecondaryIndex :=
  .of_record (by unfold LocalSecondaryIndex.record; infer_instance) (by decide) (by decide)

instance : LawfulRecord StreamSpecification :=
  .of_record (by unfold StreamSpecification.record; infer_instance) (by decide) (by decide)

instance : LawfulRecord IndexCapacityUpdate :=
  .of_record (by unfold IndexCapacityUpdate.record; infer_instance) (by decide) (by decide)

instance : LawfulRecord IndexUpdate :=
  .of_record (by unfold IndexUpdate.record; infer_instance) (by decide) (by decide)

instance : LawfulRecord KeysAndAttributes :=
  .of_record (by unfold KeysAndAttributes.record; infer_instance) (by decide) (by decide)

/-- The keys are written even if there are none. -/
instance : NonemptyWire KeysAndAttributes where
  write_ne x hempty := by
    have hkeys : KeysAndAttributes.record.written x "Keys" = some (Wire.write x.keys) := by
      simp [KeysAndAttributes.record]
    rw [← Record.field?_write] at hkeys
    rw [show KeysAndAttributes.record.wire.write x = .object [] from hempty] at hkeys
    cases hkeys

instance : LawfulRecord PutRequest :=
  .of_record (by unfold PutRequest.record; infer_instance) (by decide) (by decide)

instance : LawfulRecord DeleteRequest :=
  .of_record (by unfold DeleteRequest.record; infer_instance) (by decide) (by decide)

instance : LawfulRecord WriteRequest :=
  .of_record (by unfold WriteRequest.record; infer_instance) (by decide) (by decide)

/-! ## Requests -/

instance : LawfulRecord CreateTableInput :=
  .of_record (by unfold CreateTableInput.record; infer_instance) (by decide) (by decide)

instance : LawfulRecord DeleteTableInput :=
  .of_record (by unfold DeleteTableInput.record; infer_instance) (by decide) (by decide)

instance : LawfulRecord DescribeTableInput :=
  .of_record (by unfold DescribeTableInput.record; infer_instance) (by decide) (by decide)

instance : LawfulRecord UpdateTableInput :=
  .of_record (by unfold UpdateTableInput.record; infer_instance) (by decide) (by decide)

instance : LawfulRecord PutItemInput :=
  .of_record (by unfold PutItemInput.record; infer_instance) (by decide) (by decide)

instance : LawfulRecord GetItemInput :=
  .of_record (by unfold GetItemInput.record; infer_instance) (by decide) (by decide)

instance : LawfulRecord UpdateItemInput :=
  .of_record (by unfold UpdateItemInput.record; infer_instance) (by decide) (by decide)

instance : LawfulRecord DeleteItemInput :=
  .of_record (by unfold DeleteItemInput.record; infer_instance) (by decide) (by decide)

instance : LawfulRecord QueryInput :=
  .of_record (by unfold QueryInput.record; infer_instance) (by decide) (by decide)

instance : LawfulRecord ScanInput :=
  .of_record (by unfold ScanInput.record; infer_instance) (by decide) (by decide)

instance : LawfulRecord BatchGetItemInput :=
  .of_record (by unfold BatchGetItemInput.record; infer_instance) (by decide) (by decide)

instance : LawfulRecord BatchWriteItemInput :=
  .of_record (by unfold BatchWriteItemInput.record; infer_instance) (by decide) (by decide)

namespace DocumentKind

/-- The parts of requests that have fields of their own. -/
def requestParts : List DocumentKind := [
  ⟨"KeySchemaElement", KeySchemaElement⟩,
  ⟨"AttributeDefinition", AttributeDefinition⟩,
  ⟨"ProvisionedThroughput", ProvisionedThroughput⟩,
  ⟨"Projection", Projection⟩,
  ⟨"GlobalSecondaryIndex", GlobalSecondaryIndex⟩,
  ⟨"LocalSecondaryIndex", LocalSecondaryIndex⟩,
  ⟨"StreamSpecification", StreamSpecification⟩,
  ⟨"UpdateGlobalSecondaryIndexAction", IndexCapacityUpdate⟩,
  ⟨"GlobalSecondaryIndexUpdate", IndexUpdate⟩,
  ⟨"KeysAndAttributes", KeysAndAttributes⟩,
  ⟨"PutRequest", PutRequest⟩,
  ⟨"DeleteRequest", DeleteRequest⟩,
  ⟨"WriteRequest", WriteRequest⟩]

/-- The documents of the kind are those of a lawful type of records. -/
def Lawful (k : DocumentKind) : Prop :=
  @LawfulRecord k.Carrier k.wire

theorem lawful_of_mem {k : DocumentKind} (h : k ∈ inputs ++ requestParts) : k.Lawful := by
  have hall : List.Forall Lawful (inputs ++ requestParts) := by
    simp only [inputs, requestParts, List.cons_append, List.nil_append, List.Forall]
    and_intros
    all_goals
      unfold Lawful
      infer_instance
  exact List.forall_iff_forall_mem.mp hall k h

end DocumentKind

/-- **Documents of requests.** A request, or a part of one, is read back from the document that it
is written as. At no depth is there null in the document, which an absent option could be written
as, or an empty map of placeholders or empty start key; and of the lists and maps of the request
itself that may be left out none is there that is empty. -/
theorem request_documents_read_back {k : DocumentKind}
    (hk : k ∈ DocumentKind.inputs ++ DocumentKind.requestParts) (x : k.Carrier) :
    k.wire.read (k.wire.write x) = .ok x ∧ (k.wire.write x).Tidy ∧
      ∀ name ∈ Json.leftOutWhenEmpty, ∀ document,
        Json.field? (k.wire.write x) name = some document → ¬ document.IsEmpty := by
  let _ := k.wire
  have hlawful : LawfulRecord k.Carrier := DocumentKind.lawful_of_mem hk
  exact ⟨LawfulWire.read_write x, LawfulWire.tidy_write x,
    fun name hname document ↦ LawfulRecord.not_isEmpty_of_field? hname⟩

/-- A read of one item of one table, with nothing else asked for. -/
theorem batch_get_document_read_back :
    let k : DocumentKind := ⟨"BatchGetItemInput", BatchGetItemInput⟩
    let x : BatchGetItemInput := ⟨[("things", { keys := [[("id", .string "a")]] })], none⟩
    let key : Json := .object [("id", .object [("S", .string "a")])]
    let document : Json :=
      .object [("RequestItems", .object [("things", .object [("Keys", .array [key])])])]
    k ∈ DocumentKind.inputs ++ DocumentKind.requestParts ∧ k.wire.write x = document ∧
      k.wire.read document = .ok x ∧ document.Tidy := by
  intro k x key document
  have hmem : k ∈ DocumentKind.inputs ++ DocumentKind.requestParts := by
    simp [DocumentKind.inputs, k]
  have hwrite : k.wire.write x = document := rfl
  obtain ⟨hread, htidy, -⟩ := request_documents_read_back hmem x
  rw [hwrite] at hread htidy
  exact ⟨hmem, hwrite, hread, htidy⟩

end TableClient
