import TableClient.Proofs.Request.PrimaryKey
import TableClient.Request.Batch

/-!
# The key attributes of written items

A put checks the values of its key and then lays the given attributes over them, so of what is sent
everything is checked but the key attributes among the attributes. A batch of writes checks each
item as it is sent. The two agree on an item exactly if the attributes leave the key alone or give
it values of its declared types.
-/

namespace TableClient

/-! ## Items of a put -/

namespace Request

variable {table : TableDescriptor} {config : ClientConfig} {hash : AttributeValue}
  {range : Option AttributeValue} {attributes : Item}

theorem item_of_putItem {o : WriteOptions} {input : PutItemInput}
    (h : putItem table config hash range attributes o = .ok input) :
    ∃ key, table.buildKey hash range = .ok key ∧ input.item = Dict.merge key attributes := by
  simp only [putItem, Except.bind_eq_ok_iff] at h
  obtain ⟨key, hkey, _, -, _, -, h⟩ := h
  obtain rfl := Except.ok.inj h
  exact ⟨key, hkey, rfl⟩

/-- A batch of writes is built if there is something to write and all keys are as declared. -/
theorem exists_batchWrite_iff {puts : List Item} {deletes : List Key} {o : BatchWriteOptions} :
    (∃ requests, batchWrite table config puts deletes o = .ok requests) ↔
      puts ++ deletes ≠ [] ∧ ∀ item ∈ puts ++ deletes, table.checkItemKeys item = .ok () := by
  have hempty : (puts.isEmpty && deletes.isEmpty) = false ↔ puts ++ deletes ≠ [] := by
    rw [← Bool.not_eq_true, Bool.and_eq_true, List.isEmpty_iff, List.isEmpty_iff, Ne,
      List.append_eq_nil_iff]
  simp only [batchWrite, Except.bind_eq_ok_iff, Except.forM_eq_ok_iff, Checked.refuseIf_eq_ok_iff,
    hempty]
  constructor
  · rintro ⟨requests, _, hnonempty, _, hchecked, -⟩
    exact ⟨hnonempty, hchecked⟩
  · rintro ⟨hnonempty, hchecked⟩
    exact ⟨_, (), hnonempty, (), hchecked, rfl⟩

/-- The attributes give no key attribute of the table a value of another type than the declared
one. Of several entries with a name the last one counts. -/
def KeepsKeyTypes (table : TableDescriptor) (attributes : Item) : Prop :=
  ∀ name ∈ table.keys.toList, ∀ value, (Dict.ofList attributes).get? name = some value →
    table.checkKeyType name value = .ok ()

/-- Attributes that are laid over a checked key leave it checked exactly if they keep its types. -/
theorem checkItemKeys_merge_iff {key : Key} (h : table.checkItemKeys key = .ok ()) :
    table.checkItemKeys (Dict.merge key attributes) = .ok () ↔ KeepsKeyTypes table attributes := by
  rw [TableDescriptor.checkItemKeys_eq_ok_iff] at h ⊢
  refine forall₂_congr fun name hname ↦ ?_
  obtain ⟨keyValue, hkey, hchecked⟩ := h name hname
  rw [Dict.get?_merge, hkey]
  cases (Dict.ofList attributes).get? name with
  | none => simp [hchecked]
  | some value => simp

end Request

/-- **Puts and batches.** An item of a put has all key attributes. They have the declared types, and
a batch of writes takes the item next to others that it takes, exactly if the attributes keep the
types of the key. -/
theorem put_item_passes_key_check_iff {table : TableDescriptor} {config : ClientConfig}
    {hash : AttributeValue} {range : Option AttributeValue} {attributes : Item} {o : WriteOptions}
    {input : PutItemInput}
    (h : Request.putItem table config hash range attributes o = .ok input) :
    (∀ name ∈ table.keys.toList, ∃ value, input.item.get? name = some value) ∧
    (table.checkItemKeys input.item = .ok () ↔ Request.KeepsKeyTypes table attributes) ∧
    ∀ (puts puts' : List Item) (deletes : List Key) (o' : BatchWriteOptions),
      (∃ requests, Request.batchWrite table config (puts ++ input.item :: puts') deletes o' =
        .ok requests) ↔ Request.KeepsKeyTypes table attributes ∧
          ∀ other ∈ puts ++ puts' ++ deletes, table.checkItemKeys other = .ok () := by
  obtain ⟨key, hkey, hitem⟩ := Request.item_of_putItem h
  have hchecked := TableDescriptor.checkItemKeys_of_buildKey hkey
  have hiff : table.checkItemKeys input.item = .ok () ↔
      Request.KeepsKeyTypes table attributes := by
    rw [hitem]
    exact Request.checkItemKeys_merge_iff hchecked
  refine ⟨fun name hname ↦ ?_, hiff, fun puts puts' deletes o' ↦ ?_⟩
  · obtain ⟨value, hvalue, -⟩ := TableDescriptor.checkItemKeys_eq_ok_iff.mp hchecked name hname
    rw [hitem, Dict.get?_merge, hvalue]
    exact ⟨_, Option.or_some⟩
  · have hmem (other : Item) : other ∈ puts ++ input.item :: puts' ++ deletes ↔
        other = input.item ∨ other ∈ puts ++ puts' ++ deletes := by
      simp [or_left_comm]
    rw [Request.exists_batchWrite_iff, ← hiff]
    constructor
    · rintro ⟨-, hall⟩
      exact ⟨hall _ ((hmem _).mpr (.inl rfl)), fun other h ↦ hall other ((hmem _).mpr (.inr h))⟩
    · rintro ⟨hitem, hothers⟩
      refine ⟨List.ne_nil_of_mem ((hmem _).mpr (.inl rfl)), fun other h ↦ ?_⟩
      obtain rfl | h := (hmem other).mp h
      · exact hitem
      · exact hothers other h

/-! ## Attributes that name the range key -/

private def titles : TableDescriptor :=
  ⟨"titles", ⟨"forum", some "subject"⟩, [("forum", .s), ("subject", .s)], []⟩

/-- A number in place of a text is put, and refused in a batch. -/
theorem put_item_with_number_for_text_key :
    let item : Item := [("forum", .string "f"), ("subject", .number "7")]
    (∃ input, Request.putItem titles {} (.string "f") (some (.string "a"))
        [("subject", .number "7")] {} = .ok input ∧ input.item = item) ∧
      titles.checkItemKeys item = .error (.validation (.keyType "subject" .s .n)) ∧
      Request.batchWrite titles {} [item] [] {} =
        .error (.validation (.keyType "subject" .s .n)) :=
  ⟨⟨_, rfl, rfl⟩, rfl, rfl⟩

/-- Another text in place of a text is put, and a batch takes it next to a key to delete. -/
theorem put_item_with_text_for_text_key :
    let item : Item := [("forum", .string "f"), ("subject", .string "b")]
    (∃ input, Request.putItem titles {} (.string "f") (some (.string "a"))
        [("subject", .string "b")] {} = .ok input ∧ input.item = item) ∧
      ∃ requests, Request.batchWrite titles {} [item]
        [[("forum", .string "f"), ("subject", .string "a")]] {} = .ok requests := by
  intro item
  have hput : Request.putItem titles {} (.string "f") (some (.string "a"))
      [("subject", .string "b")] {} = .ok
        { tableName := "titles", item, returnConsumedCapacity := some .total } := rfl
  refine ⟨⟨_, hput, rfl⟩, ?_⟩
  refine ((put_item_passes_key_check_iff hput).2.2 [] [] _ {}).mpr ⟨?_, ?_⟩
  · intro name hname value hvalue
    obtain rfl | rfl : name = "forum" ∨ name = "subject" := by
      simpa [titles, KeyNames.toList] using hname
    · cases hvalue
    · obtain rfl : .string "b" = value := Option.some.inj hvalue
      rfl
  · intro other hother
    obtain rfl := List.mem_singleton.mp hother
    rfl

end TableClient
