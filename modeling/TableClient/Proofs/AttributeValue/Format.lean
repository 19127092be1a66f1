import Mathlib.Data.Set.List
import TableClient.Proofs.AttributeValue.Wire
import TableClient.Proofs.Json.Ordered

/-!
# The format of attribute values

`Document` says which JSON documents are attribute values: objects with one field, whose name is a
tag and whose value is a payload of that type (`Payload`). It is stated on documents alone, without
the reader and the writer. Every value is written as such a document, and every such document is
what some value is written as; as reading undoes writing, the reader accepts exactly the format.

Nothing is asked of the order of the entries of a map: values and documents keep it. So a value is
well formed exactly if its document is in order, and from a text no other value is read.
-/

namespace TableClient

/-- The text is the one that some bytes are written as. -/
def Base64.Canonical (text : String) : Prop :=
  ∃ bytes, Base64.encode bytes = text

namespace AttributeValue

/-! ## The format -/

mutual

/-- The documents of attribute values. -/
inductive Document : Json → Prop
  | tagged (tag : TypeTag) {payload : Json} (h : Payload tag payload) :
      Document (.object [(tag.name, payload)])

/-- The payloads of a type. -/
inductive Payload : TypeTag → Json → Prop
  | string (text : String) : Payload .s (.string text)
  | number (literal : String) : Payload .n (.string literal)
  | binary {text : String} (h : Base64.Canonical text) : Payload .b (.string text)
  | stringSet (texts : List String) : Payload .ss (.array (texts.map .string))
  | numberSet (literals : List String) : Payload .ns (.array (literals.map .string))
  | binarySet {texts : List String} (h : ∀ text ∈ texts, Base64.Canonical text) :
      Payload .bs (.array (texts.map .string))
  | bool (value : Bool) : Payload .bool (.bool value)
  | null (marker : Bool) : Payload .null (.bool marker)
  | list {items : List Json} (h : ∀ item ∈ items, Document item) : Payload .l (.array items)
  | map {fields : List (String × Json)} (h : ∀ field ∈ fields, Document field.2) :
      Payload .m (.object fields)

end

/-! ## Reading undoes writing -/

private theorem texts?_map_string (texts : List String) :
    texts? (texts.map .string) = some texts := by
  induction texts with
  | nil => rfl
  | cons text texts ih =>
    rw [List.map_cons, texts?, ih]
    rfl

private theorem mapM_decode?_map_encode (members : List Bytes) :
    (members.map Base64.encode).mapM Base64.decode? = some members := by
  induction members with
  | nil => rfl
  | cons bytes members ih =>
    rw [List.map_cons, List.mapM_cons, Base64.decode?_eq_some_iff.mpr rfl, ih]
    rfl

/-- A document with one field is read as the payload in it. -/
private theorem ofJson_of_payload (tag : TypeTag) {payload : Json} {v : AttributeValue}
    (hdocument : v.toJson = .object [(tag.name, payload)]) (h : ofPayload tag payload = .ok v) :
    ofJson v.toJson = .ok v := by
  rw [hdocument, ofJson, Named.ofName?_name]
  dsimp only
  rw [h]
  rfl

/-- Payloads without values inside are read as such. -/
private theorem ofPayload_of_flat? {tag : TypeTag} {payload : Json} {v : AttributeValue}
    (h : flat? tag payload = some v) : ofPayload tag payload = .ok v := by
  cases payload with
  | null | bool | number | string => exact Except.elim_eq_ok_iff.mpr h
  | object => cases tag <;> cases h
  | array items =>
    -- a list is an array as well, but its items are values
    have htag : tag ≠ .l := by
      rintro rfl
      cases h
    rw [ofPayload, if_neg htag]
    exact Except.elim_eq_ok_iff.mpr h

mutual

/-- What is written is read as the value that was written. -/
theorem ofJson_toJson : ∀ v : AttributeValue, ofJson v.toJson = .ok v
  | .string x | .number x | .bool x | .null x => rfl
  | .binary x => by
    refine ofJson_of_payload .b rfl (ofPayload_of_flat? ?_)
    rw [flat?, Base64.decode?_eq_some_iff.mpr rfl]
    rfl
  | .stringSet x => by
    refine ofJson_of_payload .ss rfl (ofPayload_of_flat? ?_)
    rw [flat?, texts?_map_string]
    rfl
  | .numberSet x => by
    refine ofJson_of_payload .ns rfl (ofPayload_of_flat? ?_)
    rw [flat?, texts?_map_string]
    rfl
  | .binarySet x => by
    refine ofJson_of_payload .bs rfl (ofPayload_of_flat? ?_)
    rw [map_string_encode, flat?, texts?_map_string, Option.bind_some, mapM_decode?_map_encode]
    rfl
  | .list x => by
    refine ofJson_of_payload .l rfl ?_
    rw [ofPayload, if_pos rfl, itemsOfJson_itemsToJson x]
    rfl
  | .map x => by
    refine ofJson_of_payload .m rfl ?_
    rw [ofPayload, if_pos rfl, entriesOfJson_entriesToJson x]
    rfl

theorem itemsOfJson_itemsToJson : ∀ values : List AttributeValue,
    itemsOfJson (itemsToJson values) = .ok values
  | [] => rfl
  | value :: values => by
    rw [itemsToJson, itemsOfJson, ofJson_toJson value, itemsOfJson_itemsToJson values]
    rfl

theorem entriesOfJson_entriesToJson : ∀ entries : List (String × AttributeValue),
    entriesOfJson (entriesToJson entries) = .ok entries
  | [] => rfl
  | (name, value) :: entries => by
    rw [entriesToJson, entriesOfJson, ofJson_toJson value, entriesOfJson_entriesToJson entries]
    rfl

end

/-! ## Values are written in the format -/

mutual

theorem document_toJson : ∀ v : AttributeValue, Document v.toJson
  | .string x => .tagged .s (.string x)
  | .number x => .tagged .n (.number x)
  | .binary x => .tagged .b (.binary ⟨x, rfl⟩)
  | .stringSet x => .tagged .ss (.stringSet x)
  | .numberSet x => .tagged .ns (.numberSet x)
  | .binarySet x => by
    rw [toJson, map_string_encode]
    refine .tagged .bs (.binarySet fun text htext ↦ ?_)
    obtain ⟨bytes, -, hbytes⟩ := List.mem_map.mp htext
    exact ⟨bytes, hbytes⟩
  | .bool x => .tagged .bool (.bool x)
  | .null x => .tagged .null (.null x)
  | .list x => .tagged .l (.list (document_of_mem_itemsToJson x))
  | .map x => .tagged .m (.map (document_of_mem_entriesToJson x))

theorem document_of_mem_itemsToJson : ∀ values : List AttributeValue,
    ∀ item ∈ itemsToJson values, Document item
  | [], item, h => by cases h
  | value :: values, item, h => by
    rcases List.mem_cons.mp h with rfl | h
    · exact document_toJson value
    · exact document_of_mem_itemsToJson values item h

theorem document_of_mem_entriesToJson : ∀ entries : List (String × AttributeValue),
    ∀ field ∈ entriesToJson entries, Document field.2
  | [], field, h => by cases h
  | (name, value) :: entries, field, h => by
    rcases List.mem_cons.mp h with rfl | h
    · exact document_toJson value
    · exact document_of_mem_entriesToJson entries field h

end

/-! ## The format has no other documents -/

/-- The items of a list that are all in the range of a function are the images of some list. -/
private theorem exists_map_eq {α β : Type} {f : α → β} {bs : List β} (h : ∀ b ∈ bs, ∃ a, f a = b) :
    ∃ as : List α, as.map f = bs := by
  rw [← Set.mem_range, Set.range_list_map]
  exact h

private theorem itemsToJson_eq_map (values : List AttributeValue) :
    itemsToJson values = values.map toJson := by
  induction values with
  | nil => rfl
  | cons value values ih => rw [itemsToJson, ih, List.map_cons]

private theorem entriesToJson_eq_map (entries : List (String × AttributeValue)) :
    entriesToJson entries = entries.map fun entry ↦ (entry.1, entry.2.toJson) := by
  induction entries with
  | nil => rfl
  | cons entry entries ih => rw [entriesToJson, ih, List.map_cons]

mutual

/-- A document of the format is what some value is written as. -/
theorem exists_of_document : ∀ {d : Json}, Document d → ∃ v : AttributeValue, v.toJson = d
  | _, .tagged _ h => exists_of_payload h

theorem exists_of_payload : ∀ {tag : TypeTag} {payload : Json}, Payload tag payload →
    ∃ v : AttributeValue, v.toJson = .object [(tag.name, payload)]
  | _, _, .string x => ⟨.string x, rfl⟩
  | _, _, .number x => ⟨.number x, rfl⟩
  | _, _, .binary ⟨bytes, hbytes⟩ => ⟨.binary bytes, by rw [toJson, hbytes]; rfl⟩
  | _, _, .stringSet texts => ⟨.stringSet texts, rfl⟩
  | _, _, .numberSet literals => ⟨.numberSet literals, rfl⟩
  | _, _, .binarySet h => by
    obtain ⟨members, rfl⟩ := exists_map_eq h
    exact ⟨.binarySet members, by rw [toJson, map_string_encode]; rfl⟩
  | _, _, .bool x => ⟨.bool x, rfl⟩
  | _, _, .null x => ⟨.null x, rfl⟩
  | _, _, .list h => by
    obtain ⟨values, rfl⟩ := exists_map_eq fun item hitem ↦ exists_of_document (h item hitem)
    exact ⟨.list values, by rw [toJson, itemsToJson_eq_map]; rfl⟩
  | _, _, @Payload.map fields h => by
    -- an entry is a pair, so the value is found for the document and the name is kept
    have hentry : ∀ field ∈ fields, ∃ entry : String × AttributeValue,
        (entry.1, entry.2.toJson) = field := by
      intro field hfield
      obtain ⟨v, hv⟩ := exists_of_document (h field hfield)
      exact ⟨(field.1, v), by rw [hv]⟩
    obtain ⟨entries, rfl⟩ := exists_map_eq hentry
    exact ⟨.map entries, by rw [toJson, entriesToJson_eq_map]; rfl⟩

end

/-! ## Order -/

private theorem ordered_texts (texts : List String) : (Json.array (texts.map .string)).Ordered := by
  refine .array fun item hitem ↦ ?_
  obtain ⟨text, -, rfl⟩ := List.mem_map.mp hitem
  exact .string text

private theorem sorted_entriesToJson_iff {entries : List (String × AttributeValue)} :
    Dict.Sorted (entriesToJson entries) ↔ Dict.Sorted entries := by
  rw [entriesToJson_eq_map]
  exact List.pairwise_map

mutual

theorem ordered_toJson_iff : ∀ v : AttributeValue, v.toJson.Ordered ↔ v.WellFormed
  | .string _ | .number _ | .binary _ =>
    Json.ordered_singleton_iff.trans (iff_of_true (.string _) trivial)
  | .bool _ | .null _ => Json.ordered_singleton_iff.trans (iff_of_true (.bool _) trivial)
  | .stringSet x | .numberSet x =>
    Json.ordered_singleton_iff.trans (iff_of_true (ordered_texts x) trivial)
  | .binarySet x => by
    rw [toJson, map_string_encode, Json.ordered_singleton_iff]
    exact iff_of_true (ordered_texts _) trivial
  | .list x => Json.ordered_singleton_iff.trans
    (Json.ordered_array_iff.trans (ordered_itemsToJson_iff x))
  | .map x => Json.ordered_singleton_iff.trans (Json.ordered_object_iff.trans
    (and_congr sorted_entriesToJson_iff (ordered_entriesToJson_iff x)))

theorem ordered_itemsToJson_iff : ∀ values : List AttributeValue,
    (∀ item ∈ itemsToJson values, item.Ordered) ↔ ItemsWellFormed values
  | [] => iff_of_true (List.forall_mem_nil _) trivial
  | value :: values => List.forall_mem_cons.trans
    (and_congr (ordered_toJson_iff value) (ordered_itemsToJson_iff values))

theorem ordered_entriesToJson_iff : ∀ entries : List (String × AttributeValue),
    (∀ field ∈ entriesToJson entries, field.2.Ordered) ↔ EntriesWellFormed entries
  | [] => iff_of_true (List.forall_mem_nil _) trivial
  | (_, value) :: entries => List.forall_mem_cons.trans
    (and_congr (ordered_toJson_iff value) (ordered_entriesToJson_iff entries))

end

/-- What is read from a document is well formed exactly if the document is in order. -/
theorem wellFormed_iff_of_ofJson {d : Json} {v : AttributeValue} (h : ofJson d = .ok v) :
    v.WellFormed ↔ d.Ordered := by
  rw [← toJson_of_ofJson h, ordered_toJson_iff]

end AttributeValue

/-- **The format.** A value is read from the document that it is written as. A document is read
exactly if it is of the format, and what is read from it is written as the same document again. So
reading and writing are inverse bijections between the values and the documents of the format, and
between the well-formed values and the documents in order; documents of texts are in order. -/
theorem attribute_value_documents_are_the_format :
    (∀ v : AttributeValue, AttributeValue.ofJson v.toJson = .ok v) ∧
    (∀ d : Json, (∃ v, AttributeValue.ofJson d = .ok v) ↔ AttributeValue.Document d) ∧
    (∀ (d : Json) (v : AttributeValue), AttributeValue.ofJson d = .ok v → v.toJson = d) ∧
    (∀ (d : Json) (v : AttributeValue), AttributeValue.ofJson d = .ok v →
      (v.WellFormed ↔ d.Ordered)) ∧
    (∀ (text : String) (d : Json), Json.ofText? text = some d → d.Ordered) := by
  refine ⟨AttributeValue.ofJson_toJson, fun d ↦ ⟨?_, fun hd ↦ ?_⟩,
    fun d v ↦ AttributeValue.toJson_of_ofJson, fun d v ↦ AttributeValue.wellFormed_iff_of_ofJson,
    fun text d ↦ Json.ordered_of_ofText?⟩
  · rintro ⟨v, hv⟩
    rw [← AttributeValue.toJson_of_ofJson hv]
    exact AttributeValue.document_toJson v
  · obtain ⟨v, rfl⟩ := AttributeValue.exists_of_document hd
    exact ⟨v, AttributeValue.ofJson_toJson v⟩

end TableClient
