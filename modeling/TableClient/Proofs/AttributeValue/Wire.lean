import TableClient.AttributeValue.Wire
import TableClient.Proofs.Base64
import TableClient.Proofs.Except

/-!
# Documents of attribute values

Reading a document as an attribute value loses nothing: the value is written as the same document.
So a key that the service sends comes back to it as it was sent.
-/

namespace TableClient.AttributeValue

private theorem map_string_of_texts? {items : List Json} {texts : List String}
    (h : texts? items = some texts) : texts.map .string = items := by
  induction items generalizing texts with
  | nil =>
    obtain rfl := Option.some.inj h
    rfl
  | cons item items ih =>
    cases item with
    | string x =>
      obtain ⟨rest, hrest, rfl⟩ := Option.map_eq_some_iff.mp h
      rw [List.map_cons, ih hrest]
    | null | bool | number | array | object => cases h

private theorem map_encode_of_mapM_decode? {texts : List String} {members : List Bytes}
    (h : texts.mapM Base64.decode? = some members) : members.map Base64.encode = texts := by
  induction texts generalizing members with
  | nil =>
    obtain rfl := Option.some.inj h
    rfl
  | cons text texts ih =>
    rw [List.mapM_cons] at h
    obtain ⟨bytes, hbytes, h⟩ := Option.bind_eq_some_iff.mp h
    obtain ⟨rest, hrest, h⟩ := Option.bind_eq_some_iff.mp h
    obtain rfl := Option.some.inj h
    rw [List.map_cons, Base64.encode_of_decode? hbytes, ih hrest]

theorem map_string_encode (members : List Bytes) :
    members.map (fun bytes ↦ Json.string (Base64.encode bytes)) =
      (members.map Base64.encode).map .string := by
  rw [List.map_map]
  rfl

/-- A payload without values inside is written as it was read. -/
private theorem toJson_of_flat? {tag : TypeTag} {payload : Json} {value : AttributeValue}
    (h : flat? tag payload = some value) : value.toJson = .object [(Named.name tag, payload)] := by
  unfold flat? at h
  split at h
  · obtain rfl := Option.some.inj h
    rfl
  · obtain rfl := Option.some.inj h
    rfl
  · obtain ⟨bytes, hbytes, rfl⟩ := Option.map_eq_some_iff.mp h
    rw [toJson, Base64.encode_of_decode? hbytes]
    rfl
  · obtain ⟨texts, htexts, rfl⟩ := Option.map_eq_some_iff.mp h
    rw [toJson, map_string_of_texts? htexts]
    rfl
  · obtain ⟨texts, htexts, rfl⟩ := Option.map_eq_some_iff.mp h
    rw [toJson, map_string_of_texts? htexts]
    rfl
  · obtain ⟨texts, htexts, h⟩ := Option.bind_eq_some_iff.mp h
    obtain ⟨members, hmembers, rfl⟩ := Option.map_eq_some_iff.mp h
    rw [toJson, map_string_encode, map_encode_of_mapM_decode? hmembers,
      map_string_of_texts? htexts]
    rfl
  · obtain rfl := Option.some.inj h
    rfl
  · obtain rfl := Option.some.inj h
    rfl
  · cases h

mutual

/-- A document that is read is written back as it was. -/
theorem toJson_of_ofJson : ∀ {document : Json} {value : AttributeValue},
    ofJson document = .ok value → value.toJson = document
  | .object [(name, payload)], value, h => by
    rw [ofJson] at h
    split at h
    · cases h
    · next tag htag =>
      obtain ⟨v, hvalue, h⟩ := Except.bind_eq_ok_iff.mp h
      obtain rfl := Except.pure_eq_ok_iff.mp h
      rw [toJson_of_ofPayload hvalue, Named.name_of_ofName? htag]
  | .object ((name, payload) :: _ :: _), value, h => by
    rw [ofJson] at h
    split at h
    · cases h
    · next tag htag =>
      obtain ⟨v, hvalue, h⟩ := Except.bind_eq_ok_iff.mp h
      cases h
  | .object [], _, h => by cases h
  | .null, _, h | .bool _, _, h | .number _, _, h | .string _, _, h | .array _, _, h => by cases h

theorem toJson_of_ofPayload : ∀ {tag : TypeTag} {payload : Json} {value : AttributeValue},
    ofPayload tag payload = .ok value → value.toJson = .object [(Named.name tag, payload)]
  | tag, .array items, value, h => by
    rw [ofPayload] at h
    split at h
    · next htag =>
      obtain ⟨values, hvalues, rfl⟩ := Except.map_eq_ok_iff.mp h
      rw [toJson, itemsToJson_of_itemsOfJson hvalues, htag]
      rfl
    · exact toJson_of_flat? (Except.elim_eq_ok_iff.mp h)
  | tag, .object fields, value, h => by
    rw [ofPayload] at h
    split at h
    · next htag =>
      obtain ⟨values, hvalues, rfl⟩ := Except.map_eq_ok_iff.mp h
      rw [toJson, entriesToJson_of_entriesOfJson hvalues, htag]
      rfl
    · cases h
  | tag, .null, value, h | tag, .bool _, value, h | tag, .number _, value, h
  | tag, .string _, value, h => toJson_of_flat? (Except.elim_eq_ok_iff.mp h)

theorem itemsToJson_of_itemsOfJson : ∀ {items : List Json} {values : List AttributeValue},
    itemsOfJson items = .ok values → itemsToJson values = items
  | [], values, h => by
    obtain rfl := Except.ok.inj h
    rfl
  | item :: items, values, h => by
    rw [itemsOfJson] at h
    obtain ⟨value, hvalue, h⟩ := Except.bind_eq_ok_iff.mp h
    obtain ⟨rest, hrest, h⟩ := Except.bind_eq_ok_iff.mp h
    obtain rfl := Except.pure_eq_ok_iff.mp h
    rw [itemsToJson, toJson_of_ofJson hvalue, itemsToJson_of_itemsOfJson hrest]

theorem entriesToJson_of_entriesOfJson :
    ∀ {fields : List (String × Json)} {entries : List (String × AttributeValue)},
      entriesOfJson fields = .ok entries → entriesToJson entries = fields
  | [], entries, h => by
    obtain rfl := Except.ok.inj h
    rfl
  | (name, field) :: fields, entries, h => by
    rw [entriesOfJson] at h
    obtain ⟨value, hvalue, h⟩ := Except.bind_eq_ok_iff.mp h
    obtain ⟨rest, hrest, h⟩ := Except.bind_eq_ok_iff.mp h
    obtain rfl := Except.pure_eq_ok_iff.mp h
    rw [entriesToJson, toJson_of_ofJson hvalue, entriesToJson_of_entriesOfJson hrest]

end

end TableClient.AttributeValue
