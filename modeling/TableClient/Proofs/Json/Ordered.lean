import TableClient.Json.Reader
import TableClient.Proofs.Dict

/-!
# Documents in order

The fields of an object are a list, and no type says that they are a dictionary. `Json.Ordered` says
it, at every depth. The reader of texts makes no other documents: it puts one field after the other
into a dictionary, so that of several fields with one name the last is left.
-/

namespace TableClient
namespace Json

/-- At every depth the fields of an object stand in strictly ascending order of their names. -/
inductive Ordered : Json → Prop
  | null : Ordered .null
  | bool (value : Bool) : Ordered (.bool value)
  | number (value : JsonNumber) : Ordered (.number value)
  | string (text : String) : Ordered (.string text)
  | array {items : List Json} (hitems : ∀ item ∈ items, Ordered item) : Ordered (.array items)
  | object {fields : List (String × Json)} (hsorted : Dict.Sorted fields)
      (hfields : ∀ field ∈ fields, Ordered field.2) : Ordered (.object fields)

theorem ordered_array_iff {items : List Json} :
    (array items).Ordered ↔ ∀ item ∈ items, item.Ordered := by
  constructor
  · rintro ⟨⟩
    assumption
  · exact .array

theorem ordered_object_iff {fields : List (String × Json)} :
    (object fields).Ordered ↔ Dict.Sorted fields ∧ ∀ field ∈ fields, field.2.Ordered := by
  constructor
  · rintro ⟨⟩
    exact ⟨‹_›, ‹_›⟩
  · exact fun h ↦ .object h.1 h.2

/-- An object with one field is in order if what is in the field is. -/
theorem ordered_singleton_iff {name : String} {document : Json} :
    (object [(name, document)]).Ordered ↔ document.Ordered := by
  rw [ordered_object_iff, List.forall_mem_singleton, and_iff_right_iff_imp]
  exact fun _ ↦ List.pairwise_singleton _ _

theorem ordered_insert {fields : Dict Json} {name : String} {document : Json}
    (hfields : (object fields).Ordered) (hdocument : document.Ordered) :
    (object (fields.insert name document)).Ordered := by
  rw [ordered_object_iff] at hfields ⊢
  refine ⟨Dict.sorted_insert hfields.1 name document, fun field hfield ↦ ?_⟩
  obtain rfl | hfield := Dict.mem_insert hfield
  · exact hdocument
  · exact hfields.2 field hfield

/-! ## Documents of texts -/

mutual

theorem ordered_of_value? : ∀ {fuel depth : ℕ} {tokens rest : List JsonToken} {document : Json},
    value? fuel depth tokens = some (document, rest) → document.Ordered
  | fuel + 1, depth, tokens, rest, document, h => by
    unfold value? at h
    split at h
    · obtain ⟨rfl, -⟩ := Prod.mk.inj (Option.some.inj h)
      exact .null
    · obtain ⟨rfl, -⟩ := Prod.mk.inj (Option.some.inj h)
      exact .bool _
    · obtain ⟨rfl, -⟩ := Prod.mk.inj (Option.some.inj h)
      exact .number _
    · obtain ⟨rfl, -⟩ := Prod.mk.inj (Option.some.inj h)
      exact .string _
    · split at h
      · cases h
      · obtain ⟨rfl, -⟩ := Prod.mk.inj (Option.some.inj h)
        exact .array (by simp)
      · exact ordered_of_items? (by simp) h
    · split at h
      · cases h
      · obtain ⟨rfl, -⟩ := Prod.mk.inj (Option.some.inj h)
        exact .object .nil (by simp)
      · exact ordered_of_fields? (.object .nil (by simp)) h
    · cases h

theorem ordered_of_items? : ∀ {fuel depth : ℕ} {done : List Json} {tokens rest : List JsonToken}
    {document : Json}, (∀ item ∈ done, item.Ordered) →
    items? fuel depth done tokens = some (document, rest) → document.Ordered
  | fuel + 1, depth, done, tokens, rest, document, hdone, h => by
    unfold items? at h
    split at h
    · next hitem =>
      exact ordered_of_items? (List.forall_mem_cons.mpr ⟨ordered_of_value? hitem, hdone⟩) h
    · next hitem =>
      obtain ⟨rfl, -⟩ := Prod.mk.inj (Option.some.inj h)
      refine .array fun other hother ↦ ?_
      obtain rfl | hother := List.mem_cons.mp (List.mem_reverse.mp hother)
      · exact ordered_of_value? hitem
      · exact hdone other hother
    · cases h

theorem ordered_of_fields? : ∀ {fuel depth : ℕ} {done : Dict Json} {tokens rest : List JsonToken}
    {document : Json}, (object done).Ordered →
    fields? fuel depth done tokens = some (document, rest) → document.Ordered
  | fuel + 1, depth, done, tokens, rest, document, hdone, h => by
    unfold fields? at h
    split at h
    · split at h
      · next hfield => exact ordered_of_fields? (ordered_insert hdone (ordered_of_value? hfield)) h
      · next hfield =>
        obtain ⟨rfl, -⟩ := Prod.mk.inj (Option.some.inj h)
        exact ordered_insert hdone (ordered_of_value? hfield)
      · cases h
    · cases h

end

/-- What is read from a text is in order. -/
theorem ordered_of_ofText? {text : String} {document : Json} (h : ofText? text = some document) :
    document.Ordered := by
  simp only [ofText?] at h
  split at h
  · next hvalue =>
    obtain rfl := Option.some.inj h
    exact ordered_of_value? hvalue
  · cases h

end Json
end TableClient
