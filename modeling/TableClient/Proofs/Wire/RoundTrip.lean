import Mathlib.Data.List.Nodup
import TableClient.Proofs.AttributeValue.Format
import TableClient.Proofs.Wire.Record

/-!
# Written documents are read back

A `LawfulWire` type reads what it writes. What it writes is `Tidy`: null stands nowhere in it, nor
does an empty map where the service wants none. Lists, dictionaries and optional fields pass this
on.

A record passes it on field by field (`Record.Lawful`). To read its fields it looks each of them up
by its name, so it finds what it has written if the names are distinct. An optional field that is
there must not be read as one that is not, and as no lawful type writes null, it is not. The third
parameter of `Record.Lawful` collects the names of the fields that are written even if they are
empty, so that one look at the names tells which fields are left out then.
-/

namespace TableClient

/-! ## Tidy documents -/

namespace Json

/-- The maps in requests that the service takes only with entries. -/
def neverEmptyMaps : List String :=
  ["ExpressionAttributeNames", "ExpressionAttributeValues", "ExclusiveStartKey"]

/-- The lists and maps in requests that are left out when empty. -/
def leftOutWhenEmpty : List String :=
  neverEmptyMaps ++ ["GlobalSecondaryIndexes", "LocalSecondaryIndexes",
    "GlobalSecondaryIndexUpdates", "NonKeyAttributes"]

/-- At no depth is there null, or an empty object as a map that the service takes only with
entries. -/
inductive Tidy : Json → Prop
  | bool (value : Bool) : Tidy (.bool value)
  | number (value : JsonNumber) : Tidy (.number value)
  | string (value : String) : Tidy (.string value)
  | array {items : List Json} (hitems : ∀ item ∈ items, Tidy item) : Tidy (.array items)
  | object {fields : List (String × Json)} (hfields : ∀ field ∈ fields, Tidy field.2)
      (hmaps : ∀ field ∈ fields, field.1 ∈ neverEmptyMaps → field.2 ≠ .object []) :
      Tidy (.object fields)

/-- The document is an array without items or an object without fields. -/
def IsEmpty (document : Json) : Prop :=
  document = .array [] ∨ document = .object []

end Json

/-! ## Lawful types -/

/-- A type whose values are read back from their documents, all of them tidy. -/
class LawfulWire (α : Type) [Wire α] : Prop where
  read_write (a : α) : Wire.read (Wire.write a) = .ok a
  tidy_write (a : α) : (Wire.write a).Tidy

/-- A type whose values are never written as an empty object. -/
class NonemptyWire (α : Type) [Wire α] : Prop where
  write_ne (a : α) : Wire.write a ≠ .object []

/-- A lawful type of lists whose documents are empty for the empty list only. -/
class LawfulCollection (α : Type) [Wire (List α)] : Prop extends LawfulWire (List α) where
  not_isEmpty_write {xs : List α} (h : xs ≠ []) : ¬ (Wire.write xs).IsEmpty

section Values

instance : LawfulWire String where
  read_write _ := rfl
  tidy_write := .string

instance : NonemptyWire String where
  write_ne _ h := nomatch h

instance : LawfulWire Bool where
  read_write _ := rfl
  tidy_write := .bool

instance : LawfulWire Int32 where
  read_write n := (if_pos ⟨n.minValue_le_toInt, n.toInt_le⟩).trans
    (congrArg Except.ok n.ofInt_toInt)
  tidy_write _ := .number _

instance : LawfulWire Int64 where
  read_write n := (if_pos ⟨n.minValue_le_toInt, n.toInt_le⟩).trans
    (congrArg Except.ok n.ofInt_toInt)
  tidy_write _ := .number _

instance {α : Type} [WireEnum α] : LawfulWire α where
  read_write a := Except.elim_eq_ok_iff.mpr (Named.ofName?_name a)
  tidy_write _ := .string _

mutual

theorem AttributeValue.tidy_of_document : ∀ {d : Json}, AttributeValue.Document d → d.Tidy
  | _, .tagged tag h => by
    refine .object ?_ ?_
    · intro field hfield
      obtain rfl := List.mem_singleton.mp hfield
      exact tidy_of_payload h
    · intro field hfield hname
      obtain rfl := List.mem_singleton.mp hfield
      cases tag <;> simp [Json.neverEmptyMaps, TypeTag.name, Named.name] at hname

theorem AttributeValue.tidy_of_payload : ∀ {tag : TypeTag} {payload : Json},
    AttributeValue.Payload tag payload → payload.Tidy
  | _, _, .string _ | _, _, .number _ | _, _, .binary _ => .string _
  | _, _, .stringSet _ | _, _, .numberSet _ | _, _, .binarySet _ => by
    refine .array fun item hitem ↦ ?_
    obtain ⟨text, -, rfl⟩ := List.mem_map.mp hitem
    exact .string text
  | _, _, .bool _ | _, _, .null _ => .bool _
  | _, _, .list h => .array fun item hitem ↦ tidy_of_document (h item hitem)
  | _, _, .map h => by
    refine .object (fun field hfield ↦ tidy_of_document (h field hfield)) fun field hfield _ ↦ ?_
    intro hempty
    have hdocument := h field hfield
    rw [hempty] at hdocument
    cases hdocument

end

instance : LawfulWire AttributeValue where
  read_write := AttributeValue.ofJson_toJson
  tidy_write v := AttributeValue.tidy_of_document v.document_toJson

instance : NonemptyWire AttributeValue where
  write_ne v h := by
    have hdocument := v.document_toJson
    rw [show v.toJson = .object [] from h] at hdocument
    cases hdocument

variable {α : Type} [Wire α] [LawfulWire α]

instance : LawfulCollection α where
  read_write xs := (Except.mapM_map_eq_ok fun x _ ↦ LawfulWire.read_write x).trans
    (congrArg Except.ok (List.map_id' xs))
  tidy_write xs := by
    refine .array fun item hitem ↦ ?_
    obtain ⟨x, -, rfl⟩ := List.mem_map.mp hitem
    exact LawfulWire.tidy_write x
  not_isEmpty_write := by
    rintro xs hne (hempty | hempty)
    · exact hne (List.map_eq_nil_iff.mp (Json.array.inj hempty))
    · cases hempty

instance : NonemptyWire (List α) where
  write_ne _ h := nomatch h

instance [NonemptyWire α] : LawfulCollection (String × α) where
  read_write d := by
    refine (Dict.mapValuesM_mapValues Wire.write Wire.read d).trans ?_
    rw [Dict.mapValuesM_eq_ok (f := id) fun entry _ ↦ LawfulWire.read_write entry.2]
    exact congrArg Except.ok (Dict.mapValues_eq_self_iff.mpr fun entry _ ↦ rfl)
  tidy_write d := by
    refine .object ?_ ?_
    · intro field hfield
      obtain ⟨entry, -, rfl⟩ := List.mem_map.mp hfield
      exact LawfulWire.tidy_write entry.2
    · intro field hfield _
      obtain ⟨entry, -, rfl⟩ := List.mem_map.mp hfield
      exact NonemptyWire.write_ne entry.2
  not_isEmpty_write := by
    rintro d hne (hempty | hempty)
    · cases hempty
    · exact hne (List.map_eq_nil_iff.mp (Json.object.inj hempty))

end Values

/-! ## Records -/

namespace Record

variable {σ α β : Type}

/-- The record reads as `view` what it writes, if its fields have distinct names, and all of it is
tidy. The fields apart from those in `kept` are not written when they are empty. -/
class Lawful (r : Record σ α) (view : outParam (σ → α)) (kept : outParam (List String)) :
    Prop where
  name_mem (x : σ) : ∀ field ∈ r.toFields x, field.1 ∈ r.names
  ofFields_eq_ok (hnames : r.names.Nodup) (x : σ) (fields : Dict Json)
    (h : ∀ name ∈ r.names, fields.get? name = r.written x name) : r.ofFields fields = .ok (view x)
  tidy (x : σ) : ∀ field ∈ r.toFields x, field.2.Tidy
  mem_kept (x : σ) : ∀ field ∈ r.toFields x, field.2.IsEmpty → field.1 ∈ kept

/-- Nothing is written under a name that is not one of the record's. -/
theorem written_eq_none {r : Record σ α} {view : σ → α} {kept : List String} [r.Lawful view kept]
    {x : σ} {name : String} (h : name ∉ r.names) : r.written x name = none := by
  cases hwritten : r.written x name with
  | none => rfl
  | some document =>
    have hmem := List.mem_reverse.mp (Dict.mem_of_get? hwritten)
    exact absurd (Lawful.name_mem x _ hmem) h

instance {f : α → β} {r : Record σ α} {view : σ → α} {kept : List String}
    [h : r.Lawful view kept] : (f <$> r).Lawful (fun x ↦ f (view x)) kept where
  name_mem := h.name_mem
  ofFields_eq_ok hnames x fields hagree :=
    ofFields_map_eq_ok_iff.mpr ⟨view x, h.ofFields_eq_ok hnames x fields hagree, rfl⟩
  tidy := h.tidy
  mem_kept := h.mem_kept

instance {r : Record σ (α → β)} {s : Record σ α} {f : σ → α → β} {view : σ → α}
    {kept kept' : List String} [hr : r.Lawful f kept] [hs : s.Lawful view kept'] :
    (r <*> s).Lawful (fun x ↦ f x (view x)) (kept ++ kept') where
  name_mem x field hfield := by
    refine List.mem_append.mpr ?_
    exact (List.mem_append.mp hfield).imp (hr.name_mem x field) (hs.name_mem x field)
  ofFields_eq_ok hnames x fields hagree := by
    obtain ⟨hnamesr, hnamess, hdisjoint⟩ := List.nodup_append'.mp hnames
    refine ofFields_seq_eq_ok_iff.mpr ⟨f x, view x, ?_, ?_, rfl⟩
    · refine hr.ofFields_eq_ok hnamesr x fields fun name hname ↦ ?_
      rw [hagree name (List.mem_append_left _ hname), written_seq,
        written_eq_none (hdisjoint hname), Option.none_or]
    · refine hs.ofFields_eq_ok hnamess x fields fun name hname ↦ ?_
      rw [hagree name (List.mem_append_right _ hname), written_seq,
        written_eq_none fun hname' ↦ hdisjoint hname' hname, Option.or_none]
  tidy x field hfield :=
    (List.mem_append.mp hfield).elim (hr.tidy x field) (hs.tidy x field)
  mem_kept x field hfield hempty := by
    refine List.mem_append.mpr ?_
    exact (List.mem_append.mp hfield).imp (hr.mem_kept x field · hempty)
      (hs.mem_kept x field · hempty)

section Fields

variable {name : String}

theorem lawful_field {present : Json → Except WireError α} {absent : Option α} {shortRow : Bool}
    {write : σ → Option Json} {view : σ → α} {kept : List String}
    (hpresent : ∀ x document, write x = some document → present document = .ok (view x))
    (habsent : ∀ x, write x = none → absent = some (view x))
    (htidy : ∀ x document, write x = some document → document.Tidy)
    (hkept : ∀ x document, write x = some document → document.IsEmpty → name ∈ kept) :
    (field name present absent shortRow write).Lawful view kept := by
  have hwrite (x : σ) (written : String × Json)
      (h : written ∈ (field name present absent shortRow write).toFields x) :
      written.1 = name ∧ write x = some written.2 := by
    obtain ⟨document, hdocument, rfl⟩ := List.mem_map.mp h
    exact ⟨rfl, Option.mem_toList.mp hdocument⟩
  refine ⟨fun x written h ↦ ?_, fun _ x fields hagree ↦ ?_, fun x written h ↦ ?_,
    fun x written h hempty ↦ ?_⟩
  · exact List.mem_singleton.mpr (hwrite x written h).1
  · have hget := hagree name (List.mem_singleton_self name)
    rw [written_field, if_pos rfl] at hget
    rw [field]
    dsimp only
    rw [hget]
    cases hx : write x with
    | none => exact Except.elim_eq_ok_iff.mpr (habsent x hx)
    | some document => exact Except.mapError_eq_ok_iff.mpr (hpresent x document hx)
  · exact htidy x _ (hwrite x written h).2
  · obtain ⟨rfl, hx⟩ := hwrite x written h
    exact hkept x _ hx hempty

instance [Wire α] [LawfulWire α] {view : σ → α} : (required name view).Lawful view [name] := by
  refine lawful_field ?_ ?_ ?_ ?_
  · rintro x _ ⟨⟩
    exact LawfulWire.read_write _
  · rintro x ⟨⟩
  · rintro x _ ⟨⟩
    exact LawfulWire.tidy_write _
  · intro x _ _ _
    exact List.mem_singleton_self name

/-- What is written for a value that is there is not null, so it is not read as absent. -/
instance [Wire α] [LawfulWire α] {view : σ → Option α} :
    (option name view).Lawful view [name] := by
  refine lawful_field ?_ ?_ ?_ ?_
  · intro x document hdocument
    obtain ⟨a, ha, rfl⟩ := Option.map_eq_some_iff.mp hdocument
    have htidy := LawfulWire.tidy_write a
    have hread := LawfulWire.read_write a
    rw [ha]
    split
    · next hnull =>
      rw [hnull] at htidy
      cases htidy
    · rw [hread]
      rfl
  · intro x hx
    exact congrArg some (Option.map_eq_none_iff.mp hx).symm
  · intro x document hdocument
    obtain ⟨a, -, rfl⟩ := Option.map_eq_some_iff.mp hdocument
    exact LawfulWire.tidy_write a
  · intro x _ _ _
    exact List.mem_singleton_self name

instance [Wire (List α)] [LawfulCollection α] {view : σ → List α} :
    (nonempty name view).Lawful view [] := by
  have hsome (x : σ) (document : Json)
      (h : (if (view x).isEmpty then none else some (Wire.write (view x))) = some document) :
      view x ≠ [] ∧ Wire.write (view x) = document := by
    split at h
    · cases h
    · next hempty => exact ⟨mt List.isEmpty_iff.mpr hempty, Option.some.inj h⟩
  refine lawful_field ?_ ?_ ?_ ?_
  · intro x document hdocument
    obtain ⟨-, rfl⟩ := hsome x document hdocument
    exact LawfulWire.read_write _
  · intro x hx
    split at hx
    · next hempty => exact congrArg some (List.isEmpty_iff.mp hempty).symm
    · cases hx
  · intro x document hdocument
    obtain ⟨-, rfl⟩ := hsome x document hdocument
    exact LawfulWire.tidy_write _
  · intro x document hdocument hempty
    obtain ⟨hne, rfl⟩ := hsome x document hdocument
    exact absurd hempty (LawfulCollection.not_isEmpty_write hne)

end Fields

end Record

/-- A lawful type of records: lists and maps that may be left out are, when they are empty. -/
class LawfulRecord (α : Type) [Wire α] : Prop extends LawfulWire α where
  not_isEmpty_of_field? {a : α} {name : String} {document : Json}
    (hname : name ∈ Json.leftOutWhenEmpty)
    (h : Json.field? (Wire.write a) name = some document) : ¬ document.IsEmpty

/-- The type of a lawful record is lawful if its fields have distinct names and those that may be
left out are. -/
theorem LawfulRecord.of_record {α : Type} {r : Record α α} {kept : List String}
    (h : r.Lawful (fun x ↦ x) kept) (hnames : r.names.Nodup)
    (hkept : ∀ name ∈ kept, name ∉ Json.leftOutWhenEmpty) : @LawfulRecord α r.wire := by
  let _ := r.wire
  have hkeeps (x : α) (field : String × Json) (hfield : field ∈ r.toFields x)
      (hname : field.1 ∈ Json.leftOutWhenEmpty) : ¬ field.2.IsEmpty :=
    fun hempty ↦ hkept _ (h.mem_kept x field hfield hempty) hname
  have hlawful : LawfulWire α := by
    refine ⟨fun x ↦ ?_, fun x ↦ .object (fun field hfield ↦ ?_) fun field hfield hname ↦ ?_⟩
    · refine Except.mapError_eq_ok_iff.mpr (h.ofFields_eq_ok hnames x _ fun name _ ↦ ?_)
      exact Dict.get?_ofList (r.toFields x) name
    · exact h.tidy x field (Dict.mem_ofList hfield)
    · have hname : field.1 ∈ Json.leftOutWhenEmpty := List.mem_append_left _ hname
      exact fun hempty ↦ hkeeps x field (Dict.mem_ofList hfield) hname (.inr hempty)
  refine { hlawful with not_isEmpty_of_field? := fun {x name document} hname hfield ↦ ?_ }
  rw [Record.field?_write] at hfield
  exact hkeeps x (name, document) (List.mem_reverse.mp (Dict.mem_of_get? hfield)) hname

end TableClient
