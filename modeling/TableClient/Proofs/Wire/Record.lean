import TableClient.Proofs.AttributeValue.Wire
import TableClient.Proofs.Dict
import TableClient.Wire.Record

/-!
# Fields of written and read records

What a record writes under a name is computed field by field (`Record.written`), and what it reads
comes from one place of the document for each field: the entry with the name of the field in an
object, or the item at its position in an array.
-/

namespace TableClient

namespace Dict

variable {α β : Type}

/-- A dictionary whose values are read without loss is read without loss. -/
theorem mapValues_of_mapValuesM {ε : Type} {read : α → Except ε β} {write : β → α}
    (hwrite : ∀ a b, read a = .ok b → write b = a) {d : Dict α} {e : Dict β}
    (h : mapValuesM read d = .ok e) : mapValues write e = d := by
  induction d generalizing e with
  | nil =>
    obtain rfl := Except.ok.inj h
    rfl
  | cons entry d ih =>
    obtain ⟨name, a⟩ := entry
    rw [mapValuesM] at h
    obtain ⟨b, hread, h⟩ := Except.bind_eq_ok_iff.mp h
    obtain ⟨rest, hrest, h⟩ := Except.bind_eq_ok_iff.mp h
    obtain rfl := Except.pure_eq_ok_iff.mp h
    have ih := ih hrest
    rw [mapValues] at ih ⊢
    rw [List.map_cons, ih, hwrite a b hread]

end Dict

/-- A dictionary of values that is read from a document is written as the same document. -/
theorem AttributeValue.write_of_read_dict {document : Json} {key : Dict AttributeValue}
    (h : Wire.read document = .ok key) : Wire.write key = document := by
  cases document with
  | object fields =>
    have hfields : Dict.mapValuesM AttributeValue.ofJson fields = .ok key := h
    exact congrArg Json.object
      (Dict.mapValues_of_mapValuesM (fun _ _ ↦ AttributeValue.toJson_of_ofJson) hfields)
  | null | bool | number | string | array => cases h

namespace Record

variable {σ α β : Type}

/-! ## Writing -/

/-- What is written under a name. -/
def written (r : Record σ α) (x : σ) (name : String) : Option Json :=
  Dict.get? (r.toFields x).reverse name

theorem field?_write (r : Record α α) (x : α) (name : String) :
    Json.field? (r.wire.write x) name = r.written x name :=
  Dict.get?_ofList (r.toFields x) name

@[simp] theorem written_map (f : α → β) (r : Record σ α) (x : σ) (name : String) :
    (f <$> r).written x name = r.written x name :=
  rfl

/-- Fields that come later count before those with the same name that come earlier. -/
@[simp] theorem written_seq (r : Record σ (α → β)) (s : Record σ α) (x : σ) (name : String) :
    (r <*> s).written x name = (s.written x name).or (r.written x name) := by
  have hfields : (r <*> s).toFields x = r.toFields x ++ s.toFields x := rfl
  rw [written, hfields, List.reverse_append, Dict.get?_append]
  rfl

@[simp] theorem written_field (fieldName : String) (present : Json → Except WireError α)
    (absent : Option α) (shortRow : Bool) (write : σ → Option Json) (x : σ) (name : String) :
    (field fieldName present absent shortRow write).written x name =
      if fieldName = name then write x else none := by
  change Dict.get? ((write x).toList.map (fieldName, ·)).reverse name = _
  cases write x with
  | none => simp
  | some document => simp [Dict.get?]

@[simp] theorem written_required [Wire α] (fieldName : String) (view : σ → α) (x : σ)
    (name : String) : (required fieldName view).written x name =
      if fieldName = name then some (Wire.write (view x)) else none :=
  written_field ..

@[simp] theorem written_option [Wire α] (fieldName : String) (view : σ → Option α) (x : σ)
    (name : String) : (option fieldName view).written x name =
      if fieldName = name then (view x).map Wire.write else none :=
  written_field ..

@[simp] theorem written_nonempty [Wire (List α)] (fieldName : String) (view : σ → List α) (x : σ)
    (name : String) : (nonempty fieldName view).written x name =
      if fieldName = name then
        if (view x).isEmpty then none else some (Wire.write (view x))
      else none :=
  written_field ..

/-! ## Reading -/

theorem ofFields_of_read {r : Record α α} {fields : Dict Json} {a : α}
    (h : r.wire.read (.object fields) = .ok a) : r.ofFields fields = .ok a :=
  Except.mapError_eq_ok_iff.mp h

/-- An array is read if its items are used up. -/
theorem ofRow_of_read {r : Record α α} {row : List Json} {a : α}
    (h : r.wire.read (.array row) = .ok a) : r.ofRow row = .ok (a, []) := by
  unfold Wire.read wire at h
  dsimp only at h
  split at h
  · next hrow =>
    obtain rfl := Except.ok.inj h
    exact hrow
  · cases h
  · cases h

theorem ofFields_map_eq_ok_iff {f : α → β} {r : Record σ α} {fields : Dict Json} {b : β} :
    (f <$> r).ofFields fields = .ok b ↔ ∃ a, r.ofFields fields = .ok a ∧ f a = b :=
  Except.map_eq_ok_iff

theorem ofFields_seq_eq_ok_iff {r : Record σ (α → β)} {s : Record σ α} {fields : Dict Json}
    {b : β} : (r <*> s).ofFields fields = .ok b ↔
      ∃ f a, r.ofFields fields = .ok f ∧ s.ofFields fields = .ok a ∧ f a = b := by
  change both (r.ofFields fields) (s.ofFields fields) = .ok b ↔ _
  cases r.ofFields fields with
  | error e => cases s.ofFields fields <;> simp [both]
  | ok f => cases s.ofFields fields <;> simp [both]

theorem ofRow_map_eq_ok_iff {f : α → β} {r : Record σ α} {row rest : List Json} {b : β} :
    (f <$> r).ofRow row = .ok (b, rest) ↔ ∃ a, r.ofRow row = .ok (a, rest) ∧ f a = b := by
  refine Iff.trans Except.map_eq_ok_iff ?_
  simp [and_comm]

theorem ofRow_seq_eq_ok_iff {r : Record σ (α → β)} {s : Record σ α} {row rest : List Json} {b : β} :
    (r <*> s).ofRow row = .ok (b, rest) ↔ ∃ f between a,
      r.ofRow row = .ok (f, between) ∧ s.ofRow between = .ok (a, rest) ∧ f a = b := by
  refine Iff.trans Except.bind_eq_ok_iff ?_
  simp only [Except.bind_eq_ok_iff, Except.pure_eq_ok_iff, Prod.exists, Prod.mk.injEq]
  constructor
  · rintro ⟨f, between, hf, a, rest, ha, rfl, rfl⟩
    exact ⟨f, between, a, hf, ha, rfl⟩
  · rintro ⟨f, between, a, hf, ha, rfl⟩
    exact ⟨f, between, hf, a, rest, ha, rfl, rfl⟩

/-- Every field takes one item of an array that is long enough. -/
theorem ofRow_field {name : String} {present : Json → Except WireError α} {absent : Option α}
    {shortRow : Bool} {write : σ → Option Json} {row rest : List Json} {a : α}
    (h : (field name present absent shortRow write).ofRow row = .ok (a, rest)) :
    rest = row.tail := by
  cases row with
  | nil =>
    rw [field] at h
    dsimp only at h
    split at h
    · cases absent with
      | none => cases h
      | some a' =>
        cases h
        rfl
    · cases h
  | cons item row =>
    obtain ⟨a', -, h⟩ := Except.map_eq_ok_iff.mp h
    exact (Prod.ext_iff.mp h).2.symm

/-- A list that may be left out is read from its document, and is empty without one. -/
def ReadsList [Wire (List α)] (document? : Option Json) (xs : List α) : Prop :=
  document?.elim (xs = []) (Wire.read · = .ok xs)

theorem ofFields_nonempty [Wire (List α)] {name : String} {view : σ → List α} {fields : Dict Json}
    {xs : List α} (h : (nonempty name view).ofFields fields = .ok xs) :
    ReadsList (Dict.get? fields name) xs := by
  rw [nonempty, field] at h
  dsimp only at h
  cases hget : Dict.get? fields name with
  | none =>
    rw [hget] at h
    exact (Except.ok.inj h).symm
  | some document =>
    rw [hget] at h
    exact Except.mapError_eq_ok_iff.mp h

theorem ofRow_nonempty [Wire (List α)] {name : String} {view : σ → List α} {row rest : List Json}
    {xs : List α} (h : (nonempty name view).ofRow row = .ok (xs, rest)) :
    ReadsList row.head? xs := by
  cases row with
  | nil =>
    cases h
    rfl
  | cons document row =>
    obtain ⟨ys, hread, h⟩ := Except.map_eq_ok_iff.mp h
    cases h
    exact hread

end Record
end TableClient
