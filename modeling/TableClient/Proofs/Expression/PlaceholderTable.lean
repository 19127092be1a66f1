import Mathlib.Data.List.Induction
import TableClient.Proofs.Decimal.Digits
import TableClient.Proofs.Dict
import TableClient.Proofs.Expression.Numbering

/-!
# The dictionaries of a placeholder table

A table of placeholders becomes two dictionaries, one for names and one for literals. Distinct
numbers have distinct placeholders, so an entry under the placeholder of a number is the one that
the table has under that number, and there are no other entries.
-/

namespace TableClient

/-! ## Dictionaries of numbered entries -/

namespace Dict

variable {α : Type}

theorem names_insert_perm {d : Dict α} {name : String} (h : name ∉ d.names) (value : α) :
    (d.insert name value).names.Perm (name :: d.names) := by
  induction d with
  | nil => exact .refl _
  | cons entry rest ih =>
    obtain ⟨key, v⟩ := entry
    obtain ⟨hne, hrest⟩ : name ≠ key ∧ name ∉ names rest := by simpa [names] using h
    rw [insert, if_neg hne]
    split
    · exact .refl _
    · exact ((ih hrest).cons key).trans (.swap name key _)

/-- A dictionary with an entry for each number below a bound, under keys that are distinct. -/
private def numbered (key : ℕ → String) (values : List α) : Dict α :=
  ofList (values.mapIdx fun n value ↦ (key n, value))

private theorem numbered_concat (key : ℕ → String) (values : List α) (value : α) :
    numbered key (values ++ [value]) = (numbered key values).insert (key values.length) value := by
  simp [numbered, ofList]

variable {key : ℕ → String}

private theorem names_numbered (hkey : Function.Injective key) (values : List α) :
    (numbered key values).names.Perm ((List.range values.length).map key) := by
  induction values using List.reverseRecOn with
  | nil => exact .refl _
  | append_singleton values value ih =>
    have hnew : key values.length ∉ (numbered key values).names := by
      rw [ih.mem_iff, List.mem_map]
      rintro ⟨n, hn, heq⟩
      exact absurd (hkey heq) (Nat.ne_of_lt (List.mem_range.mp hn))
    rw [numbered_concat, List.length_append, List.length_singleton, List.range_succ,
      List.map_append]
    have hinsert := names_insert_perm hnew value
    exact (hinsert.trans (ih.cons _)).trans (List.perm_append_singleton _ _).symm

private theorem get?_numbered (hkey : Function.Injective key) (values : List α) (n : ℕ) :
    (numbered key values).get? (key n) = values[n]? := by
  induction values using List.reverseRecOn with
  | nil => rfl
  | append_singleton values value ih =>
    rw [numbered_concat, get?_insert, ih]
    split
    · next h => simp [hkey h]
    · next h =>
      have hne : n ≠ values.length := fun heq ↦ h (congrArg key heq)
      rcases Nat.lt_or_gt_of_ne hne with hlt | hgt
      · rw [List.getElem?_append_left hlt]
      · rw [List.getElem?_eq_none (Nat.le_of_lt hgt), List.getElem?_eq_none]
        rw [List.length_append]
        exact hgt

private theorem get?_numbered_eq_some_iff (hkey : Function.Injective key) {values : List α}
    {name : String} {value : α} : (numbered key values).get? name = some value ↔
      ∃ n, name = key n ∧ values[n]? = some value := by
  constructor
  · intro h
    have hmem := (names_numbered hkey values).mem_iff.mp (List.mem_map_of_mem (mem_of_get? h))
    obtain ⟨n, -, rfl⟩ := List.mem_map.mp hmem
    exact ⟨n, rfl, (get?_numbered hkey values n).symm.trans h⟩
  · rintro ⟨n, rfl, h⟩
    exact (get?_numbered hkey values n).trans h

end Dict

/-! ## Placeholders -/

namespace Placeholder

theorem name_injective : Function.Injective name :=
  fun _ _ h ↦ Decimal.toString_inj ((String.append_right_inj _).mp h)

theorem value_injective : Function.Injective value :=
  fun _ _ h ↦ Decimal.toString_inj ((String.append_right_inj _).mp h)

end Placeholder

namespace PlaceholderTable

/-- The entry under the placeholder of a number is the name with this number. -/
theorem get?_attributeNames (t : PlaceholderTable) :
    t.attributeNames.get? ∘ Placeholder.name = t.name? :=
  funext fun n ↦ Dict.get?_numbered Placeholder.name_injective t.names n

/-- The entry under the placeholder of a number is the literal with this number. -/
theorem get?_attributeValues (t : PlaceholderTable) :
    t.attributeValues.get? ∘ Placeholder.value = t.value? :=
  funext fun n ↦ Dict.get?_numbered Placeholder.value_injective t.values n

theorem get?_attributeNames_eq_some_iff {t : PlaceholderTable} {token name : String} :
    t.attributeNames.get? token = some name ↔
      ∃ n, token = Placeholder.name n ∧ t.name? n = some name :=
  Dict.get?_numbered_eq_some_iff Placeholder.name_injective

theorem get?_attributeValues_eq_some_iff {t : PlaceholderTable} {token : String}
    {value : AttributeValue} : t.attributeValues.get? token = some value ↔
      ∃ n, token = Placeholder.value n ∧ t.value? n = some value :=
  Dict.get?_numbered_eq_some_iff Placeholder.value_injective

/-- A table without repeated names has each under one placeholder. -/
theorem attributeNames_inj {t : PlaceholderTable} (hnodup : t.names.Nodup)
    {key key' name : String} (hkey : t.attributeNames.get? key = some name)
    (hkey' : t.attributeNames.get? key' = some name) : key = key' := by
  obtain ⟨n, rfl, hn⟩ := get?_attributeNames_eq_some_iff.mp hkey
  obtain ⟨m, rfl, hm⟩ := get?_attributeNames_eq_some_iff.mp hkey'
  obtain ⟨hlt, hn⟩ := List.getElem?_eq_some_iff.mp hn
  obtain ⟨hlt', hm⟩ := List.getElem?_eq_some_iff.mp hm
  rw [(hnodup.getElem_inj_iff).mp (hn.trans hm.symm)]

/-- The entries for names stand under the placeholders of the numbers given out. -/
theorem names_attributeNames (t : PlaceholderTable) :
    t.attributeNames.names.Perm ((List.range t.names.length).map Placeholder.name) :=
  Dict.names_numbered Placeholder.name_injective t.names

/-- The entries for literals stand under the placeholders of the numbers given out. -/
theorem names_attributeValues (t : PlaceholderTable) :
    t.attributeValues.names.Perm ((List.range t.values.length).map Placeholder.value) :=
  Dict.names_numbered Placeholder.value_injective t.values

theorem intoMaps_eq (t : PlaceholderTable) : t.intoMaps = (t.attributeNames, t.attributeValues) := by
  rw [intoMaps, attributeNames, attributeValues, List.mapIdx_eq_zipIdx_map,
    List.mapIdx_eq_zipIdx_map]

/-! ## The numbers of the names -/

/-- Each name has an entry with its number, and there are no other entries. -/
theorem get?_nameNumbers_eq_some_iff {t : PlaceholderTable} (h : t.names.Nodup) {name : String}
    {n : ℕ} : t.nameNumbers.get? name = some n ↔ t.name? n = some name := by
  have hnames : Dict.names (t.names.mapIdx fun n name ↦ (name, n)) = t.names := by
    refine List.ext_getElem? fun m ↦ ?_
    simp [Dict.names, Function.comp_def]
  rw [nameNumbers, Dict.get?_ofList_eq_some_iff_mem (hnames.symm ▸ h), List.mem_mapIdx, name?,
    List.getElem?_eq_some_iff]
  simp

/-- A name is found where its entry says, and only if it has an entry. -/
theorem idxOf?_names {t : PlaceholderTable} (h : t.names.Nodup) (name : String) :
    t.names.idxOf? name = t.nameNumbers.get? name := by
  refine Option.ext fun n ↦ ?_
  rw [get?_nameNumbers_eq_some_iff h, name?, List.idxOf?_eq_some_iff, List.getElem?_eq_some_iff]
  constructor
  · rintro ⟨hlt, hget, -⟩
    exact ⟨hlt, hget⟩
  · rintro ⟨hlt, hget⟩
    refine ⟨hlt, hget, fun m hm heq ↦ ?_⟩
    exact absurd ((h.getElem_inj_iff).mp (heq.trans hget.symm)) (Nat.ne_of_lt hm)

/-- A new name is one more entry. -/
theorem nameNumbers_concat {t u : PlaceholderTable} {name : String}
    (h : u.names = t.names ++ [name]) :
    u.nameNumbers = t.nameNumbers.insert name t.names.length := by
  rw [nameNumbers, h, List.mapIdx_concat, Dict.ofList_concat]
  rfl

theorem nodup_internName {t : PlaceholderTable} (h : t.names.Nodup) (name : String) :
    (t.internName name).2.names.Nodup :=
  (Numbering.of_internName rfl).1.nodup h

/-- A table that finds its names in a dictionary interns a name as the table does that searches for
it. -/
theorem internName_indexed {t : PlaceholderTable} (h : t.names.Nodup) (name : String) :
    t.indexed.internName name = ((t.internName name).1, (t.internName name).2.indexed) := by
  rw [internName, idxOf?_names h, IndexedTable.internName]
  simp only [indexed]
  cases t.nameNumbers.get? name with
  | some n => rfl
  | none =>
    have hnumbers := nameNumbers_concat (t := t) (u := ⟨t.names ++ [name], t.values⟩) rfl
    simp only [hnumbers]

theorem internValue_indexed (t : PlaceholderTable) (value : AttributeValue) :
    t.indexed.internValue value = ((t.internValue value).1, (t.internValue value).2.indexed) :=
  rfl

end PlaceholderTable
end TableClient
