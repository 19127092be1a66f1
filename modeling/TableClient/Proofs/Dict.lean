import Mathlib.Data.List.Induction
import TableClient.Dict

/-!
# Looking up names in dictionaries

What stands under a name in dictionaries that are put together. Of several entries with a name the
last one counts, wherever a dictionary is made of them or they are laid over another one.

A dictionary in order is determined by what stands under its names, and so is the dictionary of
entries with different names by the entries alone: it is the one list of them in ascending order
(`eq_ofList_iff`), however they are given.
-/

namespace TableClient.Dict

variable {α : Type}

theorem get?_eq_find? (d : Dict α) (name : String) :
    d.get? name = (d.find? fun entry ↦ entry.1 = name).map Prod.snd := by
  induction d with
  | nil => rfl
  | cons entry d ih =>
    rw [get?, List.find?_cons]
    by_cases hname : entry.1 = name
    · simp [hname]
    · simp [hname, ih]

theorem get?_append (d e : Dict α) (name : String) :
    Dict.get? (d ++ e) name = (d.get? name).or (e.get? name) := by
  rw [get?_eq_find?, get?_eq_find?, get?_eq_find?, List.find?_append, Option.map_or]

theorem merge_concat (base : Dict α) (overlay : List (String × α)) (entry : String × α) :
    merge base (overlay ++ [entry]) = (merge base overlay).insert entry.1 entry.2 := by
  rw [merge, List.foldl_append]
  rfl

theorem ofList_concat (entries : List (String × α)) (entry : String × α) :
    ofList (entries ++ [entry]) = (ofList entries).insert entry.1 entry.2 :=
  merge_concat [] entries entry

theorem get?_merge_reverse (base : Dict α) (overlay : List (String × α)) (name : String) :
    (merge base overlay).get? name = (Dict.get? overlay.reverse name).or (base.get? name) := by
  induction overlay using List.reverseRecOn with
  | nil => rfl
  | append_singleton overlay entry ih =>
    rw [merge_concat, get?_insert, ih, List.reverse_append, List.reverse_singleton,
      List.singleton_append, get?]
    split
    · next hname => rw [if_pos hname.symm, Option.some_or]
    · next hname => rw [if_neg (Ne.symm hname)]

theorem get?_ofList (entries : List (String × α)) (name : String) :
    (ofList entries).get? name = Dict.get? entries.reverse name := by
  have hmerge := get?_merge_reverse [] entries name
  rwa [get?_nil, Option.or_none] at hmerge

theorem get?_merge (base : Dict α) (overlay : List (String × α)) (name : String) :
    (merge base overlay).get? name = ((ofList overlay).get? name).or (base.get? name) := by
  rw [get?_merge_reverse, get?_ofList]

/-! ## Entries -/

theorem mem_of_get? {d : Dict α} {name : String} {value : α} (h : d.get? name = some value) :
    (name, value) ∈ d := by
  rw [get?_eq_find?] at h
  obtain ⟨⟨_, _⟩, hfind, rfl⟩ := Option.map_eq_some_iff.mp h
  obtain rfl : _ = name := by simpa using List.find?_some hfind
  exact List.mem_of_find?_eq_some hfind

theorem mem_insert {d : Dict α} {name : String} {value : α} {entry : String × α}
    (h : entry ∈ d.insert name value) : entry = (name, value) ∨ entry ∈ d := by
  induction d with
  | nil => exact .inl (List.mem_singleton.mp h)
  | cons first d ih =>
    rw [insert] at h
    split at h
    · exact List.mem_cons.mp h
    · split at h
      · exact (List.mem_cons.mp h).imp_right (.tail first)
      · obtain rfl | h := List.mem_cons.mp h
        · exact .inr (.head d)
        · exact (ih h).imp_right (.tail first)

/-- A dictionary has no entries but those that it is made of. -/
theorem mem_ofList {entries : List (String × α)} {entry : String × α} (h : entry ∈ ofList entries) :
    entry ∈ entries := by
  induction entries using List.reverseRecOn with
  | nil => exact h
  | append_singleton entries last ih =>
    rw [ofList_concat] at h
    obtain rfl | h := mem_insert h
    · exact List.mem_append_right _ (List.mem_singleton_self _)
    · exact List.mem_append_left _ (ih h)

theorem get?_eq_some_iff {d : Dict α} (h : d.names.Nodup) {name : String} {value : α} :
    d.get? name = some value ↔ (name, value) ∈ d := by
  refine ⟨mem_of_get?, fun hmem ↦ ?_⟩
  induction d with
  | nil => cases hmem
  | cons entry d ih =>
    obtain ⟨hfirst, hrest⟩ := List.nodup_cons.mp h
    rw [get?]
    obtain rfl | hmem := List.mem_cons.mp hmem
    · exact if_pos rfl
    · have hname : entry.1 ≠ name := fun heq ↦ hfirst (heq ▸ List.mem_map_of_mem hmem)
      rw [if_neg hname]
      exact ih hrest hmem

/-- Of the entries with a name the last one counts. -/
theorem get?_ofList_eq_some_iff {entries : List (String × α)} {name : String} {value : α} :
    (ofList entries).get? name = some value ↔ ∃ before after,
      entries = before ++ (name, value) :: after ∧ ∀ entry ∈ after, entry.1 ≠ name := by
  rw [get?_ofList, get?_eq_find?, Option.map_eq_some_iff]
  simp only [List.find?_eq_some_iff_append, decide_eq_true_iff]
  constructor
  · rintro ⟨⟨_, _⟩, ⟨rfl, after, before, heq, hafter⟩, rfl⟩
    refine ⟨before.reverse, after.reverse, ?_, fun entry hentry ↦ ?_⟩
    · simpa using congrArg List.reverse heq
    · simpa using hafter entry (List.mem_reverse.mp hentry)
  · rintro ⟨before, after, rfl, hafter⟩
    exact ⟨(name, value), ⟨rfl, after.reverse, before.reverse, by simp, by simpa using hafter⟩, rfl⟩

theorem has_iff {d : Dict α} {name : String} : d.has name = true ↔ name ∈ d.names := by
  rw [has, get?_eq_find?, Option.isSome_map, List.find?_isSome, names, List.mem_map]
  simp only [decide_eq_true_iff]

theorem get?_eq_none_iff {d : Dict α} {name : String} : d.get? name = none ↔ name ∉ d.names := by
  rw [← has_iff, has, Option.not_isSome_iff_eq_none]

theorem has_ofList_iff {entries : List (String × α)} {name : String} :
    (ofList entries).has name = true ↔ name ∈ names entries := by
  rw [has, get?_ofList, ← has, has_iff, names, List.map_reverse, List.mem_reverse, names]

/-! ## Order -/

theorem sorted_insert {d : Dict α} (h : d.Sorted) (name : String) (value : α) :
    (d.insert name value).Sorted := by
  induction d with
  | nil => exact List.pairwise_singleton _ _
  | cons entry d ih =>
    obtain ⟨hfirst, hrest⟩ := List.pairwise_cons.mp h
    rw [insert]
    split
    · next hlt =>
      refine List.pairwise_cons.mpr ⟨fun other hother ↦ ?_, h⟩
      obtain rfl | hother := List.mem_cons.mp hother
      · exact hlt
      · exact String.lt_trans hlt (hfirst other hother)
    · next hnot =>
      split
      · next heq => exact List.pairwise_cons.mpr ⟨heq ▸ hfirst, hrest⟩
      · next hne =>
        have hlt : entry.1 < name := Std.lt_of_le_of_ne (String.not_lt.mp hnot) (Ne.symm hne)
        refine List.pairwise_cons.mpr ⟨fun other hother ↦ ?_, ih hrest⟩
        obtain rfl | hother := mem_insert hother
        · exact hlt
        · exact hfirst other hother

theorem sorted_ofList (entries : List (String × α)) : (ofList entries).Sorted := by
  induction entries using List.reverseRecOn with
  | nil => exact .nil
  | append_singleton entries entry ih =>
    rw [ofList_concat]
    exact sorted_insert ih entry.1 entry.2

theorem Sorted.nodup_names {d : Dict α} (h : d.Sorted) : d.names.Nodup := by
  refine List.pairwise_map.mpr (h.imp ?_)
  intro entry other hlt heq
  exact String.lt_irrefl _ (heq ▸ hlt)

theorem nodup_of_nodup_names {d : Dict α} (h : d.names.Nodup) : List.Nodup d :=
  (List.pairwise_map.mp h).imp fun hne heq ↦ hne (congrArg Prod.fst heq)

/-- Entries have one ascending order. -/
theorem Sorted.eq_of_perm {d e : Dict α} (hd : d.Sorted) (he : e.Sorted) (h : List.Perm d e) :
    d = e :=
  h.eq_of_pairwise (fun _ _ _ _ hab hba ↦ absurd hab (String.lt_asymm hba)) hd he

/-- Dictionaries in order with the same values under all names are equal. -/
theorem Sorted.ext {d e : Dict α} (hd : d.Sorted) (he : e.Sorted)
    (h : ∀ name, d.get? name = e.get? name) : d = e := by
  have hmem (entry : String × α) : entry ∈ d ↔ entry ∈ e := by
    rw [← get?_eq_some_iff hd.nodup_names, h, get?_eq_some_iff he.nodup_names]
  exact hd.eq_of_perm he ((List.perm_ext_iff_of_nodup (nodup_of_nodup_names hd.nodup_names)
    (nodup_of_nodup_names he.nodup_names)).mpr hmem)

/-- The dictionary of entries with different names has just these entries. -/
theorem perm_ofList {entries : List (String × α)} (h : (names entries).Nodup) :
    List.Perm (ofList entries) entries := by
  have hreverse : (names entries.reverse).Nodup :=
    ((List.reverse_perm entries).map Prod.fst).nodup_iff.mpr h
  have hmem (entry : String × α) : entry ∈ ofList entries ↔ entry ∈ entries := by
    rw [← get?_eq_some_iff (sorted_ofList entries).nodup_names, get?_ofList,
      get?_eq_some_iff hreverse, List.mem_reverse]
  exact (List.perm_ext_iff_of_nodup (nodup_of_nodup_names (sorted_ofList entries).nodup_names)
    (nodup_of_nodup_names h)).mpr hmem

/-- Of entries with different names each one counts. -/
theorem get?_ofList_eq_some_iff_mem {entries : List (String × α)} (h : (names entries).Nodup)
    {name : String} {value : α} :
    (ofList entries).get? name = some value ↔ (name, value) ∈ entries := by
  rw [get?_eq_some_iff (sorted_ofList entries).nodup_names, (perm_ofList h).mem_iff]

theorem eq_ofList_iff {entries : List (String × α)} (h : (names entries).Nodup) {d : Dict α} :
    d = ofList entries ↔ List.Perm d entries ∧ d.Sorted := by
  constructor
  · rintro rfl
    exact ⟨perm_ofList h, sorted_ofList entries⟩
  · rintro ⟨hperm, hd⟩
    exact hd.eq_of_perm (sorted_ofList entries) (hperm.trans (perm_ofList h).symm)

/-- The order in which the entries are given makes no difference. -/
theorem ofList_eq_of_perm {entries entries' : List (String × α)} (h : (names entries).Nodup)
    (hperm : entries'.Perm entries) : ofList entries' = ofList entries := by
  have h' : (names entries').Nodup := (hperm.map Prod.fst).nodup_iff.mpr h
  exact (eq_ofList_iff h).mpr ⟨(perm_ofList h').trans hperm, sorted_ofList entries'⟩

/-! ## Other values under the same names -/

variable {β : Type} (f : α → β)

theorem get?_mapValues (d : Dict α) (name : String) :
    (d.mapValues f).get? name = (d.get? name).map f := by
  induction d with
  | nil => rfl
  | cons entry d ih =>
    have hcons : mapValues f (entry :: d) = (entry.1, f entry.2) :: mapValues f d := rfl
    rw [hcons, get?, get?]
    split
    · rfl
    · exact ih

theorem mapValues_insert (d : Dict α) (name : String) (value : α) :
    (d.insert name value).mapValues f = (d.mapValues f).insert name (f value) := by
  induction d with
  | nil => rfl
  | cons entry d ih =>
    have hcons : mapValues f (entry :: d) = (entry.1, f entry.2) :: mapValues f d := rfl
    rw [hcons, insert, insert]
    split
    · rfl
    · split
      · rfl
      · rw [← ih]
        rfl

theorem mapValues_ofList (entries : List (String × α)) :
    (ofList entries).mapValues f = ofList (entries.map fun entry ↦ (entry.1, f entry.2)) := by
  induction entries using List.reverseRecOn with
  | nil => rfl
  | append_singleton entries entry ih =>
    rw [ofList_concat, mapValues_insert, ih, List.map_append, List.map_singleton, ofList_concat]

theorem mapValues_eq_self_iff {f : α → α} {d : Dict α} :
    d.mapValues f = d ↔ ∀ entry ∈ d, f entry.2 = entry.2 := by
  have hiff : d.mapValues f = List.map id d ↔ ∀ entry ∈ d, (entry.1, f entry.2) = entry :=
    List.map_inj_left
  rw [List.map_id] at hiff
  refine hiff.trans (forall₂_congr fun entry _ ↦ ?_)
  rw [Prod.ext_iff, and_iff_right rfl]

/-! ## A step for each value -/

variable {γ ε : Type}

theorem mapValuesM_eq_ok {step : α → Except ε β} {f : α → β} {d : Dict α}
    (h : ∀ entry ∈ d, step entry.2 = .ok (f entry.2)) :
    mapValuesM step d = .ok (d.mapValues f) := by
  induction d with
  | nil => rfl
  | cons entry d ih =>
    obtain ⟨hentry, hd⟩ := List.forall_mem_cons.mp h
    rw [mapValuesM, hentry, ih hd]
    rfl

theorem mapValuesM_mapValues (step : β → Except ε γ) (d : Dict α) :
    mapValuesM step (d.mapValues f) = mapValuesM (fun a ↦ step (f a)) d := by
  induction d with
  | nil => rfl
  | cons entry d ih =>
    rw [mapValuesM, ← ih]
    rfl

end TableClient.Dict
