import TableClient.Proofs.Dict
import TableClient.Proofs.Except
import TableClient.TableDescriptor

/-!
# Built and checked keys

A request about one item builds its key from values, a batch checks items that are given. Both go by
the description of the table, in which the first element of the key schema with a role counts and the
last definition of an attribute (`TableDescription.FirstWithRole`, `TableDescription.Declares`). They
agree: keys that are built are the keys that pass the check and have no other attributes.

Both routes see a key as the names of its attributes next to their values, in the order of the names
(`KeyNames.entries`). Under one name for both attributes the value of the range key is the last one.
-/

namespace TableClient

/-! ## Descriptions -/

namespace TableDescription

/-- The first element of the key schema with this role is the attribute. -/
def FirstWithRole (d : TableDescription) (role : KeyType) (name : String) : Prop :=
  ∃ before after, d.keySchema = before ++ ⟨name, role⟩ :: after ∧
    ∀ element ∈ before, element.keyType ≠ role

/-- The attribute is one of the key of the table. -/
def IsKeyAttribute (d : TableDescription) (name : String) : Prop :=
  d.FirstWithRole .hash name ∨ d.FirstWithRole .range name

/-- The last definition of the attribute has this type. -/
def Declares (d : TableDescription) (name : String) (type : ScalarAttributeType) : Prop :=
  ∃ before after, d.attributeDefinitions = before ++ ⟨name, type⟩ :: after ∧
    ∀ definition ∈ after, definition.attributeName ≠ name

/-- The value has the type that the attribute is declared with, if it is declared. -/
def Allows (d : TableDescription) (name : String) (value : AttributeValue) : Prop :=
  ∀ type, d.Declares name type → value.scalarType? = some type

end TableDescription

namespace KeyNames

variable {keys : KeyNames} {name : String}

theorem withRole_eq_some_iff {d : TableDescription} {role : KeyType} :
    withRole d.keySchema role = some name ↔ d.FirstWithRole role name := by
  rw [withRole, Option.map_eq_some_iff]
  simp only [List.find?_eq_some_iff_append, decide_eq_true_iff]
  constructor
  · rintro ⟨⟨_, _⟩, ⟨rfl, before, after, heq, hbefore⟩, rfl⟩
    exact ⟨before, after, heq, by simpa using hbefore⟩
  · rintro ⟨before, after, heq, hbefore⟩
    exact ⟨⟨name, role⟩, ⟨rfl, before, after, heq, by simpa using hbefore⟩, rfl⟩

theorem mem_toList_iff : name ∈ keys.toList ↔ keys.hash = name ∨ keys.range = some name := by
  rw [toList, List.mem_cons, Option.mem_toList, eq_comm]

/-- The attributes of a key and their values, the hash key first. -/
def entries (keys : KeyNames) (hash : AttributeValue) (range : Option AttributeValue) :
    List (String × AttributeValue) :=
  keys.toList.zip (hash :: range.toList)

variable {hash : AttributeValue} {range : Option AttributeValue}

theorem names_entries (h : range.isSome = keys.range.isSome) :
    Dict.names (keys.entries hash range) = keys.toList := by
  apply List.map_fst_zip
  rw [toList, List.length_cons, List.length_cons]
  rcases hrange : keys.range with _ | name <;> rcases range with _ | value <;> simp [hrange] at h ⊢

theorem mem_entries_iff {value : AttributeValue} : (name, value) ∈ keys.entries hash range ↔
    keys.hash = name ∧ hash = value ∨ keys.range = some name ∧ range = some value := by
  rw [entries, toList, List.zip_cons_cons, List.mem_cons, Prod.mk.injEq]
  rcases keys.range with _ | rangeName <;> rcases range with _ | rangeValue <;> simp [eq_comm]

end KeyNames

namespace TableDescriptor

variable {t : TableDescriptor} {d : TableDescription}

/-- The value has the type that the attribute is declared with, if it is declared. -/
def HasDeclaredType (table : TableDescriptor) (name : String)
    (value : AttributeValue) : Prop :=
  ∀ type, table.attributeType? name = some type → value.scalarType? = some type

theorem checkKeyType_eq_ok_iff {table : TableDescriptor} {name : String}
    {value : AttributeValue} {u : Unit} :
    table.checkKeyType name value = .ok u ↔ table.HasDeclaredType name value := by
  rw [checkKeyType, HasDeclaredType]
  cases table.attributeType? name with
  | none => simp
  | some type => simp

section Description

variable (h : ofDescription d = .ok t)

include h

theorem of_ofDescription : KeyNames.ofSchema d.keySchema = some t.keys ∧
    t.attributeTypes =
      Dict.ofList (d.attributeDefinitions.map fun a ↦ (a.attributeName, a.attributeType)) := by
  rw [ofDescription] at h
  split at h
  · cases h
  · split at h
    · cases h
    · next hkeys =>
      obtain rfl := Except.ok.inj h
      exact ⟨hkeys, rfl⟩

theorem firstWithRole_hash_iff {name : String} :
    d.FirstWithRole .hash name ↔ t.keys.hash = name := by
  obtain ⟨hash, hhash, hkeys⟩ := Option.map_eq_some_iff.mp (of_ofDescription h).1
  rw [← KeyNames.withRole_eq_some_iff, hhash, ← hkeys, Option.some.injEq]

theorem firstWithRole_range_iff {name : String} :
    d.FirstWithRole .range name ↔ t.keys.range = some name := by
  obtain ⟨hash, -, hkeys⟩ := Option.map_eq_some_iff.mp (of_ofDescription h).1
  rw [← KeyNames.withRole_eq_some_iff, ← hkeys]

theorem isSome_range_iff :
    t.keys.range.isSome = true ↔ ∃ element ∈ d.keySchema, element.keyType = .range := by
  obtain ⟨hash, -, hkeys⟩ := Option.map_eq_some_iff.mp (of_ofDescription h).1
  rw [← hkeys, KeyNames.withRole, Option.isSome_map, List.find?_isSome]
  simp only [decide_eq_true_iff]

theorem isKeyAttribute_iff {name : String} : d.IsKeyAttribute name ↔ name ∈ t.keys.toList := by
  rw [TableDescription.IsKeyAttribute, firstWithRole_hash_iff h, firstWithRole_range_iff h,
    KeyNames.mem_toList_iff]

theorem attributeType?_eq_some_iff {name : String} {type : ScalarAttributeType} :
    t.attributeType? name = some type ↔ d.Declares name type := by
  rw [attributeType?, (of_ofDescription h).2, Dict.get?_ofList_eq_some_iff,
    TableDescription.Declares]
  constructor
  · rintro ⟨before, after, heq, hafter⟩
    obtain ⟨before, rest, hdefinitions, rfl, hrest⟩ := List.map_eq_append_iff.mp heq
    obtain ⟨⟨_, _⟩, after, rfl, hdefinition, rfl⟩ := List.map_eq_cons_iff.mp hrest
    obtain ⟨rfl, rfl⟩ := Prod.mk.inj hdefinition
    exact ⟨before, after, hdefinitions, by simpa using hafter⟩
  · rintro ⟨before, after, hdefinitions, hafter⟩
    exact ⟨_, _, by rw [hdefinitions, List.map_append, List.map_cons], by simpa using hafter⟩

theorem checkKeyType_eq_ok_iff_allows {name : String} {value : AttributeValue} :
    t.checkKeyType name value = .ok () ↔ d.Allows name value := by
  rw [checkKeyType_eq_ok_iff, HasDeclaredType, TableDescription.Allows]
  simp only [attributeType?_eq_some_iff h]

end Description

/-! ## Building and checking -/

theorem checkItemKeys_eq_ok_iff {item : Item} {u : Unit} : t.checkItemKeys item = .ok u ↔
    ∀ name ∈ t.keys.toList, ∃ value,
      item.get? name = some value ∧ t.checkKeyType name value = .ok () := by
  rw [checkItemKeys, Except.forM_eq_ok_iff]
  refine forall₂_congr fun name _ ↦ ?_
  cases item.get? name with
  | none => simp
  | some value => simp

/-- The check looks at the key attributes only. -/
theorem checkItemKeys_congr {item item' : Item}
    (h : ∀ name ∈ t.keys.toList, item.get? name = item'.get? name) :
    t.checkItemKeys item = t.checkItemKeys item' :=
  Except.forM_congr fun name hname ↦ by rw [h name hname]

theorem buildKey_eq_ok_iff {hash : AttributeValue} {range : Option AttributeValue} {key : Key} :
    t.buildKey hash range = .ok key ↔ range.isSome = t.keys.range.isSome ∧
      (∀ entry ∈ t.keys.entries hash range, t.checkKeyType entry.1 entry.2 = .ok ()) ∧
      Dict.ofList (t.keys.entries hash range) = key := by
  rw [buildKey, Except.bind_eq_ok_iff, KeyNames.entries, KeyNames.toList]
  rcases t.keys.range with _ | name <;> rcases range with _ | value
  case none.none =>
    change _ ↔ _ ∧ (∀ entry ∈ [(t.keys.hash, hash)], _) ∧ _
    rw [List.forall_mem_singleton]
    constructor
    · rintro ⟨_, hhash, hkey⟩
      exact ⟨rfl, hhash, Except.pure_eq_ok_iff.mp hkey⟩
    · rintro ⟨-, hhash, hkey⟩
      exact ⟨(), hhash, Except.pure_eq_ok_iff.mpr hkey⟩
  case none.some | some.none =>
    apply iff_of_false
    · rintro ⟨_, -, hkey⟩
      cases hkey
    · rintro ⟨hsame, -⟩
      cases hsame
  case some.some =>
    change _ ↔ _ ∧ (∀ entry ∈ [(t.keys.hash, hash), (name, value)], _) ∧ _
    rw [List.forall_mem_cons, List.forall_mem_singleton]
    constructor
    · rintro ⟨_, hhash, hkey⟩
      obtain ⟨_, hrange, hkey⟩ := Except.bind_eq_ok_iff.mp hkey
      exact ⟨rfl, ⟨hhash, hrange⟩, Except.pure_eq_ok_iff.mp hkey⟩
    · rintro ⟨-, ⟨hhash, hrange⟩, hkey⟩
      exact ⟨(), hhash, Except.bind_eq_ok_iff.mpr ⟨(), hrange, Except.pure_eq_ok_iff.mpr hkey⟩⟩

theorem exists_buildKey_iff {hash : AttributeValue} {range : Option AttributeValue} :
    (∃ key, t.buildKey hash range = .ok key) ↔ range.isSome = t.keys.range.isSome ∧
      t.checkKeyType t.keys.hash hash = .ok () ∧
      ∀ name value, t.keys.range = some name → range = some value →
        t.checkKeyType name value = .ok () := by
  constructor
  · rintro ⟨key, hkey⟩
    obtain ⟨hsame, hchecked, -⟩ := buildKey_eq_ok_iff.mp hkey
    refine ⟨hsame, hchecked (_, _) (KeyNames.mem_entries_iff.mpr (.inl ⟨rfl, rfl⟩)), ?_⟩
    intro name value hname hvalue
    exact hchecked (name, value) (KeyNames.mem_entries_iff.mpr (.inr ⟨hname, hvalue⟩))
  · rintro ⟨hsame, hhash, hrange⟩
    refine ⟨_, buildKey_eq_ok_iff.mpr ⟨hsame, ?_, rfl⟩⟩
    rintro ⟨name, value⟩ hentry
    rcases KeyNames.mem_entries_iff.mp hentry with ⟨rfl, rfl⟩ | ⟨hname, hvalue⟩
    · exact hhash
    · exact hrange name value hname hvalue

section Built

variable {hash : AttributeValue} {range : Option AttributeValue} {key : Key}
  (h : t.buildKey hash range = .ok key)

include h

theorem sorted_of_buildKey : key.Sorted := by
  obtain ⟨-, -, rfl⟩ := buildKey_eq_ok_iff.mp h
  exact Dict.sorted_ofList _

theorem has_of_buildKey {name : String} : key.has name = true ↔ name ∈ t.keys.toList := by
  obtain ⟨hsame, -, rfl⟩ := buildKey_eq_ok_iff.mp h
  rw [Dict.has_ofList_iff, KeyNames.names_entries hsame]

/-- A key that is built has all its attributes, with values of the declared types. -/
theorem checkItemKeys_of_buildKey : t.checkItemKeys key = .ok () := by
  rw [checkItemKeys_eq_ok_iff]
  intro name hname
  obtain ⟨value, hvalue⟩ := Option.isSome_iff_exists.mp ((has_of_buildKey h).mpr hname)
  obtain ⟨-, hchecked, rfl⟩ := buildKey_eq_ok_iff.mp h
  exact ⟨value, hvalue, hchecked (name, value) (Dict.mem_ofList (Dict.mem_of_get? hvalue))⟩

theorem get?_range_of_buildKey {name : String} (hname : t.keys.range = some name) :
    key.get? name = range := by
  obtain ⟨hsame, -, rfl⟩ := buildKey_eq_ok_iff.mp h
  rw [hname] at hsame
  obtain ⟨value, rfl⟩ := Option.isSome_iff_exists.mp hsame
  rw [KeyNames.entries, KeyNames.toList, hname]
  exact Dict.get?_insert_self _ name value

theorem get?_hash_of_buildKey (hne : t.keys.range ≠ some t.keys.hash) :
    key.get? t.keys.hash = some hash := by
  obtain ⟨hsame, -, rfl⟩ := buildKey_eq_ok_iff.mp h
  rw [KeyNames.entries, KeyNames.toList]
  rcases hrange : t.keys.range with _ | name <;> rcases range with _ | value
  case none.none => exact if_pos rfl
  case none.some | some.none =>
    rw [hrange] at hsame
    cases hsame
  case some.some =>
    have hname : t.keys.hash ≠ name := fun heq ↦ hne (heq ▸ hrange)
    exact (Dict.get?_insert_of_ne _ value hname).trans (if_pos rfl)

end Built

/-- A checked key without other attributes is built from its values. -/
theorem exists_buildKey_of_checkItemKeys {key : Key} (hsorted : key.Sorted)
    (hnames : ∀ name, key.has name = true ↔ name ∈ t.keys.toList)
    (h : t.checkItemKeys key = .ok ()) : ∃ hash, key.get? t.keys.hash = some hash ∧
      t.buildKey hash (t.keys.range.bind key.get?) = .ok key := by
  have hchecked := checkItemKeys_eq_ok_iff.mp h
  obtain ⟨hash, hhash, -⟩ := hchecked t.keys.hash List.mem_cons_self
  have hsame : (t.keys.range.bind key.get?).isSome = t.keys.range.isSome := by
    rcases hrange : t.keys.range with _ | name
    · rfl
    · exact (hnames name).mpr (KeyNames.mem_toList_iff.mpr (.inr hrange))
  have hentries : ∀ entry ∈ t.keys.entries hash (t.keys.range.bind key.get?),
      key.get? entry.1 = some entry.2 := by
    rintro ⟨name, value⟩ hentry
    rcases KeyNames.mem_entries_iff.mp hentry with ⟨rfl, rfl⟩ | ⟨hrange, hvalue⟩
    · exact hhash
    · rw [hrange] at hvalue
      exact hvalue
  refine ⟨hash, hhash, buildKey_eq_ok_iff.mpr ⟨hsame, fun entry hentry ↦ ?_, ?_⟩⟩
  · have hvalue := hentries entry hentry
    have hname : entry.1 ∈ t.keys.toList := (hnames _).mp (by rw [Dict.has, hvalue]; rfl)
    obtain ⟨value, hvalue', hcheck⟩ := hchecked entry.1 hname
    obtain rfl := Option.some.inj (hvalue.symm.trans hvalue')
    exact hcheck
  · refine (Dict.sorted_ofList _).ext hsorted fun name ↦ ?_
    rcases hvalue : (Dict.ofList (t.keys.entries hash (t.keys.range.bind key.get?))).get? name
      with _ | value
    · have hnot : ¬ key.has name = true := by
        rw [hnames, ← KeyNames.names_entries hsame, ← Dict.has_ofList_iff, Dict.has, hvalue]
        exact Bool.false_ne_true
      exact (Option.not_isSome_iff_eq_none.mp hnot).symm
    · exact (hentries _ (Dict.mem_ofList (Dict.mem_of_get? hvalue))).symm

/-- Other attributes do not matter for the check. -/
theorem checkItemKeys_merge {item extra : Item}
    (h : ∀ entry ∈ extra, entry.1 ∉ t.keys.toList) :
    t.checkItemKeys (Dict.merge item extra) = t.checkItemKeys item := by
  refine checkItemKeys_congr fun name hname ↦ ?_
  have hnone : (Dict.ofList extra).get? name = none := by
    refine Option.eq_none_iff_forall_ne_some.mpr fun value hvalue ↦ ?_
    exact h _ (Dict.mem_ofList (Dict.mem_of_get? hvalue)) hname
  rw [Dict.get?_merge, hnone, Option.none_or]

end TableDescriptor

/-- **Built and checked keys.** A key is built exactly if a range value is given where the key schema
has a range element and nowhere else, and the values have the types that their attributes are
declared with. It has the key attributes of the table with these values and nothing else, and passes
the check of items. Every dictionary with just the key attributes that passes the check is built from
its own values, and no other attribute makes a difference to the check. -/
theorem keys_built_as_checked {d : TableDescription} {t : TableDescriptor}
    (h : TableDescriptor.ofDescription d = .ok t) :
    (d.FirstWithRole .hash t.keys.hash ∧
      ∀ name, d.FirstWithRole .range name ↔ t.keys.range = some name) ∧
    (∀ hash range, (∃ key, t.buildKey hash range = .ok key) ↔
      (range.isSome = true ↔ ∃ element ∈ d.keySchema, element.keyType = .range) ∧
      (∀ name, d.FirstWithRole .hash name → d.Allows name hash) ∧
      ∀ name value, d.FirstWithRole .range name → range = some value → d.Allows name value) ∧
    (∀ hash range key, t.buildKey hash range = .ok key →
      key.Sorted ∧ (∀ name, key.has name = true ↔ d.IsKeyAttribute name) ∧
      (∀ name, d.FirstWithRole .range name → key.get? name = range) ∧
      (∀ name, d.FirstWithRole .hash name → ¬ d.FirstWithRole .range name →
        key.get? name = some hash) ∧
      t.checkItemKeys key = .ok ()) ∧
    (∀ key : Key, key.Sorted → (∀ name, key.has name = true ↔ d.IsKeyAttribute name) →
      t.checkItemKeys key = .ok () → ∃ hash, key.get? t.keys.hash = some hash ∧
        t.buildKey hash (t.keys.range.bind key.get?) = .ok key) ∧
    ∀ item extra : Item, (∀ entry ∈ extra, ¬ d.IsKeyAttribute entry.1) →
      t.checkItemKeys (Dict.merge item extra) = t.checkItemKeys item := by
  refine ⟨⟨(TableDescriptor.firstWithRole_hash_iff h).mpr rfl, fun name ↦
    TableDescriptor.firstWithRole_range_iff h⟩, ?_⟩
  simp only [TableDescriptor.firstWithRole_hash_iff h, TableDescriptor.firstWithRole_range_iff h,
    TableDescriptor.isKeyAttribute_iff h, ← TableDescriptor.isSome_range_iff h,
    ← TableDescriptor.checkKeyType_eq_ok_iff_allows h]
  refine ⟨fun hash range ↦ ?_, fun hash range key hkey ↦ ?_,
    fun key hsorted hnames hchecked ↦ ?_, fun item extra hextra ↦ ?_⟩
  · rw [TableDescriptor.exists_buildKey_iff, Bool.eq_iff_iff]
    simp only [forall_eq']
  · refine ⟨TableDescriptor.sorted_of_buildKey hkey,
      fun name ↦ TableDescriptor.has_of_buildKey hkey,
      fun name hname ↦ TableDescriptor.get?_range_of_buildKey hkey hname, ?_,
      TableDescriptor.checkItemKeys_of_buildKey hkey⟩
    rintro _ rfl hne
    exact TableDescriptor.get?_hash_of_buildKey hkey hne
  · exact TableDescriptor.exists_buildKey_of_checkItemKeys hsorted hnames hchecked
  · exact TableDescriptor.checkItemKeys_merge hextra

/-! ## A description with repetitions -/

private def repeatedDescription : TableDescription where
  tableName := some "threads"
  keySchema := [⟨"subject", .range⟩, ⟨"forum", .hash⟩, ⟨"author", .hash⟩]
  attributeDefinitions := [⟨"forum", .n⟩, ⟨"forum", .s⟩]

private def repeatedTable : TableDescriptor :=
  ⟨"threads", ⟨"forum", some "subject"⟩, [("forum", .s)], []⟩

/-- The range element stands first, there are two hash elements, and one attribute is defined twice
and another not at all. -/
theorem repeated_description_builds_checked_keys :
    let key : Key := [("forum", .string "f"), ("subject", .bool true)]
    TableDescriptor.ofDescription repeatedDescription = .ok repeatedTable ∧
      repeatedTable.buildKey (.string "f") (some (.bool true)) = .ok key ∧
      repeatedTable.checkItemKeys key = .ok () ∧
      (¬ ∃ key, repeatedTable.buildKey (.number "1") (some (.bool true)) = .ok key) ∧
      repeatedTable.checkItemKeys (Dict.merge key [("author", .number "1")]) = .ok () := by
  intro key
  have hrepeated : TableDescriptor.ofDescription repeatedDescription = .ok repeatedTable := rfl
  have hbuilt : repeatedTable.buildKey (.string "f") (some (.bool true)) = .ok key := rfl
  obtain ⟨⟨hhash, -⟩, hiff, hkeys, -, hextra⟩ := keys_built_as_checked hrepeated
  obtain ⟨-, hnames, -, -, hchecked⟩ := hkeys _ _ key hbuilt
  refine ⟨hrepeated, hbuilt, hchecked, ?_, ?_⟩
  · rw [hiff]
    rintro ⟨-, hallowed, -⟩
    have htype : repeatedDescription.Declares "forum" .s :=
      ⟨[⟨"forum", .n⟩], [], rfl, List.forall_mem_nil _⟩
    cases hallowed "forum" hhash .s htype
  · rw [hextra key _ ?_]
    · exact hchecked
    · intro entry hentry
      obtain rfl := List.mem_singleton.mp hentry
      rw [← hnames]
      decide

end TableClient
