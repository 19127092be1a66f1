import TableClient.Proofs.Request.Routing

/-!
# The order of the map for the sort key

The map for the sort key is visited in the order of a hash map, which is any order, and the first
entry that is refused decides. An accepted map has one entry at most, so the requests that are made
do not depend on the order. A failure does as soon as two entries are refused: their failures differ,
and each one comes first in some order.
-/

namespace TableClient

namespace Request

variable {table : TableDescriptor} {config : ClientConfig} {hash : AttributeValue}
  {o : QueryOptions} {keys : KeyNames} {entries entries' : List (String × ConditionEntry)}
  {e : ClientError}

/-! ## Entries -/

/-- What an entry of the map for the sort key comes to. -/
def sortOfEntry (keys : KeyNames) (entry : String × ConditionEntry) :
    Checked (Condition String AttributeValue) :=
  if keys.range = some entry.1 then Checked.expression (entry.2.keyCondition entry.1)
  else .error (.validation (.keyConditionOff entry.1))

theorem sortOfMap_eq (keys : KeyNames) (entries : List (String × ConditionEntry)) :
    sortOfMap keys entries = (entries.mapM (sortOfEntry keys)).map List.getLast? := by
  -- what the entries so far have come to counts only if there is no further entry
  suffices h : ∀ sort, entries.foldlM (fun _ entry ↦ some <$> sortOfEntry keys entry) sort =
      (entries.mapM (sortOfEntry keys)).map fun conditions ↦ conditions.getLast?.or sort by
    have hstep : sortOfMap keys entries =
        entries.foldlM (fun _ entry ↦ some <$> sortOfEntry keys entry) none := by
      refine congrArg (fun step ↦ entries.foldlM step none) (funext₂ fun _ entry ↦ ?_)
      obtain ⟨name, entry⟩ := entry
      by_cases hrange : keys.range = some name
      · simp only [sortOfEntry, if_pos hrange]
      · simp only [sortOfEntry, if_neg hrange]
        rfl
    rw [hstep, h]
    simp only [Option.or_none]
  induction entries with
  | nil => exact fun _ ↦ rfl
  | cons entry entries ih =>
    intro sort
    rw [List.foldlM_cons, List.mapM_cons]
    cases sortOfEntry keys entry with
    | error => rfl
    | ok c =>
      refine (ih (some c)).trans ?_
      cases entries.mapM (sortOfEntry keys) with
      | error => rfl
      | ok conditions =>
        refine congrArg Except.ok ?_
        dsimp only
        rw [List.getLast?_cons]
        cases conditions.getLast? <;> rfl

/-- Refused entries with different names are refused differently. -/
theorem fst_eq_of_sortOfEntry_eq_error {a b : String × ConditionEntry}
    (ha : sortOfEntry keys a = .error e) (hb : sortOfEntry keys b = .error e) : a.1 = b.1 := by
  rw [sortOfEntry] at ha hb
  split at ha
  · next harange =>
    obtain ⟨_, -, rfl⟩ := Except.mapError_eq_error_iff.mp ha
    split at hb
    · next hbrange => exact Option.some.inj (harange.symm.trans hbrange)
    · cases hb
  · obtain rfl := Except.error.inj ha
    split at hb
    · obtain ⟨_, -, heq⟩ := Except.mapError_eq_error_iff.mp hb
      cases heq
    · have hfault := ClientError.validation.inj (Except.error.inj hb)
      exact (ValidationFault.keyConditionOff.inj hfault).symm

/-! ## Maps -/

theorem exists_mem_of_sortOfMap_eq_error (h : sortOfMap keys entries = .error e) :
    ∃ entry ∈ entries, sortOfEntry keys entry = .error e := by
  rw [sortOfMap_eq, Except.map_eq_error_iff, Except.mapM_eq_error_iff] at h
  obtain ⟨before, entry, after, rfl, -, hentry⟩ := h
  exact ⟨entry, List.mem_append_right _ (.head _), hentry⟩

theorem exists_sortOfMap_eq_error {entry : String × ConditionEntry} (hmem : entry ∈ entries)
    (hentry : sortOfEntry keys entry = .error e) : ∃ e', sortOfMap keys entries = .error e' := by
  rw [Except.exists_eq_error_iff, sortOfMap_eq]
  rintro ⟨_, hok⟩
  obtain ⟨_, hconditions, -⟩ := Except.map_eq_ok_iff.mp hok
  obtain ⟨c, hc⟩ := Except.exists_mapM_eq_ok_iff.mp ⟨_, hconditions⟩ entry hmem
  cases hc.symm.trans hentry

/-- The failures of a map in all orders are the failures of its entries. -/
theorem exists_perm_sortOfMap_eq_error_iff :
    (∃ ordered, List.Perm ordered entries ∧ sortOfMap keys ordered = .error e) ↔
      ∃ entry ∈ entries, sortOfEntry keys entry = .error e := by
  constructor
  · rintro ⟨ordered, hperm, h⟩
    obtain ⟨entry, hmem, hentry⟩ := exists_mem_of_sortOfMap_eq_error h
    exact ⟨entry, hperm.mem_iff.mp hmem, hentry⟩
  · rintro ⟨entry, hmem, hentry⟩
    obtain ⟨before, after, rfl⟩ := List.append_of_mem hmem
    refine ⟨entry :: (before ++ after), List.perm_middle.symm, ?_⟩
    rw [sortOfMap_eq, Except.map_eq_error_iff, Except.mapM_eq_error_iff]
    exact ⟨[], entry, _, rfl, List.forall_mem_nil _, hentry⟩

/-- An accepted map has one order. -/
theorem eq_of_perm_of_sortOfMap_eq_ok (hdistinct : (entries.map Prod.fst).Nodup)
    {sort : Option (Condition String AttributeValue)} (h : sortOfMap keys entries = .ok sort)
    (hperm : List.Perm entries' entries) : entries' = entries := by
  obtain ⟨rfl, -⟩ | ⟨_, _, _, rfl, -⟩ := sortOfMap_cases hdistinct h
  · exact List.perm_nil.mp hperm
  · exact List.perm_singleton.mp hperm

/-- A map with one refused entry at most does not depend on the order. -/
theorem sortOfMap_eq_of_perm (hdistinct : (entries.map Prod.fst).Nodup)
    (hunique : ∀ a ∈ entries, ∀ b ∈ entries, ∀ ea eb, sortOfEntry keys a = .error ea →
      sortOfEntry keys b = .error eb → a = b)
    (hperm : List.Perm entries' entries) : sortOfMap keys entries' = sortOfMap keys entries := by
  cases h : sortOfMap keys entries with
  | ok sort => rw [eq_of_perm_of_sortOfMap_eq_ok hdistinct h hperm, h]
  | error e =>
    obtain ⟨a, ha, hea⟩ := exists_mem_of_sortOfMap_eq_error h
    obtain ⟨e', h'⟩ := exists_sortOfMap_eq_error (hperm.mem_iff.mpr ha) hea
    obtain ⟨b, hb, heb⟩ := exists_mem_of_sortOfMap_eq_error h'
    obtain rfl := hunique a ha b (hperm.mem_iff.mp hb) e e' hea heb
    rw [h', Except.error.inj (heb.symm.trans hea)]

/-! ## Queries -/

/-- The query looks at the map for the sort key, with these names of the keys: nothing before that
is refused, and the condition on the sort key is not given as a tree. -/
structure ReadsMap (table : TableDescriptor) (hash : AttributeValue) (o : QueryOptions)
    (keys : KeyNames) : Prop where
  indexKeys : table.indexKeys o.indexName = .ok keys
  hashType : table.checkKeyType keys.hash hash = .ok ()
  forms : checkQueryForms o = .ok ()
  filter : ∃ given, resolveFilter o.filterCondition o.queryFilter o.conditionalOperator = .ok given
  rangeKeyCondition : o.rangeKeyCondition = none

theorem checkQueryForms_of_perm (hperm : List.Perm entries o.keyConditions) :
    checkQueryForms { o with keyConditions := entries } = checkQueryForms o := by
  rw [checkQueryForms, checkQueryForms, hperm.isEmpty_eq]

theorem query_eq_error (hreads : ReadsMap table hash o keys)
    (hperm : List.Perm entries o.keyConditions) (h : sortOfMap keys entries = .error e) :
    query table config hash { o with keyConditions := entries } = .error e := by
  obtain ⟨given, hgiven⟩ := hreads.filter
  have hforms := (checkQueryForms_of_perm hperm).trans hreads.forms
  have hroute : routeConditions keys { o with keyConditions := entries } given = .error e := by
    simp only [routeConditions, hreads.rangeKeyCondition, h]
    rfl
  refine Except.bind_eq_error_iff.mpr (.inr ⟨keys, hreads.indexKeys, ?_⟩)
  refine Except.bind_eq_error_iff.mpr (.inr ⟨(), hreads.hashType, ?_⟩)
  refine Except.bind_eq_error_iff.mpr (.inr ⟨(), hforms, ?_⟩)
  refine Except.bind_eq_error_iff.mpr (.inr ⟨given, hgiven, ?_⟩)
  exact Except.bind_eq_error_iff.mpr (.inl hroute)

/-- Orders in which the map comes to the same make the same query. -/
theorem query_congr_of_perm (hperm : List.Perm entries o.keyConditions)
    (h : ∀ keys, ReadsMap table hash o keys →
      sortOfMap keys entries = sortOfMap keys o.keyConditions) :
    query table config hash { o with keyConditions := entries } = query table config hash o := by
  rw [query, query, checkQueryForms_of_perm hperm]
  refine Except.bind_congr fun keys hkeys ↦ ?_
  refine Except.bind_congr fun _ htype ↦ ?_
  refine Except.bind_congr fun _ hforms ↦ ?_
  refine Except.bind_congr fun given hgiven ↦ ?_
  have hroute : routeConditions keys { o with keyConditions := entries } given =
      routeConditions keys o given := by
    cases hrangeKey : o.rangeKeyCondition with
    | some => simp only [routeConditions, hrangeKey]
    | none =>
      have hmap := h keys ⟨hkeys, htype, hforms, ⟨given, hgiven⟩, hrangeKey⟩
      simp only [routeConditions, hrangeKey, hmap]
  rw [hroute]

/-- A request that is made in one order of the map is made in every order. -/
theorem query_eq_ok_of_perm (hdistinct : (o.keyConditions.map Prod.fst).Nodup) {i : QueryInput}
    (h : query table config hash o = .ok i) (hperm : List.Perm entries o.keyConditions) :
    query table config hash { o with keyConditions := entries } = .ok i := by
  refine (query_congr_of_perm hperm fun keys hreads ↦ ?_).trans h
  cases hmap : sortOfMap keys o.keyConditions with
  | ok sort => rw [eq_of_perm_of_sortOfMap_eq_ok hdistinct hmap hperm, hmap]
  | error e =>
    have herror : query table config hash o = .error e := query_eq_error hreads (.refl _) hmap
    cases herror.symm.trans h

/-- What the query may fail with is what an entry is refused with. -/
theorem exists_perm_query_eq_error_iff (hreads : ReadsMap table hash o keys)
    (hrefused : ∃ entry ∈ o.keyConditions, ∃ e, sortOfEntry keys entry = .error e) :
    (∃ entries, List.Perm entries o.keyConditions ∧
      query table config hash { o with keyConditions := entries } = .error e) ↔
      ∃ entry ∈ o.keyConditions, sortOfEntry keys entry = .error e := by
  rw [← exists_perm_sortOfMap_eq_error_iff]
  refine exists_congr fun entries ↦ and_congr_right fun hperm ↦ ?_
  obtain ⟨entry, hmem, _, hentry⟩ := hrefused
  obtain ⟨e', hmap⟩ := exists_sortOfMap_eq_error (hperm.mem_iff.mpr hmem) hentry
  rw [query_eq_error hreads hperm hmap, hmap]
  simp only [Except.error.injEq]

/-- Some order shows exactly if the map is looked at and two of its entries are refused. -/
theorem exists_perm_query_ne_iff (hdistinct : (o.keyConditions.map Prod.fst).Nodup) :
    (∃ entries entries', List.Perm entries o.keyConditions ∧ List.Perm entries' o.keyConditions ∧
      query table config hash { o with keyConditions := entries } ≠
        query table config hash { o with keyConditions := entries' }) ↔
      ∃ keys, ReadsMap table hash o keys ∧ ∃ a ∈ o.keyConditions, ∃ b ∈ o.keyConditions, a ≠ b ∧
        (∃ e, sortOfEntry keys a = .error e) ∧ ∃ e, sortOfEntry keys b = .error e := by
  constructor
  · rintro ⟨entries, entries', hperm, hperm', hne⟩
    by_contra hnone
    have hsame {ordered : List (String × ConditionEntry)}
        (hordered : List.Perm ordered o.keyConditions) :
        query table config hash { o with keyConditions := ordered } = query table config hash o := by
      refine query_congr_of_perm hordered fun keys hreads ↦ ?_
      refine sortOfMap_eq_of_perm hdistinct (fun a ha b hb ea eb hea heb ↦ ?_) hordered
      by_contra hab
      exact hnone ⟨keys, hreads, a, ha, b, hb, hab, ⟨ea, hea⟩, eb, heb⟩
    exact hne ((hsame hperm).trans (hsame hperm').symm)
  · rintro ⟨keys, hreads, a, ha, b, hb, hne, ⟨ea, hea⟩, eb, heb⟩
    obtain ⟨entries, hperm, hmap⟩ := exists_perm_sortOfMap_eq_error_iff.mpr ⟨a, ha, hea⟩
    obtain ⟨entries', hperm', hmap'⟩ := exists_perm_sortOfMap_eq_error_iff.mpr ⟨b, hb, heb⟩
    refine ⟨entries, entries', hperm, hperm', ?_⟩
    rw [query_eq_error hreads hperm hmap, query_eq_error hreads hperm' hmap']
    intro heq
    obtain rfl := Except.error.inj heq
    exact hne (List.inj_on_of_nodup_map hdistinct ha hb (fst_eq_of_sortOfEntry_eq_error hea heb))

end Request

open Request (ReadsMap sortOfEntry)

/-- **Order of the map for the sort key.** A request that is made does not depend on the order in
which the map is visited. Failures are the same in all orders unless the query comes to look at the
map and two entries of it are refused; then each refused entry decides in some order. -/
theorem query_depends_on_map_order_iff {table : TableDescriptor} {config : ClientConfig}
    {hash : AttributeValue} {o : QueryOptions} (hdistinct : (o.keyConditions.map Prod.fst).Nodup) :
    let run (entries : List (String × ConditionEntry)) :=
      Request.query table config hash { o with keyConditions := entries }
    (∀ entries entries' i, entries.Perm o.keyConditions → entries'.Perm o.keyConditions →
      run entries = .ok i → run entries' = .ok i) ∧
    ((∃ entries entries', entries.Perm o.keyConditions ∧ entries'.Perm o.keyConditions ∧
        run entries ≠ run entries') ↔
      ∃ keys, ReadsMap table hash o keys ∧ ∃ a ∈ o.keyConditions, ∃ b ∈ o.keyConditions, a ≠ b ∧
        (∃ e, sortOfEntry keys a = .error e) ∧ ∃ e, sortOfEntry keys b = .error e) ∧
    ∀ keys, ReadsMap table hash o keys →
      (∃ a ∈ o.keyConditions, ∃ e, sortOfEntry keys a = .error e) →
      ∀ e, (∃ entries, entries.Perm o.keyConditions ∧ run entries = .error e) ↔
        ∃ a ∈ o.keyConditions, sortOfEntry keys a = .error e := by
  intro run
  refine ⟨fun entries entries' i hperm hperm' h ↦ ?_, Request.exists_perm_query_ne_iff hdistinct,
    fun keys hreads hrefused e ↦ Request.exists_perm_query_eq_error_iff hreads hrefused⟩
  have hdistinct' : (entries.map Prod.fst).Nodup :=
    (hperm.map Prod.fst).nodup_iff.mpr hdistinct
  exact Request.query_eq_ok_of_perm (o := { o with keyConditions := entries }) hdistinct' h
    (hperm'.trans hperm.symm)

/-! ## Entries off the range key -/

private def messages : TableDescriptor :=
  ⟨"things", ⟨"ForumName", some "Subject"⟩, [("ForumName", .s), ("Subject", .s)], []⟩

/-- Next to an entry on the range key, one entry off it is reported in any order. -/
theorem single_entry_off_range_key_reported_in_any_order :
    let subject : String × ConditionEntry := ("Subject", ⟨.eq, [.string "a"]⟩)
    let views : String × ConditionEntry := ("Views", ⟨.eq, [.number "1"]⟩)
    ∀ entries, entries.Perm [subject, views] →
      Request.query messages {} (.string "F") { keyConditions := entries } =
        .error (.validation (.keyConditionOff "Views")) := by
  intro subject views entries hperm
  obtain ⟨-, hshows, -⟩ := @query_depends_on_map_order_iff messages {} (.string "F")
    { keyConditions := [subject, views] } (by decide)
  by_contra hne
  obtain ⟨keys, hreads, hrefused⟩ := hshows.mp ⟨entries, [subject, views], hperm, .refl _, hne⟩
  obtain rfl : messages.keys = keys := Except.ok.inj hreads.indexKeys
  -- the entry on the range key is not refused
  have hviews (entry : String × ConditionEntry) (hmem : entry ∈ [subject, views])
      (hentry : ∃ e, sortOfEntry messages.keys entry = .error e) : entry = views := by
    obtain rfl | hmem := List.mem_cons.mp hmem
    · obtain ⟨_, hentry⟩ := hentry
      cases hentry
    · exact List.mem_singleton.mp hmem
  obtain ⟨a, ha, b, hb, hab, hea, heb⟩ := hrefused
  exact hab ((hviews a ha hea).trans (hviews b hb heb).symm)

/-- Of two entries off the range key the first one is reported, with a text of its own. -/
theorem entries_off_range_key_reported_in_map_order :
    let subject : String × ConditionEntry := ("Subject", ⟨.eq, [.string "a"]⟩)
    let tags : String × ConditionEntry := ("Tags", ⟨.eq, [.string "t"]⟩)
    let views : String × ConditionEntry := ("Views", ⟨.eq, [.number "1"]⟩)
    let run (entries : List (String × ConditionEntry)) :=
      Request.query messages {} (.string "F") { keyConditions := entries }
    ([subject, views, tags].Perm [subject, tags, views] ∧
      run [subject, tags, views] = .error (.validation (.keyConditionOff "Tags")) ∧
      run [subject, views, tags] = .error (.validation (.keyConditionOff "Views")) ∧
      (ClientError.validation (.keyConditionOff "Tags")).message ≠
        (ClientError.validation (.keyConditionOff "Views")).message) ∧
    ¬ ∀ entries entries', entries.Perm [subject, tags, views] →
      entries'.Perm [subject, tags, views] → run entries = run entries' := by
  intro subject tags views run
  have hperm : [subject, views, tags].Perm [subject, tags, views] := (List.Perm.swap _ _ _).cons _
  refine ⟨⟨hperm, rfl, rfl, by decide⟩, fun hsame ↦ ?_⟩
  have heq : run [subject, tags, views] = run [subject, views, tags] := hsame _ _ (.refl _) hperm
  have hfault := ClientError.validation.inj (Except.error.inj heq)
  exact absurd (ValidationFault.keyConditionOff.inj hfault) (by decide)

end TableClient
