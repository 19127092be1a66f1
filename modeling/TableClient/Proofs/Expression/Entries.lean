import TableClient.Expression.FromMap
import TableClient.Proofs.Dict
import TableClient.Proofs.Except

/-!
# Maps mean what their entries mean

The entries of a map come in any order, and a dictionary takes them in the order of their names. So
what a map is read as does not depend on how its entries are given. Each entry is read by itself, and
of those that cannot be read the one with the smallest name is reported. What is read is joined from
the left (`Condition.LeftJoined`); under every evaluation the nesting is of no account, and the
condition says that all entries hold, or that one of them does (`Condition.holds`).
-/

namespace TableClient

/-! ## Entries in the order of their names -/

namespace Dict

variable {α β ε : Type}

/-- There is one result for each entry, and they come in ascending order of the names. -/
def InNameOrder (reads : String × α → β → Prop) (entries : List (String × α))
    (results : List β) : Prop :=
  ∃ ordered : Dict α, List.Perm ordered entries ∧ ordered.Sorted ∧
    List.Forall₂ reads ordered results

/-- Of the entries that fail, the one with the smallest name fails like this. -/
def FirstFailure (own : String → α → Except ε β) (entries : List (String × α)) (e : ε) : Prop :=
  ∃ entry ∈ entries, own entry.1 entry.2 = .error e ∧
    ∀ other ∈ entries, other.1 < entry.1 → ∃ result, own other.1 other.2 = .ok result

variable {own : String → α → Except ε β} {entries : List (String × α)}

theorem mapM_ofList_eq_ok_iff (h : (names entries).Nodup) {results : List β} :
    List.mapM (fun entry ↦ own entry.1 entry.2) (ofList entries) = .ok results ↔
      InNameOrder (fun entry result ↦ own entry.1 entry.2 = .ok result) entries results := by
  rw [Except.mapM_eq_ok_iff]
  constructor
  · intro hresults
    exact ⟨ofList entries, perm_ofList h, sorted_ofList entries, hresults⟩
  · rintro ⟨ordered, hperm, hsorted, hresults⟩
    rwa [← (eq_ofList_iff h).mpr ⟨hperm, hsorted⟩]

theorem mapM_ofList_eq_error_iff (h : (names entries).Nodup) {e : ε} :
    List.mapM (fun entry ↦ own entry.1 entry.2) (ofList entries) = .error e ↔
      FirstFailure own entries e := by
  have hsorted := sorted_ofList entries
  have hmem (entry : String × α) : entry ∈ ofList entries ↔ entry ∈ entries :=
    (perm_ofList h).mem_iff
  rw [Except.mapM_eq_error_iff]
  constructor
  · rintro ⟨before, entry, after, heq, hbefore, hfails⟩
    rw [heq] at hsorted hmem
    obtain ⟨hafter, -⟩ := List.pairwise_cons.mp (List.pairwise_append.mp hsorted).2.1
    refine ⟨entry, (hmem entry).mp (by simp), hfails, fun other hother hlt ↦ ?_⟩
    -- what does not come before the failing entry has no smaller name
    rcases List.mem_append.mp ((hmem other).mpr hother) with hother | hother
    · exact hbefore other hother
    · rcases List.mem_cons.mp hother with rfl | hother
      · exact absurd hlt (String.lt_irrefl _)
      · exact absurd hlt (String.lt_asymm (hafter other hother))
  · rintro ⟨entry, hentry, hfails, hsmaller⟩
    obtain ⟨before, after, heq⟩ := List.append_of_mem ((hmem entry).mpr hentry)
    rw [heq] at hsorted hmem
    refine ⟨before, entry, after, heq, fun earlier hearlier ↦ hsmaller earlier ?_ ?_, hfails⟩
    · exact (hmem earlier).mp (List.mem_append_left _ hearlier)
    · exact (List.pairwise_append.mp hsorted).2.2 earlier hearlier entry List.mem_cons_self

theorem exists_mapM_ofList_eq_error_iff (h : (names entries).Nodup) :
    (∃ e, List.mapM (fun entry ↦ own entry.1 entry.2) (ofList entries) = .error e) ↔
      ∃ entry ∈ entries, ∃ e, own entry.1 entry.2 = .error e := by
  rw [Except.exists_eq_error_iff, Except.exists_mapM_eq_ok_iff]
  simp only [(perm_ofList h).mem_iff, Except.exists_eq_error_iff, not_forall, exists_prop]

end Dict

/-! ## Joined conditions -/

namespace Condition

variable {ν α : Type}

/-- Whether the condition is true, given what is true of the comparisons, memberships and functions
in it. -/
def holds (truth : Condition ν α → Bool) : Condition ν α → Bool
  | .logical .and left right => left.holds truth && right.holds truth
  | .logical .or left right => left.holds truth || right.holds truth
  | .not inner => !inner.holds truth
  | c => truth c

/-- The conditions joined from the left: each one is joined with all that come before it. -/
inductive LeftJoined (op : LogicalOp) : List (Condition ν α) → Condition ν α → Prop
  | single (c : Condition ν α) : LeftJoined op [c] c
  | next {cs : List (Condition ν α)} {joined : Condition ν α} (h : LeftJoined op cs joined)
      (c : Condition ν α) : LeftJoined op (cs ++ [c]) (.logical op joined c)

namespace LeftJoined

variable {op : LogicalOp} {cs : List (Condition ν α)} {c : Condition ν α}

theorem foldl (op : LogicalOp) (c : Condition ν α) (cs : List (Condition ν α)) :
    LeftJoined op (c :: cs) (cs.foldl (.logical op) c) := by
  induction cs using List.reverseRecOn with
  | nil => exact .single c
  | append_singleton cs last ih =>
    rw [List.foldl_append]
    exact ih.next last

theorem eq_foldl (h : LeftJoined op cs c) :
    ∃ first rest, cs = first :: rest ∧ c = rest.foldl (.logical op) first := by
  induction h with
  | single c => exact ⟨c, [], rfl, rfl⟩
  | next _ last ih =>
    obtain ⟨first, rest, rfl, rfl⟩ := ih
    refine ⟨first, rest ++ [last], rfl, ?_⟩
    rw [List.foldl_append]
    rfl

/-- A conjunction is true exactly if all its parts are. -/
theorem holds_and_iff {truth : Condition ν α → Bool} (h : LeftJoined .and cs c) :
    c.holds truth = true ↔ ∀ part ∈ cs, part.holds truth = true := by
  induction h with
  | single c => rw [List.forall_mem_singleton]
  | next _ last ih =>
    rw [holds, Bool.and_eq_true, ih, List.forall_mem_append, List.forall_mem_singleton]

/-- A disjunction is true exactly if one of its parts is. -/
theorem holds_or_iff {truth : Condition ν α → Bool} (h : LeftJoined .or cs c) :
    c.holds truth = true ↔ ∃ part ∈ cs, part.holds truth = true := by
  induction h with
  | single c => simp only [List.mem_singleton, exists_eq_left]
  | next _ last ih =>
    rw [holds, Bool.or_eq_true, ih]
    simp only [List.mem_append, or_and_right, exists_or, List.mem_singleton, exists_eq_left]

end LeftJoined

/-- The operator between the conditions of entries. -/
def joiningOp (op : Option ConditionalOperator) : LogicalOp :=
  if op = some .or then .or else .and

variable {op : Option ConditionalOperator} {cs : List (Condition String AttributeValue)}
  {c : Condition String AttributeValue}

theorem join_cons (first : Condition String AttributeValue)
    (rest : List (Condition String AttributeValue)) :
    join op (first :: rest) = some (rest.foldl (.logical (joiningOp op)) first) := by
  rw [join, joiningOp]
  split <;> rfl

theorem join_eq_none_iff : join op cs = none ↔ cs = [] := by
  cases cs <;> simp [join]

theorem join_eq_some_iff : join op cs = some c ↔ LeftJoined (joiningOp op) cs c := by
  constructor
  · intro h
    rcases cs with _ | ⟨first, rest⟩
    · cases h
    · rw [join_cons] at h
      exact Option.some.inj h ▸ .foldl _ first rest
  · intro h
    obtain ⟨first, rest, rfl, rfl⟩ := h.eq_foldl
    exact join_cons first rest

end Condition

/-! ## What is read in the order of the names -/

namespace Dict.InNameOrder

variable {α β ε : Type} {own : String → α → Except ε β} {entries : List (String × α)}
  {results : List β}

theorem eq_nil_iff (h : InNameOrder (fun entry result ↦ own entry.1 entry.2 = .ok result) entries
    results) : results = [] ↔ entries = [] := by
  obtain ⟨ordered, hperm, -, hresults⟩ := h
  rw [Except.eq_nil_iff_of_mapM_eq_ok (Except.mapM_eq_ok_iff.mpr hresults)]
  constructor
  · rintro rfl
    exact hperm.symm.eq_nil
  · rintro rfl
    exact hperm.eq_nil

theorem mem_iff (h : InNameOrder (fun entry result ↦ own entry.1 entry.2 = .ok result) entries
    results) {result : β} : result ∈ results ↔ ∃ entry ∈ entries, own entry.1 entry.2 = .ok result := by
  obtain ⟨ordered, hperm, -, hresults⟩ := h
  rw [Except.mem_iff_of_mapM_eq_ok (Except.mapM_eq_ok_iff.mpr hresults)]
  simp only [hperm.mem_iff]

theorem exists_mem (h : InNameOrder (fun entry result ↦ own entry.1 entry.2 = .ok result) entries
    results) {entry : String × α} (hentry : entry ∈ entries) :
    ∃ result ∈ results, own entry.1 entry.2 = .ok result := by
  have hresults := h
  obtain ⟨ordered, hperm, -, hordered⟩ := hresults
  obtain ⟨result, hresult⟩ := Except.exists_mapM_eq_ok_iff.mp
    ⟨results, Except.mapM_eq_ok_iff.mpr hordered⟩ entry (hperm.mem_iff.mpr hentry)
  exact ⟨result, h.mem_iff.mpr ⟨entry, hentry, hresult⟩, hresult⟩

end Dict.InNameOrder

/-! ## Maps of conditions -/

namespace Condition

variable {α : Type} {own : String → α → Except ExpressionError (Condition String AttributeValue)}
  {op : Option ConditionalOperator} {entries : List (String × α)}

/-- What comes of a map of conditions with these entries: nothing if there are none, the failure of
the first entry that fails, and else the entries' own conditions, joined from the left. It is true
if all of them are, or one of them where the operator is `or`. -/
structure JoinsEntries
    (own : String → α → Except ExpressionError (Condition String AttributeValue))
    (op : Option ConditionalOperator) (entries : List (String × α))
    (result : Except ExpressionError (Option (Condition String AttributeValue))) : Prop where
  none_iff : result = .ok none ↔ entries = []
  fails_iff : (∃ e, result = .error e) ↔ ∃ entry ∈ entries, ∃ e, own entry.1 entry.2 = .error e
  error_iff (e : ExpressionError) : result = .error e ↔ Dict.FirstFailure own entries e
  some_iff (c : Condition String AttributeValue) : result = .ok (some c) ↔
    ∃ conditions, LeftJoined (joiningOp op) conditions c ∧
      Dict.InNameOrder (fun entry condition ↦ own entry.1 entry.2 = .ok condition) entries conditions
  all_of_and (c : Condition String AttributeValue) (truth : Condition String AttributeValue → Bool) :
    result = .ok (some c) → op ≠ some .or → (c.holds truth = true ↔
      ∀ entry ∈ entries, ∃ condition, own entry.1 entry.2 = .ok condition ∧
        condition.holds truth = true)
  any_of_or (c : Condition String AttributeValue) (truth : Condition String AttributeValue → Bool) :
    result = .ok (some c) → op = some .or → (c.holds truth = true ↔
      ∃ entry ∈ entries, ∃ condition, own entry.1 entry.2 = .ok condition ∧
        condition.holds truth = true)

theorem joinsEntries (h : (Dict.names entries).Nodup) : JoinsEntries own op entries
    ((List.mapM (fun entry ↦ own entry.1 entry.2) (Dict.ofList entries)).map (join op)) := by
  have hsome (c : Condition String AttributeValue) :
      (List.mapM (fun entry ↦ own entry.1 entry.2) (Dict.ofList entries)).map (join op) =
        .ok (some c) ↔ ∃ conditions, LeftJoined (joiningOp op) conditions c ∧
          Dict.InNameOrder (fun entry condition ↦ own entry.1 entry.2 = .ok condition) entries
            conditions := by
    rw [Except.map_eq_ok_iff]
    simp only [Dict.mapM_ofList_eq_ok_iff h, join_eq_some_iff, and_comm]
  constructor
  case none_iff =>
    rw [Except.map_eq_ok_iff]
    simp only [Dict.mapM_ofList_eq_ok_iff h, join_eq_none_iff]
    constructor
    · rintro ⟨conditions, hconditions, hnil⟩
      exact hconditions.eq_nil_iff.mp hnil
    · rintro rfl
      exact ⟨[], ⟨[], .nil, .nil, .nil⟩, rfl⟩
  case fails_iff =>
    simp only [Except.map_eq_error_iff]
    exact Dict.exists_mapM_ofList_eq_error_iff h
  case error_iff =>
    intro e
    rw [Except.map_eq_error_iff, Dict.mapM_ofList_eq_error_iff h]
  case some_iff => exact hsome
  case all_of_and =>
    intro c truth hc hop
    obtain ⟨conditions, hjoined, hconditions⟩ := (hsome c).mp hc
    rw [joiningOp, if_neg hop] at hjoined
    rw [hjoined.holds_and_iff]
    constructor
    · intro hall entry hentry
      obtain ⟨condition, hmem, hown⟩ := hconditions.exists_mem hentry
      exact ⟨condition, hown, hall condition hmem⟩
    · intro hall condition hmem
      obtain ⟨entry, hentry, hown⟩ := hconditions.mem_iff.mp hmem
      obtain ⟨condition', hown', hholds⟩ := hall entry hentry
      exact Except.ok.inj (hown.symm.trans hown') ▸ hholds
  case any_of_or =>
    intro c truth hc hop
    obtain ⟨conditions, hjoined, hconditions⟩ := (hsome c).mp hc
    rw [joiningOp, if_pos hop] at hjoined
    rw [hjoined.holds_or_iff]
    constructor
    · rintro ⟨condition, hmem, hholds⟩
      obtain ⟨entry, hentry, hown⟩ := hconditions.mem_iff.mp hmem
      exact ⟨entry, hentry, condition, hown, hholds⟩
    · rintro ⟨entry, hentry, condition, hown, hholds⟩
      exact ⟨condition, hconditions.mem_iff.mpr ⟨entry, hentry, hown⟩, hholds⟩

end Condition

/-! ## Maps of changes -/

namespace UpdateEntry

variable {entry : UpdateEntry} {name : String} {action : UpdateAction String AttributeValue}

/-- The action that an entry stands for. Without an action of its own the entry replaces the
attribute, and a deletion without value removes it. -/
inductive Means (name : String) : UpdateEntry → UpdateAction String AttributeValue → Prop
  | replace (value : AttributeValue) :
      Means name { value := some value } (.set ⟨name, []⟩ (.operand (.literal value)))
  | put (value : AttributeValue) : Means name { value := some value, action := some .put }
      (.set ⟨name, []⟩ (.operand (.literal value)))
  | add (value : AttributeValue) : Means name { value := some value, action := some .add }
      (.add ⟨name, []⟩ value)
  | delete (value : AttributeValue) : Means name { value := some value, action := some .delete }
      (.delete ⟨name, []⟩ value)
  | remove : Means name { action := some .delete } (.remove ⟨name, []⟩)

theorem updateAction_eq_ok_iff : entry.updateAction name = .ok action ↔ entry.Means name action := by
  constructor
  · intro h
    obtain ⟨_ | value, _ | _ | _ | _⟩ := entry
    all_goals cases h
    · exact .remove
    · exact .replace value
    · exact .put value
    · exact .delete value
    · exact .add value
  · intro h
    cases h <;> rfl

theorem exists_updateAction_eq_error_iff : (∃ e, entry.updateAction name = .error e) ↔
    entry.value = none ∧
      (entry.action = none ∨ entry.action = some .put ∨ entry.action = some .add) := by
  obtain ⟨_ | value, _ | _ | _ | _⟩ := entry <;> simp [updateAction]

end UpdateEntry

/-- **Maps and their entries.** The entries of a map have different names and may be given in any
order. A filter and a map of expectations are nothing exactly if they have no entries, fail exactly
if an entry does, like the failing one with the smallest name, and are else the conditions of their
entries, joined from the left in ascending order of the names: all of them have to hold, or one of
them where the operator is `or`. A map of changes has one action for each entry in ascending order of
the names, and fails exactly if an entry that replaces or adds has no value. -/
theorem maps_mean_their_entries :
    (∀ (filter : List (String × ConditionEntry)) (op : Option ConditionalOperator),
      (Dict.names filter).Nodup →
        Condition.JoinsEntries ConditionEntry.condition op filter
          (Condition.ofFilter (Dict.ofList filter) op) ∧
        ∀ filter' : List (String × ConditionEntry), filter'.Perm filter →
          Condition.ofFilter (Dict.ofList filter') op =
            Condition.ofFilter (Dict.ofList filter) op) ∧
    (∀ (expected : List (String × ExpectedEntry)) (op : Option ConditionalOperator),
      (Dict.names expected).Nodup →
        Condition.JoinsEntries ExpectedEntry.condition op expected
          (Condition.ofExpected (Dict.ofList expected) op) ∧
        ∀ expected' : List (String × ExpectedEntry), expected'.Perm expected →
          Condition.ofExpected (Dict.ofList expected') op =
            Condition.ofExpected (Dict.ofList expected) op) ∧
    ∀ updates : List (String × UpdateEntry), (Dict.names updates).Nodup →
      (∀ actions, UpdateAction.ofMap (Dict.ofList updates) = .ok actions ↔
        Dict.InNameOrder (fun entry action ↦ entry.2.Means entry.1 action) updates actions) ∧
      ((∃ e, UpdateAction.ofMap (Dict.ofList updates) = .error e) ↔
        ∃ entry ∈ updates, entry.2.value = none ∧
          (entry.2.action = none ∨ entry.2.action = some .put ∨ entry.2.action = some .add)) ∧
      (∀ e, UpdateAction.ofMap (Dict.ofList updates) = .error e ↔
        Dict.FirstFailure UpdateEntry.updateAction updates e) ∧
      ∀ updates' : List (String × UpdateEntry), updates'.Perm updates →
        UpdateAction.ofMap (Dict.ofList updates') = UpdateAction.ofMap (Dict.ofList updates) := by
  refine ⟨fun filter op h ↦ ⟨Condition.joinsEntries h, fun filter' hperm ↦ ?_⟩,
    fun expected op h ↦ ⟨Condition.joinsEntries h, fun expected' hperm ↦ ?_⟩, fun updates h ↦ ?_⟩
  · rw [Dict.ofList_eq_of_perm h hperm]
  · rw [Dict.ofList_eq_of_perm h hperm]
  · have hmap : UpdateAction.ofMap (Dict.ofList updates) =
        List.mapM (fun entry ↦ UpdateEntry.updateAction entry.1 entry.2) (Dict.ofList updates) := rfl
    refine ⟨fun actions ↦ ?_, ?_, fun e ↦ ?_, fun updates' hperm ↦ ?_⟩
    · rw [hmap, Dict.mapM_ofList_eq_ok_iff h]
      simp only [UpdateEntry.updateAction_eq_ok_iff]
    · rw [hmap, Dict.exists_mapM_ofList_eq_error_iff h]
      simp only [UpdateEntry.exists_updateAction_eq_error_iff]
    · rw [hmap, Dict.mapM_ofList_eq_error_iff h]
    · rw [Dict.ofList_eq_of_perm h hperm]

/-- A filter whose last name is given first, two expectations that cannot be read, and a deletion
that is given before an addition. -/
theorem shuffled_maps_read_in_name_order :
    let filter : List (String × ConditionEntry) := [("views", ⟨.notNull, []⟩),
      ("forum", ⟨.eq, [.string "f"]⟩), ("subject", ⟨.beginsWith, [.string "s"]⟩)]
    let joined : Condition String AttributeValue :=
      ((Path.equals ⟨"forum", []⟩ (.string "f")).and
        (Path.beginsWith ⟨"subject", []⟩ (.literal (.string "s")))).and (Path.present ⟨"views", []⟩)
    let expected : List (String × ExpectedEntry) :=
      [("b", {}), ("a", { value := some (.string "x"), present := some false })]
    let updates : List (String × UpdateEntry) := [("title", { action := some .delete }),
      ("replies", { value := some (.number "1"), action := some .add })]
    Condition.ofFilter (Dict.ofList filter) none = .ok (some joined) ∧
    (∀ truth, joined.holds truth = true ↔ ∀ entry ∈ filter, ∃ condition,
      entry.2.condition entry.1 = .ok condition ∧ condition.holds truth = true) ∧
    Condition.ofExpected (Dict.ofList expected) (some .or) =
      .error (.invalidOperand (.valueOfAbsent "a")) ∧
    Dict.FirstFailure ExpectedEntry.condition expected (.invalidOperand (.valueOfAbsent "a")) ∧
    UpdateAction.ofMap (Dict.ofList updates.reverse) =
      .ok [.add ⟨"replies", []⟩ (.number "1"), .remove ⟨"title", []⟩] := by
  intro filter joined expected updates
  obtain ⟨hfilter, hexpected, hupdates⟩ := maps_mean_their_entries
  obtain ⟨hjoins, -⟩ := hfilter filter none (by decide)
  have hjoined : Condition.ofFilter (Dict.ofList filter) none = .ok (some joined) := by rfl
  obtain ⟨hfails, -⟩ := hexpected expected (some .or) (by decide)
  have hfailed : Condition.ofExpected (Dict.ofList expected) (some .or) =
      .error (.invalidOperand (.valueOfAbsent "a")) := by rfl
  obtain ⟨hactions, -, -, hany⟩ := hupdates updates (by decide)
  refine ⟨hjoined, fun truth ↦ hjoins.all_of_and joined truth hjoined (by decide), hfailed,
    (hfails.error_iff _).mp hfailed, ?_⟩
  rw [hany updates.reverse (List.reverse_perm updates), hactions]
  refine ⟨updates.reverse, List.reverse_perm updates, ?_, .cons (.add _) (.cons .remove .nil)⟩
  exact List.pairwise_pair.mpr (by decide)

end TableClient
