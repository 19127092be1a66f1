import Mathlib.Data.List.Basic
import TableClient.Payload.Output
import TableClient.Proofs.Dict

/-!
# Laws of merged answers

Merging puts the dictionaries of two answers together name by name (`Dict.mergeWith`): what stands
under a name afterwards depends on what stood under it in the two, and on nothing else. Dictionaries
in order are determined by what stands under their names, so the laws of merging come from those of
the operation on single entries, which is associative for lists and for unreached keys alike.

The entries of the second answer are visited one by one. Their order is that of a hash map, hence any
order; since the names differ, it makes no difference (`MergeLaws.reordered`).
-/

namespace TableClient

/-! ## Dictionaries merged name by name -/

namespace Dict

variable {α : Type}

/-- Both dictionaries together, with `f` where both have an entry. -/
def mergeWith (f : α → α → α) (d e : Dict α) : Dict α :=
  e.foldl (fun d (name, value) ↦ d.insert name ((d.get? name).elim value (f · value))) d

theorem appendLists_eq_mergeWith (d e : Dict (List α)) :
    d.appendLists e = mergeWith (· ++ ·) d e := by
  refine List.foldl_ext _ _ _ fun d entry _ ↦ congrArg (d.insert entry.1) ?_
  cases d.get? entry.1 <;> rfl

variable (f : α → α → α)

theorem get?_mergeWith (d : Dict α) {e : Dict α} (he : e.names.Nodup) (name : String) :
    (mergeWith f d e).get? name = Option.merge f (d.get? name) (e.get? name) := by
  induction e generalizing d with
  | nil => exact Option.merge_none_right.symm
  | cons entry e ih =>
    obtain ⟨hnew, hrest⟩ := List.nodup_cons.mp he
    rw [mergeWith, List.foldl_cons, ← mergeWith, ih _ hrest, get?_insert, get?]
    by_cases hname : name = entry.1
    · rw [if_pos hname, if_pos hname.symm, hname, get?_eq_none_iff.mpr hnew,
        Option.merge_none_right]
      cases d.get? entry.1 <;> rfl
    · rw [if_neg hname, if_neg (Ne.symm hname)]

theorem sorted_mergeWith {d : Dict α} (hd : d.Sorted) (e : Dict α) : (mergeWith f d e).Sorted := by
  induction e generalizing d with
  | nil => exact hd
  | cons entry e ih => exact ih (sorted_insert hd _ _)

variable {d e w : Dict α}

theorem mergeWith_assoc [Std.Associative f] (hd : d.Sorted) (he : e.Sorted) (hw : w.Sorted) :
    mergeWith f (mergeWith f d e) w = mergeWith f d (mergeWith f e w) := by
  have hew := sorted_mergeWith f he w
  refine Sorted.ext (sorted_mergeWith f (sorted_mergeWith f hd e) w) (sorted_mergeWith f hd _)
    fun name ↦ ?_
  rw [get?_mergeWith f _ hw.nodup_names, get?_mergeWith f _ he.nodup_names,
    get?_mergeWith f _ hew.nodup_names, get?_mergeWith f _ hw.nodup_names]
  exact Option.associative_merge f |>.assoc _ _ _

theorem nil_mergeWith (he : e.Sorted) : mergeWith f [] e = e := by
  refine Sorted.ext (sorted_mergeWith f .nil e) he fun name ↦ ?_
  rw [get?_mergeWith f _ he.nodup_names, get?_nil, Option.merge_none_left]

/-- The order in which the entries are visited makes no difference. -/
theorem mergeWith_eq_of_perm (hd : d.Sorted) {e e' : Dict α} (he : e.names.Nodup)
    (hperm : List.Perm e' e) : mergeWith f d e' = mergeWith f d e := by
  have he' : e'.names.Nodup := (hperm.map Prod.fst).nodup_iff.mpr he
  refine Sorted.ext (sorted_mergeWith f hd e') (sorted_mergeWith f hd e) fun name ↦ ?_
  have hget : e'.get? name = e.get? name := Option.ext fun value ↦ by
    rw [get?_eq_some_iff he', get?_eq_some_iff he, hperm.mem_iff]
  rw [get?_mergeWith f _ he', get?_mergeWith f _ he, hget]

/-- The values put together from the left, if there is one. -/
def reduce? : List α → Option α
  | [] => none
  | first :: later => some (later.foldl f first)

theorem reduce?_concat (values : List α) (value : α) :
    reduce? f (values ++ [value]) = Option.merge f (reduce? f values) (some value) := by
  cases values with
  | nil => rfl
  | cons first later => simp [reduce?]

/-- Under a name all that stands under it, put together from the left. -/
theorem get?_foldl_mergeWith (es : List (Dict α)) (hes : ∀ e ∈ es, e.names.Nodup) (name : String) :
    (es.foldl (mergeWith f) []).get? name = reduce? f (es.filterMap (·.get? name)) := by
  induction es using List.reverseRecOn with
  | nil => rfl
  | append_singleton es e ih =>
    obtain ⟨hes, he⟩ := List.forall_mem_append.mp hes
    rw [List.foldl_append, List.foldl_cons, List.foldl_nil,
      get?_mergeWith f _ (he e (List.mem_singleton_self e)), ih hes, List.filterMap_append]
    cases hvalue : e.get? name with
    | none => simp [hvalue]
    | some value => simp [hvalue, reduce?_concat]

theorem reduce?_append (lists : List (List α)) :
    reduce? (· ++ ·) lists = if lists = [] then none else some lists.flatten := by
  cases lists with
  | nil => rfl
  | cons first later =>
    rw [if_neg (List.cons_ne_nil _ _), List.flatten_cons]
    induction later generalizing first with
    | nil => exact congrArg some (List.append_nil first).symm
    | cons list later ih =>
      rw [List.flatten_cons, ← List.append_assoc]
      exact ih (first ++ list)

end Dict

namespace KeysAndAttributes

/-- The keys of both; what to return of the items is what the first one says. -/
def addKeys (known pending : KeysAndAttributes) : KeysAndAttributes :=
  { known with keys := known.keys ++ pending.keys }

instance : Std.Associative addKeys where
  assoc _ _ _ := by
    simp only [addKeys, List.append_assoc]

theorem appendKeys_eq_mergeWith (d e : Dict KeysAndAttributes) :
    appendKeys d e = Dict.mergeWith addKeys d e := by
  refine List.foldl_ext _ _ _ fun d entry _ ↦ ?_
  cases hknown : d.get? entry.1 <;> simp only [hknown] <;> rfl

theorem reduce?_addKeys (entries : List KeysAndAttributes) :
    Dict.reduce? addKeys entries = match entries with
      | [] => none
      | first :: later => some { first with keys := first.keys ++ later.flatMap (·.keys) } := by
  cases entries with
  | nil => rfl
  | cons first later =>
    refine congrArg some ?_
    induction later generalizing first with
    | nil => simp
    | cons pending later ih =>
      rw [List.foldl_cons, ih, List.flatMap_cons, ← List.append_assoc]
      rfl

end KeysAndAttributes

/-! ## Laws -/

/-- Merging is a monoid on answers whose dictionaries are in order, and does not depend on the order
in which the entries of the second answer are visited. -/
structure MergeLaws {ο : Type} (merge : ο → ο → ο) (empty : ο) (Ordered : ο → Prop)
    (Reordered : ο → ο → Prop) : Prop where
  ordered_empty : Ordered empty
  ordered_merge : ∀ a b, Ordered a → Ordered b → Ordered (merge a b)
  assoc : ∀ a b c, Ordered a → Ordered b → Ordered c →
    merge (merge a b) c = merge a (merge b c)
  empty_merge : ∀ a, Ordered a → merge empty a = a
  merge_empty : ∀ a, merge a empty = a
  reordered : ∀ a b b', Ordered a → Ordered b → Reordered b' b → merge a b' = merge a b

namespace MergeLaws

variable {ο : Type} {merge : ο → ο → ο} {empty : ο} {Ordered : ο → Prop}
  {Reordered : ο → ο → Prop} {outputs outputs' : List ο}

/-- Answers merged one after another do not depend on the orders in which they are visited. -/
theorem foldl_reordered (h : MergeLaws merge empty Ordered Reordered) {a : ο} (ha : Ordered a)
    (houtputs : ∀ output ∈ outputs, Ordered output)
    (hreordered : List.Forall₂ Reordered outputs' outputs) :
    outputs'.foldl merge a = outputs.foldl merge a := by
  induction hreordered generalizing a with
  | nil => rfl
  | cons houtput _ ih =>
    obtain ⟨hfirst, hlater⟩ := List.forall_mem_cons.mp houtputs
    rw [List.foldl_cons, List.foldl_cons, h.reordered _ _ _ ha hfirst houtput]
    exact ih (h.ordered_merge _ _ ha hfirst) hlater

end MergeLaws

/-! ## Reads -/

namespace BatchGetItemOutput

/-- The dictionaries list their entries in order. -/
structure Ordered (a : BatchGetItemOutput) : Prop where
  responses : a.responses.Sorted
  unprocessedKeys : a.unprocessedKeys.Sorted

/-- The two have the same content, with the entries of the dictionaries in other orders. -/
structure Reordered (a b : BatchGetItemOutput) : Prop where
  responses : List.Perm a.responses b.responses
  unprocessedKeys : List.Perm a.unprocessedKeys b.unprocessedKeys
  consumedCapacity : a.consumedCapacity = b.consumedCapacity

theorem merge_eq (a b : BatchGetItemOutput) : a.merge b =
    { responses := Dict.mergeWith (· ++ ·) a.responses b.responses
      unprocessedKeys :=
        Dict.mergeWith KeysAndAttributes.addKeys a.unprocessedKeys b.unprocessedKeys
      consumedCapacity := a.consumedCapacity ++ b.consumedCapacity } := by
  rw [merge, Dict.appendLists_eq_mergeWith, KeysAndAttributes.appendKeys_eq_mergeWith]

theorem mergeLaws : MergeLaws merge {} Ordered Reordered where
  ordered_empty := ⟨.nil, .nil⟩
  ordered_merge a b ha _ := by
    rw [merge_eq]
    exact ⟨Dict.sorted_mergeWith _ ha.responses _, Dict.sorted_mergeWith _ ha.unprocessedKeys _⟩
  assoc a b c ha hb hc := by
    simp only [merge_eq, List.append_assoc,
      Dict.mergeWith_assoc _ ha.responses hb.responses hc.responses,
      Dict.mergeWith_assoc _ ha.unprocessedKeys hb.unprocessedKeys hc.unprocessedKeys]
  empty_merge a ha := by
    simp only [merge_eq, List.nil_append, Dict.nil_mergeWith _ ha.responses,
      Dict.nil_mergeWith _ ha.unprocessedKeys]
  merge_empty a := by
    simp only [merge_eq, List.append_nil]
    rfl
  reordered a b b' ha hb h := by
    simp only [merge_eq, h.consumedCapacity,
      Dict.mergeWith_eq_of_perm _ ha.responses hb.responses.nodup_names h.responses,
      Dict.mergeWith_eq_of_perm _ ha.unprocessedKeys hb.unprocessedKeys.nodup_names
        h.unprocessedKeys]

/-- The answer has, table by table, what these answers have, one after another. -/
structure Collects (merged : BatchGetItemOutput) (outputs : List BatchGetItemOutput) : Prop where
  responses : ∀ table, let mentions := outputs.filterMap (·.responses.get? table)
    merged.responses.get? table = if mentions = [] then none else some mentions.flatten
  /-- What to return of the items is what the first answer with the table says. -/
  unprocessedKeys : ∀ table, merged.unprocessedKeys.get? table =
    match outputs.filterMap (·.unprocessedKeys.get? table) with
    | [] => none
    | first :: later => some { first with keys := first.keys ++ later.flatMap (·.keys) }
  consumedCapacity : merged.consumedCapacity = outputs.flatMap (·.consumedCapacity)

theorem foldl_merge (outputs : List BatchGetItemOutput) : outputs.foldl merge {} =
    { responses := (outputs.map (·.responses)).foldl (Dict.mergeWith (· ++ ·)) []
      unprocessedKeys :=
        (outputs.map (·.unprocessedKeys)).foldl (Dict.mergeWith KeysAndAttributes.addKeys) []
      consumedCapacity := outputs.flatMap (·.consumedCapacity) } := by
  induction outputs using List.reverseRecOn with
  | nil => rfl
  | append_singleton outputs output ih => simp [ih, merge_eq]

theorem collects_foldl {outputs : List BatchGetItemOutput}
    (h : ∀ output ∈ outputs, output.Ordered) : (outputs.foldl merge {}).Collects outputs := by
  have hresponses : ∀ e ∈ outputs.map (·.responses), e.names.Nodup :=
    List.forall_mem_map.mpr fun output houtput ↦ (h output houtput).responses.nodup_names
  have hkeys : ∀ e ∈ outputs.map (·.unprocessedKeys), e.names.Nodup :=
    List.forall_mem_map.mpr fun output houtput ↦ (h output houtput).unprocessedKeys.nodup_names
  rw [foldl_merge]
  refine ⟨fun table ↦ ?_, fun table ↦ ?_, rfl⟩
  · rw [Dict.get?_foldl_mergeWith _ _ hresponses, Dict.reduce?_append, List.filterMap_map]
    rfl
  · rw [Dict.get?_foldl_mergeWith _ _ hkeys, KeysAndAttributes.reduce?_addKeys,
      List.filterMap_map]
    rfl

end BatchGetItemOutput

/-! ## Writes -/

namespace BatchWriteItemOutput

/-- The dictionaries list their entries in order. -/
structure Ordered (a : BatchWriteItemOutput) : Prop where
  unprocessedItems : a.unprocessedItems.Sorted
  itemCollectionMetrics : a.itemCollectionMetrics.Sorted

/-- The two have the same content, with the entries of the dictionaries in other orders. -/
structure Reordered (a b : BatchWriteItemOutput) : Prop where
  unprocessedItems : List.Perm a.unprocessedItems b.unprocessedItems
  itemCollectionMetrics : List.Perm a.itemCollectionMetrics b.itemCollectionMetrics
  consumedCapacity : a.consumedCapacity = b.consumedCapacity

theorem merge_eq (a b : BatchWriteItemOutput) : a.merge b =
    { unprocessedItems := Dict.mergeWith (· ++ ·) a.unprocessedItems b.unprocessedItems
      itemCollectionMetrics :=
        Dict.mergeWith (· ++ ·) a.itemCollectionMetrics b.itemCollectionMetrics
      consumedCapacity := a.consumedCapacity ++ b.consumedCapacity } := by
  rw [merge, Dict.appendLists_eq_mergeWith, Dict.appendLists_eq_mergeWith]

theorem mergeLaws : MergeLaws merge {} Ordered Reordered where
  ordered_empty := ⟨.nil, .nil⟩
  ordered_merge a b ha _ := by
    rw [merge_eq]
    exact ⟨Dict.sorted_mergeWith _ ha.unprocessedItems _,
      Dict.sorted_mergeWith _ ha.itemCollectionMetrics _⟩
  assoc a b c ha hb hc := by
    simp only [merge_eq, List.append_assoc,
      Dict.mergeWith_assoc _ ha.unprocessedItems hb.unprocessedItems hc.unprocessedItems,
      Dict.mergeWith_assoc _ ha.itemCollectionMetrics hb.itemCollectionMetrics
        hc.itemCollectionMetrics]
  empty_merge a ha := by
    simp only [merge_eq, List.nil_append, Dict.nil_mergeWith _ ha.unprocessedItems,
      Dict.nil_mergeWith _ ha.itemCollectionMetrics]
  merge_empty a := by
    simp only [merge_eq, List.append_nil]
    rfl
  reordered a b b' ha hb h := by
    simp only [merge_eq, h.consumedCapacity,
      Dict.mergeWith_eq_of_perm _ ha.unprocessedItems hb.unprocessedItems.nodup_names
        h.unprocessedItems,
      Dict.mergeWith_eq_of_perm _ ha.itemCollectionMetrics hb.itemCollectionMetrics.nodup_names
        h.itemCollectionMetrics]

/-- The answer has, table by table, what these answers have, one after another. -/
structure Collects (merged : BatchWriteItemOutput) (outputs : List BatchWriteItemOutput) :
    Prop where
  unprocessedItems : ∀ table, let mentions := outputs.filterMap (·.unprocessedItems.get? table)
    merged.unprocessedItems.get? table = if mentions = [] then none else some mentions.flatten
  itemCollectionMetrics : ∀ table,
    let mentions := outputs.filterMap (·.itemCollectionMetrics.get? table)
    merged.itemCollectionMetrics.get? table = if mentions = [] then none else some mentions.flatten
  consumedCapacity : merged.consumedCapacity = outputs.flatMap (·.consumedCapacity)

theorem foldl_merge (outputs : List BatchWriteItemOutput) : outputs.foldl merge {} =
    { unprocessedItems := (outputs.map (·.unprocessedItems)).foldl (Dict.mergeWith (· ++ ·)) []
      itemCollectionMetrics :=
        (outputs.map (·.itemCollectionMetrics)).foldl (Dict.mergeWith (· ++ ·)) []
      consumedCapacity := outputs.flatMap (·.consumedCapacity) } := by
  induction outputs using List.reverseRecOn with
  | nil => rfl
  | append_singleton outputs output ih => simp [ih, merge_eq]

theorem collects_foldl {outputs : List BatchWriteItemOutput}
    (h : ∀ output ∈ outputs, output.Ordered) : (outputs.foldl merge {}).Collects outputs := by
  have hitems : ∀ e ∈ outputs.map (·.unprocessedItems), e.names.Nodup :=
    List.forall_mem_map.mpr fun output houtput ↦ (h output houtput).unprocessedItems.nodup_names
  have hmetrics : ∀ e ∈ outputs.map (·.itemCollectionMetrics), e.names.Nodup :=
    List.forall_mem_map.mpr fun output houtput ↦
      (h output houtput).itemCollectionMetrics.nodup_names
  rw [foldl_merge]
  refine ⟨fun table ↦ ?_, fun table ↦ ?_, rfl⟩
  · rw [Dict.get?_foldl_mergeWith _ _ hitems, Dict.reduce?_append, List.filterMap_map]
    rfl
  · rw [Dict.get?_foldl_mergeWith _ _ hmetrics, Dict.reduce?_append, List.filterMap_map]
    rfl

end BatchWriteItemOutput

/-- **Merged answers.** For answers to batches of reads and of writes alike, merging is associative,
with the empty answer neutral on both sides. Merging a list of answers gives for every table what
all of them have of it, in their order, and the orders in which hash maps are visited never show. -/
theorem merging_answers_is_monoid_and_collects :
    (MergeLaws BatchGetItemOutput.merge {} BatchGetItemOutput.Ordered
        BatchGetItemOutput.Reordered ∧
      ∀ outputs : List BatchGetItemOutput, (∀ output ∈ outputs, output.Ordered) →
        (outputs.foldl BatchGetItemOutput.merge {}).Collects outputs ∧
        ∀ outputs', List.Forall₂ BatchGetItemOutput.Reordered outputs' outputs →
          outputs'.foldl BatchGetItemOutput.merge {} =
            outputs.foldl BatchGetItemOutput.merge {}) ∧
    (MergeLaws BatchWriteItemOutput.merge {} BatchWriteItemOutput.Ordered
        BatchWriteItemOutput.Reordered ∧
      ∀ outputs : List BatchWriteItemOutput, (∀ output ∈ outputs, output.Ordered) →
        (outputs.foldl BatchWriteItemOutput.merge {}).Collects outputs ∧
        ∀ outputs', List.Forall₂ BatchWriteItemOutput.Reordered outputs' outputs →
          outputs'.foldl BatchWriteItemOutput.merge {} =
            outputs.foldl BatchWriteItemOutput.merge {}) := by
  have hreads := BatchGetItemOutput.mergeLaws
  have hwrites := BatchWriteItemOutput.mergeLaws
  refine ⟨⟨hreads, fun outputs houtputs ↦ ?_⟩, hwrites, fun outputs houtputs ↦ ?_⟩
  · exact ⟨BatchGetItemOutput.collects_foldl houtputs,
      fun _ ↦ hreads.foldl_reordered hreads.ordered_empty houtputs⟩
  · exact ⟨BatchWriteItemOutput.collects_foldl houtputs,
      fun _ ↦ hwrites.foldl_reordered hwrites.ordered_empty houtputs⟩

/-- Two answers have keys of one table with different projections, and the second one has keys of
another table. The second one's entries may be visited in either order. -/
theorem first_projection_kept_in_either_order :
    let asked (key projection : String) : KeysAndAttributes :=
      { keys := [[("Id", .string key)]], projectionExpression := some projection }
    let first : BatchGetItemOutput := { unprocessedKeys := [("B", asked "1" "X")] }
    let second : BatchGetItemOutput :=
      { unprocessedKeys := [("A", asked "2" "Y"), ("B", asked "3" "Z")] }
    let reversed : BatchGetItemOutput :=
      { unprocessedKeys := [("B", asked "3" "Z"), ("A", asked "2" "Y")] }
    first.Ordered ∧ second.Ordered ∧
    ([first, second].foldl BatchGetItemOutput.merge {}).unprocessedKeys.get? "B" =
      some { keys := [[("Id", .string "1")], [("Id", .string "3")]],
             projectionExpression := some "X" } ∧
    [first, reversed].foldl BatchGetItemOutput.merge {} =
      [first, second].foldl BatchGetItemOutput.merge {} := by
  intro asked first second reversed
  have hfirst : first.Ordered := ⟨.nil, List.pairwise_singleton _ _⟩
  have hsecond : second.Ordered := ⟨.nil, List.pairwise_pair.mpr (by decide)⟩
  have hswap : reversed.Reordered second := ⟨.nil, .swap _ _ _, rfl⟩
  have hsame : first.Reordered first := ⟨.nil, .refl _, rfl⟩
  obtain ⟨⟨-, hcollects⟩, -⟩ := merging_answers_is_monoid_and_collects
  obtain ⟨hcollected, horder⟩ := hcollects [first, second]
    (List.forall_mem_cons.mpr ⟨hfirst, List.forall_mem_singleton.mpr hsecond⟩)
  refine ⟨hfirst, hsecond, hcollected.unprocessedKeys "B", ?_⟩
  exact horder _ (.cons hsame (.cons hswap .nil))

end TableClient
