import TableClient.Payload.Output
import TableClient.Proofs.Dict

/-!
# Merged answers

The answers to the parts of a batch are merged from left to right. What the merged answer reports is
what the answers report, one after another: table by table where a report is by table (`Gathers`).

The keys that were not reached are merged like lists under names; what to return of their items is
kept beside them and does not change the keys.
-/

namespace TableClient

/-! ## Lists under names -/

namespace Dict

variable {α : Type}

/-- The list under a name, empty if there is none. -/
def listUnder (d : Dict (List α)) (name : String) : List α :=
  (d.get? name).getD []

/-- All lists under a name, one after another. A dictionary that was read from a document may have
more than one of them. -/
def allUnder (d : Dict (List α)) (name : String) : List α :=
  d.flatMap fun entry ↦ if entry.1 = name then entry.2 else []

theorem allUnder_cons (entry : String × List α) (d : Dict (List α)) (name : String) :
    Dict.allUnder (entry :: d) name =
      (if entry.1 = name then entry.2 else []) ++ d.allUnder name :=
  List.flatMap_cons

theorem allUnder_singleton (name : String) (items : List α) :
    Dict.allUnder [(name, items)] name = items := by
  rw [allUnder_cons, if_pos rfl]
  exact List.append_nil items

theorem listUnder_insert (d : Dict (List α)) (name other : String) (items : List α) :
    (d.insert name items).listUnder other =
      if name = other then items else d.listUnder other := by
  rw [listUnder, get?_insert]
  by_cases hname : name = other
  · rw [if_pos hname, if_pos hname.symm]
    rfl
  · rw [if_neg hname, if_neg (Ne.symm hname)]
    rfl

theorem listUnder_appendLists (d e : Dict (List α)) (name : String) :
    (d.appendLists e).listUnder name = d.listUnder name ++ e.allUnder name := by
  induction e generalizing d with
  | nil => exact (List.append_nil _).symm
  | cons entry e ih =>
    have hcons : d.appendLists (entry :: e) =
        (d.insert entry.1 (d.listUnder entry.1 ++ entry.2)).appendLists e := rfl
    rw [hcons, ih, listUnder_insert, allUnder_cons]
    by_cases hname : entry.1 = name
    · rw [if_pos hname, if_pos hname, hname, List.append_assoc]
    · rw [if_neg hname, if_neg hname, List.nil_append]

end Dict

/-- The keys that were not reached, by table. -/
def KeysAndAttributes.pending (d : Dict KeysAndAttributes) : Dict (List Key) :=
  d.mapValues (·.keys)

theorem KeysAndAttributes.pending_appendKeys (d e : Dict KeysAndAttributes) :
    pending (appendKeys d e) = (pending d).appendLists (pending e) := by
  induction e generalizing d with
  | nil => rfl
  | cons entry e ih =>
    obtain ⟨table, asked⟩ := entry
    -- the entry of the table changes in its keys only, or is a new one
    have hentry : pending (appendKeys d [(table, asked)]) =
        (pending d).insert table ((pending d).listUnder table ++ asked.keys) := by
      rw [Dict.listUnder, pending, pending, Dict.get?_mapValues]
      cases hknown : d.get? table with
      | none =>
        have hinsert : appendKeys d [(table, asked)] = d.insert table asked := by
          simp only [appendKeys, List.foldl, hknown]
        rw [hinsert, Dict.mapValues_insert]
        rfl
      | some known =>
        have hinsert : appendKeys d [(table, asked)] =
            d.insert table { known with keys := known.keys ++ asked.keys } := by
          simp only [appendKeys, List.foldl, hknown]
        rw [hinsert, Dict.mapValues_insert]
        rfl
    calc pending (appendKeys d ((table, asked) :: e))
        = pending (appendKeys (appendKeys d [(table, asked)]) e) := rfl
      _ = (pending (appendKeys d [(table, asked)])).appendLists (pending e) := ih _
      _ = ((pending d).insert table ((pending d).listUnder table ++ asked.keys)).appendLists
            (pending e) := by rw [hentry]
      _ = (pending d).appendLists (pending ((table, asked) :: e)) := rfl

/-! ## Answers -/

/-- A report of merged answers that one answer adds to is that of all of them. -/
theorem foldl_report {ο β : Type} {merge : ο → ο → ο} {added : ο → List β} (report : ο → List β)
    (h : ∀ a b, report (merge a b) = report a ++ added b) (outputs : List ο) (a : ο) :
    report (outputs.foldl merge a) = report a ++ outputs.flatMap added := by
  induction outputs generalizing a with
  | nil => exact (List.append_nil _).symm
  | cons output outputs ih =>
    rw [List.foldl_cons, ih, h, List.flatMap_cons, List.append_assoc]

/-- The answer to a batch of reads reports all that these answers report, in their order. -/
structure BatchGetItemOutput.Gathers (merged : BatchGetItemOutput)
    (outputs : List BatchGetItemOutput) : Prop where
  responses : ∀ table, merged.responses.listUnder table =
    outputs.flatMap (·.responses.allUnder table)
  unprocessedKeys : ∀ table, (KeysAndAttributes.pending merged.unprocessedKeys).listUnder table =
    outputs.flatMap fun output ↦ (KeysAndAttributes.pending output.unprocessedKeys).allUnder table
  consumedCapacity : merged.consumedCapacity = outputs.flatMap (·.consumedCapacity)

theorem BatchGetItemOutput.gathers_foldl (outputs : List BatchGetItemOutput) :
    (outputs.foldl merge {}).Gathers outputs where
  responses table := by
    refine foldl_report (·.responses.listUnder table) (fun a b ↦ ?_) outputs {}
    exact Dict.listUnder_appendLists _ _ _
  unprocessedKeys table := by
    refine foldl_report
      (fun output ↦ (KeysAndAttributes.pending output.unprocessedKeys).listUnder table)
      (fun a b ↦ ?_) outputs {}
    rw [merge, KeysAndAttributes.pending_appendKeys, Dict.listUnder_appendLists]
  consumedCapacity := foldl_report (·.consumedCapacity) (fun _ _ ↦ rfl) outputs {}

/-- The answer to a batch of writes reports all that these answers report, in their order. -/
structure BatchWriteItemOutput.Gathers (merged : BatchWriteItemOutput)
    (outputs : List BatchWriteItemOutput) : Prop where
  unprocessedItems : ∀ table, merged.unprocessedItems.listUnder table =
    outputs.flatMap (·.unprocessedItems.allUnder table)
  itemCollectionMetrics : ∀ table, merged.itemCollectionMetrics.listUnder table =
    outputs.flatMap (·.itemCollectionMetrics.allUnder table)
  consumedCapacity : merged.consumedCapacity = outputs.flatMap (·.consumedCapacity)

theorem BatchWriteItemOutput.gathers_foldl (outputs : List BatchWriteItemOutput) :
    (outputs.foldl merge {}).Gathers outputs where
  unprocessedItems table := by
    refine foldl_report (·.unprocessedItems.listUnder table) (fun a b ↦ ?_) outputs {}
    exact Dict.listUnder_appendLists _ _ _
  itemCollectionMetrics table := by
    refine foldl_report (·.itemCollectionMetrics.listUnder table) (fun a b ↦ ?_) outputs {}
    exact Dict.listUnder_appendLists _ _ _
  consumedCapacity := foldl_report (·.consumedCapacity) (fun _ _ ↦ rfl) outputs {}

end TableClient
