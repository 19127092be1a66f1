import Mathlib.Data.List.Basic
import TableClient.Client.World
import TableClient.Proofs.Scan.Documents

/-!
# A table that a service holds

What a scan can rely on where the table does not change: the service has its rows in one order
(`HeldTable`), and answers a request for a page with the matching ones of some rows that follow on
the start of the request, as many as it likes up to the limit (`HeldTable.ServedBy`). The page names
the last row it evaluated, unless that is the last one of all.

What is left after a page is what follows on the row that it names
(`HeldTable.after?_of_evaluated`). This is where the keys have to be distinct, and none of them
empty: the empty key stands for the beginning.
-/

namespace TableClient

/-! ## Rows -/

/-- An item that a service holds: its key, and what a scan returns of it if it matches. -/
structure Row where
  key : Key
  shown : Option Item

namespace Row

/-- What a scan returns of some rows. -/
def allShown (rows : List Row) : List Item :=
  rows.filterMap shown

/-- The rows after the one with a key, if there is one. -/
def after? (key : Key) : List Row → Option (List Row)
  | [] => none
  | row :: rest => if row.key = key then some rest else after? key rest

theorem after?_append {before : List Row} {row : Row} (hnew : row.key ∉ before.map Row.key)
    (rest : List Row) : after? row.key (before ++ row :: rest) = some rest := by
  induction before with
  | nil => exact if_pos rfl
  | cons row' before ih =>
    rw [List.map_cons, List.mem_cons, not_or] at hnew
    rw [List.cons_append, after?, if_neg (Ne.symm hnew.1)]
    exact ih hnew.2

theorem suffix_of_after? {key : Key} {rows rest : List Row} (h : after? key rows = some rest) :
    rest <:+ rows := by
  induction rows with
  | nil => cases h
  | cons row rows ih =>
    rw [after?] at h
    split at h
    · obtain rfl := Option.some.inj h
      exact List.suffix_cons row rows
    · exact (ih h).trans (List.suffix_cons row rows)

theorem key_mem_of_after? {key : Key} {rows rest : List Row} (h : after? key rows = some rest) :
    key ∈ rows.map Row.key := by
  induction rows with
  | nil => cases h
  | cons row rows ih =>
    rw [after?] at h
    rw [List.map_cons, List.mem_cons]
    split at h
    · next hkey => exact .inl hkey.symm
    · exact .inr (ih h)

theorem allShown_append (rows rest : List Row) :
    allShown (rows ++ rest) = allShown rows ++ allShown rest :=
  List.filterMap_append

theorem length_allShown_le (rows : List Row) : (allShown rows).length ≤ rows.length :=
  List.length_filterMap_le ..

end Row

/-- The rows of a table, in the order in which a scan evaluates them. -/
structure HeldTable where
  rows : List Row
  distinct : (rows.map Row.key).Nodup
  key_ne_nil : ∀ row ∈ rows, row.key ≠ []

namespace HeldTable

variable (held : HeldTable)

/-- The rows that follow on a start. The empty key is the beginning. -/
def after? (start : Key) : Option (List Row) :=
  if start = [] then some held.rows else Row.after? start held.rows

variable {held}

theorem suffix_of_after? {start : Key} {rows : List Row} (h : held.after? start = some rows) :
    rows <:+ held.rows := by
  rw [after?] at h
  split at h
  · obtain rfl := Option.some.inj h
    exact List.suffix_rfl
  · exact Row.suffix_of_after? h

theorem start_mem_of_after? {start : Key} {rows : List Row} (h : held.after? start = some rows) :
    start ∈ [] :: held.rows.map Row.key := by
  rw [after?] at h
  rw [List.mem_cons]
  split at h
  · next hstart => exact .inl hstart
  · exact .inr (Row.key_mem_of_after? h)

theorem key_ne_nil_of_after? {start : Key} {evaluated rest : List Row} {row : Row}
    (h : held.after? start = some (evaluated ++ row :: rest)) : row.key ≠ [] := by
  refine held.key_ne_nil row ((suffix_of_after? h).subset ?_)
  exact List.mem_append_right _ List.mem_cons_self

/-- What follows on an evaluated row is what was left when it was evaluated. -/
theorem after?_of_evaluated {start : Key} {evaluated rest : List Row} {row : Row}
    (h : held.after? start = some (evaluated ++ row :: rest)) :
    held.after? row.key = some rest := by
  obtain ⟨before, hrows⟩ := suffix_of_after? h
  rw [← List.append_assoc] at hrows
  have hnew : row.key ∉ (before ++ evaluated).map Row.key := by
    have hdistinct := held.distinct
    rw [← hrows, List.map_append, List.nodup_append] at hdistinct
    intro hmem
    exact hdistinct.2.2 _ hmem _ List.mem_cons_self rfl
  rw [after?, if_neg (key_ne_nil_of_after? h), ← hrows]
  exact Row.after?_append hnew rest

end HeldTable

/-! ## Pages -/

/-- A page of some rows, with at most so many of them evaluated, and the rows that it leaves. At
least one row is evaluated if there are any. -/
inductive Evaluates (limit : ℕ) : List Row → ScanOutput → List Row → Prop
  | last {rows : List Row} {page : ScanOutput} (hlimit : rows.length ≤ limit)
      (hitems : page.items = Row.allShown rows) (hkey : page.lastEvaluatedKey = []) :
      Evaluates limit rows page []
  | more {evaluated rest : List Row} {row : Row} {page : ScanOutput}
      (hlimit : (evaluated ++ [row]).length ≤ limit) (hrest : rest ≠ [])
      (hitems : page.items = Row.allShown (evaluated ++ [row]))
      (hkey : page.lastEvaluatedKey = row.key) :
      Evaluates limit (evaluated ++ row :: rest) page rest

namespace Evaluates

variable {limit : ℕ} {rows rest : List Row} {page : ScanOutput}

/-- What a page shows and what it leaves are what there was. -/
theorem allShown_eq (h : Evaluates limit rows page rest) :
    Row.allShown rows = page.items ++ Row.allShown rest := by
  cases h with
  | last hlimit hitems hkey =>
    rw [hitems]
    exact (List.append_nil _).symm
  | @more evaluated rest row page hlimit hrest hitems hkey =>
    rw [hitems, ← Row.allShown_append, List.append_assoc]
    rfl

theorem length_items_le (h : Evaluates limit rows page rest) : page.items.length ≤ limit := by
  cases h with
  | last hlimit hitems | more hlimit _ hitems =>
    rw [hitems]
    exact Nat.le_trans (Row.length_allShown_le _) hlimit

end Evaluates

/-! ## The service -/

/-- Whenever the service answers a request for a page without an error, its answer is a page of the
rows after the start. The service may fail, and it may choose anew how many rows it evaluates. -/
def HeldTable.ServedBy {σ : Type} (held : HeldTable) (env : Environment σ) (request : Json) :
    Prop :=
  ∀ params start limit rows service document, RequestsPage request start limit params →
    1 ≤ limit → held.after? start = some rows →
    (env.reply .scan params service).1.answer = .ok document →
      ∃ page rest, Wire.read document = .ok page ∧ Evaluates limit rows page rest

end TableClient
