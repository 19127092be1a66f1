import Mathlib.Data.List.Forall2
import TableClient.Proofs.Expression.Acceptance
import TableClient.Proofs.Expression.Discipline

/-!
# Interleaved clauses

Actions of different clauses may stand in an update in any order. Numbering and writing go through
the clauses one after another, so the text and the table depend only on the actions of each clause
in their order, and whether the update is accepted does too. What is written are the clauses that
are not empty, each with its actions in their order (`UpdateAction.WrittenAs`), and the placeholders
go on from the table (`Continues`).
-/

namespace TableClient

/-! ## Going on with a table -/

/-- The placeholders of the text go on from the table `t`, and `u` is the table with what they
stand for: each name is known or gets the next number, and each literal gets a new one. -/
structure Continues (t u : PlaceholderTable) (text : String) : Prop where
  names_prefix : t.names <+: u.names
  values_prefix : t.values <+: u.values
  names_eq : ∃ ns, Placeholder.occurrences '#' text = ns.map Placeholder.name ∧
    Introduces t.names.length ns u.names.length
  values_eq : Placeholder.occurrences ':' text =
    (List.range' t.values.length (u.values.length - t.values.length)).map Placeholder.value

theorem Printed.continues {t u : PlaceholderTable} {text : String} (h : Printed t u [text]) :
    Continues t u text := by
  obtain ⟨os, hnum, hprints⟩ := h
  have hnames := hprints.occurrences_names
  have hvalues := hprints.occurrences_values
  rw [List.flatMap_singleton] at hnames hvalues
  refine ⟨hnum.names_prefix, hnum.values_prefix, ⟨_, hnames, hnum.introduces⟩, ?_⟩
  rw [hvalues, hnum.literals_eq]

namespace UpdateAction

/-! ## The same actions in each clause -/

section SameClauses

variable {actions actions' : List (UpdateAction String AttributeValue)}
  (h : ∀ clause, inClause clause actions' = inClause clause actions)

include h

theorem byClause_congr : byClause actions' = byClause actions := by
  simp only [byClause, h]

theorem compile_congr (hcheck : check actions = .ok ()) :
    check actions' = .ok () ∧ compile actions' = compile actions := by
  have hmem (action : UpdateAction String AttributeValue) :
      action ∈ actions' ↔ action ∈ actions := by
    rw [← mem_byClause, byClause_congr h, mem_byClause]
  have hcheck' : check actions' = .ok () :=
    check_eq_ok_iff.mpr ((check_eq_ok_iff.mp hcheck).of_forall_mem_iff hmem)
  refine ⟨hcheck', ?_⟩
  rw [compile, compile, hcheck, hcheck', byClause_congr h]

end SameClauses

/-! ## What is written -/

/-- The text is that of the action: its numbers stand in the table for the names and literals. -/
def WrittenAs (u : PlaceholderTable) (action : UpdateAction String AttributeValue)
    (text : String) : Prop :=
  ∃ n : UpdateAction ℕ ℕ, n.expression = text ∧ n.replace? u.name? u.value? = some action

/-- Looking numbers up keeps each action in its clause and in its place there. -/
theorem forall₂_inClause {f : ℕ → Option String} {g : ℕ → Option AttributeValue}
    {ns : List (UpdateAction ℕ ℕ)} {actions : List (UpdateAction String AttributeValue)}
    (h : ns.mapM (replace? f g) = some actions) (clause : Clause) :
    List.Forall₂ (fun n action ↦ n.replace? f g = some action) (inClause clause ns)
      (inClause clause actions) := by
  apply List.rel_filter _ (mapM_eq_some_iff.mp h)
  intro n action hrep
  simp only [clause_of_replace? hrep]

theorem forall₂_writtenAs {u : PlaceholderTable} {ns : List (UpdateAction ℕ ℕ)}
    {actions : List (UpdateAction String AttributeValue)}
    (h : ns.mapM (replace? u.name? u.value?) = some (byClause actions)) (clause : Clause) :
    List.Forall₂ (WrittenAs u) (inClause clause actions)
      ((inClause clause ns).map expression) := by
  have hown := forall₂_inClause h clause
  rw [inClause_byClause] at hown
  rw [List.forall₂_map_right_iff]
  exact (hown.imp fun n action hrep ↦ ⟨n, rfl, hrep⟩).flip

theorem updateText_eq (ns : List (UpdateAction ℕ ℕ)) :
    updateText ns = " ".intercalate
      (((Named.all : List Clause).filter fun clause ↦ (inClause clause ns).map expression ≠ []).map
        fun clause ↦
          Named.name clause ++ " " ++ commaSeparated ((inClause clause ns).map expression)) := by
  rw [updateText, ← List.filterMap_eq_map, List.filterMap_filter]
  congr 1
  apply List.filterMap_congr
  intro clause _
  cases hown : inClause clause ns with
  | nil => simp [clauseText?, hown]
  | cons n own => simp [clauseText?, hown]

end UpdateAction

/-- **Interleaved clauses.** An accepted update has the same text and leaves the same table as every
other one with the same actions in each clause, in the same order there. The text is made of the
clauses that are not empty: `SET`, `REMOVE`, `ADD`, `DELETE`, each with every action of its own once
and in order. Its placeholders go on from the table. -/
theorem update_independent_of_interleaving (actions : List (UpdateAction String AttributeValue))
    (t : PlaceholderTable) (h : UpdateAction.check actions = .ok ()) :
    ∃ text u, (UpdateAction.compile actions).Yields t text u ∧
      (∀ actions' : List (UpdateAction String AttributeValue),
        (∀ clause, UpdateAction.inClause clause actions' = UpdateAction.inClause clause actions) →
          UpdateAction.check actions' = .ok () ∧
            (UpdateAction.compile actions').Yields t text u) ∧
      (∃ texts : Clause → List String,
        (∀ clause, List.Forall₂ (UpdateAction.WrittenAs u) (UpdateAction.inClause clause actions)
          (texts clause)) ∧
        text = " ".intercalate
          (([.set, .remove, .add, .delete].filter fun clause ↦ texts clause ≠ []).map
            fun clause ↦ Named.name clause ++ " " ++ ", ".intercalate (texts clause))) ∧
      Continues t u text := by
  obtain ⟨text, u, hcompile⟩ :=
    UpdateAction.exists_compile_iff (t := t) |>.mpr (UpdateAction.check_eq_ok_iff.mp h)
  refine ⟨text, u, hcompile, ?_, ?_, (UpdateAction.printed_of_compile hcompile).continues⟩
  · intro actions' hsame
    obtain ⟨hcheck, heq⟩ := UpdateAction.compile_congr hsame h
    rw [heq]
    exact ⟨hcheck, hcompile⟩
  · obtain ⟨ns, hns, rfl⟩ := UpdateAction.numbered_of_compile hcompile
    have hrep := (UpdateAction.mapM_numbered_spec hns).2
    exact ⟨fun clause ↦ (UpdateAction.inClause clause ns).map UpdateAction.expression,
      UpdateAction.forall₂_writtenAs hrep, UpdateAction.updateText_eq ns⟩

/-- Two new values, a removal and an addition, shuffled, with a table that knows the last name. -/
theorem shuffled_clauses_alike :
    let first : UpdateAction String AttributeValue :=
      .set ⟨"A", []⟩ (.operand (.literal (.string "x")))
    let second : UpdateAction String AttributeValue :=
      .set ⟨"B", []⟩ (.operand (.reference ⟨"A", []⟩))
    let remove : UpdateAction String AttributeValue := .remove ⟨"D", []⟩
    let add : UpdateAction String AttributeValue := .add ⟨"C", [.index 0]⟩ (.number "1")
    UpdateAction.check [add, first, remove, second] = .ok () ∧
    (UpdateAction.compile [add, first, remove, second]).Yields ⟨["D"], [.number "0"]⟩
      "SET #1 = :1, #2 = #1 REMOVE #0 ADD #3[0] :2"
      ⟨["D", "A", "B", "C"], [.number "0", .string "x", .number "1"]⟩ ∧
    (UpdateAction.compile [first, second, add, remove]).Yields ⟨["D"], [.number "0"]⟩
      "SET #1 = :1, #2 = #1 REMOVE #0 ADD #3[0] :2"
      ⟨["D", "A", "B", "C"], [.number "0", .string "x", .number "1"]⟩ ∧
    Continues ⟨["D"], [.number "0"]⟩
      ⟨["D", "A", "B", "C"], [.number "0", .string "x", .number "1"]⟩
      "SET #1 = :1, #2 = #1 REMOVE #0 ADD #3[0] :2" := by
  intro first second remove add
  have hcheck : UpdateAction.check [add, first, remove, second] = .ok () := by rfl
  have hcompile : (UpdateAction.compile [add, first, remove, second]).Yields
      ⟨["D"], [.number "0"]⟩ "SET #1 = :1, #2 = #1 REMOVE #0 ADD #3[0] :2"
      ⟨["D", "A", "B", "C"], [.number "0", .string "x", .number "1"]⟩ := by rfl
  obtain ⟨text, u, h, hsame, -, hcontinues⟩ :=
    update_independent_of_interleaving [add, first, remove, second] ⟨["D"], [.number "0"]⟩ hcheck
  obtain ⟨rfl, rfl⟩ : text = _ ∧ u = _ := by simpa using h.symm.trans hcompile
  have hshuffled : ∀ clause, UpdateAction.inClause clause [first, second, add, remove] =
      UpdateAction.inClause clause [add, first, remove, second] := by
    intro clause
    cases clause <;> rfl
  exact ⟨hcheck, hcompile, (hsame _ hshuffled).2, hcontinues⟩

end TableClient
