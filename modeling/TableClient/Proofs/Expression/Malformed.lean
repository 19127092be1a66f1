import TableClient.Proofs.Expression.Expressible

/-!
# The first node without written form

A condition is compiled from left to right, and compiling it fails at the first node that has no
written form (`Condition.Malformed`). A node is checked before anything in it is interned, so the
table then has what stands in the nodes before that one and nothing else. Joins and negations always
have a written form; the nodes that matter are the comparisons, memberships and functions
(`Condition.leaves`).
-/

namespace TableClient

/-! ## Failures of a chain of computations -/

namespace Interning

variable {α β : Type} {m : Interning α} {t u : PlaceholderTable}

theorem outcome_bind_of_yields {f : α → Interning β} {a : α} (h : m.Yields t a u) :
    (m >>= f).outcome t = (f a).outcome u := by
  rw [Yields] at h
  rw [outcome_bind, h]

theorem outcome_bind_of_error {f : α → Interning β} {e : ExpressionError}
    (h : m.outcome t = (.error e, u)) : (m >>= f).outcome t = (.error e, u) := by
  rw [outcome_bind, h]

/-- A check that fails leaves the table as it was. -/
theorem outcome_checked_of_error {check : Except ExpressionError α} {f : α → Interning β}
    {e : ExpressionError} (h : check = .error e) :
    (require check >>= f).outcome t = (.error e, t) :=
  outcome_bind_of_error (congrArg (·, t) h)

theorem outcome_map_eq_error_iff {f : α → β} {e : ExpressionError} :
    (f <$> m).outcome t = (.error e, u) ↔ m.outcome t = (.error e, u) := by
  rw [map_eq_pure_bind, outcome_bind]
  rcases m.outcome t with ⟨_ | a, v⟩
  · simp
  · exact iff_of_false (by rintro ⟨⟩) (by rintro ⟨⟩)

/-- A computation fails on a table or succeeds on it. -/
theorem exists_outcome_eq_error_iff :
    (∃ e u, m.outcome t = (.error e, u)) ↔ ¬ ∃ a u, m.Yields t a u := by
  simp only [Yields]
  rcases m.outcome t with ⟨_ | a, v⟩ <;> simp

end Interning

/-! ## Nodes -/

namespace Condition

variable {ν α : Type}

/-- The comparisons, memberships and functions of the condition, from left to right. -/
def leaves : Condition ν α → List (Condition ν α)
  | .logical _ left right => left.leaves ++ right.leaves
  | .not inner => inner.leaves
  | c => [c]

/-- The names of the condition in the order of the written form. -/
def names (c : Condition ν α) : List ν :=
  c.operands.flatMap Operand.names

/-- The node has no written form, for this reason: it is a membership without candidates, or a
function with the wrong number of arguments or whose first argument is no place. -/
inductive Malformed : Condition ν α → OperandFault → Prop
  | noCandidate (value : Operand ν α) : Malformed (.among value []) .noCandidate
  | argumentCount {name : FunctionName} {arguments : List (Operand ν α)}
      (hcount : arguments.length ≠ name.arity) :
      Malformed (.function name arguments) (.argumentCount name arguments.length)
  | firstArgument {name : FunctionName} {arguments : List (Operand ν α)}
      (hcount : arguments.length = name.arity)
      (hfirst : ∀ path, arguments.head? ≠ some (.reference path)) :
      Malformed (.function name arguments) (.firstArgumentNotPath name)

private theorem any_isReference_iff {operand : Option (Operand ν α)} :
    operand.any Operand.isReference = true ↔ ∃ path, operand = some (.reference path) := by
  rcases operand with _ | _ | _ | _ <;> simp [Operand.isReference]

theorem checkNode_eq_error_iff {c : Condition ν α} {e : ExpressionError} :
    c.checkNode = .error e ↔ ∃ fault, c.Malformed fault ∧ e = .invalidOperand fault := by
  constructor
  · intro h
    unfold checkNode at h
    split at h
    · obtain rfl := Except.error.inj h
      exact ⟨_, .noCandidate _, rfl⟩
    · next name arguments =>
      by_cases hcount : arguments.length = name.arity
      · rw [if_neg (not_not_intro hcount)] at h
        split at h
        · cases h
        · next hfirst =>
          obtain rfl := Except.error.inj h
          rw [any_isReference_iff, not_exists] at hfirst
          exact ⟨_, .firstArgument hcount hfirst, rfl⟩
      · rw [if_pos hcount] at h
        obtain rfl := Except.error.inj h
        exact ⟨_, .argumentCount hcount, rfl⟩
    · cases h
  · rintro ⟨fault, h, rfl⟩
    cases h with
    | noCandidate value => rfl
    | argumentCount hcount => rw [checkNode, if_pos hcount]
    | firstArgument hcount hfirst =>
      rw [checkNode, if_neg (not_not_intro hcount), if_neg]
      rw [any_isReference_iff, not_exists]
      exact hfirst

theorem checkNode_eq_ok_iff {c : Condition ν α} :
    c.checkNode = .ok () ↔ ¬ ∃ fault, c.Malformed fault := by
  cases hcheck : c.checkNode with
  | ok =>
    refine iff_of_true rfl ?_
    rintro ⟨fault, h⟩
    cases hcheck.symm.trans (checkNode_eq_error_iff.mpr ⟨fault, h, rfl⟩)
  | error e =>
    obtain ⟨fault, h, -⟩ := checkNode_eq_error_iff.mp hcheck
    exact iff_of_false (by rintro ⟨⟩) (not_not_intro ⟨fault, h⟩)

theorem operands_eq_flatMap_leaves (c : Condition ν α) : c.operands = c.leaves.flatMap operands := by
  induction c with
  | compare | between | among | function => exact (List.append_nil _).symm
  | logical op left right ihl ihr => rw [operands, leaves, ihl, ihr, List.flatMap_append]
  | not inner ih => exact ih

theorem names_eq_flatMap_leaves (c : Condition ν α) : c.names = c.leaves.flatMap names := by
  rw [names, operands_eq_flatMap_leaves, List.flatMap_assoc]
  rfl

theorem literals_eq_flatMap_leaves (c : Condition ν α) :
    c.literals = c.leaves.flatMap literals := by
  rw [literals, operands_eq_flatMap_leaves, List.filterMap_flatMap]
  rfl

/-! ## The failure of a condition -/

variable {c : Condition String AttributeValue} {t u : PlaceholderTable}

theorem expressible_iff : c.Expressible ↔ ∀ leaf ∈ c.leaves, leaf.checkNode = .ok () := by
  have hself (leaf : Condition String AttributeValue) :
      leaf.checkNode = .ok () ↔ ∀ node ∈ [leaf], node.checkNode = .ok () := by
    rw [List.forall_mem_singleton]
  induction c with
  | compare | between | among | function => exact hself _
  | logical op left right ihl ihr =>
    rw [leaves, List.forall_mem_append]
    exact and_congr ihl ihr
  | not inner ih => exact ih

/-- An element of two lists together is in the second one, behind all of the first, or in the
first. -/
private theorem append_eq_append_cons {ι : Type} {front back before after : List ι} {item : ι}
    (h : front ++ back = before ++ item :: after) :
    (∃ between, before = front ++ between ∧ back = between ++ item :: after) ∨
      ∃ rest, front = before ++ item :: rest := by
  obtain ⟨between, hbefore, hback⟩ | ⟨rest, hfront, hrest⟩ := List.append_eq_append_iff.mp h
  · exact .inl ⟨between, hbefore, hback⟩
  · cases rest with
    | nil => exact .inl ⟨[], by rw [hfront, List.append_nil, List.append_nil], hrest.symm⟩
    | cons first rest =>
      obtain ⟨rfl, -⟩ := List.cons.inj hrest
      exact .inr ⟨rest, hfront⟩

/-- A condition that is no join is its only node. -/
private theorem eq_of_singleton {leaf node : Condition String AttributeValue}
    {before after : List (Condition String AttributeValue)}
    (h : [leaf] = before ++ node :: after) : before = [] ∧ leaf = node := by
  obtain ⟨hnil, hsingle⟩ | ⟨-, hcons⟩ := List.append_eq_singleton_iff.mp h.symm
  · exact ⟨hnil, (List.cons.inj hsingle).1.symm⟩
  · cases hcons

/-- Numbering a condition fails where the first check of a node does, and what was interned until
then is in the table. -/
theorem outcome_numbered_of_leaves_eq {before after : List (Condition String AttributeValue)}
    {node : Condition String AttributeValue} {e : ExpressionError}
    (hleaves : c.leaves = before ++ node :: after)
    (hbefore : ∀ earlier ∈ before, earlier.checkNode = .ok ()) (hnode : node.checkNode = .error e) :
    c.numbered.outcome t =
      (.error e, t.interned (before.flatMap names) (before.flatMap literals)) := by
  induction c generalizing before after t with
  | compare | between =>
    obtain ⟨-, rfl⟩ := eq_of_singleton hleaves
    cases hnode
  | among | function =>
    obtain ⟨rfl, rfl⟩ := eq_of_singleton hleaves
    rw [List.flatMap_nil, List.flatMap_nil, t.interned_nil]
    exact Interning.outcome_checked_of_error hnode
  | logical op left right ihl ihr =>
    obtain ⟨between, rfl, hright⟩ | ⟨rest, hleft⟩ := append_eq_append_cons hleaves
    · -- the left side succeeds, and the right side goes on from the table that it leaves
      rw [List.forall_mem_append] at hbefore
      obtain ⟨l, hl⟩ := internsOf_numbered (expressible_iff.mpr hbefore.1) t
      rw [List.flatMap_append, List.flatMap_append, t.interned_append,
        ← names_eq_flatMap_leaves, ← literals_eq_flatMap_leaves]
      exact (Interning.outcome_bind_of_yields hl).trans
        (Interning.outcome_bind_of_error (ihr hright hbefore.2))
    · exact Interning.outcome_bind_of_error (ihl hleft hbefore)
  | not inner ih => exact Interning.outcome_map_eq_error_iff.mpr (ih hleaves hbefore)

/-- A condition that has no expression has a first node without written form. -/
theorem exists_first_of_not_expressible (h : ¬ c.Expressible) : ∃ before node after e,
    c.leaves = before ++ node :: after ∧ (∀ earlier ∈ before, earlier.checkNode = .ok ()) ∧
      node.checkNode = .error e := by
  cases hchecks : c.leaves.mapM checkNode with
  | ok results =>
    refine absurd (expressible_iff.mpr ?_) h
    intro leaf hleaf
    obtain ⟨u, hu⟩ := Except.exists_mapM_eq_ok_iff.mp ⟨results, hchecks⟩ leaf hleaf
    exact hu
  | error e =>
    obtain ⟨before, node, after, hleaves, hbefore, hnode⟩ := Except.mapM_eq_error_iff.mp hchecks
    refine ⟨before, node, after, e, hleaves, fun earlier hearlier ↦ ?_, hnode⟩
    obtain ⟨u, hu⟩ := hbefore earlier hearlier
    exact hu

theorem outcome_compile_eq_error_iff {e : ExpressionError} :
    c.compile.outcome t = (.error e, u) ↔ ∃ before node after,
      c.leaves = before ++ node :: after ∧ (∀ earlier ∈ before, earlier.checkNode = .ok ()) ∧
      node.checkNode = .error e ∧
      u = t.interned (before.flatMap names) (before.flatMap literals) := by
  rw [compile, Interning.outcome_map_eq_error_iff]
  constructor
  · intro h
    have hnot : ¬ c.Expressible := fun hc ↦ by
      obtain ⟨n, hn⟩ := internsOf_numbered hc t
      cases hn.symm.trans h
    obtain ⟨before, node, after, e', hleaves, hbefore, hnode⟩ := exists_first_of_not_expressible hnot
    obtain ⟨he, hu⟩ := Prod.mk.inj (h.symm.trans (outcome_numbered_of_leaves_eq hleaves hbefore hnode))
    obtain rfl := Except.error.inj he
    exact ⟨before, node, after, hleaves, hbefore, hnode, hu⟩
  · rintro ⟨before, node, after, hleaves, hbefore, hnode, rfl⟩
    exact outcome_numbered_of_leaves_eq hleaves hbefore hnode

theorem exists_compile_iff : (∃ text u, c.compile.Yields t text u) ↔ c.Expressible := by
  constructor
  · rintro ⟨text, u, h⟩
    exact expressible_of_compile h
  · intro h
    exact total_compile h t

end Condition

/-- **Failures of conditions.** Compiling a condition fails exactly if some node of it is malformed,
whatever the table is. It fails for the first such node from the left, and the table then has the
names and literals of the nodes before that one, in their order, and nothing else is interned. -/
theorem condition_fails_at_first_malformed_node (c : Condition String AttributeValue)
    (t : PlaceholderTable) :
    ((∃ e u, c.compile.outcome t = (.error e, u)) ↔
      ∃ node ∈ c.leaves, ∃ fault, node.Malformed fault) ∧
    (∀ t', (∃ text u, c.compile.Yields t' text u) ↔ ∃ text u, c.compile.Yields t text u) ∧
    ∀ e u, c.compile.outcome t = (.error e, u) ↔ ∃ before node after fault,
      c.leaves = before ++ node :: after ∧
      (∀ earlier ∈ before, ∀ fault, ¬ earlier.Malformed fault) ∧
      node.Malformed fault ∧ e = .invalidOperand fault ∧
      u = t.interned (before.flatMap Condition.names) (before.flatMap Condition.literals) := by
  refine ⟨?_, fun t' ↦ ?_, fun e u ↦ ?_⟩
  · rw [Interning.exists_outcome_eq_error_iff, Condition.exists_compile_iff,
      Condition.expressible_iff]
    simp only [Condition.checkNode_eq_ok_iff, not_forall, not_not, exists_prop]
  · rw [Condition.exists_compile_iff, Condition.exists_compile_iff]
  · rw [Condition.outcome_compile_eq_error_iff]
    simp only [Condition.checkNode_eq_ok_iff, Condition.checkNode_eq_error_iff, not_exists]
    constructor
    · rintro ⟨before, node, after, hleaves, hbefore, ⟨fault, hfault, rfl⟩, hu⟩
      exact ⟨before, node, after, fault, hleaves, hbefore, hfault, rfl, hu⟩
    · rintro ⟨before, node, after, fault, hleaves, hbefore, hfault, rfl, hu⟩
      exact ⟨before, node, after, hleaves, hbefore, ⟨fault, hfault, rfl⟩, hu⟩

/-- A membership without candidates under a negation comes before a function without arguments. The
comparison to the left of both has one name that the table knew and one that it did not. -/
theorem membership_reported_before_function :
    let known : Condition String AttributeValue :=
      .compare (.reference ⟨"A", [.key "B"]⟩) .lt (.literal (.number "1"))
    let empty : Condition String AttributeValue := .among (.reference ⟨"C", []⟩) []
    let c : Condition String AttributeValue :=
      (known.and (.not empty)).or (.function .contains [])
    c.compile.outcome ⟨["A"], []⟩ =
      (.error (.invalidOperand .noCandidate), ⟨["A", "B"], [.number "1"]⟩) ∧
    ∃ node ∈ c.leaves, ∃ fault, node.Malformed fault := by
  intro known empty c
  obtain ⟨hfails, -, hfirst⟩ := condition_fails_at_first_malformed_node c ⟨["A"], []⟩
  have houtcome : c.compile.outcome ⟨["A"], []⟩ =
      (.error (.invalidOperand .noCandidate), ⟨["A", "B"], [.number "1"]⟩) := by
    have hknown (fault : OperandFault) : ¬ known.Malformed fault := by
      dsimp only [known]
      rintro ⟨⟩
    exact (hfirst _ _).mpr ⟨[known], empty, [.function .contains []], .noCandidate, rfl,
      fun _ hnode ↦ List.mem_singleton.mp hnode ▸ hknown, .noCandidate _, rfl, by decide⟩
  exact ⟨houtcome, hfails.mp ⟨_, _, houtcome⟩⟩

end TableClient
