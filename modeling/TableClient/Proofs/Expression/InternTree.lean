import TableClient.Expression.Compile
import TableClient.Proofs.Expression.Interned
import TableClient.Proofs.Expression.PlaceholderTable

/-!
# Computations as trees of what they intern

A computation that interns sees its table only through the numbers that it gets. Laid out as a tree
(`InternTree`) it either has a result or interns a name or a literal and goes on with the number, so
it can be followed on a table of either kind. As long as no name is repeated both kinds give the
same numbers, and so come to the same result with the same table (`InternTree.followIndexed_eq`).

The compilers are such computations, `Interning.Branches`. The predicate is closed under everything
that a compiler is put together from, so there is one line for each kind of node.
-/

namespace TableClient

variable {α β ι : Type}

/-- A computation laid out by what it asks of a table: it has a result, or it interns a name or a
literal and goes on with the number that it gets. -/
inductive InternTree (α : Type) where
  | done (result : Except ExpressionError α)
  | name (name : String) (next : ℕ → InternTree α)
  | value (value : AttributeValue) (next : ℕ → InternTree α)

namespace InternTree

/-- The tree followed on a table that searches for names. -/
def follow : InternTree α → PlaceholderTable → Except ExpressionError α × PlaceholderTable
  | .done result, t => (result, t)
  | .name s next, t => (next (t.internName s).1).follow (t.internName s).2
  | .value v next, t => (next (t.internValue v).1).follow (t.internValue v).2

/-- The tree followed on a table that looks names up in its dictionary. -/
def followIndexed : InternTree α → IndexedTable → Except ExpressionError α × IndexedTable
  | .done result, t => (result, t)
  | .name s next, t => (next (t.internName s).1).followIndexed (t.internName s).2
  | .value v next, t => (next (t.internValue v).1).followIndexed (t.internValue v).2

/-- The first tree, and at each of its results the tree that goes on from there. -/
def bind : InternTree α → (α → InternTree β) → InternTree β
  | .done (.ok a), f => f a
  | .done (.error e), _ => .done (.error e)
  | .name s next, f => .name s fun n ↦ (next n).bind f
  | .value v next, f => .value v fun n ↦ (next n).bind f

theorem follow_bind (tree : InternTree α) (f : α → InternTree β) (t : PlaceholderTable) :
    (tree.bind f).follow t = match tree.follow t with
      | (.ok a, u) => (f a).follow u
      | (.error e, u) => (.error e, u) := by
  induction tree generalizing t with
  | done result => cases result <;> rfl
  | name s next ih => exact ih _ _
  | value v next ih => exact ih _ _

/-- Followed on a table that repeats no name and on the one with a dictionary of its numbers, a tree
comes to the same result, and to the same table again. -/
theorem followIndexed_eq (tree : InternTree α) {t : PlaceholderTable} (ht : t.names.Nodup) :
    tree.followIndexed t.indexed = ((tree.follow t).1, (tree.follow t).2.indexed) := by
  induction tree generalizing t with
  | done result => rfl
  | name s next ih =>
    rw [followIndexed, PlaceholderTable.internName_indexed ht]
    exact ih _ (PlaceholderTable.nodup_internName ht s)
  | value v next ih =>
    rw [followIndexed, PlaceholderTable.internValue_indexed]
    exact ih _ (t := (t.internValue v).2) ht

/-- A tree leaves a table with some names and literals interned, whether it fails or not. -/
theorem exists_interned (tree : InternTree α) (t : PlaceholderTable) :
    ∃ names values, (tree.follow t).2 = t.interned names values := by
  induction tree generalizing t with
  | done result => exact ⟨[], [], t.interned_nil.symm⟩
  | name s next ih =>
    obtain ⟨names, values, heq⟩ := ih _ (t.internName s).2
    exact ⟨s :: names, values, heq.trans (t.interned_name_cons names values s).symm⟩
  | value v next ih =>
    obtain ⟨names, values, heq⟩ := ih _ (t.internValue v).2
    refine ⟨names, v :: values, heq.trans ?_⟩
    rw [← t.interned_value, ← t.interned_append]
    rfl

end InternTree

/-! ## Computations that are trees -/

namespace Interning

/-- The computation is a tree, the same one on every table. -/
def Branches (m : Interning α) : Prop :=
  ∃ tree : InternTree α, ∀ t, m.outcome t = tree.follow t

namespace Branches

variable {m : Interning α}

theorem pure (a : α) : Branches (Pure.pure a) :=
  ⟨.done (.ok a), fun _ ↦ rfl⟩

theorem require (check : Except ExpressionError α) : Branches (Interning.require check) :=
  ⟨.done check, fun _ ↦ rfl⟩

theorem name (s : String) : Branches (Interning.name s) :=
  ⟨.name s fun n ↦ .done (.ok n), fun _ ↦ rfl⟩

theorem value (v : AttributeValue) : Branches (Interning.value v) :=
  ⟨.value v fun n ↦ .done (.ok n), fun _ ↦ rfl⟩

theorem bind {k : α → Interning β} (h : Branches m) (hk : ∀ a, Branches (k a)) :
    Branches (m >>= k) := by
  obtain ⟨tree, hm⟩ := h
  choose next hnext using hk
  refine ⟨tree.bind next, fun t ↦ ?_⟩
  rw [outcome_bind, hm, InternTree.follow_bind]
  rcases tree.follow t with ⟨e | a, u⟩
  · rfl
  · exact hnext a u

theorem map (f : α → β) (h : Branches m) : Branches (f <$> m) := by
  rw [map_eq_pure_bind]
  exact h.bind fun a ↦ .pure (f a)

theorem mapM {step : ι → Interning α} (h : ∀ i, Branches (step i)) (is : List ι) :
    Branches (is.mapM step) := by
  induction is with
  | nil => exact .pure []
  | cons i is ih =>
    rw [List.mapM_cons]
    exact (h i).bind fun a ↦ ih.map (a :: ·)

end Branches
end Interning

/-! ## Numbering and compiling -/

open Interning (Branches)

theorem PathElement.branches_numbered (e : PathElement String) : Branches e.numbered := by
  cases e with
  | key name => exact (Branches.name name).map _
  | index position => exact .pure _

theorem Path.branches_numbered (p : Path String) : Branches p.numbered :=
  (Branches.name p.root).bind fun root ↦
    (Branches.mapM PathElement.branches_numbered p.steps).map (Path.mk root)

theorem Operand.branches_numbered (o : Operand String AttributeValue) : Branches o.numbered := by
  cases o with
  | literal value => exact (Branches.value value).map _
  | reference path | size path => exact path.branches_numbered.map _

theorem Condition.branches_numbered (c : Condition String AttributeValue) :
    Branches c.numbered := by
  induction c with
  | compare left op right =>
    exact left.branches_numbered.bind fun _ ↦ right.branches_numbered.map _
  | between value low high =>
    exact value.branches_numbered.bind fun _ ↦ low.branches_numbered.bind fun _ ↦
      high.branches_numbered.map _
  | among value candidates =>
    exact (Branches.require _).bind fun _ ↦ value.branches_numbered.bind fun _ ↦
      (Branches.mapM Operand.branches_numbered candidates).map _
  | function name arguments =>
    exact (Branches.require _).bind fun _ ↦
      (Branches.mapM Operand.branches_numbered arguments).map _
  | logical op left right ihl ihr => exact ihl.bind fun _ ↦ ihr.map _
  | not inner ih => exact ih.map _

theorem SetValue.branches_numbered (v : SetValue String AttributeValue) :
    Branches v.numbered := by
  induction v with
  | operand source => exact source.branches_numbered.map _
  | plus left right ihl ihr | minus left right ihl ihr | listAppend left right ihl ihr =>
    exact ihl.bind fun _ ↦ ihr.map _
  | ifNotExists path value ih => exact path.branches_numbered.bind fun _ ↦ ih.map _

theorem UpdateAction.branches_numbered (action : UpdateAction String AttributeValue) :
    Branches action.numbered := by
  cases action with
  | set path value =>
    exact path.branches_numbered.bind fun _ ↦ value.branches_numbered.map _
  | remove path => exact path.branches_numbered.map _
  | add path value | delete path value =>
    exact path.branches_numbered.bind fun _ ↦ (Branches.value value).map _

theorem Condition.branches_compile (c : Condition String AttributeValue) : Branches c.compile :=
  c.branches_numbered.map _

theorem UpdateAction.branches_compile (actions : List (UpdateAction String AttributeValue)) :
    Branches (compile actions) :=
  (Branches.require _).bind fun _ ↦
    (Branches.mapM UpdateAction.branches_numbered (byClause actions)).map _

theorem Condition.branches_compileKey (partition : Condition String AttributeValue)
    (sort : Option (Condition String AttributeValue)) : Branches (partition.compileKey sort) := by
  refine (Branches.require _).bind fun _ ↦ ?_
  cases sort with
  | none => exact partition.branches_compile
  | some sort => exact partition.branches_compile.bind fun _ ↦ sort.branches_compile.map _

theorem Path.branches_compileProjection (paths : List (Path String)) :
    Branches (compileProjection paths) :=
  (Branches.mapM Path.branches_numbered paths).map _

end TableClient
