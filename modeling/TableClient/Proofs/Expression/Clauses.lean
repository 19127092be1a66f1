import TableClient.Expression.Compile
import TableClient.Proofs.Expression.Numbering

/-!
# Actions clause by clause

`byClause` sorts actions by their clauses and keeps the order within each clause. Actions that are
sorted already stay as they are, and numbering keeps every action in its clause, so the numbered
actions of an update are written in the order in which they were numbered.
-/

namespace TableClient

variable {ν μ α β : Type}

/-- The place of a clause in an update. -/
def Clause.rank : Clause → ℕ
  | .set => 0
  | .remove => 1
  | .add => 2
  | .delete => 3

namespace UpdateAction

/-- The clauses stand in the order of an update. -/
def InOrder (actions : List (UpdateAction ν α)) : Prop :=
  (actions.map clause).Pairwise fun c c' ↦ c.rank ≤ c'.rank

theorem mem_inClause {clause : Clause} {actions : List (UpdateAction ν α)}
    {action : UpdateAction ν α} :
    action ∈ inClause clause actions ↔ action ∈ actions ∧ action.clause = clause := by
  rw [inClause, List.mem_filter, decide_eq_true_iff]

theorem mem_byClause {actions : List (UpdateAction ν α)} {action : UpdateAction ν α} :
    action ∈ byClause actions ↔ action ∈ actions := by
  rw [byClause, List.mem_flatMap]
  constructor
  · rintro ⟨clause, -, haction⟩
    exact (mem_inClause.mp haction).1
  · intro haction
    exact ⟨action.clause, Named.mem_all _, mem_inClause.mpr ⟨haction, rfl⟩⟩

theorem byClause_inOrder (actions : List (UpdateAction ν α)) : InOrder (byClause actions) := by
  rw [InOrder, List.pairwise_map, byClause, List.pairwise_flatMap]
  refine ⟨fun clause _ ↦ ?_, ?_⟩
  · refine List.pairwise_of_forall_mem_list ?_
    intro a ha b hb
    exact Nat.le_of_eq (by rw [(mem_inClause.mp ha).2, (mem_inClause.mp hb).2])
  · have hranks : (Named.all : List Clause).Pairwise fun c c' ↦ c.rank ≤ c'.rank := by decide
    refine hranks.imp fun hle a ha b hb ↦ ?_
    rw [(mem_inClause.mp ha).2, (mem_inClause.mp hb).2]
    exact hle

/-- Actions in the order of their clauses stay as they are. -/
theorem InOrder.byClause_eq {actions : List (UpdateAction ν α)} (h : InOrder actions) :
    byClause actions = actions := by
  induction actions with
  | nil => rfl
  | cons action actions ih =>
    obtain ⟨hfirst, hrest⟩ := List.pairwise_cons.mp h
    -- no action of an earlier clause follows, so this one stays the first
    have hearlier (clause : Clause) (hlt : clause.rank < action.clause.rank) :
        inClause clause actions = [] := by
      rw [List.eq_nil_iff_forall_not_mem]
      intro other hother
      obtain ⟨hmem, rfl⟩ := mem_inClause.mp hother
      have hle := hfirst other.clause (List.mem_map_of_mem hmem)
      omega
    have hcons (clause : Clause) : inClause clause (action :: actions) =
        if action.clause = clause then action :: inClause clause actions
        else inClause clause actions := by
      simp [inClause, List.filter_cons]
    have hrest' := ih hrest
    simp only [byClause, Named.all, List.flatMap_cons, List.flatMap_nil, List.append_nil]
      at hrest' ⊢
    cases hclause : action.clause <;> rw [hclause] at hearlier <;>
      simp_all [Clause.rank]

theorem inClause_byClause (clause : Clause) (actions : List (UpdateAction ν α)) :
    inClause clause (byClause actions) = inClause clause actions := by
  have hown (other : Clause) : inClause clause (inClause other actions) =
      if other = clause then inClause clause actions else [] := by
    split
    · next h =>
      subst h
      simp [inClause]
    · next h =>
      rw [List.eq_nil_iff_forall_not_mem]
      intro action haction
      obtain ⟨hmem, hclause⟩ := mem_inClause.mp haction
      exact h ((mem_inClause.mp hmem).2.symm.trans hclause)
  have hall : inClause clause (byClause actions) =
      (Named.all : List Clause).flatMap fun other ↦ inClause clause (inClause other actions) := by
    simp only [inClause, byClause, List.filter_flatMap]
  rw [hall]
  cases clause <;> simp [hown, Named.all]

/-! ## Numbered actions -/

theorem clause_of_replace? {f : ν → Option μ} {g : α → Option β} {n : UpdateAction ν α}
    {action : UpdateAction μ β} (h : n.replace? f g = some action) : n.clause = action.clause := by
  cases n with
  | set path value | add path value | delete path value =>
    obtain ⟨p, hp, h⟩ := Option.bind_eq_some_iff.mp h
    obtain ⟨v, hv, h⟩ := Option.bind_eq_some_iff.mp h
    obtain rfl := Option.some.inj h
    rfl
  | remove path =>
    obtain ⟨p, hp, rfl⟩ := Option.map_eq_some_iff.mp h
    rfl

theorem map_clause_of_replace? {f : ν → Option μ} {g : α → Option β}
    {ns : List (UpdateAction ν α)} {actions : List (UpdateAction μ β)}
    (h : ns.mapM (replace? f g) = some actions) : ns.map clause = actions.map clause := by
  rw [← List.forall₂_eq_eq_eq, List.forall₂_map_left_iff, List.forall₂_map_right_iff]
  exact (mapM_eq_some_iff.mp h).imp fun _ _ ↦ clause_of_replace?

/-- The actions of an update are numbered in the order in which they are written. -/
theorem byClause_numbered {actions : List (UpdateAction String AttributeValue)}
    {ns : List (UpdateAction ℕ ℕ)} {t t' : PlaceholderTable}
    (h : ((byClause actions).mapM numbered).Yields t ns t') : byClause ns = ns := by
  have hclauses := map_clause_of_replace? (mapM_numbered_spec h).2
  have horder : InOrder ns := by
    rw [InOrder, hclauses]
    exact byClause_inOrder actions
  exact horder.byClause_eq

/-- What a success of the compilation means. -/
theorem numbered_of_compile {actions : List (UpdateAction String AttributeValue)}
    {t t' : PlaceholderTable} {text : String} (h : (compile actions).Yields t text t') :
    ∃ ns, ((byClause actions).mapM numbered).Yields t ns t' ∧ updateText ns = text := by
  simp only [compile, Interning.yields_bind_iff, Interning.yields_require_iff,
    Interning.yields_map_iff] at h
  obtain ⟨-, u, ⟨-, rfl⟩, ns, hns, htext⟩ := h
  exact ⟨ns, hns, htext⟩

end UpdateAction
end TableClient
