import Mathlib.Data.Int.Notation
import TableClient.Expression.Text
import TableClient.Proofs.Expression.Numbering

/-!
# Grouping of sums and differences

Sums and differences are written without parentheses, and a reader groups them to the left.
`SetValue.leftGrouped` is the value with that grouping: the terms and signs of a value in the order
in which they are written, joined from the left. A value and its left-grouped form have the same
text and are numbered alike, so no text tells them apart. Only a value in which no right operand is
a sum or a difference (`SetValue.LeftGrouped`) is its own left-grouped form.

Regrouping walks to the leftmost term first. What stands before that term is a function `join`: it
takes the term to the value up to and including it.
-/

namespace TableClient

namespace SetValue

variable {ν μ α β : Type}

/-- The value grouped to the left, behind what `join` joins with its first term. -/
def onto (join : SetValue ν α → SetValue ν α) : SetValue ν α → SetValue ν α
  | .operand source => join (.operand source)
  | .plus left right => right.onto (.plus (left.onto join))
  | .minus left right => right.onto (.minus (left.onto join))
  | .ifNotExists path value => join (.ifNotExists path (value.onto id))
  | .listAppend left right => join (.listAppend (left.onto id) (right.onto id))

/-- The value with its sums and differences grouped to the left. -/
def leftGrouped (v : SetValue ν α) : SetValue ν α :=
  v.onto id

/-- Whether the value is a sum or a difference. -/
def isSum : SetValue ν α → Bool
  | .plus _ _ | .minus _ _ => true
  | _ => false

/-- No right operand of a sum or a difference is itself one. -/
def LeftGrouped : SetValue ν α → Prop
  | .operand _ => True
  | .plus left right | .minus left right =>
    left.LeftGrouped ∧ right.LeftGrouped ∧ right.isSum = false
  | .ifNotExists _ value => value.LeftGrouped
  | .listAppend left right => left.LeftGrouped ∧ right.LeftGrouped

instance decidableLeftGrouped : ∀ v : SetValue ν α, Decidable v.LeftGrouped
  | .operand _ => .isTrue trivial
  | .plus left right | .minus left right =>
    have := decidableLeftGrouped left
    have := decidableLeftGrouped right
    inferInstanceAs (Decidable (left.LeftGrouped ∧ right.LeftGrouped ∧ right.isSum = false))
  | .ifNotExists _ value => decidableLeftGrouped value
  | .listAppend left right =>
    have := decidableLeftGrouped left
    have := decidableLeftGrouped right
    inferInstanceAs (Decidable (left.LeftGrouped ∧ right.LeftGrouped))

/-! ## Left-grouped values -/

/-- A single term is joined as it is, apart from what it contains. -/
theorem onto_of_not_isSum {v : SetValue ν α} (h : v.isSum = false)
    (join : SetValue ν α → SetValue ν α) : v.onto join = join v.leftGrouped := by
  cases v with
  | plus | minus => simp [isSum] at h
  | operand | ifNotExists | listAppend => rfl

/-- Regrouping changes nothing in a value that is grouped to the left. -/
theorem LeftGrouped.leftGrouped_eq {v : SetValue ν α} (h : v.LeftGrouped) :
    v.leftGrouped = v := by
  induction v with
  | operand source => rfl
  | plus left right ihl ihr | minus left right ihl ihr =>
    obtain ⟨hleft, hright, hsum⟩ := h
    have hl : left.onto id = left := ihl hleft
    rw [leftGrouped, onto, onto_of_not_isSum hsum, hl, ihr hright]
  | ifNotExists path value ih =>
    have hv : value.onto id = value := ih h
    rw [leftGrouped, onto, hv, id]
  | listAppend left right ihl ihr =>
    have hl : left.onto id = left := ihl h.1
    have hr : right.onto id = right := ihr h.2
    rw [leftGrouped, onto, hl, hr, id]

/-- If what comes before is grouped to the left, so is the whole. -/
private theorem leftGrouped_onto (v : SetValue ν α) {join : SetValue ν α → SetValue ν α}
    (hjoin : ∀ x : SetValue ν α, x.LeftGrouped → x.isSum = false → (join x).LeftGrouped) :
    (v.onto join).LeftGrouped := by
  induction v generalizing join with
  | operand source => exact hjoin _ trivial rfl
  | plus left right ihl ihr | minus left right ihl ihr =>
    exact ihr fun x hx hsum ↦ ⟨ihl hjoin, hx, hsum⟩
  | ifNotExists path value ih => exact hjoin _ (ih fun _ hx _ ↦ hx) rfl
  | listAppend left right ihl ihr =>
    exact hjoin _ ⟨ihl fun _ hx _ ↦ hx, ihr fun _ hx _ ↦ hx⟩ rfl

theorem leftGrouped_leftGrouped (v : SetValue ν α) : v.leftGrouped.LeftGrouped :=
  leftGrouped_onto v fun _ hx _ ↦ hx

/-- Exactly the values that are grouped to the left are kept by regrouping. -/
theorem leftGrouped_eq_self_iff {v : SetValue ν α} : v.leftGrouped = v ↔ v.LeftGrouped := by
  refine ⟨fun h ↦ ?_, LeftGrouped.leftGrouped_eq⟩
  rw [← h]
  exact leftGrouped_leftGrouped v

/-! ## What a left-grouped value denotes -/

/-- The integer that a value denotes, given those of operands and what the two functions do. -/
def denote (operand : Operand ν α → ℤ) (orElse : Path ν → ℤ → ℤ) (append : ℤ → ℤ → ℤ) :
    SetValue ν α → ℤ
  | .operand source => operand source
  | .plus left right => left.denote operand orElse append + right.denote operand orElse append
  | .minus left right => left.denote operand orElse append - right.denote operand orElse append
  | .ifNotExists path value => orElse path (value.denote operand orElse append)
  | .listAppend left right =>
    append (left.denote operand orElse append) (right.denote operand orElse append)

/-- No sum and no difference is subtracted. -/
def SubtractsTerms : SetValue ν α → Prop
  | .operand _ => True
  | .plus left right | .listAppend left right => left.SubtractsTerms ∧ right.SubtractsTerms
  | .minus left right => left.SubtractsTerms ∧ right.SubtractsTerms ∧ right.isSum = false
  | .ifNotExists _ value => value.SubtractsTerms

private theorem denote_onto {operand : Operand ν α → ℤ} {orElse : Path ν → ℤ → ℤ}
    {append : ℤ → ℤ → ℤ} {v : SetValue ν α} (h : v.SubtractsTerms)
    {join : SetValue ν α → SetValue ν α} {before : ℤ}
    (hjoin : ∀ x, (join x).denote operand orElse append =
      before + x.denote operand orElse append) :
    (v.onto join).denote operand orElse append = before + v.denote operand orElse append := by
  have hid (x : SetValue ν α) : (id x).denote operand orElse append =
      0 + x.denote operand orElse append := (Int.zero_add _).symm
  -- `before` is the number of what stands on the left; a right operand has the left one there too
  induction v generalizing join before with
  | operand source => exact hjoin _
  | plus left right ihl ihr =>
    rw [onto, ihr h.2 fun x ↦ by rw [denote, ihl h.1 hjoin], denote, Int.add_assoc]
  | minus left right ihl ihr =>
    obtain ⟨hleft, hright, hsum⟩ := h
    -- the subtracted term is not taken apart, so no sign changes
    have hterm : (right.onto id).denote operand orElse append =
        0 + right.denote operand orElse append := ihr hright hid
    rw [onto, onto_of_not_isSum hsum, denote, ihl hleft hjoin, leftGrouped, hterm, denote,
      Int.zero_add, Int.add_sub_assoc]
  | ifNotExists path value ih =>
    rw [onto, hjoin, denote, denote, ih h hid, Int.zero_add]
  | listAppend left right ihl ihr =>
    rw [onto, hjoin, denote, denote, ihl h.1 hid, ihr h.2 hid, Int.zero_add, Int.zero_add]

/-- Regrouping keeps the number that a value denotes if no sum or difference is subtracted. -/
theorem SubtractsTerms.denote_leftGrouped {v : SetValue ν α} (h : v.SubtractsTerms)
    (operand : Operand ν α → ℤ) (orElse : Path ν → ℤ → ℤ) (append : ℤ → ℤ → ℤ) :
    v.leftGrouped.denote operand orElse append = v.denote operand orElse append := by
  have hdenote : (v.onto id).denote operand orElse append =
      0 + v.denote operand orElse append := denote_onto h fun _ ↦ (Int.zero_add _).symm
  rwa [Int.zero_add] at hdenote

/-! ## Regrouping under other names -/

private theorem replace?_onto {f : ν → Option μ} {g : α → Option β} {v : SetValue ν α}
    {w : SetValue μ β} (h : v.replace? f g = some w) {join : SetValue ν α → SetValue ν α}
    {join' : SetValue μ β → SetValue μ β}
    (hjoin : ∀ x y, x.replace? f g = some y → (join x).replace? f g = some (join' y)) :
    (v.onto join).replace? f g = some (w.onto join') := by
  induction v generalizing w join join' with
  | operand source =>
    obtain ⟨o, ho, rfl⟩ := Option.map_eq_some_iff.mp h
    exact hjoin _ _ (by simp [replace?, ho])
  | plus left right ihl ihr | minus left right ihl ihr =>
    obtain ⟨l, hl, h⟩ := Option.bind_eq_some_iff.mp h
    obtain ⟨r, hr, h⟩ := Option.bind_eq_some_iff.mp h
    obtain rfl := Option.some.inj h
    exact ihr hr fun x y hxy ↦ by simp [replace?, ihl hl hjoin, hxy]
  | ifNotExists path value ih =>
    obtain ⟨p, hp, h⟩ := Option.bind_eq_some_iff.mp h
    obtain ⟨x, hx, h⟩ := Option.bind_eq_some_iff.mp h
    obtain rfl := Option.some.inj h
    have hvalue : (value.onto id).replace? f g = some (x.onto id) := ih hx fun _ _ hxy ↦ hxy
    exact hjoin _ _ (by simp [replace?, hp, hvalue])
  | listAppend left right ihl ihr =>
    obtain ⟨l, hl, h⟩ := Option.bind_eq_some_iff.mp h
    obtain ⟨r, hr, h⟩ := Option.bind_eq_some_iff.mp h
    obtain rfl := Option.some.inj h
    have hleft : (left.onto id).replace? f g = some (l.onto id) := ihl hl fun _ _ hxy ↦ hxy
    have hright : (right.onto id).replace? f g = some (r.onto id) := ihr hr fun _ _ hxy ↦ hxy
    exact hjoin _ _ (by simp [replace?, hleft, hright])

/-- Looking up the names of a value commutes with regrouping it. -/
theorem replace?_leftGrouped {f : ν → Option μ} {g : α → Option β} {v : SetValue ν α}
    {w : SetValue μ β} (h : v.replace? f g = some w) :
    v.leftGrouped.replace? f g = some w.leftGrouped :=
  replace?_onto h fun _ _ hxy ↦ hxy

/-! ## What a text does not tell -/

private theorem expression_onto (v : SetValue ℕ ℕ) {join : SetValue ℕ ℕ → SetValue ℕ ℕ}
    {before : String} (hjoin : ∀ x, (join x).expression = before ++ x.expression) :
    (v.onto join).expression = before ++ v.expression := by
  have hid (x : SetValue ℕ ℕ) : (id x).expression = "" ++ x.expression := by simp
  induction v generalizing join before with
  | operand source => exact hjoin _
  | plus left right ihl ihr | minus left right ihl ihr =>
    rw [onto, ihr fun x ↦ by rw [expression, ihl hjoin], expression]
    simp only [String.append_assoc]
  | ifNotExists path value ih =>
    rw [onto, hjoin, expression, ih hid, expression, String.empty_append]
  | listAppend left right ihl ihr =>
    rw [onto, hjoin, expression, ihl hid, ihr hid, expression, String.empty_append,
      String.empty_append]

/-- Regrouping does not change the text. -/
theorem expression_leftGrouped (v : SetValue ℕ ℕ) : v.leftGrouped.expression = v.expression := by
  have htext : (v.onto id).expression = "" ++ v.expression := expression_onto v fun x ↦ by simp
  rwa [String.empty_append] at htext

/-- Between two tables, `join` numbers a term behind what it joins it with. -/
private theorem numbered_onto {v : SetValue String AttributeValue} {n : SetValue ℕ ℕ}
    {s t t' : PlaceholderTable} (h : v.numbered.Yields t n t')
    {join : SetValue String AttributeValue → SetValue String AttributeValue}
    {join' : SetValue ℕ ℕ → SetValue ℕ ℕ}
    (hjoin : ∀ {x m u}, x.numbered.Yields t m u → (join x).numbered.Yields s (join' m) u) :
    (v.onto join).numbered.Yields s (n.onto join') t' := by
  induction v generalizing n s t t' join join' with
  | operand source =>
    obtain ⟨o, ho, rfl⟩ := Interning.yields_map_iff.mp h
    exact hjoin h
  | plus left right ihl ihr | minus left right ihl ihr =>
    simp only [numbered, Interning.yields_bind_iff, Interning.yields_pure_iff] at h
    obtain ⟨l, u, hl, r, t', hr, rfl, rfl⟩ := h
    refine ihr hr fun {x m u'} hx ↦ ?_
    simp only [numbered, Interning.yields_bind_iff, Interning.yields_pure_iff]
    exact ⟨_, u, ihl hl hjoin, m, u', hx, rfl, rfl⟩
  | ifNotExists path value ih =>
    simp only [numbered, Interning.yields_bind_iff, Interning.yields_pure_iff] at h
    obtain ⟨p, u, hp, x, t', hx, rfl, rfl⟩ := h
    refine hjoin ?_
    simp only [numbered, Interning.yields_bind_iff, Interning.yields_pure_iff]
    exact ⟨p, u, hp, _, t', ih hx id, rfl, rfl⟩
  | listAppend left right ihl ihr =>
    simp only [numbered, Interning.yields_bind_iff, Interning.yields_pure_iff] at h
    obtain ⟨l, u, hl, r, t', hr, rfl, rfl⟩ := h
    refine hjoin ?_
    simp only [numbered, Interning.yields_bind_iff, Interning.yields_pure_iff]
    exact ⟨_, u, ihl hl id, _, t', ihr hr id, rfl, rfl⟩

/-- Regrouping a value regroups its numbered form and leaves the table as it is. -/
theorem numbered_leftGrouped {v : SetValue String AttributeValue} {n : SetValue ℕ ℕ}
    {t t' : PlaceholderTable} (h : v.numbered.Yields t n t') :
    v.leftGrouped.numbered.Yields t n.leftGrouped t' :=
  numbered_onto h id

end SetValue

/-! ## Actions -/

namespace UpdateAction

variable {ν μ α β : Type}

/-- The action with the sums and differences in it grouped to the left. -/
def leftGrouped : UpdateAction ν α → UpdateAction ν α
  | .set path value => .set path value.leftGrouped
  | action => action

/-- The value that the action sets, if it sets one, is grouped to the left. -/
def LeftGrouped : UpdateAction ν α → Prop
  | .set _ value => value.LeftGrouped
  | _ => True

instance decidableLeftGrouped : ∀ a : UpdateAction ν α, Decidable a.LeftGrouped
  | .set _ value => inferInstanceAs (Decidable value.LeftGrouped)
  | .remove _ | .add _ _ | .delete _ _ => .isTrue trivial

theorem leftGrouped_eq_self_iff {a : UpdateAction ν α} : a.leftGrouped = a ↔ a.LeftGrouped := by
  cases a with
  | set path value => simp [leftGrouped, LeftGrouped, SetValue.leftGrouped_eq_self_iff]
  | remove | add | delete => simp [leftGrouped, LeftGrouped]

theorem map_leftGrouped_eq_self_iff {actions : List (UpdateAction ν α)} :
    actions.map leftGrouped = actions ↔ ∀ action ∈ actions, action.LeftGrouped := by
  have hself : actions.map leftGrouped = actions.map id ↔
      ∀ action ∈ actions, action.leftGrouped = action := List.map_inj_left
  rw [List.map_id] at hself
  simp only [hself, leftGrouped_eq_self_iff]

@[simp] theorem clause_leftGrouped (a : UpdateAction ν α) : a.leftGrouped.clause = a.clause := by
  cases a <;> rfl

theorem replace?_leftGrouped {f : ν → Option μ} {g : α → Option β} {a : UpdateAction ν α}
    {b : UpdateAction μ β} (h : a.replace? f g = some b) :
    a.leftGrouped.replace? f g = some b.leftGrouped := by
  cases a with
  | set path value =>
    obtain ⟨p, hp, h⟩ := Option.bind_eq_some_iff.mp h
    obtain ⟨v, hv, h⟩ := Option.bind_eq_some_iff.mp h
    obtain rfl := Option.some.inj h
    simp [leftGrouped, replace?, hp, SetValue.replace?_leftGrouped hv]
  | remove path =>
    obtain ⟨p, hp, rfl⟩ := Option.map_eq_some_iff.mp h
    simpa [leftGrouped] using h
  | add path value | delete path value =>
    obtain ⟨p, hp, h'⟩ := Option.bind_eq_some_iff.mp h
    obtain ⟨v, hv, h'⟩ := Option.bind_eq_some_iff.mp h'
    obtain rfl := Option.some.inj h'
    exact h

theorem expression_leftGrouped (a : UpdateAction ℕ ℕ) :
    a.leftGrouped.expression = a.expression := by
  cases a with
  | set path value => simp [leftGrouped, expression, SetValue.expression_leftGrouped]
  | remove | add | delete => rfl

theorem numbered_leftGrouped {a : UpdateAction String AttributeValue} {n : UpdateAction ℕ ℕ}
    {t t' : PlaceholderTable} (h : a.numbered.Yields t n t') :
    a.leftGrouped.numbered.Yields t n.leftGrouped t' := by
  cases a with
  | set path value =>
    simp only [numbered, Interning.yields_bind_iff, Interning.yields_pure_iff] at h
    obtain ⟨p, u, hp, v, t', hv, rfl, rfl⟩ := h
    simp only [leftGrouped, numbered, Interning.yields_bind_iff, Interning.yields_pure_iff]
    exact ⟨p, u, hp, _, t', SetValue.numbered_leftGrouped hv, rfl, rfl⟩
  | remove path =>
    obtain ⟨p, hp, rfl⟩ := Interning.yields_map_iff.mp h
    exact h
  | add path value | delete path value =>
    have hn : n.leftGrouped = n := by
      simp only [numbered, Interning.yields_bind_iff, Interning.yields_pure_iff] at h
      obtain ⟨p, u, hp, v, t', hv, rfl, rfl⟩ := h
      rfl
    rw [hn]
    exact h

theorem inClause_map_leftGrouped (clause : Clause) (actions : List (UpdateAction ν α)) :
    inClause clause (actions.map leftGrouped) = (inClause clause actions).map leftGrouped := by
  simp [inClause, List.filter_map, Function.comp_def]

theorem updateText_map_leftGrouped (actions : List (UpdateAction ℕ ℕ)) :
    updateText (actions.map leftGrouped) = updateText actions := by
  have hclause : clauseText? (actions.map leftGrouped) = clauseText? actions := by
    funext clause
    rw [clauseText?, clauseText?, inClause_map_leftGrouped]
    cases inClause clause actions with
    | nil => rfl
    | cons action rest =>
      simp [List.map_map, Function.comp_def, expression_leftGrouped]
  rw [updateText, updateText, hclause]

theorem mapM_numbered_leftGrouped {as : List (UpdateAction String AttributeValue)}
    {ns : List (UpdateAction ℕ ℕ)} {t t' : PlaceholderTable}
    (h : (as.mapM UpdateAction.numbered).Yields t ns t') :
    ((as.map leftGrouped).mapM UpdateAction.numbered).Yields t (ns.map leftGrouped) t' := by
  induction as generalizing ns t with
  | nil =>
    obtain ⟨rfl, rfl⟩ := Interning.yields_pure_iff.mp h
    exact h
  | cons a as ih =>
    simp only [List.mapM_cons, Interning.yields_bind_iff, Interning.yields_pure_iff] at h
    obtain ⟨n, u, hn, ns, t', hns, rfl, rfl⟩ := h
    simp only [List.map_cons, List.mapM_cons, Interning.yields_bind_iff,
      Interning.yields_pure_iff]
    exact ⟨_, u, numbered_leftGrouped hn, _, t', ih hns, rfl, rfl⟩

end UpdateAction
end TableClient
