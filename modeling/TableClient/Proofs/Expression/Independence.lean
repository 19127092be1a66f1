import TableClient.Expression.Compile
import TableClient.Proofs.Dict
import TableClient.Proofs.Expression.Interning
import TableClient.Proofs.Expression.Renaming

/-!
# Expressions do not depend on names and literals

Names and literals reach an expression only as placeholders. `Interning.Alike` compares two
computations, the second one over other names and literals: on a table with these names and literals
it succeeds like the first one, with the same result, and leaves the table that the first one
leaves, again with the other names and literals.

The program looks at names and literals in few places, and there only at equality of names and at
the types of literals: a name is looked up before it is interned, the sort key must not be the
partition key, the places of additions and deletions must differ, and their values must be of
certain types. An injective renaming changes none of this if the types of literals are kept.
-/

namespace TableClient

variable {f : String → String} {g : AttributeValue → AttributeValue} {α β : Type}

/-! ## Tables -/

namespace PlaceholderTable

/-- The table with other names and literals. -/
def map (f : String → String) (g : AttributeValue → AttributeValue) (t : PlaceholderTable) :
    PlaceholderTable :=
  ⟨t.names.map f, t.values.map g⟩

/-- A dictionary of numbered entries, with other values. -/
private theorem mapValues_mapIdx (h : α → β) (key : ℕ → String) (values : List α) :
    (Dict.ofList (values.mapIdx fun n value ↦ (key n, value))).mapValues h =
      Dict.ofList ((values.map h).mapIdx fun n value ↦ (key n, value)) := by
  rw [Dict.mapValues_ofList]
  congr 1
  refine List.ext_getElem? fun n ↦ ?_
  simp only [List.getElem?_map, List.getElem?_mapIdx, Option.map_map]
  rfl

theorem attributeNames_map (t : PlaceholderTable) :
    (t.map f g).attributeNames = t.attributeNames.mapValues f :=
  (mapValues_mapIdx f Placeholder.name t.names).symm

theorem attributeValues_map (t : PlaceholderTable) :
    (t.map f g).attributeValues = t.attributeValues.mapValues g :=
  (mapValues_mapIdx g Placeholder.value t.values).symm

theorem internValue_map (t : PlaceholderTable) (v : AttributeValue) :
    (t.map f g).internValue (g v) = ((t.internValue v).1, (t.internValue v).2.map f g) := by
  simp [internValue, map]

theorem idxOf?_map (hf : f.Injective) (names : List String) (s : String) :
    (names.map f).idxOf? (f s) = names.idxOf? s := by
  induction names with
  | nil => rfl
  | cons name names ih =>
    simp [List.idxOf?_cons, hf.eq_iff, ih]

theorem internName_map (hf : f.Injective) (t : PlaceholderTable) (s : String) :
    (t.map f g).internName (f s) = ((t.internName s).1, (t.internName s).2.map f g) := by
  rw [internName, internName, map, idxOf?_map hf]
  cases t.names.idxOf? s with
  | some n => rfl
  | none => simp [map]

end PlaceholderTable

/-! ## Computations -/

namespace Interning

/-- The second computation does on other names and literals what the first one does on these. -/
def Alike (f : String → String) (g : AttributeValue → AttributeValue) (m m' : Interning α) : Prop :=
  ∀ t, (m'.outcome (t.map f g)).1.toOption = (m.outcome t).1.toOption ∧
    (m'.outcome (t.map f g)).2 = (m.outcome t).2.map f g

namespace Alike

theorem pure (a : α) : Alike f g (Pure.pure a) (Pure.pure a) :=
  fun _ ↦ ⟨rfl, rfl⟩

theorem require {check check' : Except ExpressionError α} (h : check'.toOption = check.toOption) :
    Alike f g (Interning.require check) (Interning.require check') :=
  fun _ ↦ ⟨h, rfl⟩

theorem name (hf : f.Injective) (s : String) :
    Alike f g (Interning.name s) (Interning.name (f s)) := by
  intro t
  have houtcome (t : PlaceholderTable) (s : String) :
      (Interning.name s).outcome t = (.ok (t.internName s).1, (t.internName s).2) := rfl
  rw [houtcome, houtcome, PlaceholderTable.internName_map hf]
  exact ⟨rfl, rfl⟩

theorem value (v : AttributeValue) : Alike f g (Interning.value v) (Interning.value (g v)) := by
  intro t
  have houtcome (t : PlaceholderTable) (v : AttributeValue) :
      (Interning.value v).outcome t = (.ok (t.internValue v).1, (t.internValue v).2) := rfl
  rw [houtcome, houtcome, PlaceholderTable.internValue_map]
  exact ⟨rfl, rfl⟩

theorem bind {m m' : Interning α} {k k' : α → Interning β} (h : Alike f g m m')
    (hk : ∀ a, Alike f g (k a) (k' a)) : Alike f g (m >>= k) (m' >>= k') := by
  intro t
  obtain ⟨hvalue, htable⟩ := h t
  rw [outcome_bind, outcome_bind]
  -- the two fail together, though not with the same error: errors name what was wrong
  rcases hm : m.outcome t with ⟨e | a, u⟩ <;> rcases hm' : m'.outcome (t.map f g) with ⟨e' | a', u'⟩
  all_goals rw [hm, hm'] at hvalue htable
  · exact ⟨rfl, htable⟩
  · cases hvalue
  · cases hvalue
  · obtain rfl : a' = a := Option.some.inj hvalue
    obtain rfl : u' = u.map f g := htable
    exact hk a' u

theorem map {m m' : Interning α} (k : α → β) (h : Alike f g m m') :
    Alike f g (k <$> m) (k <$> m') := by
  rw [map_eq_pure_bind, map_eq_pure_bind]
  exact h.bind fun a ↦ .pure (k a)

/-- Where the first computation succeeds, so does the second one, with the same result. -/
theorem yields {m m' : Interning α} (h : Alike f g m m') {t u : PlaceholderTable} {a : α}
    (hm : m.Yields t a u) : m'.Yields (t.map f g) a (u.map f g) := by
  obtain ⟨hvalue, htable⟩ := h t
  rw [hm] at hvalue htable
  rcases hm' : m'.outcome (t.map f g) with ⟨e' | a', u'⟩
  · rw [hm'] at hvalue
    cases hvalue
  · rw [hm'] at hvalue htable
    obtain rfl : a' = a := Option.some.inj hvalue
    obtain rfl : u' = u.map f g := htable
    exact hm'

/-- Items of a list one after another, each with other names and literals. -/
theorem mapM {ι : Type} {step : ι → Interning α} {rename : ι → ι}
    (h : ∀ i, Alike f g (step i) (step (rename i))) (is : List ι) :
    Alike f g (is.mapM step) ((is.map rename).mapM step) := by
  induction is with
  | nil => exact .pure []
  | cons i is ih =>
    rw [List.map_cons, List.mapM_cons, List.mapM_cons]
    exact (h i).bind fun a ↦ ih.bind fun as ↦ .pure (a :: as)

end Alike
end Interning

open Interning (Alike)

/-! ## Numbering -/

section Numbered

variable (hf : f.Injective)
include hf

theorem PathElement.alike_numbered (e : PathElement String) :
    Alike f g e.numbered (e.map f).numbered := by
  cases e with
  | key name => exact (Alike.name hf name).map _
  | index position => exact .pure _

theorem Path.alike_numbered (p : Path String) : Alike f g p.numbered (p.map f).numbered :=
  (Alike.name hf p.root).bind fun _ ↦
    (Alike.mapM (PathElement.alike_numbered hf) p.steps).bind fun _ ↦ .pure _

theorem Operand.alike_numbered (o : Operand String AttributeValue) :
    Alike f g o.numbered (o.map f g).numbered := by
  cases o with
  | literal value => exact (Alike.value value).map _
  | reference path | size path => exact (path.alike_numbered hf).map _

omit hf in
theorem Condition.checkNode_map (c : Condition String AttributeValue) :
    (c.map f g).checkNode = c.checkNode := by
  have hreference (o : Operand String AttributeValue) :
      (o.map f g).isReference = o.isReference := by
    cases o <;> rfl
  cases c with
  | compare | between | logical | not => rfl
  | among value candidates => cases candidates <;> rfl
  | function name arguments =>
    have hany : (arguments.map (Operand.map f g)).head?.any Operand.isReference =
        arguments.head?.any Operand.isReference := by
      cases arguments with
      | nil => rfl
      | cons first rest => exact hreference first
    rw [map, checkNode, checkNode, List.length_map, hany]

theorem Condition.alike_numbered (c : Condition String AttributeValue) :
    Alike f g c.numbered (c.map f g).numbered := by
  have hop := Operand.alike_numbered (g := g) hf
  have hcheck (c : Condition String AttributeValue) :
      Alike f g (Interning.require c.checkNode) (Interning.require (c.map f g).checkNode) :=
    .require (by rw [checkNode_map])
  induction c with
  | compare left op right =>
    exact (hop left).bind fun _ ↦ (hop right).bind fun _ ↦ .pure _
  | between value low high =>
    exact (hop value).bind fun _ ↦ (hop low).bind fun _ ↦ (hop high).bind fun _ ↦
      .pure _
  | among value candidates =>
    exact (hcheck (.among value candidates)).bind fun _ ↦ (hop value).bind fun _ ↦
      (Alike.mapM hop candidates).bind fun _ ↦ .pure _
  | function name arguments =>
    exact (hcheck (.function name arguments)).bind fun _ ↦
      (Alike.mapM hop arguments).bind fun _ ↦ .pure _
  | logical op left right ihl ihr =>
    exact ihl.bind fun _ ↦ ihr.bind fun _ ↦ .pure _
  | not inner ih => exact ih.map _

theorem SetValue.alike_numbered (v : SetValue String AttributeValue) :
    Alike f g v.numbered (v.map f g).numbered := by
  induction v with
  | operand source => exact (source.alike_numbered hf).map _
  | plus left right ihl ihr => exact ihl.bind fun _ ↦ ihr.bind fun _ ↦ .pure _
  | minus left right ihl ihr => exact ihl.bind fun _ ↦ ihr.bind fun _ ↦ .pure _
  | ifNotExists path value ih =>
    exact (path.alike_numbered hf).bind fun _ ↦ ih.bind fun _ ↦ .pure _
  | listAppend left right ihl ihr =>
    exact ihl.bind fun _ ↦ ihr.bind fun _ ↦ .pure _

theorem UpdateAction.alike_numbered (a : UpdateAction String AttributeValue) :
    Alike f g a.numbered (a.map f g).numbered := by
  cases a with
  | set path value =>
    exact (path.alike_numbered hf).bind fun _ ↦ (value.alike_numbered hf).bind fun _ ↦
      .pure _
  | remove path => exact (path.alike_numbered hf).map _
  | add path value =>
    exact (path.alike_numbered hf).bind fun _ ↦ (Alike.value value).bind fun _ ↦ .pure _
  | delete path value =>
    exact (path.alike_numbered hf).bind fun _ ↦ (Alike.value value).bind fun _ ↦ .pure _

end Numbered

/-! ## Checks -/

namespace Path

theorem attribute?_map (p : Path String) : (p.map f).attribute? = p.attribute?.map f := by
  rw [attribute?, attribute?, map, List.isEmpty_map]
  split <;> rfl

theorem map_injective (hf : f.Injective) : (map f).Injective := by
  have helement : (PathElement.map f).Injective := by
    intro e e' h
    cases e <;> cases e' <;> simp_all [PathElement.map, hf.eq_iff]
  rintro ⟨root, steps⟩ ⟨root', steps'⟩ h
  obtain ⟨hroot, hsteps⟩ := Path.mk.inj h
  obtain rfl : root = root' := hf hroot
  obtain rfl : steps = steps' := List.map_injective_iff.mpr helement hsteps
  rfl

end Path

theorem Operand.attribute?_map (o : Operand String AttributeValue) :
    (o.map f g).attribute? = o.attribute?.map f := by
  cases o with
  | reference path => exact path.attribute?_map
  | literal | size => rfl

namespace Condition

variable (c : Condition String AttributeValue)

theorem partition?_map : (c.map f g).partition? = c.partition?.map f := by
  cases c with
  | between | among | function | logical | not => rfl
  | compare left op right =>
    cases right with
    | reference | size => cases op <;> rfl
    | literal value =>
      cases op with
      | eq => exact left.attribute?_map
      | ne | lt | le | gt | ge => rfl

theorem subject?_map : (c.map f g).subject? = c.subject?.map f := by
  cases c with
  | compare value | between value => exact value.attribute?_map
  | among | logical | not => rfl
  | function name arguments =>
    cases arguments with
    | nil => rfl
    | cons value rest => exact value.attribute?_map

theorem isSortCondition_map (hf : f.Injective) (name : String) :
    (c.map f g).isSortCondition (f name) = c.isSortCondition name := by
  have hattribute (o : Operand String AttributeValue) :
      decide ((o.map f g).attribute? = some (f name)) = decide (o.attribute? = some name) := by
    rw [decide_eq_decide, Operand.attribute?_map]
    exact (Option.map_injective hf).eq_iff (b := some name)
  cases c with
  | among | logical | not => rfl
  | compare left op right =>
    cases right with
    | reference | size => rfl
    | literal value => exact congrArg (decide (op ≠ .ne) && ·) (hattribute left)
  | between value low high =>
    cases low with
    | reference | size => rfl
    | literal low =>
      cases high with
      | reference | size => rfl
      | literal high => exact hattribute value
  | function word arguments =>
    cases word with
    | attributeExists | attributeNotExists | attributeType | contains => rfl
    | beginsWith =>
      rcases arguments with _ | ⟨value, _ | ⟨_ | _ | _, _ | ⟨_, _⟩⟩⟩
      -- only a pair whose second argument is a literal can be a sort condition
      case cons.cons.literal.nil => exact hattribute value
      all_goals rfl

theorem checkKey_map (hf : f.Injective) (sort : Option (Condition String AttributeValue)) :
    ((c.map f g).checkKey (sort.map (map f g))).toOption = (c.checkKey sort).toOption := by
  simp only [checkKey, partition?_map]
  cases c.partition? with
  | none => rfl
  | some hash =>
    cases sort with
    | none => rfl
    | some sort =>
      simp only [Option.map_some, subject?_map]
      cases sort.subject? with
      | none => rfl
      | some range =>
        simp only [Option.map_some, hf.eq_iff, isSortCondition_map sort hf]
        split
        · rfl
        · split <;> rfl

end Condition

namespace UpdateAction

theorem clashes_map (hf : f.Injective) (a b : UpdateAction String AttributeValue) :
    (a.map f g).clashes (b.map f g) = a.clashes b := by
  cases a <;> cases b <;> simp [map, clashes, (Path.map_injective hf).eq_iff]

theorem inClause_map (clause : Clause) (actions : List (UpdateAction String AttributeValue)) :
    inClause clause (actions.map (map f g)) = (inClause clause actions).map (map f g) := by
  have hclause (a : UpdateAction String AttributeValue) : (a.map f g).clause = a.clause := by
    cases a <;> rfl
  simp only [inClause, List.filter_map, Function.comp_def, hclause]

theorem byClause_map (actions : List (UpdateAction String AttributeValue)) :
    byClause (actions.map (map f g)) = (byClause actions).map (map f g) := by
  simp only [byClause, inClause_map, List.map_flatMap]

variable (hg : ∀ v, (g v).tag = v.tag)
include hg

theorem checkValue_map (a : UpdateAction String AttributeValue) :
    (a.map f g).checkValue = a.checkValue := by
  have hset (v : AttributeValue) : v.isSet = decide (v.tag ∈ [.ss, .ns, .bs]) := by
    cases v <;> rfl
  have hnumber (v : AttributeValue) : v.isNumber = decide (v.tag = .n) := by
    cases v <;> rfl
  cases a with
  | set | remove => rfl
  | add path value | delete path value => simp only [map, checkValue, hset, hnumber, hg]

theorem checkFrom_map (hf : f.Injective)
    (earlier actions : List (UpdateAction String AttributeValue)) :
    (checkFrom (earlier.map (map f g)) (actions.map (map f g))).toOption =
      (checkFrom earlier actions).toOption := by
  -- each action is compared with those before it, so the induction is for any such actions
  induction actions generalizing earlier with
  | nil => rfl
  | cons action rest ih =>
    have hclash : (earlier.map (map f g)).find? (·.clashes (action.map f g)) =
        (earlier.find? (·.clashes action)).map (map f g) := by
      simp only [List.find?_map, Function.comp_def, clashes_map hf]
    rw [List.map_cons, checkFrom, checkFrom, checkValue_map hg, hclash]
    cases action.checkValue with
    | error e => rfl
    | ok u =>
      cases earlier.find? (·.clashes action) with
      | some other => rfl
      | none =>
        have hrest := ih (earlier ++ [action])
        rwa [List.map_append] at hrest

theorem check_map (hf : f.Injective) (actions : List (UpdateAction String AttributeValue)) :
    (check (actions.map (map f g))).toOption = (check actions).toOption := by
  rw [check, check, List.isEmpty_map]
  split
  · rfl
  · exact checkFrom_map hg hf [] actions

end UpdateAction

/-! ## Compilation -/

namespace Interning.Alike

variable (hf : f.Injective)
include hf

theorem compile (c : Condition String AttributeValue) :
    Alike f g c.compile (c.map f g).compile :=
  (c.alike_numbered hf).map _

theorem compileKey (partition : Condition String AttributeValue)
    (sort : Option (Condition String AttributeValue)) :
    Alike f g (partition.compileKey sort)
      ((partition.map f g).compileKey (sort.map (Condition.map f g))) := by
  have hvalue (r : Except KeyConditionFault Unit) :
      (r.mapError ExpressionError.invalidKeyCondition).toOption = r.toOption := by
    cases r <;> rfl
  refine (Alike.require ?_).bind fun _ ↦ ?_
  · rw [hvalue, hvalue, partition.checkKey_map hf sort]
  · cases sort with
    | none => exact compile hf partition
    | some sort =>
      exact (compile hf partition).bind fun _ ↦ (compile hf sort).bind fun _ ↦ .pure _

theorem compileProjection (paths : List (Path String)) :
    Alike f g (Path.compileProjection paths) (Path.compileProjection (paths.map (Path.map f))) :=
  (Alike.mapM (Path.alike_numbered hf) paths).bind fun _ ↦ .pure _

theorem compileUpdate (hg : ∀ v, (g v).tag = v.tag)
    (actions : List (UpdateAction String AttributeValue)) :
    Alike f g (UpdateAction.compile actions)
      (UpdateAction.compile (actions.map (UpdateAction.map f g))) := by
  refine (Alike.require (UpdateAction.check_map hg hf actions)).bind fun _ ↦ ?_
  rw [UpdateAction.byClause_map]
  exact (Alike.mapM (UpdateAction.alike_numbered hf) _).map _

end Interning.Alike

/-- **Independence.** Let names be replaced by others, distinct ones by distinct ones, and literals
by any others, in a table and in what is compiled with it. The compilation of conditions, of key
conditions and of projections succeeds as before, with the same text, and the dictionaries of the
table that is left are those from before with their entries replaced. The same holds of updates if
each literal is replaced by one of its type. -/
theorem expressions_independent_of_names_and_literals {f : String → String} (hf : f.Injective)
    (g : AttributeValue → AttributeValue) :
    (∀ c : Condition String AttributeValue, Alike f g c.compile (c.map f g).compile) ∧
    (∀ (partition : Condition String AttributeValue)
      (sort : Option (Condition String AttributeValue)),
      Alike f g (partition.compileKey sort)
        ((partition.map f g).compileKey (sort.map (Condition.map f g)))) ∧
    (∀ paths : List (Path String),
      Alike f g (Path.compileProjection paths) (Path.compileProjection (paths.map (Path.map f)))) ∧
    ((∀ v, (g v).tag = v.tag) → ∀ actions : List (UpdateAction String AttributeValue),
      Alike f g (UpdateAction.compile actions)
        (UpdateAction.compile (actions.map (UpdateAction.map f g)))) ∧
    (∀ t : PlaceholderTable, (t.map f g).attributeNames = t.attributeNames.mapValues f ∧
      (t.map f g).attributeValues = t.attributeValues.mapValues g) :=
  ⟨.compile hf, .compileKey hf, .compileProjection hf, fun hg ↦ .compileUpdate hf hg,
    fun t ↦ ⟨t.attributeNames_map, t.attributeValues_map⟩⟩

/-! ## Names and literals that look like expressions -/

private def hostileName (name : String) : String :=
  "#0 = :0 OR " ++ name

private def hostileLiteral : AttributeValue → AttributeValue
  | .string text => .string (text ++ ") OR (:0 = :0")
  | value => value

/-- Names and literals that look like parts of an expression stay behind their placeholders. -/
theorem hostile_update_has_plain_expression :
    hostileName.Injective ∧ (∀ v, (hostileLiteral v).tag = v.tag) ∧
    (UpdateAction.compile [.add ⟨"#0 = :0 OR A", []⟩ (.number "1"),
        .set ⟨"#0 = :0 OR B", [.key "#0 = :0 OR A"]⟩
          (.operand (.literal (.string "x) OR (:0 = :0")))]).Yields ⟨[], []⟩
      "SET #0.#1 = :0 ADD #1 :1"
      ⟨["#0 = :0 OR B", "#0 = :0 OR A"], [.string "x) OR (:0 = :0", .number "1"]⟩ := by
  have hname : hostileName.Injective := fun _ _ h ↦ (String.append_right_inj _).mp h
  have htag (v : AttributeValue) : (hostileLiteral v).tag = v.tag := by
    cases v <;> rfl
  have hplain : (UpdateAction.compile [.add ⟨"A", []⟩ (.number "1"),
      .set ⟨"B", [.key "A"]⟩ (.operand (.literal (.string "x")))]).Yields ⟨[], []⟩
      "SET #0.#1 = :0 ADD #1 :1" ⟨["B", "A"], [.string "x", .number "1"]⟩ := rfl
  obtain ⟨-, -, -, hupdate, -⟩ := expressions_independent_of_names_and_literals hname hostileLiteral
  exact ⟨hname, htag, (hupdate htag _).yields hplain⟩

end TableClient
