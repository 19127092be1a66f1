import TableClient.Expression.Compile
import TableClient.Proofs.Expression.Numbering

/-!
# What a computation interns

A table that interns names and literals one after another depends on them alone, in their order
(`PlaceholderTable.interned`): names that are not known are added where they come first, literals
always. A computation that cannot fail interns the same names and literals whatever the table is
(`Interning.Interns`), and computations one after another intern what each of them does. So for a
tree it is enough to know its names and literals from left to right.
-/

namespace TableClient

namespace PlaceholderTable

/-- The table once these names and literals are interned, each in their order. A name that is not
yet known is added where it comes first, a literal always. -/
def interned (t : PlaceholderTable) (names : List String) (values : List AttributeValue) :
    PlaceholderTable where
  names := t.names ++ (names.filter (· ∉ t.names)).eraseDups
  values := t.values ++ values

variable (t : PlaceholderTable) (names names' : List String) (values values' : List AttributeValue)

@[simp] theorem interned_nil : t.interned [] [] = t := by
  simp [interned]

theorem interned_append : t.interned (names ++ names') (values ++ values') =
    (t.interned names values).interned names' values' := by
  -- of the later names those are new that are neither known nor among the earlier ones
  have hnew : (names'.filter (· ∉ t.names)).removeAll (names.filter (· ∉ t.names)) =
      names'.filter (· ∉ t.names ++ (names.filter (· ∉ t.names)).eraseDups) := by
    rw [List.removeAll, List.filter_filter]
    refine List.filter_congr fun name _ ↦ ?_
    by_cases hknown : name ∈ t.names <;> simp [hknown]
  simp only [interned, List.filter_append, List.eraseDups_append, hnew, List.append_assoc]
  rfl

theorem interned_name (name : String) : t.interned [name] [] = (t.internName name).2 := by
  unfold internName
  cases hidx : t.names.idxOf? name with
  | none =>
    have hnew : name ∉ t.names := List.idxOf?_eq_none_iff.mp hidx
    simp [interned, hnew, List.eraseDups_cons]
  | some n =>
    obtain ⟨hlt, hget, -⟩ := List.idxOf?_eq_some_iff.mp hidx
    have hknown : name ∈ t.names := hget ▸ List.getElem_mem hlt
    simp [interned, hknown]

theorem interned_value (value : AttributeValue) :
    t.interned [] [value] = (t.internValue value).2 := by
  simp [interned, internValue]

theorem interned_name_cons (name : String) :
    t.interned (name :: names) values = (t.internName name).2.interned names values := by
  rw [← t.interned_name, ← t.interned_append]
  rfl

theorem interned_value_cons (value : AttributeValue) :
    t.interned [] (value :: values) = (t.internValue value).2.interned [] values := by
  rw [← t.interned_value, ← t.interned_append]
  rfl

theorem names_prefix_interned : t.names <+: (t.interned names values).names :=
  List.prefix_append _ _

theorem values_prefix_interned : t.values <+: (t.interned names values).values :=
  List.prefix_append _ _

end PlaceholderTable

/-! ## Computations that cannot fail -/

namespace Interning

variable {α β ι : Type} {m : Interning α} {names names' : List String}
  {values values' : List AttributeValue}

/-- The computation succeeds on every table, and interns exactly these names and literals. -/
def Interns (m : Interning α) (names : List String) (values : List AttributeValue) : Prop :=
  ∀ t, ∃ a, m.Yields t a (t.interned names values)

namespace Interns

theorem pure (a : α) : Interns (Pure.pure a) [] [] :=
  fun t ↦ ⟨a, yields_pure_iff.mpr ⟨rfl, t.interned_nil.symm⟩⟩

theorem require {check : Except ExpressionError α} {a : α} (h : check = .ok a) :
    Interns (Interning.require check) [] [] :=
  fun t ↦ ⟨a, yields_require_iff.mpr ⟨h, t.interned_nil.symm⟩⟩

theorem name (s : String) : Interns (Interning.name s) [s] [] :=
  fun t ↦ ⟨_, yields_name_iff.mpr (Prod.ext rfl (t.interned_name s).symm)⟩

theorem value (v : AttributeValue) : Interns (Interning.value v) [] [v] :=
  fun t ↦ ⟨_, yields_value_iff.mpr (Prod.ext rfl (t.interned_value v).symm)⟩

theorem bind {k : α → Interning β} (h : Interns m names values)
    (hk : ∀ a, Interns (k a) names' values') :
    Interns (m >>= k) (names ++ names') (values ++ values') := by
  intro t
  obtain ⟨a, hm⟩ := h t
  obtain ⟨b, hb⟩ := hk a (t.interned names values)
  rw [← t.interned_append] at hb
  exact ⟨b, yields_bind_iff.mpr ⟨a, _, hm, hb⟩⟩

theorem map (k : α → β) (h : Interns m names values) : Interns (k <$> m) names values := by
  intro t
  obtain ⟨a, hm⟩ := h t
  exact ⟨k a, yields_map_iff.mpr ⟨a, hm, rfl⟩⟩

theorem mapM {step : ι → Interning α} {names : ι → List String} {values : ι → List AttributeValue}
    (h : ∀ i, Interns (step i) (names i) (values i)) (is : List ι) :
    Interns (is.mapM step) (is.flatMap names) (is.flatMap values) := by
  induction is with
  | nil => exact .pure []
  | cons i is ih =>
    rw [List.mapM_cons, List.flatMap_cons, List.flatMap_cons]
    exact (h i).bind fun a ↦ ih.map (a :: ·)

end Interns

/-- The computation succeeds on every table, and interns what stands in these operands. -/
def InternsOf (m : Interning α) (os : List (Operand String AttributeValue)) : Prop :=
  Interns m (os.flatMap Operand.names) (os.filterMap Operand.literal?)

namespace InternsOf

variable {os os' : List (Operand String AttributeValue)}

theorem value (v : AttributeValue) : InternsOf (Interning.value v) [.literal v] :=
  Interns.value v

theorem bind {k : α → Interning β} (h : InternsOf m os) (hk : ∀ a, InternsOf (k a) os') :
    InternsOf (m >>= k) (os ++ os') := by
  rw [InternsOf, List.flatMap_append, List.filterMap_append]
  exact Interns.bind h hk

theorem map (k : α → β) (h : InternsOf m os) : InternsOf (k <$> m) os :=
  Interns.map k h

/-- A check that succeeds interns nothing. -/
theorem checked {check : Except ExpressionError ι} {i : ι} {k : ι → Interning β}
    (hcheck : check = .ok i) (hk : ∀ i, InternsOf (k i) os) :
    InternsOf (require check >>= k) os :=
  (Interns.require hcheck).bind hk

theorem mapM {step : ι → Interning α} {operands : ι → List (Operand String AttributeValue)}
    (h : ∀ i, InternsOf (step i) (operands i)) (is : List ι) :
    InternsOf (is.mapM step) (is.flatMap operands) := by
  rw [InternsOf, List.flatMap_assoc, List.filterMap_flatMap]
  exact Interns.mapM h is

end InternsOf
end Interning

/-! ## Paths and operands -/

open Interning (Interns InternsOf)

theorem PathElement.interns_numbered (e : PathElement String) :
    Interns e.numbered e.name?.toList [] := by
  cases e with
  | key name => exact (Interns.name name).map _
  | index position => exact .pure _

theorem Path.interns_numbered (p : Path String) : Interns p.numbered p.names [] := by
  have hsteps := Interns.mapM PathElement.interns_numbered p.steps
  have hliterals : p.steps.flatMap (fun _ ↦ ([] : List AttributeValue)) = [] :=
    List.flatMap_eq_nil_iff.mpr fun _ _ ↦ rfl
  rw [← List.filterMap_eq_flatMap_toList, hliterals] at hsteps
  exact (Interns.name p.root).bind fun root ↦ hsteps.map (Path.mk root)

theorem Path.internsOf_numbered (p : Path String) : InternsOf p.numbered [.reference p] := by
  have hnames : ([.reference p] : List (Operand String AttributeValue)).flatMap Operand.names =
      p.names := List.append_nil _
  rw [InternsOf, hnames]
  exact p.interns_numbered

theorem Operand.internsOf_numbered (o : Operand String AttributeValue) :
    InternsOf o.numbered [o] := by
  cases o with
  | literal value => exact (InternsOf.value value).map _
  | reference path | size path => exact path.internsOf_numbered.map _

theorem Operand.internsOf_mapM_numbered (os : List (Operand String AttributeValue)) :
    InternsOf (os.mapM numbered) os := by
  have hos := InternsOf.mapM internsOf_numbered os
  rwa [List.flatMap_singleton'] at hos

theorem Path.internsOf_compileProjection (paths : List (Path String)) :
    InternsOf (compileProjection paths) (paths.map .reference) := by
  rw [List.map_eq_flatMap]
  exact (InternsOf.mapM internsOf_numbered paths).map fun ns ↦ commaSeparated (ns.map expression)

end TableClient
