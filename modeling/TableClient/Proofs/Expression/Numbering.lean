import TableClient.Proofs.Expression.Interning
import TableClient.Proofs.Expression.Renaming

/-!
# What numbering does to a tree

Each kind of tree has one theorem here, all of the same form: if the numbering of a tree succeeds,
the operands of the numbered tree were interned from left to right (`NumberingOf`), and looking its
numbers up in the table that is left gives the tree back. A later table only knows more, so the
statement about a tree follows from those about its parts.
-/

namespace TableClient

variable {ν α β : Type}

/-! ## The operands of a tree -/

/-- The name in a step, if it is one to a key. -/
def PathElement.name? : PathElement ν → Option ν
  | .key name => some name
  | .index _ => none

/-- The names of a path, from left to right. -/
def Path.names (p : Path ν) : List ν :=
  p.root :: p.steps.filterMap PathElement.name?

/-- The names of an operand, from left to right. -/
def Operand.names (o : Operand ν α) : List ν :=
  o.path?.elim [] Path.names

/-- The operands of a value in the order of the written form; the place of a default is one. -/
def SetValue.operands : SetValue ν α → List (Operand ν α)
  | .operand source => [source]
  | .plus left right | .minus left right | .listAppend left right => left.operands ++ right.operands
  | .ifNotExists path value => .reference path :: value.operands

/-- The operands of an action in the order of the written form, the changed place first. -/
def UpdateAction.operands : UpdateAction ν α → List (Operand ν α)
  | .set path value => .reference path :: value.operands
  | .remove path => [.reference path]
  | .add path value | .delete path value => [.reference path, .literal value]

/-! ## Interned operands -/

namespace PlaceholderTable

/-- The name with this number. -/
def name? (t : PlaceholderTable) (n : ℕ) : Option String :=
  t.names[n]?

/-- The literal with this number. -/
def value? (t : PlaceholderTable) (n : ℕ) : Option AttributeValue :=
  t.values[n]?

end PlaceholderTable

/-- Between two tables these operands were interned, in this order. -/
def NumberingOf (t t' : PlaceholderTable) (os : List (Operand ℕ ℕ)) : Prop :=
  Numbering t t' (os.flatMap Operand.names) (os.filterMap Operand.literal?)

namespace NumberingOf

variable {t u t' : PlaceholderTable} {os os' : List (Operand ℕ ℕ)}

theorem refl (t : PlaceholderTable) : NumberingOf t t [] :=
  Numbering.refl t

theorem append (h : NumberingOf t u os) (h' : NumberingOf u t' os') :
    NumberingOf t t' (os ++ os') := by
  rw [NumberingOf, List.flatMap_append, List.filterMap_append]
  exact Numbering.trans h h'

theorem cons {o : Operand ℕ ℕ} (h : NumberingOf t u [o]) (h' : NumberingOf u t' os) :
    NumberingOf t t' (o :: os) :=
  h.append h'

theorem name? (h : NumberingOf t t' os) (n : ℕ) (s : String) (hn : t.name? n = some s) :
    t'.name? n = some s :=
  h.getElem?_names hn

theorem value? (h : NumberingOf t t' os) (n : ℕ) (v : AttributeValue) (hn : t.value? n = some v) :
    t'.value? n = some v :=
  h.getElem?_values hn

/-- Operands without literals leave the literals of a table as they are. -/
theorem values_eq (h : NumberingOf t t' os) (hos : os.filterMap Operand.literal? = []) :
    t'.values = t.values := by
  have hliterals := h.literals_eq
  rw [hos, eq_comm, List.range'_eq_nil_iff] at hliterals
  exact (h.values_prefix.eq_of_length_le (Nat.sub_eq_zero_iff_le.mp hliterals)).symm

end NumberingOf

/-! ## Lists -/

/-- Numbering the items of a list one after another, given what numbering one of them does. -/
theorem numberingOf_mapM {numbered : α → Interning β} (operands : β → List (Operand ℕ ℕ))
    (replace? : PlaceholderTable → β → Option α)
    (hitem : ∀ {a b t t'}, (numbered a).Yields t b t' →
      NumberingOf t t' (operands b) ∧ replace? t' b = some a)
    (hlater : ∀ {a b t t' os}, NumberingOf t t' os → replace? t b = some a →
      replace? t' b = some a)
    {as : List α} {bs : List β} {t t' : PlaceholderTable}
    (h : (as.mapM numbered).Yields t bs t') :
    NumberingOf t t' (bs.flatMap operands) ∧ bs.mapM (replace? t') = some as := by
  induction as generalizing bs t with
  | nil =>
    obtain ⟨rfl, rfl⟩ := Interning.yields_pure_iff.mp h
    exact ⟨.refl t, rfl⟩
  | cons a as ih =>
    simp only [List.mapM_cons, Interning.yields_bind_iff, Interning.yields_pure_iff] at h
    obtain ⟨b, u, hb, bs, t', hbs, rfl, rfl⟩ := h
    obtain ⟨hnum, hrep⟩ := hitem hb
    obtain ⟨hnums, hreps⟩ := ih hbs
    -- the first item was read from an earlier table, which the rest only appended to
    refine ⟨?_, ?_⟩
    · rw [List.flatMap_cons]
      exact hnum.append hnums
    · rw [List.mapM_cons, hlater hnums hrep, hreps]
      rfl

/-! ## Paths and operands -/

namespace PathElement

theorem numbered_spec {e : PathElement String} {n : PathElement ℕ} {t t' : PlaceholderTable}
    (h : e.numbered.Yields t n t') :
    Numbering t t' n.name?.toList [] ∧ n.replace? t'.name? = some e := by
  cases e with
  | index position =>
    obtain ⟨rfl, rfl⟩ := Interning.yields_pure_iff.mp h
    exact ⟨.refl t, rfl⟩
  | key name =>
    obtain ⟨m, hm, rfl⟩ := Interning.yields_map_iff.mp h
    obtain ⟨hnum, hname⟩ := Numbering.of_internName (Interning.yields_name_iff.mp hm)
    exact ⟨hnum, by simp [replace?, PlaceholderTable.name?, hname]⟩

theorem mapM_numbered_spec {es : List (PathElement String)} {ns : List (PathElement ℕ)}
    {t t' : PlaceholderTable} (h : (es.mapM numbered).Yields t ns t') :
    Numbering t t' (ns.filterMap name?) [] ∧
      ns.mapM (PathElement.replace? t'.name?) = some es := by
  induction es generalizing ns t with
  | nil =>
    obtain ⟨rfl, rfl⟩ := Interning.yields_pure_iff.mp h
    exact ⟨.refl t, rfl⟩
  | cons e es ih =>
    simp only [List.mapM_cons, Interning.yields_bind_iff, Interning.yields_pure_iff] at h
    obtain ⟨n, u, hn, ns, t', hns, rfl, rfl⟩ := h
    obtain ⟨hnum, hrep⟩ := numbered_spec hn
    obtain ⟨hnums, hreps⟩ := ih hns
    refine ⟨?_, ?_⟩
    · have hnames : (n :: ns).filterMap name? = n.name?.toList ++ ns.filterMap name? := by
        cases n <;> rfl
      rw [hnames]
      exact hnum.trans hnums
    · have hrep' := replace?_mono (fun _ _ ↦ hnums.getElem?_names) hrep
      rw [List.mapM_cons, show n.replace? t'.name? = some e from hrep', hreps]
      rfl

end PathElement

theorem Path.numbered_spec {p : Path String} {n : Path ℕ} {t t' : PlaceholderTable}
    (h : p.numbered.Yields t n t') :
    NumberingOf t t' [.reference n] ∧ n.replace? t'.name? = some p := by
  simp only [Path.numbered, Interning.yields_bind_iff, Interning.yields_pure_iff] at h
  obtain ⟨root, u, hroot, steps, t', hsteps, rfl, rfl⟩ := h
  obtain ⟨hnum, hname⟩ := Numbering.of_internName (Interning.yields_name_iff.mp hroot)
  obtain ⟨hnums, hreps⟩ := PathElement.mapM_numbered_spec hsteps
  refine ⟨?_, ?_⟩
  · have hnames : ([.reference ⟨root, steps⟩] : List (Operand ℕ ℕ)).flatMap Operand.names
        = [root] ++ steps.filterMap PathElement.name? := by
      simp [Operand.names, Operand.path?, Path.names]
    rw [NumberingOf, hnames]
    exact hnum.trans hnums
  · have hroot' : t'.name? root = some p.root := hnums.getElem?_names hname
    simp [replace?, hroot', hreps]

theorem Operand.numbered_spec {o : Operand String AttributeValue} {n : Operand ℕ ℕ}
    {t t' : PlaceholderTable} (h : o.numbered.Yields t n t') :
    NumberingOf t t' [n] ∧ n.replace? t'.name? t'.value? = some o := by
  cases o with
  | literal value =>
    obtain ⟨m, hm, rfl⟩ := Interning.yields_map_iff.mp h
    obtain ⟨hnum, hvalue⟩ := Numbering.of_internValue (Interning.yields_value_iff.mp hm)
    exact ⟨hnum, by simp [replace?, PlaceholderTable.value?, hvalue]⟩
  | reference path | size path =>
    obtain ⟨m, hm, rfl⟩ := Interning.yields_map_iff.mp h
    obtain ⟨hnum, hrep⟩ := Path.numbered_spec hm
    exact ⟨hnum, by simp [replace?, hrep]⟩

theorem Operand.replace?_later {o : Operand ℕ ℕ} {o' : Operand String AttributeValue}
    {t t' : PlaceholderTable} {os : List (Operand ℕ ℕ)} (h : NumberingOf t t' os)
    (ho : o.replace? t.name? t.value? = some o') : o.replace? t'.name? t'.value? = some o' :=
  replace?_mono h.name? h.value? ho

theorem Operand.mapM_numbered_spec {os : List (Operand String AttributeValue)}
    {ns : List (Operand ℕ ℕ)} {t t' : PlaceholderTable}
    (h : (os.mapM Operand.numbered).Yields t ns t') :
    NumberingOf t t' ns ∧ ns.mapM (Operand.replace? t'.name? t'.value?) = some os := by
  have hspec := numberingOf_mapM (fun n ↦ [n])
    (fun t n ↦ Operand.replace? t.name? t.value? n) Operand.numbered_spec Operand.replace?_later h
  simpa using hspec

theorem Path.mapM_numbered_spec {ps : List (Path String)} {ns : List (Path ℕ)}
    {t t' : PlaceholderTable} (h : (ps.mapM Path.numbered).Yields t ns t') :
    NumberingOf t t' (ns.map .reference) ∧ ns.mapM (Path.replace? t'.name?) = some ps := by
  rw [List.map_eq_flatMap]
  exact numberingOf_mapM (fun n ↦ [.reference n]) (fun t n ↦ Path.replace? t.name? n)
    Path.numbered_spec (fun hnum ↦ Path.replace?_mono hnum.name?) h

/-! ## Conditions -/

theorem Condition.numbered_spec {c : Condition String AttributeValue} {n : Condition ℕ ℕ}
    {t t' : PlaceholderTable} (h : c.numbered.Yields t n t') :
    NumberingOf t t' n.operands ∧ n.replace? t'.name? t'.value? = some c := by
  induction c generalizing n t t' with
  | compare left op right =>
    simp only [numbered, Interning.yields_bind_iff, Interning.yields_pure_iff] at h
    obtain ⟨l, u, hl, r, t', hr, rfl, rfl⟩ := h
    obtain ⟨hnum, hrep⟩ := Operand.numbered_spec hl
    obtain ⟨hnum', hrep'⟩ := Operand.numbered_spec hr
    exact ⟨hnum.append hnum', by simp [replace?, Operand.replace?_later hnum' hrep, hrep']⟩
  | between value low high =>
    simp only [numbered, Interning.yields_bind_iff, Interning.yields_pure_iff] at h
    obtain ⟨v, u, hv, l, u', hl, r, t', hr, rfl, rfl⟩ := h
    obtain ⟨hnum, hrep⟩ := Operand.numbered_spec hv
    obtain ⟨hnum', hrep'⟩ := Operand.numbered_spec hl
    obtain ⟨hnum'', hrep''⟩ := Operand.numbered_spec hr
    refine ⟨hnum.append (hnum'.append hnum''), ?_⟩
    simp [replace?, Operand.replace?_later (hnum'.append hnum'') hrep,
      Operand.replace?_later hnum'' hrep', hrep'']
  | among value candidates =>
    simp only [numbered, Interning.yields_bind_iff, Interning.yields_pure_iff,
      Interning.yields_require_iff] at h
    obtain ⟨-, _, ⟨-, rfl⟩, v, u, hv, ns, t', hns, rfl, rfl⟩ := h
    obtain ⟨hnum, hrep⟩ := Operand.numbered_spec hv
    obtain ⟨hnum', hrep'⟩ := Operand.mapM_numbered_spec hns
    exact ⟨hnum.append hnum', by simp [replace?, Operand.replace?_later hnum' hrep, hrep']⟩
  | function name arguments =>
    simp only [numbered, Interning.yields_bind_iff, Interning.yields_pure_iff,
      Interning.yields_require_iff] at h
    obtain ⟨-, _, ⟨-, rfl⟩, ns, t', hns, rfl, rfl⟩ := h
    obtain ⟨hnum, hrep⟩ := Operand.mapM_numbered_spec hns
    exact ⟨hnum, by simp [replace?, hrep]⟩
  | logical op left right ihl ihr =>
    simp only [numbered, Interning.yields_bind_iff, Interning.yields_pure_iff] at h
    obtain ⟨l, u, hl, r, t', hr, rfl, rfl⟩ := h
    obtain ⟨hnum, hrep⟩ := ihl hl
    obtain ⟨hnum', hrep'⟩ := ihr hr
    have hrep := replace?_mono hnum'.name? hnum'.value? hrep
    exact ⟨hnum.append hnum', by simp [replace?, hrep, hrep']⟩
  | not inner ih =>
    obtain ⟨i, hi, rfl⟩ := Interning.yields_map_iff.mp h
    obtain ⟨hnum, hrep⟩ := ih hi
    exact ⟨hnum, by simp [replace?, hrep]⟩

/-! ## Updates -/

theorem SetValue.numbered_spec {v : SetValue String AttributeValue} {n : SetValue ℕ ℕ}
    {t t' : PlaceholderTable} (h : v.numbered.Yields t n t') :
    NumberingOf t t' n.operands ∧ n.replace? t'.name? t'.value? = some v := by
  induction v generalizing n t t' with
  | operand source =>
    obtain ⟨o, ho, rfl⟩ := Interning.yields_map_iff.mp h
    obtain ⟨hnum, hrep⟩ := Operand.numbered_spec ho
    exact ⟨hnum, by simp [replace?, hrep]⟩
  | plus left right ihl ihr | minus left right ihl ihr | listAppend left right ihl ihr =>
    simp only [numbered, Interning.yields_bind_iff, Interning.yields_pure_iff] at h
    obtain ⟨l, u, hl, r, t', hr, rfl, rfl⟩ := h
    obtain ⟨hnum, hrep⟩ := ihl hl
    obtain ⟨hnum', hrep'⟩ := ihr hr
    have hrep := replace?_mono hnum'.name? hnum'.value? hrep
    exact ⟨hnum.append hnum', by simp [replace?, hrep, hrep']⟩
  | ifNotExists path value ih =>
    simp only [numbered, Interning.yields_bind_iff, Interning.yields_pure_iff] at h
    obtain ⟨p, u, hp, v, t', hv, rfl, rfl⟩ := h
    obtain ⟨hnum, hrep⟩ := Path.numbered_spec hp
    obtain ⟨hnum', hrep'⟩ := ih hv
    have hrep := Path.replace?_mono hnum'.name? hrep
    exact ⟨hnum.cons hnum', by simp [replace?, hrep, hrep']⟩

theorem UpdateAction.numbered_spec {a : UpdateAction String AttributeValue} {n : UpdateAction ℕ ℕ}
    {t t' : PlaceholderTable} (h : a.numbered.Yields t n t') :
    NumberingOf t t' n.operands ∧ n.replace? t'.name? t'.value? = some a := by
  cases a with
  | set path value =>
    simp only [numbered, Interning.yields_bind_iff, Interning.yields_pure_iff] at h
    obtain ⟨p, u, hp, v, t', hv, rfl, rfl⟩ := h
    obtain ⟨hnum, hrep⟩ := Path.numbered_spec hp
    obtain ⟨hnum', hrep'⟩ := SetValue.numbered_spec hv
    have hrep := Path.replace?_mono hnum'.name? hrep
    exact ⟨hnum.cons hnum', by simp [replace?, hrep, hrep']⟩
  | remove path =>
    obtain ⟨p, hp, rfl⟩ := Interning.yields_map_iff.mp h
    obtain ⟨hnum, hrep⟩ := Path.numbered_spec hp
    exact ⟨hnum, by simp [replace?, hrep]⟩
  | add path value | delete path value =>
    simp only [numbered, Interning.yields_bind_iff, Interning.yields_pure_iff,
      Interning.yields_value_iff] at h
    obtain ⟨p, u, hp, v, t', hv, rfl, rfl⟩ := h
    obtain ⟨hnum, hrep⟩ := Path.numbered_spec hp
    obtain ⟨hnum', hvalue⟩ := Numbering.of_internValue hv
    have hnum' : NumberingOf u t' [.literal v] := hnum'
    have hrep := Path.replace?_mono hnum'.name? hrep
    exact ⟨hnum.cons hnum', by simp [replace?, hrep, PlaceholderTable.value?, hvalue]⟩

theorem UpdateAction.mapM_numbered_spec {as : List (UpdateAction String AttributeValue)}
    {ns : List (UpdateAction ℕ ℕ)} {t t' : PlaceholderTable}
    (h : (as.mapM UpdateAction.numbered).Yields t ns t') :
    NumberingOf t t' (ns.flatMap operands) ∧
      ns.mapM (UpdateAction.replace? t'.name? t'.value?) = some as :=
  numberingOf_mapM operands (fun t n ↦ UpdateAction.replace? t.name? t.value? n)
    UpdateAction.numbered_spec (fun hnum ↦ replace?_mono hnum.name? hnum.value?) h

end TableClient
