import Mathlib.Data.List.Forall2
import TableClient.Expression.Update

/-!
# Other names and literals in a tree

The trees of expressions leave the types of their names and literals open. `map` changes the names
and literals of a tree; `replace?` looks them up and fails where one is not known. The two are
related by `replace?_map`: to rename and then look up is to look up under the new names.
-/

namespace TableClient

variable {ν μ ξ α β γ : Type}

/-- Look-ups succeed together exactly if each of them does. -/
theorem mapM_eq_some_iff {f : α → Option β} {as : List α} {bs : List β} :
    as.mapM f = some bs ↔ List.Forall₂ (fun a b ↦ f a = some b) as bs := by
  induction as generalizing bs with
  | nil => rw [List.mapM_nil, Option.pure_def, Option.some_inj, List.forall₂_nil_left_iff, eq_comm]
  | cons a as ih =>
    rw [List.mapM_cons, List.forall₂_cons_left_iff]
    constructor
    · intro h
      obtain ⟨b, hb, h⟩ := Option.bind_eq_some_iff.mp h
      obtain ⟨bs, hbs, h⟩ := Option.bind_eq_some_iff.mp h
      exact ⟨b, bs, hb, ih.mp hbs, (Option.some.inj h).symm⟩
    · rintro ⟨b, bs, hb, hbs, rfl⟩
      rw [hb, ih.mpr hbs]
      rfl

/-- Successful look-ups stay successful under images of what is looked up and found. -/
theorem mapM_map_eq_some {ν' μ' : Type} {f : ν → Option μ} {g : ν' → Option μ'} {h : ν → ν'}
    {k : μ → μ'} (himage : ∀ n m, f n = some m → g (h n) = some (k m)) {ns : List ν} {ms : List μ}
    (hns : ns.mapM f = some ms) : (ns.map h).mapM g = some (ms.map k) := by
  rw [mapM_eq_some_iff, List.forall₂_map_left_iff, List.forall₂_map_right_iff]
  exact (mapM_eq_some_iff.mp hns).imp himage

/-- Successful look-ups succeed with anything that knows at least as much. -/
theorem mapM_eq_some_mono {f g : α → Option β} (h : ∀ a b, f a = some b → g a = some b)
    {as : List α} {bs : List β} (has : as.mapM f = some bs) : as.mapM g = some bs := by
  have hmap : (as.map id).mapM g = some (bs.map id) := mapM_map_eq_some h has
  rwa [List.map_id, List.map_id] at hmap

/-! ## Paths -/

namespace PathElement

/-- The step with another name. -/
def map (f : ν → μ) : PathElement ν → PathElement μ
  | .key name => .key (f name)
  | .index position => .index position

/-- The step with its name looked up. -/
def replace? (f : ν → Option μ) : PathElement ν → Option (PathElement μ)
  | .key name => (f name).map .key
  | .index position => some (.index position)

theorem replace?_map (f : ν → μ) (g : μ → Option ξ) (e : PathElement ν) :
    (e.map f).replace? g = e.replace? (g ∘ f) := by
  cases e <;> rfl

theorem replace?_mono {f g : ν → Option μ} (h : ∀ n m, f n = some m → g n = some m)
    {e : PathElement ν} {e' : PathElement μ} (he : e.replace? f = some e') :
    e.replace? g = some e' := by
  cases e with
  | index position => exact he
  | key name =>
    obtain ⟨m, hm, rfl⟩ := Option.map_eq_some_iff.mp he
    simp [replace?, h _ _ hm]

end PathElement

namespace Path

/-- The path with other names. -/
def map (f : ν → μ) (p : Path ν) : Path μ :=
  ⟨f p.root, p.steps.map (PathElement.map f)⟩

/-- The path with its names looked up. -/
def replace? (f : ν → Option μ) (p : Path ν) : Option (Path μ) := do
  let root ← f p.root
  let steps ← p.steps.mapM (PathElement.replace? f)
  return ⟨root, steps⟩

theorem replace?_map (f : ν → μ) (g : μ → Option ξ) (p : Path ν) :
    (p.map f).replace? g = p.replace? (g ∘ f) := by
  simp [replace?, map, PathElement.replace?_map, Function.comp_def]

theorem replace?_mono {f g : ν → Option μ} (h : ∀ n m, f n = some m → g n = some m)
    {p : Path ν} {q : Path μ} (hp : p.replace? f = some q) : p.replace? g = some q := by
  obtain ⟨root, hroot, hp⟩ := Option.bind_eq_some_iff.mp hp
  obtain ⟨steps, hsteps, hp⟩ := Option.bind_eq_some_iff.mp hp
  have hsteps' := mapM_eq_some_mono (fun _ _ ↦ PathElement.replace?_mono h) hsteps
  simp only [replace?, h _ _ hroot, hsteps']
  exact hp

end Path

/-! ## Conditions -/

namespace Operand

/-- The operand with other names and another literal. -/
def map (f : ν → μ) (g : α → β) : Operand ν α → Operand μ β
  | .literal value => .literal (g value)
  | .reference path => .reference (path.map f)
  | .size path => .size (path.map f)

/-- The operand with its names and its literal looked up. -/
def replace? (f : ν → Option μ) (g : α → Option β) : Operand ν α → Option (Operand μ β)
  | .literal value => (g value).map .literal
  | .reference path => (path.replace? f).map .reference
  | .size path => (path.replace? f).map .size

theorem replace?_map (f : ν → μ) (g : α → β) (f' : μ → Option ξ) (g' : β → Option γ)
    (o : Operand ν α) : (o.map f g).replace? f' g' = o.replace? (f' ∘ f) (g' ∘ g) := by
  cases o <;> simp [map, replace?, Path.replace?_map]

theorem replace?_mono {f f' : ν → Option μ} {g g' : α → Option β}
    (hf : ∀ n m, f n = some m → f' n = some m) (hg : ∀ a b, g a = some b → g' a = some b)
    {o : Operand ν α} {o' : Operand μ β} (ho : o.replace? f g = some o') :
    o.replace? f' g' = some o' := by
  cases o with
  | literal value =>
    obtain ⟨b, hb, rfl⟩ := Option.map_eq_some_iff.mp ho
    simp [replace?, hg _ _ hb]
  | reference path | size path =>
    obtain ⟨q, hq, rfl⟩ := Option.map_eq_some_iff.mp ho
    simp [replace?, Path.replace?_mono hf hq]

end Operand

namespace Condition

/-- The condition with other names and literals. -/
def map (f : ν → μ) (g : α → β) : Condition ν α → Condition μ β
  | .compare left op right => .compare (left.map f g) op (right.map f g)
  | .between value low high => .between (value.map f g) (low.map f g) (high.map f g)
  | .among value candidates => .among (value.map f g) (candidates.map (Operand.map f g))
  | .function name arguments => .function name (arguments.map (Operand.map f g))
  | .logical op left right => .logical op (left.map f g) (right.map f g)
  | .not inner => .not (inner.map f g)

/-- The condition with its names and literals looked up. -/
def replace? (f : ν → Option μ) (g : α → Option β) : Condition ν α → Option (Condition μ β)
  | .compare left op right => do
    return .compare (← left.replace? f g) op (← right.replace? f g)
  | .between value low high => do
    return .between (← value.replace? f g) (← low.replace? f g) (← high.replace? f g)
  | .among value candidates => do
    return .among (← value.replace? f g) (← candidates.mapM (Operand.replace? f g))
  | .function name arguments => do
    return .function name (← arguments.mapM (Operand.replace? f g))
  | .logical op left right => do
    return .logical op (← left.replace? f g) (← right.replace? f g)
  | .not inner => (inner.replace? f g).map .not

theorem replace?_map (f : ν → μ) (g : α → β) (f' : μ → Option ξ) (g' : β → Option γ)
    (c : Condition ν α) : (c.map f g).replace? f' g' = c.replace? (f' ∘ f) (g' ∘ g) := by
  induction c with
  | compare left op right => simp [map, replace?, Operand.replace?_map]
  | between value low high => simp [map, replace?, Operand.replace?_map]
  | among value candidates => simp [map, replace?, Operand.replace?_map, Function.comp_def]
  | function name arguments => simp [map, replace?, Operand.replace?_map, Function.comp_def]
  | logical op left right ihl ihr => simp [map, replace?, ihl, ihr]
  | not inner ih => simp [map, replace?, ih]

theorem replace?_mono {f f' : ν → Option μ} {g g' : α → Option β}
    (hf : ∀ n m, f n = some m → f' n = some m) (hg : ∀ a b, g a = some b → g' a = some b)
    {c : Condition ν α} {c' : Condition μ β} (hc : c.replace? f g = some c') :
    c.replace? f' g' = some c' := by
  have hop {o : Operand ν α} {o' : Operand μ β} (h : o.replace? f g = some o') :
      o.replace? f' g' = some o' := Operand.replace?_mono hf hg h
  have hlist {os : List (Operand ν α)} {os' : List (Operand μ β)}
      (h : os.mapM (Operand.replace? f g) = some os') :
      os.mapM (Operand.replace? f' g') = some os' := mapM_eq_some_mono (fun _ _ ↦ hop) h
  induction c generalizing c' with
  | compare left op right =>
    obtain ⟨l, hl, hc⟩ := Option.bind_eq_some_iff.mp hc
    obtain ⟨r, hr, hc⟩ := Option.bind_eq_some_iff.mp hc
    simpa [replace?, hop hl, hop hr] using hc
  | between value low high =>
    obtain ⟨v, hv, hc⟩ := Option.bind_eq_some_iff.mp hc
    obtain ⟨l, hl, hc⟩ := Option.bind_eq_some_iff.mp hc
    obtain ⟨h, hh, hc⟩ := Option.bind_eq_some_iff.mp hc
    simpa [replace?, hop hv, hop hl, hop hh] using hc
  | among value candidates =>
    obtain ⟨v, hv, hc⟩ := Option.bind_eq_some_iff.mp hc
    obtain ⟨cs, hcs, hc⟩ := Option.bind_eq_some_iff.mp hc
    simpa [replace?, hop hv, hlist hcs] using hc
  | function name arguments =>
    obtain ⟨as, has, hc⟩ := Option.bind_eq_some_iff.mp hc
    simpa [replace?, hlist has] using hc
  | logical op left right ihl ihr =>
    obtain ⟨l, hl, hc⟩ := Option.bind_eq_some_iff.mp hc
    obtain ⟨r, hr, hc⟩ := Option.bind_eq_some_iff.mp hc
    simpa [replace?, ihl hl, ihr hr] using hc
  | not inner ih =>
    obtain ⟨i, hi, rfl⟩ := Option.map_eq_some_iff.mp hc
    simp [replace?, ih hi]

end Condition

/-! ## Updates -/

namespace SetValue

/-- The value with other names and literals. -/
def map (f : ν → μ) (g : α → β) : SetValue ν α → SetValue μ β
  | .operand source => .operand (source.map f g)
  | .plus left right => .plus (left.map f g) (right.map f g)
  | .minus left right => .minus (left.map f g) (right.map f g)
  | .ifNotExists path value => .ifNotExists (path.map f) (value.map f g)
  | .listAppend left right => .listAppend (left.map f g) (right.map f g)

/-- The value with its names and literals looked up. -/
def replace? (f : ν → Option μ) (g : α → Option β) : SetValue ν α → Option (SetValue μ β)
  | .operand source => (source.replace? f g).map .operand
  | .plus left right => do
    return .plus (← left.replace? f g) (← right.replace? f g)
  | .minus left right => do
    return .minus (← left.replace? f g) (← right.replace? f g)
  | .ifNotExists path value => do
    return .ifNotExists (← path.replace? f) (← value.replace? f g)
  | .listAppend left right => do
    return .listAppend (← left.replace? f g) (← right.replace? f g)

theorem replace?_map (f : ν → μ) (g : α → β) (f' : μ → Option ξ) (g' : β → Option γ)
    (v : SetValue ν α) : (v.map f g).replace? f' g' = v.replace? (f' ∘ f) (g' ∘ g) := by
  induction v with
  | operand source => simp [map, replace?, Operand.replace?_map]
  | plus left right ihl ihr | minus left right ihl ihr | listAppend left right ihl ihr =>
    simp [map, replace?, ihl, ihr]
  | ifNotExists path value ih => simp [map, replace?, Path.replace?_map, ih]

theorem replace?_mono {f f' : ν → Option μ} {g g' : α → Option β}
    (hf : ∀ n m, f n = some m → f' n = some m) (hg : ∀ a b, g a = some b → g' a = some b)
    {v : SetValue ν α} {v' : SetValue μ β} (hv : v.replace? f g = some v') :
    v.replace? f' g' = some v' := by
  induction v generalizing v' with
  | operand source =>
    obtain ⟨o, ho, rfl⟩ := Option.map_eq_some_iff.mp hv
    simp [replace?, Operand.replace?_mono hf hg ho]
  | plus left right ihl ihr | minus left right ihl ihr | listAppend left right ihl ihr =>
    obtain ⟨l, hl, hv⟩ := Option.bind_eq_some_iff.mp hv
    obtain ⟨r, hr, hv⟩ := Option.bind_eq_some_iff.mp hv
    simpa [replace?, ihl hl, ihr hr] using hv
  | ifNotExists path value ih =>
    obtain ⟨p, hp, hv⟩ := Option.bind_eq_some_iff.mp hv
    obtain ⟨w, hw, hv⟩ := Option.bind_eq_some_iff.mp hv
    simpa [replace?, Path.replace?_mono hf hp, ih hw] using hv

end SetValue

namespace UpdateAction

/-- The action with other names and literals. -/
def map (f : ν → μ) (g : α → β) : UpdateAction ν α → UpdateAction μ β
  | .set path value => .set (path.map f) (value.map f g)
  | .remove path => .remove (path.map f)
  | .add path value => .add (path.map f) (g value)
  | .delete path value => .delete (path.map f) (g value)

/-- The action with its names and literals looked up. -/
def replace? (f : ν → Option μ) (g : α → Option β) : UpdateAction ν α → Option (UpdateAction μ β)
  | .set path value => do
    return .set (← path.replace? f) (← value.replace? f g)
  | .remove path => (path.replace? f).map .remove
  | .add path value => do
    return .add (← path.replace? f) (← g value)
  | .delete path value => do
    return .delete (← path.replace? f) (← g value)

theorem replace?_map (f : ν → μ) (g : α → β) (f' : μ → Option ξ) (g' : β → Option γ)
    (a : UpdateAction ν α) : (a.map f g).replace? f' g' = a.replace? (f' ∘ f) (g' ∘ g) := by
  cases a <;> simp [map, replace?, Path.replace?_map, SetValue.replace?_map]

theorem replace?_mono {f f' : ν → Option μ} {g g' : α → Option β}
    (hf : ∀ n m, f n = some m → f' n = some m) (hg : ∀ a b, g a = some b → g' a = some b)
    {a : UpdateAction ν α} {a' : UpdateAction μ β} (ha : a.replace? f g = some a') :
    a.replace? f' g' = some a' := by
  cases a with
  | set path value =>
    obtain ⟨p, hp, ha⟩ := Option.bind_eq_some_iff.mp ha
    obtain ⟨v, hv, ha⟩ := Option.bind_eq_some_iff.mp ha
    simpa [replace?, Path.replace?_mono hf hp, SetValue.replace?_mono hf hg hv] using ha
  | remove path =>
    obtain ⟨p, hp, rfl⟩ := Option.map_eq_some_iff.mp ha
    simp [replace?, Path.replace?_mono hf hp]
  | add path value | delete path value =>
    obtain ⟨p, hp, ha⟩ := Option.bind_eq_some_iff.mp ha
    obtain ⟨b, hb, ha⟩ := Option.bind_eq_some_iff.mp ha
    simpa [replace?, Path.replace?_mono hf hp, hg _ _ hb] using ha

end UpdateAction
end TableClient
