import Mathlib.Data.List.Forall2

/-!
# Steps that may fail

A chain of steps that may fail is taken apart where it succeeds: every step of it has succeeded. It
fails as the first of its steps that fails.
-/

namespace TableClient

variable {ε ε' α β : Type}

theorem Except.map_eq_ok_iff {step : Except ε α} {f : α → β} {b : β} :
    step.map f = .ok b ↔ ∃ a, step = .ok a ∧ f a = b := by
  cases step <;> simp [Except.map]

theorem Except.map_eq_error_iff {step : Except ε α} {f : α → β} {e : ε} :
    step.map f = .error e ↔ step = .error e := by
  cases step <;> simp [Except.map]

theorem Except.exists_eq_error_iff {step : Except ε α} :
    (∃ e, step = .error e) ↔ ¬ ∃ a, step = .ok a := by
  cases step <;> simp

theorem Except.mapError_eq_ok_iff {step : Except ε α} {f : ε → ε'} {a : α} :
    step.mapError f = .ok a ↔ step = .ok a := by
  cases step with
  | error e =>
    constructor
    · intro h
      cases h
    · intro h
      cases h
  | ok b =>
    constructor
    · intro h
      rw [Except.ok.inj h]
    · intro h
      rw [Except.ok.inj h]
      rfl

theorem Except.mapError_eq_error_iff {step : Except ε α} {f : ε → ε'} {e' : ε'} :
    step.mapError f = .error e' ↔ ∃ e, step = .error e ∧ f e = e' := by
  cases step <;> simp [Except.mapError]

theorem Except.bind_eq_ok_iff {step : Except ε α} {next : α → Except ε β} {b : β} :
    step >>= next = .ok b ↔ ∃ a, step = .ok a ∧ next a = .ok b := by
  cases step <;> simp [bind, Except.bind]

theorem Except.bind_eq_error_iff {step : Except ε α} {next : α → Except ε β} {e : ε} :
    step >>= next = .error e ↔ step = .error e ∨ ∃ a, step = .ok a ∧ next a = .error e := by
  cases step <;> simp [bind, Except.bind]

theorem Except.bind_congr {step : Except ε α} {next next' : α → Except ε β}
    (h : ∀ a, step = .ok a → next a = next' a) : step >>= next = step >>= next' := by
  cases step with
  | error => rfl
  | ok a => exact h a rfl

theorem Except.pure_eq_ok_iff {a b : α} : (pure a : Except ε α) = .ok b ↔ a = b := by
  simp [pure, Except.pure]

/-- The value of an option, or a failure without one. -/
theorem Except.elim_eq_ok_iff {o : Option α} {e : ε} {a : α} :
    o.elim (.error e) .ok = (.ok a : Except ε α) ↔ o = some a := by
  cases o <;> simp

/-- A check of all items of a list. -/
theorem Except.forM_eq_ok_iff {check : α → Except ε Unit} {items : List α} {u : Unit} :
    items.forM check = .ok u ↔ ∀ item ∈ items, check item = .ok () := by
  induction items with
  | nil =>
    rw [List.forM, pure_eq_ok_iff]
    exact ⟨fun _ item hmem ↦ absurd hmem List.not_mem_nil, fun _ ↦ rfl⟩
  | cons item items ih =>
    rw [List.forM, bind_eq_ok_iff, List.forall_mem_cons]
    constructor
    · rintro ⟨_, hitem, hitems⟩
      exact ⟨hitem, ih.mp hitems⟩
    · rintro ⟨hitem, hitems⟩
      exact ⟨(), hitem, ih.mpr hitems⟩

theorem Except.forM_congr {check check' : α → Except ε Unit} {items : List α}
    (h : ∀ item ∈ items, check item = check' item) : items.forM check = items.forM check' := by
  induction items with
  | nil => rfl
  | cons item items ih =>
    obtain ⟨hitem, hitems⟩ := List.forall_mem_cons.mp h
    rw [List.forM, List.forM, hitem, ih hitems]

/-- A step for each item of a list, all of which succeed. -/
theorem Except.mapM_eq_ok {step : α → Except ε β} {f : α → β} {items : List α}
    (h : ∀ item ∈ items, step item = .ok (f item)) : items.mapM step = .ok (items.map f) := by
  induction items with
  | nil => rfl
  | cons item items ih =>
    obtain ⟨hitem, hitems⟩ := List.forall_mem_cons.mp h
    rw [List.mapM_cons, hitem, ih hitems]
    rfl

theorem Except.mapM_map_eq_ok {γ : Type} {g : γ → α} {step : α → Except ε β} {f : γ → β}
    {items : List γ} (h : ∀ item ∈ items, step (g item) = .ok (f item)) :
    (items.map g).mapM step = .ok (items.map f) := by
  rw [List.mapM_map]
  exact mapM_eq_ok h

/-- A step for each item of a list: all of them have succeeded, each with its own result. -/
theorem Except.mapM_eq_ok_iff {step : α → Except ε β} {items : List α} {results : List β} :
    items.mapM step = .ok results ↔
      List.Forall₂ (fun item result ↦ step item = .ok result) items results := by
  induction items generalizing results with
  | nil => rw [List.mapM_nil, pure_eq_ok_iff, List.forall₂_nil_left_iff, eq_comm]
  | cons item items ih =>
    rw [List.mapM_cons, bind_eq_ok_iff, List.forall₂_cons_left_iff]
    constructor
    · rintro ⟨result, hitem, h⟩
      obtain ⟨rest, hitems, h⟩ := bind_eq_ok_iff.mp h
      exact ⟨result, rest, hitem, ih.mp hitems, (pure_eq_ok_iff.mp h).symm⟩
    · rintro ⟨result, rest, hitem, hitems, rfl⟩
      exact ⟨result, hitem, bind_eq_ok_iff.mpr ⟨rest, ih.mpr hitems, rfl⟩⟩

theorem Except.exists_mapM_eq_ok_iff {step : α → Except ε β} {items : List α} :
    (∃ results, items.mapM step = .ok results) ↔
      ∀ item ∈ items, ∃ result, step item = .ok result := by
  induction items with
  | nil => exact iff_of_true ⟨[], rfl⟩ fun item hmem ↦ absurd hmem List.not_mem_nil
  | cons item items ih =>
    rw [List.forall_mem_cons, ← ih]
    constructor
    · rintro ⟨results, h⟩
      obtain ⟨result, rest, hitem, hitems, -⟩ :=
        List.forall₂_cons_left_iff.mp (mapM_eq_ok_iff.mp h)
      exact ⟨⟨result, hitem⟩, rest, mapM_eq_ok_iff.mpr hitems⟩
    · rintro ⟨⟨result, hitem⟩, rest, hitems⟩
      exact ⟨result :: rest, mapM_eq_ok_iff.mpr (.cons hitem (mapM_eq_ok_iff.mp hitems))⟩

theorem Except.mem_iff_of_mapM_eq_ok {step : α → Except ε β} {items : List α} {results : List β}
    (h : items.mapM step = .ok results) {result : β} :
    result ∈ results ↔ ∃ item ∈ items, step item = .ok result := by
  have hresults := mapM_eq_ok_iff.mp h
  clear h
  induction hresults with
  | nil => simp
  | cons hitem _ ih =>
    simp only [List.mem_cons, ih, or_and_right, exists_or, exists_eq_left, hitem, Except.ok.injEq]
    rw [eq_comm]

theorem Except.eq_nil_iff_of_mapM_eq_ok {step : α → Except ε β} {items : List α}
    {results : List β} (h : items.mapM step = .ok results) : results = [] ↔ items = [] := by
  have hlength := (mapM_eq_ok_iff.mp h).length_eq
  rw [← List.length_eq_zero_iff, ← hlength, List.length_eq_zero_iff]

/-- A step for each item of a list fails as the first item that fails. -/
theorem Except.mapM_eq_error_iff {step : α → Except ε β} {items : List α} {e : ε} :
    items.mapM step = .error e ↔ ∃ before item after, items = before ++ item :: after ∧
      (∀ earlier ∈ before, ∃ result, step earlier = .ok result) ∧ step item = .error e := by
  induction items with
  | nil =>
    rw [List.mapM_nil]
    apply iff_of_false (by simp [pure, Except.pure])
    rintro ⟨before, item, after, h, -⟩
    exact List.append_ne_nil_of_right_ne_nil before (List.cons_ne_nil item after) h.symm
  | cons item items ih =>
    rw [List.mapM_cons, bind_eq_error_iff]
    constructor
    · rintro (h | ⟨result, hitem, h⟩)
      · exact ⟨[], item, items, rfl, List.forall_mem_nil _, h⟩
      · obtain h | ⟨_, -, h⟩ := bind_eq_error_iff.mp h
        · obtain ⟨before, failed, after, rfl, hbefore, hfailed⟩ := ih.mp h
          exact ⟨item :: before, failed, after, rfl,
            List.forall_mem_cons.mpr ⟨⟨result, hitem⟩, hbefore⟩, hfailed⟩
        · cases h
    · rintro ⟨before, failed, after, heq, hbefore, hfailed⟩
      rcases before with _ | ⟨first, before⟩
      · obtain ⟨rfl, rfl⟩ := List.cons.inj heq
        exact .inl hfailed
      · obtain ⟨rfl, rfl⟩ := List.cons.inj heq
        obtain ⟨⟨result, hfirst⟩, hbefore⟩ := List.forall_mem_cons.mp hbefore
        have hrest := ih.mpr ⟨before, failed, after, rfl, hbefore, hfailed⟩
        exact .inr ⟨result, hfirst, bind_eq_error_iff.mpr (.inl hrest)⟩

/-- A computation with a state that may fail: it goes on where its first step has succeeded. -/
theorem ExceptT.run_run_bind {s : Type} (m : ExceptT ε (StateM s) α)
    (f : α → ExceptT ε (StateM s) β) (before : s) :
    (m >>= f).run.run before = match m.run.run before with
      | (.ok a, between) => (f a).run.run between
      | (.error e, between) => (.error e, between) := by
  simp only [ExceptT.run, StateT.run, bind, ExceptT.bind, ExceptT.mk, StateT.bind,
    ExceptT.bindCont]
  rcases m before with ⟨_ | a, between⟩ <;> rfl

end TableClient
