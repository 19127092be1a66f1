import TableClient.Proofs.Scan.Turns

/-!
# The place of a paced scan

After any calls the scan is in place (`InPlace`): its cursor is the key of the last accepted page,
the items still wanted are those of the limit that were not returned, and it is done exactly if none
are wanted or the last accepted page had no key. What was returned is what the accepted pages offer,
up to the limit. A call that fails accepts no page and leaves all of this as it is.
-/

namespace TableClient

namespace PacedScan

variable {κ σ : Type}

/-! ## Where a scan should be -/

/-- The first of some items, as many as are wanted. -/
def upTo (limit : Option UInt32) (items : List Item) : List Item :=
  limit.elim items fun n ↦ items.take n.toNat

/-- How many items are still wanted after those that were returned. -/
def stillWanted (limit : Option UInt32) (items : List Item) : Option ℕ :=
  limit.map fun n ↦ n.toNat - items.length

/-- Of further items those count that are still wanted. -/
theorem upTo_append (limit : Option UInt32) (items further : List Item) :
    upTo limit (items ++ further) = upTo limit items ++
      (stillWanted limit (upTo limit items)).elim further further.take := by
  cases limit with
  | none => rfl
  | some n =>
    have hleft : n.toNat - (items.take n.toNat).length = n.toNat - items.length := by
      rw [List.length_take]
      omega
    change (items ++ further).take n.toNat =
      items.take n.toNat ++ further.take (n.toNat - (items.take n.toNat).length)
    rw [hleft, List.take_append]

theorem stillWanted_append (limit : Option UInt32) (items further : List Item) :
    stillWanted limit (items ++ further) =
      (stillWanted limit items).map (· - further.length) := by
  rw [stillWanted, stillWanted, Option.map_map, List.length_append]
  congr 1
  funext n
  exact (Nat.sub_sub ..).symm

theorem stillWanted_eq_zero_iff {limit : Option UInt32} {items : List Item} :
    stillWanted limit items = some 0 ↔ ∃ n, limit = some n ∧ n.toNat ≤ items.length := by
  rw [stillWanted]
  simp only [Option.map_eq_some_iff, Nat.sub_eq_zero_iff_le]

/-- The start of the next page: the key that the last accepted answer names, and before the first
one the key that the options ask for. -/
def nextKey? (past : List (Turn κ σ)) (o : PacedScanOptions) : Option Json :=
  (answers past).getLast?.elim (o.scan.exclusiveStartKey.bind keyField) ScanOutput.nextStart?

/-- The items that are wanted at all were returned, or the last accepted page names no next one. -/
def Finished (past : List (Turn κ σ)) (o : PacedScanOptions) : Prop :=
  (∃ limit, o.limit = some limit ∧ limit.toNat ≤ (returned past).length) ∨
    ∃ document, (answers past).getLast? = some document ∧ ScanOutput.nextStart? document = none

/-! ## Moving on -/

section Advance

variable [CapacityUnits κ] (s : PacedScan κ) (page : ScanOutput) (cost : κ)

theorem advance_remaining :
    (s.advance page cost).remaining = s.remaining.map (· - (s.wanted page).length) :=
  rfl

theorem advance_cursor_bind_keyField :
    (s.advance page cost).cursor.bind keyField = keyField page.lastEvaluatedKey := by
  change (if page.lastEvaluatedKey.isEmpty then none
    else some page.lastEvaluatedKey).bind keyField = keyField page.lastEvaluatedKey
  by_cases hempty : page.lastEvaluatedKey.isEmpty = true
  · simp [keyField, hempty]
  · simp [hempty]

theorem advance_done_iff : (s.advance page cost).done = true ↔
    s.done = true ∨ keyField page.lastEvaluatedKey = none ∨
      (s.advance page cost).remaining = some 0 := by
  change (s.done || (if page.lastEvaluatedKey.isEmpty then none
    else some page.lastEvaluatedKey).isNone || decide ((s.advance page cost).remaining = some 0)) =
      true ↔ _
  rw [Bool.or_eq_true, Bool.or_eq_true, decide_eq_true_iff, or_assoc, keyField]
  by_cases hempty : page.lastEvaluatedKey.isEmpty = true
  · simp [hempty]
  · simp [hempty]

end Advance

/-! ## The invariant -/

/-- The scan is where the accepted pages put it. -/
structure InPlace (o : PacedScanOptions) (s₀ : PacedScan κ) (past : List (Turn κ σ))
    (s : PacedScan κ) : Prop where
  same : ∃ remaining cursor done pacing, s = { s₀ with remaining, cursor, done, pacing }
  accepted : ∀ t ∈ past, t.items?.isSome →
    ∃ document, t.answer? = some document ∧ ∃ page : ScanOutput, Wire.read document = .ok page
  returned_eq : returned past = upTo o.limit (offered past)
  remaining_eq : s.remaining = stillWanted o.limit (returned past)
  cursor_eq : s.cursor.bind keyField = nextKey? past o
  done_iff : s.done = true ↔ Finished past o

namespace InPlace

variable {o : PacedScanOptions} {s₀ s : PacedScan κ} {past : List (Turn κ σ)} {t : Turn κ σ}

/-- A call that returns no page and changes only the pacing. -/
theorem append_of_stays (h : InPlace o s₀ past s) (hitems : t.items? = none)
    (hstays : ∃ pacing, t.after.own = { s with pacing }) :
    InPlace o s₀ (past ++ [t]) t.after.own := by
  obtain ⟨pacing, hstays⟩ := hstays
  obtain ⟨remaining, cursor, done, pacing', hsame⟩ := h.same
  have hreturned := returned_append_of_none past hitems
  have hanswers := answers_append_of_none past hitems
  have hoffered : offered (past ++ [t]) = offered past := by
    rw [offered, hanswers, offered]
  refine ⟨⟨remaining, cursor, done, pacing, by rw [hstays, hsame]⟩, ?_, ?_, ?_, ?_, ?_⟩
  · intro t' ht' hsome
    rcases List.mem_append.mp ht' with ht' | ht'
    · exact h.accepted t' ht' hsome
    · rw [List.mem_singleton.mp ht', hitems] at hsome
      cases hsome
  · rw [hreturned, hoffered]
    exact h.returned_eq
  · rw [hreturned, hstays]
    exact h.remaining_eq
  · rw [nextKey?, hanswers, hstays]
    exact h.cursor_eq
  · rw [Finished, hreturned, hanswers, hstays]
    exact h.done_iff

variable [CapacityUnits κ]

/-- A call that returns a page. -/
theorem append_of_takes (h : InPlace o s₀ past s) (hs : t.before.own = s) (hdone : s.done = false)
    {items : List Item} {document : Json} (houtcome : t.outcome = .ok (some items))
    (htakes : Takes t.before t.after t.events document items) :
    InPlace o s₀ (past ++ [t]) t.after.own := by
  obtain ⟨between, page, hstays, hlast, hread, cost, hafter, hwanted⟩ := htakes
  obtain ⟨pacing, hplace⟩ := hstays.place
  obtain ⟨remaining, cursor, done, pacing', hsame⟩ := h.same
  rw [hs] at hplace
  rw [hplace] at hwanted
  have hown : t.after.own = ({ s with pacing } : PacedScan κ).advance page cost := by
    rw [hafter, hplace]
  have hitems : t.items? = some items := by
    rw [Turn.items?, houtcome]
  have hanswer : t.answer? = some document := by
    rw [Turn.answer?_of_items?_eq_some hitems, hlast]
  have hreturned := returned_append_of_some past hitems
  have hanswers := answers_append_of_some past hanswer
  have hoffered : offered (past ++ [t]) = offered past ++ page.items := by
    rw [offered_append, hanswer, Option.toList_some, List.flatMap_singleton, pageItems, hread]
  have hlast : (answers (past ++ [t])).getLast? = some document := by
    rw [hanswers, List.getLast?_concat]
  have hkey := ScanOutput.nextStart?_of_read hread
  have hremaining : t.after.own.remaining = stillWanted o.limit (returned (past ++ [t])) := by
    rw [hown, advance_remaining, hreturned, stillWanted_append, ← h.remaining_eq, hwanted]
  refine ⟨⟨_, _, _, _, by rw [hown, hsame]; rfl⟩, ?_, ?_, hremaining, ?_, ?_⟩
  · intro t' ht' hsome
    rcases List.mem_append.mp ht' with ht' | ht'
    · exact h.accepted t' ht' hsome
    · rw [List.mem_singleton.mp ht']
      exact ⟨document, hanswer, page, hread⟩
  · rw [hreturned, hoffered, upTo_append, ← h.returned_eq, ← h.remaining_eq, hwanted]
    rfl
  · rw [hown, nextKey?, hlast, Option.elim_some, hkey]
    exact advance_cursor_bind_keyField ..
  · rw [hown, advance_done_iff, ← hown, hremaining, stillWanted_eq_zero_iff, hdone, ← hkey,
      Finished, hlast]
    simp [or_comm]

/-- What one call preserves. -/
theorem append_turn (h : InPlace o s₀ past s) (env : Environment σ) (world : World σ) :
    InPlace o s₀ (past ++ [turn env s world]) (turn env s world).after.own := by
  obtain ⟨-, houtcome, hafter⟩ | ⟨-, ⟨e, houtcome⟩, hstays⟩ |
    ⟨hdone, items, document, houtcome, htakes⟩ := turn_cases env s world
  -- a call of a scan that is done changes nothing, not even the pacing
  · refine h.append_of_stays ?_ ⟨s.pacing, by rw [hafter]; rfl⟩
    rw [Turn.items?, houtcome]
  · refine h.append_of_stays ?_ hstays.place
    rw [Turn.items?, houtcome]
  · exact h.append_of_takes rfl hdone houtcome htakes

/-- What any calls preserve. -/
theorem append_turns (h : InPlace o s₀ past s) (env : Environment σ) (worlds : List (World σ)) :
    InPlace o s₀ (past ++ turns env s worlds) (reached (turns env s worlds) s) := by
  -- the calls made so far are generalized: each of `worlds` adds one at their end
  induction worlds generalizing past s with
  | nil =>
    rw [turns, List.append_nil]
    exact h
  | cons world worlds ih =>
    rw [turns, reached_cons, ← List.singleton_append, ← List.append_assoc]
    exact ih (h.append_turn env world)

end InPlace

/-! ## The start -/

section Start

variable [CapacityUnits κ] {table : TableDescriptor} {config : ClientConfig} {o : PacedScanOptions}
  {s₀ : PacedScan κ}

/-- How a scan starts, which is where it may be refused. -/
theorem start_eq_ok_iff : start table config o = .ok s₀ ↔
    o.budget.rate ≠ 0 ∧ o.pageSize ≠ some 0 ∧
      (∃ opening, Request.scan table config o.pageScan = .ok opening) ∧
      s₀ = {
        table
        config
        scan := o.pageScan
        pageSize := o.itemsPerPage
        budget := o.budget
        remaining := o.limit.map UInt32.toNat
        cursor := o.scan.exclusiveStartKey.filter fun key ↦ !key.isEmpty
        done := o.limit = some 0
        pacing := .initial } := by
  simp only [start, Except.bind_eq_ok_iff, Checked.refuseIf_eq_ok_iff, decide_eq_false_iff_not,
    Except.pure_eq_ok_iff]
  constructor
  · rintro ⟨_, hrate, _, hsize, opening, hopening, rfl⟩
    exact ⟨hrate, hsize, ⟨opening, hopening⟩, rfl⟩
  · rintro ⟨hrate, hsize, ⟨opening, hopening⟩, rfl⟩
    exact ⟨(), hrate, (), hsize, opening, hopening, rfl⟩

theorem inPlace_of_start (h : start table config o = .ok s₀) :
    InPlace o s₀ ([] : List (Turn κ σ)) s₀ := by
  obtain ⟨-, -, -, rfl⟩ := start_eq_ok_iff.mp h
  refine ⟨⟨_, _, _, _, rfl⟩, ?_, ?_, ?_, ?_, ?_⟩
  · intro t ht
    cases ht
  · cases o.limit with
    | none => rfl
    | some n => exact (List.take_nil).symm
  · rfl
  · change (o.scan.exclusiveStartKey.filter fun key ↦ !key.isEmpty).bind keyField =
      o.scan.exclusiveStartKey.bind keyField
    cases o.scan.exclusiveStartKey with
    | none => rfl
    | some key =>
      cases key with
      | nil => rfl
      | cons entry rest => rfl
  · change decide (o.limit = some 0) = true ↔ _
    rw [decide_eq_true_iff, Finished]
    constructor
    · intro hlimit
      exact .inl ⟨0, hlimit, Nat.le_refl _⟩
    · rintro (⟨limit, hlimit, hle⟩ | ⟨document, hlast, -⟩)
      · have hzero : limit = 0 := UInt32.toNat_inj.mp (Nat.le_zero.mp hle)
        rw [hlimit, hzero]
      · cases hlast

theorem fields_of_start (h : start table config o = .ok s₀) :
    s₀.table = table ∧ s₀.config = config ∧ s₀.scan = o.pageScan ∧
      s₀.pageSize = o.itemsPerPage := by
  obtain ⟨-, -, -, rfl⟩ := start_eq_ok_iff.mp h
  exact ⟨rfl, rfl, rfl, rfl⟩

/-- The request with which a scan is checked before any page is asked for. -/
theorem opening_of_start (h : start table config o = .ok s₀) :
    ∃ opening, Request.scan s₀.table s₀.config s₀.scan = .ok opening := by
  obtain ⟨-, -, hopening, rfl⟩ := start_eq_ok_iff.mp h
  exact hopening

theorem budget_of_start (h : start table config o = .ok s₀) :
    s₀.budget = o.budget ∧ s₀.pacing = .initial := by
  obtain ⟨-, -, -, rfl⟩ := start_eq_ok_iff.mp h
  exact ⟨rfl, rfl⟩

/-- Scans that differ in where they start send the same requests otherwise. -/
theorem scan_eq_of_start {o' : PacedScanOptions} {s₀' : PacedScan κ} {key : Option Key}
    (h : start table config o = .ok s₀) (h' : start table config o' = .ok s₀')
    (hscan : o'.scan = { o.scan with exclusiveStartKey := key }) :
    s₀'.table = s₀.table ∧ s₀'.config = s₀.config ∧ s₀'.scan = s₀.scan := by
  obtain ⟨htable, hconfig, hpage, -⟩ := fields_of_start h
  obtain ⟨htable', hconfig', hpage', -⟩ := fields_of_start h'
  refine ⟨htable'.trans htable.symm, hconfig'.trans hconfig.symm, ?_⟩
  rw [hpage', hpage, PacedScanOptions.pageScan, hscan]
  rfl

theorem pageSize_pos_of_start (h : start table config o = .ok s₀) (hlimit : o.limit ≠ some 0) :
    0 < s₀.pageSize.toNat := by
  obtain ⟨hrate, hsize, -, rfl⟩ := start_eq_ok_iff.mp h
  have hpos {n : UInt32} (hn : n ≠ 0) : 0 < n.toNat :=
    Nat.pos_of_ne_zero fun h0 ↦ hn (UInt32.toNat_inj.mp h0)
  refine hpos ?_
  change o.itemsPerPage ≠ 0
  rw [PacedScanOptions.itemsPerPage]
  cases hasked : o.pageSize with
  | some size =>
    rintro rfl
    exact hsize hasked
  | none =>
    cases hwanted : o.limit with
    | none => exact hrate
    | some n =>
      have hn : n ≠ 0 := by
        rintro rfl
        exact hlimit hwanted
      change (if n ≤ o.budget.rate then n else o.budget.rate) ≠ 0
      split
      · exact hn
      · exact hrate

end Start

end PacedScan
end TableClient
