import TableClient.Proofs.Scan.Place

/-!
# Paced scans are complete

All calls of a paced scan together return what the accepted pages hold, in order and once, as far
as it is wanted. Each request asks for the page after the accepted ones, with a limit of what is
left, and nothing is asked for once the scan is done.
-/

namespace TableClient
namespace PacedScan

variable {κ σ : Type}

/-- A request for the page after the accepted ones. In all fields but two it is the request with
which the scan was checked at its start. -/
structure AsksNext (past : List (Turn κ σ)) (o : PacedScanOptions) (opening params : Json) :
    Prop where
  key : params.field? "ExclusiveStartKey" = nextKey? past o
  limit : ∃ limit : ℕ, params.field? "Limit" = some (.integer limit) ∧ 1 ≤ limit ∧
    limit = o.limit.elim o.itemsPerPage.toNat fun n ↦
      min o.itemsPerPage.toNat (n.toNat - (returned past).length)
  others : ∀ name, name ≠ "ExclusiveStartKey" → name ≠ "Limit" →
    params.field? name = opening.field? name

theorem pageLimit_toNat (s : PacedScan κ) :
    s.pageLimit.toNat = s.remaining.elim s.pageSize.toNat fun n ↦ min s.pageSize.toNat n := by
  rw [pageLimit]
  cases s.remaining with
  | none => rfl
  | some n =>
    have hsize : min n s.pageSize.toNat < UInt32.size :=
      Nat.lt_of_le_of_lt (Nat.min_le_right _ _) s.pageSize.toNat_lt
    change (UInt32.ofNat (min n s.pageSize.toNat)).toNat = min s.pageSize.toNat n
    rw [UInt32.toNat_ofNat_of_lt' hsize, Nat.min_comm]

section Place

variable [CapacityUnits κ] {table : TableDescriptor} {config : ClientConfig} {o : PacedScanOptions}
  {s₀ s : PacedScan κ} {past : List (Turn κ σ)} {opening : ScanInput}

/-- The limit of the next page, as long as there is one. -/
theorem InPlace.pageLimit (h : InPlace o s₀ past s) (hstart : start table config o = .ok s₀)
    (hdone : s.done = false) :
    1 ≤ s.pageLimit.toNat ∧ s.pageLimit.toNat = o.limit.elim s₀.pageSize.toNat
      fun n ↦ min s₀.pageSize.toNat (n.toNat - (returned past).length) := by
  obtain ⟨remaining, cursor, done, pacing, hsame⟩ := h.same
  have hsize : s.pageSize = s₀.pageSize := by rw [hsame]
  have hunfinished : ¬Finished past o := by
    rw [← h.done_iff, hdone]
    exact Bool.false_ne_true
  -- a limit that is used up would have ended the scan
  have hleft {n : UInt32} (hlimit : o.limit = some n) : (returned past).length < n.toNat :=
    Nat.lt_of_not_le fun hle ↦ hunfinished (.inl ⟨n, hlimit, hle⟩)
  have hpos : 0 < s₀.pageSize.toNat := by
    refine pageSize_pos_of_start hstart fun hlimit ↦ ?_
    exact Nat.not_lt_zero _ (hleft hlimit)
  rw [pageLimit_toNat, hsize, h.remaining_eq]
  cases hlimit : o.limit with
  | none => exact ⟨hpos, rfl⟩
  | some n =>
    refine ⟨?_, rfl⟩
    exact Nat.le_min.mpr ⟨hpos, Nat.sub_pos_of_lt (hleft hlimit)⟩

omit [CapacityUnits κ] in
/-- The request for the page that the scan is at. -/
theorem InPlace.requestsPage (h : InPlace o s₀ past s)
    (hopening : Request.scan s₀.table s₀.config s₀.scan = .ok opening) {input : ScanInput}
    (hinput : Request.scan s.table s.config s.pageOptions = .ok input) :
    RequestsPage (Wire.write opening) (s.cursor.getD []) s.pageLimit.toNat (Wire.write input) := by
  obtain ⟨htable, hconfig, hscan⟩ :
      s.table = s₀.table ∧ s.config = s₀.config ∧ s.scan = s₀.scan := by
    obtain ⟨remaining, cursor, done, pacing, hsame⟩ := h.same
    rw [hsame]
    exact ⟨rfl, rfl, rfl⟩
  rw [pageOptions, htable, hconfig, hscan] at hinput
  exact Request.requestsPage_of_scan hopening hinput

/-- A request for the page that the scan is at is one for the page after the accepted ones. -/
theorem InPlace.asksNext (h : InPlace o s₀ past s) (hstart : start table config o = .ok s₀)
    (hdone : s.done = false) (hopening : Request.scan s₀.table s₀.config s₀.scan = .ok opening)
    {input : ScanInput} (hinput : Request.scan s.table s.config s.pageOptions = .ok input) :
    AsksNext past o (Wire.write opening) (Wire.write input) := by
  have hpage := h.requestsPage hopening hinput
  have hlimit := h.pageLimit hstart hdone
  rw [(fields_of_start hstart).2.2.2] at hlimit
  refine ⟨?_, ⟨_, hpage.limit, hlimit⟩, hpage.others⟩
  rw [hpage.key, ← h.cursor_eq]
  cases s.cursor with
  | none => rfl
  | some key => rfl

end Place

end PacedScan

/-- A paced scan neither loses nor repeats items, whatever its calls meet. After any calls it has
returned what the accepted pages hold, up to the limit. The next call asks for nothing but the page
after them, with the request and the page size of the options, and for nothing at all once the scan
is done; if it fails, the scan stays in place. -/
theorem paced_scan_neither_loses_nor_repeats {κ σ : Type} [CapacityUnits κ]
    {table : TableDescriptor} {config : ClientConfig} {o : PacedScanOptions} {s₀ : PacedScan κ}
    (hstart : PacedScan.start table config o = .ok s₀) (env : Environment σ)
    (worlds : List (World σ)) (world : World σ) :
    let past := PacedScan.turns env s₀ worlds
    let s := PacedScan.reached past s₀
    let next := PacedScan.turn env s world
    (∀ t ∈ past, t.items?.isSome →
      ∃ document, t.answer? = some document ∧ ∃ page : ScanOutput, Wire.read document = .ok page) ∧
    PacedScan.returned past = PacedScan.upTo o.limit (PacedScan.offered past) ∧
    (∃ opening, Request.scan table config o.pageScan = .ok opening ∧
      ∀ time op params answer, .call time op params answer ∈ next.events →
        op = .scan ∧ PacedScan.AsksNext past o (Wire.write opening) params) ∧
    (∀ e, next.outcome = .error e → next.after.own.cursor = s.cursor ∧
      next.after.own.remaining = s.remaining ∧ next.after.own.done = s.done) ∧
    (s.done = true ↔ PacedScan.Finished past o) ∧
    (s.done = true → next.outcome = .ok none ∧ next.events = [] ∧ next.after.own = s) := by
  intro past s next
  have hplace : PacedScan.InPlace o s₀ past s :=
    (PacedScan.inPlace_of_start hstart).append_turns env worlds
  obtain ⟨opening, hopening⟩ := PacedScan.opening_of_start hstart
  obtain ⟨htable, hconfig, hscan, -⟩ := PacedScan.fields_of_start hstart
  have hchecked : Request.scan table config o.pageScan = .ok opening := by
    rwa [htable, hconfig, hscan] at hopening
  refine ⟨hplace.accepted, hplace.returned_eq, ⟨opening, hchecked, ?_⟩, ?_, hplace.done_iff, ?_⟩
  · intro time op params answer hevent
    obtain ⟨hdone, hop, input, hinput, rfl⟩ := PacedScan.asks_of_mem_turn_events hevent
    exact ⟨hop, hplace.asksNext hstart hdone hopening hinput⟩
  · intro e he
    obtain ⟨-, houtcome, -⟩ | ⟨-, -, hstays⟩ | ⟨-, items, document, houtcome, -⟩ :=
      PacedScan.turn_cases env s world
    · cases he.symm.trans houtcome
    · obtain ⟨pacing, hown⟩ := hstays.place
      rw [hown]
      exact ⟨rfl, rfl, rfl⟩
    · cases he.symm.trans houtcome
  · intro hdone
    obtain ⟨-, houtcome, hafter⟩ | ⟨hnot, -⟩ | ⟨hnot, -⟩ := PacedScan.turn_cases env s world
    · refine ⟨houtcome, PacedScan.turn_events_of_done env world hdone, ?_⟩
      rw [hafter]
      rfl
    · cases hdone.symm.trans hnot
    · cases hdone.symm.trans hnot

/-! ## A run of three calls -/

private def thing (name : String) : Item :=
  [("id", .string name)]

/-- A page of things, and the one after which the next page starts. -/
private def thingsPage (names : List String) (last : Option String) : Json :=
  .object (("Items", .array (names.map fun name ↦ Wire.write (thing name))) ::
    last.toList.map fun name ↦ ("LastEvaluatedKey", Wire.write (thing name)))

/-- A service that gives the answers of a script, each after a window. -/
private def scripted : Environment (List (Except ServiceError Json)) where
  reply _ _ script :=
    (⟨paceWindow, script.headD (.error (.ofCode .internalServerError ""))⟩, script.tail)
  oversleep _ script := (0, script)

private def threeThings : PacedScanOptions where
  scan := {}
  pageSize := some 2
  limit := some 3
  budget := { ScanBudget.ofConfig {} 5 with allowWithoutConsumedCapacity := true }

private def threeThingsScan : PacedScan Float where
  table := ⟨"things", ⟨"id", none⟩, [], []⟩
  config := {}
  scan := { returnConsumedCapacity := some .total }
  pageSize := 2
  budget := threeThings.budget
  remaining := some 3
  cursor := none
  done := false
  pacing := .initial

private def threeCalls : List (World (List (Except ServiceError Json))) :=
  [{ service := [.ok (thingsPage ["a", "b"] (some "b"))] },
    { service := [.error (.ofCode .validation "")], clock := 5 * paceWindow },
    { service := [.error (.ofCode .throttling ""), .ok (thingsPage ["c", "d"] none)]
      clock := 9 * paceWindow }]

/-- The second call fails and the third is throttled at first. -/
theorem three_things_neither_lost_nor_repeated :
    PacedScan.start ⟨"things", ⟨"id", none⟩, [], []⟩ {} threeThings = .ok threeThingsScan ∧
      PacedScan.returned (PacedScan.turns scripted threeThingsScan threeCalls) =
        ["a", "b", "c"].map thing := by
  have hstart : PacedScan.start ⟨"things", ⟨"id", none⟩, [], []⟩ {} threeThings =
      .ok threeThingsScan := rfl
  have hoffered : PacedScan.offered (PacedScan.turns scripted threeThingsScan threeCalls) =
      ["a", "b", "c", "d"].map thing := rfl
  obtain ⟨-, hreturned, -⟩ :=
    paced_scan_neither_loses_nor_repeats hstart scripted threeCalls { service := [] }
  refine ⟨hstart, ?_⟩
  rw [hreturned, hoffered]
  rfl

end TableClient
