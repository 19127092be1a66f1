import TableClient.Proofs.Scan.Complete
import TableClient.Proofs.Scan.Events
import TableClient.Proofs.Scan.HeldTable

/-!
# Scans that are cut and resumed

Against a service that holds its table, a scan accounts for all rows after its start: what it has
returned and what a scan from its cursor still has to read are together what there is (`Accounts`).
No limit spoils this, because a page is asked for with no more rows than there are items wanted, so
no item of a page is dropped whose key is behind the cursor already. A scan that was stopped
anywhere is therefore continued by another one that starts from its cursor.
-/

namespace TableClient
namespace PacedScan

variable {κ σ : Type}

/-! ## Pages that are taken -/

theorem mem_of_lastAnswer? {events : List Event} {document : Json}
    (h : lastAnswer? events = some document) :
    ∃ time op params, .call time op params (.ok document) ∈ events := by
  rw [lastAnswer?] at h
  split at h
  · next time op params document' hlast =>
    obtain rfl := Option.some.inj h
    exact ⟨time, op, params, List.mem_of_getLast? hlast⟩
  · cases h

/-- The call has asked for the page that its scan was at, and the service has answered with the page
that the call returns. -/
structure TakesPage [CapacityUnits κ] (env : Environment σ) (t : Turn κ σ) (document : Json)
    (page : ScanOutput) : Prop where
  read : Wire.read document = .ok page
  answer : t.answer? = some document
  replied : ∃ input service,
    Request.scan t.before.own.table t.before.own.config t.before.own.pageOptions = .ok input ∧
      (env.reply .scan (Wire.write input) service).1.answer = .ok document
  items : t.items? = some (t.before.own.wanted page)
  after : ∃ pacing cost,
    t.after.own = ({ t.before.own with pacing } : PacedScan κ).advance page cost

/-- The items of a page are all wanted if they are no more than its limit. -/
theorem wanted_of_length_le {s : PacedScan κ} {page : ScanOutput}
    (h : page.items.length ≤ s.pageLimit.toNat) : s.wanted page = page.items := by
  rw [pageLimit_toNat] at h
  rw [wanted]
  cases hremaining : s.remaining with
  | none => rfl
  | some n =>
    rw [hremaining] at h
    exact List.take_of_length_le (Nat.le_trans h (Nat.min_le_right _ _))

section Turns

variable [CapacityUnits κ]

theorem turn_takesPage_or_stays (env : Environment σ) (s : PacedScan κ) (world : World σ) :
    let t := turn env s world
    (s.done = false ∧ ∃ document page, TakesPage env t document page) ∨
      (t.items? = none ∧ ∃ pacing, t.after.own = { s with pacing }) := by
  intro t
  obtain ⟨-, houtcome, hafter⟩ | ⟨-, ⟨e, houtcome⟩, hstays⟩ |
    ⟨hdone, items, document, houtcome, between, page, hstays, hlast, hread, cost, hafter, rfl⟩ :=
      turn_cases env s world
  · refine .inr ⟨?_, s.pacing, by rw [hafter]; rfl⟩
    rw [Turn.items?, houtcome]
  · refine .inr ⟨?_, hstays.place⟩
    rw [Turn.items?, houtcome]
  · obtain ⟨pacing, hplace⟩ := hstays.place
    have hitems : t.items? = some (s.wanted page) := by
      rw [Turn.items?, houtcome, hplace]
      rfl
    obtain ⟨time, op, params, hevent⟩ := mem_of_lastAnswer? hlast
    obtain ⟨-, rfl, input, hinput, rfl⟩ := asks_of_mem_turn_events hevent
    obtain ⟨service, hreply⟩ := answered_of_mem_turn_events hevent
    refine .inl ⟨hdone, document, page, hread, ?_, ⟨input, service, hinput, hreply.symm⟩, hitems,
      pacing, cost, ?_⟩
    · rw [Turn.answer?_of_items?_eq_some hitems, hlast]
    · rw [hafter, hplace]

/-- A scan that is done stays as it is. -/
theorem reached_of_done (env : Environment σ) {s : PacedScan κ} (hdone : s.done = true)
    (worlds : List (World σ)) : reached (turns env s worlds) s = s := by
  induction worlds with
  | nil => rfl
  | cons world worlds ih =>
    have hafter : (turn env s world).after.own = s := by
      rw [turn_after_of_done env world hdone]
    rw [turns, reached_cons, hafter]
    exact ih

end Turns

/-! ## What is left -/

/-- The rows that a scan has yet to read: those after its cursor, but none once a page named no next
one. -/
inductive Leaves (held : HeldTable) (past : List (Turn κ σ)) (s : PacedScan κ) : List Row → Prop
  | after {rest : List Row} (hrest : held.after? (s.cursor.getD []) = some rest)
      (hbegun : s.cursor = none → answers past = []) : Leaves held past s rest
  | ended (hcursor : s.cursor = none) (hdone : s.done = true) : Leaves held past s []

/-- What the scan has returned and what it leaves are together what the rows show. -/
structure Accounts (held : HeldTable) (rows : List Row) (past : List (Turn κ σ)) (s : PacedScan κ)
    (rest : List Row) : Prop where
  cursor_ne : s.cursor ≠ some []
  leaves : Leaves held past s rest
  all : Row.allShown rows = returned past ++ Row.allShown rest

namespace Accounts

variable {held : HeldTable} {rows rest : List Row} {past : List (Turn κ σ)} {s : PacedScan κ}

theorem returned_eq (h : Accounts held rows past s rest) (hcursor : s.cursor = none)
    (hpages : answers past ≠ []) : returned past = Row.allShown rows := by
  cases h.leaves with
  | after hrest hbegun => exact absurd (hbegun hcursor) hpages
  | ended =>
    rw [h.all]
    exact (List.append_nil _).symm

theorem after_cursor (h : Accounts held rows past s rest) {key : Key}
    (hcursor : s.cursor = some key) : held.after? key = some rest := by
  cases h.leaves with
  | after hrest hbegun =>
    rw [hcursor] at hrest
    exact hrest
  | ended hnone => cases hcursor.symm.trans hnone

end Accounts

section Runs

variable [CapacityUnits κ] {table : TableDescriptor} {config : ClientConfig} {o : PacedScanOptions}
  {s₀ s : PacedScan κ} {opening : ScanInput} {env : Environment σ} {held : HeldTable}
  {rows rest : List Row} {past : List (Turn κ σ)}

theorem accounts_of_start (hstart : start table config o = .ok s₀)
    (hrows : held.after? (o.scan.exclusiveStartKey.getD []) = some rows) :
    Accounts held rows ([] : List (Turn κ σ)) s₀ rows := by
  obtain ⟨-, -, -, rfl⟩ := start_eq_ok_iff.mp hstart
  refine ⟨?_, .after ?_ fun _ ↦ rfl, rfl⟩
  · intro hcursor
    exact absurd (Option.filter_eq_some_iff.mp hcursor).2 (by decide)
  · rw [← hrows]
    change held.after? ((o.scan.exclusiveStartKey.filter fun key ↦ !key.isEmpty).getD []) = _
    cases o.scan.exclusiveStartKey with
    | none => rfl
    | some key =>
      cases key with
      | nil => rfl
      | cons entry key => rfl

/-- What a page adds to what was returned it takes from what was left, and something is left less,
unless the scan is done. -/
theorem Accounts.append_of_takesPage {t : Turn κ σ} {document : Json} {page : ScanOutput}
    (h : Accounts held rows past t.before.own rest) (hplace : InPlace o s₀ past t.before.own)
    (hstart : start table config o = .ok s₀) (hdone : t.before.own.done = false)
    (hopening : Request.scan s₀.table s₀.config s₀.scan = .ok opening)
    (hserves : held.ServedBy env (Wire.write opening)) (ht : TakesPage env t document page) :
    ∃ rest', Accounts held rows (past ++ [t]) t.after.own rest' ∧
      (t.after.own.done = true ∨ rest'.length < rest.length) := by
  obtain ⟨input, service, hinput, hreply⟩ := ht.replied
  obtain ⟨pacing, cost, hafter⟩ := ht.after
  cases h.leaves with
  | ended hcursor hover => cases hdone.symm.trans hover
  | after hrest =>
    obtain ⟨page', rest', hread, hpage⟩ := hserves _ _ _ _ service document
      (hplace.requestsPage hopening hinput) (hplace.pageLimit hstart hdone).1 hrest hreply
    obtain rfl := Except.ok.inj (hread.symm.trans ht.read)
    have hreturned : returned (past ++ [t]) = returned past ++ page'.items := by
      rw [returned_append_of_some past ht.items, wanted_of_length_le hpage.length_items_le]
    have hall : Row.allShown rows = returned (past ++ [t]) ++ Row.allShown rest' := by
      rw [h.all, hpage.allShown_eq, hreturned, List.append_assoc]
    have hcursor : t.after.own.cursor =
        if page'.lastEvaluatedKey.isEmpty then none else some page'.lastEvaluatedKey := by
      rw [hafter]
      rfl
    cases hpage with
    | last hlimit hitems hkey =>
      have hcursor : t.after.own.cursor = none := by
        rw [hcursor, hkey]
        rfl
      have hnext : t.after.own.done = true := by
        rw [hafter, advance_done_iff, hkey]
        exact .inr (.inl rfl)
      refine ⟨[], ⟨?_, .ended hcursor hnext, hall⟩, .inl hnext⟩
      intro hsome
      cases hcursor.symm.trans hsome
    | @more evaluated _ row _ hlimit hne hitems hkey =>
      have hrow := HeldTable.key_ne_nil_of_after? hrest
      rw [hkey, if_neg (by rwa [List.isEmpty_iff])] at hcursor
      refine ⟨rest', ⟨?_, .after ?_ ?_, hall⟩, .inr ?_⟩
      · rw [hcursor]
        exact fun hnil ↦ hrow (Option.some.inj hnil)
      · rw [hcursor]
        exact HeldTable.after?_of_evaluated hrest
      · intro hnone
        cases hcursor.symm.trans hnone
      · rw [List.length_append, List.length_cons]
        omega

/-- What one call preserves. -/
theorem Accounts.append_turn (h : Accounts held rows past s rest) (hplace : InPlace o s₀ past s)
    (hstart : start table config o = .ok s₀)
    (hopening : Request.scan s₀.table s₀.config s₀.scan = .ok opening)
    (hserves : held.ServedBy env (Wire.write opening)) (world : World σ) :
    ∃ rest', Accounts held rows (past ++ [turn env s world]) (turn env s world).after.own rest' ∧
      ((turn env s world).items?.isSome →
        (turn env s world).after.own.done = true ∨ rest'.length < rest.length) := by
  obtain ⟨hdone, document, page, ht⟩ | ⟨hitems, pacing, hafter⟩ :=
    turn_takesPage_or_stays env s world
  · obtain ⟨rest', hrest', hless⟩ :=
      h.append_of_takesPage (t := turn env s world) hplace hstart hdone hopening hserves ht
    exact ⟨rest', hrest', fun _ ↦ hless⟩
  · have hanswers := answers_append_of_none past hitems
    refine ⟨rest, ⟨?_, ?_, ?_⟩, ?_⟩
    · rw [hafter]
      exact h.cursor_ne
    · rw [hafter]
      cases h.leaves with
      | after hrest hbegun => exact .after hrest fun hnone ↦ hanswers.trans (hbegun hnone)
      | ended hcursor hdone => exact .ended hcursor hdone
    · rw [returned_append_of_none past hitems]
      exact h.all
    · rw [hitems]
      exact fun hsome ↦ by cases hsome

/-- What any calls preserve. -/
theorem Accounts.append_turns (h : Accounts held rows past s rest) (hplace : InPlace o s₀ past s)
    (hstart : start table config o = .ok s₀)
    (hopening : Request.scan s₀.table s₀.config s₀.scan = .ok opening)
    (hserves : held.ServedBy env (Wire.write opening)) (worlds : List (World σ)) :
    ∃ rest', Accounts held rows (past ++ turns env s worlds) (reached (turns env s worlds) s)
      rest' := by
  induction worlds generalizing past s rest with
  | nil =>
    rw [turns, List.append_nil]
    exact ⟨rest, h⟩
  | cons world worlds ih =>
    rw [turns, reached_cons, ← List.singleton_append, ← List.append_assoc]
    obtain ⟨rest', hrest', -⟩ := h.append_turn hplace hstart hopening hserves world
    exact ih hrest' (hplace.append_turn env world)

omit [CapacityUnits κ] in
/-- A scan without a limit that is done has read the last page. -/
theorem Accounts.over_of_done (h : Accounts held rows past s rest) (hplace : InPlace o s₀ past s)
    (hlimit : o.limit = none) (hdone : s.done = true) : s.cursor = none ∧ answers past ≠ [] := by
  obtain ⟨limit, hsome, -⟩ | ⟨document, hlast, hnext⟩ := hplace.done_iff.mp hdone
  · cases hlimit.symm.trans hsome
  · refine ⟨?_, fun hnil ↦ by rw [hnil] at hlast; cases hlast⟩
    have hcursor := hplace.cursor_eq
    rw [nextKey?, hlast, Option.elim_some, hnext] at hcursor
    cases hkey : s.cursor with
    | none => rfl
    | some key =>
      rw [hkey] at hcursor
      cases key with
      | nil => exact absurd hkey h.cursor_ne
      | cons entry key => cases hcursor

end Runs

/-! ## The end of a scan -/

/-- Nothing keeps a scan with this budget from its pages: it has no timeout, the service answers all
its requests, and the costs of pages are reported or need not be. -/
structure Forthcoming (env : Environment σ) (budget : ScanBudget) : Prop where
  patient : budget.timeout = none
  answers : ∀ params service, ∃ document, (env.reply .scan params service).1.answer = .ok document
  costs : budget.allowWithoutConsumedCapacity = true ∨
    ∀ params service document (page : ScanOutput),
      (env.reply .scan params service).1.answer = .ok document → Wire.read document = .ok page →
        (page.consumedCapacity.bind (·.capacityUnits)).isSome

section Ends

variable [CapacityUnits κ] {env : Environment σ}

/-- The first attempt has a page that can be accepted, if every request is answered with one. -/
theorem Attempts.page_of_answered {start : ℕ} {before after : Session (PacedScan κ) σ}
    {r : Except ClientError (Except ServiceError ScanOutput)}
    (h : Attempts env start before r after)
    (htimeout : before.own.budget.timeout = none)
    (hrequest : ∃ input, Request.scan before.own.table before.own.config before.own.pageOptions =
      .ok input)
    (hpages : ∀ input service, Request.scan before.own.table before.own.config
        before.own.pageOptions = .ok input →
      ∃ page, heard (env.reply .scan (Wire.write input) service).1.answer = .ok (.ok page) ∧
        before.own.cost? page ≠ none) :
    ∃ page, r = .ok (.ok page) ∧ after.own.cost? page ≠ none := by
  obtain ⟨windowStart, consumed, hown⟩ := paced_own env before
  cases h with
  | late hsome => cases htimeout.symm.trans hsome
  | refused hontime hrefused =>
    obtain ⟨input, hinput⟩ := hrequest
    rw [hown] at hrefused
    cases hinput.symm.trans hrefused
  | @answered input hontime hinput =>
    rw [hown] at hinput
    obtain ⟨page, hheard, hcost⟩ := hpages input (paced env before).world.service hinput
    refine ⟨page, hheard, ?_⟩
    change (paced env before).own.cost? page ≠ none
    rw [hown]
    exact hcost

/-- So has the whole call. -/
theorem Fetched.items_of_answered {start retries : ℕ} {before after : Session (PacedScan κ) σ}
    {r : Except ClientError (List Item)} (h : Fetched env start retries before r after)
    (htimeout : before.own.budget.timeout = none)
    (hrequest : ∃ input, Request.scan before.own.table before.own.config before.own.pageOptions =
      .ok input)
    (hpages : ∀ input service, Request.scan before.own.table before.own.config
        before.own.pageOptions = .ok input →
      ∃ page, heard (env.reply .scan (Wire.write input) service).1.answer = .ok (.ok page) ∧
        before.own.cost? page ≠ none) :
    ∃ items, r = .ok items := by
  cases h with
  | failed hattempt | exhausted hattempt | again hattempt =>
    obtain ⟨page, hr, -⟩ := hattempt.page_of_answered htimeout hrequest hpages
    cases hr
  | page hattempt haccept =>
    obtain ⟨page, hr, hcost⟩ := hattempt.page_of_answered htimeout hrequest hpages
    obtain rfl := Except.ok.inj (Except.ok.inj hr)
    cases haccept with
    | costless hnone => exact absurd hnone hcost
    | charged => exact ⟨_, rfl⟩

variable {table : TableDescriptor} {config : ClientConfig} {o : PacedScanOptions}
  {s₀ s : PacedScan κ} {opening : ScanInput} {held : HeldTable} {rows rest : List Row}
  {past : List (Turn κ σ)}

theorem Forthcoming.cost?_ne_none (h : Forthcoming env s.budget) {params document : Json}
    {service : σ} {page : ScanOutput}
    (hreply : (env.reply .scan params service).1.answer = .ok document)
    (hread : Wire.read document = .ok page) : s.cost? page ≠ none := by
  rw [cost?]
  cases hunits : page.consumedCapacity.bind (·.capacityUnits) with
  | some units => exact Option.some_ne_none _
  | none =>
    obtain hallowed | hreported := h.costs
    · dsimp only
      rw [if_pos hallowed]
      exact Option.some_ne_none _
    · have hsome := hreported params service document page hreply hread
      rw [hunits] at hsome
      cases hsome

/-- Nothing keeping it from its pages, a call of a scan that is not done has one. -/
theorem items?_isSome_of_forthcoming (h : Accounts held rows past s rest)
    (hplace : InPlace o s₀ past s) (hstart : start table config o = .ok s₀)
    (hopening : Request.scan s₀.table s₀.config s₀.scan = .ok opening)
    (hserves : held.ServedBy env (Wire.write opening)) (hforth : Forthcoming env o.budget)
    (hsize : 2 * s₀.pageSize.toNat < UInt32.size) (hdone : s.done = false) (world : World σ) :
    (turn env s world).items?.isSome := by
  have hbudget : s.budget = o.budget := by
    obtain ⟨remaining, cursor, done, pacing, hsame⟩ := hplace.same
    rw [hsame]
    exact (budget_of_start hstart).1
  rw [← hbudget] at hforth
  have hrequest : ∃ input, Request.scan s.table s.config s.pageOptions = .ok input := by
    have hlimit : s.pageLimit.toNat ≤ s₀.pageSize.toNat := by
      rw [(hplace.pageLimit hstart hdone).2]
      cases o.limit with
      | none => exact Nat.le_refl _
      | some n => exact Nat.min_le_left _ _
    obtain ⟨remaining, cursor, done, pacing, hsame⟩ := hplace.same
    have hsmall : 2 * s.pageLimit.toNat < UInt32.size := by omega
    have hinput := Request.exists_scan_resume hopening hsmall s.cursor
    rw [hsame] at hinput ⊢
    exact hinput
  have hpages (input : ScanInput) (service : σ)
      (hinput : Request.scan s.table s.config s.pageOptions = .ok input) :
      ∃ page, heard (env.reply .scan (Wire.write input) service).1.answer = .ok (.ok page) ∧
        s.cost? page ≠ none := by
    obtain ⟨document, hreply⟩ := hforth.answers (Wire.write input) service
    cases h.leaves with
    | ended hcursor hover => cases hdone.symm.trans hover
    | after hrest =>
      obtain ⟨page, -, hread, -⟩ := hserves _ _ _ _ service document
        (hplace.requestsPage hopening hinput) (hplace.pageLimit hstart hdone).1 hrest hreply
      exact ⟨page, heard_eq_page_iff.mpr ⟨document, hreply, hread⟩,
        hforth.cost?_ne_none hreply hread⟩
  obtain ⟨r, houtcome, hfetched⟩ := turn_fetched env world hdone
  obtain ⟨items, rfl⟩ := hfetched.items_of_answered hforth.patient hrequest hpages
  rw [Turn.items?, houtcome]
  rfl

/-- So after as many calls as there are rows left, and one more, the scan is done. -/
theorem reached_done_of_forthcoming (h : Accounts held rows past s rest)
    (hplace : InPlace o s₀ past s) (hstart : start table config o = .ok s₀)
    (hopening : Request.scan s₀.table s₀.config s₀.scan = .ok opening)
    (hserves : held.ServedBy env (Wire.write opening)) (hforth : Forthcoming env o.budget)
    (hsize : 2 * s₀.pageSize.toNat < UInt32.size) {worlds : List (World σ)}
    (hcalls : rest.length < worlds.length) : (reached (turns env s worlds) s).done = true := by
  -- each call leaves fewer rows, or the scan is done and stays so
  induction worlds generalizing past s rest with
  | nil => exact absurd hcalls (Nat.not_lt_zero _)
  | cons world worlds ih =>
    by_cases hdone : s.done = true
    · rw [reached_of_done env hdone]
      exact hdone
    · have hitems := items?_isSome_of_forthcoming h hplace hstart hopening hserves hforth hsize
        (Bool.eq_false_iff.mpr hdone) world
      obtain ⟨rest', hrest', hless⟩ := h.append_turn hplace hstart hopening hserves world
      rw [turns, reached_cons]
      obtain hdone' | hless := hless hitems
      · rw [reached_of_done env hdone']
        exact hdone'
      · rw [List.length_cons] at hcalls
        exact ih hrest' (hplace.append_turn env world) (by omega)

end Ends

end PacedScan

/-- **Cut and resumed.** A scan of a table that the service holds may be stopped after any calls. If
it has a cursor then, another scan from there, with the same request and no limit, however its pages
are sized, returns exactly the rest of what the rows show once it is done; and it gets done, if
nothing keeps it from its pages. If a page left no cursor, all of it was returned already. -/
theorem stopped_scan_resumes_at_cursor {κ σ : Type} [CapacityUnits κ] {table : TableDescriptor}
    {config : ClientConfig} {o : PacedScanOptions} {s₀ : PacedScan κ} {opening : ScanInput}
    {held : HeldTable} {env : Environment σ} {rows : List Row}
    (hstart : PacedScan.start table config o = .ok s₀)
    (hopening : Request.scan s₀.table s₀.config s₀.scan = .ok opening)
    (hserves : held.ServedBy env (Wire.write opening))
    (hrows : held.after? (o.scan.exclusiveStartKey.getD []) = some rows) (worlds : List (World σ)) :
    let past := PacedScan.turns env s₀ worlds
    let s := PacedScan.reached past s₀
    (s.cursor = none → PacedScan.answers past ≠ [] →
      PacedScan.returned past = Row.allShown rows) ∧
    ∀ cursor, s.cursor = some cursor → ∀ (o' : PacedScanOptions) (s₀' : PacedScan κ),
      o'.scan = { o.scan with exclusiveStartKey := some cursor } → o'.limit = none →
      PacedScan.start table config o' = .ok s₀' → ∀ worlds' : List (World σ),
        let later := PacedScan.turns env s₀' worlds'
        ((PacedScan.reached later s₀').done = true →
          PacedScan.returned past ++ PacedScan.returned later = Row.allShown rows) ∧
        (PacedScan.Forthcoming env o'.budget → 2 * s₀'.pageSize.toNat < UInt32.size →
          held.rows.length < worlds'.length → (PacedScan.reached later s₀').done = true) := by
  intro past s
  have hplace₀ : PacedScan.InPlace o s₀ ([] : List (PacedScan.Turn κ σ)) s₀ :=
    PacedScan.inPlace_of_start hstart
  have hplace : PacedScan.InPlace o s₀ past s := hplace₀.append_turns env worlds
  obtain ⟨rest, haccounts⟩ := (PacedScan.accounts_of_start hstart hrows).append_turns hplace₀ hstart
    hopening hserves worlds
  refine ⟨haccounts.returned_eq, fun cursor hcursor o' s₀' hscan hlimit hstart' worlds' ↦ ?_⟩
  have hrest : held.after? cursor = some rest := haccounts.after_cursor hcursor
  obtain ⟨htable, hconfig, hscan'⟩ := PacedScan.scan_eq_of_start hstart hstart' hscan
  have hopening' : Request.scan s₀'.table s₀'.config s₀'.scan = .ok opening := by
    rw [htable, hconfig, hscan']
    exact hopening
  have hplace₀' : PacedScan.InPlace o' s₀' ([] : List (PacedScan.Turn κ σ)) s₀' :=
    PacedScan.inPlace_of_start hstart'
  have haccounts₀' : PacedScan.Accounts held rest ([] : List (PacedScan.Turn κ σ)) s₀' rest := by
    refine PacedScan.accounts_of_start hstart' ?_
    rw [hscan]
    exact hrest
  constructor
  · intro hdone
    have hplace' := hplace₀'.append_turns env worlds'
    obtain ⟨rest', haccounts'⟩ :=
      haccounts₀'.append_turns hplace₀' hstart' hopening' hserves worlds'
    obtain ⟨hover, hpages⟩ := haccounts'.over_of_done hplace' hlimit hdone
    rw [haccounts.all, ← haccounts'.returned_eq hover hpages]
    rfl
  · intro hforth hsize hcalls
    have hlength : rest.length ≤ held.rows.length :=
      (HeldTable.suffix_of_after? hrest).length_le
    exact PacedScan.reached_done_of_forthcoming haccounts₀' hplace₀' hstart' hopening' hserves
      hforth hsize (by omega)

/-! ## A scan that its limit stops -/

private def noteKey (name : String) : Key :=
  [("id", .string name)]

/-- A table of three notes, the second of which does not match. -/
private def notes : HeldTable where
  rows :=
    [⟨noteKey "a", some (noteKey "a")⟩, ⟨noteKey "b", none⟩, ⟨noteKey "c", some (noteKey "c")⟩]
  distinct := by decide
  key_ne_nil := by decide

/-- A service that holds the notes and evaluates one for each page. -/
private def noteService : Environment Unit where
  reply _ params _ :=
    let page := match params.field? "ExclusiveStartKey" with
      | none => .object [
          ("Items", .array [.object [("id", .object [("S", .string "a")])]]),
          ("LastEvaluatedKey", .object [("id", .object [("S", .string "a")])])]
      | some (.object [("id", .object [("S", .string "a")])]) => .object [
          ("LastEvaluatedKey", .object [("id", .object [("S", .string "b")])])]
      | some (.object [("id", .object [("S", .string "b")])]) => .object [
          ("Items", .array [.object [("id", .object [("S", .string "c")])]])]
      | _ => .object []
    (⟨0, .ok page⟩, ())
  oversleep _ _ := (0, ())

private theorem notes_servedBy (request : Json) : notes.ServedBy noteService request := by
  intro params start limit rows service document hpage hlimit hrows hreply
  obtain rfl := Except.ok.inj hreply
  rw [hpage.key]
  have hstart : start ∈ [[], noteKey "a", noteKey "b", noteKey "c"] :=
    HeldTable.start_mem_of_after? hrows
  simp only [List.mem_cons, List.not_mem_nil, or_false] at hstart
  obtain rfl | rfl | rfl | rfl := hstart
  · obtain rfl : notes.rows = rows := Option.some.inj hrows
    refine ⟨_, notes.rows.drop 1, rfl, @Evaluates.more _ [] _ _ _ hlimit ?_ rfl rfl⟩
    decide
  · obtain rfl : notes.rows.drop 1 = rows := Option.some.inj hrows
    refine ⟨_, notes.rows.drop 2, rfl, @Evaluates.more _ [] _ _ _ hlimit ?_ rfl rfl⟩
    decide
  · obtain rfl : notes.rows.drop 2 = rows := Option.some.inj hrows
    exact ⟨_, [], rfl, .last hlimit rfl rfl⟩
  · obtain rfl : [] = rows := Option.some.inj hrows
    exact ⟨_, [], rfl, .last (Nat.zero_le _) rfl rfl⟩

private def firstNote : PacedScanOptions where
  scan := {}
  limit := some 1
  budget := { ScanBudget.ofConfig {} 5 with allowWithoutConsumedCapacity := true }

private def furtherNotes : PacedScanOptions where
  scan := { exclusiveStartKey := some (noteKey "a") }
  pageSize := some 7
  budget := firstNote.budget

private def firstNoteScan : PacedScan Float where
  table := ⟨"notes", ⟨"id", none⟩, [], []⟩
  config := {}
  scan := { returnConsumedCapacity := some .total }
  pageSize := 1
  budget := firstNote.budget
  remaining := some 1
  cursor := none
  done := false
  pacing := .initial

private def furtherNotesScan : PacedScan Float :=
  { firstNoteScan with pageSize := 7, remaining := none, cursor := some (noteKey "a") }

private def noteOpening : ScanInput where
  tableName := "notes"
  returnConsumedCapacity := some .total

/-- The first scan ends after one note. The second one has four calls and needs two. -/
theorem notes_resume_after_first :
    PacedScan.start ⟨"notes", ⟨"id", none⟩, [], []⟩ {} firstNote = .ok firstNoteScan ∧
      PacedScan.returned (PacedScan.turns noteService firstNoteScan [{ service := () }]) ++
        PacedScan.returned (PacedScan.turns noteService furtherNotesScan
          (List.replicate 4 { service := () })) = [noteKey "a", noteKey "c"] := by
  have hstart : PacedScan.start ⟨"notes", ⟨"id", none⟩, [], []⟩ {} firstNote =
      .ok firstNoteScan := rfl
  have hopening : Request.scan firstNoteScan.table firstNoteScan.config firstNoteScan.scan =
      .ok noteOpening := rfl
  have hrows : notes.after? (firstNote.scan.exclusiveStartKey.getD []) = some notes.rows := rfl
  have hforth : PacedScan.Forthcoming noteService furtherNotes.budget :=
    ⟨rfl, fun _ _ ↦ ⟨_, rfl⟩, .inl rfl⟩
  obtain ⟨-, hresumes⟩ := stopped_scan_resumes_at_cursor hstart hopening (notes_servedBy _)
    hrows [{ service := () }]
  obtain ⟨hall, hdone⟩ := hresumes (noteKey "a") rfl furtherNotes furtherNotesScan rfl rfl rfl
    (List.replicate 4 { service := () })
  exact ⟨hstart, hall (hdone hforth (by decide) (by decide))⟩

end TableClient
