import TableClient.Client.Connection
import TableClient.Scan.Paced
/-!
# Running a paced scan

`nextPage` asks for pages until one is accepted. A throttled answer is followed by a sleep and the
same request again, until there were too many in a row; every other failure ends the call and leaves
the place of the scan as it was. The number of repetitions is bounded by the throttled answers that
the budget still bears, so a call ends whatever the service answers.
-/

namespace TableClient
namespace PacedScan

variable {κ σ : Type} [CapacityUnits κ]

/-- What a step of a scan does. -/
abbrev Step (κ σ α : Type) := Client (PacedScan κ) σ α

/-- When the first page was asked for; now, if none was yet. -/
def startTime : Step κ σ Nat := do
  let now ← Client.now
  let start := (← Client.own).pacing.scanStart.getD now
  Client.update (·.withPacing fun p => { p with scanStart := some start })
  return start

/-- Refuses to go on when the time of the scan is over. -/
def checkDeadline (start : Nat) : Step κ σ Unit := do
  let now ← Client.now
  match (← Client.own).budget.timeout with
  | some timeout => if timeout.nanos < now - start then throw (.scanTimeout timeout)
  | none => return ()

/-- Sleeps if the budget wants it, and begins a window where one is due. -/
def keepPace (env : Environment σ) : Step κ σ Unit := do
  let s ← Client.own
  match s.pacing.pace s.budget (← Client.now) with
  | .proceed => return ()
  | .newWindow =>
    let now ← Client.now
    Client.update (·.withPacing (·.resetWindow now))
  | .sleep duration =>
    Client.sleep env duration
    let now ← Client.now
    Client.update (·.withPacing (·.resetWindow now))

def accept (page : ScanOutput) : Step κ σ (List Item) := do
  Client.update (·.withPacing fun p => { p with consecutiveThrottles := 0 })
  let s ← Client.own
  match s.cost? page with
  | none => throw .missingConsumedCapacity
  | some cost =>
    Client.update fun s => s.advance page cost
    return s.wanted page

/-- One request for the next page: the page, or the throttled answer to it. -/
def attempt (env : Environment σ) (start : Nat) : Step κ σ (Except ServiceError ScanOutput) := do
  checkDeadline start
  keepPace env
  let s ← Client.own
  let input ← Client.check (Request.scan s.table s.config s.pageOptions)
  match ← Client.outcome (Client.send env .scan input) with
  | .ok page => return .ok page
  | .error (.service e) => if e.isThrottling then return .error e else throw (.service e)
  | .error e => throw e

def countThrottle : Step κ σ Nat := do
  Client.update fun s =>
    s.withPacing fun p => { p with consecutiveThrottles := p.consecutiveThrottles + 1 }
  return (← Client.own).pacing.consecutiveThrottles

/-- The items of the next page, with so many further requests after throttled answers. -/
def fetch (env : Environment σ) (start : Nat) : Nat → Step κ σ (List Item)
  | 0 => do
    match ← attempt env start with
    | .ok page => accept page
    | .error e => throw (.exhausted (← countThrottle) e)
  | retries + 1 => do
    match ← attempt env start with
    | .ok page => accept page
    | .error _ =>
      let attempts ← countThrottle
      Client.sleep env ((← Client.own).budget.backoff attempts).nanos
      fetch env start retries

/-- How many throttled answers in a row the scan still bears. -/
def retriesLeft (s : PacedScan κ) : Nat :=
  s.budget.maxConsecutiveExceptions.toNat - s.pacing.consecutiveThrottles

/-- The items of the next page, none once the scan is done. A page may be empty. -/
def nextPage (env : Environment σ) : Step κ σ (Option (List Item)) := do
  let s ← Client.own
  if s.done then return none
  let start ← startTime
  some <$> fetch env start s.retriesLeft

/-- The items of at most `pages` further pages, as far as they are wanted, and the failure that
ended them. No page is asked for before the items of the last one are used up. -/
def items (env : Environment σ) : (pages : Nat) → (count : Option Nat) →
    StateM (Session (PacedScan κ) σ) (List Item × Option ClientError)
  | 0, _ => return ([], none)
  | _, some 0 => return ([], none)
  | pages + 1, count => do
    match ← (nextPage env).run with
    | .error e => return ([], some e)
    | .ok none => return ([], none)
    | .ok (some page) =>
      let taken := count.elim page page.take
      let (rest, failure) ← items env pages (count.map (· - taken.length))
      return (taken ++ rest, failure)

end PacedScan

/-- The paced scan of the table of a connection. -/
def Connection.pacedScan {κ σ : Type} [CapacityUnits κ] (env : Environment σ)
    (o : PacedScanOptions) : Connection.Step σ (PacedScan κ) := do
  let table ← known env
  Client.check (PacedScan.start table (← Client.own).config o)

end TableClient
