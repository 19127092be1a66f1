import TableClient.Payload.Output
import TableClient.Request.Scan
import TableClient.Scan.Budget
/-!
# Paced scans

A paced scan reads a table page by page and stays within a budget of capacity in each second. It
keeps where the next page starts, how many items are still wanted, and what it has used in the
current window of one second.

Before a page is asked for, its cost is predicted to be that of the last page. If the window would
go over the budget, the scan sleeps to the end of the window, though never longer than it may, and a
new window begins. The first page of a window is always asked for.
-/

namespace TableClient

/-- The length of a window. -/
def paceWindow : Nat := nanosPerSecond

/-- What a paced scan is to read. -/
structure PacedScanOptions where
  /-- The request for each page. Where it starts is where the scan starts. -/
  scan : ScanOptions
  /-- How many items each page evaluates. -/
  pageSize : Option UInt32 := none
  /-- How many items are wanted in all. -/
  limit : Option UInt32 := none
  budget : ScanBudget

namespace PacedScanOptions

/-- The request for each page, but for its start and its limit. It asks for the cost of the page
unless the options say otherwise. -/
def pageScan (o : PacedScanOptions) : ScanOptions :=
  { o.scan with
    exclusiveStartKey := none
    returnConsumedCapacity := some (o.scan.returnConsumedCapacity.getD .total) }

/-- How many items each page evaluates: as many as the options say, or else as many as are wanted
and the budget has units. -/
def itemsPerPage (o : PacedScanOptions) : UInt32 :=
  o.pageSize.getD (o.limit.elim o.budget.rate fun limit => min limit o.budget.rate)

end PacedScanOptions

/-- What a scan has used and met so far. -/
structure Pacing (κ : Type) where
  /-- When the first page was asked for. -/
  scanStart : Option Nat := none
  /-- When the current window began. -/
  windowStart : Option Nat := none
  /-- The capacity used in the current window. -/
  consumedInWindow : κ
  /-- The cost of the last page. -/
  lastPageCost : κ
  /-- How many throttled answers there were since the last page. The program counts them in a word
  of 32 bits, which agrees with this number as long as there are fewer than `2 ^ 32` in a row. -/
  consecutiveThrottles : Nat := 0

/-- A scan in progress. -/
structure PacedScan (κ : Type) where
  table : TableDescriptor
  config : ClientConfig
  /-- The request for each page, but for its start and its limit. -/
  scan : ScanOptions
  pageSize : UInt32
  budget : ScanBudget
  /-- How many items are still wanted, if there is a limit. -/
  remaining : Option Nat
  /-- Where the next page starts, if not at the beginning. -/
  cursor : Option Key
  /-- Whether no further page is asked for. -/
  done : Bool
  pacing : Pacing κ

/-! ## Windows -/

namespace Pacing

variable {κ : Type} [CapacityUnits κ]

/-- Nothing used, nothing met. -/
def initial : Pacing κ where
  consumedInWindow := CapacityUnits.zero
  lastPageCost := CapacityUnits.zero

def resetWindow (p : Pacing κ) (now : Nat) : Pacing κ :=
  { p with windowStart := some now, consumedInWindow := CapacityUnits.zero }

/-- Whether something was used in the window and another page like the last one would go over the
budget. -/
def wouldOverrun (p : Pacing κ) (rate : UInt32) : Bool :=
  CapacityUnits.exceeds p.consumedInWindow CapacityUnits.zero &&
    CapacityUnits.exceeds (CapacityUnits.add p.consumedInWindow p.lastPageCost)
      (CapacityUnits.ofRate rate)

/-- What is to be done before a page. -/
inductive Pace where
  /-- Begin a window and ask for the page. -/
  | newWindow
  /-- Ask for the page. -/
  | proceed
  /-- Sleep so long, then begin a window and ask for the page. -/
  | sleep (duration : Nat)

/-- What is to be done before a page that is asked for now. -/
def pace (p : Pacing κ) (budget : ScanBudget) (now : Nat) : Pace :=
  match p.windowStart with
  | none => .newWindow
  | some start =>
    if start + paceWindow ≤ now then .newWindow
    else if p.wouldOverrun budget.rate then
      .sleep (min (start + paceWindow - now) budget.maxSleep.nanos)
    else .proceed

def charge (p : Pacing κ) (cost : κ) : Pacing κ :=
  { p with
    consumedInWindow := CapacityUnits.add p.consumedInWindow cost
    lastPageCost := cost }

end Pacing

/-! ## Pages -/

namespace PacedScan

variable {κ : Type} [CapacityUnits κ]

/-- The scan that options ask for, if a page of it can be requested. -/
def start (table : TableDescriptor) (config : ClientConfig) (o : PacedScanOptions) :
    Checked (PacedScan κ) := do
  Checked.refuseIf (o.budget.rate = 0) .zeroRate
  Checked.refuseIf (o.pageSize = some 0) .zeroPageSize
  let _ ← Request.scan table config o.pageScan
  return {
    table
    config
    scan := o.pageScan
    pageSize := o.itemsPerPage
    budget := o.budget
    remaining := o.limit.map UInt32.toNat
    cursor := o.scan.exclusiveStartKey.filter fun key => !key.isEmpty
    done := o.limit = some 0
    pacing := .initial }

def pageLimit (s : PacedScan κ) : UInt32 :=
  s.remaining.elim s.pageSize fun n => UInt32.ofNat (min n s.pageSize.toNat)

/-- The request for the next page. -/
def pageOptions (s : PacedScan κ) : ScanOptions :=
  { s.scan with limit := some s.pageLimit, exclusiveStartKey := s.cursor }

/-- What a page cost, if it tells or need not. -/
def cost? (s : PacedScan κ) (page : ScanOutput) : Option κ :=
  match page.consumedCapacity.bind (·.capacityUnits) with
  | some units => some (CapacityUnits.ofReport units)
  | none => if s.budget.allowWithoutConsumedCapacity then some CapacityUnits.zero else none

/-- The items of a page that are wanted. -/
def wanted (s : PacedScan κ) (page : ScanOutput) : List Item :=
  s.remaining.elim page.items page.items.take

/-- The scan after a page with its cost. It is done when the page says where no other starts, or
when all items that were wanted are there. -/
def advance (s : PacedScan κ) (page : ScanOutput) (cost : κ) : PacedScan κ :=
  let cursor := if page.lastEvaluatedKey.isEmpty then none else some page.lastEvaluatedKey
  let remaining := s.remaining.map (· - (s.wanted page).length)
  { s with
    pacing := s.pacing.charge cost
    cursor
    remaining
    done := s.done || cursor.isNone || remaining = some 0 }

def withPacing (s : PacedScan κ) (f : Pacing κ → Pacing κ) : PacedScan κ :=
  { s with pacing := f s.pacing }

end PacedScan
end TableClient
