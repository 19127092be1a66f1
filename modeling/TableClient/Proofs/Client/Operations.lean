import TableClient.Proofs.Client.Batch
import TableClient.Scan.Run

/-!
# The operations of a connection

What an operation asks for is a plan of calls. The plan is carried out in order up to the first call
that fails (`Served`). An operation that needs the metadata of the table looks for them and plans
with what it finds (`Asks`); what the others plan does not depend on them.
-/

namespace TableClient

/-- Whether the request was refused before it was sent. -/
def ClientError.isRefusal : ClientError → Bool
  | .validation _ | .compile _ => true
  | _ => false

namespace Connection

/-! ## Operations as data -/

/-- An operation that needs the metadata of the table. -/
inductive TableAction where
  | descriptor
  | getItem (hash : AttributeValue) (range : Option AttributeValue) (o : ReadOptions)
  | putItem (hash : AttributeValue) (range : Option AttributeValue) (attributes : Item)
    (o : WriteOptions)
  | updateItem (hash : AttributeValue) (range : Option AttributeValue) (o : UpdateItemOptions)
  | deleteItem (hash : AttributeValue) (range : Option AttributeValue) (o : WriteOptions)
  | query (hash : AttributeValue) (o : QueryOptions)
  | scan (o : ScanOptions)
  | pacedScan (o : PacedScanOptions)
  | batchGetItem (keys : List Key) (o : ReadOptions)
  | batchWriteItem (putItems : List Item) (deleteKeys : List Key) (o : BatchWriteOptions)

/-- An operation of a connection. -/
inductive Action where
  | withDescription (d : TableDescription)
  | describeTable
  | createTable (o : CreateTableOptions)
  | deleteTable
  | updateTable (o : UpdateTableOptions)
  | onTable (a : TableAction)

section Run

variable (κ : Type) {σ : Type} [CapacityUnits κ]

/-- Carries out an operation, whatever it returns. -/
def TableAction.run (env : Environment σ) : TableAction → Step σ Unit
  | .descriptor => (fun _ ↦ ()) <$> known env
  | .getItem hash range o => (fun _ ↦ ()) <$> Connection.getItem env hash range o
  | .putItem hash range attributes o =>
    (fun _ ↦ ()) <$> Connection.putItem env hash range attributes o
  | .updateItem hash range o => (fun _ ↦ ()) <$> Connection.updateItem env hash range o
  | .deleteItem hash range o => (fun _ ↦ ()) <$> Connection.deleteItem env hash range o
  | .query hash o => (fun _ ↦ ()) <$> Connection.query env hash o
  | .scan o => (fun _ ↦ ()) <$> Connection.scan env o
  | .pacedScan o => (fun _ ↦ ()) <$> (Connection.pacedScan env o : Step σ (PacedScan κ))
  | .batchGetItem keys o => (fun _ ↦ ()) <$> Connection.batchGetItem env keys o
  | .batchWriteItem putItems deleteKeys o =>
    (fun _ ↦ ()) <$> Connection.batchWriteItem env putItems deleteKeys o

@[inherit_doc TableAction.run]
def Action.run (env : Environment σ) : Action → Step σ Unit
  | .withDescription d => do
    let c ← Client.check ((← Client.own).withDescription d)
    Client.update fun _ ↦ c
  | .describeTable => (fun _ ↦ ()) <$> Connection.describeTable env
  | .createTable o => (fun _ ↦ ()) <$> Connection.createTable env o
  | .deleteTable => (fun _ ↦ ()) <$> Connection.deleteTable env
  | .updateTable o => (fun _ ↦ ()) <$> Connection.updateTable env o
  | .onTable a => a.run κ env

/-! ## Requests -/

/-- The calls of requests that are built for one operation of the service. -/
def calls {ι : Type} [Wire ι] (op : Operation) (inputs : Checked (List ι)) :
    Checked (List (Operation × Json)) :=
  inputs.map fun inputs ↦ inputs.map fun input ↦ (op, Wire.write input)

/-- The call of one request. -/
def oneCall {ι : Type} [Wire ι] (op : Operation) (input : Checked ι) :
    Checked (List (Operation × Json)) :=
  calls op (input.map ([·]))

/-- The requests of an operation, built from the metadata of the table. -/
def TableAction.requests (t : TableDescriptor) (config : ClientConfig) :
    TableAction → Checked (List (Operation × Json))
  | .descriptor => .ok []
  | .getItem hash range o => oneCall .getItem (Request.getItem t hash range o)
  | .putItem hash range attributes o =>
    oneCall .putItem (Request.putItem t config hash range attributes o)
  | .updateItem hash range o => oneCall .updateItem (Request.updateItem t config hash range o)
  | .deleteItem hash range o => oneCall .deleteItem (Request.deleteItem t config hash range o)
  | .query hash o => oneCall .query (Request.query t config hash o)
  | .scan o => oneCall .scan (Request.scan t config o)
  | .pacedScan o => (PacedScan.start t config o : Checked (PacedScan κ)).map fun _ ↦ []
  | .batchGetItem keys o => calls .batchGetItem (Request.batchGet t config keys o)
  | .batchWriteItem putItems deleteKeys o =>
    calls .batchWriteItem (Request.batchWrite t config putItems deleteKeys o)

/-- The requests of an operation of a connection. One that needs the metadata has none without. -/
def Action.requests (c : Connection) : Action → Checked (List (Operation × Json))
  | .withDescription d => (TableDescriptor.ofDescription d).map fun _ ↦ []
  | .describeTable => .ok []
  | .createTable o => oneCall .createTable (Request.createTable c.tableName o)
  | .deleteTable => oneCall .deleteTable (.ok (Request.deleteTable c.tableName))
  | .updateTable o => oneCall .updateTable (Request.updateTable c.tableName o)
  | .onTable a => c.descriptor.elim (.ok []) fun t ↦ a.requests κ t c.config

end Run

/-! ## Calls that are made -/

/-- A call makes an operation fail: the service refuses it, its answer does not fit the operation,
or what it says of the table has no key. -/
inductive FailsWith : Event → ClientError → Prop
  | refused {time : ℕ} {op : Operation} {params : Json} {failure : ServiceError} :
      FailsWith (.call time op params (.error failure)) (.service failure)
  | misfit {time : ℕ} {op : Operation} {params document : Json} {fault : WireError} :
      FailsWith (.call time op params (.ok document)) (.serialization fault)
  | undescribed {time : ℕ} {params : Json} {answer : Except ServiceError Json} {e : ClientError}
      (h : described answer = .error e) :
      FailsWith (.call time .describeTable params answer) e

section Served

variable {α β ι ο : Type} [Wire ι] [Wire ο]

/-- Of a plan these calls were made: all of them unless one failed, which then was the last. -/
structure Served (plan : List (Operation × Json)) (events : List Event)
    (r : Except ClientError α) : Prop where
  calls : events.filterMap Event.request? <+: plan
  complete : ∀ a, r = .ok a → events.filterMap Event.request? = plan
  failed : ∀ e, r = .error e → e.isRefusal = false ∧
    ∃ last, events.getLast? = some last ∧ FailsWith last e

theorem failsWith_of_received {answer : Except ServiceError Json} {e : ClientError}
    (h : (Client.received answer : Except ClientError ο) = .error e) (time : ℕ) (op : Operation)
    (params : Json) : e.isRefusal = false ∧ FailsWith (.call time op params answer) e := by
  cases answer with
  | error failure =>
    obtain rfl := Except.error.inj h
    exact ⟨rfl, .refused⟩
  | ok document =>
    rw [Client.received] at h
    cases hread : (Wire.read document : Except WireError ο) with
    | ok output =>
      rw [hread] at h
      cases h
    | error failure =>
      rw [hread] at h
      obtain rfl := Except.error.inj h
      exact ⟨rfl, .misfit⟩

theorem served_nil (a : α) : Served [] [] (.ok a : Except ClientError α) := by
  refine ⟨List.prefix_rfl, fun _ _ ↦ rfl, fun e h ↦ ?_⟩
  cases h

/-- Of a plan that is not empty a call was made. -/
theorem Served.ne_nil {request : Operation × Json} {rest : List (Operation × Json)}
    {events : List Event} {r : Except ClientError α} (h : Served (request :: rest) events r) :
    events.filterMap Event.request? ≠ [] := by
  cases r with
  | ok a =>
    rw [h.complete a rfl]
    exact List.cons_ne_nil request rest
  | error e =>
    obtain ⟨-, last, hlast, hfails⟩ := h.failed e rfl
    intro hnil
    have hnone := List.filterMap_eq_nil_iff.mp hnil last (List.mem_of_getLast? hlast)
    cases hfails with
    | refused | misfit | undescribed => cases hnone

theorem Served.map {plan : List (Operation × Json)} {events : List Event}
    {r : Except ClientError α} (h : Served plan events r) (f : α → β) :
    Served plan events (r.map f) := by
  refine ⟨h.calls, fun b hb ↦ ?_, fun e he ↦ ?_⟩
  · obtain ⟨a, ha, -⟩ := Except.map_eq_ok_iff.mp hb
    exact h.complete a ha
  · cases r with
    | ok a => cases he
    | error e' =>
      obtain rfl := Except.error.inj he
      exact h.failed e' rfl

theorem served_of_inTurn {op : Operation} {plan : List ι} {sent : List (Exchange ι)}
    {r : Except ClientError ο} (h : InTurn plan sent r) :
    Served (plan.map fun input ↦ (op, Wire.write input)) (sent.map (Exchange.event op)) r := by
  have hcalls : (sent.map (Exchange.event op)).filterMap Event.request? =
      (sent.map (·.input)).map fun input ↦ (op, Wire.write input) := by
    rw [List.filterMap_map, List.map_map, ← List.filterMap_eq_map]
    rfl
  refine ⟨?_, fun a hr ↦ ?_, fun e hr ↦ ?_⟩
  · rw [hcalls]
    exact h.inputs.map _
  · rw [hcalls, h.complete a hr]
  · obtain ⟨last, hlast, hfailed⟩ := h.stopped e hr
    obtain ⟨hrefusal, hfails⟩ :=
      failsWith_of_received hfailed last.time op (Wire.write last.input)
    refine ⟨hrefusal, _, ?_, hfails⟩
    rw [List.getLast?_map, hlast]
    rfl

/-- The call of one request. -/
theorem served_call (time : ℕ) (op : Operation) (params : Json)
    (answer : Except ServiceError Json) :
    Served [(op, params)] [.call time op params answer]
      (Client.received answer : Except ClientError ο) := by
  refine ⟨List.prefix_rfl, fun _ _ ↦ rfl, fun e h ↦ ?_⟩
  obtain ⟨hrefusal, hfails⟩ := failsWith_of_received h time op params
  exact ⟨hrefusal, _, rfl, hfails⟩

end Served

/-! ## Operations that need the metadata -/

/-- How an operation goes that needs the metadata: nothing is sent where its requests are refused.
-/
inductive Asks {σ α : Type} (env : Environment σ)
    (requests : TableDescriptor → ClientConfig → Checked (List (Operation × Json)))
    (before : Session Connection σ) :
    Except ClientError α → List Event → Session Connection σ → Prop
  | unknown {e : ClientError} {after : Session Connection σ}
      (hknows : Knows env before (.error e) after) : Asks env requests before (.error e) [] after
  | refused {t : TableDescriptor} {e : ClientError} {after : Session Connection σ}
      (hknows : Knows env before (.ok t) after)
      (hrequests : requests t before.own.config = .error e) :
      Asks env requests before (.error e) [] after
  | asked {t : TableDescriptor} {between after : Session Connection σ}
      {plan : List (Operation × Json)} {events : List Event} {r : Except ClientError α}
      (hknows : Knows env before (.ok t) between)
      (hrequests : requests t before.own.config = .ok plan) (hserved : Served plan events r)
      (hown : after.own = between.own)
      (hhistory : after.world.history = between.world.history ++ events) :
      Asks env requests before r events after

section Asks

variable {σ α β ι ο : Type} [Wire ι] [Wire ο] {env : Environment σ}
  {requests : TableDescriptor → ClientConfig → Checked (List (Operation × Json))}
  {before after : Session Connection σ}

theorem Asks.map {r : Except ClientError α} {events : List Event}
    (h : Asks env requests before r events after) (f : α → β) :
    Asks env requests before (r.map f) events after := by
  cases h with
  | unknown hknows => exact .unknown hknows
  | refused hknows hrequests => exact .refused hknows hrequests
  | asked hknows hrequests hserved hown hhistory =>
    exact .asked hknows hrequests (hserved.map f) hown hhistory

theorem known_asks (env : Environment σ) (before : Session Connection σ) :
    (known env).Ensures before fun r after ↦
      ∃ events, Asks env (fun _ _ ↦ .ok []) before r events after := by
  refine (known_knows env before).imp fun r after hknows ↦ ⟨[], ?_⟩
  cases r with
  | error e => exact .unknown hknows
  | ok t => exact .asked hknows rfl (served_nil t) rfl (List.append_nil _).symm

theorem request_asks (env : Environment σ) (op : Operation)
    (build : TableDescriptor → ClientConfig → Checked ι) (before : Session Connection σ) :
    (request env op build : Step σ ο).Ensures before fun r after ↦
      ∃ events, Asks env (fun t config ↦ oneCall op (build t config)) before r events after := by
  refine (known_knows env before).bind ?_ fun e after hknows ↦ ⟨[], .unknown hknows⟩
  intro t between hknows
  have hconfig : between.own.config = before.own.config := by rw [hknows.own_of_ok]
  rw [Client.ensures_own_bind_iff, hconfig, Client.ensures_bind_iff, Client.ensures_check_iff]
  split
  · next input hbuild =>
    rw [Client.ensures_send_iff]
    refine ⟨_, .asked hknows ?_ (served_call between.world.clock op (Wire.write input) _) rfl rfl⟩
    rw [hbuild]
    rfl
  · next e hbuild =>
    refine ⟨[], .refused hknows ?_⟩
    rw [hbuild]
    rfl

theorem Batched.asks {op : Operation} {build : TableDescriptor → ClientConfig → Checked (List ι)}
    {merge : ο → ο → ο} {nothing : ο} {sent : List (Exchange ι)} {r : Except ClientError ο}
    (h : Batched env op build merge nothing before sent r after) :
    Asks env (fun t config ↦ calls op (build t config)) before r (sent.map (Exchange.event op))
      after := by
  cases h with
  | unknown hknows => exact .unknown hknows
  | refused hknows hbuild =>
    refine .refused hknows ?_
    rw [hbuild]
    rfl
  | sent hknows hbuild hown hhistory hsends =>
    refine .asked hknows ?_ (served_of_inTurn hsends.inTurn) hown hhistory
    rw [hbuild]
    rfl

theorem pacedScan_asks {κ : Type} [CapacityUnits κ] (env : Environment σ) (o : PacedScanOptions)
    (before : Session Connection σ) :
    (pacedScan env o : Step σ (PacedScan κ)).Ensures before fun r after ↦
      ∃ events, Asks env
        (fun t config ↦ (PacedScan.start t config o : Checked (PacedScan κ)).map fun _ ↦ [])
        before r events after := by
  refine (known_knows env before).bind ?_ fun e after hknows ↦ ⟨[], .unknown hknows⟩
  intro t between hknows
  have hconfig : between.own.config = before.own.config := by rw [hknows.own_of_ok]
  rw [Client.ensures_own_bind_iff, hconfig, Client.ensures_check_iff]
  cases hstart : (PacedScan.start t before.own.config o : Checked (PacedScan κ)) with
  | error e =>
    refine ⟨[], .refused hknows ?_⟩
    rw [hstart]
    rfl
  | ok s =>
    refine ⟨[], .asked hknows ?_ (served_nil s) rfl (List.append_nil _).symm⟩
    rw [hstart]
    rfl

theorem TableAction.run_asks (κ : Type) [CapacityUnits κ] (env : Environment σ) (a : TableAction)
    (before : Session Connection σ) :
    (a.run κ env).Ensures before fun r after ↦
      ∃ events, Asks env (fun t config ↦ a.requests κ t config) before r events after := by
  have hmap {α : Type} {m : Step σ α}
      {requests : TableDescriptor → ClientConfig → Checked (List (Operation × Json))}
      (h : m.Ensures before fun r after ↦ ∃ events, Asks env requests before r events after) :
      Client.Ensures ((fun _ ↦ ()) <$> m) before fun r after ↦
        ∃ events, Asks env requests before r events after := by
    refine Client.ensures_map_iff.mpr (h.imp ?_)
    rintro r after ⟨events, hasks⟩
    exact ⟨events, hasks.map _⟩
  have hbatch {ι ο : Type} [Wire ι] [Wire ο] {op : Operation}
      (build : TableDescriptor → ClientConfig → Checked (List ι)) (merge : ο → ο → ο)
      (nothing : ο) := (batched_of_sendAll env op build merge nothing before).imp
    fun r after ⟨sent, h⟩ ↦ (⟨_, h.asks⟩ :
      ∃ events, Asks env (fun t config ↦ calls op (build t config)) before r events after)
  cases a with
  | descriptor => exact hmap (known_asks env before)
  | getItem | putItem | updateItem | deleteItem | query | scan =>
    exact hmap (request_asks env _ _ before)
  | pacedScan o => exact hmap (pacedScan_asks env o before)
  | batchGetItem keys o =>
    exact hmap (hbatch (fun t config ↦ Request.batchGet t config keys o) _ _)
  | batchWriteItem puts deletes o =>
    exact hmap (hbatch (fun t config ↦ Request.batchWrite t config puts deletes o) _ _)

end Asks

end Connection
end TableClient
