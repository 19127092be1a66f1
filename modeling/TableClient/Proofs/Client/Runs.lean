import TableClient.Proofs.Client.Operations

/-!
# Runs of a connection

A run is any number of operations, one after another, each in a world of its own: what happens
between two operations is left open. What one operation keeps to (`Disciplined`) says what it does
to the metadata that the connection knows, so these are, after any run, the latest that were brought
and not forgotten (`Latest`).
-/

namespace TableClient.Connection

/-! ## Operations that were carried out -/

/-- The metadata that an operation brought with these events: those of the description that it was
given, or those that it fetched. -/
def Action.metadata? (events : List Event) : Action → Option TableDescriptor
  | .withDescription d => (TableDescriptor.ofDescription d).toOption
  | _ => lastFetched? events

/-- An operation that was carried out: the session that it met, how it ended and the session that it
left. -/
structure Performed (σ : Type) where
  action : Action
  before : Session Connection σ
  outcome : Except ClientError Unit
  after : Session Connection σ

namespace Performed

variable {σ : Type} (p : Performed σ)

/-- What happened during the operation. -/
def events : List Event :=
  p.after.world.history.drop p.before.world.history.length

/-- The requests that were sent. -/
def calls : List (Operation × Json) :=
  p.events.filterMap Event.request?

/-- The metadata that the operation brought. -/
def metadata? : Option TableDescriptor :=
  p.action.metadata? p.events

/-- Whether the operation deleted the table. -/
def deletes : Bool :=
  match p.action, p.outcome with
  | .deleteTable, .ok _ => true
  | _, _ => false

/-- The requests that look for the metadata: the table is described if the operation needs to know
it and the connection does not, or if this is the operation. -/
def lookups : List (Operation × Json) :=
  let describe := (.describeTable, Wire.write (Request.describeTable p.before.own.tableName))
  match p.action with
  | .describeTable => [describe]
  | .onTable _ => if p.before.own.descriptor.isSome then [] else [describe]
  | _ => []

end Performed

/-- What an operation keeps to. -/
structure Disciplined (κ : Type) [CapacityUnits κ] {σ : Type} (p : Performed σ) : Prop where
  own : p.after.own = { p.before.own with
    descriptor := if p.deletes then none else p.metadata?.or p.before.own.descriptor }
  /-- The table is described first if it has to be. All else that is sent was built from the
  metadata that are known then, and what was built is sent until a call fails. -/
  calls : ∃ sent, p.calls = p.lookups ++ sent ∧ (∀ request ∈ sent, request.1 ≠ .describeTable) ∧
    (sent ≠ [] → ∃ plan, p.action.requests κ p.after.own = .ok plan ∧ sent <+: plan) ∧
    (∀ request rest, p.action.requests κ p.after.own = .ok (request :: rest) → sent ≠ []) ∧
    (p.outcome = .ok () → p.action.requests κ p.after.own = .ok sent)
  rejected : ∀ e, p.action.requests κ p.after.own = .error e → p.outcome = .error e
  refused : ∀ e, p.outcome = .error e → e.isRefusal = true → p.calls = p.lookups
  /-- An operation fails because its requests cannot be built or because of the last call. -/
  reason : ∀ e, p.outcome = .error e → p.action.requests κ p.after.own = .error e ∨
    ∃ last, p.events.getLast? = some last ∧ FailsWith last e
  /-- A failure changes nothing, unless the metadata were fetched for the operation before. -/
  failed : ∀ e, p.outcome = .error e → p.after.own = p.before.own ∨
    (∃ a, p.action = .onTable a) ∧ p.before.own.descriptor = none ∧
      ∃ t, p.metadata? = some t ∧ p.after.own = { p.before.own with descriptor := some t }

/-! ## One operation -/

section Requests

variable {κ ι : Type} [CapacityUnits κ] [Wire ι] {plan : List (Operation × Json)}

theorem fst_of_mem_calls {op : Operation} {inputs : Checked (List ι)}
    (h : Connection.calls op inputs = .ok plan) : ∀ request ∈ plan, request.1 = op := by
  obtain ⟨inputs, -, rfl⟩ := Except.map_eq_ok_iff.mp h
  intro request hrequest
  obtain ⟨input, -, rfl⟩ := List.mem_map.mp hrequest
  rfl

theorem TableAction.ne_describeTable_of_mem_requests {a : TableAction} {t : TableDescriptor}
    {config : ClientConfig} (h : a.requests κ t config = .ok plan) :
    ∀ request ∈ plan, request.1 ≠ .describeTable := by
  intro request hrequest hdescribe
  cases a with
  | descriptor =>
    obtain rfl := Except.ok.inj h
    cases hrequest
  | pacedScan =>
    obtain ⟨s, -, rfl⟩ := Except.map_eq_ok_iff.mp h
    cases hrequest
  | getItem | putItem | updateItem | deleteItem | query | scan | batchGetItem | batchWriteItem =>
    cases (fst_of_mem_calls h request hrequest).symm.trans hdescribe

theorem Action.ne_describeTable_of_mem_requests {a : Action} {c : Connection}
    (h : a.requests κ c = .ok plan) : ∀ request ∈ plan, request.1 ≠ .describeTable := by
  intro request hrequest hdescribe
  cases a with
  | withDescription =>
    obtain ⟨t, -, rfl⟩ := Except.map_eq_ok_iff.mp h
    cases hrequest
  | describeTable =>
    obtain rfl := Except.ok.inj h
    cases hrequest
  | createTable o | updateTable o =>
    cases (fst_of_mem_calls h request hrequest).symm.trans hdescribe
  | deleteTable =>
    rw [Action.requests, oneCall] at h
    cases (fst_of_mem_calls h request hrequest).symm.trans hdescribe
  | onTable a =>
    cases hknown : c.descriptor with
    | none =>
      rw [Action.requests, hknown] at h
      obtain rfl := Except.ok.inj h
      cases hrequest
    | some t =>
      rw [Action.requests, hknown] at h
      exact TableAction.ne_describeTable_of_mem_requests h request hrequest hdescribe

end Requests

section Perform

variable {κ σ : Type} [CapacityUnits κ]

theorem Action.metadata?_append (a : Action) {looked sent : List Event}
    (h : ∀ request ∈ sent.filterMap Event.request?, request.1 ≠ .describeTable) :
    a.metadata? (looked ++ sent) = a.metadata? looked := by
  cases a with
  | withDescription => rfl
  | describeTable | createTable | deleteTable | updateTable | onTable =>
    exact lastFetched?_append h

/-- How an operation ends, once it has looked for the metadata: it does not find them, or builds no
requests from them, or sends these as long as none fails. -/
inductive Ends (κ : Type) [CapacityUnits κ] (p : Performed σ) (looked : List Event) :
    List Event → Prop
  | unknown {e : ClientError} {last : Event} (hfailed : p.outcome = .error e)
      (hrequests : p.action.requests κ p.after.own = .ok [])
      (hlast : looked.getLast? = some last) (hfails : FailsWith last e) : Ends κ p looked []
  | refused {e : ClientError} (hfailed : p.outcome = .error e)
      (hrequests : p.action.requests κ p.after.own = .error e) : Ends κ p looked []
  | served {plan : List (Operation × Json)} {sent : List Event}
      (hrequests : p.action.requests κ p.after.own = .ok plan)
      (hserved : Served plan sent p.outcome) : Ends κ p looked sent

/-- An operation that first looked for the metadata and then sent its requests, as long as none
failed. -/
structure Goes (κ : Type) [CapacityUnits κ] (p : Performed σ) (looked sent : List Event) :
    Prop where
  history : p.after.world.history = p.before.world.history ++ looked ++ sent
  lookups : looked.filterMap Event.request? = p.lookups
  ends : Ends κ p looked sent
  own : p.after.own = { p.before.own with
    descriptor := if p.deletes then none
      else (p.action.metadata? looked).or p.before.own.descriptor }
  failed : ∀ e, p.outcome = .error e → ∀ t, p.action.metadata? looked = some t →
    (∃ a, p.action = .onTable a) ∧ p.before.own.descriptor = none

theorem Performed.deletes_of_error {p : Performed σ} {e : ClientError}
    (h : p.outcome = .error e) : p.deletes = false := by
  rw [deletes, h]
  split
  · next heq => cases heq
  · rfl

section Ends

variable {p : Performed σ} {looked sent : List Event}

theorem Ends.exists_plan (h : Ends κ p looked sent) (hsent : sent.filterMap Event.request? ≠ []) :
    ∃ plan, p.action.requests κ p.after.own = .ok plan ∧
      sent.filterMap Event.request? <+: plan := by
  rcases h with _ | _ | ⟨hplan, hserved⟩
  · exact absurd rfl hsent
  · exact absurd rfl hsent
  · exact ⟨_, hplan, hserved.calls⟩

theorem Ends.sent_ne_nil {request : Operation × Json} {rest : List (Operation × Json)}
    (h : Ends κ p looked sent) (hplan : p.action.requests κ p.after.own = .ok (request :: rest)) :
    sent.filterMap Event.request? ≠ [] := by
  rcases h with ⟨-, hrequests, -, -⟩ | ⟨-, hrequests⟩ | ⟨hrequests, hserved⟩
  · cases hrequests.symm.trans hplan
  · cases hrequests.symm.trans hplan
  · obtain rfl := Except.ok.inj (hrequests.symm.trans hplan)
    exact hserved.ne_nil

theorem Ends.requests_of_ok (h : Ends κ p looked sent) (hok : p.outcome = .ok ()) :
    p.action.requests κ p.after.own = .ok (sent.filterMap Event.request?) := by
  rcases h with ⟨hfailed, -, -, -⟩ | ⟨hfailed, -⟩ | ⟨hrequests, hserved⟩
  · cases hok.symm.trans hfailed
  · cases hok.symm.trans hfailed
  · rw [hserved.complete () hok]
    exact hrequests

theorem Ends.outcome_of_error {e : ClientError} (h : Ends κ p looked sent)
    (he : p.action.requests κ p.after.own = .error e) : p.outcome = .error e := by
  rcases h with ⟨-, hrequests, -, -⟩ | ⟨hfailed, hrequests⟩ | ⟨hrequests, -⟩
  · cases hrequests.symm.trans he
  · obtain rfl := Except.error.inj (hrequests.symm.trans he)
    exact hfailed
  · cases hrequests.symm.trans he

theorem Ends.sent_of_refusal {e : ClientError} (h : Ends κ p looked sent)
    (he : p.outcome = .error e) (hrefusal : e.isRefusal = true) : sent = [] := by
  rcases h with _ | _ | ⟨-, hserved⟩
  · rfl
  · rfl
  · cases hrefusal.symm.trans (hserved.failed e he).1

theorem Ends.reason {e : ClientError} (h : Ends κ p looked sent) (he : p.outcome = .error e) :
    p.action.requests κ p.after.own = .error e ∨
      ∃ last, (looked ++ sent).getLast? = some last ∧ FailsWith last e := by
  rcases h with ⟨hfailed, -, hlast, hfails⟩ | ⟨hfailed, hrequests⟩ | ⟨-, hserved⟩
  · obtain rfl := Except.error.inj (hfailed.symm.trans he)
    rw [List.append_nil]
    exact .inr ⟨_, hlast, hfails⟩
  · obtain rfl := Except.error.inj (hfailed.symm.trans he)
    exact .inl hrequests
  · obtain ⟨-, last, hlast, hfails⟩ := hserved.failed e he
    refine .inr ⟨last, ?_, hfails⟩
    rw [List.getLast?_append, hlast, Option.some_or]

end Ends

theorem Goes.disciplined {p : Performed σ} {looked sent : List Event} (h : Goes κ p looked sent) :
    Disciplined κ p := by
  have hevents : p.events = looked ++ sent := by
    rw [Performed.events, h.history, List.append_assoc, List.drop_left]
  have hcalls : p.calls = p.lookups ++ sent.filterMap Event.request? := by
    rw [Performed.calls, hevents, List.filterMap_append, h.lookups]
  have hsent : ∀ request ∈ sent.filterMap Event.request?, request.1 ≠ .describeTable := by
    rcases h.ends with _ | _ | ⟨hplan, hserved⟩
    · exact List.forall_mem_nil _
    · exact List.forall_mem_nil _
    · intro request hrequest
      exact Action.ne_describeTable_of_mem_requests hplan request (hserved.calls.subset hrequest)
  have hmetadata : p.metadata? = p.action.metadata? looked := by
    rw [Performed.metadata?, hevents, Action.metadata?_append _ hsent]
  refine ⟨?_, ⟨_, hcalls, hsent, h.ends.exists_plan, fun _ _ ↦ h.ends.sent_ne_nil,
    h.ends.requests_of_ok⟩, fun e he ↦ h.ends.outcome_of_error he, ?_, ?_, ?_⟩
  · rw [hmetadata]
    exact h.own
  · intro e he hrefusal
    rw [hcalls, h.ends.sent_of_refusal he hrefusal, List.filterMap_nil, List.append_nil]
  · intro e he
    rw [hevents]
    exact h.ends.reason he
  · intro e he
    have hown := h.own
    rw [Performed.deletes_of_error he, if_neg Bool.false_ne_true] at hown
    cases hlooked : p.action.metadata? looked with
    | none =>
      rw [hlooked, Option.none_or] at hown
      exact .inl hown
    | some t =>
      obtain ⟨haction, hunknown⟩ := h.failed e he t hlooked
      rw [hlooked, Option.some_or] at hown
      exact .inr ⟨haction, hunknown, t, hmetadata.trans hlooked, hown⟩

theorem failsWith_of_knows {env : Environment σ} {before after : Session Connection σ}
    {e : ClientError} (h : Knows env before (.error e) after) :
    ∃ last, (lookup env before).getLast? = some last ∧ FailsWith last e := by
  cases h with
  | failed hunknown hrefresh =>
    cases hrefresh with
    | failed hanswer =>
      rw [lookup, hunknown]
      exact ⟨_, rfl, .undescribed hanswer⟩

/-- An operation that needs the metadata of the table. -/
theorem goes_of_asks {a : TableAction} {env : Environment σ} {before after : Session Connection σ}
    {r : Except ClientError Unit} {sent : List Event}
    (h : Asks env (fun t config ↦ a.requests κ t config) before r sent after) :
    Goes κ ⟨.onTable a, before, r, after⟩ (lookup env before) sent := by
  have hlookups : (lookup env before).filterMap Event.request? =
      Performed.lookups ⟨.onTable a, before, r, after⟩ := by
    rw [lookup, Performed.lookups]
    cases before.own.descriptor with
    | none => rfl
    | some t => rfl
  have hunknown {t : TableDescriptor} (ht : lastFetched? (lookup env before) = some t) :
      before.own.descriptor = none := by
    rw [lookup] at ht
    cases hknown : before.own.descriptor with
    | none => rfl
    | some t' =>
      rw [hknown] at ht
      cases ht
  have hknown {t : TableDescriptor} {between : Session Connection σ}
      (hknows : Knows env before (.ok t) between) : between.own = { before.own with
        descriptor := (lastFetched? (lookup env before)).or before.own.descriptor } := by
    rw [hknows.fetched_of_ok, hknows.own_of_ok]
  cases h with
  | unknown hknows =>
    obtain ⟨hnone, hown⟩ := hknows.own_of_error
    obtain ⟨last, hlast, hfails⟩ := failsWith_of_knows hknows
    refine ⟨?_, hlookups, .unknown rfl ?_ hlast hfails, ?_,
      fun e he t ht ↦ ⟨⟨a, rfl⟩, hunknown ht⟩⟩
    · exact hknows.history.trans (List.append_nil _).symm
    · dsimp only
      rw [Action.requests, hown, hnone, Option.elim_none]
    · have hfetched : (Action.onTable a).metadata? (lookup env before) = none :=
        hknows.fetched_of_error
      rw [hfetched]
      exact hown
  | refused hknows hrequests =>
    refine ⟨?_, hlookups, .refused rfl ?_, hknown hknows,
      fun e he t ht ↦ ⟨⟨a, rfl⟩, hunknown ht⟩⟩
    · exact hknows.history.trans (List.append_nil _).symm
    · dsimp only
      rw [Action.requests, hknows.own_of_ok]
      exact hrequests
  | asked hknows hrequests hserved hown hhistory =>
    refine ⟨?_, hlookups, .served ?_ hserved, hown.trans (hknown hknows),
      fun e he t ht ↦ ⟨⟨a, rfl⟩, hunknown ht⟩⟩
    · exact hhistory.trans (by rw [hknows.history])
    · dsimp only
      rw [Action.requests, hown, hknows.own_of_ok]
      exact hrequests

/-- The call of a request, if it is built. -/
theorem send_served {ι ο α : Type} [Wire ι] [Wire ο] (env : Environment σ) (op : Operation)
    (build : Checked ι) (f : ο → α) (before : Session Connection σ) :
    Client.Ensures (do
        let input ← Client.check build
        let output ← Client.send env op input
        return f output) before fun r after ↦ ∃ sent,
      after.own = before.own ∧ after.world.history = before.world.history ++ sent ∧
      ((sent = [] ∧ ∃ e, oneCall op build = .error e ∧ r = .error e) ∨
        ∃ plan, oneCall op build = .ok plan ∧ Served plan sent r) := by
  rw [Client.ensures_bind_iff, Client.ensures_check_iff]
  cases hbuild : build with
  | error e => exact ⟨[], rfl, (List.append_nil _).symm, .inl ⟨rfl, e, rfl, rfl⟩⟩
  | ok input =>
    have hmap : (do
        let output ← Client.send env op input
        return f output : Step σ α) = f <$> Client.send env op input := rfl
    dsimp only
    rw [hmap, Client.ensures_map_iff, Client.ensures_send_iff]
    exact ⟨_, rfl, rfl, .inr ⟨_, rfl, (served_call _ op _ _).map f⟩⟩

/-- An operation that sends one request and leaves the metadata as they are known. -/
theorem goes_of_served {α : Type} {a : Action} {before after : Session Connection σ}
    {r : Except ClientError α} {sent : List Event} {plan : Checked (List (Operation × Json))}
    (hlookups : (Performed.mk a before (r.map fun _ ↦ ()) after).lookups = [])
    (hdeletes : (Performed.mk a before (r.map fun _ ↦ ()) after).deletes = false)
    (hmetadata : a.metadata? [] = none) (hplan : a.requests κ before.own = plan)
    (hown : after.own = before.own)
    (hhistory : after.world.history = before.world.history ++ sent)
    (h : (sent = [] ∧ ∃ e, plan = .error e ∧ r = .error e) ∨
      ∃ requests, plan = .ok requests ∧ Served requests sent r) :
    Goes κ ⟨a, before, r.map fun _ ↦ (), after⟩ [] sent := by
  refine ⟨?_, hlookups.symm, ?_, ?_, ?_⟩
  · rw [List.append_nil]
    exact hhistory
  · obtain ⟨rfl, e, he, rfl⟩ | ⟨requests, hrequests, hserved⟩ := h
    · refine .refused rfl ?_
      rw [hown, hplan, he]
    · refine .served ?_ (hserved.map _)
      rw [hown, hplan, hrequests]
  · rw [hdeletes, hmetadata]
    exact hown
  · intro e he t ht
    cases hmetadata.symm.trans ht

theorem goes_withDescription (env : Environment σ) (d : TableDescription)
    (before : Session Connection σ) :
    ((Action.withDescription d).run κ env).Ensures before fun r after ↦
      Goes κ ⟨.withDescription d, before, r, after⟩ [] [] := by
  rw [Action.run, Client.ensures_own_bind_iff, Client.ensures_bind_iff, Client.ensures_check_iff,
    withDescription]
  cases hdescription : TableDescriptor.ofDescription d with
  | error e =>
    have hnone : (Action.withDescription d).metadata? [] = none := by
      rw [Action.metadata?, hdescription]
      rfl
    have herror : (.error e : Except ClientError Unit) =
        (Except.error e).map fun _ : Unit ↦ () := rfl
    have hrefused : (Action.withDescription d).requests κ before.own = .error e := by
      rw [Action.requests, hdescription]
      rfl
    dsimp only [bind, Except.bind]
    rw [herror]
    exact goes_of_served rfl rfl hnone hrefused rfl (List.append_nil _).symm
      (.inl ⟨rfl, e, rfl, rfl⟩)
  | ok t =>
    have hsome : (Action.withDescription d).metadata? [] = some t := by
      rw [Action.metadata?, hdescription]
      rfl
    refine ⟨?_, rfl, .served ?_ (served_nil ()), ?_, fun e he ↦ ?_⟩
    · exact (List.append_nil _).symm.trans (List.append_nil _).symm
    · rw [Action.requests, hdescription]
      rfl
    · rw [hsome]
      rfl
    · cases he

theorem goes_describeTable (env : Environment σ) (before : Session Connection σ) :
    (Action.describeTable.run κ env).Ensures before fun r after ↦ ∃ looked,
      Goes κ ⟨.describeTable, before, r, after⟩ looked [] := by
  rw [Action.run, Client.ensures_map_iff, describeTable, Client.ensures_bind_iff]
  refine (refresh_refreshes env before).imp fun r after hrefresh ↦ ?_
  cases hrefresh with
  | failed hanswer =>
    have hnone : Action.describeTable.metadata? [describeCall env before] = none :=
      lastFetched?_of_error hanswer
    refine ⟨[describeCall env before], (List.append_nil _).symm, rfl,
      .unknown rfl rfl rfl (.undescribed hanswer), ?_, fun e he t ht ↦ ?_⟩
    · rw [hnone]
      rfl
    · cases hnone.symm.trans ht
  | kept hanswer =>
    have hsome : Action.describeTable.metadata? [describeCall env before] = some _ :=
      lastFetched?_of_ok hanswer
    refine ⟨[describeCall env before], (List.append_nil _).symm, rfl,
      .served rfl (served_nil ()), ?_, fun e he ↦ ?_⟩
    · rw [hsome]
      rfl
    · cases he

theorem goes_deleteTable (env : Environment σ) (before : Session Connection σ) :
    (Action.deleteTable.run κ env).Ensures before fun r after ↦ ∃ sent,
      Goes κ ⟨.deleteTable, before, r, after⟩ [] sent := by
  rw [Action.run, Client.ensures_map_iff, deleteTable, Client.ensures_own_bind_iff,
    Client.ensures_bind_iff, Client.ensures_send_iff]
  have hserved : Served [(.deleteTable, Wire.write (Request.deleteTable before.own.tableName))]
      [.call before.world.clock .deleteTable (Wire.write (Request.deleteTable before.own.tableName))
        (before.world.call env .deleteTable
          (Wire.write (Request.deleteTable before.own.tableName))).1]
      (Client.received (before.world.call env .deleteTable
        (Wire.write (Request.deleteTable before.own.tableName))).1 :
          Except ClientError DeleteTableOutput) := served_call _ _ _ _
  split
  · next output hreceived =>
    rw [hreceived] at hserved
    rw [Client.ensures_update_bind_iff, Client.ensures_pure_iff]
    refine ⟨_, ?_, rfl, .served rfl (hserved.map fun _ ↦ ()), rfl, fun e he ↦ ?_⟩
    · rw [List.append_nil]
      rfl
    · cases he
  · next e hfailed =>
    rw [hfailed] at hserved
    exact ⟨_, goes_of_served (r := .error e) rfl rfl rfl rfl rfl rfl
      (.inr ⟨_, rfl, hserved.map (·.tableDescription)⟩)⟩

theorem run_disciplined (κ : Type) [CapacityUnits κ] (env : Environment σ) (a : Action)
    (before : Session Connection σ) :
    (a.run κ env).Ensures before fun r after ↦ Disciplined κ ⟨a, before, r, after⟩ := by
  cases a with
  | withDescription d =>
    exact (goes_withDescription env d before).imp fun r after h ↦ h.disciplined
  | describeTable =>
    exact (goes_describeTable env before).imp fun r after ⟨looked, h⟩ ↦ h.disciplined
  | createTable o =>
    rw [Action.run, Client.ensures_map_iff, createTable, Client.ensures_own_bind_iff]
    refine (send_served env .createTable _ _ before).imp ?_
    rintro r after ⟨sent, hown, hhistory, h⟩
    exact (goes_of_served (a := .createTable o) rfl rfl rfl rfl hown hhistory h).disciplined
  | updateTable o =>
    rw [Action.run, Client.ensures_map_iff, updateTable, Client.ensures_own_bind_iff]
    refine (send_served env .updateTable _ _ before).imp ?_
    rintro r after ⟨sent, hown, hhistory, h⟩
    exact (goes_of_served (a := .updateTable o) rfl rfl rfl rfl hown hhistory h).disciplined
  | deleteTable =>
    exact (goes_deleteTable env before).imp fun r after ⟨sent, h⟩ ↦ h.disciplined
  | onTable a =>
    refine (a.run_asks κ env before).imp ?_
    rintro r after ⟨sent, hasks⟩
    exact (goes_of_asks hasks).disciplined

/-- An operation that is carried out from a session. -/
def perform (κ : Type) [CapacityUnits κ] (env : Environment σ) (a : Action)
    (s : Session Connection σ) : Performed σ :=
  let ends := (a.run κ env).outcomeIn s
  ⟨a, s, ends.1, ends.2⟩

/-- Operations that are carried out one after another, each in a world of its own. -/
def performAll (κ : Type) [CapacityUnits κ] (env : Environment σ) :
    Connection → List (Action × World σ) → List (Performed σ)
  | _, [] => []
  | c, (a, world) :: steps =>
    let p := perform κ env a ⟨c, world⟩
    p :: performAll κ env p.after.own steps

theorem disciplined_perform (κ : Type) [CapacityUnits κ] (env : Environment σ) (a : Action)
    (s : Session Connection σ) : Disciplined κ (perform κ env a s) :=
  run_disciplined κ env a s

end Perform

/-! ## Runs -/

section Latest

variable {κ σ : Type} [CapacityUnits κ] {past : List (Performed σ)} {p : Performed σ}
  {t : TableDescriptor}

/-- These metadata were brought by some operation, and no later one has brought others or deleted
the table. -/
def Latest (past : List (Performed σ)) (t : TableDescriptor) : Prop :=
  ∃ earlier p later, past = earlier ++ p :: later ∧ p.metadata? = some t ∧
    ∀ q ∈ later, q.metadata? = none ∧ q.deletes = false

theorem not_latest_nil : ¬Latest ([] : List (Performed σ)) t := by
  rintro ⟨earlier, p, later, hpast, -⟩
  cases earlier with
  | nil => cases hpast
  | cons => cases hpast

theorem latest_concat_iff : Latest (past ++ [p]) t ↔
    p.metadata? = some t ∨ p.metadata? = none ∧ p.deletes = false ∧ Latest past t := by
  constructor
  · rintro ⟨earlier, q, later, hpast, hq, hlater⟩
    rcases List.eq_nil_or_concat' later with rfl | ⟨later, p', rfl⟩
    · obtain ⟨-, hlast⟩ := List.append_inj' hpast rfl
      obtain rfl := List.singleton_inj.mp hlast
      exact .inl hq
    · rw [← List.cons_append, ← List.append_assoc] at hpast
      obtain ⟨rfl, hlast⟩ := List.append_inj' hpast rfl
      obtain rfl := List.singleton_inj.mp hlast
      obtain ⟨hlater, hp⟩ := List.forall_mem_append.mp hlater
      obtain ⟨hnone, hdeletes⟩ := List.forall_mem_singleton.mp hp
      exact .inr ⟨hnone, hdeletes, earlier, q, later, rfl, hq, hlater⟩
  · rintro (hp | ⟨hnone, hdeletes, earlier, q, later, rfl, hq, hlater⟩)
    · exact ⟨past, p, [], rfl, hp, List.forall_mem_nil _⟩
    · refine ⟨earlier, q, later ++ [p], ?_, hq, ?_⟩
      · rw [List.append_assoc, List.cons_append]
      · exact List.forall_mem_append.mpr ⟨hlater, List.forall_mem_singleton.mpr ⟨hnone, hdeletes⟩⟩

/-- An operation that deletes the table brings no metadata. -/
theorem Disciplined.metadata?_of_deletes (h : Disciplined κ p) (hdeletes : p.deletes = true) :
    p.metadata? = none := by
  have haction : p.action = .deleteTable := by
    rw [Performed.deletes] at hdeletes
    split at hdeletes
    · next haction _ => exact haction
    · cases hdeletes
  obtain ⟨sent, hcalls, hsent, -⟩ := h.calls
  have hlookups : p.lookups = [] := by rw [Performed.lookups, haction]
  rw [hlookups, List.nil_append] at hcalls
  have hfetched : p.metadata? = lastFetched? ([] ++ p.events) := by
    rw [Performed.metadata?, haction]
    rfl
  rw [hfetched]
  refine lastFetched?_append ?_
  rw [← Performed.calls, hcalls]
  exact hsent

/-- What one operation preserves: the metadata that are known are the latest. -/
theorem Disciplined.latest (h : Disciplined κ p)
    (hpast : ∀ t, p.before.own.descriptor = some t ↔ Latest past t) (t : TableDescriptor) :
    p.after.own.descriptor = some t ↔ Latest (past ++ [p]) t := by
  rw [latest_concat_iff, h.own]
  by_cases hdeletes : p.deletes = true
  · simp [hdeletes, h.metadata?_of_deletes hdeletes]
  · cases hmetadata : p.metadata? with
    | none => simp [hdeletes, hpast]
    | some t' => simp [hdeletes]

/-- What a run preserves. -/
theorem disciplined_performAll {env : Environment σ} {c : Connection}
    (hpast : ∀ t, c.descriptor = some t ↔ Latest past t) (steps : List (Action × World σ))
    {earlier later : List (Performed σ)}
    (hrun : performAll κ env c steps = earlier ++ p :: later) :
    Disciplined κ p ∧ ∀ t, p.before.own.descriptor = some t ↔ Latest (past ++ earlier) t := by
  induction steps generalizing past c earlier with
  | nil =>
    rw [performAll] at hrun
    exact absurd hrun.symm (by simp)
  | cons step steps ih =>
    obtain ⟨a, world⟩ := step
    rw [performAll] at hrun
    have hfirst := disciplined_perform κ env a ⟨c, world⟩
    cases earlier with
    | nil =>
      obtain ⟨rfl, -⟩ := List.cons.inj hrun
      rw [List.append_nil]
      exact ⟨hfirst, hpast⟩
    | cons first earlier =>
      obtain ⟨rfl, hrest⟩ := List.cons.inj hrun
      have hnext := ih (hfirst.latest hpast) hrest
      rwa [List.append_assoc, List.singleton_append] at hnext

end Latest

end TableClient.Connection

namespace TableClient

/-- **What a connection knows, and what it sends.** In any run of a new connection, the metadata
that it knows before and after each operation are the latest that were brought and not forgotten.
Each operation describes the table first exactly if it has to and sends what is built from the
metadata; nothing else is sent if that is refused. It fails only because its requests cannot be
built or because of its last call, and then it changes nothing else. -/
theorem connection_knows_latest_metadata {σ : Type} (κ : Type) [CapacityUnits κ]
    (env : Environment σ) (tableName : String) (config : ClientConfig)
    (steps : List (Connection.Action × World σ)) (earlier : List (Connection.Performed σ))
    (p : Connection.Performed σ) (later : List (Connection.Performed σ))
    (hrun : Connection.performAll κ env { tableName, config } steps = earlier ++ p :: later) :
    (∀ t, p.before.own.descriptor = some t ↔ Connection.Latest earlier t) ∧
    (∀ t, p.after.own.descriptor = some t ↔ Connection.Latest (earlier ++ [p]) t) ∧
    Connection.Disciplined κ p := by
  have hnew (t : TableDescriptor) : ({ tableName, config } : Connection).descriptor = some t ↔
      Connection.Latest ([] : List (Connection.Performed σ)) t := by
    constructor
    · intro h
      cases h
    · intro h
      exact absurd h Connection.not_latest_nil
  obtain ⟨hdisciplined, hbefore⟩ := Connection.disciplined_performAll hnew steps hrun
  rw [List.nil_append] at hbefore
  exact ⟨hbefore, hdisciplined.latest hbefore, hdisciplined⟩

/-! ## A table that is deleted and made again -/

/-- A service with a table of things but without any thing. -/
private def emptyStore : Environment Unit where
  reply op _ _ := (⟨0, match op with
    | .describeTable => .ok (.object [("Table", .object [
        ("KeySchema", .array [.object [("AttributeName", .string "id"),
          ("KeyType", .string "HASH")]]),
        ("TableName", .string "things")])])
    | .deleteTable => .ok (.object [])
    | _ => .error (.ofCode .resourceNotFound "")⟩, ())
  oversleep _ _ := (0, ())

private def lookForThing : Connection.Action :=
  .onTable (.getItem (.string "a") none {})

private def lookAroundDeletion : List (Connection.Action × World Unit) :=
  [(lookForThing, { service := () }), (.deleteTable, { service := () }),
    (lookForThing, { service := () })]

/-- A read fails after the table was described for it; once the table is deleted, the next read
describes it again. -/
theorem things_described_again_after_deletion :
    ∃ first deletion last,
      Connection.performAll Float emptyStore { tableName := "things" } lookAroundDeletion =
        [first, deletion, last] ∧
      Connection.Latest [first] ⟨"things", ⟨"id", none⟩, [], []⟩ ∧
      last.before.own.descriptor = none ∧
      Connection.Latest [first, deletion, last] ⟨"things", ⟨"id", none⟩, [], []⟩ ∧
      (∃ e, last.outcome = .error e) ∧
      last.calls.map Prod.fst = [.describeTable, .getItem] := by
  refine ⟨_, _, _, rfl, ?_, rfl, ?_, ⟨_, rfl⟩, rfl⟩
  · obtain ⟨-, hafter, -⟩ := connection_knows_latest_metadata Float emptyStore "things" {}
      lookAroundDeletion [] _ _ rfl
    exact (hafter _).mp rfl
  · obtain ⟨-, hafter, -⟩ := connection_knows_latest_metadata Float emptyStore "things" {}
      lookAroundDeletion [_, _] _ _ rfl
    exact (hafter _).mp rfl

end TableClient
