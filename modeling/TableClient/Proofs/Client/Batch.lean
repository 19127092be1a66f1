import Mathlib
import TableClient.Proofs.Client.Metadata
import TableClient.Proofs.Payload.Merge
import TableClient.Proofs.Request.Batch

/-!
# Batches of a connection

The requests of a batch are sent in turn, and the first failure ends it (`InTurn`). If none fails,
the answers are merged, so what is known of each answer adds up to what is known of the merged one:
if each answer accounts for the elements that were sent with its request, then the merged answer
accounts for all elements of the batch.
-/

namespace TableClient

/-! ## Requests in turn -/

/-- A request that was sent: when, what it asked for and what came back. -/
structure Exchange (ι : Type) where
  time : ℕ
  input : ι
  answer : Except ServiceError Json

section Exchange

variable {ι ο : Type} [Wire ο]

/-- The call of a request. -/
def Exchange.event [Wire ι] (op : Operation) (x : Exchange ι) : Event :=
  .call x.time op (Wire.write x.input) x.answer

/-- The answer to a request was this. -/
def Exchange.Gave (x : Exchange ι) (output : ο) : Prop :=
  Client.received x.answer = .ok output

/-- How requests are sent in turn, the answers merged into what was there before: each answer is
taken before the next request is sent, and a failure ends it. -/
inductive Sends (merge : ο → ο → ο) :
    ο → List ι → List (Exchange ι) → Except ClientError ο → Prop
  | done {merged : ο} : Sends merge merged [] [] (.ok merged)
  | next {merged output : ο} {x : Exchange ι} {inputs : List ι} {sent : List (Exchange ι)}
      {r : Except ClientError ο} (hgave : x.Gave output)
      (hrest : Sends merge (merge merged output) inputs sent r) :
      Sends merge merged (x.input :: inputs) (x :: sent) r
  | failed {merged : ο} {x : Exchange ι} {inputs : List ι} {e : ClientError}
      (hfailed : (Client.received x.answer : Except ClientError ο) = .error e) :
      Sends merge merged (x.input :: inputs) [x] (.error e)

/-- What was sent of a plan, and how it ended: requests are sent in their order, none after one that
failed, and all of them if none did. -/
structure InTurn (plan : List ι) (sent : List (Exchange ι)) (r : Except ClientError ο) : Prop where
  inputs : sent.map (·.input) <+: plan
  answered : ∀ x ∈ sent.dropLast, ∃ output : ο, x.Gave output
  complete : ∀ merged, r = .ok merged → sent.map (·.input) = plan
  stopped : ∀ e, r = .error e → ∃ last, sent.getLast? = some last ∧
    (Client.received last.answer : Except ClientError ο) = .error e

namespace Sends

variable {merge : ο → ο → ο} {merged : ο} {plan : List ι} {sent : List (Exchange ι)}
  {r : Except ClientError ο}

theorem inTurn (h : Sends merge merged plan sent r) : InTurn plan sent r := by
  induction h with
  | done =>
    refine ⟨List.prefix_rfl, List.forall_mem_nil _, fun _ _ ↦ rfl, ?_⟩
    intro e hr
    cases hr
  | @next merged output x inputs sent r hgave hrest ih =>
    refine ⟨List.prefix_cons_inj x.input |>.mpr ih.inputs, ?_, ?_, ?_⟩
    · by_cases hsent : sent = []
      · rw [hsent]
        exact List.forall_mem_nil _
      · rw [List.dropLast_cons_of_ne_nil hsent]
        exact List.forall_mem_cons.mpr ⟨⟨output, hgave⟩, ih.answered⟩
    · intro merged hr
      rw [List.map_cons, ih.complete merged hr]
    · intro e hr
      obtain ⟨last, hlast, hfailed⟩ := ih.stopped e hr
      refine ⟨last, ?_, hfailed⟩
      rw [List.getLast?_cons, hlast]
      rfl
  | @failed merged x inputs e hfailed =>
    refine ⟨List.prefix_append [x.input] inputs, List.forall_mem_nil _, ?_, ?_⟩
    · intro merged hr
      cases hr
    · intro e' hr
      obtain rfl := Except.error.inj hr
      exact ⟨x, rfl, hfailed⟩

theorem outputs_of_ok {result : ο} (h : Sends merge merged plan sent r) (hr : r = .ok result) :
    ∃ outputs, List.Forall₂ Exchange.Gave sent outputs ∧ result = outputs.foldl merge merged := by
  induction h with
  | done =>
    obtain rfl := Except.ok.inj hr
    exact ⟨[], .nil, rfl⟩
  | @next merged output x inputs sent r hgave hrest ih =>
    obtain ⟨outputs, hgaves, hresult⟩ := ih hr
    exact ⟨output :: outputs, .cons hgave hgaves, hresult⟩
  | failed => cases hr

end Sends

/-- What each answer satisfies to its request. -/
theorem forall₂_of_gave {R : Exchange ι → ο → Prop} {sent : List (Exchange ι)} {outputs : List ο}
    (hgave : List.Forall₂ Exchange.Gave sent outputs)
    (h : ∀ x ∈ sent, ∀ output : ο, x.Gave output → R x output) :
    List.Forall₂ R sent outputs := by
  refine ((List.forall₂_and_left sent outputs).mpr ⟨h, hgave⟩).imp ?_
  rintro x output ⟨himp, hgave⟩
  exact himp output hgave

end Exchange

/-! ## Elements that are accounted for -/

section Accounts

variable {ι ο ε α : Type} {sent : List ι} {outputs : List ο}

/-- If each answer leaves what was not settled of its request, then all answers leave what was not
settled of all requests. -/
theorem perm_of_forall₂ {settled carried : ι → List ε} {left : ο → List ε}
    (h : List.Forall₂ (fun x output ↦ (settled x ++ left output).Perm (carried x)) sent outputs) :
    (sent.flatMap settled ++ outputs.flatMap left).Perm (sent.flatMap carried) := by
  induction h with
  | nil => exact .refl _
  | @cons x output sent outputs hperm _ ih =>
    simp only [List.flatMap_cons]
    calc (settled x ++ sent.flatMap settled ++ (left output ++ outputs.flatMap left)).Perm
          (settled x ++ left output ++ (sent.flatMap settled ++ outputs.flatMap left)) := by
            simp only [List.append_assoc]
            exact (List.perm_append_comm_assoc _ _ _).append_left _
      _ |>.Perm (carried x ++ sent.flatMap carried) := hperm.append ih

theorem forall₂_flatMap {R : α → ε → Prop} {given : ο → List α} {settled : ι → List ε}
    (h : List.Forall₂ (fun x output ↦ List.Forall₂ R (given output) (settled x)) sent outputs) :
    List.Forall₂ R (outputs.flatMap given) (sent.flatMap settled) := by
  induction h with
  | nil => exact .nil
  | cons hgiven _ ih =>
    rw [List.flatMap_cons, List.flatMap_cons]
    exact List.rel_append hgiven ih

/-- The elements that were sent, if there is a request for each part of them. -/
theorem flatMap_carried (carried : ι → List ε) {request : List ε → ι} {sent : List (Exchange ι)}
    {parts : List (List ε)} (hsent : sent.map (·.input) = parts.map request)
    (hcarried : ∀ part, carried (request part) = part) :
    sent.flatMap (fun x ↦ carried x.input) = parts.flatten := by
  have hid : carried ∘ request = id := funext hcarried
  calc sent.flatMap (fun x ↦ carried x.input)
      = ((sent.map (·.input)).map carried).flatten := by
        rw [List.map_map]
        rfl
    _ = (parts.map (carried ∘ request)).flatten := by rw [hsent, List.map_map]
    _ = parts.flatten := by rw [hid, List.map_id]

end Accounts

/-! ## Batches -/

namespace Connection

variable {ι ο σ : Type} [Wire ι] [Wire ο]

theorem sendAll_sends (env : Environment σ) (op : Operation) (merge : ο → ο → ο) (merged : ο)
    (plan : List ι) (before : Session Connection σ) :
    (sendAll env op merge merged plan).Ensures before fun r after ↦ ∃ sent,
      after.own = before.own ∧
      after.world.history = before.world.history ++ sent.map (Exchange.event op) ∧
      Sends merge merged plan sent r := by
  induction plan generalizing merged before with
  | nil => exact ⟨[], rfl, (List.append_nil _).symm, .done⟩
  | cons input inputs ih =>
    have hcons : sendAll env op merge merged (input :: inputs) = (do
        let output : ο ← Client.send env op input
        sendAll env op merge (merge merged output) inputs) := by
      simp only [sendAll, List.foldlM_cons, bind_assoc, pure_bind]
    rw [hcons, Client.ensures_bind_iff, Client.ensures_send_iff]
    let x : Exchange ι :=
      ⟨before.world.clock, input, (before.world.call env op (Wire.write input)).1⟩
    split
    · next output hgave =>
      refine (ih _ _).imp ?_
      rintro r after ⟨sent, hown, hhistory, hsends⟩
      have hcalled : (before.world.call env op (Wire.write input)).2.history =
          before.world.history ++ [x.event op] := rfl
      refine ⟨x :: sent, hown, ?_, .next (x := x) hgave hsends⟩
      rw [hhistory, hcalled, List.append_assoc, List.singleton_append, List.map_cons]
    · next e hfailed => exact ⟨[x], rfl, rfl, .failed (x := x) hfailed⟩

/-- How a batch goes: without metadata and after a refusal nothing is sent. -/
inductive Batched (env : Environment σ) (op : Operation)
    (build : TableDescriptor → ClientConfig → Checked (List ι)) (merge : ο → ο → ο) (nothing : ο)
    (before : Session Connection σ) :
    List (Exchange ι) → Except ClientError ο → Session Connection σ → Prop
  | unknown {e : ClientError} {after : Session Connection σ}
      (hknows : Knows env before (.error e) after) :
      Batched env op build merge nothing before [] (.error e) after
  | refused {t : TableDescriptor} {e : ClientError} {after : Session Connection σ}
      (hknows : Knows env before (.ok t) after) (hbuild : build t before.own.config = .error e) :
      Batched env op build merge nothing before [] (.error e) after
  | sent {t : TableDescriptor} {between after : Session Connection σ} {plan : List ι}
      {sent : List (Exchange ι)} {r : Except ClientError ο}
      (hknows : Knows env before (.ok t) between) (hbuild : build t before.own.config = .ok plan)
      (hown : after.own = between.own)
      (hhistory : after.world.history = between.world.history ++ sent.map (Exchange.event op))
      (hsends : Sends merge nothing plan sent r) :
      Batched env op build merge nothing before sent r after

section Batched

variable {env : Environment σ} {op : Operation}
  {build : TableDescriptor → ClientConfig → Checked (List ι)} {merge : ο → ο → ο} {nothing : ο}
  {before after : Session Connection σ} {sent : List (Exchange ι)} {r : Except ClientError ο}

theorem batched_of_sendAll (env : Environment σ) (op : Operation)
    (build : TableDescriptor → ClientConfig → Checked (List ι)) (merge : ο → ο → ο) (nothing : ο)
    (before : Session Connection σ) :
    Client.Ensures (do
        let table ← known env
        let inputs ← Client.check (build table (← Client.own).config)
        sendAll env op merge nothing inputs) before fun r after ↦
      ∃ sent, Batched env op build merge nothing before sent r after := by
  refine (known_knows env before).bind ?_ fun e after hknows ↦ ⟨[], .unknown hknows⟩
  intro t between hknows
  rw [Client.ensures_own_bind_iff, Client.ensures_bind_iff, Client.ensures_check_iff]
  have hconfig : between.own.config = before.own.config := by rw [hknows.own_of_ok]
  rw [hconfig]
  split
  · next plan hbuild =>
    refine (sendAll_sends env op merge nothing plan between).imp ?_
    rintro r after ⟨sent, hown, hhistory, hsends⟩
    exact ⟨sent, .sent hknows hbuild hown hhistory hsends⟩
  · next e hbuild => exact ⟨[], .refused hknows hbuild⟩

theorem Batched.history (h : Batched env op build merge nothing before sent r after) :
    after.world.history =
      before.world.history ++ lookup env before ++ sent.map (Exchange.event op) := by
  cases h with
  | unknown hknows | refused hknows hbuild =>
    rw [hknows.history, List.map_nil, List.append_nil]
  | sent hknows hbuild hown hhistory hsends => rw [hhistory, hknows.history]

theorem Batched.own (h : Batched env op build merge nothing before sent r after) :
    after.own = { before.own with descriptor := (metadata env before).toOption } := by
  cases h with
  | unknown hknows | refused hknows hbuild => rw [← hknows.eq_metadata, hknows.own]
  | sent hknows hbuild hown hhistory hsends => rw [← hknows.eq_metadata, hown, hknows.own]

theorem Batched.exists_plan (h : Batched env op build merge nothing before sent r after)
    (hsent : sent ≠ []) :
    ∃ t plan, metadata env before = .ok t ∧ build t before.own.config = .ok plan := by
  cases h with
  | unknown | refused => exact absurd rfl hsent
  | sent hknows hbuild hown hhistory hsends => exact ⟨_, _, hknows.eq_metadata.symm, hbuild⟩

/-- A batch whose requests are built sends them. -/
theorem Batched.sends (h : Batched env op build merge nothing before sent r after)
    {t : TableDescriptor} {plan : List ι} (ht : metadata env before = .ok t)
    (hplan : build t before.own.config = .ok plan) : Sends merge nothing plan sent r := by
  cases h with
  | unknown hknows => cases hknows.eq_metadata.trans ht
  | refused hknows hbuild =>
    obtain rfl := Except.ok.inj (hknows.eq_metadata.trans ht)
    cases hbuild.symm.trans hplan
  | sent hknows hbuild hown hhistory hsends =>
    obtain rfl := Except.ok.inj (hknows.eq_metadata.trans ht)
    obtain rfl := Except.ok.inj (hbuild.symm.trans hplan)
    exact hsends

/-- A batch whose requests are not built fails like their building. -/
theorem Batched.of_error (h : Batched env op build merge nothing before sent r after)
    {e : ClientError}
    (he : (metadata env before >>= fun t ↦ build t before.own.config) = .error e) :
    sent = [] ∧ r = .error e := by
  cases h with
  | unknown hknows =>
    rw [← hknows.eq_metadata] at he
    obtain rfl := Except.error.inj he
    exact ⟨rfl, rfl⟩
  | refused hknows hbuild =>
    rw [← hknows.eq_metadata] at he
    obtain rfl := Except.error.inj (hbuild.symm.trans he)
    exact ⟨rfl, rfl⟩
  | sent hknows hbuild hown hhistory hsends =>
    rw [← hknows.eq_metadata] at he
    cases hbuild.symm.trans he

end Batched

end Connection

/-! ## What a batch conserves -/

namespace Connection

variable {σ : Type}

/-- How a batch goes: its requests are built from the metadata that are found, and sent behind the
call that describes the table, if there is one. Nothing is sent where the metadata are not found or
the requests are not built, so nothing for a batch that is empty or has an element without the key
of the table. -/
structure RunsBatch {ι ο : Type} [Wire ι] (env : Environment σ) (op : Operation)
    (elements : List Item) (build : TableDescriptor → Checked (List ι))
    (before after : Session Connection σ) (sent : List (Exchange ι)) (r : Except ClientError ο) :
    Prop where
  history : after.world.history =
    before.world.history ++ lookup env before ++ sent.map (Exchange.event op)
  own : after.own = { before.own with descriptor := (metadata env before).toOption }
  refused : ∀ e, (metadata env before >>= build) = .error e → sent = [] ∧ r = .error e
  checked : sent ≠ [] → elements ≠ [] ∧ ∃ table, metadata env before = .ok table ∧
    ∀ element ∈ elements, table.checkItemKeys element = .ok ()

theorem Batched.runs {ι ο : Type} [Wire ι] [Wire ο] {env : Environment σ} {op : Operation}
    {build : TableDescriptor → ClientConfig → Checked (List ι)} {merge : ο → ο → ο} {nothing : ο}
    {before after : Session Connection σ} {sent : List (Exchange ι)} {r : Except ClientError ο}
    {elements : List Item} (h : Batched env op build merge nothing before sent r after)
    (hchecked : ∀ table plan, build table before.own.config = .ok plan →
      elements ≠ [] ∧ ∀ element ∈ elements, table.checkItemKeys element = .ok ()) :
    RunsBatch env op elements (fun table ↦ build table before.own.config) before after sent r := by
  refine ⟨h.history, h.own, fun e he ↦ h.of_error he, fun hsent ↦ ?_⟩
  obtain ⟨table, plan, ht, hplan⟩ := h.exists_plan hsent
  obtain ⟨hnonempty, hkeys⟩ := hchecked table plan hplan
  exact ⟨hnonempty, table, ht, hkeys⟩

/-- What is sent of a batch of writes whose requests are built, and what is returned. -/
structure ConservesWrites (table : TableDescriptor) (config : ClientConfig) (puts : List Item)
    (deletes : List Key) (o : BatchWriteOptions) (plan : List BatchWriteItemInput)
    (sent : List (Exchange BatchWriteItemInput)) (r : Except ClientError BatchWriteItemOutput) :
    Prop where
  parts : ∃ parts, IsCut 25 (puts.map .put ++ deletes.map .delete) parts ∧
    plan = parts.map (Request.writesRequest table config o)
  inTurn : InTurn plan sent r
  gathers : ∀ merged, r = .ok merged →
    ∃ outputs, List.Forall₂ Exchange.Gave sent outputs ∧ merged.Gathers outputs
  /-- Where each answer leaves what was not written of its request, the merged one leaves what was
  not written of the batch. -/
  accounts : ∀ merged, r = .ok merged →
    ∀ written : Exchange BatchWriteItemInput → List WriteRequest,
      (∀ x ∈ sent, ∀ output : BatchWriteItemOutput, x.Gave output →
        (written x ++ output.unprocessedItems.allUnder table.tableName).Perm
          (x.input.requestItems.allUnder table.tableName)) →
      (sent.flatMap written ++ merged.unprocessedItems.listUnder table.tableName).Perm
        (puts.map .put ++ deletes.map .delete)

/-- What is sent of a batch of reads whose requests are built, and what is returned. -/
structure ConservesKeys (table : TableDescriptor) (config : ClientConfig) (keys : List Key)
    (o : ReadOptions) (plan : List BatchGetItemInput) (sent : List (Exchange BatchGetItemInput))
    (r : Except ClientError BatchGetItemOutput) : Prop where
  parts : ∃ parts projection names, IsCut 100 keys parts ∧
    plan = parts.map (Request.keysRequest table config o projection names)
  inTurn : InTurn plan sent r
  gathers : ∀ merged, r = .ok merged →
    ∃ outputs, List.Forall₂ Exchange.Gave sent outputs ∧ merged.Gathers outputs
  /-- Where each answer has an item for each key of its request or leaves the key, the merged one
  has an item for each key of the batch or leaves the key. -/
  accounts : ∀ merged, r = .ok merged →
    ∀ (answers : Item → Key → Prop) (found : Exchange BatchGetItemInput → List Key),
      (∀ x ∈ sent, ∀ output : BatchGetItemOutput, x.Gave output →
        List.Forall₂ answers (output.responses.allUnder table.tableName) (found x) ∧
        (found x ++ (KeysAndAttributes.pending output.unprocessedKeys).allUnder
          table.tableName).Perm
            ((KeysAndAttributes.pending x.input.requestItems).allUnder table.tableName)) →
      List.Forall₂ answers (merged.responses.listUnder table.tableName) (sent.flatMap found) ∧
      (sent.flatMap found ++ (KeysAndAttributes.pending merged.unprocessedKeys).listUnder
        table.tableName).Perm keys

theorem conservesWrites_of_sends {table : TableDescriptor} {config : ClientConfig}
    {puts : List Item} {deletes : List Key} {o : BatchWriteOptions}
    {plan : List BatchWriteItemInput} {sent : List (Exchange BatchWriteItemInput)}
    {r : Except ClientError BatchWriteItemOutput}
    (hplan : Request.batchWrite table config puts deletes o = .ok plan)
    (hsends : Sends BatchWriteItemOutput.merge {} plan sent r) :
    ConservesWrites table config puts deletes o plan sent r := by
  obtain ⟨parts, hcut, hrequests⟩ := Request.parts_of_batchWrite hplan
  have hgathers (merged : BatchWriteItemOutput) (hr : r = .ok merged) :
      ∃ outputs, List.Forall₂ Exchange.Gave sent outputs ∧ merged.Gathers outputs := by
    obtain ⟨outputs, hgave, rfl⟩ := hsends.outputs_of_ok hr
    exact ⟨outputs, hgave, BatchWriteItemOutput.gathers_foldl outputs⟩
  refine ⟨⟨parts, hcut, hrequests⟩, hsends.inTurn, hgathers, ?_⟩
  intro merged hr written haccounts
  obtain ⟨outputs, hgave, hgathered⟩ := hgathers merged hr
  have hcarried : sent.flatMap (fun x ↦ x.input.requestItems.allUnder table.tableName) =
      parts.flatten :=
    flatMap_carried (·.requestItems.allUnder table.tableName)
      ((hsends.inTurn.complete merged hr).trans hrequests)
      fun part ↦ Dict.allUnder_singleton table.tableName part
  rw [hgathered.unprocessedItems, ← hcut.flatten, ← hcarried]
  exact perm_of_forall₂ (forall₂_of_gave hgave haccounts)

theorem conservesKeys_of_sends {table : TableDescriptor} {config : ClientConfig}
    {keys : List Key} {o : ReadOptions} {plan : List BatchGetItemInput}
    {sent : List (Exchange BatchGetItemInput)} {r : Except ClientError BatchGetItemOutput}
    (hplan : Request.batchGet table config keys o = .ok plan)
    (hsends : Sends BatchGetItemOutput.merge {} plan sent r) :
    ConservesKeys table config keys o plan sent r := by
  obtain ⟨parts, projection, names, hcut, hrequests⟩ := Request.parts_of_batchGet hplan
  have hgathers (merged : BatchGetItemOutput) (hr : r = .ok merged) :
      ∃ outputs, List.Forall₂ Exchange.Gave sent outputs ∧ merged.Gathers outputs := by
    obtain ⟨outputs, hgave, rfl⟩ := hsends.outputs_of_ok hr
    exact ⟨outputs, hgave, BatchGetItemOutput.gathers_foldl outputs⟩
  refine ⟨⟨parts, projection, names, hcut, hrequests⟩, hsends.inTurn, hgathers, ?_⟩
  intro merged hr answers found haccounts
  obtain ⟨outputs, hgave, hgathered⟩ := hgathers merged hr
  have hcarried : sent.flatMap (fun x ↦
      (KeysAndAttributes.pending x.input.requestItems).allUnder table.tableName) = parts.flatten :=
    flatMap_carried (fun input : BatchGetItemInput ↦
        (KeysAndAttributes.pending input.requestItems).allUnder table.tableName)
      ((hsends.inTurn.complete merged hr).trans hrequests)
      fun part ↦ Dict.allUnder_singleton table.tableName part
  have hfound := forall₂_of_gave hgave haccounts
  constructor
  · rw [hgathered.responses]
    exact forall₂_flatMap (hfound.imp fun x output h ↦ h.1)
  · rw [hgathered.unprocessedKeys, ← hcut.flatten, ← hcarried]
    exact perm_of_forall₂ (hfound.imp fun x output h ↦ h.2)

end Connection

/-- **Batches conserve their elements.** A batch is built from the metadata that are known or are
fetched for it; behind the call that fetches them, its calls carry its elements in their order, cut
into requests that are full but for the last one and agree in everything else. They are sent in turn
until one fails; none is sent if the requests cannot be built, as for a batch that is empty or has
an element without the key of the table. If none fails, the answer reports all that the answers
report, in their order; so if each answer returns or leaves exactly the elements that were sent with
its request, the merged one accounts for each element once. -/
theorem batches_conserve_their_elements {σ : Type} (env : Environment σ)
    (before : Session Connection σ) :
    (∀ puts deletes o,
      (Connection.batchWriteItem env puts deletes o).Ensures before fun r after ↦ ∃ sent,
        Connection.RunsBatch env .batchWriteItem (puts ++ deletes)
          (fun table ↦ Request.batchWrite table before.own.config puts deletes o)
          before after sent r ∧
        ∀ table plan, Connection.metadata env before = .ok table →
          Request.batchWrite table before.own.config puts deletes o = .ok plan →
          Connection.ConservesWrites table before.own.config puts deletes o plan sent r) ∧
    ∀ keys o,
      (Connection.batchGetItem env keys o).Ensures before fun r after ↦ ∃ sent,
        Connection.RunsBatch env .batchGetItem keys
          (fun table ↦ Request.batchGet table before.own.config keys o) before after sent r ∧
        ∀ table plan, Connection.metadata env before = .ok table →
          Request.batchGet table before.own.config keys o = .ok plan →
          Connection.ConservesKeys table before.own.config keys o plan sent r := by
  constructor
  · intro puts deletes o
    refine (Connection.batched_of_sendAll env .batchWriteItem
      (fun table config ↦ Request.batchWrite table config puts deletes o)
      BatchWriteItemOutput.merge {} before).imp ?_
    rintro r after ⟨sent, hbatched⟩
    refine ⟨sent, hbatched.runs fun table plan hplan ↦ ?_, fun table plan ht hplan ↦ ?_⟩
    · exact Request.exists_batchWrite_iff.mp ⟨plan, hplan⟩
    · exact Connection.conservesWrites_of_sends hplan (hbatched.sends ht hplan)
  · intro keys o
    refine (Connection.batched_of_sendAll env .batchGetItem
      (fun table config ↦ Request.batchGet table config keys o)
      BatchGetItemOutput.merge {} before).imp ?_
    rintro r after ⟨sent, hbatched⟩
    refine ⟨sent, hbatched.runs fun table plan hplan ↦ ?_, fun table plan ht hplan ↦ ?_⟩
    · exact Request.checked_of_batchGet hplan
    · exact Connection.conservesKeys_of_sends hplan (hbatched.sends ht hplan)

/-! ## A service that tires -/

private def things : TableDescriptor := ⟨"things", ⟨"id", none⟩, [("id", .s)], []⟩

/-- So many things, each with nothing but its number. -/
private def thingsFrom (first count : ℕ) : List Item :=
  (List.range' first count).map fun n ↦ [("id", .string (toString n))]

private def written (tired : Bool) : BatchWriteItemOutput where
  unprocessedItems := if tired then [("things", (thingsFrom 25 1).map .put)] else []

private def found (tired : Bool) : BatchGetItemOutput where
  responses := if tired then [] else [("things", thingsFrom 0 100)]
  unprocessedKeys := if tired then [("things", { keys := thingsFrom 100 1 })] else []

/-- A service that does all of a first request, but nothing of a second one. -/
private def tiringStore : Environment Bool where
  reply op _ tired :=
    (⟨0, .ok (if op = .batchGetItem then Wire.write (found tired) else Wire.write (written tired))⟩,
      true)
  oversleep _ tired := (0, tired)

private def atStore : Session Connection Bool where
  own := { tableName := "things", descriptor := some things }
  world := { service := false }

/-- How an operation ends there, and what was answered to its calls. -/
private def endOf {α : Type} (m : Connection.Step Bool α) :
    Except ClientError α × List (Except ServiceError Json) :=
  let ends := m.outcomeIn atStore
  (ends.1, ends.2.world.history.filterMap Event.answer?)

/-- What a full request has, and nothing of any other. -/
private def ifFull {α : Type} (size : ℕ) (elements : List α) : List α :=
  if elements.length = size then elements else []

/-- What was sent in two requests, from what was asked and what came back. -/
private theorem eq_pair_of_answers {ι : Type} [Wire ι] {op : Operation} {sent : List (Exchange ι)}
    {first last : ι} {answer answer' : Except ServiceError Json}
    (hinputs : sent.map (·.input) = [first, last])
    (hanswers : (sent.map (Exchange.event op)).filterMap Event.answer? = [answer, answer']) :
    ∃ time time', sent = [⟨time, first, answer⟩, ⟨time', last, answer'⟩] := by
  obtain ⟨x, y, rfl⟩ : ∃ x y, sent = [x, y] := by
    refine List.length_eq_two.mp ?_
    rw [← List.length_map (·.input), hinputs]
    rfl
  obtain ⟨rfl, hy⟩ := List.cons.inj hinputs
  obtain rfl := List.singleton_inj.mp hy
  obtain ⟨rfl, hy⟩ := List.cons.inj hanswers
  obtain rfl := List.singleton_inj.mp hy
  exact ⟨x.time, y.time, rfl⟩

set_option maxRecDepth 4000 in
/-- Of twenty-six puts and of one hundred and one keys the last is left, which is alone in a second
request. -/
theorem last_thing_left_of_batches :
    (Connection.batchWriteItem tiringStore (thingsFrom 0 26) [] {}).Ensures atStore (fun r _ ↦
      ∃ merged, r = .ok merged ∧
        ((thingsFrom 0 25).map WriteRequest.put ++
          merged.unprocessedItems.listUnder "things").Perm ((thingsFrom 0 26).map .put ++ [])) ∧
    (Connection.batchGetItem tiringStore (thingsFrom 0 101) {}).Ensures atStore fun r _ ↦
      ∃ merged, r = .ok merged ∧
        List.Forall₂ Eq (merged.responses.listUnder "things") (thingsFrom 0 100) ∧
        (thingsFrom 0 100 ++ (KeysAndAttributes.pending merged.unprocessedKeys).listUnder
          "things").Perm (thingsFrom 0 101) := by
  obtain ⟨hwrites, hreads⟩ := batches_conserve_their_elements tiringStore atStore
  constructor
  · obtain ⟨sent, hruns, hconserves⟩ := hwrites (thingsFrom 0 26) [] {}
    have hplan : Request.batchWrite things {} (thingsFrom 0 26) [] {} = .ok
        [Request.writesRequest things {} {} ((thingsFrom 0 25).map .put),
          Request.writesRequest things {} {} ((thingsFrom 25 1).map .put)] := by
      cbv
    obtain ⟨hr, hanswers⟩ := Prod.mk.inj (show endOf
        (Connection.batchWriteItem tiringStore (thingsFrom 0 26) [] {}) = (.ok (written true),
          [.ok (Wire.write (written false)), .ok (Wire.write (written true))]) by cbv)
    have hread (tired : Bool) :
        Client.received (.ok (Wire.write (written tired))) = .ok (written tired) := by
      cases tired <;> cbv
    have hsends := hconserves things _ rfl hplan
    rw [hruns.history] at hanswers
    obtain ⟨time, time', rfl⟩ := eq_pair_of_answers (hsends.inTurn.complete _ hr) hanswers
    refine ⟨_, hr, hsends.accounts _ hr
      (fun x ↦ ifFull 25 (x.input.requestItems.allUnder "things")) ?_⟩
    refine List.forall_mem_cons.mpr ⟨?_, List.forall_mem_singleton.mpr ?_⟩
    · intro output hgave
      obtain rfl := Except.ok.inj ((hread false).symm.trans hgave)
      exact .refl _
    · intro output hgave
      obtain rfl := Except.ok.inj ((hread true).symm.trans hgave)
      exact .refl _
  · obtain ⟨sent, hruns, hconserves⟩ := hreads (thingsFrom 0 101) {}
    have hplan : Request.batchGet things {} (thingsFrom 0 101) {} = .ok
        [Request.keysRequest things {} {} none [] (thingsFrom 0 100),
          Request.keysRequest things {} {} none [] (thingsFrom 100 1)] := by
      cbv
    obtain ⟨hr, hanswers⟩ := Prod.mk.inj (show endOf
        (Connection.batchGetItem tiringStore (thingsFrom 0 101) {}) =
          (.ok ((found false).merge (found true)),
            [.ok (Wire.write (found false)), .ok (Wire.write (found true))]) by cbv)
    have hread (tired : Bool) :
        Client.received (.ok (Wire.write (found tired))) = .ok (found tired) := by
      cases tired <;> cbv
    have hsends := hconserves things _ rfl hplan
    rw [hruns.history] at hanswers
    obtain ⟨time, time', rfl⟩ := eq_pair_of_answers (hsends.inTurn.complete _ hr) hanswers
    refine ⟨_, hr, hsends.accounts _ hr Eq (fun x ↦ ifFull 100
      ((KeysAndAttributes.pending x.input.requestItems).allUnder "things")) ?_⟩
    refine List.forall_mem_cons.mpr ⟨?_, List.forall_mem_singleton.mpr ?_⟩
    · intro output hgave
      obtain rfl := Except.ok.inj ((hread false).symm.trans hgave)
      exact ⟨List.forall₂_same.mpr fun _ _ ↦ rfl, .refl _⟩
    · intro output hgave
      obtain rfl := Except.ok.inj ((hread true).symm.trans hgave)
      exact ⟨.nil, .refl _⟩

end TableClient
