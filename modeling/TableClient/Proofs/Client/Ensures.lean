import Mathlib.Data.Nat.Notation
import TableClient.Client.World
import TableClient.Proofs.Except

/-!
# What a computation of a client ensures

A computation of a client ends with a value or a failure, and leaves the client and its world
changed. `Client.Ensures` says that a postcondition holds of both. There is one equivalence for each
step, so a statement about a computation is taken apart from the front; what a called computation
ensures is used through `Client.Ensures.bind`, without opening it again.
-/

namespace TableClient.Client

variable {s σ α β : Type}

/-- How a computation ends: its value or failure, and the session that it leaves. -/
def outcomeIn (m : Client s σ α) (before : Session s σ) : Except ClientError α × Session s σ :=
  m.run.run before

/-- The computation ends in a way that satisfies the postcondition. -/
def Ensures (m : Client s σ α) (before : Session s σ)
    (post : Except ClientError α → Session s σ → Prop) : Prop :=
  post (m.outcomeIn before).1 (m.outcomeIn before).2

/-- What an answer is to the computation that waits for it. -/
def received {ο : Type} [Wire ο] : Except ServiceError Json → Except ClientError ο
  | .ok document => (Wire.read document).mapError .serialization
  | .error e => .error (.service e)

section Rules

variable {before : Session s σ} {post : Except ClientError α → Session s σ → Prop}

theorem Ensures.imp {m : Client s σ α} {post' : Except ClientError α → Session s σ → Prop}
    (h : Ensures m before post) (himp : ∀ r after, post r after → post' r after) :
    Ensures m before post' :=
  himp _ _ h

@[simp] theorem ensures_pure_iff {a : α} :
    Ensures (pure a : Client s σ α) before post ↔ post (.ok a) before :=
  Iff.rfl

@[simp] theorem ensures_throw_iff {e : ClientError} :
    Ensures (throw e : Client s σ α) before post ↔ post (.error e) before :=
  Iff.rfl

theorem outcomeIn_bind (m : Client s σ α) (f : α → Client s σ β) (before : Session s σ) :
    (m >>= f).outcomeIn before = match m.outcomeIn before with
      | (.ok a, between) => (f a).outcomeIn between
      | (.error e, between) => (.error e, between) := by
  rw [outcomeIn, ExceptT.run_run_bind, outcomeIn]
  rcases m.run.run before with ⟨_ | a, between⟩ <;> rfl

theorem ensures_bind_iff {m : Client s σ α} {f : α → Client s σ β}
    {post : Except ClientError β → Session s σ → Prop} :
    Ensures (m >>= f) before post ↔ Ensures m before fun r between ↦
      match r with
      | .ok a => Ensures (f a) between post
      | .error e => post (.error e) between := by
  rw [Ensures, outcomeIn_bind, Ensures]
  rcases m.outcomeIn before with ⟨_ | a, between⟩ <;> rfl

/-- A computation that goes on after another: what the first ensures is all that is used of it. -/
theorem Ensures.bind {m : Client s σ α} {f : α → Client s σ β}
    {post' : Except ClientError β → Session s σ → Prop} (h : Ensures m before post)
    (hok : ∀ a between, post (.ok a) between → Ensures (f a) between post')
    (herror : ∀ e between, post (.error e) between → post' (.error e) between) :
    Ensures (m >>= f) before post' := by
  rw [ensures_bind_iff]
  refine h.imp fun r between hpost ↦ ?_
  cases r with
  | ok a => exact hok a between hpost
  | error e => exact herror e between hpost

@[simp] theorem ensures_own_bind_iff {f : s → Client s σ α} :
    Ensures (own >>= f) before post ↔ Ensures (f before.own) before post :=
  ensures_bind_iff

@[simp] theorem ensures_now_bind_iff {f : ℕ → Client s σ α} :
    Ensures (now >>= f) before post ↔ Ensures (f before.world.clock) before post :=
  ensures_bind_iff

@[simp] theorem ensures_update_iff {f : s → s}
    {post : Except ClientError Unit → Session s σ → Prop} :
    Ensures (update f) before post ↔ post (.ok ()) { before with own := f before.own } :=
  Iff.rfl

@[simp] theorem ensures_update_bind_iff {f : s → s} {m : Unit → Client s σ α} :
    Ensures (update f >>= m) before post ↔
      Ensures (m ()) { before with own := f before.own } post :=
  ensures_bind_iff

@[simp] theorem ensures_sleep_iff {env : Environment σ} {duration : ℕ}
    {post : Except ClientError Unit → Session s σ → Prop} :
    Ensures (sleep env duration) before post ↔
      post (.ok ()) { before with world := before.world.sleep env duration } :=
  Iff.rfl

@[simp] theorem ensures_sleep_bind_iff {env : Environment σ} {duration : ℕ}
    {m : Unit → Client s σ α} :
    Ensures (sleep env duration >>= m) before post ↔
      Ensures (m ()) { before with world := before.world.sleep env duration } post :=
  ensures_bind_iff

@[simp] theorem ensures_check_iff {step : Except ClientError α} :
    Ensures (check step) before post ↔ post step before :=
  Iff.rfl

theorem ensures_outcome_iff {m : Client s σ α}
    {post : Except ClientError (Except ClientError α) → Session s σ → Prop} :
    Ensures (outcome m) before post ↔ Ensures m before fun r after ↦ post (.ok r) after :=
  Iff.rfl

theorem ensures_map_iff {m : Client s σ α} {f : α → β}
    {post : Except ClientError β → Session s σ → Prop} :
    Ensures (f <$> m) before post ↔ Ensures m before fun r after ↦ post (r.map f) after := by
  rw [map_eq_pure_bind, ensures_bind_iff]
  rw [Ensures, Ensures]
  rcases m.outcomeIn before with ⟨_ | a, after⟩ <;> rfl

/-- A request is called once, and its answer is read. -/
theorem ensures_send_iff {ι ο : Type} [Wire ι] [Wire ο] {env : Environment σ} {op : Operation}
    {input : ι} {post : Except ClientError ο → Session s σ → Prop} :
    Ensures (send env op input) before post ↔
      post (received (before.world.call env op (Wire.write input)).1)
        { before with world := (before.world.call env op (Wire.write input)).2 } := by
  have hmodify {f : Session s σ → Except ServiceError Json × Session s σ}
      {post : Except ClientError (Except ServiceError Json) → Session s σ → Prop} :
      Ensures (modifyGet f : Client s σ _) before post ↔ post (.ok (f before).1) (f before).2 :=
    Iff.rfl
  rw [send, ensures_bind_iff, call, ensures_bind_iff, hmodify]
  simp only [ensures_check_iff]
  cases (before.world.call env op (Wire.write input)).1 <;> rfl

end Rules

end TableClient.Client
