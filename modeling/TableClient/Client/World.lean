import TableClient.Client.Error
import TableClient.Service.Operation
import TableClient.Wire.Value
/-!
# The world of a client

A client calls a service, sleeps and looks at a clock. The service is any function of the calls with
a state of its own; it takes its time to answer, and a sleep may last longer than asked. A `World`
holds the state of the service, the clock and the history of what the client did.

Time is counted in nanoseconds from an arbitrary start.
-/

namespace TableClient

/-- What comes back from a call, and how long it took. -/
structure Reply where
  latency : Nat
  answer : Except ServiceError Json

/-- What a client cannot influence: how the service answers, and how much longer than asked a sleep
lasts. -/
structure Environment (σ : Type) where
  reply : Operation → Json → σ → Reply × σ
  oversleep : Nat → σ → Nat × σ

/-- Something that the client did. -/
inductive Event where
  /-- A call, when it was made and what came back. -/
  | call (time : Nat) (operation : Operation) (params : Json) (answer : Except ServiceError Json)
  /-- A sleep, when it began and how long it was to last. -/
  | sleep (time duration : Nat)

/-- The state of the world around a client. -/
structure World (σ : Type) where
  service : σ
  clock : Nat := 0
  /-- What the client did, the first first. -/
  history : List Event := []

namespace World

variable {σ : Type}

/-- The answer to a call, and the world after it. -/
def call (env : Environment σ) (op : Operation) (params : Json) (w : World σ) :
    Except ServiceError Json × World σ :=
  let (reply, service) := env.reply op params w.service
  (reply.answer, {
    service
    clock := w.clock + reply.latency
    history := w.history ++ [.call w.clock op params reply.answer] })

def sleep (env : Environment σ) (duration : Nat) (w : World σ) : World σ :=
  let (more, service) := env.oversleep duration w.service
  { service
    clock := w.clock + duration + more
    history := w.history ++ [.sleep w.clock duration] }

end World

/-! ## Computations of a client -/

/-- A client in its world. -/
structure Session (s σ : Type) where
  /-- The state of the client itself. -/
  own : s
  world : World σ

/-- A computation of a client with own state `s`, where the service has state `σ`. What was done
before a failure stays done. -/
abbrev Client (s σ α : Type) := ExceptT ClientError (StateM (Session s σ)) α

namespace Client

variable {s σ α : Type}

/-- The state of the client. -/
def own : Client s σ s := do
  return (← get).own

def now : Client s σ Nat := do
  return (← get).world.clock

/-- A change of the state of the client. -/
def update (f : s → s) : Client s σ Unit :=
  modify fun session => { session with own := f session.own }

/-- A step that needs no world. -/
def check (step : Except ClientError α) : Client s σ α :=
  ExceptT.mk (pure step)

/-- The outcome of a computation, failures included. -/
def outcome (m : Client s σ α) : Client s σ (Except ClientError α) :=
  ExceptT.lift m.run

def sleep (env : Environment σ) (duration : Nat) : Client s σ Unit :=
  modify fun session => { session with world := session.world.sleep env duration }

def call (env : Environment σ) (op : Operation) (params : Json) : Client s σ Json := do
  let answer ← modifyGet fun session =>
    let (answer, world) := session.world.call env op params
    (answer, { session with world })
  check (answer.mapError .service)

/-- The answer to a request, read as what the operation answers with. -/
def send {ι ο : Type} [Wire ι] [Wire ο] (env : Environment σ) (op : Operation) (input : ι) :
    Client s σ ο := do
  let document ← call env op (Wire.write input)
  check ((Wire.read document).mapError .serialization)

end Client
end TableClient
