import TableClient.Wire.Value
/-!
# Records in wire documents

A `Record σ α` reads an `α` out of the fields of an object and writes the same fields of a `σ`. It
is built field by field with the operations of an applicative functor, so one expression fixes the
names, the way in and the way out.

Of several faults in an object the one at the first field name counts, and a missing field counts
after all others. A record may also stand as an array of its fields in the order of declaration.
-/

namespace TableClient

/-- A fault of an object: its cause and the field where it was met, if it is not a missing one. -/
structure Fault where
  field : Option String
  cause : WireError

/-- Of two faults the one at the smaller field name; a missing field is the last. -/
def Fault.first (a b : Fault) : Fault :=
  match a.field, b.field with
  | some x, some y => if y < x then b else a
  | none, some _ => b
  | _, none => a

/-- Fields that are read to an `α` and written from a `σ`. -/
structure Record (σ α : Type) where
  /-- The names of the fields. -/
  names : List String
  /-- The value that the fields of an object hold. -/
  ofFields : Dict Json → Except Fault α
  /-- The value that items of an array hold in order, and the items left over. -/
  ofRow : List Json → Except WireError (α × List Json)
  /-- The fields that are written. -/
  toFields : σ → List (String × Json)

namespace Record

variable {σ α β : Type}

/-! ## One field -/

/-- A field that is read by `present` where it stands and takes the value of `absent` where it does
not. The same `absent` holds for an array that ends before the field if `shortRow` allows it. -/
def field (name : String) (present : Json → Except WireError α) (absent : Option α)
    (shortRow : Bool) (write : σ → Option Json) : Record σ α where
  names := [name]
  ofFields fields :=
    match Dict.get? fields name with
    | some document => (present document).mapError (Fault.mk (some name))
    | none => absent.elim (.error ⟨none, .misfit⟩) .ok
  ofRow
    | item :: rest => (present item).map (·, rest)
    | [] => if shortRow then absent.elim (.error .misfit) fun x => .ok (x, []) else .error .misfit
  toFields x := (write x).toList.map (name, ·)

/-- A field that is always there. -/
def required [Wire α] (name : String) (view : σ → α) : Record σ α :=
  field name Wire.read none false fun x => some (Wire.write (view x))

/-- A field that is left out when absent; null also stands for absence. -/
def option [Wire α] (name : String) (view : σ → Option α) : Record σ (Option α) :=
  field name
    (fun
      | .null => .ok none
      | document => (Wire.read document).map some)
    (some none) false fun x => (view x).map Wire.write

/-- A field that is always written but may be missing; then it has the given value. -/
def defaulted [Wire α] (name : String) (value : α) (view : σ → α) : Record σ α :=
  field name Wire.read (some value) true fun x => some (Wire.write (view x))

/-- A list or dictionary that is left out when empty. -/
def nonempty [Wire (List α)] (name : String) (view : σ → List α) : Record σ (List α) :=
  field name Wire.read (some []) true fun x =>
    if (view x).isEmpty then none else some (Wire.write (view x))

/-! ## Several fields -/

/-- Both of two results, or the fault that counts. -/
def both (f : Except Fault (α → β)) (x : Except Fault α) : Except Fault β :=
  match f, x with
  | .ok f, .ok x => .ok (f x)
  | .error e, .ok _ => .error e
  | .ok _, .error e => .error e
  | .error e, .error e' => .error (e.first e')

instance : Applicative (Record σ) where
  pure a := ⟨[], fun _ => .ok a, fun row => .ok (a, row), fun _ => []⟩
  map f r :=
    { r with
      ofFields := fun fields => (r.ofFields fields).map f
      ofRow := fun row => (r.ofRow row).map fun (x, rest) => (f x, rest) }
  seq r s :=
    let s := s ()
    { names := r.names ++ s.names
      ofFields := fun fields => both (r.ofFields fields) (s.ofFields fields)
      ofRow := fun row => do
        let (f, rest) ← r.ofRow row
        let (x, rest) ← s.ofRow rest
        return (f x, rest)
      toFields := fun x => r.toFields x ++ s.toFields x }

/-- A record that is written from what it reads is a wire type. -/
@[reducible]
def wire (r : Record α α) : Wire α where
  read
    | .object fields => (r.ofFields fields).mapError Fault.cause
    | .array row =>
      match r.ofRow row with
      | .ok (x, []) => .ok x
      | .ok _ => .error .misfit
      | .error e => .error e
    | _ => .error .misfit
  write x := Json.ofFields (r.toFields x)

end Record
end TableClient
