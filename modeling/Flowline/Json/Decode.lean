import Flowline.Calendar.Timestamp
import Flowline.Json.Reader

/-!
# Decoding records

A record is written as an object of its fields or as the array of them in their order. A
`Fields α` reads an `α` from the fields of a record, and fields combine like values of an
applicative functor. Of several faults the one that a reader meets first counts: the fields that
are there in the order in which they are written, then the missing ones in the order in which they
are declared.

The fields of a record whose kind stands among them are kept until the kind is known. What was
kept is decoded a little more freely: a kind may be given by its number, and the content of a
variant may be an empty object.
-/

namespace Flowline

/-- Why a value does not have the shape that is asked for. -/
inductive ShapeError where
  | missingField (name : String)
  | duplicateField (name : String)
  | unknownVariant (name : String)
  | invalidType
  | invalidValue
  | invalidLength (n : Nat)
  | badInstant (fault : InstantFault)
  | badIdentifier
deriving DecidableEq

/-- The error in words. -/
def ShapeError.message : ShapeError → String
  | missingField name => "missing field `" ++ name ++ "`"
  | duplicateField name => "duplicate field `" ++ name ++ "`"
  | unknownVariant name => "unknown variant `" ++ name ++ "`"
  | invalidType => "invalid type"
  | invalidValue => "invalid value"
  | invalidLength n => "invalid length " ++ String.ofList (Decimal.digitChars n)
  | badInstant fault => fault.message
  | badIdentifier => "UUID parsing failed"

namespace Json

mutual

/-- The value with one member of each name: in the place of the first one the last one. -/
def settled : Json → Json
  | arr elements => arr (settledElements elements)
  | obj members => obj (Entries.ofList (settledMembers members))
  | v => v

@[inherit_doc settled]
def settledElements : List Json → List Json
  | [] => []
  | v :: rest => settled v :: settledElements rest

@[inherit_doc settled]
def settledMembers : List (String × Json) → List (String × Json)
  | [] => []
  | (name, v) :: rest => (name, settled v) :: settledMembers rest

end

end Json

/-- A way to read an `α` from a value. -/
structure Decoder (α : Type) where
  /-- What can be told of the value while its text is read. -/
  shape : Json.Shape
  /-- Read a value, which may have been kept. -/
  decode : Bool → Json → Except ShapeError α

namespace Decoder

variable {α β : Type}

instance : CoeFun (Decoder α) fun _ => Json → Except ShapeError α := ⟨fun d => d.decode false⟩

instance : Functor Decoder where
  map f d := ⟨d.shape, fun kept v => f <$> d.decode kept v⟩

/-- Read from values that are no containers. -/
def scalar (read : Json → Except ShapeError α) : Decoder α :=
  ⟨.plain fun v => (read v).isOk, fun _ => read⟩

/-- Read from the text of a value. Of faults in the text and in what it says the first counts. -/
def readText (d : Decoder α) (text : String) : Except Json.TextFault α := do
  (d (← Json.readAs d.shape text)).mapError fun _ => .wrongShape

/-- Any value. -/
def value : Decoder Json := ⟨.value, fun kept v => .ok (if kept then v.settled else v)⟩

/-- A string. -/
def string : Decoder String := scalar fun
  | .str s => .ok s
  | _ => .error .invalidType

/-- A truth value. -/
def bool : Decoder Bool := scalar fun
  | .bool b => .ok b
  | _ => .error .invalidType

/-- A whole number from zero to a limit. -/
def nat (limit : Nat) : Decoder Nat := scalar fun
  | .int n => if 0 ≤ n ∧ n ≤ limit then .ok n.toNat else .error .invalidValue
  | _ => .error .invalidType

/-- A number. -/
def double : Decoder Double := scalar fun
  | .int n => .ok (Double.ofInt n)
  | .float x => .ok x
  | _ => .error .invalidType

/-- A timestamp. -/
def instant : Decoder Instant := scalar fun
  | .str s => (Timestamp.readLoose s).mapError .badInstant
  | _ => .error .invalidType

/-- A value or null. -/
def nullable (d : Decoder α) : Decoder (Option α) where
  shape := .nullable d.shape
  decode kept
    | .null => .ok none
    | v => (d.decode kept v).map some

/-- An array of values. -/
def list (d : Decoder α) : Decoder (List α) where
  shape := .list d.shape
  decode kept
    | .arr elements => elements.mapM (d.decode kept)
    | _ => .error .invalidType

/-- An object whose names are free. -/
def dictionary (d : Decoder α) : Decoder (Entries α) where
  shape := .dictionary d.shape
  decode kept
    | .obj members =>
      Entries.ofList <$> members.mapM fun m => (d.decode kept m.2).map (m.1, ·)
    | _ => .error .invalidType

/-- One of a few names, either alone or as the only member of an object, with null as its
value. -/
def variant (names : List (String × α)) : Decoder α where
  shape := .variant (names.map (·.1))
  decode kept
    | .str s => (names.lookup s).elim (.error (.unknownVariant s)) .ok
    | .obj [(s, content)] =>
      match names.lookup s, content with
      | none, _ => .error (.unknownVariant s)
      | some a, .null => .ok a
      | some a, .obj [] => if kept then .ok a else .error .invalidType
      | some _, _ => .error .invalidType
    | .obj _ => .error .invalidValue
    | _ => .error .invalidType

end Decoder

/-- The fields of a record, by name or by place. -/
inductive FieldSource where
  | named (members : Entries Json)
  | placed (elements : List Json)

/-- A fault and when it is met. -/
structure FieldFault where
  time : Nat
  error : ShapeError

/-- A way to read an `α` from the next fields of a record. -/
structure Fields (α : Type) where
  /-- The names of the fields, whether they must be there, and their shapes. -/
  fields : List (String × Bool × Json.Shape)
  /-- Read the fields of a record, which may have been kept, from a place on. -/
  read : Bool → FieldSource → Nat → Except FieldFault α

namespace Fields

variable {α β : Type}

/-- Of two readings the combination, or the fault that is met first. -/
def both (f : Except FieldFault (α → β)) (a : Except FieldFault α) : Except FieldFault β :=
  match f, a with
  | .ok f, .ok a => .ok (f a)
  | .error e, .ok _ => .error e
  | .ok _, .error e => .error e
  | .error e, .error e' => .error (if e.time ≤ e'.time then e else e')

instance : Applicative Fields where
  pure a := ⟨[], fun _ _ _ => .ok a⟩
  seq f a :=
    let rest := a ()
    ⟨f.fields ++ rest.fields, fun kept source place =>
      both (f.read kept source place) (rest.read kept source (place + f.fields.length))⟩

/-- The members of a name with their places. -/
def occurrences (name : String) (members : Entries Json) : List (Nat × Json) :=
  members.zipIdx.filterMap fun (m, place) => if m.1 == name then some (place, m.2) else none

/-- One field; `missing` is its value when it is not there. -/
def field (name : String) (d : Decoder α) (missing : Except ShapeError α) : Fields α :=
  ⟨[(name, !missing.isOk, d.shape)], fun kept source place =>
    match source with
    | .named members =>
      match occurrences name members with
      | [] => missing.mapError (⟨members.length + place, ·⟩)
      | [(position, v)] => (d.decode kept v).mapError (⟨position, ·⟩)
      | (position, v) :: (again, _) :: _ =>
        match d.decode kept v with
        | .ok _ => .error ⟨again, .duplicateField name⟩
        | .error e => .error ⟨position, e⟩
    | .placed elements =>
      match elements[place]? with
      | some v => (d.decode kept v).mapError (⟨place, ·⟩)
      | none => missing.mapError fun _ => ⟨place, .invalidLength place⟩⟩

/-- A field that must be there. -/
def required (name : String) (d : Decoder α) : Fields α :=
  field name d (.error (.missingField name))

/-- A field with a default. -/
def withDefault (name : String) (d : Decoder α) (value : α) : Fields α := field name d (.ok value)

/-- A field that may be missing or null. -/
def optional (name : String) (d : Decoder α) : Fields (Option α) :=
  withDefault name (.nullable d) none

/-- A whole record. -/
def record (f : Fields α) : Decoder α where
  shape := .record f.fields
  decode kept
    | .obj members => (f.read kept (.named members) 0).mapError (·.error)
    | .arr elements =>
      match f.read kept (.placed elements) 0 with
      | .ok a =>
        if elements.length ≤ f.fields.length then .ok a
        else .error (.invalidLength elements.length)
      | .error e => .error e.error
    | _ => .error .invalidType

/-- The kind that a value names or, if it was kept, numbers. -/
def kindOf (kinds : List (String × Decoder α)) (kept : Bool) : Json →
    Except ShapeError (Decoder α)
  | .str s => (kinds.lookup s).elim (.error (.unknownVariant s)) .ok
  | .int n =>
    if !kept || n < 0 then .error .invalidType
    else
      match kinds[n.toNat]? with
      | some kind => .ok kind.2
      | none => .error .invalidValue
  | _ => .error .invalidType

/-- A record whose first field names one of a few kinds, each with fields of its own. -/
def tagged (tag : String) (kinds : List (String × Decoder α)) : Decoder α :=
  let decode (kept : Bool) : Json → Except ShapeError α
    | .obj members =>
      match occurrences tag members with
      | [] => .error (.missingField tag)
      | [(_, kind)] => do (← kindOf kinds kept kind).decode true (.obj (Entries.remove members tag))
      | (_, kind) :: _ => do
        discard (kindOf kinds kept kind)
        throw (.duplicateField tag)
    | .arr [] => .error (.missingField tag)
    | .arr (kind :: rest) => do (← kindOf kinds kept kind).decode true (.arr rest)
    | _ => .error .invalidType
  ⟨.tagged tag (kinds.map (·.1)) fun v => (decode false v).isOk, decode⟩

end Fields

end Flowline
