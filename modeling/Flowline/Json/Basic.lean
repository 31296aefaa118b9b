import Flowline.Number.Shortest

/-!
# Values

`Json` is the value that flows along the edges of a workflow. Whole numbers and other numbers are
different values, and the members of an object keep their order, although equality does not look
at it.
-/

namespace Flowline

/-- An association list: each key is meant to occur once, and the order of the entries is kept. -/
abbrev Entries (α : Type) := List (String × α)

namespace Entries

variable {α : Type}

/-- The value at a key. -/
def get? (entries : Entries α) (key : String) : Option α :=
  (entries.find? (·.1 == key)).map (·.2)

/-- Some entry has this key. -/
def has (entries : Entries α) (key : String) : Bool := entries.any (·.1 == key)

/-- Set the value at a key: in place if the key is there, else in a new last entry. -/
def put : Entries α → String → α → Entries α
  | [], key, value => [(key, value)]
  | (k, v) :: rest, key, value =>
    if k == key then (k, value) :: rest else (k, v) :: put rest key value

/-- Without the entries of a key. -/
def remove (entries : Entries α) (key : String) : Entries α := entries.filter (·.1 != key)

/-- All keys, in order. -/
def keys (entries : Entries α) : List String := entries.map (·.1)

/-- The entries put one after the other onto others. -/
def putAll (onto entries : Entries α) : Entries α :=
  entries.foldl (fun m e => m.put e.1 e.2) onto

/-- One entry for each key: the place of its first occurrence and the value of its last. -/
def ofList (entries : List (String × α)) : Entries α := putAll [] entries

end Entries

/-- A value. -/
inductive Json where
  | null
  | bool (b : Bool)
  | int (n : Int)
  | float (x : Double)
  | str (s : String)
  | arr (elements : List Json)
  | obj (members : List (String × Json))
deriving Inhabited

namespace Json

mutual

/-- Equality of values. Whole numbers never equal other numbers, and the order of members does not
matter. -/
def same : Json → Json → Bool
  | null, null => true
  | bool a, bool b => a == b
  | int a, int b => a == b
  | float a, float b => a.same b
  | str a, str b => a == b
  | arr as, arr bs => sameElements as bs
  | obj as, obj bs => as.length == bs.length && sameMembers as bs
  | _, _ => false

/-- Equality element by element. -/
def sameElements : List Json → List Json → Bool
  | [], [] => true
  | a :: as, b :: bs => same a b && sameElements as bs
  | _, _ => false

/-- Every member of the first list has an equal one of its name in the second. -/
def sameMembers : List (String × Json) → List (String × Json) → Bool
  | [], _ => true
  | (k, a) :: as, bs =>
    (match Entries.get? bs k with
      | some b => same a b
      | none => false) && sameMembers as bs

end

instance : BEq Json := ⟨same⟩

/-- The member of an object. -/
def member? (value : Json) (key : String) : Option Json :=
  match value with
  | obj members => Entries.get? members key
  | _ => none

/-- The text of a string. -/
def asStr? : Json → Option String
  | str s => some s
  | _ => none

/-- The elements of an array. -/
def asArr? : Json → Option (List Json)
  | arr elements => some elements
  | _ => none

/-- The number as the nearest 64-bit floating-point one. -/
def asDouble? : Json → Option Double
  | int n => some (Double.ofInt n)
  | float x => some x
  | _ => none

end Json

end Flowline
