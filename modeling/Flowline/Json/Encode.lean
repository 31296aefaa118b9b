import Flowline.Json.Basic

/-!
# Encoding records

Small encoders that records put their members together from.
-/

namespace Flowline

namespace Json

/-- A member that is written only when it has a value. -/
def optional {α : Type} (name : String) (encode : α → Json) (value : Option α) :
    List (String × Json) :=
  match value with
  | some a => [(name, encode a)]
  | none => []

/-- A natural number as a value. -/
def ofNat (n : Nat) : Json := .int n

/-- An array of encoded values. -/
def ofList {α : Type} (encode : α → Json) (values : List α) : Json := .arr (values.map encode)

/-- A dictionary of strings. -/
def ofStrings (entries : Entries String) : Json := .obj (entries.map fun e => (e.1, .str e.2))

/-- The name of one of a few cases. -/
def ofName {α : Type} [DecidableEq α] (names : List (String × α)) (a : α) : Json :=
  .str (((names.find? fun e => e.2 = a).map (·.1)).getD "")

end Json

end Flowline
