import Flowline.Json.Basic

/-!
# Shapes of values

A `Shape` says which values are asked for, as far as that can be told while their text is read:
which members an object may have and how often, and where a value need not be looked at.
-/

namespace Flowline

namespace Json

/-- What is asked for in the place of a value. -/
inductive Shape where
  /-- Anything, which is passed over and need not denote a value. -/
  | ignored
  /-- Any value. -/
  | value
  /-- Any value, of which all members are kept, also those of the same name. -/
  | written
  /-- A value that is no container and passes a test. -/
  | plain (fits : Json → Bool)
  /-- A value or null. -/
  | nullable (inner : Shape)
  /-- An array of values. -/
  | list (element : Shape)
  /-- An object whose names are free. -/
  | dictionary (member : Shape)
  /-- One of a few names, either alone or as the only member of an object, with null as its
  value. -/
  | variant (names : List String)
  /-- A record: the names of its fields, whether they must be there, and their shapes. -/
  | record (fields : List (String × Bool × Shape))
  /-- A record whose other fields depend on the name in one of them; as a whole it must pass a
  test. -/
  | tagged (tag : String) (names : List String) (fits : Json → Bool)

end Json

end Flowline
