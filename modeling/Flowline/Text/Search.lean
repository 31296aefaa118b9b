/-!
# Finding and splitting

Search for a text in another, and splitting at a character.
-/

namespace Flowline

/-- The first list occurs in the second as a run of neighbours. -/
def infixOf (part : List Char) : List Char → Bool
  | [] => part.isEmpty
  | c :: rest => part.isPrefixOf (c :: rest) || infixOf part rest

/-- The first text occurs in the second. -/
def occursIn (part whole : String) : Bool := infixOf part.toList whole.toList

/-- The pieces between the occurrences of a character; there is always at least one. -/
def splitEach (separator : Char) : List Char → List (List Char)
  | [] => [[]]
  | c :: rest =>
    if c = separator then [] :: splitEach separator rest
    else match splitEach separator rest with
      | piece :: pieces => (c :: piece) :: pieces
      | [] => [[c]]

/-- What stands before and behind the first occurrence of a character, if there is one. -/
def splitFirst? (separator : Char) : List Char → Option (List Char × List Char)
  | [] => none
  | c :: rest =>
    if c = separator then some ([], rest)
    else (splitFirst? separator rest).map fun p => (c :: p.1, p.2)

end Flowline
