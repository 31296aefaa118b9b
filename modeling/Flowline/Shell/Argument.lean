import Flowline.Shell.Filter
import Flowline.Shell.Machine

/-!
# Arguments of commands

What the commands of the shell itself read their arguments by, numbers and options, and how they
show a text so that it can be read again.
-/

namespace Flowline.Shell

open Script

/-! ## Quotes -/

/-- The rest of a quoted text: single quotes in it stand between double ones, and what stands
between single ones goes on unless `doubled`. -/
def quoteChars (doubled : Bool) : List Char → List Char
  | [] => if doubled then ['"'] else ['\'']
  | c :: rest =>
    if c == '\'' then
      if doubled then c :: quoteChars true rest else '\'' :: '"' :: c :: quoteChars true rest
    else if doubled then '"' :: '\'' :: c :: quoteChars false rest
    else c :: quoteChars false rest

/-- A text between quotes that protect all of it. -/
def quoteText (s : String) : String := String.ofList ('\'' :: quoteChars false s.toList)

/-! ## Numbers -/

/-- A number as an argument: of digits alone, and small. -/
def smallNumber? (s : String) : Option Nat := readNat? (Nat.pow 2 31 - 1) s

/-- The number that an argument is; another one is an error. -/
def numberOf (s : String) : Script Nat :=
  match smallNumber? s with
  | some n => return n
  | none => die ("Illegal number: " ++ s)

/-! ## Options -/

/-- The options in front of the arguments of a command, which has some with a value and some
without one. Another option is an error, and so is a missing value. -/
def readOptions (valued plain : String) (args : List String) : Script Filter.Arguments := do
  let a := Filter.Arguments.read valued plain false (args.length + 1) {} args
  match a.unknown, a.unvalued with
  | some c, _ => die ("Illegal option -" ++ String.singleton c)
  | none, some c => die ("No arg for -" ++ String.singleton c ++ " option")
  | none, none => return a

end Flowline.Shell
