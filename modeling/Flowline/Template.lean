import Flowline.Json.Writer
import Flowline.Path.Reader

/-!
# Templates

A template is a text with tokens: two opening braces, a body without braces, two closing braces. A
body that begins with a dollar sign names a variable, any other is a path into the data. A token
that denotes nothing renders as the empty text.
-/

namespace Flowline

/-- What a template may refer to: the outputs produced so far, and the variables. -/
structure Scope where
  data : Json
  env : Entries String

/-- A piece of a template. -/
inductive Piece where
  | char (c : Char)
  | token (body : List Char)
deriving DecidableEq

namespace Template

/-- A brace. -/
def isBrace (c : Char) : Bool := c == '\x7b' || c == '\x7d'

/-- Split a template into its pieces. -/
def pieces (text : List Char) : List Piece :=
  match text with
  | [] => []
  | '\x7b' :: '\x7b' :: rest =>
    match _hrest : rest.dropWhile (!isBrace ·) with
    | '\x7d' :: '\x7d' :: after => .token (rest.takeWhile (!isBrace ·)) :: pieces after
    | _ => .char '\x7b' :: pieces ('\x7b' :: rest)
  | c :: rest => .char c :: pieces rest
termination_by text.length
decreasing_by
  · have h : (rest.dropWhile (!isBrace ·)).length ≤ rest.length :=
      (List.dropWhile_sublist _).length_le
    rw [_hrest] at h
    simp at h ⊢
    omega
  · simp
  · simp

/-- The text of a value inside a longer text. -/
def stringify : Json → String
  | .null => ""
  | .str s => s
  | value => value.write

/-- What the body of a token denotes. -/
def resolve (token : List Char) (scope : Scope) : Except QueryError (Option Json) :=
  match trimChars token with
  | [] => .ok none
  | '$' :: name => .ok ((scope.env.get? (String.ofList (trimChars name))).map .str)
  | path => query scope.data (String.ofList path)

/-- The text of one piece. -/
def Piece.render (scope : Scope) : Piece → Except QueryError String
  | .char c => .ok (String.singleton c)
  | .token body => (resolve body scope).map fun value => (value.map stringify).getD ""

/-- The text of a template. -/
def render (template : String) (scope : Scope) : Except QueryError String :=
  ((pieces template.toList).mapM (Piece.render scope)).map String.join

/-- The value of a template: what its token denotes if it is a single token between blanks, else
its text. -/
def renderValue (template : String) (scope : Scope) : Except QueryError Json :=
  match pieces (trimChars template.toList) with
  | [.token body] => (resolve body scope).map (·.getD .null)
  | _ => (render template scope).map .str

end Template

end Flowline
