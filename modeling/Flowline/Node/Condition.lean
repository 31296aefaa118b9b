import Flowline.Json.Encode
import Flowline.Node.Context
import Flowline.Text.Search

/-!
# Conditions

`CompareOp.holds` compares two texts: as numbers if both are, else by the order of their
characters. A conditional node goes on along the branch of its first condition that holds, and
renders no operand behind it.
-/

namespace Flowline

/-- The texts in the order of their characters. -/
def compareText (a b : String) : Ordering :=
  if a = b then .eq else if a < b then .lt else .gt

/-- Two texts as numbers, if both are; else as texts. No order at all if one is a number that
cannot be compared. -/
def compareOperands (a b : String) : Option Ordering :=
  match Real64.read? a, Real64.read? b with
  | some x, some y =>
    if x.eq y then some .eq
    else if x.lt y then some .lt
    else if y.lt x then some .gt
    else none
  | _, _ => some (compareText a b)

/-- The comparison holds of two texts, blanks around them aside. -/
def CompareOp.holds (op : CompareOp) (left right : String) : Bool :=
  let left := trim left
  let right := trim right
  match op with
  | .eq => compareOperands left right == some .eq
  | .ne => compareOperands left right != some .eq
  | .ge => compareOperands left right == some .gt || compareOperands left right == some .eq
  | .le => compareOperands left right == some .lt || compareOperands left right == some .eq
  | .contains => occursIn right left

namespace ConditionalConfig

/-- The number of the first condition that holds, counted from `index`. -/
def firstHolding (ctx : NodeContext) (index : Nat) :
    List Condition → Except NodeError (Option Nat)
  | [] => .ok none
  | c :: rest => do
    let left ← ctx.render c.field
    let right ← ctx.render c.value
    if c.operator.holds left right then return some index
    firstHolding ctx (index + 1) rest

/-- Choose a branch. -/
def outcome (c : ConditionalConfig) (ctx : NodeContext) : Outcome := do
  let index ← firstHolding ctx 0 c.conditions
  let data := Json.obj [
    ("branch", (index.map Json.ofNat).getD (.str "else")),
    ("conditionIndex", (index.map Json.ofNat).getD .null),
    ("input", ctx.primaryInput)]
  return { data, propagation := .branch index c.conditions.length }

end ConditionalConfig

end Flowline
