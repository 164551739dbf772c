import Narrative.Player.Basic
import Narrative.Text.Numeral

/-!
This module contains comparison expressions such as `magic>=5`: an operand, an operator and an integer.
-/

namespace Narrative

inductive Comparison where
  | lt
  | gt
  | le
  | ge
  | eq
  | ne
  deriving DecidableEq, Repr

namespace Comparison

def holds (op : Comparison) (left right : Int64) : Bool :=
  match op with
  | .lt => left < right
  | .gt => left > right
  | .le => left ≤ right
  | .ge => left ≥ right
  | .eq => left = right
  | .ne => left ≠ right

def symbol : Comparison → String
  | .lt => "<"
  | .gt => ">"
  | .le => "<="
  | .ge => ">="
  | .eq => "=="
  | .ne => "!="

/--
The operator of a spelling. Equality has two.
-/
def ofSymbol? (s : String) : Option Comparison :=
  match s with
  | "<" => some .lt
  | ">" => some .gt
  | "<=" => some .le
  | ">=" => some .ge
  | "=" => some .eq
  | "==" => some .eq
  | "!=" => some .ne
  | _ => none

theorem ofSymbol?_symbol (op : Comparison) : ofSymbol? op.symbol = some op := by
  cases op <;> decide

end Comparison

/--
The left side of a comparison: a name that stands for a value, or an integer.
-/
inductive Operand where
  | name (s : String)
  | literal (n : Int64)
  deriving DecidableEq, Repr

/--
Values that names stand for in place of the player's stats.
-/
abbrev Bindings := Table Int64

structure Expr where
  left : Operand
  op : Comparison
  right : Int64
  deriving DecidableEq, Repr

/--
The value of an operand: a bound name before a stat of that name.
-/
def Operand.value (bindings : Bindings) (p : Player) : Operand → Int64
  | .literal n => n
  | .name s => (bindings.get? s).getD (p.stat s)

def Operand.write : Operand → List Char
  | .name s => s.toList
  | .literal n => Text.integer n.toInt

namespace Expr

def holds (e : Expr) (bindings : Bindings) (p : Player) : Bool :=
  e.op.holds (e.left.value bindings p) e.right

def write (e : Expr) : List Char :=
  e.left.write ++ e.op.symbol.toList ++ Text.integer e.right.toInt

def text (e : Expr) : String :=
  String.ofList e.write

end Expr

end Narrative
