import Narrative.Expr.Token

/-!
This module contains the reading of comparison expressions from texts.
-/

namespace Narrative.Expr

def ofTokens : List Token → Except Error Expr
  | [] => .error .empty
  | .name s :: rest => afterOperand (.name s) rest
  | .integer n :: rest => afterOperand (.literal n) rest
  | token :: _ => .error (.unexpected .operand (some token))
where
  afterOperand (left : Operand) : List Token → Except Error Expr
    | .operator op :: rest => afterOperator left op rest
    | rest => .error (.unexpected .operator rest.head?)
  afterOperator (left : Operand) (op : Comparison) : List Token → Except Error Expr
    | [.integer n] => .ok ⟨left, op, n⟩
    | .integer _ :: rest => .error (.trailing rest)
    | rest => .error (.unexpected .integer rest.head?)

/--
The expression of a text. Blanks between the tokens are ignored.
-/
def parse (text : String) : Except Error Expr :=
  (tokens text.toList).bind ofTokens

end Narrative.Expr
