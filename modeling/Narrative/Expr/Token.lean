import Narrative.Expr.Basic

/-!
This module contains the tokens of comparison expressions, their recognition in a text, and the errors
that a text can have.
-/

namespace Narrative.Expr

inductive Token where
  | name (s : String)
  | integer (n : Int64)
  | operator (op : Comparison)
  deriving DecidableEq, Repr

def Token.describe : Token → String
  | .name s => s!"identifier '{s}'"
  | .integer n => s!"integer {n.toInt}"
  | .operator op => s!"operator '{op.symbol}'"

/--
A place of an expression that has to be filled.
-/
inductive Place where
  | operand
  | operator
  | integer
  deriving DecidableEq, Repr

def Place.describe : Place → String
  | .operand => "identifier or integer"
  | .operator => "comparison operator"
  | .integer => "integer"

/--
Why a text is no expression. What was found at a place is missing at the end of the text.
-/
inductive Error where
  | empty
  | unexpectedChar (c : Char) (position : Nat)
  | unknownOperator (symbol : String)
  | integerOverflow (literal : String)
  | unexpected (place : Place) (found : Option Token)
  | trailing (tokens : List Token)
  deriving DecidableEq, Repr

/--
The message of an error. Positions count characters from zero.
-/
def Error.message : Error → String
  | .empty => "empty expression"
  | .unexpectedChar c position => s!"unexpected character '{c}' at position {position}"
  | .unknownOperator symbol => s!"unknown operator '{symbol}'"
  | .integerOverflow literal => s!"integer literal out of range: {literal}"
  | .unexpected place none => s!"expected {place.describe}, found end of input"
  | .unexpected place (some token) => s!"expected {place.describe}, found {token.describe}"
  | .trailing tokens =>
    "trailing input after expression: " ++ " ".intercalate (tokens.map Token.describe)

def isNameStart (c : Char) : Bool :=
  c.isAlpha || c == '_'

def isNameChar (c : Char) : Bool :=
  c.isAlphanum || c == '_'

def isOperatorChar (c : Char) : Bool :=
  c == '<' || c == '>' || c == '=' || c == '!'

/--
Whether an integer begins with the given character, which is followed by `rest`.
-/
def startsInteger (c : Char) (rest : List Char) : Bool :=
  c.isDigit || (c == '-' && (rest.head?.any Char.isDigit))

/--
The tokens of a text whose first character stands at the given position. Names, integers and operators
are as long as possible, so `=>` is one unknown operator.
-/
def tokensAt (position : Nat) : List Char → Except Error (List Token)
  | [] => .ok []
  | c :: rest =>
    if Text.isBlank c then
      tokensAt (position + 1) rest
    else if isNameStart c then
      let more := rest.takeWhile isNameChar
      (tokensAt (position + 1 + more.length) (rest.dropWhile isNameChar)).map
        (.name (String.ofList (c :: more)) :: ·)
    else if startsInteger c rest then
      let more := rest.takeWhile Char.isDigit
      match Text.int64? (c :: more) with
      | some n =>
        (tokensAt (position + 1 + more.length) (rest.dropWhile Char.isDigit)).map (.integer n :: ·)
      | none => .error (.integerOverflow (String.ofList (c :: more)))
    else if isOperatorChar c then
      let more := rest.takeWhile isOperatorChar
      let symbol := String.ofList (c :: more)
      match Comparison.ofSymbol? symbol with
      | some op =>
        (tokensAt (position + 1 + more.length) (rest.dropWhile isOperatorChar)).map
          (.operator op :: ·)
      | none => .error (.unknownOperator symbol)
    else
      .error (.unexpectedChar c position)
termination_by cs => cs.length
decreasing_by
  · simp
  all_goals
    simp only [List.length_cons]
    have hle := fun q : Char → Bool => (List.dropWhile_sublist q (l := rest)).length_le
    exact Nat.lt_succ_of_le (hle _)

def tokens (cs : List Char) : Except Error (List Token) :=
  tokensAt 0 cs

end Narrative.Expr
