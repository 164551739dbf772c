import Narrative.Condition.Basic
import Narrative.Expr.Parser
import Narrative.Json.Printer

/-!
This module contains the reading of conditions from JSON values. Reading never fails: what cannot be
understood becomes a malformed condition with a reason.
-/

namespace Narrative.Condition

def isStatusKey (key : String) : Bool :=
  Text.endsIn "_status".toList key

/--
The conjunction of clauses; a single clause stands alone.
-/
def conjunction : List Condition → Condition
  | [] => .always
  | [clause] => clause
  | clauses => .all clauses

/--
The ids of a value that names one or lists several.
-/
def ids (key : String) : Json → Except String (List String)
  | .string s => .ok [s]
  | .array items =>
    items.mapM fun
      | .string s => .ok s
      | item => .error s!"'{key}' expects ids, found {item}"
  | other => .error s!"'{key}' expects an id or a list of ids, found {other}"

/--
The condition on the ids of a value, malformed where there are none.
-/
def ofIds (make : List String → Condition) (key : String) (value : Json) : Condition :=
  match ids key value with
  | .ok found => make found
  | .error reason => .malformed reason

def ofStatus (key : String) : Json → Condition
  | .string s => .status key (.text s)
  | .number n =>
    match n.int64? with
    | some value => .status key (.number value)
    | none => .malformed s!"'{key}' expects an integer, found {Json.number n}"
  | other => .malformed s!"'{key}' cannot equal {other}"

/--
The comparison of a stat that one entry of an operator object states.
-/
def ofOperator (key symbol : String) (operand : Json) : Condition :=
  match Comparison.ofSymbol? symbol with
  | none => .malformed s!"'{key}': {(Expr.Error.unknownOperator symbol).message}"
  | some op =>
    match operand.int64? with
    | some value => .compare key op value
    | none => .malformed s!"'{key}' expects an integer operand, found {operand}"

/--
The condition of an operator object: each of its comparisons.
-/
def ofOperators (key : String) : List (String × Json) → Condition
  | [] => .malformed s!"'{key}' has an empty operator object"
  | entries => conjunction (entries.map (fun (symbol, operand) => ofOperator key symbol operand))

/--
The shorthand `N+`: the stat is at least `N`.
-/
def ofShorthand (key s : String) : Condition :=
  match Text.leadingInteger? s.toList with
  | some least => .compare key .ge least
  | none => .malformed s!"'{key}': bad shorthand '{s}'"

def ofStat (key : String) : Json → Condition
  | .object entries => ofOperators key entries
  | .number n =>
    match n.int64? with
    | some least => .compare key .ge least
    | none => .malformed s!"'{key}' expects an integer, found {Json.number n}"
  | .string s =>
    match Text.int64? (Text.trim s.toList) with
    | some least => .compare key .ge least
    | none => .malformed s!"'{key}' expects a number, found '{s}'"
  | other => .malformed s!"'{key}' cannot be compared with {other}"

/--
The clause of a key that is neither a status nor paired with a shorthand: items, revealed chapters, or
a stat.
-/
def ofPlain (key : String) (value : Json) : Condition :=
  match key with
  | "inventory" => ofIds .hasItems key value
  | "not_inventory" => ofIds .lacksItems key value
  | "revealed" => ofIds .revealed key value
  | "not_revealed" => ofIds .notRevealed key value
  | _ => ofStat key value

/--
The clause of a key and its value. A status key comes first, then the shorthand, then the keys of items
and chapters, then stats.
-/
def ofClause (key : String) (value : Json) : Condition :=
  if isStatusKey key then
    ofStatus key value
  else
    match value with
    | .string s => if s.toList.contains '+' then ofShorthand key s else ofPlain key value
    | _ => ofPlain key value

def ofExpr (s : String) : Condition :=
  match Expr.parse s with
  | .ok e => .expr e
  | .error e => .malformed s!"expression '{s}': {e.message}"

mutual

/--
The condition of a nested value: an expression or an object. An object with the key `any` is decided by
that list alone; otherwise each of its keys is a clause.
-/
def ofEntry : Json → Condition
  | .string s => ofExpr s
  | .object fields =>
    match ofAny fields with
    | some alternatives => alternatives
    | none => conjunction (ofClauses fields)
  | other => .malformed s!"not a condition: {other}"

/--
The alternatives of an object, if it has the key `any`.
-/
def ofAny : List (String × Json) → Option Condition
  | [] => none
  | (key, value) :: rest =>
    if key = "any" then
      match value with
      | .array items => some (.any (ofEntries items))
      | other => some (.malformed s!"'any' expects a list, found {other}")
    else
      ofAny rest

def ofClauses : List (String × Json) → List Condition
  | [] => []
  | (key, value) :: rest =>
    let clause :=
      if key = "all" then
        match value with
        | .array items => .all (ofEntries items)
        | other => .malformed s!"'all' expects a list, found {other}"
      else
        ofClause key value
    clause :: ofClauses rest

def ofEntries : List Json → List Condition
  | [] => []
  | item :: rest => ofEntry item :: ofEntries rest

end

/--
The condition of a value where a condition may be left out: `null`, an empty object and a blank text
require nothing.
-/
def ofJson : Json → Condition
  | .null => .always
  | .object [] => .always
  | .string s => if (Text.trim s.toList).isEmpty then .always else ofEntry (.string s)
  | value => ofEntry value

/--
The condition of a value where a condition has to be stated.
-/
def ofRequired : Json → Condition
  | .null => .malformed "missing condition"
  | value => ofEntry value

end Narrative.Condition
