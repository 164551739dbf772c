import Narrative.Expr.Basic

/-!
This module contains conditions on the player's progress and their truth.
-/

namespace Narrative

/--
What a status has to equal. A number is compared with the stat of that name.
-/
inductive Expected where
  | number (n : Int64)
  | text (s : String)
  deriving DecidableEq, Repr

/--
A condition. What could not be understood is kept as `malformed` and never holds.
-/
inductive Condition where
  | always
  | all (parts : List Condition)
  | any (parts : List Condition)
  | expr (e : Expr)
  | compare (stat : String) (op : Comparison) (value : Int64)
  | status (key : String) (expected : Expected)
  | hasItems (items : List String)
  | lacksItems (items : List String)
  | revealed (chapters : List String)
  | notRevealed (chapters : List String)
  | malformed (reason : String)
  deriving Repr

namespace Condition

instance : Inhabited Condition := ⟨.always⟩

mutual

/--
Whether the condition holds for a player, names in expressions standing for their bound values first.
-/
def holds (bindings : Bindings) (p : Player) : Condition → Bool
  | .always => true
  | .all parts => allHold bindings p parts
  | .any parts => anyHolds bindings p parts
  | .expr e => e.holds bindings p
  | .compare stat op value => op.holds (p.stat stat) value
  | .status key (.text s) => p.status? key == some s
  | .status key (.number n) => p.stat key == n
  | .hasItems items => p.hasAllItems items
  | .lacksItems items => !p.hasAnyItem items
  | .revealed chapters => chapters.all p.isRevealed
  | .notRevealed chapters => !chapters.any p.isRevealed
  | .malformed _ => false

def allHold (bindings : Bindings) (p : Player) : List Condition → Bool
  | [] => true
  | part :: rest => part.holds bindings p && allHold bindings p rest

def anyHolds (bindings : Bindings) (p : Player) : List Condition → Bool
  | [] => false
  | part :: rest => part.holds bindings p || anyHolds bindings p rest

end

/--
Whether the condition holds for a player, without bound names.
-/
def met (c : Condition) (p : Player) : Bool :=
  c.holds .empty p

def isAlways : Condition → Bool
  | .always => true
  | _ => false

mutual

def problems : Condition → List String
  | .malformed reason => [reason]
  | .all parts => problemsOf parts
  | .any parts => problemsOf parts
  | _ => []

/--
The reasons of the malformed parts of a list of conditions.
-/
def problemsOf : List Condition → List String
  | [] => []
  | part :: rest => part.problems ++ problemsOf rest

end

theorem allHold_eq_all (bindings : Bindings) (p : Player) (parts : List Condition) :
    allHold bindings p parts = parts.all (·.holds bindings p) := by
  induction parts with
  | nil => simp [allHold]
  | cons part rest ih => simp [allHold, ih]

theorem anyHolds_eq_any (bindings : Bindings) (p : Player) (parts : List Condition) :
    anyHolds bindings p parts = parts.any (·.holds bindings p) := by
  induction parts with
  | nil => simp [anyHolds]
  | cons part rest ih => simp [anyHolds, ih]

theorem problemsOf_eq_flatMap (parts : List Condition) :
    problemsOf parts = parts.flatMap problems := by
  induction parts with
  | nil => simp [problemsOf]
  | cons part rest ih => simp [problemsOf, ih]

end Condition

end Narrative
