import Narrative.Text.Numeral

/-!
This module contains JSON values. An object is the list of its fields in the order in which they were
written, which is what decides the order in which effects apply.
-/

namespace Narrative

/--
A JSON number: a literal without fraction and exponent that fits 64 bits is an integer, every other one
a double.
-/
inductive Json.Number where
  | int (n : Int)
  | double (x : Float)

inductive Json where
  | null
  | bool (b : Bool)
  | number (n : Json.Number)
  | string (s : String)
  | array (items : List Json)
  | object (fields : List (String × Json))

namespace Json

instance : Inhabited Json := ⟨.null⟩

/--
The number as a signed 64 bit word, if it is an integer and fits.
-/
def Number.int64? : Number → Option Int64
  | .int n => Text.word? n
  | .double _ => none

/--
The value as a signed 64 bit word, if it is an integer that fits.
-/
def int64? : Json → Option Int64
  | .number n => n.int64?
  | _ => none

def string? : Json → Option String
  | .string s => some s
  | _ => none

/--
Give a field its value: in place, where the object has such a field, otherwise at the end.
-/
def setField (name : String) (value : Json) : List (String × Json) → List (String × Json)
  | [] => [(name, value)]
  | (other, held) :: rest =>
    if other = name then
      (other, value) :: rest
    else
      (other, held) :: setField name value rest

/--
Fields of one name made one, which stands where the first stood and has the value of the last.
-/
def mergeFields (fields : List (String × Json)) : List (String × Json) :=
  fields.foldl (fun merged (name, value) => setField name value merged) []

mutual

/--
The value with the fields of one name merged, in every object.
-/
def merge : Json → Json
  | .array items => .array (mergeItems items)
  | .object fields => .object (mergeFields (mergeEach fields))
  | other => other

/--
The values of a list, each with its fields merged.
-/
def mergeItems : List Json → List Json
  | [] => []
  | item :: rest => item.merge :: mergeItems rest

/--
The fields of a list, the value of each with its fields merged.
-/
def mergeEach : List (String × Json) → List (String × Json)
  | [] => []
  | (name, value) :: rest => (name, value.merge) :: mergeEach rest

end

end Json

end Narrative
