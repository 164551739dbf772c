import Narrative.Json.Token

/-!
This module contains the reading of JSON texts. The reader walks once over the tokens and keeps the
arrays and objects that are still open on a stack, so that the height of the stack is the depth of the
value.
-/

namespace Narrative.Json

/--
An array or object that is still open: what it holds so far, latest first, and for an object the name of
the field whose value comes next.
-/
inductive Frame where
  | array (done : List Json)
  | object (done : List (String × Json)) (name : String)

/--
The number of arrays and objects that may be open at a time.
-/
def depthLimit : Nat := 127

mutual

def readValue : List Token → List Frame → Option Json
  | .null :: rest, frames => readAfter .null rest frames
  | .bool b :: rest, frames => readAfter (.bool b) rest frames
  | .number n :: rest, frames => readAfter (.number n) rest frames
  | .string s :: rest, frames => readAfter (.string s) rest frames
  | .openArray :: .closeArray :: rest, frames =>
    if frames.length < depthLimit then readAfter (.array []) rest frames else none
  | .openArray :: rest, frames =>
    if frames.length < depthLimit then readValue rest (.array [] :: frames) else none
  | .openObject :: .closeObject :: rest, frames =>
    if frames.length < depthLimit then readAfter (.object []) rest frames else none
  | .openObject :: .string name :: .colon :: rest, frames =>
    if frames.length < depthLimit then readValue rest (.object [] name :: frames) else none
  | _, _ => none

def readAfter (value : Json) : List Token → List Frame → Option Json
  | [], [] => some value
  | .comma :: rest, .array done :: frames => readValue rest (.array (value :: done) :: frames)
  | .closeArray :: rest, .array done :: frames =>
    readAfter (.array (value :: done).reverse) rest frames
  | .comma :: .string next :: .colon :: rest, .object done name :: frames =>
    readValue rest (.object ((name, value) :: done) next :: frames)
  | .closeObject :: rest, .object done name :: frames =>
    readAfter (.object ((name, value) :: done).reverse) rest frames
  | _, _ => none

end

/--
The value of a text with every field as written, also several of one name.
-/
def parseFields? (text : String) : Option Json :=
  match tokens? text.toList with
  | some ts => readValue ts []
  | none => none

def parse? (text : String) : Option Json :=
  (parseFields? text).map merge

end Narrative.Json
