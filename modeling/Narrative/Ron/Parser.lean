import Narrative.Ron.Basic
import Narrative.Ron.Token

/-!
This module contains the reading of RON texts: the attributes that switch on extensions, and one value.
The reader keeps what is still open on a stack and limits its height.
-/

namespace Narrative.Ron

/--
What is still open: what it holds so far, latest first, and the name or key whose value comes next.
-/
inductive Frame where
  | list (done : List Ron)
  | key (done : List (Ron × Ron))
  | entry (done : List (Ron × Ron)) (key : Ron)
  | tuple (name : Option String) (done : List Ron)
  | field (name : Option String) (done : List (String × Ron)) (key : String)
  | optional
  /-- An optional value without parentheses. -/
  | bare

/--
The height of a stack: two for each bracket and what stands in it, one for an optional value.
-/
def height : List Frame → Nat
  | [] => 0
  | .optional :: rest => height rest + 1
  | .bare :: rest => height rest + 1
  | _ :: rest => height rest + 2

def heightLimit : Nat := 128

/--
The words that cannot be the name of a tuple or record.
-/
def reserved : List String := ["true", "false", "None", "inf", "NaN", "Some"]

def canName : Option String → Bool
  | none => true
  | some name => !reserved.contains name && (isName name || isMarked name)

/--
A value together with what stays open behind it, where the optional values without parentheses that
end with it are closed.
-/
def settle (value : Ron) : List Frame → Ron × List Frame
  | .bare :: frames => settle (.optional value) frames
  | frames => (value, frames)

mutual

/--
Read on where a value has to begin. Optional values may go without parentheses if `implicit` is set.
-/
def readValue (implicit : Bool) : List Token → List Frame → Option Ron
  | .word w :: rest, frames =>
    if w == "Some" then
      if implicit && height frames < heightLimit then
        readValue implicit rest (.bare :: frames)
      else
        none
    else
      readAfter implicit (.word w) rest frames
  | .unit :: rest, frames => readAfter implicit (.tuple none []) rest frames
  | .rawName w :: rest, frames => readAfter implicit (.word (mark w)) rest frames
  | .text s :: rest, frames => readAfter implicit (.text s) rest frames
  | .char c :: rest, frames => readAfter implicit (.char c) rest frames
  | .openList :: .closeList :: rest, frames =>
    if height frames < heightLimit then readAfter implicit (.list []) rest frames else none
  | .openList :: rest, frames =>
    if height frames + 2 ≤ heightLimit then readValue implicit rest (.list [] :: frames) else none
  | .openMap :: .closeMap :: rest, frames =>
    if height frames < heightLimit then readAfter implicit (.map []) rest frames else none
  | .openMap :: rest, frames =>
    if height frames + 2 ≤ heightLimit then readValue implicit rest (.key [] :: frames) else none
  | .openParen name :: .closeParen :: rest, frames =>
    if canName name && height frames < heightLimit then
      readAfter implicit (.tuple name []) rest frames
    else
      none
  | .openParen name :: .word w :: .colon :: rest, frames =>
    if canName name && isName w && height frames + 2 ≤ heightLimit then
      readValue implicit rest (.field name [] w :: frames)
    else
      none
  | .openParen name :: .rawName w :: .colon :: rest, frames =>
    if canName name && height frames + 2 ≤ heightLimit then
      readValue implicit rest (.field name [] w :: frames)
    else
      none
  | .openParen name :: rest, frames =>
    if name == some "Some" then
      if height frames < heightLimit then readValue implicit rest (.optional :: frames) else none
    else if canName name && height frames + 2 ≤ heightLimit then
      readValue implicit rest (.tuple name [] :: frames)
    else
      none
  | _, _ => none

def readAfter (implicit : Bool) (value : Ron) (tokens : List Token) (frames : List Frame) :
    Option Ron :=
  match tokens, settle value frames with
  | [], (value, []) => some value
  | .comma :: .closeList :: rest, (value, .list done :: frames) =>
    readAfter implicit (.list (value :: done).reverse) rest frames
  | .closeList :: rest, (value, .list done :: frames) =>
    readAfter implicit (.list (value :: done).reverse) rest frames
  | .comma :: rest, (value, .list done :: frames) =>
    readValue implicit rest (.list (value :: done) :: frames)
  | .colon :: rest, (value, .key done :: frames) =>
    readValue implicit rest (.entry done value :: frames)
  | .comma :: .closeMap :: rest, (value, .entry done key :: frames) =>
    readAfter implicit (.map ((key, value) :: done).reverse) rest frames
  | .closeMap :: rest, (value, .entry done key :: frames) =>
    readAfter implicit (.map ((key, value) :: done).reverse) rest frames
  | .comma :: rest, (value, .entry done key :: frames) =>
    readValue implicit rest (.key ((key, value) :: done) :: frames)
  | .comma :: .closeParen :: rest, (value, .tuple name done :: frames) =>
    readAfter implicit (.tuple name (value :: done).reverse) rest frames
  | .closeParen :: rest, (value, .tuple name done :: frames) =>
    readAfter implicit (.tuple name (value :: done).reverse) rest frames
  | .comma :: rest, (value, .tuple name done :: frames) =>
    readValue implicit rest (.tuple name (value :: done) :: frames)
  | .comma :: .closeParen :: rest, (value, .field name done key :: frames) =>
    readAfter implicit (.record name ((key, value) :: done).reverse) rest frames
  | .closeParen :: rest, (value, .field name done key :: frames) =>
    readAfter implicit (.record name ((key, value) :: done).reverse) rest frames
  | .comma :: .word w :: .colon :: rest, (value, .field name done key :: frames) =>
    if isName w then
      readValue implicit rest (.field name ((key, value) :: done) w :: frames)
    else
      none
  | .comma :: .rawName w :: .colon :: rest, (value, .field name done key :: frames) =>
    readValue implicit rest (.field name ((key, value) :: done) w :: frames)
  | .comma :: .closeParen :: rest, (value, .optional :: frames) =>
    readAfter implicit (.optional value) rest frames
  | .closeParen :: rest, (value, .optional :: frames) =>
    readAfter implicit (.optional value) rest frames
  | _, _ => none

end

/--
What may be switched on in front of a value. Only `implicitSome` changes how a value is read.
-/
inductive Extension where
  | implicitSome
  | unwrapNewtypes
  | unwrapVariantNewtypes
  deriving DecidableEq

def Extension.ofToken? (token : Token) : Option Extension :=
  match token with
  | .word w | .rawName w =>
    match w with
    | "implicit_some" => some .implicitSome
    | "unwrap_newtypes" => some .unwrapNewtypes
    | "unwrap_variant_newtypes" => some .unwrapVariantNewtypes
    | _ => none
  | _ => none

/--
The extensions that an attribute names and what stands behind it. There are commas between the names,
of which the last may be followed by one, too.
-/
def extensions? : List Token → Option (List Extension × List Token)
  | name :: .comma :: .closeParen :: .closeList :: rest => do
    return ([← Extension.ofToken? name], rest)
  | name :: .closeParen :: .closeList :: rest => do
    return ([← Extension.ofToken? name], rest)
  | name :: .comma :: rest => do
    let extension ← Extension.ofToken? name
    let (more, behind) ← extensions? rest
    return (extension :: more, behind)
  | _ => none

/--
The extensions that the attributes at the front of a text switch on and what stands behind them. There
are at most as many attributes as tokens.
-/
def attributes? : (count : Nat) → List Token → Option (List Extension × List Token)
  | count + 1, .hash :: .bang :: .openList :: .openParen (some "enable") :: rest => do
    let (extensions, behind) ← extensions? rest
    let (more, value) ← attributes? count behind
    return (extensions ++ more, value)
  | _, rest => some ([], rest)

def parse? (text : String) : Option Ron := do
  let found ← tokens? text.toList
  let (extensions, rest) ← attributes? found.length found
  readValue (extensions.contains .implicitSome) rest []

example : (parse? "#![enable(r#implicit_some)] [Some 1, Some-2, Some(3), Some Some[()]]").isSome := by
  decide +kernel

example : (parse? "[Some 1]").isNone := by
  decide +kernel

mutual

/--
Whether a value is one whatever its type. Only words can fail to be.
-/
def isSound : Ron → Bool
  | .word w => isName w || isMarked w || isNumber w
  | .text _ => true
  | .char _ => true
  | .list items => areSound items
  | .map entries => areSoundEntries entries
  | .tuple _ items => areSound items
  | .record _ fields => areSoundFields fields
  | .optional value => value.isSound

def areSound : List Ron → Bool
  | [] => true
  | item :: rest => item.isSound && areSound rest

/--
Whether every key and value of a map is sound.
-/
def areSoundEntries : List (Ron × Ron) → Bool
  | [] => true
  | (key, value) :: rest => key.isSound && value.isSound && areSoundEntries rest

def areSoundFields : List (String × Ron) → Bool
  | [] => true
  | (_, value) :: rest => value.isSound && areSoundFields rest

end

end Narrative.Ron
