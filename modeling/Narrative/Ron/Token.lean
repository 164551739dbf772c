import Narrative.Json.Token

/-!
This module contains the tokens of RON texts and their recognition. Blanks and comments separate tokens
and mean nothing else. Every step of the recognition takes at least one character, so the length of the
text bounds the number of steps.
-/

namespace Narrative.Ron

/--
A token. Numbers and bare names are both words; a name may stand in front of an opening parenthesis.
-/
inductive Token where
  | openParen (name : Option String)
  | closeParen
  /-- Both parentheses with nothing between them. -/
  | unit
  | openList
  | closeList
  | openMap
  | closeMap
  | colon
  | comma
  | hash
  | bang
  | text (s : String)
  | char (c : Char)
  | word (w : String)
  /-- A name behind the mark `r#`. -/
  | rawName (w : String)
  deriving DecidableEq

def isSpace (c : Char) : Bool :=
  c == ' ' || c == '\n' || c == '\t' || c == '\r'

def startsName (c : Char) : Bool :=
  c.isAlpha || c == '_'

def isNameChar (c : Char) : Bool :=
  c.isAlphanum || c == '_'

def isWordChar (c : Char) : Bool :=
  isNameChar c || c == '.' || c == '+' || c == '-'

def isName (w : String) : Bool :=
  match w.toList with
  | [] => false
  | c :: rest => startsName c && rest.all isNameChar

/--
The word for a marked name. No other word holds the mark.
-/
def mark (name : String) : String :=
  "r#" ++ name

def isMarked (w : String) : Bool :=
  Text.startsIn "r#".toList w

/--
What stands behind a block comment of which `depth` openings have no end yet.
-/
def afterBlock : (depth : Nat) → List Char → Option (List Char)
  | 0, cs => some cs
  | _ + 1, [] => none
  | depth + 1, '/' :: '*' :: rest => afterBlock (depth + 2) rest
  | depth + 1, '*' :: '/' :: rest => afterBlock depth rest
  | depth + 1, _ :: rest => afterBlock (depth + 1) rest

/--
What stands behind the blanks and comments at the front of a text.
-/
def skip : (steps : Nat) → List Char → Option (List Char)
  | 0, cs => some cs
  | steps + 1, cs =>
    match cs.dropWhile isSpace with
    | '/' :: '/' :: rest => skip steps (rest.dropWhile (· != '\n'))
    | '/' :: '*' :: rest => (afterBlock 1 rest).bind (skip steps)
    | '/' :: _ => none
    | rest => some rest

/--
The character with a hexadecimal number of one to six digits.
-/
def ofHex? (digits : List Char) : Option Char := do
  if digits.isEmpty || 6 < digits.length then none
  let values ← digits.mapM Json.hexDigit?
  let n := values.foldl (fun n digit => n * 16 + digit) 0
  if n.isValidChar then some (Char.ofNat n) else none

/--
The character of an escape, given what stands behind the backslash.
-/
def escape? : List Char → Option (Char × List Char)
  | [] => none
  | c :: rest =>
    match c with
    | '\'' => some ('\'', rest)
    | '"' => some ('"', rest)
    | '\\' => some ('\\', rest)
    | 'n' => some ('\n', rest)
    | 'r' => some ('\r', rest)
    | 't' => some ('\t', rest)
    | '0' => some ('\x00', rest)
    | 'x' =>
      match rest with
      | a :: b :: more => (ofHex? [a, b]).map (·, more)
      | _ => none
    | 'u' =>
      match rest with
      | '\x7b' :: more =>
        match more.dropWhile (· != '\x7d') with
        | [] => none
        | _ :: behind => (ofHex? (more.takeWhile (· != '\x7d'))).map (·, behind)
      | _ => none
    | _ => none

/--
The content of a text in quotes, given what stands behind the opening quote.
-/
def textBody? : (steps : Nat) → List Char → Option (List Char × List Char)
  | 0, _ => none
  | _ + 1, [] => none
  | steps + 1, c :: rest =>
    if c == '"' then
      some ([], rest)
    else if c == '\\' then do
      let (d, more) ← escape? rest
      let (body, behind) ← textBody? steps more
      return (d :: body, behind)
    else do
      let (body, behind) ← textBody? steps rest
      return (c :: body, behind)

/--
The content of a raw text, given the number of marks that close it and what stands behind the opening
quote.
-/
def rawBody? (marks : Nat) : List Char → Option (List Char × List Char)
  | [] => none
  | c :: rest =>
    if c == '"' && (List.replicate marks '#').isPrefixOf rest then
      some ([], rest.drop marks)
    else
      (rawBody? marks rest).map (fun (body, behind) => (c :: body, behind))

/--
A raw text or a marked name, given what stands behind the `r`.
-/
def raw? (cs : List Char) : Option (Token × List Char) :=
  let marks := (cs.takeWhile (· == '#')).length
  match cs.dropWhile (· == '#') with
  | '"' :: rest =>
    (rawBody? marks rest).map (fun (body, behind) => (.text (String.ofList body), behind))
  | rest =>
    let name := rest.takeWhile isWordChar
    if marks == 1 && !name.isEmpty then
      some (.rawName (String.ofList name), rest.dropWhile isWordChar)
    else
      none

/--
A character in quotes, given what stands behind the opening quote.
-/
def char? : List Char → Option (Token × List Char)
  | '\\' :: rest =>
    match escape? rest with
    | some (c, '\'' :: behind) => some (.char c, behind)
    | _ => none
  | c :: '\'' :: behind => if c == '\'' then none else some (.char c, behind)
  | _ => none

def token? (steps : Nat) : List Char → Option (Token × List Char)
  | [] => none
  | c :: rest =>
    match c with
    | '(' =>
      match rest with
      | ')' :: behind => some (.unit, behind)
      | _ => some (.openParen none, rest)
    | ')' => some (.closeParen, rest)
    | '[' => some (.openList, rest)
    | ']' => some (.closeList, rest)
    | '\x7b' => some (.openMap, rest)
    | '\x7d' => some (.closeMap, rest)
    | ':' => some (.colon, rest)
    | ',' => some (.comma, rest)
    | '#' => some (.hash, rest)
    | '!' => some (.bang, rest)
    | '\'' => char? rest
    | '"' => (textBody? steps rest).map (fun (body, behind) => (.text (String.ofList body), behind))
    | _ =>
      let isPart := if startsName c then isNameChar else isWordChar
      let word := (c :: rest).takeWhile isPart
      let behind := (c :: rest).dropWhile isPart
      if word.isEmpty then
        none
      else if word == ['r'] && behind.head?.any (fun d => d == '"' || d == '#') then
        raw? behind
      else
        some (.word (String.ofList word), behind)

/--
The tokens of a text, in at most the given number of steps.
-/
def tokensWithin? : (steps : Nat) → List Char → Option (List Token)
  | 0, _ => none
  | steps + 1, cs => do
    match ← skip (steps + 1) cs with
    | [] => return []
    | rest =>
      let (token, behind) ← token? (steps + 1) rest
      return token :: (← tokensWithin? steps behind)

def joinNames : List Token → List Token
  | .word w :: .openParen _ :: rest => .openParen (some w) :: joinNames rest
  | .word w :: .unit :: rest => .openParen (some w) :: .closeParen :: joinNames rest
  | .rawName w :: .openParen _ :: rest => .openParen (some (mark w)) :: joinNames rest
  | .rawName w :: .unit :: rest => .openParen (some (mark w)) :: .closeParen :: joinNames rest
  | token :: rest => token :: joinNames rest
  | [] => []

def tokens? (cs : List Char) : Option (List Token) :=
  (tokensWithin? (cs.length + 1) cs).map joinNames

end Narrative.Ron
