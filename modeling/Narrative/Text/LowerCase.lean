import Narrative.Text.CaseTable

/-!
This module contains the full lower-casing of a text: every letter on its own, `İ` as two characters,
and the Greek capital sigma according to its place in the word.
-/

namespace Narrative.Text

/--
Whether one of the closed ranges holds the code point.
-/
def inRanges (ranges : List (Nat × Nat)) (n : Nat) : Bool :=
  ranges.any (fun (first, last) => first ≤ n && n ≤ last)

/--
Whether the first character that is not ignorable is a letter with case.
-/
def nextIsCased (cs : List Char) : Bool :=
  match cs.dropWhile (fun c => inRanges ignorableRanges c.toNat) with
  | [] => false
  | c :: _ => inRanges casedRanges c.toNat

def lowerChar (c : Char) : List Char :=
  if c == '\u0130' then
    ['i', '\u0307']
  else
    match caseRuns.find? (·.holds c.toNat) with
    | some run => [Char.ofNat (c.toNat + run.shift).toNat]
    | none => [c]

/--
The lower-case form of a text. A capital sigma that ends a word, that is one with a letter before it
and none behind it, becomes the final sigma.
-/
def lower (cs : List Char) : List Char :=
  go [] cs
where
  go (before : List Char) : List Char → List Char
    | [] => []
    | c :: rest =>
      let form :=
        if c == 'Σ' then
          if nextIsCased before && !nextIsCased rest then ['ς'] else ['σ']
        else
          lowerChar c
      form ++ go (c :: before) rest

example : lower "QUIT ÀÉÎ Σ ΑΣ ΑΣΑ İK".toList = "quit àéî σ ας ασα i\u0307k".toList := by
  decide +kernel

end Narrative.Text
