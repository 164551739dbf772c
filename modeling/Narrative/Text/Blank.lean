/-!
This module contains the class of blank characters (Unicode `White_Space`) and the operations on
texts that depend on it: trimming both ends and splitting into words.
-/

namespace Narrative.Text

def isBlank (c : Char) : Bool :=
  ('\t' ≤ c && c ≤ '\r') || c == ' ' || c == '\x85' || c == '\u00a0' || c == '\u1680' ||
    ('\u2000' ≤ c && c ≤ '\u200a') || c == '\u2028' || c == '\u2029' || c == '\u202f' ||
    c == '\u205f' || c == '\u3000'

def trimStart (cs : List Char) : List Char :=
  cs.dropWhile isBlank

def trimEnd (cs : List Char) : List Char :=
  (trimStart cs.reverse).reverse

def trim (cs : List Char) : List Char :=
  trimEnd (trimStart cs)

/--
The maximal runs of characters that are not blank, in order.
-/
def words (cs : List Char) : List (List Char) :=
  match _h : trimStart cs with
  | [] => []
  | c :: rest =>
    (c :: rest.takeWhile (!isBlank ·)) :: words (rest.dropWhile (!isBlank ·))
termination_by cs.length
decreasing_by
  have hle : (trimStart cs).length ≤ cs.length := (List.dropWhile_sublist isBlank).length_le
  have hrest : (rest.dropWhile (!isBlank ·)).length ≤ rest.length :=
    (List.dropWhile_sublist _).length_le
  rw [_h] at hle
  simp only [List.length_cons] at hle
  omega

def endsIn (ending : List Char) (text : String) : Bool :=
  ending.isSuffixOf text.toList

def startsIn (start : List Char) (text : String) : Bool :=
  start.isPrefixOf text.toList

example :
    ("\t\n\x0b\x0c\r \x85\u00a0\u1680\u2000\u2001\u2002\u2003\u2004\u2005\u2006\u2007\u2008\u2009" ++
      "\u200a\u2028\u2029\u202f\u205f\u3000").toList.all isBlank := by
  decide

end Narrative.Text
