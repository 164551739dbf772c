import Narrative.Table

/-!
This module contains the player's progress: numeric stats with their ranges, statuses, the inventory,
and the chapters and endings found so far.
-/

namespace Narrative

/--
The values a stat may take: from `least` up to `greatest`, or without an upper end.
-/
structure StatRange where
  least : Int64
  greatest : Option Int64
  deriving DecidableEq

namespace StatRange

/--
The range of a stat: `health` is a percentage, `sanity` and `fate` are gauges up to ten, and every other
stat only has a floor.
-/
def ofStat (name : String) : StatRange :=
  if name = "health" then
    ⟨0, some 100⟩
  else if name = "sanity" ∨ name = "fate" then
    ⟨0, some 10⟩
  else
    ⟨0, none⟩

/--
The value of the range nearest to the given one.
-/
def clamp (range : StatRange) (value : Int64) : Int64 :=
  let floored := max value range.least
  match range.greatest with
  | some greatest => min floored greatest
  | none => floored

end StatRange

/--
The sum of two 64 bit integers; a sum that does not fit becomes the nearest one that does.
-/
def saturatingAdd (a b : Int64) : Int64 :=
  Int64.ofIntClamp (a.toInt + b.toInt)

structure Player where
  currentChapter : String
  inventory : List String
  revealed : List String
  endings : List String
  statuses : Table String
  stats : Table Int64
  deriving DecidableEq

namespace Player

def firstChapter : String := "chapter1"

/--
The stats that every playthrough has, with their first values.
-/
def firstStats : List (String × Int64) :=
  [("magic", 0), ("lira_trust", 0), ("kyle_trust", 0), ("elina_trust", 0), ("moral", 50),
    ("gold", 10), ("health", 100), ("willpower", 5), ("persuasion", 0), ("intimidation", 0),
    ("fate", 0), ("sanity", 10), ("church_hostility", 0), ("combat_skill", 0), ("insight", 0)]

def fresh : Player where
  currentChapter := firstChapter
  inventory := []
  revealed := []
  endings := []
  statuses := .empty
  stats := .ofList firstStats

instance : Inhabited Player := ⟨fresh⟩

/--
Set a stat, also one that the player did not have, to the value of its range nearest to the given one.
-/
def setStat (p : Player) (name : String) (value : Int64) : Player :=
  { p with stats := p.stats.insert name ((StatRange.ofStat name).clamp value) }

/--
The progress at the start of a playthrough with some stats set or added.
-/
def freshWith (overrides : Table Int64) : Player :=
  overrides.entries.foldl (fun p (name, value) => p.setStat name value) fresh

/--
The value of a stat, zero for one that the player does not have.
-/
def stat (p : Player) (name : String) : Int64 :=
  (p.stats.get? name).getD 0

def hasStat (p : Player) (name : String) : Bool :=
  p.stats.contains name

/--
Change a stat by an amount, within its range. A stat that the player does not have stays missing.
-/
def adjust (p : Player) (name : String) (delta : Int64) : Player :=
  match p.stats.get? name with
  | some value => p.setStat name (saturatingAdd value delta)
  | none => p

def status? (p : Player) (key : String) : Option String :=
  p.statuses.get? key

def setStatus (p : Player) (key value : String) : Player :=
  { p with statuses := p.statuses.insert key value }

def hasItem (p : Player) (item : String) : Bool :=
  p.inventory.contains item

def hasAllItems (p : Player) (items : List String) : Bool :=
  items.all p.hasItem

def hasAnyItem (p : Player) (items : List String) : Bool :=
  items.any p.hasItem

/--
Add an entry at the end of a list, unless the list has it.
-/
def appendNew (entries : List String) (entry : String) : List String :=
  if entries.contains entry then entries else entries ++ [entry]

/--
Take up the items that are not held yet, in their order.
-/
def addItems (p : Player) (items : List String) : Player :=
  { p with inventory := items.foldl appendNew p.inventory }

def removeItems (p : Player) (items : List String) : Player :=
  { p with inventory := p.inventory.filter (fun held => !items.contains held) }

def isRevealed (p : Player) (chapter : String) : Bool :=
  p.revealed.contains chapter

def reveal (p : Player) (chapter : String) : Player :=
  { p with revealed := appendNew p.revealed chapter }

def isUnlocked (p : Player) (ending : String) : Bool :=
  p.endings.contains ending

def unlockEnding (p : Player) (ending : String) : Player :=
  { p with endings := appendNew p.endings ending }

theorem hasStat_adjust (p : Player) (name : String) (delta : Int64) (other : String) :
    (p.adjust name delta).hasStat other = p.hasStat other := by
  unfold adjust
  split
  · rename_i value hvalue
    by_cases h : other = name
    · subst h
      simp [hasStat, setStat, Table.contains, hvalue]
    · simp [hasStat, setStat, Table.contains, h]
  · rfl

end Player

end Narrative
