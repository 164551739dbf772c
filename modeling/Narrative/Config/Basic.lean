import Narrative.Player.Basic

/-!
This module contains the configuration of a story: where it starts, how the choice to go on is labelled,
the ley lines that give spells their power, and the stats that a playthrough starts with.
-/

namespace Narrative

structure LeyLine where
  strength : Float
  alignment : String

structure Config where
  startChapter : String
  /-- Where the choice to go on leads in a chapter that does not say. -/
  fallbackChapter : String
  continueLabel : String
  leyLines : Table LeyLine
  initialStats : Table Int64

namespace Config

/--
The ley lines of a story that does not have its own.
-/
def builtinLeyLines : Table LeyLine :=
  .ofList [("blood", ⟨0.7, "chaos"⟩), ("void", ⟨1.2, "eldritch"⟩), ("nature", ⟨0.9, "order"⟩)]

/--
The configuration of a story that does not have its own.
-/
def builtin : Config where
  startChapter := Player.firstChapter
  fallbackChapter := Player.firstChapter
  continueLabel := "Continue..."
  leyLines := builtinLeyLines
  initialStats := .empty

instance : Inhabited Config := ⟨builtin⟩

def initialPlayer (config : Config) : Player :=
  { Player.freshWith config.initialStats with currentChapter := config.startChapter }

end Config

end Narrative
