import Narrative.Player.Basic

/-!
This module contains the effects of choices and interactions on the player's progress.
-/

namespace Narrative

/--
One effect. What could not be understood is kept as `invalid` and changes nothing.
-/
inductive Effect where
  | adjust (stat : String) (delta : Int64)
  | addItems (items : List String)
  | removeItems (items : List String)
  | setStatus (key value : String)
  | invalid (key reason : String)
  deriving DecidableEq, Repr

structure Skipped where
  key : String
  reason : String
  deriving DecidableEq, Repr

def Skipped.message (w : Skipped) : String :=
  s!"effect '{w.key}' skipped: {w.reason}"

namespace Effect

def apply (p : Player) : Effect → Player
  | .adjust stat delta => p.adjust stat delta
  | .addItems items => p.addItems items
  | .removeItems items => p.removeItems items
  | .setStatus key value => p.setStatus key value
  | .invalid _ _ => p

/--
The notice that an effect is skipped, if it is.
-/
def skipped? : Effect → Option Skipped
  | .invalid key reason => some ⟨key, reason⟩
  | _ => none

/--
The player's progress after every effect of a list, in order.
-/
def applyAll (effects : List Effect) (p : Player) : Player :=
  effects.foldl apply p

/--
The notices of the effects of a list that are skipped, in order.
-/
def skipped (effects : List Effect) : List Skipped :=
  effects.filterMap skipped?

/--
The problems of a list of effects as a static check reports them.
-/
def problems (effects : List Effect) : List String :=
  (skipped effects).map (fun w => s!"'{w.key}': {w.reason}")

end Effect

end Narrative
