import Narrative.Chapter.Basic
import Narrative.Config.Basic
import Narrative.Duration

/-!
This module contains what of a chapter is presented to a player, and where a choice leads: the variant
that applies, the choices on offer, and the successor of a choice with its effects.
-/

namespace Narrative

/--
What is presented of a chapter: its own content, or that of a variant laid over it.
-/
structure ActiveContent where
  chapterId : String
  /-- The place of the variant in the chapter. -/
  variant : Option Nat
  title : Option String
  text : String
  background : String
  choices : List Choice
  defaultNext : Option String

namespace ActiveContent

def base (chapter : Chapter) : ActiveContent where
  chapterId := chapter.id
  variant := none
  title := chapter.title
  text := chapter.text
  background := chapter.background
  choices := chapter.choices
  defaultNext := chapter.defaultNext

/--
The content of a variant, where it has any, and elsewhere the given content.
-/
def overlay (content : ActiveContent) (index : Nat) (variant : Variant) : ActiveContent where
  chapterId := content.chapterId
  variant := some index
  title := variant.title <|> content.title
  text := variant.text.getD content.text
  background := variant.background.getD content.background
  choices := variant.choices.getD content.choices
  defaultNext := variant.defaultNext <|> content.defaultNext

/--
What is presented of a chapter to a player: the first variant whose trigger matches, or else the chapter's
own content.
-/
def ofChapter (chapter : Chapter) (p : Player) : ActiveContent :=
  match chapter.variants.zipIdx.find? (fun (variant, _) => variant.trigger.isMatch p) with
  | some (variant, index) => (base chapter).overlay index variant
  | none => base chapter

end ActiveContent

/--
Where a presented choice comes from: the place of a choice in the content, or the way on.
-/
inductive ChoiceSlot where
  | authored (index : Nat)
  | continue (next : String)
  deriving DecidableEq, Repr

/--
A choice as it is presented. A disabled one is shown but cannot be taken.
-/
structure ChoiceView where
  slot : ChoiceSlot
  text : String
  enabled : Bool
  timeout : Option Duration
  deriving DecidableEq

/--
The presented form of the choice at a place of the content. A choice that is not well formed has none,
nor has a hidden one whose requirement fails.
-/
def Choice.view? (p : Player) (choice : Choice) (index : Nat) : Option ChoiceView :=
  let enabled := choice.requires.met p
  if choice.isWellFormed && (enabled || !choice.hidden) then
    some ⟨.authored index, choice.text, enabled, choice.timeout.bind Duration.ofSeconds?⟩
  else
    none

namespace ActiveContent

def continueView (content : ActiveContent) (config : Config) : ChoiceView :=
  ⟨.continue (content.defaultNext.getD config.fallbackChapter), config.continueLabel, true, none⟩

def authoredViews (content : ActiveContent) (p : Player) : List ChoiceView :=
  content.choices.zipIdx.filterMap (fun (choice, index) => choice.view? p index)

/--
The choices that are presented: the authored ones, or the way on if there are none.
-/
def views (content : ActiveContent) (config : Config) (p : Player) : List ChoiceView :=
  match content.authoredViews p with
  | [] => [content.continueView config]
  | authored => authored

end ActiveContent

inductive Successor where
  | chapter (id : String)
  /-- A chapter that the choice reveals. -/
  | reveal (id : String)
  | ending (id : String)
  deriving DecidableEq, Repr

namespace Successor

def id : Successor → String
  | .chapter id => id
  | .reveal id => id
  | .ending id => id

def ofId (id : String) : Successor :=
  if isEndingId id then .ending id else .chapter id

end Successor

/--
Why a choice leads nowhere. The choice is named by its text.
-/
inductive ResolveError where
  | noSuccessor (text : String)
  | revealWithoutTarget (text : String)
  deriving DecidableEq, Repr

def ResolveError.message : ResolveError → String
  | .noSuccessor text => s!"choice '{text}' has no successor"
  | .revealWithoutTarget text => s!"choice '{text}' reveals a chapter but names none"

/--
Where a choice has led: the successor, the progress, and the effects that were skipped.
-/
structure Resolution where
  successor : Successor
  player : Player
  skipped : List Skipped

namespace Choice

/--
The successor of a choice. A choice without `next` leads to the chapter that it reveals.
-/
def successor (choice : Choice) : Except ResolveError Successor :=
  match choice.next, choice.reveal with
  | some next, reveal =>
    if next = revealMark then
      match reveal with
      | some target => .ok (.reveal target)
      | none => .error (.revealWithoutTarget choice.text)
    else
      .ok (.ofId next)
  | none, some target => .ok (.reveal target)
  | none, none => .error (.noSuccessor choice.text)

/--
Take a choice. Its effects apply first, then a revealed chapter is recorded; a choice without a successor
does neither.
-/
def resolve (choice : Choice) (p : Player) : Except ResolveError Resolution :=
  match choice.successor with
  | .error e => .error e
  | .ok successor =>
    let changed := Effect.applyAll choice.effects p
    let player :=
      match successor with
      | .reveal id => changed.reveal id
      | _ => changed
    .ok ⟨successor, player, Effect.skipped choice.effects⟩

end Choice

end Narrative
