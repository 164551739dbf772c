import Narrative.Proofs.Session.Driving

/-!
This module contains the events of which a session consists. Each event says in which sessions it can occur and
what session it leaves; a path is a sequence of events that occur one after another.
-/

namespace Narrative

inductive Event where
  | passed (elapsed : Duration)
  | dropped
  | began (id : String)
  | took (chapter : Chapter) (choice : Choice) (id : String)
  | reached (id : String) (document : Document)
  | returned
  | cast (chapter : Chapter) (spell : Spell)
  | reset

namespace Session

def after (s : Session) : Event → Session
  | .passed elapsed => s.passing elapsed
  | .dropped => s.cancelTimers.session
  | .began id => s.loading id
  | .took chapter choice id => s.taking chapter choice id
  | .reached id document => s.reaching id document
  | .returned => s.returning
  | .cast chapter spell => s.changing (Deed.apply s.player (.cast chapter spell))
  | .reset => s.reset.session

/--
The sessions in which an event can occur. Time may pass and a session may be discarded at any time; nothing
else but the end of a load happens while one is pending.
-/
inductive Occurs (s : Session) : Event → Prop where
  | passed (elapsed : Duration) : Occurs s (.passed elapsed)
  | dropped : Occurs s .dropped
  | began (id : String) (hpending : s.pending = none) : Occurs s (.began id)
  | took {index : Nat} {chapter : Chapter} {choice : Choice} {successor : Successor}
      (hpending : s.pending = none) (hchoice : s.choiceAt? index = some (chapter, choice))
      (hsuccessor : choice.successor = .ok successor) :
      Occurs s (.took chapter choice successor.id)
  | reached {request : ContentRequest} {text : String} {document : Document}
      (hpending : s.pending = some request)
      (hdocument : Document.ofText request.kind text = .ok document) :
      Occurs s (.reached request.id document)
  | returned {request : ContentRequest} (hpending : s.pending = some request) : Occurs s .returned
  | cast {name : String} {chapter : Chapter} {spell : Spell} (hpending : s.pending = none)
      (hchapter : s.chapter = some chapter) (hspell : chapter.spells.get? name = some spell) :
      Occurs s (.cast chapter spell)
  | reset : Occurs s .reset

inductive Path : Session → List Event → Session → Prop where
  | nil (s : Session) : Path s [] s
  | cons {s t : Session} {event : Event} {rest : List Event} (h : s.Occurs event)
      (hrest : Path (s.after event) rest t) : Path s (event :: rest) t

theorem Path.single {s : Session} {event : Event} (h : s.Occurs event) :
    Path s [event] (s.after event) :=
  .cons h (.nil _)

theorem Path.append {s t u : Session} {first rest : List Event} (hfirst : Path s first t)
    (hrest : Path t rest u) : Path s (first ++ rest) u := by
  induction hfirst with
  | nil s => exact hrest
  | cons h _ ih => exact .cons h (ih hrest)

theorem Path.preserves {s t : Session} {events : List Event} (P : Session → Prop)
    (hevent : ∀ s event, P s → s.Occurs event → P (s.after event)) (h : Path s events t)
    (hs : P s) : P t := by
  induction h with
  | nil s => exact hs
  | cons hoccurs _ ih => exact ih (hevent _ _ hs hoccurs)

end Session

end Narrative
