import Narrative.Session.Step

/-!
This module contains the session as a browser drives it: the browser fetches the documents, and collects
the events that have happened after each call.
-/

namespace Narrative.Host

structure ChoiceInfo where
  position : Nat
  text : String
  enabled : Bool
  /-- In seconds. -/
  timeout : Option Float

inductive Event where
  | variantResolved (chapterId : String) (variant : Option Nat) (title : Option String)
      (text background : String)
  | choicesReady (choices : List ChoiceInfo)
  | statsChanged (player : Player)
  | error (kind : ErrorKind) (message : String)
  | endingReached (id title text : String)
  | reaction (r : Reaction)

def ChoiceInfo.ofView (view : ChoiceView) (position : Nat) : ChoiceInfo :=
  ⟨position, view.text, view.enabled, view.timeout.map Duration.toSeconds⟩

def Event.ofNotice : Notice → Event
  | .variantResolved content =>
    .variantResolved content.chapterId content.variant content.title content.text
      content.background
  | .choicesReady views =>
    .choicesReady (views.zipIdx.map (fun (view, position) => .ofView view position))
  | .statsChanged player => .statsChanged player
  | .error kind message => .error kind message
  | .endingReached id title text => .endingReached id title text
  | .reaction r => .reaction r

structure StorySession where
  session : Session
  events : List Event

namespace StorySession

/--
A session with the configuration of a text, or with the one built in.
-/
def new (configText : Option String) : Except ConfigError StorySession := do
  let config ←
    match configText with
    | some text => Config.ofText text
    | none => pure .builtin
  return ⟨.new config none none, []⟩

/--
Take over what an operation on the session gives, and keep its events.
-/
def absorb {α : Type} (host : StorySession) (reply : Reply α) : α × StorySession :=
  (reply.answer, ⟨reply.session, host.events ++ reply.notices.map .ofNotice⟩)

def beginLoad (host : StorySession) (id : String) :
    Except SessionError ContentRequest × StorySession :=
  host.absorb (host.session.beginLoad id)

/--
Begin to load the chapter that the story starts with.
-/
def start (host : StorySession) : Except SessionError ContentRequest × StorySession :=
  host.beginLoad host.session.config.startChapter

/--
Complete the pending load with the text of the document.
-/
def completeLoad (host : StorySession) (text : String) :
    Except SessionError Unit × StorySession :=
  host.absorb (host.session.completeLoad text)

def failLoad (host : StorySession) (message : String) : Except SessionError Unit × StorySession :=
  host.absorb (host.session.failLoad message)

def selectChoice (host : StorySession) (position : Nat) :
    Except SessionError ContentRequest × StorySession :=
  host.absorb (host.session.selectChoice position)

/--
The span of a number of milliseconds. One that is too long becomes the greatest span, one below zero or
no number at all becomes none.
-/
def elapsed (milliseconds : Float) : Duration :=
  match Duration.ofSeconds? (milliseconds / 1000) with
  | some d => d
  | none => if 0 < milliseconds then .greatest else .zero

def pollTimers (host : StorySession) (milliseconds : Float) :
    Except SessionError (Option ContentRequest) × StorySession :=
  host.absorb (host.session.pollTimers (elapsed milliseconds))

def cancelTimers (host : StorySession) : Nat × StorySession :=
  host.absorb host.session.cancelTimers

def cast (host : StorySession) (name : String) : Bool × StorySession :=
  host.absorb (host.session.cast name)

def reset (host : StorySession) : Unit × StorySession :=
  host.absorb host.session.reset

def takeEvents (host : StorySession) : List Event × StorySession :=
  (host.events, { host with events := [] })

end StorySession

end Narrative.Host
