import Narrative.Chapter.Decoder
import Narrative.Config.Reader
import Narrative.Content.Basic
import Narrative.Magic
import Narrative.Reaction
import Narrative.Resolve
import Narrative.Timers

/-!
This module contains the parts of a session: its record, the errors it reports, the notices it sends to
whoever presents the story, and the reply that every operation gives.
-/

namespace Narrative

/--
Something that cannot be done while a document is being loaded.
-/
inductive BusyAction where
  | takeChoice
  | castSpell
  deriving DecidableEq, Repr

def BusyAction.describe : BusyAction → String
  | .takeChoice => "take a choice"
  | .castSpell => "cast a spell"

inductive SessionError where
  | fetch (e : FetchError)
  | loadFailed (id message : String)
  | document (id : String) (e : DocumentError)
  | invalidChoice (e : ResolveError)
  | magic (e : MagicError)
  | config (e : ConfigError)
  | loadInProgress (requested pending : String)
  | busy (action : BusyAction) (pending : String)
  | notLoading
  | noChoices
  | choiceOutOfRange (position : Nat)
  | choiceDisabled (position : Nat)
  | noActiveChapter
  | noSource
  deriving DecidableEq, Repr

/--
The kinds of errors that are told apart towards whoever presents the story.
-/
inductive ErrorKind where
  | contentFetch
  | malformedContent
  | invalidChoice
  | unknownSpell
  | unknownElement
  | loadInProgress
  | usage
  deriving DecidableEq, Repr

namespace SessionError

/--
The kind of an error. A document that is no JSON counts as not fetched.
-/
def kind : SessionError → ErrorKind
  | .fetch _ => .contentFetch
  | .loadFailed _ _ => .contentFetch
  | .document _ .parse => .contentFetch
  | .document _ _ => .malformedContent
  | .invalidChoice _ => .invalidChoice
  | .magic (.unknownSpell _) => .unknownSpell
  | .magic (.unknownElement _ _) => .unknownElement
  | .loadInProgress _ _ => .loadInProgress
  | .busy _ _ => .loadInProgress
  | _ => .usage

def message : SessionError → String
  | .fetch e => s!"failed to fetch content: {e.message}"
  | .loadFailed id message => s!"failed to load '{id}': {message}"
  | .document id e => s!"'{id}': {e.message}"
  | .invalidChoice e => s!"invalid choice: {e.message}"
  | .magic e => e.message
  | .config e => s!"config error: {e.message}"
  | .loadInProgress requested pending => s!"cannot load '{requested}' while '{pending}' is loading"
  | .busy action pending => s!"cannot {action.describe} while '{pending}' is loading"
  | .notLoading => "no load is in progress"
  | .noChoices => "no choices are on offer"
  | .choiceOutOfRange position => s!"no choice at position {position}"
  | .choiceDisabled position => s!"choice {position} is disabled"
  | .noActiveChapter => "no chapter is active"
  | .noSource => "no content source configured"

end SessionError

inductive Notice where
  | variantResolved (content : ActiveContent)
  | choicesReady (views : List ChoiceView)
  | statsChanged (player : Player)
  | error (kind : ErrorKind) (message : String)
  | endingReached (id title text : String)
  | reaction (r : Reaction)

/--
Where a session is: nothing is presented yet, a document is loading, choices are on offer, or the story
is over.
-/
inductive Phase where
  | idle
  | loading
  | choicesVisible
  | ended
  deriving DecidableEq, Repr

structure Session where
  config : Config
  source : Option ContentSource
  player : Player
  phase : Phase
  /-- The load that is waited for. -/
  pending : Option ContentRequest
  chapter : Option Chapter
  active : Option ActiveContent
  ending : Option Ending
  choices : List ChoiceView
  timers : Timers
  /-- The progress before the choice whose successor is loading. -/
  rollback : Option Player

namespace Session

/--
A session that presents nothing yet. The progress is that of the configuration unless one is given.
-/
def new (config : Config) (source : Option ContentSource) (player : Option Player) : Session where
  config := config
  source := source
  player := player.getD config.initialPlayer
  phase := .idle
  pending := none
  chapter := none
  active := none
  ending := none
  choices := []
  timers := .start
  rollback := none

def spellOptions (s : Session) : List SpellOption :=
  match s.chapter with
  | some chapter => chapter.spellOptions s.player
  | none => []

end Session

/--
What an operation gives: its answer, the session after it, and the notices sent on the way.
-/
structure Reply (α : Type) where
  answer : α
  session : Session
  notices : List Notice

namespace Reply

variable {α β : Type}

def map (f : α → β) (r : Reply α) : Reply β :=
  ⟨f r.answer, r.session, r.notices⟩

def andThen (r : Reply (Except SessionError α))
    (next : α → Session → Reply (Except SessionError β)) : Reply (Except SessionError β) :=
  match r.answer with
  | .error e => ⟨.error e, r.session, r.notices⟩
  | .ok answer =>
    let following := next answer r.session
    ⟨following.answer, following.session, r.notices ++ following.notices⟩

end Reply

end Narrative
