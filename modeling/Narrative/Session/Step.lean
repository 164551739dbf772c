import Narrative.Session.Basic

/-!
This module contains the operations of a session. A load has two halves, so that a host may fetch the
document in between: it begins with a request, and is completed with a text or given up. With a source of
documents `start`, `load`, `choose` and `tick` do both halves.
-/

namespace Narrative.Session

def report {α : Type} (s : Session) (e : SessionError) : Reply (Except SessionError α) :=
  ⟨.error e, s, [.error e.kind e.message]⟩

/--
Begin to load a document. The timers of the content that is left are dropped.
-/
def beginLoad (s : Session) (id : String) : Reply (Except SessionError ContentRequest) :=
  match s.pending with
  | some pending => s.report (.loadInProgress id pending.id)
  | none =>
    let request := ContentRequest.ofId id
    ⟨.ok request,
      { s with timers := s.timers.clear, pending := some request, phase := .loading }, []⟩

def offer (s : Session) (content : ActiveContent) : Session :=
  { s with
    choices := content.views s.config s.player
    phase := if s.pending.isNone then .choicesVisible else s.phase }

/--
Arm the timer of a presented choice, if it is an authored one with a timeout.
-/
def armView (timers : Timers) (view : ChoiceView) : Timers :=
  match view.slot, view.timeout with
  | .authored index, some after => timers.arm index after
  | _, _ => timers

def armTimers (s : Session) : Session :=
  { s with timers := s.choices.foldl armView s.timers }

/--
Present content: offer its choices, arm their timers, and send notice of it.
-/
def present (s : Session) (content : ActiveContent) : Reply Unit :=
  let s := (s.offer content).armTimers
  ⟨(), s, [.variantResolved content, .choicesReady s.choices, .statsChanged s.player]⟩

/--
The notices of the choices of a chapter's content that are not well formed.
-/
def malformedChoices (id : String) (content : ActiveContent) : List Notice :=
  (content.choices.zipIdx.filter (fun (choice, _) => !choice.isWellFormed)).map fun (_, index) =>
    .error .invalidChoice s!"chapter '{id}': choice #{index} is missing text or an outcome"

/--
Enter a chapter under the id that it was requested by.
-/
def enterChapter (s : Session) (id : String) (chapter : Chapter) : Reply Unit :=
  let content := ActiveContent.ofChapter chapter s.player
  let entered := { s with
    rollback := none
    player := { s.player with currentChapter := id }
    chapter := some chapter
    active := some content
    ending := none }
  let reply := entered.present content
  { reply with notices := malformedChoices id content ++ reply.notices }

/--
Enter an ending under the id that it was requested by. The story is over.
-/
def enterEnding (s : Session) (id : String) (ending : Ending) : Reply Unit :=
  let player := { s.player.unlockEnding id with currentChapter := id }
  let entered := { s with
    rollback := none
    player := player
    chapter := none
    active := none
    ending := some ending
    choices := []
    phase := .ended }
  ⟨(), entered, [.statsChanged player, .endingReached id ending.title ending.text]⟩

/--
Give up a load and go back to what was presented before it. A choice that led to the load is undone.
-/
def abortLoad {α : Type} (s : Session) (e : SessionError) : Reply (Except SessionError α) :=
  let undone := { s with player := s.rollback.getD s.player, rollback := none }
  let back : Reply Unit :=
    match undone.active, undone.ending with
    | some content, _ => undone.present content
    | none, some _ => ⟨(), { undone with phase := .ended }, []⟩
    | none, none => ⟨(), { undone with phase := .idle }, []⟩
  ⟨.error e, back.session, .error e.kind e.message :: back.notices⟩

/--
Complete the pending load with the text of the document.
-/
def completeLoad (s : Session) (text : String) : Reply (Except SessionError Unit) :=
  match s.pending with
  | none => s.report .notLoading
  | some request =>
    let s := { s with pending := none }
    match request.kind with
    | .chapter =>
      match Chapter.ofText text with
      | .ok chapter => (s.enterChapter request.id chapter).map .ok
      | .error e => s.abortLoad (.document request.id e)
    | .ending =>
      match Ending.ofText text with
      | .ok ending => (s.enterEnding request.id ending).map .ok
      | .error e => s.abortLoad (.document request.id e)

/--
Give up the pending load, whose document could not be had.
-/
def failLoad (s : Session) (message : String) : Reply (Except SessionError Unit) :=
  match s.pending with
  | none => s.report .notLoading
  | some request =>
    let given : Reply (Except SessionError Unit) :=
      { s with pending := none }.abortLoad (.loadFailed request.id message)
    given.map (fun _ => .ok ())

/--
Take the choice at a place of the presented content and begin to load its successor. Its effects apply,
then those of the interactions that it triggers.
-/
def takeChoice (s : Session) (index : Nat) : Reply (Except SessionError ContentRequest) :=
  match s.chapter, s.active with
  | some chapter, some content =>
    match content.choices[index]? with
    | none => s.report (.choiceOutOfRange index)
    | some choice =>
      match choice.resolve s.player with
      | .error e => s.report (.invalidChoice e)
      | .ok resolution =>
        let effects := chapter.reactionEffects choice
        let player := Effect.applyAll effects resolution.player
        let warnings := (resolution.skipped ++ Effect.skipped effects).map fun skipped =>
          Notice.error .invalidChoice skipped.message
        let notices :=
          warnings ++ (chapter.reactions choice).map .reaction ++ [.statsChanged player]
        let taken := { s with player := player, timers := s.timers.clear }
        let begun := taken.beginLoad resolution.successor.id
        match begun.answer with
        | .ok request =>
          ⟨.ok request, { begun.session with rollback := some s.player }, notices ++ begun.notices⟩
        | .error e =>
          ⟨.error e, { begun.session with player := s.player },
            notices ++ begun.notices ++ [.statsChanged s.player]⟩
  | _, _ => s.report .noActiveChapter

/--
Select the presented choice at a position and begin to load its successor.
-/
def selectChoice (s : Session) (position : Nat) : Reply (Except SessionError ContentRequest) :=
  match s.pending with
  | some pending => s.report (.busy .takeChoice pending.id)
  | none =>
    if s.phase ≠ .choicesVisible then
      s.report .noChoices
    else
      match s.choices[position]? with
      | none => s.report (.choiceOutOfRange position)
      | some view =>
        if view.enabled then
          match view.slot with
          | .continue next => s.beginLoad next
          | .authored index => s.takeChoice index
        else
          s.report (.choiceDisabled position)

/--
Whether the requirement of the choice at a place of the presented content is met.
-/
def isOpen (s : Session) (index : Nat) : Bool :=
  (s.active.bind (fun content => content.choices[index]?)).any (fun choice =>
    choice.requires.met s.player)

/--
Let time pass. Of the choices whose timers fall due, the first whose requirement is still met is taken.
-/
def pollTimers (s : Session) (elapsed : Duration) :
    Reply (Except SessionError (Option ContentRequest)) :=
  let (due, timers) := s.timers.advance elapsed
  let s := { s with timers := timers }
  match due.find? s.isOpen with
  | some index => (s.takeChoice index).map (Except.map some)
  | none => ⟨.ok none, s, []⟩

def cancelTimers (s : Session) : Reply Nat :=
  let (count, timers) := s.timers.cancelAll
  ⟨count, { s with timers := timers }, []⟩

/--
Go on only if the session has a source of documents.
-/
def withSource {α : Type} (s : Session)
    (next : ContentSource → Reply (Except SessionError α)) : Reply (Except SessionError α) :=
  match s.source with
  | some source => next source
  | none => s.report .noSource

/--
Fetch the document of a request and complete its load.
-/
def fetchAndComplete (s : Session) (request : ContentRequest) : Reply (Except SessionError Unit) :=
  s.withSource fun source =>
    match source.fetch request.id with
    | .ok text => s.completeLoad text
    | .error e => { s with pending := none }.abortLoad (.fetch e)

def load (s : Session) (id : String) : Reply (Except SessionError Unit) :=
  s.withSource fun _ =>
    (s.beginLoad id).andThen (fun request s => s.fetchAndComplete request)

def start (s : Session) : Reply (Except SessionError Unit) :=
  s.load s.config.startChapter

/--
Select the presented choice at a position and load its successor from the source.
-/
def choose (s : Session) (position : Nat) : Reply (Except SessionError Unit) :=
  s.withSource fun _ =>
    (s.selectChoice position).andThen (fun request s => s.fetchAndComplete request)

/--
Let time pass, and load the successor of a choice that this takes from the source. The answer is whether
there was one.
-/
def tick (s : Session) (elapsed : Duration) : Reply (Except SessionError Bool) :=
  s.withSource fun _ =>
    (s.pollTimers elapsed).andThen fun request s =>
      match request with
      | some request => (s.fetchAndComplete request).map (Except.map (fun _ => true))
      | none => ⟨.ok false, s, []⟩

/--
Cast a spell of the presented chapter. The answer is whether it succeeded; after that the choices are
offered anew.
-/
def cast (s : Session) (name : String) : Reply Bool :=
  match s.pending with
  | some pending => refuse (.busy .castSpell pending.id)
  | none =>
    match s.chapter with
    | none => refuse .noActiveChapter
    | some chapter =>
      match chapter.cast s.config name s.player with
      | .error e => refuse (.magic e)
      | .ok outcome =>
        if outcome.succeeded then
          let changed := { s with player := outcome.player }
          match changed.active with
          | some content =>
            let offered := changed.offer content
            ⟨true, offered, [.statsChanged outcome.player, .choicesReady offered.choices]⟩
          | none => ⟨true, changed, [.statsChanged outcome.player]⟩
        else
          ⟨false, s, []⟩
where
  refuse (e : SessionError) : Reply Bool :=
    ⟨false, s, [.error e.kind e.message]⟩

/--
Discard the playthrough. Only the clock goes on.
-/
def reset (s : Session) : Reply Unit :=
  let fresh := Session.new s.config s.source none
  ⟨(), { fresh with timers := s.timers.clear }, [.statsChanged fresh.player]⟩

end Narrative.Session
