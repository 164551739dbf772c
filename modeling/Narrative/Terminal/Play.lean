import Narrative.Content.Directory
import Narrative.Decimal.Layout
import Narrative.Decimal.Literal
import Narrative.Session.Step
import Narrative.Terminal.Output
import Narrative.Text.LowerCase

/-!
This module contains the player for terminals: the commands it understands, what it writes for each
notice of the session, and its command line.
-/

namespace Narrative.Terminal.Play

/--
Numbers of seconds are written without an exponent, and whole ones without a fraction. A tie goes up.
-/
def secondsLayout : Decimal.Layout where
  tie := .up
  positional _ := true
  wholeEnd := []
  exponentSign := []
  notFinite := []

/--
The line of the choice at a position. Positions are shown from one on.
-/
def choiceLine (view : ChoiceView) (position : Nat) : String :=
  let unavailable := if view.enabled then "" else " (unavailable)"
  let timeout :=
    match view.timeout with
    | some d => s!" [auto in {String.ofList (secondsLayout.write d.toSeconds)}s]"
    | none => ""
  s!"  {position + 1}. {view.text}{unavailable}{timeout}"

def kindName : ErrorKind → String
  | .contentFetch => "ContentFetch"
  | .malformedContent => "MalformedContent"
  | .invalidChoice => "InvalidChoice"
  | .unknownSpell => "UnknownSpell"
  | .unknownElement => "UnknownElement"
  | .loadInProgress => "LoadInProgress"
  | .usage => "Usage"

def noticeLines : Notice → List String
  | .variantResolved content =>
    let title :=
      match content.title with
      | some title => [s!"=== {title} ==="]
      | none => []
    [""] ++ title ++ [s!"[{content.background}]", content.text, ""]
  | .choicesReady views => views.zipIdx.map (fun (view, position) => choiceLine view position)
  | .statsChanged _ => []
  | .error kind message => [s!"! {kindName kind}: {message}"]
  | .endingReached id title text =>
    ["", s!"*** {title} ({id}) ***", text, "",
      "The story is over. 'restart' to play again, 'quit' to exit."]
  | .reaction (.spriteChange character sprite) => [s!"  ({character} now shows '{sprite}')"]
  | .reaction (.dialogue speaker text mood _) => [s!"  {speaker} [{mood}]: \"{text}\""]

/--
The text that is written for the notices of a reply.
-/
def written {α : Type} (reply : Reply α) : String :=
  lines (reply.notices.flatMap noticeLines)

inductive Command where
  | quit
  | help
  | stats
  | spells
  | cast (name : Option String)
  | wait (elapsed : Option Duration)
  | restart
  | choose (position : Nat)
  | unknown (word : String)

/--
The command of a word in lower case and the words behind it.
-/
def Command.ofWords (word : String) (arguments : List (List Char)) : Command :=
  match word with
  | "quit" | "exit" | "q" => .quit
  | "help" | "h" | "?" => .help
  | "stats" => .stats
  | "spells" => .spells
  | "cast" => .cast (arguments.head?.map String.ofList)
  | "wait" => .wait ((arguments.head?.bind Decimal.double?).bind Duration.ofSeconds?)
  | "restart" => .restart
  | _ =>
    match Text.uint64? word.toList with
    | some (position + 1) => .choose position
    | _ => .unknown word

/--
The command on a line; a blank line has none.
-/
def Command.ofLine? (line : String) : Option Command :=
  match Text.words line.toList with
  | [] => none
  | word :: arguments => some (.ofWords (String.ofList (Text.lower word)) arguments)

def helpLines : List String :=
  ["Commands:",
    "  <n>             take choice number n",
    "  cast <spell>    cast a spell of the current chapter",
    "  spells          list the chapter's spells",
    "  stats           show the player state",
    "  wait <seconds>  let time pass (timed choices may fire)",
    "  restart         start a new playthrough",
    "  help            list commands",
    "  quit            exit"]

/--
A text filled up with blanks to a number of characters.
-/
def padded (width : Nat) (text : String) : String :=
  text ++ String.ofList (List.replicate (width - text.length) ' ')

def listLine (label : String) (entries : List String) : List String :=
  match entries with
  | [] => []
  | _ => [label ++ ": " ++ ", ".intercalate entries]

def statsLines (p : Player) : List String :=
  [s!"Chapter: {p.currentChapter}"] ++
    p.stats.entries.map (fun (name, value) => s!"  {padded 18 name} {value.toInt}") ++
    listLine "Inventory" p.inventory ++
    listLine "Revealed" p.revealed ++
    listLine "Endings" p.endings ++
    p.statuses.entries.map (fun (key, value) => s!"  {key} = {value}")

def spellLines : List SpellOption → List String
  | [] => ["No spells here."]
  | options => options.map fun option =>
    let mark := if option.available then "" else " (unavailable)"
    s!"  {option.name} ({option.key}){mark}"

/--
Carry out a command other than `quit`: the session after it and the text it writes.
-/
def perform (s : Session) : Command → Session × String
  | .quit => (s, "")
  | .help => (s, lines helpLines)
  | .stats => (s, lines (statsLines s.player))
  | .spells => (s, lines (spellLines s.spellOptions))
  | .cast none => (s, line "Usage: cast <spell>")
  | .cast (some name) =>
    let reply := s.cast name
    let verdict := if reply.answer then "The spell takes hold." else "The spell fails."
    (reply.session, written reply ++ line verdict)
  | .wait none => (s, line "Usage: wait <seconds>")
  | .wait (some elapsed) =>
    let reply := s.tick elapsed
    let verdict :=
      match reply.answer with
      | .ok false => line "Time passes."
      | _ => ""
    (reply.session, written reply ++ verdict)
  | .restart =>
    let back := s.reset
    let reply := back.session.start
    (reply.session, written back ++ written reply)
  | .choose position =>
    if s.phase = .choicesVisible then
      let reply := s.choose position
      (reply.session, written reply)
    else
      (s, line "There is nothing to choose.")
  | .unknown word => (s, line s!"Unknown command '{word}'. Type 'help'.")

def prompt : String := "play> "

/--
Carry out the command on a line: the text it writes, and the session after it unless the player is done.
-/
def step (s : Session) (input : String) : Option Session × String :=
  match Command.ofLine? input with
  | none => (some s, "")
  | some .quit => (none, line "Goodbye.")
  | some command =>
    let (s, text) := perform s command
    (some s, text)

/--
Carry out the commands on lines until the player is done or no line is left.
-/
def interact (s : Session) : List String → String
  | [] => prompt
  | input :: rest =>
    match step s input with
    | (none, text) => prompt ++ text
    | (some s, text) => prompt ++ text ++ interact s rest

def usage : String := "Usage: play <content_dir> [--config <file>] [--start <id>]"

structure Options where
  contentDir : String
  configPath : Option String := none
  start : Option String := none

/--
Read the arguments behind the directory. The first that is not understood is the error.
-/
def Options.read (options : Options) : List String → Except String Options
  | "--config" :: path :: rest => { options with configPath := some path }.read rest
  | "--start" :: id :: rest => { options with start := some id }.read rest
  | other :: _ => .error other
  | [] => .ok options

/--
Begin to play: the session with its first chapter and the text written so far, or what is left behind
where that is not possible.
-/
def begin (args : List String) (files : FileSystem) : Except Output (Session × String) :=
  if asksForUsage args then
    .error ⟨0, line usage, ""⟩
  else
    match Options.read { contentDir := args.headD "" } args.tail with
    | .error other => .error ⟨1, line usage, line s!"Unknown argument: {other}"⟩
    | .ok options =>
      match loadConfig files options.configPath with
      | .error e => .error ⟨1, "", line s!"ERROR: {(SessionError.config e).message}"⟩
      | .ok config =>
        let source := ContentDirectory.source ⟨files, options.contentDir⟩
        let reply := (Session.new config (some source) none).load
          (options.start.getD config.startChapter)
        .ok (reply.session, line "Type 'help' for commands." ++ written reply)

/--
The lines of an input. What stands behind the last end of a line is a line unless it is empty.
-/
def inputLines (input : String) : List String :=
  (split input.toList).map String.ofList
where
  split : List Char → List (List Char)
    | [] => []
    | '\n' :: rest => [] :: split rest
    | c :: rest =>
      match split rest with
      | [] => [[c]]
      | first :: others => (c :: first) :: others

def run (args : List String) (files : FileSystem) (input : String) : Output :=
  match begin args files with
  | .error output => output
  | .ok (s, text) => ⟨0, text ++ interact s (inputLines input), ""⟩

end Narrative.Terminal.Play
