import Narrative.Config.Reader
import Narrative.FileTree

/-!
This module contains what the command line tools have in common: their exit status with the text they
write, and the reading of a configuration file.
-/

namespace Narrative.Terminal

structure Output where
  code : Nat
  stdout : String
  stderr : String
  deriving DecidableEq, Repr

def line (text : String) : String :=
  text ++ "\n"

def lines (texts : List String) : String :=
  texts.foldr (fun text rest => line text ++ rest) ""

/--
Whether a tool is asked for its usage: by the first argument, or by having none.
-/
def asksForUsage : List String → Bool
  | [] => true
  | first :: _ => first == "--help" || first == "-h"

/--
The configuration in a file, or the one built in.
-/
def loadConfig (files : FileSystem) : Option String → Except ConfigError Config
  | none => .ok .builtin
  | some path =>
    match files.readText path with
    | .ok text => Config.ofText text
    | .error e => .error (.io e.message)

end Narrative.Terminal
