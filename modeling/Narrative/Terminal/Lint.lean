import Narrative.Lint.Report
import Narrative.Terminal.Output

/-!
This module contains the command line of the checker for directories of documents.
-/

namespace Narrative.Terminal.Lint

def usage : String := "Usage: chapter_linter <content_dir> [--config <file>]"

/--
The configuration file that the arguments name last. Other arguments do not matter.
-/
def configPath? : List String → Option String
  | "--config" :: path :: rest => configPath? rest <|> some path
  | _ :: rest => configPath? rest
  | [] => none

def render (report : Lint.Report) : String :=
  let verdict :=
    if report.errors.isEmpty && report.warnings.isEmpty then ["All checks passed!"] else []
  lines (["", "=== Chapter Lint Report ===", ""] ++ verdict ++
    report.warnings.map (fun message => s!"WARNING: {message}") ++
    report.errors.map (fun message => s!"ERROR: {message}") ++
    ["", s!"Summary: {report.chapters} chapters, {report.endings} endings, " ++
      s!"{report.errors.length} errors, {report.warnings.length} warnings"])

/--
Run the checker. It fails if the report has errors.
-/
def run (args : List String) (files : FileSystem) : Output :=
  if asksForUsage args then
    ⟨0, line usage, ""⟩
  else
    match loadConfig files (configPath? args.tail) with
    | .error e => ⟨1, "", line s!"ERROR: Failed to load config: {e.message}"⟩
    | .ok config =>
      let directory := args.headD ""
      if files.isDirectory directory then
        let report := Lint.report ⟨files, directory⟩ config
        ⟨if report.errors.isEmpty then 0 else 1, render report, ""⟩
      else
        ⟨1, "", line s!"ERROR: Path '{directory}' is not a directory"⟩

end Narrative.Terminal.Lint
