import LanguageClient.CommandLine.Check
import LanguageClient.CommandLine.Config
import LanguageClient.CommandLine.Probe

/-!
# Carrying out a command line

The settings are those in effect in the workspace; settings that cannot be read are ignored, and
the standard ones count.
-/

namespace LanguageClient.CommandLine

/-- The line that tells the version of the program, or of one of its commands. -/
def versionLine (commands : List String) : String :=
  "-".intercalate ("lsp-conductor" :: commands) ++ " 0.3.0\n"

/-- What has come of a command line that cannot be carried out. -/
def Report.ofUsage (machine : Machine) (error : UsageError) : Report where
  exitCode := error.exitCode
  output := match error with
    | .version commands => .text (versionLine commands)
    | _ => .nothing
  files := machine.files
  started := []
  sightings := []

/-- Carries out a command in a workplace. -/
def perform (workplace : Workplace) : Command → Report
  | .probe arguments => probe workplace arguments
  | .check arguments => check workplace arguments
  | .config command => config workplace command

/-- The folder of the workspace. -/
def rootFolder (files : FileTree) : Option String → Except FileError String
  | some root => files.canonical root
  | none => .ok files.homePath

/-- Carries out the words of a command line, without the name of the program. -/
def run (machine : Machine) (words : List String) : Report :=
  match read (machine.environment.lookup rootVariable) words with
  | .error error => .ofUsage machine error
  | .ok invocation =>
    match rootFolder machine.files invocation.root with
    | .error error =>
      .failure ⟨.start machine.files, []⟩ ("Failed to initialize: " ++ error.systemMessage)
    | .ok root =>
      let loaded := Settings.load machine.environment machine.files root false
      perform ⟨machine, root, loaded.toOption.getD .standard⟩ invocation.command

end LanguageClient.CommandLine
