import LanguageClient.CommandLine.Arguments
import LanguageClient.CommandLine.Machine

/-!
# Looking at the settings and creating them
-/

namespace LanguageClient.CommandLine

/-- The name of a level: that of the user, or another one. -/
def levelName (ofUser : Bool) (other : String) : String :=
  if ofUser then "global" else other

/-- What is shown of a server. -/
def serverEntry (settings : Settings) (name : String) (server : ServerSettings) : Json :=
  Json.record [
    .field "name" name,
    .field "command" server.command,
    .field "args" server.args,
    .field "language_ids" server.languages,
    .field "configured" (settings.servers.lookup name).isSome]

/-- Carries out a command about the settings. -/
def config (workplace : Workplace) (command : ConfigCommand) : Report :=
  let machine := workplace.machine
  let work := Work.begin workplace
  let display (path : String) : String := Path.relativeTo workplace.root path
  match command with
  | .init ofUser force =>
    match Settings.create machine.environment machine.files workplace.root ofUser force with
    | .error error => .refusal work error.message
    | .ok (files, path) =>
      { Report.success work [
          .field "status" "created",
          .field "path" (display path),
          .field "level" (levelName ofUser "project")] with files }
  | .show ofUser =>
    match Settings.load machine.environment machine.files workplace.root ofUser with
    | .error error => .refusal work error.message
    | .ok settings => .success work [
        .field "level" (levelName ofUser "merged"),
        .field "config" settings]
  | .path ofUser =>
    let path := Settings.path machine.environment workplace.root ofUser
    .success work [
      .field "level" (levelName ofUser "project"),
      .field "path" (display path),
      .field "exists" (machine.files.isPresent path)]
  | .servers =>
    let settings := workplace.settings
    let entries := settings.serverNames.filterMap fun name =>
      (settings.server? name).map (serverEntry settings name)
    .success work [.field "servers" (Json.arr entries)]

end LanguageClient.CommandLine
