import LanguageClient.CommandLine.Run

/-!
# The program

The outer layer of the command line: it gathers the words, the variables and the files that a
command may look at, carries the command out, writes the files that it has changed, and prints what
it has to say. Processes are not started from here, so no language server is installed.
-/

namespace LanguageClient.Program

/-- The variables that are looked at. -/
def variableNames : List String := [
  "HOME", "XDG_CONFIG_HOME", CommandLine.rootVariable, Settings.requestVariable,
  Settings.featureVariable]

/-- The variables that are set. -/
def readEnvironment : IO Environment := do
  variableNames.filterMapM fun name => return (← IO.getEnv name).map (name, ·)

/-- The absolute form of a path. -/
def absolute (home path : String) : String :=
  Path.join home path

/-- The files of settings that a command may look at. -/
def settingsPaths (environment : Environment) (home root : String) : List String :=
  [Settings.path environment root true, Settings.path environment root false].map (absolute home)

/-- Adds a folder to a tree, if something is there. -/
def loadFolder (files : FileTree) (path : String) : IO FileTree := do
  try
    let _ ← IO.FS.realPath path
    return (files.makeFolders path).toOption.getD files
  catch _ => return files

/-- Adds a file to a tree, if it is there. -/
def load (files : FileTree) (path : String) : IO FileTree := do
  try
    let bytes ← IO.FS.readBinFile path
    return (files.writeAlong path bytes.toList).toOption.getD files
  catch _ => return files

/-- Writes a file if a command has changed it. -/
def store (before after : FileTree) (path : String) : IO Unit := do
  match after.read path with
  | .error _ => return
  | .ok bytes =>
    if (before.read path).toOption != some bytes then
      IO.FS.createDirAll ("/".intercalate (Path.segments path).dropLast)
      IO.FS.writeBinFile path bytes.toByteArray

/-- Carries out a command line. -/
def run (words : List String) : IO UInt32 := do
  let environment ← readEnvironment
  let home := toString (← IO.currentDir)
  let root : String :=
    match CommandLine.read (environment.lookup CommandLine.rootVariable) words with
    | .ok invocation => absolute home (invocation.root.getD home)
    | .error _ => home
  let bare ← loadFolder (.bare ((Path.segments home).filter (!Path.isIdle ·))) root
  let paths := settingsPaths environment home root
  let files ← paths.foldlM load bare
  let report := CommandLine.run ⟨files, environment, [], ⟨[], none, []⟩, 0⟩ words
  paths.forM (store files report.files)
  let output ← IO.getStdout
  output.putStr report.output.print
  output.flush
  return UInt32.ofNat report.exitCode

end LanguageClient.Program

/-- The program. -/
def main (words : List String) : IO UInt32 :=
  LanguageClient.Program.run words
