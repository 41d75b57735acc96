import LanguageClient.Path

/-!
# Languages of files

The language of a file is told by its name. A few full names are known in any case; otherwise the
longest end of the name that starts with a dot and is in the table decides.
-/

namespace LanguageClient

/-- Each language with the ends of file names that tell it. -/
def languageSuffixes : List (String × List String) := [
  ("rust", [".rs"]),
  ("c", [".c", ".cats", ".idc"]),
  ("cpp", [".cpp", ".c++", ".cc", ".cp", ".cxx", ".h", ".h++",
    ".hh", ".hpp", ".hxx", ".inl", ".ipp", ".tcc", ".tpp"]),
  ("go", [".go"]),
  ("zig", [".zig"]),
  ("d", [".d", ".di"]),
  ("java", [".java"]),
  ("kotlin", [".kt", ".kts"]),
  ("scala", [".scala", ".sc"]),
  ("clojure", [".clj", ".cljs", ".cljc", ".cljx", ".edn"]),
  ("groovy", [".groovy", ".gradle"]),
  ("csharp", [".cs", ".csx"]),
  ("razor", [".cshtml"]),
  ("fsharp", [".fs", ".fsi", ".fsx"]),
  ("vb", [".vb"]),
  ("typescript", [".ts", ".mts", ".cts"]),
  ("typescriptreact", [".tsx"]),
  ("javascript", [".js", ".mjs", ".cjs"]),
  ("javascriptreact", [".jsx"]),
  ("html", [".html", ".htm", ".xhtml"]),
  ("css", [".css"]),
  ("scss", [".scss"]),
  ("less", [".less"]),
  ("vue", [".vue"]),
  ("svelte", [".svelte"]),
  ("python", [".py", ".pyi", ".pyw"]),
  ("ruby", [".rb", ".rake", ".gemspec"]),
  ("php", [".php"]),
  ("perl", [".pl", ".pm"]),
  ("lua", [".lua"]),
  ("shellscript", [".sh", ".bash", ".zsh"]),
  ("powershell", [".ps1", ".psm1", ".psd1"]),
  ("bat", [".bat", ".cmd"]),
  ("r", [".r", ".R"]),
  ("julia", [".jl"]),
  ("dart", [".dart"]),
  ("swift", [".swift"]),
  ("objective-c", [".m"]),
  ("objective-cpp", [".mm"]),
  ("haskell", [".hs", ".lhs"]),
  ("elixir", [".ex", ".exs"]),
  ("eex", [".eex", ".leex", ".heex"]),
  ("html-eex", [".html.eex", ".html.leex", ".html.heex"]),
  ("erlang", [".erl", ".hrl", ".escript"]),
  ("elm", [".elm"]),
  ("ocaml", [".ml", ".mli"]),
  ("json", [".json"]),
  ("jsonc", [".jsonc"]),
  ("toml", [".toml"]),
  ("yaml", [".yaml", ".yml"]),
  ("xml", [".xml", ".xsd", ".xsl"]),
  ("markdown", [".md", ".markdown"]),
  ("latex", [".tex", ".sty", ".cls"]),
  ("bibtex", [".bib"]),
  ("sql", [".sql"]),
  ("diff", [".diff", ".patch"]),
  ("ini", [".ini", ".cfg"]),
  ("proto3", [".proto"])]

/-- Full file names in lower case with their languages. -/
def languageFileNames : List (String × String) := [
  ("dockerfile", "dockerfile"), ("containerfile", "dockerfile"), ("makefile", "makefile"),
  ("gnumakefile", "makefile"), ("cmakelists.txt", "cmake"), ("gemfile", "ruby"),
  ("rakefile", "ruby")]

/-- The language whose table entry holds this end of a name. -/
def languageOfSuffix? (suffix : String) : Option String :=
  (languageSuffixes.find? fun entry => entry.2.contains suffix).map Prod.fst

/-- The language of the longest known end that starts with a dot. -/
def languageOfSuffixes? : List Char → Option String
  | [] => none
  | c :: rest =>
    if c == '.' then
      match languageOfSuffix? (String.ofList (c :: rest)) with
      | some language => some language
      | none => languageOfSuffixes? rest
    else languageOfSuffixes? rest

/-- The language of the file at a path. -/
def languageOfPath? (path : String) : Option String := do
  let name ← Path.fileName? path
  match languageFileNames.lookup (String.ofList (name.toList.map Char.toLower)) with
  | some language => some language
  | none => languageOfSuffixes? name.toList

end LanguageClient
