import LanguageClient.Feature.Request
import LanguageClient.Text.Numeral

/-!
# Words of a command line

A command has options, which are named, and words, which are told apart by their order. Reading the
words after a command takes them from left to right. A word with a hyphen in front is an option up
to the first double hyphen. An option takes its value from the same word or from the next one, and
the value is only looked at when the word after it has been recognized.
-/

namespace LanguageClient.CommandLine

/-- Why a command line is not carried out. -/
inductive UsageError
  /-- Help was asked for. -/
  | help
  /-- The version was asked for, after the names of these commands. -/
  | version (commands : List String)
  /-- There is nothing at all where a command has to be named. -/
  | nothingGiven
  /-- No command is named. -/
  | missingCommand
  /-- There is no command of this name. -/
  | unknownCommand
  /-- There is no such option, or one word too many. -/
  | unknownArgument
  /-- Something that has to be given is missing. -/
  | missingArgument
  /-- Options exclude each other, or one is given twice. -/
  | conflict
  /-- A value is missing, or none of the possible ones. -/
  | invalidValue
  /-- A value cannot be read. -/
  | unreadableValue
  /-- An option has a value that takes none. -/
  | unexpectedValue
  deriving DecidableEq

namespace UsageError

/-- The exit code that goes with an error: asking for information is none. -/
def exitCode : UsageError → Nat
  | .help | .version _ => 0
  | _ => 2

/-- The error as it is seen from the command above. -/
def below (command : String) : UsageError → UsageError
  | .version commands => .version (command :: commands)
  | error => error

end UsageError

/-- The kinds of values that options take. -/
inductive ValueKind
  | text
  | path
  | seconds
  | truth
  | resolveSupport

namespace ValueKind

/-- Checks a value. -/
def check (value : String) : ValueKind → Except UsageError Unit
  | .text => .ok ()
  | .path => if value == "" then .error .invalidValue else .ok ()
  | .seconds =>
    match Numeral.read 64 value with
    | .ok _ => .ok ()
    | .error _ => .error .unreadableValue
  | .truth => if value == "true" || value == "false" then .ok () else .error .invalidValue
  | .resolveSupport =>
    match ResolveSupport.parse value with
    | .ok _ => .ok ()
    | .error _ => .error .unreadableValue

end ValueKind

/-- An option. -/
structure OptionShape where
  name : String
  letter : Option Char
  /-- The kind of its value; absent, it is a switch. -/
  value : Option ValueKind
  /-- Whether it may be given several times. -/
  repeats : Bool

namespace OptionShape

/-- An option with a value. -/
def valued (name : String) (kind : ValueKind) (letter : Option Char) : OptionShape :=
  ⟨name, letter, some kind, false⟩

/-- An option with a value that may be given several times. -/
def repeated (name : String) (kind : ValueKind) (letter : Option Char) : OptionShape :=
  ⟨name, letter, some kind, true⟩

/-- A switch. -/
def switch (name : String) (letter : Option Char) : OptionShape :=
  ⟨name, letter, none, false⟩

end OptionShape

/-- What may stand after the name of a command. -/
structure CommandShape where
  options : List OptionShape
  /-- How many words are told apart by their order. -/
  words : Nat
  /-- Whether there may be further words after a double hyphen. -/
  takesRest : Bool
  /-- The commands below this one. -/
  commands : List String

/-- What stands after the name of a command, as far as it has been read. -/
structure Given where
  /-- The options with their values, in order; a switch has none. -/
  options : List (String × List String)
  words : List String
  /-- The words after a double hyphen. -/
  rest : List String
  /-- An option whose value is still to come, or has not been looked at. -/
  pending : Option (OptionShape × Option String)
  /-- Whether a double hyphen has been read. -/
  isEscaped : Bool

namespace Given

/-- Nothing has been read yet. -/
def nothing : Given := ⟨[], [], [], none, false⟩

/-- Whether an option is given. -/
def has (given : Given) (name : String) : Bool :=
  (given.options.lookup name).isSome

/-- The values of an option. -/
def values (given : Given) (name : String) : List String :=
  (given.options.lookup name).getD []

/-- The value of an option that is given once. -/
def value? (given : Given) (name : String) : Option String :=
  (given.values name).head?

/-- Takes the value of an option. A missing value is reported before a repetition, and a repetition
before a value that cannot be read. -/
def accept (given : Given) (option : OptionShape) (value : Option String) :
    Except UsageError Given := do
  if option.value.isSome && value.isNone then throw .invalidValue
  if !option.repeats && given.has option.name then throw .conflict
  match option.value, value with
  | some kind, some value => kind.check value
  | _, _ => pure ()
  let values := given.values option.name ++ value.toList
  return { given with
    options := (given.options.filter fun entry => entry.1 != option.name) ++
      [(option.name, values)] }

/-- Looks at the value of the option before. -/
def resolve (given : Given) : Except UsageError Given :=
  match given.pending with
  | none => .ok given
  | some (option, value) => { given with pending := none }.accept option value

/-- Whether the next word is the value of the option before. -/
def awaitsValue (given : Given) : Bool :=
  given.pending.any fun entry => entry.2.isNone

end Given

/-- The switch that asks for help. -/
def helpSwitch : OptionShape := .switch "help" (some 'h')

/-- The switch that asks for the version. -/
def versionSwitch : OptionShape := .switch "version" (some 'V')

namespace CommandShape

/-- All options of a command. -/
def allOptions (shape : CommandShape) : List OptionShape :=
  shape.options ++ [helpSwitch, versionSwitch]

/-- Takes a switch; two of them end the reading. -/
def takeSwitch (given : Given) (option : OptionShape) : Except UsageError Given := do
  let given ← given.resolve
  if option.name == helpSwitch.name then throw .help
  else if option.name == versionSwitch.name then throw (.version [])
  else given.accept option none

/-- Takes an option with a value, which may stand in the same word. -/
def takeOption (given : Given) (option : OptionShape) (value : Option String) :
    Except UsageError Given := do
  let given ← given.resolve
  match value with
  | some value => given.accept option (some value)
  | none => return { given with pending := some (option, none) }

/-- Takes a word with two hyphens in front. -/
def takeLong (shape : CommandShape) (given : Given) (chars : List Char) :
    Except UsageError Given :=
  let name := String.ofList (chars.takeWhile (· != '='))
  let value := match chars.dropWhile (· != '=') with
    | [] => none
    | _ :: value => some (String.ofList value)
  match shape.allOptions.find? fun option => option.name == name with
  | none => .error .unknownArgument
  | some option =>
    if option.value.isSome then takeOption given option value
    else if value.isSome then .error .unexpectedValue
    else takeSwitch given option

/-- Takes the letters of a word with one hyphen in front. The letters after an option with a value
are its value, perhaps after an equals sign. -/
def takeLetters (shape : CommandShape) : Given → List Char → Except UsageError Given
  | given, [] => .ok given
  | given, letter :: rest =>
    match shape.allOptions.find? fun option => option.letter == some letter with
    | none => .error .unknownArgument
    | some option =>
      if option.value.isSome then
        let value := match rest with
          | [] => none
          | '=' :: value => some value
          | value => some value
        takeOption given option (value.map String.ofList)
      else
        match takeSwitch given option with
        | .ok given => takeLetters shape given rest
        | .error error => .error error

/-- Takes a word that is no option. -/
def takeWord (shape : CommandShape) (given : Given) (word : String) : Except UsageError Given := do
  if shape.takesRest && given.isEscaped then
    let given ← given.resolve
    return { given with rest := given.rest ++ [word] }
  else if given.words.length < shape.words then
    let given ← given.resolve
    return { given with words := given.words ++ [word] }
  else if shape.commands.isEmpty || (given.isEscaped && shape.commands.contains word) then
    throw .unknownArgument
  else throw .unknownCommand

/-- Reads the words after a command, up to the name of a command below it; that name and the words
after it are left. -/
def read (shape : CommandShape) : Given → List String →
    Except UsageError (Given × Option (String × List String))
  | given, [] => .ok (given, none)
  | given, word :: rest =>
    if given.isEscaped then
      match shape.takeWord given word with
      | .ok given => read shape given rest
      | .error error => .error error
    else if !given.awaitsValue && shape.commands.contains word then
      .ok (given, some (word, rest))
    else
      let next : Except UsageError Given :=
        match word.toList with
        | ['-', '-'] => .ok { given with isEscaped := true }
        | '-' :: '-' :: chars => shape.takeLong given chars
        | '-' :: letter :: letters => shape.takeLetters given (letter :: letters)
        | _ =>
          match given.pending with
          | some (option, none) => .ok { given with pending := some (option, some word) }
          | _ => shape.takeWord given word
      match next with
      | .ok given => read shape given rest
      | .error error => .error error

end CommandShape

end LanguageClient.CommandLine
