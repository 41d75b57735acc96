import LanguageClient.Toml.Draft
import LanguageClient.Toml.Quoted
import LanguageClient.Toml.Scalar

/-!
# Reading a settings file

A document is read line by line; the lines then build its tables. As in the reader of JSON, values
are read by recursion on how deep arrays and inline tables may be nested.
-/

namespace LanguageClient.Toml

/-- Drops the blanks of a line. -/
def skipSpace (chars : List Char) : List Char :=
  chars.dropWhile isSpace

/-- Drops a comment, if one begins here. -/
def skipComment (chars : List Char) : List Char :=
  match chars with
  | '#' :: rest => rest.dropWhile isPrintable
  | chars => chars

/-- Drops blanks, comments and ends of lines. -/
def skipLines : (fuel : Nat) → List Char → List Char
  | 0, chars => chars
  | _ + 1, [] => []
  | fuel + 1, c :: rest =>
    if isSpace c then skipLines fuel rest
    else if c == '#' then skipLines fuel (rest.dropWhile isPrintable)
    else
      match dropNewline? (c :: rest) with
      | some rest => skipLines fuel rest
      | none => c :: rest

/-- Drops what may stand before and after an item of an array. -/
def skipFiller (chars : List Char) : List Char :=
  skipLines chars.length chars

/-- Whether a character may stand in a key without quotes. -/
def isKeyChar (c : Char) : Bool :=
  c.isAlphanum || c == '-' || c == '_'

/-- One key, bare or between quotes. -/
def readKey? (chars : List Char) : Option (String × List Char) :=
  match chars.takeWhile isKeyChar with
  | [] => readLineQuoted? chars
  | bare => some (String.ofList bare, chars.dropWhile isKeyChar)

/-- How many keys a dotted key may have, and how deep values may be nested, at most. -/
def maxDepth : Nat := 79

/-- The keys of a dotted key, with blanks around each of them. -/
def readKeys? : (fuel : Nat) → List Char → Option (List String × List Char)
  | 0, _ => none
  | fuel + 1, chars => do
    let (key, rest) ← readKey? (skipSpace chars)
    match skipSpace rest with
    | '.' :: rest =>
      let (keys, rest) ← readKeys? fuel rest
      some (key :: keys, rest)
    | rest => some ([key], rest)

/-- A key, an equals sign and a value. -/
def readEntry? (value : List Char → Option (Toml × List Char)) (chars : List Char) :
    Option ((List String × Toml) × List Char) := do
  let (keys, rest) ← readKeys? maxDepth chars
  match rest with
  | '=' :: rest =>
    let (value, rest) ← value (skipSpace rest)
    some ((keys, value), rest)
  | _ => none

/-- The items of an array after its bracket or after a comma, up to the closing bracket. -/
def readItems? (value : List Char → Option (Toml × List Char)) :
    (fuel : Nat) → List Char → Option (List Toml × List Char)
  | 0, _ => none
  | fuel + 1, chars =>
    match skipFiller chars with
    | ']' :: rest => some ([], rest)
    | chars => do
      let (item, rest) ← value chars
      match skipFiller rest with
      | ',' :: rest =>
        let (items, rest) ← readItems? value fuel rest
        some (item :: items, rest)
      | ']' :: rest => some ([item], rest)
      | _ => none

/-- The entries of an inline table, which stands on one line, up to the closing brace. -/
def readEntries? (value : List Char → Option (Toml × List Char)) :
    (fuel : Nat) → List Char → Option (List (List String × Toml) × List Char)
  | 0, _ => none
  | fuel + 1, chars => do
    let (entry, rest) ← readEntry? value chars
    match skipSpace rest with
    | ',' :: rest =>
      let (entries, rest) ← readEntries? value fuel rest
      some (entry :: entries, rest)
    | '}' :: rest => some ([entry], rest)
    | _ => none

/-- A value that is neither an array nor an inline table. -/
def readPlain? (chars : List Char) : Option (Toml × List Char) :=
  match chars with
  | '"' :: _ => (readQuoted? chars).map fun found => (.text found.1, found.2)
  | '\'' :: _ => (readQuoted? chars).map fun found => (.text found.1, found.2)
  | chars => readScalar? chars

/-- A value whose arrays and inline tables are nested at most `depth` deep. -/
def readValue? : (depth : Nat) → List Char → Option (Toml × List Char)
  | 0, chars => readPlain? chars
  | depth + 1, chars =>
    match chars with
    | '[' :: rest => do
      let (items, rest) ← readItems? (readValue? depth) (rest.length + 1) rest
      some (.array items, rest)
    | '{' :: rest =>
      match skipSpace rest with
      | '}' :: rest => some (.table [], rest)
      | rest => do
        let (entries, rest) ← readEntries? (readValue? depth) (rest.length + 1) rest
        some (← inlineTable? entries, rest)
    | chars => readPlain? chars

/-- The end of a line or of the document, after blanks and perhaps a comment. -/
def endLine? (chars : List Char) : Option (List Char) :=
  match skipComment (skipSpace chars) with
  | [] => some []
  | rest => dropNewline? rest

/-- One line. -/
def readLine? (chars : List Char) : Option (Line × List Char) := do
  match skipSpace chars with
  | '[' :: '[' :: rest =>
    let (keys, rest) ← readKeys? maxDepth rest
    match rest with
    | ']' :: ']' :: rest => some (.nextHeader keys, ← endLine? rest)
    | _ => none
  | '[' :: rest =>
    let (keys, rest) ← readKeys? maxDepth rest
    match rest with
    | ']' :: rest => some (.header keys, ← endLine? rest)
    | _ => none
  | chars =>
    match endLine? chars with
    | some rest => some (.blank, rest)
    | none =>
      let (entry, rest) ← readEntry? (readValue? maxDepth) chars
      some (.entry entry.1 entry.2, ← endLine? rest)

/-- The lines of a document. -/
def readLines? : (fuel : Nat) → List Char → Option (List Line)
  | _, [] => some []
  | 0, _ :: _ => none
  | fuel + 1, chars => do
    let (line, rest) ← readLine? chars
    let lines ← readLines? fuel rest
    some (line :: lines)

/-- Drops the mark that may open a document. -/
def skipMark (chars : List Char) : List Char :=
  match chars with
  | '\uFEFF' :: rest => rest
  | chars => chars

/-- Reads a document. -/
def parse? (text : String) : Option Toml := do
  let chars := skipMark text.toList
  let lines ← readLines? chars.length chars
  ofLines? lines

end LanguageClient.Toml
