import LanguageClient.Json.Parser

/-!
# Quoted texts of a settings file

A text stands between double quotes, where a backslash introduces an escape, or between single
quotes, where every character stands for itself. Either kind may span several lines between three
quotes in a row.
-/

namespace LanguageClient.Toml

/-- A blank within a line. -/
def isSpace (c : Char) : Bool :=
  c == ' ' || c == '\t'

/-- Whether a character may stand in a text or a comment: no control character but the tab. -/
def isPrintable (c : Char) : Bool :=
  c == '\t' || (0x20 ≤ c.toNat && c != '\x7f')

/-- The end of a line at the front, and what follows it. -/
def dropNewline? : List Char → Option (List Char)
  | '\n' :: rest => some rest
  | '\r' :: '\n' :: rest => some rest
  | _ => none

/-- The character of a code that so many hexadecimal digits write; surrogates are refused. -/
def readCode? (digits : Nat) (chars : List Char) : Option (Char × List Char) := do
  let values ← (chars.take digits).mapM Json.hexValue?
  let code := values.foldl (fun sum value => sum * 16 + value) 0
  if values.length == digits && code.isValidChar then
    some (Char.ofNat code, chars.drop digits)
  else none

/-- The character after a backslash. -/
def readEscape? : List Char → Option (Char × List Char)
  | 'b' :: rest => some ('\x08', rest)
  | 't' :: rest => some ('\t', rest)
  | 'n' :: rest => some ('\n', rest)
  | 'f' :: rest => some ('\x0c', rest)
  | 'r' :: rest => some ('\r', rest)
  | '"' :: rest => some ('"', rest)
  | '\\' :: rest => some ('\\', rest)
  | 'u' :: rest => readCode? 4 rest
  | 'U' :: rest => readCode? 8 rest
  | _ => none

/-- The rest of a text on one line, after its opening quote. -/
def readLineText? (quote : Char) : (fuel : Nat) → List Char → Option (List Char × List Char)
  | 0, _ => none
  | _ + 1, [] => none
  | fuel + 1, c :: rest =>
    if c == quote then some ([], rest)
    else if c == '\\' && quote == '"' then do
      let (c, rest) ← readEscape? rest
      let (content, rest) ← readLineText? quote fuel rest
      some (c :: content, rest)
    else if isPrintable c then do
      let (content, rest) ← readLineText? quote fuel rest
      some (c :: content, rest)
    else none

/-- Drops blanks and ends of lines. -/
def dropLines : (fuel : Nat) → List Char → List Char
  | 0, chars => chars
  | _ + 1, [] => []
  | fuel + 1, c :: rest =>
    if isSpace c then dropLines fuel rest
    else
      match dropNewline? (c :: rest) with
      | some rest => dropLines fuel rest
      | none => c :: rest

/-- The rest of a text on several lines, after its opening quotes. It ends at three quotes in a
row, before which one or two more belong to the text. A backslash at the end of a line drops all
blanks up to the next character; every other end of a line is read as a line feed. -/
def readBlockText? (quote : Char) : (fuel : Nat) → List Char → Option (List Char × List Char)
  | 0, _ => none
  | _ + 1, [] => none
  | fuel + 1, c :: rest =>
    if c == quote then
      let quotes := ((c :: rest).takeWhile (· == quote)).length
      if 3 ≤ quotes then
        let inner := min (quotes - 3) 2
        some (List.replicate inner quote, rest.drop (inner + 2))
      else do
        let (content, rest) ← readBlockText? quote fuel rest
        some (c :: content, rest)
    else if c == '\\' && quote == '"' then
      match dropNewline? (rest.dropWhile isSpace) with
      | some below => readBlockText? quote fuel (dropLines below.length below)
      | none => do
        let (c, rest) ← readEscape? rest
        let (content, rest) ← readBlockText? quote fuel rest
        some (c :: content, rest)
    else
      match dropNewline? (c :: rest) with
      | some rest => do
        let (content, rest) ← readBlockText? quote fuel rest
        some ('\n' :: content, rest)
      | none =>
        if isPrintable c then do
          let (content, rest) ← readBlockText? quote fuel rest
          some (c :: content, rest)
        else none

/-- A text on one line, with its quotes. -/
def readLineQuoted? : List Char → Option (String × List Char)
  | [] => none
  | quote :: rest => do
    if quote != '"' && quote != '\'' then none
    let (content, rest) ← readLineText? quote (rest.length + 1) rest
    some (String.ofList content, rest)

/-- A text on one line or on several, with its quotes. An end of line right after three opening
quotes does not belong to the text. -/
def readQuoted? (chars : List Char) : Option (String × List Char) :=
  match chars with
  | a :: b :: c :: rest =>
    if (a == '"' || a == '\'') && a == b && b == c then do
      let body := (dropNewline? rest).getD rest
      let (content, rest) ← readBlockText? a (body.length + 1) body
      some (String.ofList content, rest)
    else readLineQuoted? chars
  | _ => readLineQuoted? chars

end LanguageClient.Toml
