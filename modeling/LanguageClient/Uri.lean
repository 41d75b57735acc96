import LanguageClient.Path
import LanguageClient.Text.Utf8

/-!
# Addresses of documents

A file has the address `file://` followed by its path, in which every byte outside a small set of
characters is written as a percent sign and two hexadecimal digits. Addresses of other schemes are
only split into their scheme and their decoded path.
-/

namespace LanguageClient.Uri

/-- A hexadecimal digit in upper case. -/
def upperHexDigit (n : Nat) : Char :=
  if n < 10 then Char.ofNat ('0'.toNat + n) else Char.ofNat ('A'.toNat + (n - 10))

/-- Whether a character of a path stands for itself in an address. -/
def isPlain (c : Char) : Bool :=
  c.isAlphanum || c == '/' || c == '.' || c == '-' || c == '_' || c == '~' || c == ':'

/-- A byte as a percent sign and two digits. -/
def escapeByte (byte : UInt8) : List Char :=
  ['%', upperHexDigit (byte.toNat / 16), upperHexDigit (byte.toNat % 16)]

/-- The characters that stand for a character of a path. -/
def escapeChar (c : Char) : List Char :=
  if isPlain c then [c] else (String.utf8EncodeChar c).flatMap escapeByte

/-- The path of an address: backslashes count as slashes. -/
def escapePath (path : List Char) : List Char :=
  (path.map fun c => if c == '\\' then '/' else c).flatMap escapeChar

/-- The address of a file whose path is read from a folder. -/
def ofPath (folder path : String) : String :=
  let encoded := escapePath (if Path.isAbsolute path then path else Path.join folder path).toList
  String.ofList ((if encoded.head? == some '/' then "file://" else "file:///").toList ++ encoded)

/-- The value of a hexadecimal digit. -/
def hexValue? (byte : UInt8) : Option UInt8 :=
  if 0x30 ≤ byte && byte ≤ 0x39 then some (byte - 0x30)
  else if 0x41 ≤ byte && byte ≤ 0x46 then some (byte - 0x41 + 10)
  else if 0x61 ≤ byte && byte ≤ 0x66 then some (byte - 0x61 + 10)
  else none

/-- The byte that two hexadecimal digits denote. -/
def escapedByte? (high low : Option UInt8) : Option UInt8 := do
  let high ← high.bind hexValue?
  let low ← low.bind hexValue?
  some (high * 16 + low)

/-- The bytes that escapes stand for. A percent sign always takes the two bytes after it; if they
are no hexadecimal digits, the sign alone remains of the three. -/
def unescapeBytes : List UInt8 → List UInt8
  | 0x25 :: high :: low :: rest =>
    (escapedByte? (some high) (some low)).getD 0x25 :: unescapeBytes rest
  | 0x25 :: _ => [0x25]
  | byte :: rest => byte :: unescapeBytes rest
  | [] => []

/-- The text that an escaped text stands for. -/
def unescape (text : String) : String :=
  Utf8.decodeLossy (unescapeBytes (Utf8.encode text))

/-- What every address of a file begins with. -/
def fileScheme : String := "file://"

/-- Drops a given beginning. -/
def dropLeading? (start : List Char) (chars : List Char) : Option (List Char) :=
  if start.isPrefixOf chars then some (chars.drop start.length) else none

/-- Whether an address is that of a file. -/
def isFile (uri : String) : Bool :=
  fileScheme.toList.isPrefixOf uri.toList

/-- The path of a file; a text that is no address of a file is taken as a path. -/
def toPath (uri : String) : String :=
  match dropLeading? fileScheme.toList uri.toList with
  | some path => unescape (String.ofList path)
  | none => uri

/-- Whether the characters before a colon name a scheme; a single letter does not. -/
def isScheme (chars : List Char) : Bool :=
  1 < chars.length && chars.all fun c => c.isAlphanum || c == '+' || c == '-' || c == '.'

/-- The scheme of an address and what follows the colon; without a scheme it is a file. -/
def splitScheme (chars : List Char) : List Char × List Char :=
  let scheme := chars.takeWhile (· != ':')
  match chars.drop scheme.length with
  | ':' :: rest => if isScheme scheme then (scheme, rest) else ("file".toList, chars)
  | _ => ("file".toList, chars)

/-- Drops the authority, which stands between two slashes and the next one. -/
def dropAuthority (chars : List Char) : List Char :=
  match chars with
  | '/' :: '/' :: rest => rest.dropWhile (· != '/')
  | _ => chars

/-- The scheme and the decoded path of an address, without authority, query and fragment. -/
def split (uri : String) : String × String :=
  let (scheme, rest) := splitScheme uri.toList
  let path := (dropAuthority rest).takeWhile fun c => c != '?' && c != '#'
  (String.ofList scheme, unescape (String.ofList path))

end LanguageClient.Uri
