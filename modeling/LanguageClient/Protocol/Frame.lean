import LanguageClient.Protocol.Message
import LanguageClient.Text.Blank
import LanguageClient.Text.Numeral
import LanguageClient.Text.Utf8

/-!
# Framed messages on a byte stream

Every message follows a block of header lines that tells its length in bytes and ends in an empty
line. Reading takes one message from the front of the bytes that have arrived. While the stream is
open, bytes that may still be continued are left alone; once it has ended, they are an error.
-/

namespace LanguageClient

/-- Why no message can be read from a stream. -/
inductive FrameError
  /-- The stream ended where a header line should begin. -/
  | closed
  /-- The stream ended inside the body of a message. -/
  | truncated
  /-- The header block does not tell the length. -/
  | missingLength
  /-- A header line is not text, or the length is no number. -/
  | badHeader
  /-- The body would be longer than any block of memory. -/
  | oversized
  /-- The body is not text. -/
  | badText
  /-- The body is no message. -/
  | badMessage (error : MessageError)
  deriving DecidableEq

namespace FrameError

/-- Whether the stream ended too early, rather than holding something wrong. -/
def isEnd : FrameError → Bool
  | .closed | .truncated => true
  | _ => false

/-- The wording of the errors that have one of their own. -/
def message? : FrameError → Option String
  | .closed => some "Server closed connection"
  | .missingLength => some "Missing Content-Length"
  | .badMessage .unknownKind => some "Invalid LSP message"
  | _ => none

end FrameError

namespace Frame

/-- The name of the header that tells the length. -/
def lengthHeader : List Char := "Content-Length:".toList

/-- The length of a body has to fit into a word of this many bits. -/
def lengthBits : Nat := 64

/-- How many bytes a block of memory may have. -/
def maxBody : Nat := Nat.pow 2 63 - 1

/-- The bytes of a body behind the header that tells their number. -/
def writeBody (body : List UInt8) : List UInt8 :=
  let header := lengthHeader ++ ' ' :: Nat.toDigits 10 body.length ++ "\r\n\r\n".toList
  Utf8.encodeChars header ++ body

/-- The bytes of a message. -/
def write (text : String) : List UInt8 :=
  writeBody (Utf8.encode text)

/-- The first line with its line feed, and the rest; without a line feed there is no line. -/
def takeLine? : List UInt8 → Option (List UInt8 × List UInt8)
  | [] => none
  | byte :: rest =>
    if byte == 0x0A then some ([byte], rest)
    else
      match takeLine? rest with
      | some (line, rest) => some (byte :: line, rest)
      | none => none

/-- Taking a line leaves fewer bytes than there were, since a line holds at least its line feed. -/
theorem length_of_takeLine? {bytes line rest : List UInt8}
    (h : takeLine? bytes = some (line, rest)) : rest.length < bytes.length := by
  induction bytes generalizing line rest with
  | nil => simp [takeLine?] at h
  | cons byte tail ih =>
    unfold takeLine? at h
    split at h
    · simp only [Option.some.injEq, Prod.mk.injEq] at h
      simp [← h.2]
    · split at h
      · rename_i found
        simp only [Option.some.injEq, Prod.mk.injEq] at h
        have := ih found
        simp only [List.length_cons]
        rw [← h.2]
        omega
      · simp at h

/-- What a header line says. -/
inductive HeaderLine
  /-- The block ends here. -/
  | stop
  /-- The body has this many bytes. -/
  | length (bytes : Nat)
  /-- A header that does not matter here. -/
  | other
  /-- The line cannot be read. -/
  | bad

/-- Reads a header line; blanks around it and around the length do not count. -/
def readHeader (line : List UInt8) : HeaderLine :=
  match Utf8.decode? line with
  | none => .bad
  | some text =>
    let text := dropEndsWhile isBlank text.toList
    if text.isEmpty then .stop
    else if lengthHeader.isPrefixOf text then
      let value := dropEndsWhile isBlank (text.drop lengthHeader.length)
      match Numeral.readChars (Nat.pow 2 lengthBits) value with
      | .ok bytes => .length bytes
      | .error _ => .bad
    else .other

/-- What comes of reading at the front of the bytes that have arrived. -/
inductive Reading (α : Type)
  /-- Something was read, and these bytes remain. -/
  | done (value : α) (rest : List UInt8)
  /-- The bytes cannot be read. -/
  | failed (error : FrameError)
  /-- More bytes have to arrive first. -/
  | waiting

/-- Reads header lines up to the empty one; the last length counts. The last line of an ended
stream needs no line feed. -/
def readHeaders (ended : Bool) (length? : Option Nat) (bytes : List UInt8) : Reading Nat :=
  let finish (length? : Option Nat) (rest : List UInt8) : Reading Nat :=
    match length? with
    | some length => .done length rest
    | none => .failed .missingLength
  match _ : takeLine? bytes with
  | some (line, rest) =>
    match readHeader line with
    | .stop => finish length? rest
    | .length length => readHeaders ended (some length) rest
    | .other => readHeaders ended length? rest
    | .bad => .failed .badHeader
  | none =>
    if !ended then .waiting
    else if bytes.isEmpty then .failed .closed
    else
      match readHeader bytes with
      | .stop => finish length? []
      | .length _ | .other => .failed .closed
      | .bad => .failed .badHeader
termination_by bytes.length
decreasing_by all_goals exact length_of_takeLine? (by assumption)

/-- The message in a body. -/
def readBody (body : List UInt8) : Except FrameError Message :=
  match Utf8.decode? body with
  | none => .error .badText
  | some text =>
    match Message.parse text with
    | .ok message => .ok message
    | .error error => .error (.badMessage error)

/-- Reads one message from the front of the bytes that have arrived. -/
def read (ended : Bool) (bytes : List UInt8) : Reading Message :=
  match readHeaders ended none bytes with
  | .done length rest =>
    if maxBody < length then .failed .oversized
    else if rest.length < length then
      if ended then .failed .truncated else .waiting
    else
      match readBody (rest.take length) with
      | .ok message => .done message (rest.drop length)
      | .error error => .failed error
  | .failed error => .failed error
  | .waiting => .waiting

/-- Reads messages from a stream that has ended, up to the first failure. -/
def readAllWithin : (fuel : Nat) → List UInt8 → List Message × FrameError
  | 0, _ => ([], .closed)
  | fuel + 1, bytes =>
    match read true bytes with
    | .done message rest =>
      let (messages, error) := readAllWithin fuel rest
      (message :: messages, error)
    | .failed error => ([], error)
    | .waiting => ([], .closed)

/-- The messages on a stream that has ended, and why no more of them can be read; every message
takes at least one byte. -/
def readAll (bytes : List UInt8) : List Message × FrameError :=
  readAllWithin (bytes.length + 1) bytes

end Frame

end LanguageClient
