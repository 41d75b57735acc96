import LanguageClient.Workspace.Documents

/-!
# Lists of locations

A list of locations groups ranges of offsets by document and holds every document of the list open.
An entry is current as long as its document is open in the version that it had when the list was
built; an entry that is no longer current does not show its ranges.
-/

namespace LanguageClient

/-- The offsets from a start up to an end. -/
abbrev OffsetRange := Nat × Nat

/-- The ranges in one document. -/
structure LocationEntry where
  document : Nat
  version : Nat
  ranges : List OffsetRange

/-- Ranges in several documents; one document may have several entries. -/
structure LocationList where
  entries : List LocationEntry

/-- What an entry is looked up by. -/
inductive DocumentKey
  | document (id : Nat)
  | address (uri : String)

namespace LocationEntry

/-- Whether the document of the entry is open and unchanged. -/
def isCurrent (session : Session) (entry : LocationEntry) : Bool :=
  session.documents[entry.document]?.any fun document =>
    !document.isClosed && document.version == entry.version

/-- The address of the document of the entry. -/
def uri (session : Session) (entry : LocationEntry) : String :=
  ((session.documents[entry.document]?).map TextDocument.uri).getD ""

/-- Whether the entry is that of a key. -/
def isMeant (session : Session) (entry : LocationEntry) : DocumentKey → Bool
  | .document id => entry.document == id
  | .address address => entry.uri session == address

end LocationEntry

namespace LocationList

/-- The entries that are current. -/
def current (list : LocationList) (session : Session) : List LocationEntry :=
  list.entries.filter (LocationEntry.isCurrent session)

/-- The text by which a key is reported. -/
def keyText (session : Session) : DocumentKey → String
  | .document id => ((session.documents[id]?).map TextDocument.uri).getD ""
  | .address uri => uri

/-- The ranges of the first entry of a key. -/
def get (list : LocationList) (session : Session) (key : DocumentKey) :
    Except LocationError (List OffsetRange) :=
  match list.entries.find? fun entry => entry.isMeant session key with
  | none => .error (.noEntry (keyText session key))
  | some entry =>
    if entry.isCurrent session then .ok entry.ranges
    else .error (.staleEntry (entry.uri session))

/-- The entry and its range, if there is exactly one of each. -/
def single (list : LocationList) (session : Session) :
    Except LocationError (LocationEntry × OffsetRange) :=
  match list.current session with
  | [entry] =>
    match entry.ranges with
    | [range] => .ok (entry, range)
    | ranges => .error (.notSingle 1 ranges.length)
  | entries =>
    .error (.notSingle entries.length
      (entries.foldr (fun entry count => entry.ranges.length + count) 0))

end LocationList

namespace Session

/-- Builds a list from documents and their ranges, taking a hold on each document. -/
def buildEntries : Session → List (Nat × List OffsetRange) →
    Except DocumentError (List LocationEntry × Session)
  | session, [] => .ok ([], session)
  | session, (id, ranges) :: rest => do
    let session ← session.reopen id
    let document ← session.find id
    let (entries, session) ← buildEntries session rest
    return (⟨id, document.version, ranges⟩ :: entries, session)

/-- Builds a list from documents and lists of ranges, which have to be equally many. -/
def buildList (session : Session) (documents : List Nat) (ranges : List (List OffsetRange)) :
    Except LocationError (LocationList × Session) :=
  if documents.length != ranges.length then
    .error (.lengthMismatch documents.length ranges.length)
  else
    match session.buildEntries (documents.zip ranges) with
    | .ok (entries, session) => .ok (⟨entries⟩, session)
    | .error error => .error (.document error)

/-- The targets that are opened for a list so far: the document and the ranges of each run of equal
addresses, in reverse order, and the address of the run that may go on. -/
structure OpenRuns where
  runs : List (Nat × List OffsetRange)
  current : Option String

/-- Adds the range of a target to the last run. -/
def addRange (session : Session) (opened : OpenRuns) (range : Range) :
    OpenRuns × Except DocumentError Unit :=
  match opened.runs with
  | [] => (opened, .ok ())
  | (id, ranges) :: rest =>
    match session.find id >>= fun document => document.offsetsOf range with
    | .ok offsets => ({ opened with runs := (id, ranges ++ [offsets]) :: rest }, .ok ())
    | .error error => (opened, .error error)

/-- Opens the document of a target unless the run before it goes on, and adds the target's range.
What was opened before a failure is kept, so that it can be given back. -/
def openTarget (session : Session) (opened : OpenRuns) (uri : String) (range : Range) :
    Session × OpenRuns × Except DocumentError Unit :=
  if opened.current == some uri then (session, session.addRange opened range)
  else
    match session.openDocument uri none with
    | .ok (id, session) => (session, session.addRange ⟨(id, []) :: opened.runs, some uri⟩ range)
    | .error error => (session, opened, .error error)

/-- Opens the documents of targets up to the first failure. -/
def openTargets : Session → OpenRuns → List (String × Range) →
    Session × OpenRuns × Except DocumentError Unit
  | session, opened, [] => (session, opened, .ok ())
  | session, opened, (uri, range) :: rest =>
    match session.openTarget opened uri range with
    | (session, opened, .ok ()) => openTargets session opened rest
    | failed => failed

/-- Whether one range comes before another. -/
def rangeBefore (a b : OffsetRange) : Bool :=
  a.1 < b.1 || (a.1 == b.1 && a.2 ≤ b.2)

/-- Builds a list from the targets of locations. The documents are held open while the list is
built, whether that succeeds or not. -/
def listOfLocations (session : Session) (locations : Locations) :
    Except LocationError LocationList × Session :=
  let (session, opened, outcome) := session.openTargets ⟨[], none⟩ locations.targets
  let runs := opened.runs.reverse
  let (result, session) : Except LocationError LocationList × Session :=
    match outcome with
    | .error error => (.error (.document error), session)
    | .ok () =>
      match session.buildList (runs.map Prod.fst) (runs.map fun run =>
          run.2.mergeSort rangeBefore) with
      | .ok (list, session) => (.ok list, session)
      | .error error => (.error error, session)
  (result, runs.foldl (fun session run => session.releaseIfOpen run.1) session)

/-- Gives back the holds of a list. -/
def closeList (session : Session) (list : LocationList) : Session :=
  list.entries.foldl (fun session entry => session.releaseIfOpen entry.document) session

end Session

end LanguageClient
