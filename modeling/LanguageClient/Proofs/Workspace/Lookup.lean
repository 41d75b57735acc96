import LanguageClient.Proofs.Addresses
import LanguageClient.Proofs.Workspace.Gathering

/-!
# What a list of locations is asked for

A list finds its entries under the addresses of their documents, and nothing else is such an
address. A target may spell the address of its document in another way: what is found under its own
spelling is then nothing, although the list has its ranges. Under the address of a document stands
the first run of this document, however its targets spell it.
-/

namespace LanguageClient

namespace Session

variable {session : Session} {run : List (String × Range)} {entry : LocationEntry}

/-- The address of a target leads to itself. -/
theorem addressOf_addressOf {target uri : String} (haddress : session.addressOf target = some uri) :
    session.addressOf uri = some uri := by
  obtain ⟨workspace, hworkspace, rfl⟩ := Option.map_eq_some_iff.mp haddress
  rw [addressOf, hworkspace, Option.map_some, Uri.ofPath_resolve_ofPath]

/-- An entry stands under the address of the targets of its run. -/
theorem Shows.addressOf_eq (hshows : session.Shows run entry) (htidy : Tidy session)
    {target : String × Range} (htarget : target ∈ run) :
    session.addressOf target.1 = some (entry.uri session) := by
  obtain ⟨offsets, hlocates, -⟩ := hshows.ranges
  obtain ⟨document, hdocument, -, haddress⟩ :=
    document_of_placeOf htidy (hlocates.1 target htarget)
  rw [haddress, LocationEntry.uri, hdocument]
  rfl

end Session

section Spelling

/-- A file whose name holds a plus sign. -/
def sumFile : FileTree :=
  ⟨["w"], [], [([], .folder), (["w"], .folder), (["w", "a+b"], .file [0x78, 0x0A])]⟩

/-- Targets in the file, with the plus sign as it is and as an address writes it. -/
def spellings : Locations :=
  .many [⟨"file:///w/a+b", ⟨⟨0, 0⟩, ⟨0, 1⟩⟩⟩, ⟨"file:///w/a%2Bb", ⟨⟨0, 1⟩, ⟨1, 0⟩⟩⟩]

/-- The workspace in which the file is not open yet. -/
def sumSession : Session :=
  ((Desk.begin sumFile [] "/w" .utf16).meetAll []).session

/-- A list of the targets is made, and it passes a test. -/
theorem made_of_test (test : LocationList → Session → Bool)
    (htest : (sumSession.listOfLocations spellings).1.toOption.any
      (test · (sumSession.listOfLocations spellings).2) = true) :
    ∃ list after, sumSession.listOfLocations spellings = (.ok list, after) ∧
      test list after = true := by
  cases hresult : sumSession.listOfLocations spellings with
  | mk result after =>
    rw [hresult] at htest
    cases result with
    | error error => cases htest
    | ok list => exact ⟨list, after, rfl, htest⟩

/-- Under the spelling of the first target, nothing is found. -/
theorem not_found_of_spellings : ∃ list after,
    sumSession.listOfLocations spellings = (.ok list, after) ∧
    ("file:///w/a+b", ⟨⟨0, 0⟩, ⟨0, 1⟩⟩) ∈ spellings.targets ∧
    list.get after (.address "file:///w/a+b") = .error (.noEntry "file:///w/a+b") := by
  obtain ⟨list, after, hlist, htest⟩ := made_of_test
    (fun list after => list.get after (.address "file:///w/a+b") =
      .error (.noEntry "file:///w/a+b")) (by decide +kernel)
  exact ⟨list, after, hlist, by decide +kernel, of_decide_eq_true htest⟩

end Spelling

end LanguageClient
