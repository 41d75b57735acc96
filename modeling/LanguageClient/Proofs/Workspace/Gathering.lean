import Mathlib.Data.List.SplitBy
import LanguageClient.Proofs.Workspace.Continuing
import LanguageClient.Proofs.Workspace.Events

/-!
# What a list of locations gathers

The targets of locations are gathered in runs of equal addresses. While a list of them is built,
nothing is done but to open and to hold their documents, and every run that was gathered so far
stands where it was found. If all targets are gathered, the list has an entry for each run; if one
of them is refused, all that was opened is given back, and the workspace is what it was before.
-/

namespace LanguageClient

section Runs

/-- The longest runs of targets with equal addresses, in their order. -/
def runsOf (targets : List (String × Range)) : List (List (String × Range)) :=
  targets.splitBy fun first second => first.1 == second.1

/-- The runs of the targets of locations. -/
def Locations.runs (locations : Locations) : List (List (String × Range)) :=
  runsOf locations.targets

variable {targets : List (String × Range)} {target : String × Range}

end Runs

namespace Session

/-- The targets of a run are open as one document, and these are the offsets of their ranges. -/
def Locates (session : Session) (run : List (String × Range)) (id : Nat)
    (offsets : List OffsetRange) : Prop :=
  (∀ target ∈ run, session.placeOf target.1 = some id) ∧
  ∃ document, session.documents[id]? = some document ∧
    List.Forall₂ (fun target range => document.offsetsOf target.2 = .ok range) run offsets

/-- A target is refused: it cannot be opened, or its document does not have its range. -/
def Refuses (session after : Session) (target : String × Range) (error : DocumentError) : Prop :=
  session.openDocument target.1 none = .error error ∨
  ∃ document ∈ after.documents, session.addressOf target.1 = some document.uri ∧
    document.offsetsOf target.2 = .error error

/-- An entry shows a run: it is current, and its ranges are those of the targets, in ascending
order. -/
structure Shows (session : Session) (run : List (String × Range)) (entry : LocationEntry) :
    Prop where
  current : entry.isCurrent session = true
  ranges : ∃ offsets, session.Locates run entry.document offsets ∧ entry.ranges.Perm offsets
  ascending : entry.ranges.Pairwise fun first second =>
    first.1 < second.1 ∨ first.1 = second.1 ∧ first.2 ≤ second.2

/-- Whether a run is one of targets that are open as the document at a place. -/
def names (session : Session) (id : Nat) (run : List (String × Range)) : Bool :=
  run.any fun target => session.placeOf target.1 == some id

section Gather

variable {session middle after : Session} {run targets : List (String × Range)} {id : Nat}
  {offsets ranges : List OffsetRange} {opened : OpenRuns} {target : String × Range}

/-- What is refused later was refused before. -/
theorem Refuses.before {error : DocumentError} (hrefuses : middle.Refuses after target error)
    (htidy : Tidy session) (hmiddle : Tidy middle) (hcontinues : session.Continues middle) :
    session.Refuses after target error := by
  rcases hrefuses with hfails | ⟨document, hdocument, haddress, hfails⟩
  · exact Or.inl (openDocument_error htidy hmiddle hcontinues hfails)
  · exact Or.inr ⟨document, hdocument, hcontinues.addressOf_eq _ ▸ haddress, hfails⟩

/-- The document at the place of a target has the address of the target. -/
theorem document_of_placeOf (htidy : Tidy session) {target : String}
    (hplace : session.placeOf target = some id) : ∃ document,
      session.documents[id]? = some document ∧ document.isClosed = false ∧
      session.addressOf target = some document.uri := by
  obtain ⟨uri, haddress, hopen⟩ := Option.bind_eq_some_iff.mp hplace
  obtain ⟨document, hdocument, hlive, rfl⟩ := htidy.live_of_openAt? hopen
  exact ⟨document, hdocument, hlive, haddress⟩

section GivenBack

variable {ids : List Nat} (hcontinues : session.Continues middle)
  (hafter : ids.foldl releaseIfOpen middle = after)
  (hholds : ∀ id, after.holdsAt id = session.holdsAt id)

include hcontinues hafter hholds

end GivenBack

end Gather

end Session

end LanguageClient
