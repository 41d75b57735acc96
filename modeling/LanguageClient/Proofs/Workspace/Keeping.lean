import LanguageClient.Proofs.Document.Replaying
import LanguageClient.Proofs.Workspace.Telling

/-!
# Documents in order

Whatever is done to the documents of a workspace, each of them has the table of its text and a queue
of ranges of its text that follow each other, and none that is closed has edits left. So what is
told of a commit can be compared with what the commit has made, in every run.
-/

namespace LanguageClient

open Text

/-- A document has the table of its text and a queue that fits its text, which is empty when the
document is closed. -/
structure TextDocument.InOrder (document : TextDocument) : Prop where
  lines : document.lines = lineStarts document.text.toList
  fits : document.edits.Fits document.text.toList 0
  closed : document.isClosed = true → document.edits = []

namespace TextDocument.InOrder

variable {document committed : TextDocument} {change : DocumentChange}

theorem opened (workspace : Nat) (path uri language text : String) (encoding : PositionEncoding) :
    (TextDocument.opened workspace path uri language text encoding).InOrder :=
  ⟨rfl, trivial, fun _ => rfl⟩

/-- A document without pending edits is in order. -/
theorem discard (horder : document.InOrder) (holds : Nat) :
    { document with holds, edits := [] }.InOrder :=
  ⟨horder.lines, trivial, fun _ => rfl⟩

/-- The events of a commit, each applied with the table of the text at that moment, lead to the new
text exactly if all ranges are found again. -/
theorem replaceAll?_iff (horder : document.InOrder)
    (hcommit : document.commit = .ok (committed, change)) :
    replaceAll? document.encoding document.text.toList change.edits =
        some change.text.toList ↔
      document.edits.AllFoundAgain document.text.toList := by
  obtain ⟨-, events, hevents, -, rfl⟩ := Shift.commit_eq hcommit
  rw [horder.lines] at hevents
  rw [← EditQueue.replaceAll?_events_iff horder.fits hevents]
  simp only [String.toList_ofList]

end TextDocument.InOrder

/-- All documents of a session are in order. -/
def Session.InOrder (session : Session) : Prop :=
  ∀ document ∈ session.documents, document.InOrder

namespace Session.InOrder

variable {session after : Session} {turn : Turn}

theorem set {id : Nat} {changed : TextDocument} (horder : session.InOrder)
    (hchanged : changed.InOrder) : (session.setDocument id changed).InOrder := by
  intro document hdocument
  rcases List.mem_or_eq_of_mem_set hdocument with hold | rfl
  · exact horder document hold
  · exact hchanged

/-- Every shift keeps all documents in order. -/
theorem shift (horder : session.InOrder) (hshift : Shift session turn after) : after.InOrder := by
  cases hshift with
  | filed => exact horder
  | held id document holds hdocument hopen hholds =>
    have hold := horder document (List.mem_of_getElem? hdocument)
    refine horder.set ⟨hold.lines, hold.fits, fun hclosed => ?_⟩
    exact absurd (beq_iff_eq.mp hclosed) (Nat.ne_of_gt hholds)
  | discarded id document hdocument =>
    exact horder.set ((horder document (List.mem_of_getElem? hdocument)).discard document.holds)
  | queued id document edit edits hdocument hopen hstart hstop hle hinsert =>
    have hold := horder document (List.mem_of_getElem? hdocument)
    refine horder.set ⟨hold.lines, ?_, fun hclosed => ?_⟩
    · exact EditQueue.fits_insert? hold.fits hstart hstop hle hinsert
    · exact absurd (hopen.symm.trans hclosed) Bool.false_ne_true
  | changed id document committed change hdocument hcommit =>
    obtain ⟨-, events, -, rfl, -⟩ := Shift.commit_eq hcommit
    rw [InOrder, documents_say]
    refine horder.set ⟨?_, trivial, fun _ => rfl⟩
    rw [String.toList_ofList]
  | closed id document hdocument =>
    rw [InOrder, documents_say]
    exact horder.set ((horder document (List.mem_of_getElem? hdocument)).discard 0)
  | reopened id document hdocument =>
    have hold := horder document (List.mem_of_getElem? hdocument)
    rw [InOrder, documents_say]
    exact horder.set ⟨hold.lines, hold.fits, fun hclosed => by cases hclosed⟩
  | shadowed id other document hdocument =>
    have hold := horder document (List.mem_of_getElem? hdocument)
    exact horder.set ⟨hold.lines, hold.fits, fun hclosed => by cases hclosed⟩
  | fresh workspace path uri language text document hworkspace hnew =>
    rw [InOrder, documents_say]
    intro other hother
    rcases List.mem_append.mp hother with hold | hlast
    · exact horder other hold
    · rw [List.mem_singleton.mp hlast, hnew]
      exact .opened _ _ _ _ _ _

/-- Several shifts keep them in order. -/
theorem path {turns : List Turn} (horder : session.InOrder) (hpath : Path session turns after) :
    after.InOrder := by
  induction hpath with
  | nil => exact horder
  | cons hshift _ ih => exact ih (horder.shift hshift)

end Session.InOrder

namespace Desk

variable {desk : Desk}

/-- Every operation keeps all documents in order. -/
theorem inOrder_perform (htidy : Tidy desk.session) (horder : desk.session.InOrder)
    (operation : Operation) : (desk.perform operation).session.InOrder := by
  obtain ⟨client, rfl⟩ | ⟨turns, hpath, -⟩ := perform_cases htidy operation
  · intro document hdocument
    rw [perform, (attach_keeps htidy.here client).1] at hdocument
    exact horder document hdocument
  · exact horder.path hpath

/-- Every run keeps all documents in order. -/
theorem inOrder_run (htidy : Tidy desk.session) (horder : desk.session.InOrder)
    (operations : List Operation) : (desk.performAll operations).session.InOrder := by
  induction operations generalizing desk with
  | nil => exact horder
  | cons operation rest ih =>
    exact ih (tidy_run htidy [operation]) (inOrder_perform htidy horder operation)

theorem inOrder_begin (files : FileTree) (clients : List Client) (root : String)
    (encoding : PositionEncoding) : (begin files clients root encoding).session.InOrder := by
  intro document hdocument
  cases hdocument

/-- For every run and every document whose edits are committed after it: the events that are told,
applied one after the other with the table of the text at that moment, lead to the new text exactly
if all ranges are found again. Without carriage returns in the old text they always do. -/
theorem replays_iff_allFoundAgain (files : FileTree) (clients : List Client) (root : String)
    (encoding : PositionEncoding) (operations : List Operation) {document committed : TextDocument}
    {change : DocumentChange}
    (hdocument : document ∈
      ((begin files clients root encoding).performAll operations).session.documents)
    (hcommit : document.commit = .ok (committed, change)) :
    (replaceAll? document.encoding document.text.toList change.edits = some change.text.toList ↔
      document.edits.AllFoundAgain document.text.toList) ∧
    ('\r' ∉ document.text.toList →
      replaceAll? document.encoding document.text.toList change.edits =
        some change.text.toList) := by
  have horder := inOrder_run (tidy_begin files clients root encoding)
    (inOrder_begin files clients root encoding) operations document hdocument
  have hiff := horder.replaceAll?_iff hcommit
  exact ⟨hiff, fun hplain => hiff.mpr (EditQueue.allFoundAgain_of_not_mem hplain _)⟩

/-- A file with a carriage return and a line feed that are not one line end. -/
def returns : FileTree :=
  ⟨["w"], [], [([], .folder), (["w"], .folder), (["w", "a"],
    .file [0x61, 0x0D, 0x58, 0x0A, 0x62])]⟩

/-- A run in which the carriage return is replaced. -/
def replacesReturn : List Operation :=
  [.openDocument "a" none, .edit 0 "c" 0 2]

/-- The range of the carriage return is found again as long as no line feed comes to stand behind
it. -/
theorem replays_of_replacesReturn :
    ∃ document committed change,
      document ∈ ((begin returns [] "/w" .utf16).performAll replacesReturn).session.documents ∧
      document.commit = .ok (committed, change) ∧
      replaceAll? document.encoding document.text.toList change.edits =
        some change.text.toList := by
  refine ⟨_, _, _, List.mem_singleton_self _, rfl, ?_⟩
  refine (replays_iff_allFoundAgain returns [] "/w" .utf16 replacesReturn
    (List.mem_singleton_self _) rfl).1.mpr ?_
  refine ⟨⟨by decide +kernel, by decide +kernel, fun hseam => ?_⟩, trivial⟩
  exact absurd hseam (by decide +kernel)

/-- What stands between the carriage return and the line feed is deleted as well. -/
theorem not_replayed_of_deletes :
    ∃ document committed change,
      document ∈ ((begin returns [] "/w" .utf16).performAll
        (replacesReturn ++ [.delete 0 2 3])).session.documents ∧
      document.commit = .ok (committed, change) ∧ change.text.toList = ['c', '\n', 'b'] ∧
      replaceAll? document.encoding document.text.toList change.edits = some ['c', 'b'] := by
  refine ⟨_, _, _, List.mem_singleton_self _, rfl, ?_, ?_⟩
  · decide +kernel
  · decide +kernel

end Desk

end LanguageClient
