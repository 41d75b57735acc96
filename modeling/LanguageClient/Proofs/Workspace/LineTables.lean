import LanguageClient.Proofs.Document.LineTable
import LanguageClient.Proofs.Workspace.Outliving

/-!
# The tables of all documents

Every document that can come about has the table of its text: it gets one when it is opened, and a
new one with each commit. Nothing else changes its text or its table.
-/

namespace LanguageClient.Desk

open Text

variable {desk : Desk}

/-- Whatever happens keeps all documents in order. -/
theorem inOrder_meet (htidy : Tidy desk.session) (horder : desk.session.InOrder) (event : Event) :
    (desk.meet event).session.InOrder := by
  cases event with
  | operate operation => exact inOrder_perform htidy horder operation
  | client place change => exact horder.of_keeps rfl
  | finishSave id text =>
    rw [meet]
    cases hafter : desk.session.finishSave id text with
    | error error => exact horder
    | ok after => exact horder.finishSave hafter
  | listen clients => exact horder.of_keeps rfl

/-- All documents are in order after everything that has happened. -/
theorem inOrder_events (files : FileTree) (clients : List Client) (root : String)
    (encoding : PositionEncoding) (events : List Event) :
    ((begin files clients root encoding).meetAll events).session.InOrder := by
  have hboth : Tidy ((begin files clients root encoding).meetAll events).session ∧
      ((begin files clients root encoding).meetAll events).session.InOrder :=
    @Run.final_induction Desk Event meet _ (fun desk => Tidy desk.session ∧ desk.session.InOrder)
      ⟨tidy_begin files clients root encoding, inOrder_begin files clients root encoding⟩
      (fun _ event ⟨htidy, horder⟩ => ⟨tidy_meet htidy event, inOrder_meet htidy horder event⟩)
      events
  exact hboth.2

/-- A commit leaves a document with the table of its new text. -/
theorem lines_of_commit {document committed : TextDocument} {change : DocumentChange}
    (hcommit : document.commit = .ok (committed, change)) :
    committed.lines = lineStarts committed.text.toList := by
  obtain ⟨-, events, -, rfl, -⟩ := Shift.commit_eq hcommit
  rw [String.toList_ofList]

/-- For every text: the table that is made of it is that of the text. For everything that can
happen: every document has the table of its text, and after a commit it has that of the new one. -/
theorem tabulates_events (text : String) (files : FileTree) (clients : List Client) (root : String)
    (encoding : PositionEncoding) (events : List Event) :
    Tabulates text (lineStarts text.toList) ∧
      ∀ document ∈ ((begin files clients root encoding).meetAll events).session.documents,
        Tabulates document.text document.lines ∧
          ∀ committed change, document.commit = .ok (committed, change) →
            Tabulates committed.text committed.lines := by
  refine ⟨tabulates_lineStarts text, fun document hdocument => ?_⟩
  refine ⟨?_, fun committed change hcommit => ?_⟩
  · rw [(inOrder_events files clients root encoding events document hdocument).lines]
    exact tabulates_lineStarts document.text
  · rw [lines_of_commit hcommit]
    exact tabulates_lineStarts committed.text

end LanguageClient.Desk
