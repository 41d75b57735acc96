import LanguageClient.Proofs.Workspace.Stages
import LanguageClient.Proofs.Workspace.Telling

/-!
# Everything that can happen at a desk

Besides the operations on a workspace, its clients do what they do, saves of its documents come to
an end, and clients are told of documents no longer. Asking for edits happens to clients, and a save
queues, commits and writes by operations. A workspace that is tidy stays so, whatever happens.
-/

namespace LanguageClient

/-- One thing that can happen at a desk. -/
inductive Event
  | operate (operation : Operation)
  /-- Anything happens to a client. -/
  | client (place : Nat) (change : Client → Client)
  /-- A save has written the text of a document. -/
  | finishSave (document : Nat) (text : String)
  /-- Only these clients are told about documents from then on. -/
  | listen (clients : List Nat)

namespace Desk

/-- What one event leads to. -/
def meet (desk : Desk) : Event → Desk
  | .operate operation => desk.perform operation
  | .client place change => { desk with session := desk.session.modifyClient place change }
  | .finishSave document text => desk.take (desk.session.finishSave document text)
  | .listen clients =>
    { desk with session := desk.session.modifyWorkspace fun workspace =>
        { workspace with clients } }

/-- What events lead to, one after the other. -/
abbrev meetAll (desk : Desk) (events : List Event) : Desk :=
  Run.final meet desk events

/-- When a save has come to its end, the workspace is as tidy as before. -/
theorem tidy_finishSave {session after : Session} {id : Nat} {text : String} (htidy : Tidy session)
    (hafter : session.finishSave id text = .ok after) : Tidy after := by
  cases hdocument : session.documents[id]? with
  | none =>
    rw [Session.finishSave, Session.find, hdocument] at hafter
    cases hafter
  | some document =>
    rw [Session.finishSave_eq hdocument] at hafter
    obtain rfl := Except.ok.inj hafter
    have hset : Tidy (session.setDocument id { document with isSaved := true }) :=
      htidy.set hdocument rfl rfl fun hopen => hopen
    obtain ⟨hdocuments, hworkspace, -⟩ := Session.tell_keeps
      (session.setDocument id { document with isSaved := true }) (session.listeners document)
      fun client => client.didSave session.files document.uri document.language text
    exact hset.of_keeps hdocuments hworkspace

/-- Whatever happens keeps the workspace tidy. -/
theorem tidy_meet {desk : Desk} (htidy : Tidy desk.session) (event : Event) :
    Tidy (desk.meet event).session := by
  cases event with
  | operate operation => exact tidy_run htidy [operation]
  | client place change => exact htidy.of_keeps rfl rfl
  | finishSave id text =>
    rw [meet]
    cases hafter : desk.session.finishSave id text with
    | error error => exact htidy
    | ok after => exact tidy_finishSave htidy hafter
  | listen clients =>
    have hshelf : (desk.meet (.listen clients)).session.shelf = desk.session.shelf := by
      unfold Session.shelf meet Session.modifyWorkspace
      cases desk.session.workspace <;> rfl
    constructor
    · rw [meet, Session.modifyWorkspace, Option.isSome_map]
      exact htidy.here
    · exact fun document hdocument =>
        Session.number_modifyWorkspace (htidy.own document hdocument) fun _ => rfl
    · rw [hshelf]
      exact htidy.nodup
    · rw [hshelf]
      exact htidy.live

end Desk

end LanguageClient
