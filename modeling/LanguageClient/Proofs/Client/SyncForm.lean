import LanguageClient.Client.Documents
import LanguageClient.Proofs.Feature.Meeting

/-!
# The form in which a document is synchronized

The form in which a server hears of changes and of saves is taken from all registrations of the
method together: one of them has to cover the document, and one of them has to name the form, but
these need not be the same. So the form of a document follows a registration that covers it only as
long as no other one names a form that counts before.
-/

namespace LanguageClient

open FeatureRequest

/-- The forms in which a change can be told. -/
inductive ChangeForm
  | whole
  | ranged
  deriving DecidableEq

namespace ChangeForm

/-- The kind that names the form. -/
def kind : ChangeForm → SyncKind
  | whole => .full
  | ranged => .incremental

/-- A change in the form. -/
def events (change : DocumentChange) : ChangeForm → List ChangeEvent
  | whole => [⟨none, change.text⟩]
  | ranged => change.edits

end ChangeForm

section Grants

variable (files : FileTree) (grants : List Grant) (document : DocumentInfo) (need : Need)

/-- Some grant applies to the document. -/
def IsCovered : Prop :=
  ∃ grant ∈ grants, grant.appliesTo document = true

/-- Some grant holds the need. -/
def IsHeld : Prop :=
  ∃ grant ∈ grants, grant.holds files need = true

/-- Some grant applies to the document and holds the need. -/
def IsFollowed : Prop :=
  ∃ grant ∈ grants, grant.appliesTo document = true ∧ grant.holds files need = true

/-- Some grant applies to the document and some other one holds the need, but none does both. -/
def IsSplit : Prop :=
  IsCovered grants document ∧ IsHeld files grants need ∧ ¬ IsFollowed files grants document need

end Grants

namespace Client

variable (files : FileTree) (client : Client) (uri language : String)

/-- The form in which the server is told of changes of a document. -/
def changeForm? : Option ChangeForm :=
  let method := "textDocument/didChange"
  let request := FeatureRequest.forDocument uri language
  if client.check files method (request.add (.syncKind .full)) then some .whole
  else if client.check files method (request.add (.syncKind .incremental)) then some .ranged
  else none

/-- Whether the server is told the text of a document that has been saved. -/
def tellsText? : Option Bool :=
  let method := "textDocument/didSave"
  let request := FeatureRequest.forDocument uri language
  if client.check files method (request.add (.includeText true)) then some true
  else if client.check files method (request.add (.includeText false)) then some false
  else none

/-- Tells the server of a change in a form, if there is one. -/
def tellChange (change : DocumentChange) : Option ChangeForm → Except ClientError (Bool × Client)
  | none => .ok (false, client)
  | some form =>
    let params : DidChangeParams := ⟨⟨change.uri, change.version⟩, form.events change⟩
    (client.notify "textDocument/didChange" (some (encode params))).map (true, ·)

/-- Tells the server that a document has been saved, with or without the text, if at all. -/
def tellSave (text : String) : Option Bool → Except ClientError (Bool × Client)
  | none => .ok (false, client)
  | some told =>
    let params : DidSaveParams := ⟨⟨uri⟩, if told then some text else none⟩
    (client.notify "textDocument/didSave" (some (encode params))).map (true, ·)

variable {files client uri language}

/-- A change is told in the form of its document. -/
theorem didChange_eq (change : DocumentChange) : client.didChange files change =
    client.tellChange change (client.changeForm? files change.uri change.language) := by
  have hevents : client.changeEvents? files change =
      (client.changeForm? files change.uri change.language).map (ChangeForm.events change) := by
    unfold changeEvents? changeForm?
    dsimp only
    split
    · rfl
    · split <;> rfl
  rw [didChange, hevents]
  cases client.changeForm? files change.uri change.language <;> rfl

/-- A save is told with or without the text, as it is for its document. -/
theorem didSave_eq (text : String) : client.didSave files uri language text =
    client.tellSave uri text (client.tellsText? files uri language) := by
  have htext : client.savedText? files uri language text =
      (client.tellsText? files uri language).map fun told => if told then some text else none := by
    unfold savedText? tellsText?
    dsimp only
    split
    · rfl
    · split <;> rfl
  rw [didSave, htext]
  cases client.tellsText? files uri language <;> rfl

/-- The registrations of a method count together: one has to cover the document, and one has to hold
the need. -/
theorem check_add_iff (method : String) (requirement : Requirement) {need : Need}
    (hneeds : requirement.needs = [need]) (hkey : requirement.key ≠ .textDocuments) :
    client.check files method ((forDocument uri language).add requirement) = true ↔
      IsCovered (client.registry.grantsOf method) ⟨uri, some language⟩ ∧
        IsHeld files (client.registry.grantsOf method) need := by
  have hasked : ((forDocument uri language).add requirement).needs =
      [.document ⟨uri, some language⟩, need] := by
    have hplace : (Requirement.textDocuments [⟨uri, some language⟩]).key ≠ requirement.key :=
      Ne.symm hkey
    simp only [needs, forDocument, FeatureRequest.add, FeatureRequest.insert, empty, if_neg hplace,
      List.flatMap_cons, List.flatMap_nil, hneeds]
    rfl
  rw [check, Registry.check, isMet_iff_needs, hasked]
  simp only [List.mem_cons, List.not_mem_nil, or_false, forall_eq_or_imp, forall_eq, Grant.holds]
  refine and_iff_right_of_imp ?_
  rintro ⟨⟨grant, hgrant, -⟩, -⟩
  exact List.ne_nil_of_mem hgrant

variable (files client uri language)

/-- The form of a document follows a registration that covers it. -/
structure FollowsCovering : Prop where
  changes : ∀ form, client.changeForm? files uri language = some form →
    IsFollowed files (client.registry.grantsOf "textDocument/didChange") ⟨uri, some language⟩
      (.syncKind form.kind)
  saves : client.tellsText? files uri language = some true →
    IsFollowed files (client.registry.grantsOf "textDocument/didSave") ⟨uri, some language⟩
      (.includeText true)

variable {files client uri language}

section Forms

/-- Changes are told in a form if it is asked for in one of the registrations. -/
theorem check_syncKind_iff (kind : SyncKind) : client.check files "textDocument/didChange"
      ((forDocument uri language).add (.syncKind kind)) = true ↔
    IsCovered (client.registry.grantsOf "textDocument/didChange") ⟨uri, some language⟩ ∧
      IsHeld files (client.registry.grantsOf "textDocument/didChange") (.syncKind kind) :=
  check_add_iff _ _ rfl nofun

/-- The whole text is told if some registration asks for it and some registration covers the
document. -/
theorem changeForm?_whole_iff : client.changeForm? files uri language = some .whole ↔
    IsCovered (client.registry.grantsOf "textDocument/didChange") ⟨uri, some language⟩ ∧
      IsHeld files (client.registry.grantsOf "textDocument/didChange") (.syncKind .full) := by
  rw [← check_syncKind_iff, changeForm?]
  split
  · rename_i hwhole
    exact iff_of_true rfl hwhole
  · rename_i hwhole
    refine iff_of_false (fun hform => ?_) hwhole
    split at hform <;> cases hform

/-- Ranges are told if no registration asks for the whole text, some registration asks for them and
some registration covers the document. -/
theorem changeForm?_ranged_iff : client.changeForm? files uri language = some .ranged ↔
    IsCovered (client.registry.grantsOf "textDocument/didChange") ⟨uri, some language⟩ ∧
      IsHeld files (client.registry.grantsOf "textDocument/didChange") (.syncKind .incremental) ∧
      ¬ IsHeld files (client.registry.grantsOf "textDocument/didChange") (.syncKind .full) := by
  rw [← and_assoc, ← check_syncKind_iff, changeForm?]
  split
  · rename_i hwhole
    exact iff_of_false nofun fun h => h.2 (check_syncKind_iff _ |>.mp hwhole).2
  · rename_i hwhole
    split
    · rename_i hranged
      refine iff_of_true rfl ⟨hranged, fun hheld => hwhole ?_⟩
      exact check_syncKind_iff _ |>.mpr ⟨(check_syncKind_iff _ |>.mp hranged).1, hheld⟩
    · rename_i hranged
      exact iff_of_false nofun fun h => hranged h.1

/-- The text is told on a save if some registration asks for it and some registration covers the
document. -/
theorem tellsText?_iff : client.tellsText? files uri language = some true ↔
    IsCovered (client.registry.grantsOf "textDocument/didSave") ⟨uri, some language⟩ ∧
      IsHeld files (client.registry.grantsOf "textDocument/didSave") (.includeText true) := by
  rw [← check_add_iff "textDocument/didSave" (.includeText true) rfl nofun, tellsText?]
  split
  · rename_i htold
    exact iff_of_true rfl htold
  · rename_i htold
    refine iff_of_false (fun hform => ?_) htold
    split at hform <;> cases hform

end Forms

/-- What is asked for by one registration is asked for by one that covers the document, unless they
are different ones. -/
theorem not_isSplit_iff {grants : List Grant} {document : DocumentInfo} {need : Need} :
    ¬ IsSplit files grants document need ↔
      (IsCovered grants document ∧ IsHeld files grants need →
        IsFollowed files grants document need) := by
  rw [IsSplit, ← and_assoc, not_and_not_right]

/-- Changes and saves of a document are told in one form. Changes are told as the whole text exactly
if some registration covers the document and some registration asks for the whole text, and as
ranges exactly if some registration covers the document, some registration asks for ranges and none
asks for the whole text; saves are told with the text exactly if some registration covers the
document and some registration asks for the text. So the form follows a registration that covers the
document unless these registrations are different ones. -/
theorem followsCovering_iff_not_split (files : FileTree) (client : Client) (uri language : String) :
    let document : DocumentInfo := ⟨uri, some language⟩
    let changes := client.registry.grantsOf "textDocument/didChange"
    let saves := client.registry.grantsOf "textDocument/didSave"
    (∀ change, client.didChange files change =
      client.tellChange change (client.changeForm? files change.uri change.language)) ∧
    (∀ text, client.didSave files uri language text =
      client.tellSave uri text (client.tellsText? files uri language)) ∧
    (client.changeForm? files uri language = some .whole ↔
      IsCovered changes document ∧ IsHeld files changes (.syncKind .full)) ∧
    (client.changeForm? files uri language = some .ranged ↔
      IsCovered changes document ∧ IsHeld files changes (.syncKind .incremental) ∧
        ¬ IsHeld files changes (.syncKind .full)) ∧
    (client.tellsText? files uri language = some true ↔
      IsCovered saves document ∧ IsHeld files saves (.includeText true)) ∧
    (client.FollowsCovering files uri language ↔
      ¬ IsSplit files changes document (.syncKind .full) ∧
      (¬ IsSplit files changes document (.syncKind .incremental) ∨
        IsHeld files changes (.syncKind .full)) ∧
      ¬ IsSplit files saves document (.includeText true)) := by
  refine ⟨didChange_eq, didSave_eq, changeForm?_whole_iff, changeForm?_ranged_iff, tellsText?_iff,
    ?_⟩
  rw [not_isSplit_iff, not_isSplit_iff, not_isSplit_iff]
  constructor
  · rintro ⟨hchanges, hsaves⟩
    refine ⟨fun h => hchanges .whole (changeForm?_whole_iff.mpr h), ?_,
      fun h => hsaves (tellsText?_iff.mpr h)⟩
    refine or_iff_not_imp_right.mpr fun hfull h => ?_
    exact hchanges .ranged (changeForm?_ranged_iff.mpr ⟨h.1, h.2, hfull⟩)
  · rintro ⟨hwhole, hranged, hsaves⟩
    refine ⟨fun form hform => ?_, fun htold => hsaves (tellsText?_iff.mp htold)⟩
    cases form with
    | whole => exact hwhole (changeForm?_whole_iff.mp hform)
    | ranged =>
      obtain ⟨hcovered, hheld, hfull⟩ := changeForm?_ranged_iff.mp hform
      exact hranged.resolve_right hfull ⟨hcovered, hheld⟩

section Mixed

/-- A server that registers ranges and saves without the text for one language, and the whole text
and saves with the text for another one. -/
def registrations : List Registration :=
  let options (language : String) (option : String × Json) : Option Json :=
    some (.obj [("documentSelector", .arr [.obj [("language", .str language)]]), option])
  [⟨"1", "textDocument/didChange", options "python" ("syncKind", .int 2)⟩,
    ⟨"2", "textDocument/didChange", options "rust" ("syncKind", .int 1)⟩,
    ⟨"3", "textDocument/didSave", options "python" ("includeText", .bool false)⟩,
    ⟨"4", "textDocument/didSave", options "rust" ("includeText", .bool true)⟩]

/-- The registry of the server, which grants nothing in its answer to the handshake. -/
def mixedRegistry : Except FeatureError Registry :=
  registrations.foldlM (Registry.add Sample.files)
    (Registry.empty.setCapabilities Sample.files ⟨none, none, [], none, none⟩)

/-- A client of the server. -/
def mixedClient (registry : Registry) : Client :=
  { Client.connect "server" .utf16 .standard 0 none with registry }

/-- All registrations are accepted, and a document of the first language is told like one of the
second. -/
theorem not_followsCovering_of_mixed : ∃ registry, mixedRegistry = .ok registry ∧
    (mixedClient registry).changeForm? Sample.files "file:///w/a" "python" = some .whole ∧
    (mixedClient registry).tellsText? Sample.files "file:///w/a" "python" = some true ∧
    ¬ (mixedClient registry).FollowsCovering Sample.files "file:///w/a" "python" := by
  let test (registry : Registry) : Bool :=
    (mixedClient registry).changeForm? Sample.files "file:///w/a" "python" = some .whole &&
    (mixedClient registry).tellsText? Sample.files "file:///w/a" "python" = some true &&
    (registry.grantsOf "textDocument/didChange").all fun grant =>
      !(grant.appliesTo ⟨"file:///w/a", some "python"⟩ &&
        grant.holds Sample.files (.syncKind .full))
  have htest : mixedRegistry.toOption.any test = true := by decide +kernel
  cases hregistry : mixedRegistry with
  | error error =>
    rw [hregistry] at htest
    cases htest
  | ok registry =>
    rw [hregistry] at htest
    obtain ⟨hforms, hnone⟩ := Bool.and_eq_true_iff.mp htest
    obtain ⟨hform, htold⟩ := Bool.and_eq_true_iff.mp hforms
    refine ⟨registry, rfl, of_decide_eq_true hform, of_decide_eq_true htold, fun hfollows => ?_⟩
    obtain ⟨grant, hgrant, happlies, hholds⟩ := hfollows.changes .whole (of_decide_eq_true hform)
    have hfull : grant.holds Sample.files (.syncKind .full) = true := hholds
    have hnot := List.all_eq_true.mp hnone grant hgrant
    rw [happlies, hfull] at hnot
    cases hnot

end Mixed

end Client

end LanguageClient
