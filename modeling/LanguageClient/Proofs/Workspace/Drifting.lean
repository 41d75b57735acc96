import LanguageClient.Proofs.Workspace.Events
import LanguageClient.Proofs.Workspace.Stages

/-!
# What becomes of documents that are not saved

As long as no save comes to its end, a document counts as saved only if it did before and has kept
its text, whoever holds, edits, commits, closes or opens it meanwhile. A document that is new has
the text that its file has.
-/

namespace LanguageClient

/-- A document after anything but a save has happened to it. -/
structure TextDocument.Drifts (document later : TextDocument) : Prop where
  path : later.path = document.path
  version : document.version ≤ later.version
  text : later.version = document.version → later.text = document.text
  saved : later.isSaved = true → document.isSaved = true ∧ later.text = document.text

namespace TextDocument.Drifts

variable {document middle later : TextDocument}

theorem refl (document : TextDocument) : document.Drifts document :=
  ⟨rfl, Nat.le_refl _, fun _ => rfl, fun hsaved => ⟨hsaved, rfl⟩⟩

theorem trans (hdrifts : document.Drifts middle) (hmore : middle.Drifts later) :
    document.Drifts later where
  path := hmore.path.trans hdrifts.path
  version := Nat.le_trans hdrifts.version hmore.version
  text hversion := by
    have hfirst := hdrifts.version
    have hlast := hmore.version
    have hmiddle : middle.version = document.version := by omega
    exact (hmore.text (by omega)).trans (hdrifts.text hmiddle)
  saved hsaved := by
    obtain ⟨hmiddle, htext⟩ := hmore.saved hsaved
    obtain ⟨hdocument, htext'⟩ := hdrifts.saved hmiddle
    exact ⟨hdocument, htext.trans htext'⟩

/-- A commit takes away that the document counts as saved. -/
theorem of_commit {change : DocumentChange} (hcommit : document.commit = .ok (later, change)) :
    document.Drifts later := by
  obtain ⟨-, events, -, rfl, -⟩ := Shift.commit_eq hcommit
  refine ⟨rfl, Nat.le_succ _, fun hversion => ?_, fun hsaved => by cases hsaved⟩
  have hversion : document.version + 1 = document.version := hversion
  omega

end TextDocument.Drifts

/-- A session after anything but the end of a save. -/
structure Session.Drifts (session after : Session) : Prop where
  kept : ∀ (id : Nat) (document : TextDocument), session.documents[id]? = some document →
    ∃ later, after.documents[id]? = some later ∧ document.Drifts later
  read : ∀ (id : Nat) (later : TextDocument), session.documents[id]? = none →
    after.documents[id]? = some later → later.isSaved = true →
      session.files.readText later.path = .ok later.text

/-- Whether a document is edited by a turn. -/
def Turn.isEdit : Turn → Bool
  | .queued _ | .changed _ _ => true
  | _ => false

namespace Session.Drifts

variable {session middle after : Session} {id : Nat} {document changed : TextDocument}
  {turn : Turn} {turns : List Turn}

/-- No document is given up. -/
theorem length_le (hdrifts : session.Drifts after) :
    session.documents.length ≤ after.documents.length := by
  by_contra hlt
  have hindex : after.documents.length < session.documents.length := by omega
  obtain ⟨later, hlater, -⟩ := hdrifts.kept _ _ (List.getElem?_eq_getElem hindex)
  have hbound := (List.getElem?_eq_some_iff.mp hlater).1
  omega

theorem of_documents (hdocuments : after.documents = session.documents) :
    session.Drifts after where
  kept id document hdocument := ⟨document, by rw [hdocuments, hdocument], .refl document⟩
  read id later hnone hlater := by
    rw [hdocuments, hnone] at hlater
    cases hlater

theorem trans (hdrifts : session.Drifts middle) (hfiles : middle.files = session.files)
    (hmore : middle.Drifts after) : session.Drifts after where
  kept id document hdocument := by
    obtain ⟨other, hother, hfirst⟩ := hdrifts.kept id document hdocument
    obtain ⟨later, hlater, hlast⟩ := hmore.kept id other hother
    exact ⟨later, hlater, hfirst.trans hlast⟩
  read id later hnone hlater hsaved := by
    cases hmiddle : middle.documents[id]? with
    | none =>
      rw [← hfiles]
      exact hmore.read id later hmiddle hlater hsaved
    | some other =>
      obtain ⟨found, hfound, hlast⟩ := hmore.kept id other hmiddle
      obtain rfl := Option.some.inj (hfound.symm.trans hlater)
      obtain ⟨hother, htext⟩ := hlast.saved hsaved
      rw [hlast.path, htext]
      exact hdrifts.read id other hnone hmiddle hother

/-- Only one document drifts. -/
theorem set (hdocument : session.documents[id]? = some document)
    (hchanged : document.Drifts changed) : session.Drifts (session.setDocument id changed) where
  kept n other hother := by
    by_cases hn : n = id
    · subst hn
      obtain rfl := Option.some.inj (hdocument.symm.trans hother)
      exact ⟨changed, List.getElem?_set_self (List.getElem?_eq_some_iff.mp hdocument).1, hchanged⟩
    · exact ⟨other, (List.getElem?_set_ne (Ne.symm hn)).trans hother, .refl other⟩
  read n later hnone hlater := by
    rcases getElem?_setDocument hlater with ⟨rfl, -⟩ | ⟨-, hsame⟩
    · rw [hnone] at hdocument
      cases hdocument
    · rw [hnone] at hsame
      cases hsame

/-- A document that keeps all that matters drifts. -/
theorem keep (hdocument : session.documents[id]? = some document)
    (hpath : changed.path = document.path) (hversion : changed.version = document.version)
    (htext : changed.text = document.text) (hsaved : changed.isSaved = document.isSaved) :
    session.Drifts (session.setDocument id changed) :=
  .set hdocument
    ⟨hpath, Nat.le_of_eq hversion.symm, fun _ => htext, fun h => ⟨hsaved ▸ h, htext⟩⟩

/-- Only the documents matter. -/
theorem congr (hdrifts : session.Drifts middle) (hdocuments : after.documents = middle.documents) :
    session.Drifts after where
  kept id document hdocument := by
    rw [hdocuments]
    exact hdrifts.kept id document hdocument
  read id later hnone hlater := by
    rw [hdocuments] at hlater
    exact hdrifts.read id later hnone hlater

/-- A document is added that was read from its file. -/
theorem add (hread : session.files.readText document.path = .ok document.text) :
    session.Drifts { session with documents := session.documents ++ [document] } where
  kept n other hother := by
    have hlt := (List.getElem?_eq_some_iff.mp hother).1
    exact ⟨other, (List.getElem?_append_left hlt).trans hother, .refl other⟩
  read n later hnone hlater _ := by
    have hle := List.getElem?_eq_none_iff.mp hnone
    have hlast : [document][n - session.documents.length]? = some later :=
      (List.getElem?_append_right hle).symm.trans hlater
    rw [List.mem_singleton.mp (List.mem_of_getElem? hlast)]
    exact hread

/-- In every shift the documents drift. -/
theorem shift (hshift : Shift session turn after) : session.Drifts after := by
  cases hshift with
  | filed => exact .of_documents rfl
  | held id document holds hdocument => exact .keep hdocument rfl rfl rfl rfl
  | discarded id document hdocument => exact .keep hdocument rfl rfl rfl rfl
  | queued id document edit edits hdocument => exact .keep hdocument rfl rfl rfl rfl
  | changed id document committed change hdocument hcommit =>
    exact (set hdocument (.of_commit hcommit)).congr (documents_say _ _)
  | closed id document hdocument =>
    have hset : session.Drifts (session.setDocument id document.closed) :=
      .keep hdocument rfl rfl rfl rfl
    exact hset.congr (documents_say _ _)
  | reopened id document hdocument =>
    have hset : session.Drifts (session.setDocument id { document with holds := 1 }) :=
      .keep hdocument rfl rfl rfl rfl
    exact hset.congr (documents_say _ _)
  | shadowed id other document hdocument => exact .keep hdocument rfl rfl rfl rfl
  | fresh workspace path uri language text document hworkspace hnew hread =>
    have hadded : session.Drifts { session with documents := session.documents ++ [document] } :=
      add (by rw [hnew]; exact hread)
    exact hadded.congr (documents_say _ _)

/-- The files stay as they are unless others are put in their place. -/
theorem files_shift (hshift : Shift session turn after) (hturn : ∀ files, turn ≠ .filed files) :
    after.files = session.files := by
  cases hshift with
  | filed files => exact absurd rfl (hturn files)
  | held | discarded | queued | shadowed => rfl
  | changed | closed | reopened | fresh => exact files_say _ _

/-- Over several shifts the documents drift, if the files stay as they are. -/
theorem path (hpath : Path session turns after) (hturns : ∀ files, Turn.filed files ∉ turns) :
    after.files = session.files ∧ session.Drifts after := by
  induction hpath with
  | nil => exact ⟨rfl, .of_documents rfl⟩
  | cons hshift _ ih =>
    have hfiles := files_shift hshift fun files h => hturns files (h ▸ List.mem_cons_self)
    obtain ⟨hrest, hdrifts⟩ := ih fun files h => hturns files (List.mem_cons_of_mem _ h)
    exact ⟨hrest.trans hfiles, (shift hshift).trans hfiles hdrifts⟩

/-- Edits make no document, and the documents drift. -/
theorem edits (hpath : Path session turns after) (hturns : ∀ turn ∈ turns, turn.isEdit = true) :
    session.Drifts after ∧ after.documents.length = session.documents.length := by
  constructor
  · exact (path hpath fun files hmem => by cases hturns _ hmem).2
  · induction hpath with
    | nil => rfl
    | cons hshift _ ih =>
      obtain ⟨hturn, hrest⟩ := List.forall_mem_cons.mp hturns
      rw [ih hrest]
      cases hshift with
      | queued => exact List.length_set
      | changed =>
        rw [documents_say]
        exact List.length_set
      | _ => cases hturn

end Session.Drifts

/-- In every operation the documents drift. -/
theorem Desk.drifts_perform {desk : Desk} (htidy : Tidy desk.session) (operation : Operation) :
    desk.session.Drifts (desk.perform operation).session := by
  obtain ⟨client, rfl⟩ | ⟨turns, hpath, haccount⟩ := perform_cases htidy operation
  · exact .of_documents (attach_keeps htidy.here client).1
  · by_cases hfiled : ∃ files, operation = .changeFiles files
    · obtain ⟨files, rfl⟩ := hfiled
      exact .of_documents rfl
    · refine (Session.Drifts.path hpath fun files hmem => hfiled ⟨files, ?_⟩).2
      exact haccount.filed files hmem

namespace Session

variable {session : Session} {id : Nat}

/-- Edits are queued by shifts. -/
theorem path_pushEdits (session : Session) (id : Nat) (edits : List TextEdit) :
    ∃ turns, Path session turns (session.pushEdits id edits).1 ∧
      ∀ turn ∈ turns, turn.isEdit = true := by
  induction edits generalizing session with
  | nil => exact ⟨[], .nil session, fun _ h => by cases h⟩
  | cons edit rest ih =>
    rw [pushEdits]
    cases hpush : session.modifyDocument id (·.pushTextEdit edit) with
    | error error => exact ⟨[], .nil session, fun _ h => by cases h⟩
    | ok queued =>
      have hshift := shift_edit hpush fun _ _ hchange => pushTextEdit_ok hchange
      obtain ⟨turns, hpath, hturns⟩ := ih queued
      exact ⟨_, .cons hshift hpath, List.forall_mem_cons.mpr ⟨rfl, hturns⟩⟩

/-- The edits of a save are queued and committed by shifts. -/
theorem path_applySaveEdits (htidy : Tidy session) (id : Nat) (edits : List TextEdit) :
    ∃ turns, Path session turns (session.applySaveEdits id edits).1 ∧
      ∀ turn ∈ turns, turn.isEdit = true := by
  obtain ⟨turns, hpath, hturns⟩ := session.path_pushEdits id edits
  rw [applySaveEdits]
  cases hpushed : session.pushEdits id edits with
  | mk queued result =>
    rw [hpushed] at hpath
    cases result with
    | error error => exact ⟨turns, hpath, hturns⟩
    | ok done =>
      dsimp only
      split
      · exact ⟨turns, hpath, hturns⟩
      · split
        · split
          · exact ⟨turns, hpath, hturns⟩
          · rename_i committed hcommit
            obtain ⟨change, hshift⟩ := shift_commit (hpath.tidy htidy) hcommit
            refine ⟨_, hpath.append (.single hshift), fun turn hturn => ?_⟩
            rcases List.mem_append.mp hturn with hold | hlast
            · exact hturns turn hold
            · rw [List.mem_singleton.mp hlast]
              rfl
        · exact ⟨turns, hpath, hturns⟩

theorem getElem?_of_find {document : TextDocument} (hfind : session.find id = .ok document) :
    session.documents[id]? = some document := by
  rw [find] at hfind
  split at hfind
  · rename_i found hfound
    obtain rfl := Except.ok.inj hfind
    exact hfound
  · cases hfind

/-- The text that is to be written is the one that the document has then. -/
theorem text_applySaveEdits {edits : List TextEdit} {after : Session} {text : String}
    (happly : session.applySaveEdits id edits = (after, .ok text)) :
    ∃ document, after.documents[id]? = some document ∧ document.text = text := by
  rw [applySaveEdits] at happly
  split at happly
  · cases happly
  · rename_i queued hpushed
    split at happly
    · cases happly
    · rename_i document hfind
      split_ifs at happly
      · split at happly
        · cases happly
        · rename_i committed hcommit
          obtain ⟨rfl, htext⟩ := Prod.mk.inj happly
          cases hlater : committed.find id with
          | error error =>
            rw [hlater] at htext
            cases htext
          | ok later =>
            rw [hlater] at htext
            exact ⟨later, getElem?_of_find hlater, Except.ok.inj htext⟩
      · obtain ⟨rfl, htext⟩ := Prod.mk.inj happly
        exact ⟨document, getElem?_of_find hfind, Except.ok.inj htext⟩

end Session

end LanguageClient
