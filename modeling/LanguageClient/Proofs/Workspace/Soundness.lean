import LanguageClient.Proofs.Document.Changes
import LanguageClient.Proofs.Workspace.Telling

/-!
# Sound workspaces

As long as no document is opened again beside another one and no carriage return comes into the
texts, every open document stands at its address, and its starts of lines and its queue fit its
text. In every run the version of a document counts how often it was committed.
-/

namespace LanguageClient

/-- No file has a carriage return in its text. -/
def PlainFiles (files : FileTree) : Prop :=
  ∀ path text, files.readText path = .ok text → '\r' ∉ text.toList

/-- The text of a file is read from the bytes of an entry of the tree. -/
theorem FileTree.mem_of_readText {files : FileTree} {path text : String}
    (hread : files.readText path = .ok text) : ∃ place bytes,
      (place, FileEntry.file bytes) ∈ files.entries ∧ Utf8.decode? bytes = some text := by
  simp only [readText, read, bind, Except.bind] at hread
  cases hplace : files.locate path with
  | error error =>
    rw [hplace] at hread
    cases hread
  | ok place =>
    rw [hplace] at hread
    cases hentry : files.entry? place with
    | none => simp [hentry] at hread
    | some entry =>
      obtain ⟨first, last, hsplit, -⟩ := List.lookup_eq_some_iff.mp hentry
      cases entry with
      | folder => simp [hentry] at hread
      | file bytes =>
        refine ⟨place, bytes, by rw [hsplit]; simp, ?_⟩
        cases hdecode : Utf8.decode? bytes with
        | none => simp [hentry, hdecode] at hread
        | some decoded => simpa [hentry, hdecode] using hread

/-- Whether an entry of a tree has no carriage return in its text. -/
def FileEntry.isPlain : FileEntry → Bool
  | .file bytes => (Utf8.decode? bytes).all fun text => !text.toList.contains '\r'
  | .folder => true

theorem PlainFiles.of_entries {files : FileTree}
    (hentries : (files.entries.all fun entry => entry.2.isPlain) = true) : PlainFiles files := by
  intro path text hread
  obtain ⟨place, bytes, hmem, hdecode⟩ := FileTree.mem_of_readText hread
  have hplain := List.all_eq_true.mp hentries _ hmem
  simpa [FileEntry.isPlain, hdecode] using hplain

/-- All documents of the workspace are sound and stand at its addresses if they are open. -/
structure Session.Sound (session : Session) (encoding : PositionEncoding) : Prop where
  tidy : Tidy session
  housed : ∀ id, session.Housed id
  encoding_eq : session.workspace.map Workspace.encoding = some encoding
  documents : ∀ document ∈ session.documents, document.Sound encoding
  files : PlainFiles session.files

/-- What must not happen: a document is opened beside another one, or a carriage return comes in. -/
structure Turn.IsPlainText (turn : Turn) : Prop where
  shadowed : ∀ id, turn ≠ .shadowed id
  filed : ∀ files, turn = .filed files → PlainFiles files
  queued : ∀ text, turn = .queued text → '\r' ∉ text.toList

namespace Session.Sound

variable {session after : Session} {turn : Turn} {encoding : PositionEncoding}

theorem set {id : Nat} {changed : TextDocument}
    (hdocuments : ∀ document ∈ session.documents, document.Sound encoding)
    (hchanged : changed.Sound encoding) :
    ∀ document ∈ (session.setDocument id changed).documents, document.Sound encoding := by
  intro document hdocument
  rcases List.mem_or_eq_of_mem_set hdocument with hold | rfl
  · exact hdocuments document hold
  · exact hchanged

/-- Every shift keeps all documents sound. -/
theorem documents_shift (hsound : session.Sound encoding) (hshift : Shift session turn after)
    (hplain : turn.IsPlainText) : ∀ document ∈ after.documents, document.Sound encoding := by
  cases hshift with
  | filed files => exact hsound.documents
  | held id document holds hdocument =>
    have hold := hsound.documents document (List.mem_of_getElem? hdocument)
    exact set hsound.documents ⟨hold.lines, hold.fits, hold.plain, hold.plain_edits, hold.encoding⟩
  | discarded id document hdocument =>
    have hold := hsound.documents document (List.mem_of_getElem? hdocument)
    exact set hsound.documents (hold.discard document.holds)
  | queued id document edit edits hdocument hopen hstart hstop hle hinsert =>
    have hold := hsound.documents document (List.mem_of_getElem? hdocument)
    exact set hsound.documents (hold.queue hstart hstop hle hinsert (hplain.queued _ rfl))
  | changed id document committed change hdocument hcommit =>
    have hold := hsound.documents document (List.mem_of_getElem? hdocument)
    obtain ⟨-, events, -, rfl, -⟩ := Shift.commit_eq hcommit
    rw [documents_say]
    refine set hsound.documents ⟨?_, trivial, ?_, by simp, hold.encoding⟩
    · rw [String.toList_ofList]
    · rw [String.toList_ofList]
      exact hold.plain_apply
  | closed id document hdocument =>
    have hold := hsound.documents document (List.mem_of_getElem? hdocument)
    rw [documents_say]
    exact set hsound.documents (hold.discard 0)
  | reopened id document hdocument =>
    have hold := hsound.documents document (List.mem_of_getElem? hdocument)
    rw [documents_say]
    exact set hsound.documents ⟨hold.lines, hold.fits, hold.plain, hold.plain_edits, hold.encoding⟩
  | shadowed id => exact absurd rfl (hplain.shadowed id)
  | fresh workspace path uri language text document hworkspace hnew hread =>
    have hencoding : workspace.encoding = encoding := by
      have hsame := hsound.encoding_eq
      rw [hworkspace] at hsame
      exact Option.some.inj hsame
    rw [documents_say]
    intro other hother
    rcases List.mem_append.mp hother with hold | hlast
    · exact hsound.documents other hold
    · obtain rfl := List.mem_singleton.mp hlast
      rw [hnew, hencoding]
      exact .opened _ _ _ _ (hsound.files path text hread) encoding

/-- Every shift keeps the files free of carriage returns. -/
theorem files_shift (hsound : session.Sound encoding) (hshift : Shift session turn after)
    (hplain : turn.IsPlainText) : PlainFiles after.files := by
  cases hshift with
  | filed files => exact hplain.filed files rfl
  | held | discarded | queued | shadowed => exact hsound.files
  | changed | closed | reopened | fresh =>
    rw [files_say]
    exact hsound.files

/-- Every shift keeps the workspace sound. -/
theorem shift (hsound : session.Sound encoding) (hshift : Shift session turn after)
    (hplain : turn.IsPlainText) : after.Sound encoding where
  tidy := hshift.tidy hsound.tidy
  housed id := hshift.housed hsound.tidy (hsound.housed id) (hplain.shadowed id)
  encoding_eq := (hshift.workspace_eq Workspace.encoding fun _ _ => rfl).trans hsound.encoding_eq
  documents := hsound.documents_shift hshift hplain
  files := hsound.files_shift hshift hplain

/-- Several shifts keep the workspace sound. -/
theorem path {turns : List Turn} (hsound : session.Sound encoding)
    (hpath : Path session turns after) (hplain : ∀ turn ∈ turns, turn.IsPlainText) :
    after.Sound encoding := by
  induction hpath with
  | nil => exact hsound
  | @cons _ _ _ turn _ hshift _ ih =>
    exact ih (hsound.shift hshift (hplain turn List.mem_cons_self))
      fun other hother => hplain other (List.mem_cons_of_mem _ hother)

/-- Attaching a client keeps the workspace sound. -/
theorem attach (hsound : session.Sound encoding) (place : Nat) :
    (session.attach place).Sound encoding := by
  obtain ⟨hdocuments, -, -, hencoding, hfiles⟩ := attach_keeps hsound.tidy.here place
  constructor
  · exact hsound.tidy.attach place
  · intro id document hdocument hopen
    rw [openAt?_attach hsound.tidy.here]
    rw [hdocuments] at hdocument
    exact hsound.housed id document hdocument hopen
  · exact hencoding.trans hsound.encoding_eq
  · rw [hdocuments]
    exact hsound.documents
  · rw [hfiles]
    exact hsound.files

end Session.Sound

/-- An element adds one to a count if it has the property, and nothing otherwise. -/
theorem countP_cons_toNat {α : Type} (property : α → Bool) (a : α) (rest : List α) :
    (a :: rest).countP property = (property a).toNat + rest.countP property := by
  rw [List.countP_cons, Nat.add_comm]
  cases property a <;> rfl

/-- No document has been committed more often than so many times. -/
def Session.Counted (session : Session) (count : Nat → Nat) : Prop :=
  ∀ id document, session.documents[id]? = some document → document.version ≤ count id

namespace Session.Counted

variable {session after : Session} {turn : Turn} {count : Nat → Nat} {id : Nat}
  {document changed : TextDocument}

/-- A document that changes in place is counted, and the others as before. -/
theorem set (hcounted : session.Counted count) {more : Nat → Nat} (hmore : ∀ n, count n ≤ more n)
    (hchanged : changed.version ≤ more id) : (session.setDocument id changed).Counted more := by
  intro n later hlater
  rcases getElem?_setDocument hlater with ⟨rfl, rfl⟩ | ⟨-, hold⟩
  · exact hchanged
  · exact Nat.le_trans (hcounted n later hold) (hmore n)

/-- Only commits make versions grow. -/
theorem shift (hcounted : session.Counted count) (hshift : Shift session turn after) :
    after.Counted fun id => count id + (turn.changes id).toNat := by
  have hmore (n : Nat) : count n ≤ count n + (turn.changes n).toNat := Nat.le_add_right _ _
  cases hshift with
  | filed files => exact hcounted
  | held id document holds hdocument => exact hcounted.set hmore (hcounted id document hdocument)
  | discarded id document hdocument => exact hcounted.set hmore (hcounted id document hdocument)
  | queued id document edit edits hdocument =>
    exact hcounted.set hmore (hcounted id document hdocument)
  | changed id document committed change hdocument hcommit =>
    obtain ⟨-, events, -, rfl, -⟩ := Shift.commit_eq hcommit
    have hversion := hcounted id document hdocument
    rw [Counted, documents_say]
    refine hcounted.set hmore ?_
    simp [Turn.changes, hversion]
  | closed id document hdocument =>
    rw [Counted, documents_say]
    exact hcounted.set hmore (hcounted id document hdocument)
  | reopened id document hdocument =>
    rw [Counted, documents_say]
    exact hcounted.set hmore (hcounted id document hdocument)
  | shadowed id other document hdocument =>
    exact hcounted.set hmore (hcounted id document hdocument)
  | fresh workspace path uri language text document hworkspace hnew =>
    rw [Counted, documents_say]
    intro n later hlater
    change (session.documents ++ [document])[n]? = some later at hlater
    rw [List.getElem?_append] at hlater
    split at hlater
    · exact Nat.le_trans (hcounted n later hlater) (hmore n)
    · obtain rfl := List.mem_singleton.mp (List.mem_of_getElem? hlater)
      rw [hnew]
      exact Nat.zero_le _

/-- Of several shifts the commits are counted. -/
theorem path {turns : List Turn} (hcounted : session.Counted count)
    (hpath : Path session turns after) :
    after.Counted fun id => count id + turns.countP (Turn.changes id) := by
  induction hpath generalizing count with
  | nil => exact hcounted
  | @cons _ _ _ turn turns hshift _ ih =>
    intro id document hdocument
    have hversion : document.version ≤
        count id + (turn.changes id).toNat + turns.countP (Turn.changes id) :=
      ih (hcounted.shift hshift) id document hdocument
    change document.version ≤ count id + (turn :: turns).countP (Turn.changes id)
    rwa [countP_cons_toNat, ← Nat.add_assoc]

/-- Attaching a client commits nothing. -/
theorem attach (hcounted : session.Counted count) (hhere : session.workspace.isSome = true)
    (place : Nat) : (session.attach place).Counted count := by
  intro n later hlater
  rw [(attach_keeps hhere place).1] at hlater
  exact hcounted n later hlater

/-- Versions stay below what the counts stay below. -/
theorem version_lt (hcounted : session.Counted count) {bound : Nat}
    (hbound : ∀ n, count n < bound) : ∀ document ∈ session.documents, document.version < bound := by
  intro document hdocument
  obtain ⟨n, hn⟩ := List.mem_iff_getElem?.mp hdocument
  exact Nat.lt_of_le_of_lt (hcounted n document hn) (hbound n)

end Session.Counted

/-- An operation brings no carriage return into texts. -/
structure Operation.IsPlainText (operation : Operation) : Prop where
  text : ∀ text, operation.text? = some text → '\r' ∉ text.toList
  files : ∀ files, operation = .changeFiles files → PlainFiles files

namespace Desk

variable {desk : Desk} {operation : Operation} {operations : List Operation}
  {encoding : PositionEncoding} {count : Nat → Nat}

/-- What an operation is accounted for neither shadows a document nor brings a carriage return. -/
theorem Account.isPlainText {turns : List Turn} (haccount : Account desk operation turns)
    (hplain : operation.IsPlainText) (halone : desk.ReopensAlone operation) :
    ∀ turn ∈ turns, turn.IsPlainText := by
  intro turn hturn
  constructor
  · rintro id rfl
    exact haccount.alone halone id hturn
  · rintro files rfl
    exact hplain.files files (haccount.filed files hturn)
  · rintro text rfl
    exact hplain.text text (haccount.queued text hturn)

/-- A workspace that was just begun is sound, and nothing was committed. -/
theorem sound_begin {files : FileTree} (hfiles : PlainFiles files) (clients : List Client)
    (root : String) (encoding : PositionEncoding) :
    (begin files clients root encoding).session.Sound encoding where
  tidy := tidy_begin files clients root encoding
  housed _ _ hdocument := by cases hdocument
  encoding_eq := rfl
  documents _ hmem := by cases hmem
  files := hfiles

theorem counted_begin (files : FileTree) (clients : List Client) (root : String)
    (encoding : PositionEncoding) :
    (begin files clients root encoding).session.Counted fun _ => 0 := by
  intro id document hdocument
  cases hdocument

/-- Of an operation the commits are counted. -/
theorem counted_perform (hcounted : desk.session.Counted count) (htidy : Tidy desk.session)
    (operation : Operation) :
    (desk.perform operation).session.Counted fun id =>
      count id + (desk.commits id operation).toNat := by
  obtain ⟨client, rfl⟩ | ⟨turns, hpath, haccount⟩ := perform_cases htidy operation
  · exact hcounted.attach htidy.here client
  · intro id document hdocument
    have hversion := hcounted.path hpath id document hdocument
    exact Nat.le_trans hversion (Nat.add_le_add_left (haccount.changed id) _)

/-- Over a run the commits of each document are counted. -/
theorem counted_performAll (hcounted : desk.session.Counted count) (htidy : Tidy desk.session)
    (operations : List Operation) :
    (desk.performAll operations).session.Counted fun id =>
      count id + desk.commitsIn id operations := by
  induction operations generalizing desk count with
  | nil => exact hcounted
  | cons operation rest ih =>
    intro id document hdocument
    have hversion : document.version ≤ count id + (desk.commits id operation).toNat +
        (desk.perform operation).commitsIn id rest :=
      ih (counted_perform hcounted htidy operation) (tidy_run htidy [operation]) id document
        hdocument
    rwa [Nat.add_assoc] at hversion

/-- Operations keep the workspace sound. -/
theorem sound_performAll (hsound : desk.session.Sound encoding)
    (hattach : ∀ operation ∈ operations, operation.isAttach = false)
    (hplain : ∀ operation ∈ operations, operation.IsPlainText)
    (halone : desk.AllReopenAlone operations) :
    (desk.performAll operations).session.Sound encoding := by
  induction operations generalizing desk with
  | nil => exact hsound
  | cons operation rest ih =>
    obtain ⟨turns, hpath, haccount⟩ :=
      path_perform hsound.tidy operation (hattach operation List.mem_cons_self)
    have hturns := haccount.isPlainText (hplain operation List.mem_cons_self) halone.1
    exact ih (hsound.path hpath hturns)
      (fun other hother => hattach other (List.mem_cons_of_mem _ hother))
      (fun other hother => hplain other (List.mem_cons_of_mem _ hother)) halone.2

end Desk

end LanguageClient
