import LanguageClient.Proofs.Workspace.Soundness

/-!
# How documents grow

A document keeps its address for as long as the session lasts. Its version counts its commits, and
between two of them its text stays as it is, whoever opens or closes it meanwhile: the version tells
the text.
-/

namespace LanguageClient

/-- What has become of a document whose edits were committed so many times. -/
structure TextDocument.Becomes (document : TextDocument) (commits : Nat) (later : TextDocument) :
    Prop where
  uri : later.uri = document.uri
  version : later.version = document.version + commits
  text : commits = 0 → later.text = document.text

theorem TextDocument.Becomes.trans {document middle later : TextDocument} {commits more : Nat}
    (hbecomes : document.Becomes commits middle) (hmore : middle.Becomes more later) :
    document.Becomes (commits + more) later where
  uri := hmore.uri.trans hbecomes.uri
  version := by rw [hmore.version, hbecomes.version, Nat.add_assoc]
  text hnone := by
    have hfirst : commits = 0 := by omega
    have hlast : more = 0 := by omega
    exact (hmore.text hlast).trans (hbecomes.text hfirst)

/-- Every document is still there, and its edits were committed so many times. -/
def Session.Grows (session : Session) (commits : Nat → Nat) (after : Session) : Prop :=
  ∀ id (document : TextDocument), session.documents[id]? = some document →
    ∃ later, after.documents[id]? = some later ∧ document.Becomes (commits id) later

namespace Session.Grows

variable {session middle after : Session} {commits more : Nat → Nat} {id : Nat}
  {document changed : TextDocument}

/-- Nothing happens to documents that are left alone. -/
theorem of_documents (hdocuments : after.documents = session.documents)
    (hnone : ∀ n, commits n = 0) : session.Grows commits after := by
  intro n document hdocument
  refine ⟨document, by rw [hdocuments, hdocument], rfl, ?_, fun _ => rfl⟩
  rw [hnone, Nat.add_zero]

theorem trans (hgrows : session.Grows commits middle) (hmore : middle.Grows more after) :
    session.Grows (fun n => commits n + more n) after := by
  intro n document hdocument
  obtain ⟨other, hother, hbecomes⟩ := hgrows n document hdocument
  obtain ⟨later, hlater, hbecomes'⟩ := hmore n other hother
  exact ⟨later, hlater, hbecomes.trans hbecomes'⟩

/-- Commits may be counted in another way. -/
theorem congr (hgrows : session.Grows commits after) (hcommits : ∀ n, more n = commits n) :
    session.Grows more after := by
  intro n document hdocument
  rw [hcommits]
  exact hgrows n document hdocument

/-- Only the document grows that changes. -/
theorem set (hdocument : session.documents[id]? = some document)
    (hchanged : document.Becomes (commits id) changed) (hothers : ∀ n, n ≠ id → commits n = 0) :
    session.Grows commits (session.setDocument id changed) := by
  intro n other hother
  by_cases hn : n = id
  · subst hn
    obtain rfl := Option.some.inj (hdocument.symm.trans hother)
    exact ⟨changed, List.getElem?_set_self (List.getElem?_eq_some_iff.mp hdocument).1, hchanged⟩
  · refine ⟨other, (List.getElem?_set_ne (Ne.symm hn)).trans hother, rfl, ?_, fun _ => rfl⟩
    rw [hothers n hn, Nat.add_zero]

/-- A document that keeps its address, its version and its text does not grow. -/
theorem keep (hdocument : session.documents[id]? = some document)
    (huri : changed.uri = document.uri) (hversion : changed.version = document.version)
    (htext : changed.text = document.text) :
    session.Grows (fun _ => 0) (session.setDocument id changed) :=
  .set hdocument ⟨huri, hversion, fun _ => htext⟩ fun _ _ => rfl

/-- Every shift lets the documents grow that it changes. -/
theorem shift {turn : Turn} (hshift : Shift session turn after) :
    session.Grows (fun n => (turn.changes n).toNat) after := by
  cases hshift with
  | filed => exact .of_documents rfl fun _ => rfl
  | held id document holds hdocument => exact .keep hdocument rfl rfl rfl
  | discarded id document hdocument => exact .keep hdocument rfl rfl rfl
  | queued id document edit edits hdocument => exact .keep hdocument rfl rfl rfl
  | changed id document committed change hdocument hcommit =>
    obtain ⟨-, events, -, rfl, -⟩ := Shift.commit_eq hcommit
    rw [Grows, documents_say]
    refine set hdocument ⟨rfl, ?_, ?_⟩ ?_
    · simp [Turn.changes]
    · simp [Turn.changes]
    · intro n hn
      simp [Turn.changes, Ne.symm hn]
  | closed id document hdocument =>
    rw [Grows, documents_say]
    exact keep hdocument rfl rfl rfl
  | reopened id document hdocument =>
    rw [Grows, documents_say]
    exact keep hdocument rfl rfl rfl
  | shadowed id other document hdocument => exact .keep hdocument rfl rfl rfl
  | fresh =>
    rw [Grows, documents_say]
    intro n other hother
    have hlt := (List.getElem?_eq_some_iff.mp hother).1
    exact ⟨other, (List.getElem?_append_left hlt).trans hother, rfl, rfl, fun _ => rfl⟩

/-- Over several shifts a document grows with those that change it. -/
theorem path {turns : List Turn} (hpath : Path session turns after) :
    session.Grows (fun n => turns.countP (Turn.changes n)) after := by
  induction hpath with
  | nil => exact .of_documents rfl fun _ => rfl
  | cons hshift _ ih => exact ((shift hshift).trans ih).congr fun n => countP_cons_toNat _ _ _

/-- Shifts that change nothing let nothing grow. -/
theorem still {turns : List Turn} (hpath : Path session turns after)
    (hturns : ∀ turn ∈ turns, ∀ n, turn.changes n = false) : session.Grows (fun _ => 0) after := by
  refine (path hpath).congr fun n => (List.countP_eq_zero.mpr fun turn hturn => ?_).symm
  rw [hturns turn hturn n]
  exact Bool.false_ne_true

end Session.Grows

namespace Desk

variable {desk : Desk}

/-- An operation that does not commit lets nothing grow. -/
theorem grows_of_commits_eq (htidy : Tidy desk.session) {operation : Operation}
    (hcommits : ∀ id, desk.commits id operation = false) :
    desk.session.Grows (fun _ => 0) (desk.perform operation).session := by
  obtain ⟨client, rfl⟩ | ⟨turns, hpath, haccount⟩ := perform_cases htidy operation
  · exact .of_documents (attach_keeps htidy.here client).1 fun _ => rfl
  · refine (Session.Grows.path hpath).congr fun id => ?_
    have hchanged := haccount.changed id
    rw [hcommits id] at hchanged
    exact (Nat.le_zero.mp hchanged).symm

/-- Every operation lets the document grow whose edits it commits. -/
theorem grows_perform (htidy : Tidy desk.session) (operation : Operation) :
    desk.session.Grows (fun id => (desk.commits id operation).toNat)
      (desk.perform operation).session := by
  cases operation with
  | commit n =>
    cases hcommit : desk.session.commit n with
    | error error =>
      have hnone (id : Nat) : desk.commits id (.commit n) = false := by
        simp [commits, hcommit, Except.isOk, Except.toBool]
      exact (grows_of_commits_eq htidy hnone).congr fun id => by rw [hnone id]; rfl
    | ok after =>
      obtain ⟨change, hshift⟩ := shift_commit htidy hcommit
      have hafter : (desk.perform (.commit n)).session = after := by
        rw [perform, hcommit]
        rfl
      rw [hafter]
      refine (Session.Grows.shift hshift).congr fun id => ?_
      simp [commits, hcommit, Except.isOk, Except.toBool, Turn.changes]
  | _ => exact grows_of_commits_eq htidy fun _ => rfl

/-- Over a run every document grows with its commits. -/
theorem grows_run (htidy : Tidy desk.session) (operations : List Operation) :
    desk.session.Grows (fun id => desk.commitsIn id operations)
      (desk.performAll operations).session := by
  induction operations generalizing desk with
  | nil => exact .of_documents rfl fun _ => rfl
  | cons operation rest ih =>
    exact (grows_perform htidy operation).trans (ih (tidy_run htidy [operation]))

end Desk

end LanguageClient
