import LanguageClient.Proofs.Workspace.Holds

/-!
# Opening and holding only

As long as documents are only opened and held, every document stays where it is and as it is, but
for its holds. The same goes for giving back holds as long as none of them is the last one. What a
target is opened as, and why it cannot be opened, is then the same before and after.
-/

namespace LanguageClient

namespace Session

/-- The address at which a target is opened. -/
def addressOf (session : Session) (target : String) : Option String :=
  session.workspace.map fun workspace =>
    Uri.ofPath session.files.homePath (workspace.resolve target)

/-- The document that is open at the address of a target. -/
def placeOf (session : Session) (target : String) : Option Nat :=
  (session.addressOf target).bind session.openAt?

/-- Nothing was done but to open documents and to change the holds of open ones, which stay open. -/
structure Continues (session after : Session) : Prop where
  files : after.files = session.files
  root : after.workspace.map Workspace.root = session.workspace.map Workspace.root
  openAt : ∀ uri id, session.openAt? uri = some id → after.openAt? uri = some id
  back : ∀ uri id, after.openAt? uri = some id →
    session.openAt? uri = some id ∨ session.documents.length ≤ id
  documents : ∀ (id : Nat) (document : TextDocument), session.documents[id]? = some document →
    ∃ holds, after.documents[id]? = some { document with holds }

namespace Continues

variable {session middle after : Session} {id : Nat} {document : TextDocument}

theorem refl (session : Session) : session.Continues session where
  files := rfl
  root := rfl
  openAt _ _ hopen := hopen
  back _ _ hopen := Or.inl hopen
  documents _ document hdocument := ⟨document.holds, hdocument⟩

/-- No document goes away. -/
theorem length_le (hcontinues : session.Continues after) :
    session.documents.length ≤ after.documents.length := by
  by_contra hless
  have hlt : after.documents.length < session.documents.length := Nat.lt_of_not_le hless
  obtain ⟨holds, hafter⟩ := hcontinues.documents _ _ (List.getElem?_eq_getElem hlt)
  rw [List.getElem?_eq_none (Nat.le_refl _)] at hafter
  cases hafter

theorem trans (hfirst : session.Continues middle) (hlater : middle.Continues after) :
    session.Continues after where
  files := hlater.files.trans hfirst.files
  root := hlater.root.trans hfirst.root
  openAt uri id hopen := hlater.openAt uri id (hfirst.openAt uri id hopen)
  back uri id hopen := by
    rcases hlater.back uri id hopen with hmiddle | hnew
    · exact hfirst.back uri id hmiddle
    · exact Or.inr (hfirst.length_le.trans hnew)
  documents id document hdocument := by
    obtain ⟨holds, hmiddle⟩ := hfirst.documents id document hdocument
    obtain ⟨later, hlast⟩ := hlater.documents id _ hmiddle
    exact ⟨later, hlast⟩

/-- Targets have the same addresses as before. -/
theorem addressOf_eq (hcontinues : session.Continues after) (target : String) :
    after.addressOf target = session.addressOf target := by
  have hresolve {workspace other : Workspace} (hroot : other.root = workspace.root) :
      other.resolve target = workspace.resolve target := by
    unfold Workspace.resolve
    rw [hroot]
  have hroot := hcontinues.root
  unfold addressOf
  rw [hcontinues.files]
  cases hbefore : session.workspace with
  | none =>
    rw [hbefore] at hroot
    rw [Option.map_eq_none_iff.mp hroot]
  | some workspace =>
    rw [hbefore] at hroot
    obtain ⟨other, hother, hsame⟩ := Option.map_eq_some_iff.mp hroot
    rw [hother, Option.map_some, Option.map_some, hresolve hsame]

theorem placeOf (hcontinues : session.Continues after) {target : String}
    (hplace : session.placeOf target = some id) : after.placeOf target = some id := by
  obtain ⟨uri, haddress, hopen⟩ := Option.bind_eq_some_iff.mp hplace
  rw [Session.placeOf, hcontinues.addressOf_eq, haddress]
  exact hcontinues.openAt uri id hopen

/-- A document gets other holds. -/
theorem setDocument (hdocument : session.documents[id]? = some document) (holds : Nat) :
    session.Continues (session.setDocument id { document with holds }) := by
  refine ⟨rfl, rfl, fun _ _ hopen => hopen, fun _ _ hopen => Or.inl hopen, fun n other hother => ?_⟩
  by_cases hn : n = id
  · subst hn
    obtain rfl := Option.some.inj (hdocument.symm.trans hother)
    exact ⟨holds, List.getElem?_set_self (List.getElem?_eq_some_iff.mp hdocument).1⟩
  · exact ⟨other.holds, (List.getElem?_set_ne (Ne.symm hn)).trans hother⟩

end Continues

variable {session after : Session} {id : Nat} {document : TextDocument}

/-- A document that is read comes to an address where there was none. -/
theorem openFresh_ok (htidy : Tidy session) {workspace : Workspace} {path uri : String}
    {language : Option String} (hworkspace : session.workspace = some workspace)
    (hnone : session.openAt? uri = none)
    (hafter : session.openFresh workspace path uri language = .ok (id, after)) :
    session.Continues after ∧
      ∀ other, after.openAt? other = if other = uri then some id else session.openAt? other := by
  unfold openFresh at hafter
  split at hafter
  · cases hafter
  · cases hafter
  · rename_i text hread
    obtain ⟨rfl, rfl⟩ := Prod.mk.inj (Except.ok.inj hafter)
    let document := TextDocument.opened workspace.number path uri
      ((language <|> languageOfPath? path).getD Workspace.fallbackLanguage) text workspace.encoding
    let added := { session with documents := session.documents ++ [document] }.modifyWorkspace
      (·.putDocument uri session.documents.length)
    obtain ⟨hdocuments, hsame, hfiles⟩ := tell_keeps added workspace.clients fun client =>
      client.didOpen added.files document.toItem
    have hadded : Tidy { session with documents := session.documents ++ [document] } :=
      htidy.add rfl hworkspace
    have hopenAt (other : String) : (added.announce workspace.clients document).openAt? other =
        if other = uri then some session.documents.length else session.openAt? other := by
      refine Eq.trans ?_ (hadded.openAt?_put uri other)
      rw [openAt?, announce, hsame]
      rfl
    refine ⟨⟨hfiles, ?_, fun other n hopen => ?_, fun other n hopen => ?_,
      fun n other hother => ?_⟩, hopenAt⟩
    · rw [announce, hsame]
      simp only [added, modifyWorkspace, Option.map_map]
      rfl
    · rw [hopenAt, if_neg, hopen]
      rintro rfl
      rw [hnone] at hopen
      cases hopen
    · rw [hopenAt] at hopen
      split at hopen
      · exact Or.inr (Option.some.inj hopen).le
      · exact Or.inl hopen
    · rw [announce, hdocuments]
      exact ⟨other.holds,
        (List.getElem?_append_left (List.getElem?_eq_some_iff.mp hother).1).trans hother⟩

/-- What cannot be read depends on the files only. -/
theorem openFresh_error {workspace later : Workspace} {path uri other : String}
    {language : Option String} {error : DocumentError} (hfiles : after.files = session.files)
    (hfails : after.openFresh later path other language = .error error) :
    session.openFresh workspace path uri language = .error error := by
  unfold openFresh at hfails ⊢
  rw [hfiles] at hfails
  split at hfails
  · exact hfails
  · exact hfails
  · cases hfails

/-- What opening a target comes to is decided by the document at its address: it is held, if there
is one, else the file is read. -/
theorem openDocument_eq (htidy : Tidy session) (target : String) (language : Option String) :
    ∃ workspace uri, session.workspace = some workspace ∧ session.addressOf target = some uri ∧
      ((∃ id document, session.openAt? uri = some id ∧ session.documents[id]? = some document ∧
        session.openDocument target language =
          .ok (id, session.setDocument id { document with holds := document.holds + 1 })) ∨
      session.openAt? uri = none ∧ session.openDocument target language =
        session.openFresh workspace (workspace.resolve target) uri language) := by
  obtain ⟨workspace, hworkspace⟩ := Option.isSome_iff_exists.mp htidy.here
  refine ⟨workspace, _, hworkspace, by rw [addressOf, hworkspace]; rfl, ?_⟩
  generalize haddress : Uri.ofPath session.files.homePath (workspace.resolve target) = uri
  have hopenAt : workspace.openDocuments.lookup uri = session.openAt? uri := by
    rw [openAt?, hworkspace, Option.bind_some]
  simp only [openDocument, hworkspace, haddress, hopenAt]
  cases hopen : session.openAt? uri with
  | none => exact Or.inr ⟨rfl, rfl⟩
  | some id =>
    obtain ⟨document, hdocument, hlive, -⟩ := htidy.live_of_openAt? hopen
    obtain ⟨after, hheld⟩ := acquire_of_live hdocument hlive
    obtain ⟨found, hfound, -, rfl⟩ := acquire_eq hheld
    refine Or.inl ⟨id, found, rfl, hfound, ?_⟩
    dsimp only
    rw [hheld]

/-- A target that is opened stands at its address, and everything else goes on. -/
theorem openDocument_ok (htidy : Tidy session) {target : String} {language : Option String}
    (hafter : session.openDocument target language = .ok (id, after)) :
    session.Continues after ∧ after.placeOf target = some id := by
  obtain ⟨workspace, uri, hworkspace, haddress, ⟨n, document, hopen, hdocument, heq⟩ |
    ⟨hnone, heq⟩⟩ := openDocument_eq htidy target language
  · rw [heq] at hafter
    obtain ⟨rfl, rfl⟩ := Prod.mk.inj (Except.ok.inj hafter)
    have hcontinues := Continues.setDocument hdocument (document.holds + 1)
    refine ⟨hcontinues, hcontinues.placeOf ?_⟩
    rw [placeOf, haddress, Option.bind_some, hopen]
  · rw [heq] at hafter
    obtain ⟨hcontinues, hopenAt⟩ := openFresh_ok htidy hworkspace hnone hafter
    refine ⟨hcontinues, ?_⟩
    rw [placeOf, hcontinues.addressOf_eq, haddress, Option.bind_some, hopenAt, if_pos rfl]

/-- A target that cannot be opened could not be opened before. -/
theorem openDocument_error (htidy : Tidy session) (hafter : Tidy after)
    (hcontinues : session.Continues after) {target : String} {language : Option String}
    {error : DocumentError} (hfails : after.openDocument target language = .error error) :
    session.openDocument target language = .error error := by
  have hroot := hcontinues.root
  obtain ⟨later, other, hlater, hother, ⟨n, document, -, -, heq⟩ | ⟨hfree, heq⟩⟩ :=
    openDocument_eq hafter target language
  · rw [heq] at hfails
    cases hfails
  obtain ⟨workspace, uri, hworkspace, huri, ⟨n, document, hopen, -, -⟩ | ⟨-, hbefore⟩⟩ :=
    openDocument_eq htidy target language
  · rw [hcontinues.addressOf_eq, huri] at hother
    rw [← Option.some.inj hother, hcontinues.openAt uri n hopen] at hfree
    cases hfree
  · rw [heq] at hfails
    rw [hworkspace, hlater, Option.map_some, Option.map_some] at hroot
    have hresolve : later.resolve target = workspace.resolve target := by
      unfold Workspace.resolve
      rw [Option.some.inj hroot]
    rw [hbefore, ← hresolve]
    exact openFresh_error hcontinues.files hfails

end Session

end LanguageClient
