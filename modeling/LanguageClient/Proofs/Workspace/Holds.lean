import LanguageClient.Proofs.Workspace.Telling

/-!
# Holds that are taken and given back

What an operation does to the holds of documents is said by the documents on which it takes holds or
gives them back, each of them as often as it stands in a list. Giving back is cut off at zero: a
document without a hold is closed, and has none to give.
-/

namespace LanguageClient

/-- The documents that a list holds open, one for each entry. -/
def LocationList.documents (list : LocationList) : List Nat :=
  list.entries.map LocationEntry.document

namespace Session

/-- How many holds keep the document at a place open. -/
def holdsAt (session : Session) (id : Nat) : Nat :=
  ((session.documents[id]?).map TextDocument.holds).getD 0

/-- Every document has got as many holds as it stands in a list. -/
def Takes (session : Session) (ids : List Nat) (after : Session) : Prop :=
  ∀ id, after.holdsAt id = session.holdsAt id + ids.count id

/-- Every document has lost as many holds as it stands in a list, if it had so many. -/
def Gives (session : Session) (ids : List Nat) (after : Session) : Prop :=
  ∀ id, after.holdsAt id = session.holdsAt id - ids.count id

variable {session middle after : Session} {ids more : List Nat} {id : Nat}
  {document changed : TextDocument}

theorem holdsAt_eq (hdocument : session.documents[id]? = some document) :
    session.holdsAt id = document.holds := by
  rw [holdsAt, hdocument]
  rfl

/-- A document is open exactly if it has a hold. -/
theorem holdsAt_pos_iff : 0 < session.holdsAt id ↔ session.IsLive id := by
  constructor
  · intro hpos
    cases hdocument : session.documents[id]? with
    | none => simp [holdsAt, hdocument] at hpos
    | some document =>
      rw [holdsAt_eq hdocument] at hpos
      exact ⟨document, hdocument, beq_eq_false_iff_ne.mpr (Nat.ne_of_gt hpos)⟩
  · rintro ⟨document, hdocument, hopen⟩
    rw [holdsAt_eq hdocument]
    exact Nat.pos_of_ne_zero (beq_eq_false_iff_ne.mp hopen)

/-- Whatever leaves the documents alone takes no hold. -/
theorem Takes.of_documents (hdocuments : after.documents = session.documents) :
    session.Takes [] after := by
  intro n
  rw [holdsAt, hdocuments]
  rfl

theorem Takes.trans (htakes : session.Takes ids middle) (hmore : middle.Takes more after) :
    session.Takes (ids ++ more) after := by
  intro n
  rw [hmore n, htakes n, List.count_append, Nat.add_assoc]

theorem Gives.trans (hgives : session.Gives ids middle) (hmore : middle.Gives more after) :
    session.Gives (ids ++ more) after := by
  intro n
  rw [hmore n, hgives n, List.count_append, Nat.sub_sub]

/-- What was taken can be given back, whatever else was taken in between. -/
theorem Takes.give (htakes : session.Takes ids middle) (hgives : middle.Gives more after)
    {kept : List Nat} (hids : ids.Perm (more ++ kept)) : session.Takes kept after := by
  intro n
  rw [hgives n, htakes n, hids.count_eq, List.count_append]
  omega

/-- The order in which holds are taken does not matter. -/
theorem Takes.perm (htakes : session.Takes ids after) (hids : ids.Perm more) :
    session.Takes more after := by
  intro n
  rw [htakes n, hids.count_eq]

/-- Only the document that changes has other holds than before. -/
theorem holdsAt_setDocument (hdocument : session.documents[id]? = some document) (n : Nat) :
    (session.setDocument id changed).holdsAt n =
      if n = id then changed.holds else session.holdsAt n := by
  have hlt := (List.getElem?_eq_some_iff.mp hdocument).1
  unfold holdsAt setDocument
  split
  · rename_i hn
    rw [hn, List.getElem?_set_self hlt]
    rfl
  · rename_i hn
    rw [List.getElem?_set_ne (Ne.symm hn)]

/-- A document that changes without its holds takes none. -/
theorem takes_nil_setDocument (hdocument : session.documents[id]? = some document)
    (hholds : changed.holds = document.holds) :
    session.Takes [] (session.setDocument id changed) := by
  intro n
  rw [holdsAt_setDocument hdocument, List.count_nil, Nat.add_zero]
  split
  · rename_i hn
    rw [hn, holdsAt_eq hdocument, hholds]
  · rfl

/-- A document that gets one more hold takes one. -/
theorem takes_setDocument (hdocument : session.documents[id]? = some document)
    (hholds : changed.holds = document.holds + 1) :
    session.Takes [id] (session.setDocument id changed) := by
  intro n
  rw [holdsAt_setDocument hdocument, List.count_singleton]
  split
  · rename_i hn
    rw [hn, holdsAt_eq hdocument, hholds, if_pos (beq_self_eq_true id)]
  · rename_i hn
    rw [if_neg (by simpa using Ne.symm hn), Nat.add_zero]

/-- A document that loses one of its holds gives one. -/
theorem gives_setDocument (hdocument : session.documents[id]? = some document)
    (hholds : changed.holds = document.holds - 1) :
    session.Gives [id] (session.setDocument id changed) := by
  intro n
  rw [holdsAt_setDocument hdocument, List.count_singleton]
  split
  · rename_i hn
    rw [hn, holdsAt_eq hdocument, hholds, if_pos (beq_self_eq_true id)]
  · rename_i hn
    rw [if_neg (by simpa using Ne.symm hn), Nat.sub_zero]

theorem takes_acquire (hafter : session.acquire id = .ok after) : session.Takes [id] after := by
  obtain ⟨document, hdocument, -, rfl⟩ := acquire_eq hafter
  exact takes_setDocument hdocument rfl

theorem documents_afterClose (session : Session) (id : Nat) (document : TextDocument) :
    (session.afterClose id document).documents = session.documents := by
  unfold afterClose
  split
  · rfl
  · exact (tell_keeps _ _ _).1

/-- Without a hold there is nothing to give back. A hold that is not the last one is given back, and
the last one closes the document. -/
theorem releaseIfOpen_cases (session : Session) (id : Nat) :
    session.holdsAt id = 0 ∧ session.releaseIfOpen id = session ∨
    ∃ document, session.documents[id]? = some document ∧
      (1 < document.holds ∧ session.releaseIfOpen id =
          session.setDocument id { document with holds := document.holds - 1 } ∨
        document.holds = 1 ∧ session.releaseIfOpen id =
          (session.setDocument id document.closed).afterClose id document.closed) := by
  cases hdocument : session.documents[id]? with
  | none =>
    refine Or.inl ⟨by rw [holdsAt, hdocument]; rfl, ?_⟩
    simp [releaseIfOpen, release, find, hdocument, bind, Except.bind]
  | some document =>
    simp only [releaseIfOpen, release, find, hdocument, bind, Except.bind]
    cases hrelease : document.release with
    | error error =>
      refine Or.inl ⟨?_, rfl⟩
      rw [holdsAt_eq hdocument]
      by_contra hholds
      simp [TextDocument.release, TextDocument.ensureOpen, TextDocument.isClosed, hholds, bind,
        Except.bind, pure, Except.pure] at hrelease
    | ok result =>
      obtain ⟨changed, isLast⟩ := result
      obtain ⟨-, ⟨rfl, hone, rfl⟩ | ⟨rfl, hmany, rfl⟩⟩ := release_ok hrelease
      · exact Or.inr ⟨document, rfl, Or.inr ⟨hone, rfl⟩⟩
      · exact Or.inr ⟨document, rfl, Or.inl ⟨hmany, rfl⟩⟩

/-- A hold can be given back exactly if there is one. -/
theorem gives_releaseIfOpen (session : Session) (id : Nat) :
    session.Gives [id] (session.releaseIfOpen id) := by
  obtain ⟨hnone, heq⟩ | ⟨document, hdocument, ⟨-, heq⟩ | ⟨hone, heq⟩⟩ :=
    releaseIfOpen_cases session id
  · intro n
    rw [heq, List.count_singleton]
    split
    · rename_i hn
      obtain rfl := eq_of_beq hn
      rw [hnone]
    · rfl
  · rw [heq]
    exact gives_setDocument hdocument rfl
  · have hset : session.Gives [id] (session.setDocument id document.closed) :=
      gives_setDocument hdocument (by rw [hone]; rfl)
    intro n
    rw [heq, ← hset n, holdsAt, documents_afterClose]
    rfl

theorem gives_releases (session : Session) (ids : List Nat) :
    session.Gives ids (ids.foldl releaseIfOpen session) := by
  induction ids generalizing session with
  | nil => exact fun _ => rfl
  | cons id rest ih => exact (gives_releaseIfOpen session id).trans (ih _)

theorem takes_reopen (hafter : session.reopen id = .ok after) : session.Takes [id] after := by
  simp only [reopen, find] at hafter
  cases hdocument : session.documents[id]? with
  | none =>
    rw [hdocument] at hafter
    cases hafter
  | some document =>
    have hset : session.Takes [id] (session.setDocument id document.reopen.1) :=
      takes_setDocument hdocument rfl
    rw [hdocument] at hafter
    simp only [bind, Except.bind, pure, Except.pure] at hafter
    split at hafter
    · obtain rfl := Except.ok.inj hafter
      exact hset
    · obtain rfl := Except.ok.inj hafter
      exact hset.trans (.of_documents (tell_keeps _ _ _).1)

/-- A document that is new has its holds from the beginning. -/
theorem takes_append (session : Session) (hone : document.holds = 1) :
    session.Takes [session.documents.length]
      { session with documents := session.documents ++ [document] } := by
  intro n
  rw [holdsAt, holdsAt, List.count_singleton]
  rcases Nat.lt_trichotomy n session.documents.length with hn | rfl | hn
  · rw [List.getElem?_append_left hn, if_neg (by simpa using Nat.ne_of_gt hn), Nat.add_zero]
  · simp [hone]
  · have hlength : (session.documents ++ [document]).length ≤ n := by
      rw [List.length_append]
      exact hn
    rw [List.getElem?_eq_none hlength, List.getElem?_eq_none (Nat.le_of_lt hn),
      if_neg (by simpa using Nat.ne_of_lt hn), Nat.add_zero]

/-- A document that is read has one hold. -/
theorem takes_openFresh {workspace : Workspace} {path uri : String} {language : Option String}
    (hafter : session.openFresh workspace path uri language = .ok (id, after)) :
    session.Takes [id] after := by
  unfold openFresh at hafter
  split at hafter
  · cases hafter
  · cases hafter
  · rename_i text hread
    obtain ⟨rfl, rfl⟩ := Prod.mk.inj (Except.ok.inj hafter)
    exact (takes_append session rfl).trans (.of_documents (tell_keeps _ _ _).1)

theorem takes_openDocument {target : String} {language : Option String}
    (hafter : session.openDocument target language = .ok (id, after)) :
    session.Takes [id] after := by
  unfold openDocument at hafter
  cases hworkspace : session.workspace with
  | none =>
    rw [hworkspace] at hafter
    cases hafter
  | some workspace =>
    rw [hworkspace] at hafter
    dsimp only at hafter
    split at hafter
    · exact takes_openFresh hafter
    · rename_i found hfound
      split at hafter
      · rename_i held hheld
        obtain ⟨rfl, rfl⟩ := Prod.mk.inj (Except.ok.inj hafter)
        exact takes_acquire hheld
      · have hdropped : session.Takes [] (session.modifyWorkspace (·.dropDocument
            (Uri.ofPath session.files.homePath (workspace.resolve target)) found)) :=
          .of_documents rfl
        exact hdropped.trans (takes_openFresh hafter)

/-- Queueing an edit leaves the holds. -/
theorem holds_edit {text : String} {start stop : Nat}
    (hedit : document.edit text start stop = .ok changed) : changed.holds = document.holds := by
  obtain ⟨-, -, -, -, edits, -, rfl⟩ := TextDocument.edit_eq_ok_iff.mp hedit
  rfl

/-- An edit that is queued or discarded takes no hold. -/
theorem takes_modifyDocument {change : TextDocument → Except DocumentError TextDocument}
    (hholds : ∀ document changed, change document = .ok changed → changed.holds = document.holds)
    (hafter : session.modifyDocument id change = .ok after) : session.Takes [] after := by
  obtain ⟨document, changed, hdocument, hchange, rfl⟩ := modifyDocument_ok hafter
  exact takes_nil_setDocument hdocument (hholds document changed hchange)

theorem takes_commit (hafter : session.commit id = .ok after) : session.Takes [] after := by
  simp only [commit, find] at hafter
  cases hdocument : session.documents[id]? with
  | none =>
    rw [hdocument] at hafter
    cases hafter
  | some document =>
    rw [hdocument] at hafter
    simp only [bind, Except.bind, pure, Except.pure] at hafter
    split at hafter
    · cases hafter
    · rename_i result hcommit
      obtain ⟨committed, change⟩ := result
      obtain rfl := Except.ok.inj hafter
      have hholds : committed.holds = document.holds := by
        obtain ⟨-, events, -, rfl, -⟩ := Shift.commit_eq hcommit
        rfl
      exact (takes_nil_setDocument hdocument hholds).trans (.of_documents (tell_keeps _ _ _).1)

/-- A list takes a hold on the document of each of its entries. -/
theorem takes_buildEntries {items : List (Nat × List OffsetRange)} {entries : List LocationEntry}
    (hafter : session.buildEntries items = .ok (entries, after)) :
    session.Takes (entries.map LocationEntry.document) after := by
  induction items generalizing session entries with
  | nil =>
    obtain ⟨rfl, rfl⟩ := Prod.mk.inj (Except.ok.inj hafter)
    exact .of_documents rfl
  | cons item rest ih =>
    obtain ⟨id, ranges⟩ := item
    simp only [buildEntries, bind, Except.bind, pure, Except.pure] at hafter
    split at hafter
    · cases hafter
    · rename_i middle hreopen
      split at hafter
      · cases hafter
      · split at hafter
        · cases hafter
        · rename_i result hrest
          obtain ⟨rfl, rfl⟩ := Prod.mk.inj (Except.ok.inj hafter)
          exact (takes_reopen hreopen).trans (ih hrest)

theorem takes_buildList {documents : List Nat} {ranges : List (List OffsetRange)}
    {list : LocationList} (hafter : session.buildList documents ranges = .ok (list, after)) :
    session.Takes list.documents after := by
  unfold buildList at hafter
  split at hafter
  · cases hafter
  · split at hafter
    · rename_i hentries
      obtain ⟨rfl, rfl⟩ := Prod.mk.inj (Except.ok.inj hafter)
      exact takes_buildEntries hentries
    · cases hafter

/-- Opening a target takes a hold on its document, if it begins a new run. -/
theorem takes_openTarget (session : Session) (opened : OpenRuns) (uri : String) (range : Range) :
    ∃ ids, session.Takes ids (session.openTarget opened uri range).1 ∧
      (session.openTarget opened uri range).2.1.runs.map Prod.fst =
        ids ++ opened.runs.map Prod.fst := by
  unfold openTarget
  split
  · exact ⟨[], .of_documents rfl, map_fst_addRange session opened range⟩
  · split
    · rename_i id middle hopen
      refine ⟨[id], takes_openDocument hopen, ?_⟩
      rw [map_fst_addRange]
      rfl
    · exact ⟨[], .of_documents rfl, rfl⟩

/-- Opening targets takes a hold for each run of equal addresses, also if it fails. -/
theorem takes_openTargets (session : Session) (opened : OpenRuns)
    (targets : List (String × Range)) :
    ∃ ids, session.Takes ids (session.openTargets opened targets).1 ∧
      (session.openTargets opened targets).2.1.runs.map Prod.fst =
        ids ++ opened.runs.map Prod.fst := by
  induction targets generalizing session opened with
  | nil => exact ⟨[], .of_documents rfl, rfl⟩
  | cons target rest ih =>
    obtain ⟨uri, range⟩ := target
    obtain ⟨ids, htakes, hruns⟩ := takes_openTarget session opened uri range
    unfold openTargets
    split
    · rename_i middle reached hresult
      rw [hresult] at htakes hruns
      obtain ⟨more, hmore, hmore_runs⟩ := ih middle reached
      refine ⟨more ++ ids, (htakes.trans hmore).perm List.perm_append_comm, ?_⟩
      rw [hmore_runs, hruns, List.append_assoc]
    · exact ⟨ids, htakes, hruns⟩

/-- A list of the targets of locations keeps the holds of its entries. Those that were taken while
it was built are given back, whether it could be built or not. -/
theorem takes_listOfLocations {locations : Locations} {result : Except LocationError LocationList}
    (hafter : session.listOfLocations locations = (result, after)) :
    session.Takes ((result.toOption.map LocationList.documents).getD []) after := by
  unfold listOfLocations at hafter
  obtain ⟨ids, htakes, hruns⟩ := takes_openTargets session ⟨[], none⟩ locations.targets
  generalize session.openTargets ⟨[], none⟩ locations.targets = reached at hafter htakes hruns
  obtain ⟨opened, ⟨runs, current⟩, outcome⟩ := reached
  have hgiven : (runs.reverse.map Prod.fst).Perm ids := by
    rw [List.map_nil, List.append_nil] at hruns
    rw [List.map_reverse, hruns]
    exact List.reverse_perm ids
  dsimp only at hafter htakes hgiven
  rw [← List.foldl_map] at hafter
  obtain ⟨hresult, rfl⟩ := Prod.mk.inj hafter
  -- The holds of the runs are taken first and given back last, and those of the list stay.
  refine Takes.give ?_ (gives_releases _ _) (hgiven.symm.append_right _)
  cases outcome with
  | error error =>
    obtain rfl := hresult
    rw [Except.toOption, Option.map_none, Option.getD_none, List.append_nil]
    exact htakes
  | ok =>
    dsimp only at hresult ⊢
    split at hresult
    · rename_i list built hbuilt
      obtain rfl := hresult
      exact htakes.trans (takes_buildList hbuilt)
    · obtain rfl := hresult
      rw [Except.toOption, Option.map_none, Option.getD_none, List.append_nil]
      exact htakes

theorem gives_closeList (session : Session) (list : LocationList) :
    session.Gives list.documents (session.closeList list) := by
  have hgives := gives_releases session list.documents
  rwa [LocationList.documents, List.foldl_map] at hgives

/-- Attaching a client takes no hold. -/
theorem takes_attach (session : Session) (place : Nat) :
    session.Takes [] (session.attach place) := by
  cases hworkspace : session.workspace with
  | none =>
    have hsame : session.attach place = session := by
      rw [attach, hworkspace]
    rw [hsame]
    exact .of_documents rfl
  | some workspace =>
    exact .of_documents (attach_keeps (Option.isSome_of_eq_some hworkspace) place).1

end Session

end LanguageClient
