import LanguageClient.Proofs.Workspace.Shift

/-!
# Tidy workspaces

Every shift keeps it so that the documents which a workspace has at its addresses are open and stand
at their own addresses. What each kind of shift does to documents and addresses is said here once.
-/

namespace LanguageClient

/-- The workspace is there, all documents are its own, and those that it has at its addresses are
open and stand at these addresses. -/
structure Tidy (session : Session) : Prop where
  here : session.workspace.isSome = true
  own : ∀ document ∈ session.documents,
    session.workspace.map Workspace.number = some document.workspace
  nodup : (session.shelf.map Prod.fst).Nodup
  live : ∀ uri id, (uri, id) ∈ session.shelf → ∃ document,
    session.documents[id]? = some document ∧ document.isClosed = false ∧ document.uri = uri

namespace Tidy

variable {session : Session} {id : Nat} {document : TextDocument}

/-- What is found at an address is an open document with this address. -/
theorem live_of_openAt? (htidy : Tidy session) {uri : String}
    (hopen : session.openAt? uri = some id) : ∃ document,
      session.documents[id]? = some document ∧ document.isClosed = false ∧ document.uri = uri := by
  rw [Session.openAt?_eq_lookup] at hopen
  obtain ⟨before, after, hsplit, -⟩ := List.lookup_eq_some_iff.mp hopen
  exact htidy.live uri id (by rw [hsplit]; simp)

/-- What the workspace has at an address is found there. -/
theorem openAt?_of_mem (htidy : Tidy session) {uri : String} (hmem : (uri, id) ∈ session.shelf) :
    session.openAt? uri = some id := by
  rw [Session.openAt?_eq_lookup]
  exact lookup_of_mem htidy.nodup hmem

/-- What the workspace has at an address is a document with this address. -/
theorem exists_of_mem (htidy : Tidy session) (uri : String) (id : Nat)
    (hmem : (uri, id) ∈ session.shelf) :
    ∃ document, session.documents[id]? = some document ∧ document.uri = uri := by
  obtain ⟨document, hdocument, -, huri⟩ := htidy.live uri id hmem
  exact ⟨document, hdocument, huri⟩

/-- Whatever leaves the documents and the workspace alone keeps the workspace tidy. -/
theorem of_keeps {after : Session} (htidy : Tidy session)
    (hdocuments : after.documents = session.documents)
    (hworkspace : after.workspace = session.workspace) : Tidy after := by
  have hshelf : after.shelf = session.shelf := by rw [Session.shelf, hworkspace, Session.shelf]
  constructor
  · rw [hworkspace]
    exact htidy.here
  · rw [hdocuments, hworkspace]
    exact htidy.own
  · rw [hshelf]
    exact htidy.nodup
  · rw [hdocuments, hshelf]
    exact htidy.live

/-- Telling the clients something keeps the workspace tidy. -/
theorem say (htidy : Tidy session) (turn : Turn) : Tidy (session.say turn) :=
  htidy.of_keeps (Session.documents_say session turn) (Session.workspace_say session turn)

/-- A document that changes in place keeps the workspace tidy, as long as it is not closed. -/
theorem set (htidy : Tidy session) (hdocument : session.documents[id]? = some document)
    {changed : TextDocument} (hworkspace : changed.workspace = document.workspace)
    (huri : changed.uri = document.uri)
    (hopen : document.isClosed = false → changed.isClosed = false) :
    Tidy (session.setDocument id changed) where
  here := htidy.here
  own other hother := by
    rcases List.mem_or_eq_of_mem_set hother with hold | rfl
    · exact htidy.own other hold
    · rw [hworkspace]
      exact htidy.own document (List.mem_of_getElem? hdocument)
  nodup := htidy.nodup
  live uri n hmem := by
    obtain ⟨other, hother, hlive, rfl⟩ := htidy.live uri n hmem
    by_cases hn : id = n
    · subst hn
      obtain rfl := Option.some.inj (hdocument.symm.trans hother)
      have hlt := (List.getElem?_eq_some_iff.mp hdocument).1
      exact ⟨changed, List.getElem?_set_self hlt, hopen hlive, huri⟩
    · exact ⟨other, (List.getElem?_set_ne hn).trans hother, hlive, rfl⟩

/-- A document that is closed goes from its address, if the workspace has it there. -/
theorem close (htidy : Tidy session) (hdocument : session.documents[id]? = some document) :
    Tidy ((session.setDocument id document.closed).modifyWorkspace
      (·.dropDocument document.uri id)) where
  here := by
    simp only [Session.modifyWorkspace, Session.setDocument, Option.isSome_map]
    exact htidy.here
  own other hother := by
    have hnumber : (session.workspace.map (·.dropDocument document.uri id)).map Workspace.number =
        session.workspace.map Workspace.number := by
      rw [Option.map_map]
      rfl
    refine hnumber.trans ?_
    rcases List.mem_or_eq_of_mem_set hother with hold | rfl
    · exact htidy.own other hold
    · exact htidy.own document (List.mem_of_getElem? hdocument)
  nodup := by
    rw [Session.shelf_dropDocument]
    exact htidy.nodup.sublist (List.filter_sublist.map Prod.fst)
  live uri n hmem := by
    rw [Session.shelf_dropDocument] at hmem
    obtain ⟨hmem, hkept⟩ := List.mem_filter.mp hmem
    obtain ⟨other, hother, hlive, rfl⟩ := htidy.live uri n hmem
    have hn : id ≠ n := by
      rintro rfl
      obtain rfl := Option.some.inj (hdocument.symm.trans hother)
      simp at hkept
    exact ⟨other, (List.getElem?_set_ne hn).trans hother, hlive, rfl⟩

/-- A document that is put at an address where there is none keeps the workspace tidy. -/
theorem put (htidy : Tidy session) (hdocument : session.documents[id]? = some document)
    (hopen : document.isClosed = false) (hnone : session.openAt? document.uri = none) :
    Tidy (session.modifyWorkspace (·.putDocument document.uri id)) where
  here := by
    simp only [Session.modifyWorkspace, Option.isSome_map]
    exact htidy.here
  own other hother := by
    have hnumber : (session.workspace.map (·.putDocument document.uri id)).map Workspace.number =
        session.workspace.map Workspace.number := by
      rw [Option.map_map]
      rfl
    exact hnumber.trans (htidy.own other hother)
  nodup := by
    rw [Session.openAt?_eq_lookup] at hnone
    rw [Session.shelf_putDocument htidy.here]
    have hperm := (insertField_perm hnone id).map Prod.fst
    exact hperm.nodup_iff.mpr
      (List.nodup_cons.mpr ⟨not_mem_of_lookup_eq_none hnone, htidy.nodup⟩)
  live uri n hmem := by
    rw [Session.openAt?_eq_lookup] at hnone
    rw [Session.shelf_putDocument htidy.here] at hmem
    rcases List.mem_cons.mp ((insertField_perm hnone id).mem_iff.mp hmem) with heq | hold
    · obtain ⟨rfl, rfl⟩ := Prod.mk.inj heq
      exact ⟨document, hdocument, hopen, rfl⟩
    · exact htidy.live uri n hold

/-- A new document of the workspace keeps it tidy. -/
theorem add (htidy : Tidy session) {workspace : Workspace}
    (hnumber : document.workspace = workspace.number)
    (hworkspace : session.workspace = some workspace) :
    Tidy { session with documents := session.documents ++ [document] } where
  here := htidy.here
  own other hother := by
    rcases List.mem_append.mp hother with hold | hnew
    · exact htidy.own other hold
    · obtain rfl := List.mem_singleton.mp hnew
      rw [hworkspace, Option.map_some, hnumber]
  nodup := htidy.nodup
  live uri n hmem := by
    obtain ⟨other, hother, hlive⟩ := htidy.live uri n hmem
    have hlt := (List.getElem?_eq_some_iff.mp hother).1
    exact ⟨other, (List.getElem?_append_left hlt).trans hother, hlive⟩

/-- When a document goes that the workspace has at its address, none is left there; everything else
stays. -/
theorem openAt?_drop (htidy : Tidy session) {uri : String} (hopen : session.openAt? uri = some id)
    (other : String) :
    (session.modifyWorkspace (·.dropDocument uri id)).openAt? other =
      if other = uri then none else session.openAt? other := by
  rw [Session.openAt?_eq_lookup, Session.shelf_dropDocument, Session.openAt?_eq_lookup,
    ← lookup_filter_ne uri other session.shelf]
  congr 1
  apply List.filter_congr
  rintro ⟨first, n⟩ hmem
  by_cases hfirst : first = uri
  · subst hfirst
    have hn := (htidy.openAt?_of_mem hmem).symm.trans hopen
    simp [Option.some.inj hn]
  · simp [hfirst]

/-- When a document goes that the workspace does not have at its address, nothing changes there. -/
theorem shelf_drop_stray (htidy : Tidy session) {uri : String}
    (hstray : session.openAt? uri ≠ some id) :
    (session.modifyWorkspace (·.dropDocument uri id)).shelf = session.shelf := by
  rw [Session.shelf_dropDocument]
  apply List.filter_eq_self.mpr
  rintro ⟨first, n⟩ hmem
  by_cases hfirst : first = uri
  · subst hfirst
    have hn : n ≠ id := by
      rintro rfl
      exact hstray (htidy.openAt?_of_mem hmem)
    simp [hn]
  · simp [hfirst]

/-- A document that is put at an address is found there; everything else stays. -/
theorem openAt?_put (htidy : Tidy session) (uri other : String) :
    (session.modifyWorkspace (·.putDocument uri id)).openAt? other =
      if other = uri then some id else session.openAt? other := by
  rw [Session.openAt?_eq_lookup, Session.shelf_putDocument htidy.here, lookup_insertField,
    Session.openAt?_eq_lookup]

end Tidy

namespace Shift

variable {session after : Session} {turn : Turn}

/-- A commit changes the text of an open document, its version and what depends on them. -/
theorem commit_eq {document committed : TextDocument} {change : DocumentChange}
    (hcommit : document.commit = .ok (committed, change)) :
    document.isClosed = false ∧
    ∃ events, document.edits.events document.text.toList document.lines document.encoding =
        .ok events ∧
      committed = { document with
        text := String.ofList (document.edits.apply document.text.toList)
        version := document.version + 1
        lines := Text.lineStarts (document.edits.apply document.text.toList)
        edits := []
        isSaved := false } ∧
      change = ⟨document.uri, document.language, Int32.ofNat (document.version + 1),
        String.ofList (document.edits.apply document.text.toList), events⟩ := by
  unfold TextDocument.commit TextDocument.ensureOpen at hcommit
  cases hclosed : document.isClosed with
  | true =>
    rw [hclosed] at hcommit
    cases hcommit
  | false =>
    rw [hclosed] at hcommit
    simp only [Bool.false_eq_true, if_false, bind, Except.bind] at hcommit
    split at hcommit
    · cases hcommit
    · rename_i events hevents
      obtain ⟨rfl, rfl⟩ := Prod.mk.inj (Except.ok.inj hcommit)
      exact ⟨rfl, events, hevents, rfl, rfl⟩

/-- A document that is held or whose edits are discarded changes nothing at the addresses. -/
theorem openAt?_quiet (hshift : Shift session .quiet after) (uri : String) :
    after.openAt? uri = session.openAt? uri := by
  cases hshift <;> rfl

/-- Every shift keeps the workspace tidy. -/
theorem tidy (hshift : Shift session turn after) (htidy : Tidy session) : Tidy after := by
  cases hshift with
  | filed files => exact ⟨htidy.here, htidy.own, htidy.nodup, htidy.live⟩
  | held id document holds hdocument hopen hholds =>
    refine htidy.set hdocument rfl rfl fun _ => ?_
    exact beq_eq_false_iff_ne.mpr (Nat.ne_of_gt hholds)
  | discarded id document hdocument => exact htidy.set hdocument rfl rfl fun hopen => hopen
  | queued id document edit edits hdocument =>
    exact htidy.set hdocument rfl rfl fun hopen => hopen
  | changed id document committed change hdocument hcommit =>
    obtain ⟨-, events, -, rfl, -⟩ := commit_eq hcommit
    apply Tidy.say
    exact htidy.set hdocument rfl rfl fun hopen => hopen
  | closed id document hdocument => exact (htidy.close hdocument).say _
  | reopened id document hdocument hclosed hnone =>
    have hlt := (List.getElem?_eq_some_iff.mp hdocument).1
    have hset : Tidy (session.setDocument id { document with holds := 1 }) :=
      htidy.set hdocument rfl rfl fun _ => rfl
    exact (hset.put (List.getElem?_set_self hlt) rfl hnone).say _
  | shadowed id other document hdocument => exact htidy.set hdocument rfl rfl fun _ => rfl
  | fresh workspace path uri language text document hworkspace hnew hread hnone =>
    subst hnew
    let document := TextDocument.opened workspace.number path uri language text workspace.encoding
    have hadded : Tidy { session with documents := session.documents ++ [document] } :=
      htidy.add rfl hworkspace
    have hlast : (session.documents ++ [document])[session.documents.length]? = some document :=
      List.getElem?_concat_length
    exact (hadded.put hlast rfl hnone).say _

/-- The clients of the workspace stay the same, and so do its number and its encoding. -/
theorem workspace_eq {α : Type} (hshift : Shift session turn after) (field : Workspace → α)
    (hfield : ∀ (workspace : Workspace) documents,
      field { workspace with openDocuments := documents } = field workspace) :
    after.workspace.map field = session.workspace.map field := by
  cases hshift with
  | filed | held | discarded | queued | shadowed => rfl
  | changed => rw [Session.workspace_say]; rfl
  | closed | reopened =>
    simp only [Session.workspace_say, Session.modifyWorkspace, Session.setDocument, Option.map_map]
    exact congrArg (Option.map · session.workspace) (funext fun _ => hfield _ _)
  | fresh =>
    simp only [Session.workspace_say, Session.modifyWorkspace, Option.map_map]
    exact congrArg (Option.map · session.workspace) (funext fun _ => hfield _ _)

/-- A document that comes to an address is open and stands there. -/
theorem opened_eq {document : TextDocument} (hshift : Shift session (.opened document) after)
    (htidy : Tidy session) : ∃ id, session.openAt? document.uri = none ∧
      after.documents[id]? = some document ∧
      (∀ n later, n ≠ id → after.documents[n]? = some later →
        session.documents[n]? = some later) ∧
      ∀ uri, after.openAt? uri = if uri = document.uri then some id else session.openAt? uri := by
  cases hshift with
  | reopened id document hdocument hclosed hnone =>
    have hset : Tidy (session.setDocument id { document with holds := 1 }) :=
      htidy.set hdocument rfl rfl fun _ => rfl
    refine ⟨id, hnone, ?_, ?_, fun uri => ?_⟩
    · rw [Session.documents_say]
      exact List.getElem?_set_self (List.getElem?_eq_some_iff.mp hdocument).1
    · intro n later hn hlater
      rw [Session.documents_say] at hlater
      exact (List.getElem?_set_ne (Ne.symm hn)).symm.trans hlater
    · rw [Session.openAt?_say]
      exact hset.openAt?_put document.uri uri
  | fresh workspace path name language text document hworkspace hnew hread hnone =>
    subst hnew
    refine ⟨session.documents.length, hnone, ?_, ?_, fun uri => ?_⟩
    · rw [Session.documents_say]
      exact List.getElem?_concat_length
    · intro n later hn hlater
      rw [Session.documents_say] at hlater
      have hlt := (List.getElem?_eq_some_iff.mp hlater).1
      simp only [Session.modifyWorkspace, List.length_append, List.length_singleton] at hlt
      exact (List.getElem?_append_left (by omega)).symm.trans hlater
    · rw [Session.openAt?_say]
      exact (htidy.add rfl hworkspace).openAt?_put name uri

/-- A document that is closed goes from its address, if the workspace has it there. -/
theorem closed_eq {document : TextDocument} {isStray : Bool}
    (hshift : Shift session (.closed document isStray) after) (htidy : Tidy session) :
    ∃ id, session.documents[id]? = some document ∧ document.isClosed = false ∧
      isStray = (session.openAt? document.uri != some id) ∧
      (∀ n later, later.isClosed = false → after.documents[n]? = some later →
        n ≠ id ∧ session.documents[n]? = some later) ∧
      ∀ uri, after.openAt? uri =
        if session.openAt? document.uri = some id ∧ uri = document.uri then none
        else session.openAt? uri := by
  cases hshift with
  | closed id _ hdocument hopen =>
    refine ⟨id, hdocument, hopen, rfl, fun n later hlater hfound => ?_, fun uri => ?_⟩
    · rw [Session.documents_say] at hfound
      rcases Session.getElem?_setDocument hfound with ⟨-, rfl⟩ | hother
      · cases hlater
      · exact hother
    · rw [Session.openAt?_say]
      by_cases hown : session.openAt? document.uri = some id
      · refine (htidy.openAt?_drop hown uri).trans ?_
        simp only [hown, true_and]
      · rw [if_neg fun h => hown h.1, Session.openAt?_eq_lookup, Session.openAt?_eq_lookup]
        exact congrArg (List.lookup uri) (htidy.shelf_drop_stray hown)

/-- A document that is committed stays where it is, and so do all others. -/
theorem changed_eq {id : Nat} {change : DocumentChange}
    (hshift : Shift session (.changed id change) after) :
    ∃ document committed, session.documents[id]? = some document ∧
      document.commit = .ok (committed, change) ∧ after.documents[id]? = some committed ∧
      (∀ n later, n ≠ id → after.documents[n]? = some later →
        session.documents[n]? = some later) ∧
      ∀ uri, after.openAt? uri = session.openAt? uri := by
  cases hshift with
  | changed id document committed change hdocument hcommit =>
    refine ⟨document, committed, hdocument, hcommit, ?_, fun n later hn hfound => ?_, fun uri => ?_⟩
    · rw [Session.documents_say]
      exact List.getElem?_set_self (List.getElem?_eq_some_iff.mp hdocument).1
    · rw [Session.documents_say] at hfound
      exact (List.getElem?_set_ne (Ne.symm hn)).symm.trans hfound
    · rw [Session.openAt?_say]
      rfl

/-- What a shift does to the addresses: a document comes to an address where there is none, the one
that is there goes, or nothing changes. -/
theorem openAt?_cases (hshift : Shift session turn after) (htidy : Tidy session) :
    (∃ document id, turn = .opened document ∧ session.openAt? document.uri = none ∧
      ∀ uri, after.openAt? uri = if uri = document.uri then some id else session.openAt? uri) ∨
    (∃ document id, turn = .closed document false ∧ session.openAt? document.uri = some id ∧
      ∀ uri, after.openAt? uri = if uri = document.uri then none else session.openAt? uri) ∨
    (((∃ document, turn = .closed document true) ∨ ∀ uri, turn.openness? uri = none) ∧
      ∀ uri, after.openAt? uri = session.openAt? uri) := by
  cases turn with
  | opened document =>
    obtain ⟨id, hnone, -, -, hopenAt⟩ := hshift.opened_eq htidy
    exact Or.inl ⟨document, id, rfl, hnone, hopenAt⟩
  | closed document isStray =>
    obtain ⟨id, -, -, rfl, -, hopenAt⟩ := hshift.closed_eq htidy
    by_cases hown : session.openAt? document.uri = some id
    · simp only [hown, true_and] at hopenAt
      exact Or.inr (Or.inl ⟨document, id, by simp [hown], hown, hopenAt⟩)
    · simp only [hown, false_and, if_false] at hopenAt
      exact Or.inr (Or.inr ⟨Or.inl ⟨document, by simp [hown]⟩, hopenAt⟩)
  | changed id change =>
    obtain ⟨_, _, -, -, -, -, hopenAt⟩ := hshift.changed_eq
    exact Or.inr (Or.inr ⟨Or.inr fun _ => rfl, hopenAt⟩)
  | quiet | filed | queued | shadowed =>
    refine Or.inr (Or.inr ⟨Or.inr fun _ => rfl, fun uri => ?_⟩)
    cases hshift <;> rfl

/-- Shifts other than closing keep a document open. -/
theorem live {id : Nat} (hshift : Shift session turn after) (hlive : session.IsLive id)
    (hturn : ∀ document isStray, turn ≠ .closed document isStray) : after.IsLive id := by
  cases hshift with
  | filed files => exact hlive
  | held n document holds hdocument hopen hholds =>
    exact hlive.set hdocument fun _ => beq_eq_false_iff_ne.mpr (Nat.ne_of_gt hholds)
  | discarded n document hdocument => exact hlive.set hdocument fun hopen => hopen
  | queued n document edit edits hdocument => exact hlive.set hdocument fun hopen => hopen
  | changed n document committed change hdocument hcommit =>
    obtain ⟨-, events, -, rfl, -⟩ := commit_eq hcommit
    rw [Session.IsLive, Session.documents_say]
    exact hlive.set hdocument fun hopen => hopen
  | closed n document => exact absurd rfl (hturn document _)
  | reopened n document hdocument =>
    rw [Session.IsLive, Session.documents_say]
    exact hlive.set hdocument fun _ => rfl
  | shadowed n other document hdocument => exact hlive.set hdocument fun _ => rfl
  | fresh =>
    obtain ⟨document, hdocument, hopen⟩ := hlive
    rw [Session.IsLive, Session.documents_say]
    have hlt := (List.getElem?_eq_some_iff.mp hdocument).1
    exact ⟨document, (List.getElem?_append_left hlt).trans hdocument, hopen⟩

/-- An open document stays at its address, unless it is opened beside another one. -/
theorem housed {id : Nat} (hshift : Shift session turn after) (htidy : Tidy session)
    (hhoused : session.Housed id) (hturn : turn ≠ .shadowed id) : after.Housed id := by
  cases turn with
  | opened document =>
    obtain ⟨n, hnone, hn, hothers, hopenAt⟩ := hshift.opened_eq htidy
    intro later hlater hopen
    rw [hopenAt later.uri]
    by_cases hid : id = n
    · subst hid
      rw [if_pos (congrArg TextDocument.uri (Option.some.inj (hlater.symm.trans hn)))]
    · have hkept := hhoused later (hothers id later hid hlater) hopen
      rw [if_neg (fun huri => by rw [huri, hnone] at hkept; cases hkept), hkept]
  | closed document isStray =>
    obtain ⟨n, -, -, -, hothers, hopenAt⟩ := hshift.closed_eq htidy
    intro later hlater hopen
    obtain ⟨hid, hold⟩ := hothers id later hopen hlater
    have hkept := hhoused later hold hopen
    rw [hopenAt later.uri, if_neg, hkept]
    rintro ⟨hown, huri⟩
    rw [huri, hown] at hkept
    exact hid (Option.some.inj hkept).symm
  | changed n change =>
    obtain ⟨document, committed, hdocument, hcommit, hn, hothers, hopenAt⟩ := hshift.changed_eq
    intro later hlater hopen
    rw [hopenAt later.uri]
    by_cases hid : id = n
    · subst hid
      obtain rfl := Option.some.inj (hlater.symm.trans hn)
      obtain ⟨hlive, events, -, rfl, -⟩ := commit_eq hcommit
      exact hhoused document hdocument hlive
    · exact hhoused later (hothers id later hid hlater) hopen
  | quiet =>
    cases hshift with
    | held n document holds hdocument hlive => exact hhoused.set hdocument rfl fun _ _ => hlive
    | discarded n document hdocument => exact hhoused.set hdocument rfl fun _ hopen => hopen
  | filed => cases hshift with | filed files => exact hhoused
  | queued =>
    cases hshift with
    | queued n document edit edits hdocument =>
      exact hhoused.set hdocument rfl fun _ hopen => hopen
  | shadowed =>
    cases hshift with
    | shadowed n other document hdocument =>
      exact hhoused.set hdocument rfl fun hn => absurd (hn ▸ rfl) hturn

end Shift

namespace Path

variable {session after : Session} {turns : List Turn}

/-- Several shifts keep the workspace tidy. -/
theorem tidy (hpath : Path session turns after) (htidy : Tidy session) : Tidy after := by
  induction hpath with
  | nil => exact htidy
  | cons hshift _ ih => exact ih (hshift.tidy htidy)

/-- An open document stays at its address, unless it is opened beside another one. -/
theorem housed {id : Nat} (hpath : Path session turns after) (htidy : Tidy session)
    (hhoused : session.Housed id) (hturns : Turn.shadowed id ∉ turns) : after.Housed id := by
  induction hpath with
  | nil => exact hhoused
  | cons hshift _ ih =>
    rw [List.mem_cons, not_or] at hturns
    obtain ⟨hturn, hrest⟩ := hturns
    exact ih (hshift.tidy htidy) (hshift.housed htidy hhoused (Ne.symm hturn)) hrest

/-- Where documents are at most held or opened, an open one stays open at its address. -/
theorem live_and_housed {id : Nat} (hpath : Path session turns after) (htidy : Tidy session)
    (hturns : ∀ turn ∈ turns, turn.isCalm = true) (hlive : session.IsLive id)
    (hhoused : session.Housed id) : after.IsLive id ∧ after.Housed id := by
  induction hpath with
  | nil => exact ⟨hlive, hhoused⟩
  | @cons session middle after turn turns hshift _ ih =>
    have hcalm := hturns turn List.mem_cons_self
    apply ih (hshift.tidy htidy) fun other hother => hturns other (List.mem_cons_of_mem _ hother)
    · exact hshift.live hlive fun document isStray hturn => by rw [hturn] at hcalm; cases hcalm
    · exact hshift.housed htidy hhoused fun hturn => by rw [hturn] at hcalm; cases hcalm

end Path

end LanguageClient
