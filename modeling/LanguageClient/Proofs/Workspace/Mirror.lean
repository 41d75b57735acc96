import Mathlib.Algebra.Group.Nat.Defs
import LanguageClient.Proofs.Protocol.Wire
import LanguageClient.Proofs.Workspace.Soundness

/-!
# The documents of a server

A server keeps the text and the version of every document that it is told is open, and applies the
changes of which it is told. After every operation it has exactly the documents that the workspace
has at its addresses, each with its text and its version, as long as no document is opened again
beside another one and no carriage return comes into the texts.
-/

namespace LanguageClient

/-- A document as a server has it. -/
structure Copy where
  text : String
  version : Int

/-- What a server should have of a document. -/
def TextDocument.copy (document : TextDocument) : Copy :=
  ⟨document.text, document.version⟩

/-- The documents of a server by their addresses. -/
abbrev Mirror := String → Option Copy

namespace Mirror

/-- The server has no documents. -/
def empty : Mirror := fun _ => none

/-- Puts a document at an address, or takes it from there. -/
def put (mirror : Mirror) (uri : String) (copy : Option Copy) : Mirror :=
  fun other => if other = uri then copy else mirror other

/-- The document after changes; it is lost if they cannot be read. -/
def change? (encoding : PositionEncoding) (version : Int32) (changes : List ChangeEvent)
    (copy : Copy) : Option Copy :=
  (Text.applyChanges? encoding copy.text.toList changes).map fun text =>
    ⟨String.ofList text, version.toInt⟩

/-- What a server makes of a message. -/
def receive (encoding : PositionEncoding) (mirror : Mirror) : Message → Mirror
  | .notification ⟨_, method, some params⟩ =>
    if method = "textDocument/didOpen" then
      match (decode? params : Option DidOpenParams) with
      | some ⟨document⟩ => mirror.put document.uri (some ⟨document.text, document.version.toInt⟩)
      | none => mirror
    else if method = "textDocument/didChange" then
      match (decode? params : Option DidChangeParams) with
      | some ⟨document, changes⟩ =>
        mirror.put document.uri
          ((mirror document.uri).bind (change? encoding document.version changes))
      | none => mirror
    else if method = "textDocument/didClose" then
      match (decode? params : Option DidCloseParams) with
      | some ⟨document⟩ => mirror.put document.uri none
      | none => mirror
    else mirror
  | _ => mirror

section Messages

variable (encoding : PositionEncoding) (mirror : Mirror)

theorem receive_didOpen (document : TextDocument) :
    mirror.receive encoding (.didOpen document) =
      mirror.put document.uri (some ⟨document.text, (Int32.ofNat document.version).toInt⟩) := by
  simp only [receive, Message.didOpen, if_true, decode?_encode]
  rfl

theorem receive_didChange (change : DocumentChange) (changes : List ChangeEvent) :
    mirror.receive encoding (.didChange change changes) =
      mirror.put change.uri
        ((mirror change.uri).bind (change? encoding change.version changes)) := by
  simp [receive, Message.didChange]

theorem receive_didClose (uri : String) :
    mirror.receive encoding (.didClose uri) = mirror.put uri none := by
  simp [receive, Message.didClose]

end Messages

end Mirror

namespace Session

/-- The document that the workspace has at an address, as a server should have it. -/
def copyAt? (session : Session) (uri : String) : Option Copy :=
  (session.openAt? uri).bind fun id => (session.documents[id]?).map TextDocument.copy

end Session

section Mirrored

variable {session after : Session} {turn : Turn} {encoding : PositionEncoding}
  {options : SyncOptions} {mirror : Mirror} {messages : List Message}

/-- The server has exactly the documents that the workspace has at its addresses. -/
def Mirrored (session : Session) (mirror : Mirror) : Prop :=
  ∀ uri, mirror uri = session.copyAt? uri

/-- What a server has does not depend on the holds and the queue of a document. -/
theorem Mirrored.set {id : Nat} {document changed : TextDocument}
    (hmirrored : Mirrored session mirror) (hdocument : session.documents[id]? = some document)
    (hcopy : changed.copy = document.copy) : Mirrored (session.setDocument id changed) mirror := by
  intro uri
  rw [hmirrored uri]
  unfold Session.copyAt?
  refine congrArg (Option.bind (session.openAt? uri)) (funext fun n => ?_)
  by_cases hn : id = n
  · subst hn
    have hlt := (List.getElem?_eq_some_iff.mp hdocument).1
    simp only [Session.setDocument, List.getElem?_set_self hlt, hdocument, Option.map_some, hcopy]
  · simp only [Session.setDocument, List.getElem?_set_ne hn]

/-- Where the same document stands as before and has not changed, the copy is the same. -/
theorem copyAt?_congr (htidy : Tidy after) {uri : String}
    (hopenAt : after.openAt? uri = session.openAt? uri)
    (hdocuments : ∀ (id : Nat) (document : TextDocument), document.uri = uri →
      document.isClosed = false → after.documents[id]? = some document →
      session.documents[id]? = some document) : after.copyAt? uri = session.copyAt? uri := by
  unfold Session.copyAt?
  rw [← hopenAt]
  cases hid : after.openAt? uri with
  | none => rfl
  | some id =>
    obtain ⟨document, hdocument, hopen, huri⟩ := htidy.live_of_openAt? hid
    rw [Option.bind_some, Option.bind_some, hdocument, hdocuments id document huri hopen hdocument]

/-- There is a copy of every document that the workspace has at an address. -/
theorem Tidy.isSome_copyAt? (htidy : Tidy session) (uri : String) :
    (session.copyAt? uri).isSome = (session.openAt? uri).isSome := by
  unfold Session.copyAt?
  cases hid : session.openAt? uri with
  | none => rfl
  | some id =>
    obtain ⟨document, hdocument, -⟩ := htidy.live_of_openAt? hid
    rw [Option.bind_some, hdocument, Option.map_some, Option.isSome_some, Option.isSome_some]

/-- The copy of the document that stands at an address. -/
theorem copyAt?_of_openAt? {uri : String} {id : Nat} {document : TextDocument}
    (hopenAt : session.openAt? uri = some id) (hdocument : session.documents[id]? = some document) :
    session.copyAt? uri = some document.copy := by
  rw [Session.copyAt?, hopenAt, Option.bind_some, hdocument, Option.map_some]

/-- A document that comes to an address is put there. -/
theorem Mirrored.opened {document : TextDocument} (hmirrored : Mirrored session mirror)
    (hshift : Shift session (.opened document) after) (hsound : session.Sound encoding)
    (hversion : document.version < 2 ^ 31) :
    Mirrored after (mirror.receive encoding (.didOpen document)) := by
  obtain ⟨id, -, hdocument, hothers, hopenAt⟩ := hshift.opened_eq hsound.tidy
  intro uri
  rw [Mirror.receive_didOpen, Mirror.put, Int32.toInt_ofNat_of_lt hversion]
  by_cases huri : uri = document.uri
  · subst huri
    rw [if_pos rfl, copyAt?_of_openAt? ((hopenAt _).trans (if_pos rfl)) hdocument]
    rfl
  · rw [if_neg huri, hmirrored uri]
    refine (copyAt?_congr (hshift.tidy hsound.tidy) ((hopenAt uri).trans (if_neg huri)) ?_).symm
    intro n later hlater _ hfound
    refine hothers n later ?_ hfound
    rintro rfl
    obtain rfl := Option.some.inj (hfound.symm.trans hdocument)
    exact huri hlater.symm

/-- A document that is closed goes from its address. -/
theorem Mirrored.closed {document : TextDocument} {isStray : Bool}
    (hmirrored : Mirrored session mirror) (hshift : Shift session (.closed document isStray) after)
    (hsound : session.Sound encoding) :
    Mirrored after (mirror.receive encoding (.didClose document.uri)) := by
  obtain ⟨id, hdocument, hopen, -, hothers, hopenAt⟩ := hshift.closed_eq hsound.tidy
  have hown := hsound.housed id document hdocument hopen
  simp only [hown, true_and] at hopenAt
  intro uri
  rw [Mirror.receive_didClose, Mirror.put]
  by_cases huri : uri = document.uri
  · rw [if_pos huri, Session.copyAt?, hopenAt, if_pos huri, Option.bind_none]
  · rw [if_neg huri, hmirrored uri]
    refine (copyAt?_congr (hshift.tidy hsound.tidy) ((hopenAt uri).trans (if_neg huri)) ?_).symm
    intro n later _ hlater hfound
    exact (hothers n later hlater hfound).2

/-- A document that has changed is changed in the same way. -/
theorem Mirrored.changed {id : Nat} {change : DocumentChange} {changes : List ChangeEvent}
    (hmirrored : Mirrored session mirror) (hshift : Shift session (.changed id change) after)
    (hsound : session.Sound encoding)
    (hversion : ∀ document, after.documents[id]? = some document → document.version < 2 ^ 31)
    (hchanges : changes = [⟨none, change.text⟩] ∨ changes = change.edits) :
    Mirrored after (mirror.receive encoding (.didChange change changes)) := by
  obtain ⟨document, committed, hdocument, hcommit, hlater, hothers, hopenAt⟩ := hshift.changed_eq
  have hold := hsound.documents document (List.mem_of_getElem? hdocument)
  have hbound := hversion committed hlater
  obtain ⟨hopen, events, hevents, rfl, rfl⟩ := Shift.commit_eq hcommit
  have hown := hsound.housed id document hdocument hopen
  have happly : Text.applyChanges? encoding document.text.toList changes =
      some (document.edits.apply document.text.toList) := by
    rcases hchanges with rfl | rfl
    · simp [Text.applyChanges?, Text.applyChange?]
    · exact hold.applyChanges?_events hevents
  intro uri
  rw [Mirror.receive_didChange, Mirror.put]
  by_cases huri : uri = document.uri
  · subst huri
    have hcopy := (hmirrored document.uri).trans (copyAt?_of_openAt? hown hdocument)
    rw [if_pos rfl, copyAt?_of_openAt? ((hopenAt _).trans hown) hlater, hcopy, Option.bind_some]
    simp only [Mirror.change?, TextDocument.copy, happly, Option.map_some,
      Int32.toInt_ofNat_of_lt hbound]
  · rw [if_neg huri, hmirrored uri]
    refine (copyAt?_congr (hshift.tidy hsound.tidy) (hopenAt uri) ?_).symm
    intro n later hlater_uri _ hfound
    refine hothers n later ?_ hfound
    rintro rfl
    obtain rfl := Option.some.inj (hfound.symm.trans hlater)
    exact huri hlater_uri.symm

/-- A server that hears of a shift has the documents of the workspace afterwards, too. -/
theorem Mirrored.shift (hmirrored : Mirrored session mirror) (hshift : Shift session turn after)
    (hsound : session.Sound encoding)
    (hversion : ∀ (id : Nat) (document : TextDocument), after.documents[id]? = some document →
      document.version < 2 ^ 31)
    (htold : turn.IsTold options messages)
    (hchange : options.change = some .full ∨ options.change = some .incremental) :
    Mirrored after (messages.foldl (Mirror.receive encoding) mirror) := by
  cases turn with
  | opened document =>
    obtain rfl := htold
    obtain ⟨id, -, hdocument, -⟩ := hshift.opened_eq hsound.tidy
    exact hmirrored.opened hshift hsound (hversion id document hdocument)
  | closed document isStray =>
    obtain rfl := htold
    exact hmirrored.closed hshift hsound
  | changed id change =>
    rcases htold with ⟨-, hfull, hincremental⟩ | rfl | rfl
    · rcases hchange with hchange | hchange
      · exact absurd hchange hfull
      · exact absurd hchange hincremental
    · exact hmirrored.changed hshift hsound (hversion id) (Or.inl rfl)
    · exact hmirrored.changed hshift hsound (hversion id) (Or.inr rfl)
  | quiet =>
    obtain rfl := htold
    cases hshift with
    | held id document holds hdocument =>
      exact hmirrored.set hdocument rfl
    | discarded id document hdocument =>
      exact hmirrored.set hdocument rfl
  | queued text =>
    obtain rfl := htold
    cases hshift with
    | queued id document edit edits hdocument =>
      exact hmirrored.set hdocument rfl
  | shadowed =>
    obtain rfl := htold
    cases hshift with
    | shadowed id other document hdocument =>
      exact hmirrored.set hdocument rfl
  | filed =>
    obtain rfl := htold
    cases hshift with | filed files => exact hmirrored

variable {place : Nat} {client : Client}

/-- The server has the documents of the workspace after several shifts. -/
theorem Mirrored.path {turns : List Turn} {count : Nat → Nat}
    (hmirrored : Mirrored session (messages.foldl (Mirror.receive encoding) .empty))
    (hpath : Path session turns after) (hsound : session.Sound encoding)
    (hcounted : session.Counted count)
    (hcount : ∀ id, count id + turns.countP (Turn.changes id) < 2 ^ 31)
    (hplain : ∀ turn ∈ turns, turn.IsPlainText) (hfollows : client.Follows options)
    (hchange : options.change = some .full ∨ options.change = some .incremental)
    (htold : Told session place client messages) :
    ∃ later, Told after place client later ∧
      Mirrored after (later.foldl (Mirror.receive encoding) .empty) := by
  induction hpath generalizing messages count with
  | nil => exact ⟨messages, htold, hmirrored⟩
  | @cons session middle after turn turns hshift _ ih =>
    obtain ⟨more, hmore, htold'⟩ := hshift.told hfollows htold
    have hcounted' := hcounted.shift hshift
    have hnext (id : Nat) :
        count id + (turn.changes id).toNat + turns.countP (Turn.changes id) < 2 ^ 31 := by
      have hbound := hcount id
      rwa [countP_cons_toNat, ← Nat.add_assoc] at hbound
    have hmiddle : Mirrored middle ((messages ++ more).foldl (Mirror.receive encoding) .empty) := by
      rw [List.foldl_append]
      refine hmirrored.shift hshift hsound (fun id document hdocument => ?_) hmore hchange
      have hversion : document.version ≤ count id + (turn.changes id).toNat :=
        hcounted' id document hdocument
      have hbound := hnext id
      omega
    exact ih hmiddle (hsound.shift hshift (hplain turn List.mem_cons_self)) hcounted' hnext
      (fun other hother => hplain other (List.mem_cons_of_mem _ hother)) htold'

/-- A server that is told of documents at different addresses has them there. -/
theorem foldl_receive_didOpen {documents : List TextDocument} {entries : List (String × Nat)}
    (hnodup : (entries.map Prod.fst).Nodup)
    (hlive : ∀ uri id, (uri, id) ∈ entries →
      ∃ document, documents[id]? = some document ∧ document.uri = uri)
    (hversion : ∀ document ∈ documents, document.version < 2 ^ 31) (mirror : Mirror)
    (uri : String) :
    ((entries.filterMap fun entry => documents[entry.2]?).map Message.didOpen).foldl
        (Mirror.receive encoding) mirror uri =
      ((entries.lookup uri).bind fun id => (documents[id]?).map TextDocument.copy).or
        (mirror uri) := by
  induction entries generalizing mirror with
  | nil => rfl
  | cons entry rest ih =>
    obtain ⟨name, id⟩ := entry
    obtain ⟨document, hdocument, rfl⟩ := hlive name id List.mem_cons_self
    obtain ⟨hfresh, hrest⟩ := List.nodup_cons.mp hnodup
    have hbound := hversion document (List.mem_of_getElem? hdocument)
    have hcons : (((document.uri, id) :: rest).filterMap fun entry => documents[entry.2]?) =
        document :: rest.filterMap fun entry => documents[entry.2]? := by
      rw [List.filterMap_cons, hdocument]
    rw [hcons, List.map_cons, List.foldl_cons, Mirror.receive_didOpen,
      Int32.toInt_ofNat_of_lt hbound, lookup_cons_ite,
      ih hrest fun uri id hmem => hlive uri id (List.mem_cons_of_mem _ hmem)]
    by_cases huri : uri = document.uri
    · subst huri
      rw [lookup_eq_none_of_not_mem hfresh, if_pos rfl, Option.bind_some, hdocument, Mirror.put,
        if_pos rfl]
      rfl
    · rw [Mirror.put, if_neg huri, if_neg huri]

/-- A server has all documents of the workspace as soon as its client is attached. -/
theorem mirrored_shelved (htidy : Tidy session)
    (hversion : ∀ document ∈ session.documents, document.version < 2 ^ 31) (place : Nat) :
    Mirrored (session.attach place)
      ((session.shelved.map Message.didOpen).foldl (Mirror.receive encoding) .empty) := by
  intro uri
  rw [Session.shelved, foldl_receive_didOpen htidy.nodup htidy.exists_of_mem hversion,
    Mirror.empty, Option.or_none, Session.copyAt?, openAt?_attach htidy.here,
    (attach_keeps htidy.here place).1, Session.openAt?_eq_lookup]

end Mirrored

namespace Desk

/-- What a server has after what its client was sent. -/
def mirror (desk : Desk) (encoding : PositionEncoding) (place known : Nat) : Mirror :=
  (desk.sent place known).foldl (Mirror.receive encoding) .empty

/-- A server has exactly the addresses at which the workspace has a document, and there the text and
the version of this document. -/
structure IsMirrored (desk : Desk) (encoding : PositionEncoding) (place known : Nat) : Prop where
  addresses : ∀ uri, (desk.mirror encoding place known uri).isSome =
    (desk.session.openAt? uri).isSome
  copies : ∀ uri, desk.mirror encoding place known uri = desk.session.copyAt? uri

variable {desk : Desk} {operation : Operation} {operations : List Operation}
  {encoding : PositionEncoding} {count : Nat → Nat}

theorem IsMirrored.of_mirrored {place known : Nat} (htidy : Tidy desk.session)
    (hmirrored : Mirrored desk.session (desk.mirror encoding place known)) :
    desk.IsMirrored encoding place known where
  addresses uri := by rw [hmirrored uri, htidy.isSome_copyAt?]
  copies := hmirrored

variable {place : Nat} {client : Client} {options : SyncOptions} {messages : List Message}

/-- A server that has the documents of the workspace has them after operations, too. -/
theorem mirrored_performAll (hsound : desk.session.Sound encoding)
    (hcounted : desk.session.Counted count) (hfollows : client.Follows options)
    (hchange : options.change = some .full ∨ options.change = some .incremental)
    (htold : Told desk.session place client messages)
    (hmirrored : Mirrored desk.session (messages.foldl (Mirror.receive encoding) .empty))
    (hattach : ∀ operation ∈ operations, operation.isAttach = false)
    (hplain : ∀ operation ∈ operations, operation.IsPlainText)
    (halone : desk.AllReopenAlone operations)
    (hcount : ∀ id, count id + desk.commitsIn id operations < 2 ^ 31) :
    ∃ later, Told (desk.performAll operations).session place client later ∧
      Mirrored (desk.performAll operations).session
        (later.foldl (Mirror.receive encoding) .empty) := by
  induction operations generalizing desk messages count with
  | nil => exact ⟨messages, htold, hmirrored⟩
  | cons operation rest ih =>
    obtain ⟨turns, hpath, haccount⟩ :=
      path_perform hsound.tidy operation (hattach operation List.mem_cons_self)
    have hturns := haccount.isPlainText (hplain operation List.mem_cons_self) halone.1
    have hnext (id : Nat) : count id + turns.countP (Turn.changes id) +
        (desk.perform operation).commitsIn id rest < 2 ^ 31 := by
      have hbound := hcount id
      have hchanged := haccount.changed id
      rw [commitsIn] at hbound
      omega
    have hnow (id : Nat) : count id + turns.countP (Turn.changes id) < 2 ^ 31 :=
      Nat.lt_of_le_of_lt (Nat.le_add_right _ _) (hnext id)
    obtain ⟨later, htold', hmirrored'⟩ :=
      hmirrored.path hpath hsound hcounted hnow hturns hfollows hchange htold
    exact ih (hsound.path hpath hturns) (hcounted.path hpath) htold' hmirrored'
      (fun other hother => hattach other (List.mem_cons_of_mem _ hother))
      (fun other hother => hplain other (List.mem_cons_of_mem _ hother)) halone.2 hnext

/-- For every run in which one client is attached once, whose server has asked for the texts or the
ranges of changes: the server has exactly the documents that the workspace has at its addresses,
each with its text and its version, if documents are alone when they are opened again, no carriage
return comes into the texts and no document is committed too often for its version. -/
theorem mirrored_run {files : FileTree} {clients : List Client} (root : String)
    (encoding : PositionEncoding) (hclient : clients[place]? = some client)
    (hfollows : client.Follows options)
    (hchange : options.change = some .full ∨ options.change = some .incremental)
    {before after : List Operation}
    (hbefore : ∀ operation ∈ before, operation.isAttach = false)
    (hafter : ∀ operation ∈ after, operation.isAttach = false) (hfiles : PlainFiles files)
    (hplain : ∀ operation ∈ before ++ after, operation.IsPlainText)
    (halone : (begin files clients root encoding).AllReopenAlone (before ++ .attach place :: after))
    (hcount : ∀ id, (begin files clients root encoding).commitsIn id
      (before ++ .attach place :: after) < 2 ^ 31) :
    ((begin files clients root encoding).performAll (before ++ .attach place :: after)).IsMirrored
      encoding place client.outbox.length := by
  obtain ⟨halone_before, -, halone_after⟩ := (allReopenAlone_append _ _ _).mp halone
  have hplain_before operation (hmem : operation ∈ before) :=
    hplain operation (List.mem_append_left _ hmem)
  have hplain_after operation (hmem : operation ∈ after) :=
    hplain operation (List.mem_append_right _ hmem)
  have hcount' (id : Nat) : 0 + (begin files clients root encoding).commitsIn id before +
      (((begin files clients root encoding).performAll before).perform
        (.attach place)).commitsIn id after < 2 ^ 31 := by
    have hbound := hcount id
    have hattach : ((begin files clients root encoding).performAll before).commits id
        (.attach place) = false := rfl
    rw [commitsIn_append, commitsIn, hattach, Bool.toNat_false, Nat.zero_add] at hbound
    rwa [Nat.zero_add]
  have htidy := tidy_begin files clients root encoding
  have hsound := sound_performAll (sound_begin hfiles clients root encoding) hbefore hplain_before
    halone_before
  have hcounted := counted_performAll (counted_begin files clients root encoding) htidy before
  have huntold := untold_run htidy (untold_begin files root encoding hclient) hbefore
  have hversion := hcounted.version_lt fun id =>
    Nat.lt_of_le_of_lt (Nat.le_add_right _ _) (hcount' id)
  obtain ⟨messages, htold, hmirrored⟩ := mirrored_performAll (hsound.attach place)
    (hcounted.attach hsound.tidy.here place) hfollows hchange (huntold.attach hfollows)
    (mirrored_shelved hsound.tidy hversion place) hafter hplain_after halone_after hcount'
  rw [performAll_append_cons]
  refine .of_mirrored ?_ ?_
  · exact tidy_run (hsound.tidy.attach place) after
  · rw [mirror, sent_eq htold]
    exact hmirrored

/-- A run in which a document is changed, committed, closed and opened again. -/
def editsAndReopens : List Operation :=
  [.edit 0 "x" 0 1, .insert 0 "y" 2, .commit 0, .release 0, .reopen 0]

/-- The run meets the conditions, so the server has the documents of the workspace after it. -/
theorem isMirrored_of_editsAndReopens :
    [Sample.client][0]? = some Sample.client ∧
    Sample.client.Follows (DocumentSync.kind .incremental).toOptions ∧
    (DocumentSync.kind .incremental).toOptions.change = some .incremental ∧
    (∀ operation ∈ [Operation.openDocument "a" none], operation.isAttach = false) ∧
    (∀ operation ∈ editsAndReopens, operation.isAttach = false) ∧ PlainFiles Sample.files ∧
    (∀ operation ∈ Operation.openDocument "a" none :: editsAndReopens, operation.IsPlainText) ∧
    (begin Sample.files [Sample.client] "/w" .utf16).AllReopenAlone
      (.openDocument "a" none :: .attach 0 :: editsAndReopens) ∧
    (∀ id, (begin Sample.files [Sample.client] "/w" .utf16).commitsIn id
      (.openDocument "a" none :: .attach 0 :: editsAndReopens) < 2 ^ 31) ∧
    ((begin Sample.files [Sample.client] "/w" .utf16).performAll
      (.openDocument "a" none :: .attach 0 :: editsAndReopens)).IsMirrored .utf16 0
        Sample.client.outbox.length := by
  have hbefore : ∀ operation ∈ [Operation.openDocument "a" none], operation.isAttach = false := by
    decide
  have hafter : ∀ operation ∈ editsAndReopens, operation.isAttach = false := by decide
  have hfiles : PlainFiles Sample.files := .of_entries (by decide +kernel)
  have hplain : ∀ operation ∈ Operation.openDocument "a" none :: editsAndReopens,
      operation.IsPlainText := by
    intro operation hmem
    simp only [editsAndReopens, List.mem_cons, List.not_mem_nil, or_false] at hmem
    rcases hmem with rfl | rfl | rfl | rfl | rfl | rfl <;>
      exact ⟨fun _ htext => by cases htext <;> decide, fun _ h => by cases h⟩
  have halone : (begin Sample.files [Sample.client] "/w" .utf16).AllReopenAlone
      (.openDocument "a" none :: .attach 0 :: editsAndReopens) := by
    have hone : ((begin Sample.files [Sample.client] "/w" .utf16).performAll
        [.openDocument "a" none, .attach 0, .edit 0 "x" 0 1, .insert 0 "y" 2, .commit 0,
          .release 0]).session.documents.length = 1 := by decide +kernel
    refine ⟨trivial, trivial, trivial, trivial, trivial, trivial, ?_, trivial⟩
    intro _ _ n _ hother _ _
    have hn := (List.getElem?_eq_some_iff.mp hother).1
    exact Nat.lt_one_iff.mp (Nat.lt_of_lt_of_eq hn hone)
  have hcount id : (begin Sample.files [Sample.client] "/w" .utf16).commitsIn id
      (.openDocument "a" none :: .attach 0 :: editsAndReopens) < 2 ^ 31 :=
    Nat.lt_of_le_of_lt (commitsIn_le_length _ _ _) (by decide)
  exact ⟨rfl, Sample.follows_client, rfl, hbefore, hafter, hfiles, hplain, halone, hcount,
    mirrored_run "/w" .utf16 rfl Sample.follows_client (Or.inr rfl) hbefore hafter hfiles hplain
      halone hcount⟩

end Desk

end LanguageClient
