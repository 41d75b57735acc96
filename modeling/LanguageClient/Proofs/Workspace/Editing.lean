import LanguageClient.Proofs.Document.Queueing
import LanguageClient.Proofs.Workspace.Keeping
import LanguageClient.Proofs.Workspace.Soundness

/-!
# Edits and positions in every run

In whatever state a run has left a document, its queue can be committed, and its offsets and
positions belong together. What is said of one document and its calls holds of the operations on the
workspace, which take over what a call makes of the document, and nothing from a call that is
refused.
-/

namespace LanguageClient

open Text

/-- A call as an operation on one of the documents of a workspace. -/
def QueueCall.on (id : Nat) : QueueCall → Operation
  | .edit text start stop => .edit id text start stop
  | .insert text offset => .insert id text offset
  | .delete start stop => .delete id start stop
  | .pushTextEdit replacement => .pushTextEdit id replacement
  | .discardEdits => .discardEdits id

section Commit

variable {document : TextDocument}

/-- An open document whose ranges have positions is committed. -/
theorem TextDocument.commit_of_events (hopen : document.isClosed = false) {told : List ChangeEvent}
    (hevents : document.edits.events document.text.toList document.lines document.encoding =
      .ok told) :
    ∃ committed change, document.commit = .ok (committed, change) := by
  cases hcommit : document.commit with
  | ok result => exact ⟨result.1, result.2, rfl⟩
  | error error =>
    simp [commit, ensureOpen, hopen, hevents, bind, Except.bind, pure, Except.pure] at hcommit

/-- An open document in order is committed, if the units of its text can be counted by words. All
pieces that are kept lie within the text, and every range is replaced. -/
theorem TextDocument.InOrder.commit (horder : document.InOrder) (hopen : document.isClosed = false)
    (hsize : unitCount document.encoding document.text.toList < 2 ^ 32) :
    ∃ committed change, document.commit = .ok (committed, change) ∧
      EditQueue.Rewrites 0 document.edits document.text.toList committed.text.toList ∧
      committed.version = document.version + 1 ∧ change.version = Int32.ofNat committed.version ∧
      committed.edits = [] := by
  obtain ⟨told, htold⟩ := EditQueue.exists_events hsize horder.fits
  rw [← horder.lines] at htold
  obtain ⟨committed, change, hcommit⟩ := TextDocument.commit_of_events hopen htold
  obtain ⟨-, events, -, rfl, rfl⟩ := Shift.commit_eq hcommit
  refine ⟨_, _, hcommit, ?_, rfl, rfl, rfl⟩
  rw [String.toList_ofList]
  exact EditQueue.rewrites_applyFrom (List.nil_append _).symm horder.fits

end Commit

section Positions

variable {document : TextDocument} {offset : Nat} {position : Position}

theorem TextDocument.positionOf_eq_ok_iff : document.positionOf offset = .ok position ↔
    positionAt? document.text.toList document.lines offset document.encoding = some position := by
  unfold positionOf
  split <;> simp [*]

theorem TextDocument.offsetOf_eq_ok_iff : document.offsetOf position = .ok offset ↔
    offsetAt? document.text.toList document.lines position document.encoding = some offset := by
  unfold offsetOf
  split <;> simp [*]

theorem TextDocument.offsetOf_of_none
    (hnone : offsetAt? document.text.toList document.lines position document.encoding = none) :
    document.offsetOf position =
      .error (.invalidPosition document.uri position.line position.character) := by
  rw [offsetOf, hnone]

/-- The position of an offset leads back to the offset, unless it lies within a line end, which no
position does. -/
theorem TextDocument.InOrder.offsetOf_positionOf (horder : document.InOrder)
    (hposition : document.positionOf offset = .ok position) :
    document.offsetOf position =
      if cutsLineEnd document.text.toList offset then
        .error (.invalidPosition document.uri position.line position.character)
      else .ok offset := by
  rw [TextDocument.positionOf_eq_ok_iff, horder.lines] at hposition
  obtain ⟨before, rest, hsplit, rfl⟩ := split_of_isBoundary (isBoundary_of_positionAt? hposition)
  rw [hsplit, cutsLineEnd_append]
  rw [hsplit] at hposition
  cases hseam : joins before rest with
  | false =>
    have hback := offsetAt?_positionAt? hseam hposition rest
    rw [hseam, ← hsplit, ← horder.lines] at hback
    exact TextDocument.offsetOf_eq_ok_iff.mpr hback
  | true =>
    have hnone := offsetAt?_within hseam hposition rest
    rw [← hsplit, ← horder.lines] at hnone
    exact TextDocument.offsetOf_of_none hnone

end Positions

namespace Desk

variable {desk : Desk} {id : Nat} {document : TextDocument}

/-- A call on a document is an operation that takes over what the call makes of it. -/
theorem perform_on (desk : Desk) (id : Nat) (call : QueueCall) :
    desk.perform (call.on id) =
      desk.take (desk.session.modifyDocument id fun document => document.call call) := by
  cases call <;> rfl

/-- A call that is not refused changes its document. -/
theorem perform_on_ok (hdocument : desk.session.documents[id]? = some document) {call : QueueCall}
    {changed : TextDocument} (hcall : document.call call = .ok changed) :
    desk.perform (call.on id) = { desk with session := desk.session.setDocument id changed } := by
  simp only [perform_on, Session.modifyDocument, Session.find, hdocument, bind, Except.bind, hcall,
    pure, Except.pure, take]

/-- A call that is refused changes nothing at all. -/
theorem perform_on_error (hdocument : desk.session.documents[id]? = some document)
    {call : QueueCall} {error : DocumentError} (hcall : document.call call = .error error) :
    desk.perform (call.on id) = desk := by
  simp only [perform_on, Session.modifyDocument, Session.find, hdocument, bind, Except.bind, hcall,
    take]

/-- Calls on a document change it as they change it by itself. -/
theorem document_performAll_on (hdocument : desk.session.documents[id]? = some document)
    (calls : List QueueCall) :
    (desk.performAll (calls.map (·.on id))).session.documents[id]? =
      some (Queueing.run document calls).document := by
  induction calls using List.reverseRecOn with
  | nil => exact hdocument
  | append_singleton calls call ih =>
    rw [List.map_append, List.map_singleton, performAll, Run.final_concat, Queueing.run,
      Run.final_concat, Queueing.next]
    cases hcall : (Run.final Queueing.next (Queueing.of document) calls).document.call call with
    | ok changed =>
      rw [perform_on_ok ih hcall]
      exact List.getElem?_set_self (List.getElem?_eq_some_iff.mp ih).1
    | error error => rw [perform_on_error ih hcall, ih]

/-- A document that can be committed is committed by the operation, which puts the result in its
place. -/
theorem document_perform_commit (hdocument : desk.session.documents[id]? = some document)
    {committed : TextDocument} {change : DocumentChange}
    (hcommit : document.commit = .ok (committed, change)) :
    (desk.session.commit id).isOk = true ∧
      (desk.perform (.commit id)).session.documents[id]? = some committed := by
  have hlt := (List.getElem?_eq_some_iff.mp hdocument).1
  have hresult : desk.session.commit id = .ok ((desk.session.setDocument id committed).tell
      ((desk.session.setDocument id committed).listeners committed) fun client =>
        client.didChange desk.session.files change) := by
    simp only [Session.commit, Session.find, hdocument, bind, Except.bind, hcommit, pure,
      Except.pure]
    rfl
  refine ⟨by rw [hresult]; rfl, ?_⟩
  rw [perform, hresult, take, (Session.tell_keeps _ _ _).1]
  exact List.getElem?_set_self hlt

/-- For every document in every run, and every sequence of calls on its queue from there on: a call
that is refused changes nothing; the text stays; the ranges of the queue are ranges of the text,
ascend and are apart; the queue consists of what was queued and not discarded, insertions at one
offset in the order in which they were queued. If the document is open and the units of its text can
be counted by words, then a commit succeeds. It cuts the text within its bounds and between
characters, replaces the ranges of the queue and keeps everything else, the version grows by one,
and the queue is empty. The server is told the version as a word of 32 bits, which grows by one as
well; it is the version itself until a run has had that many operations. -/
theorem queue_committed_run (files : FileTree) (clients : List Client) (root : String)
    (encoding : PositionEncoding) (operations : List Operation) {id : Nat} {document : TextDocument}
    (hdocument :
      ((begin files clients root encoding).performAll operations).session.documents[id]? =
        some document) (calls : List QueueCall) :
    let desk := (begin files clients root encoding).performAll (operations ++ calls.map (·.on id))
    let state := Queueing.run document calls
    desk.session.documents[id]? = some state.document ∧
    (∀ call error, state.document.call call = .error error → desk.perform (call.on id) = desk) ∧
    state.document.text = document.text ∧
    document.version ≤ operations.length ∧
    state.document.edits.IsSettled document.text.toList ∧
    state.document.edits.Perm state.queued ∧
    (∀ offset, state.document.edits.filter (·.insertsAt offset) =
      state.queued.filter (·.insertsAt offset)) ∧
    (state.document.isClosed = false →
      unitCount document.encoding document.text.toList < 2 ^ 32 →
      (desk.session.commit id).isOk = true ∧
      (∀ piece ∈ EditQueue.pieces (byteSize document.text.toList) 0 state.document.edits,
        piece.1 ≤ piece.2 ∧ piece.2 ≤ byteSize document.text.toList ∧
          isBoundary piece.1 document.text.toList = true ∧
          isBoundary piece.2 document.text.toList = true) ∧
      ∃ committed change, state.document.commit = .ok (committed, change) ∧
        (desk.perform (.commit id)).session.documents[id]? = some committed ∧
        EditQueue.Rewrites 0 state.document.edits document.text.toList committed.text.toList ∧
        committed.version = document.version + 1 ∧
        change.version = Int32.ofNat document.version + 1 ∧
        (committed.version < 2 ^ 31 → change.version.toInt = committed.version) ∧
        committed.edits = []) := by
  intro desk state
  have horder := inOrder_run (tidy_begin files clients root encoding)
    (inOrder_begin files clients root encoding) operations document (List.mem_of_getElem? hdocument)
  have hfaithful : state.IsFaithful document := Queueing.isFaithful_run horder.fits calls
  have hstate : desk.session.documents[id]? = some state.document := by
    have hrun := document_performAll_on hdocument calls
    rwa [performAll, performAll, Run.final, Run.final, ← List.foldl_append] at hrun
  have hsame := hfaithful.same
  have htext : state.document.text = document.text := by rw [hsame]
  have hbound : document.version ≤ operations.length := by
    have hcommits := commitsIn_le_length (begin files clients root encoding) id operations
    have hversion := counted_performAll (counted_begin files clients root encoding)
      (tidy_begin files clients root encoding) operations id document hdocument
    dsimp only at hversion
    omega
  refine ⟨hstate, fun call error hcall => perform_on_error hstate hcall, htext, hbound,
    EditQueue.isSettled_of_fits hfaithful.fits, hfaithful.perm, hfaithful.inserts,
    fun hopen hsize => ?_⟩
  have hordered : state.document.InOrder := by
    refine ⟨?_, ?_, fun hclosed => absurd (hopen.symm.trans hclosed) Bool.false_ne_true⟩
    · rw [hsame]
      exact horder.lines
    · rw [htext]
      exact hfaithful.fits
  have hencoding : state.document.encoding = document.encoding := by rw [hsame]
  have hversion : state.document.version = document.version := by rw [hsame]
  obtain ⟨committed, change, hcommit, hrewrites, hgrown, htold, hempty⟩ :=
    hordered.commit hopen (by rwa [hencoding, htext])
  obtain ⟨hok, hplaced⟩ := document_perform_commit hstate hcommit
  rw [htext] at hrewrites
  rw [hversion] at hgrown
  refine ⟨hok, EditQueue.pieces_within (by rw [isBoundary]) hfaithful.fits, committed, change,
    hcommit, hplaced, hrewrites, hgrown, ?_, fun hword => ?_, hempty⟩
  · rw [htold, hgrown, Int32.ofNat_add]
    rfl
  · rw [htold, Int32.toInt_ofNat_of_lt hword]

/-- A file with all kinds of line ends, and a character of four bytes. -/
def lineEnds : FileTree :=
  ⟨["w"], [], [([], .folder), (["w"], .folder), (["w", "a"],
    .file [0x61, 0x0D, 0x0A, 0xF0, 0x9D, 0x90, 0x80, 0x0D, 0x62, 0x0A])]⟩

/-- Two insertions at one offset and a replacement in front of them; what is queued first is
discarded, and two calls are refused. -/
def queueCalls : List QueueCall :=
  [.delete 0 10, .discardEdits, .insert "y" 7, .delete 3 8, .edit "c" 0 1, .insert "z" 7,
    .delete 5 8]

/-- The queue that these calls leave is committed. -/
theorem committed_of_queueCalls :
    ∃ document, ((begin lineEnds [] "/w" .utf16).performAll
        [.openDocument "a" none]).session.documents[0]? = some document ∧
      (Queueing.run document queueCalls).document.isClosed = false ∧
      unitCount document.encoding document.text.toList < 2 ^ 32 ∧
      (Queueing.run document queueCalls).document.edits =
        [⟨0, 1, "c"⟩, ⟨7, 7, "y"⟩, ⟨7, 7, "z"⟩] ∧
      ∃ committed, (((begin lineEnds [] "/w" .utf16).performAll ([.openDocument "a" none] ++
          queueCalls.map (·.on 0))).perform (.commit 0)).session.documents[0]? = some committed ∧
        EditQueue.Rewrites 0 [⟨0, 1, "c"⟩, ⟨7, 7, "y"⟩, ⟨7, 7, "z"⟩] document.text.toList
          committed.text.toList ∧
        committed.version = 1 ∧ committed.edits = [] := by
  have hopened : ((begin lineEnds [] "/w" .utf16).performAll
      [.openDocument "a" none]).session.documents[0]? = some _ := rfl
  refine ⟨_, hopened, by decide +kernel, by decide +kernel, by decide +kernel, ?_⟩
  obtain ⟨-, -, -, -, -, -, -, hcommit⟩ := queue_committed_run lineEnds [] "/w" .utf16
    [.openDocument "a" none] hopened queueCalls
  obtain ⟨-, -, committed, -, -, hplaced, hrewrites, hversion, -, -, hempty⟩ :=
    hcommit (by decide +kernel) (by decide +kernel)
  exact ⟨committed, hplaced, hrewrites, hversion, hempty⟩

/-- For every document in every run, if the units of its text can be counted by words: every offset
between two characters has a position, which leads back to the offset, and to nothing exactly if the
offset lies within a line end; a position that has an offset is the position of that offset; and a
later offset has a later position. -/
theorem positions_invert_offsets_run (files : FileTree) (clients : List Client) (root : String)
    (encoding : PositionEncoding) (operations : List Operation) {document : TextDocument}
    (hdocument : document ∈
      ((begin files clients root encoding).performAll operations).session.documents)
    (hsize : unitCount document.encoding document.text.toList < 2 ^ 32) :
    (∀ offset, isBoundary offset document.text.toList = true →
      ∃ position, document.positionOf offset = .ok position ∧
        document.offsetOf position =
          if cutsLineEnd document.text.toList offset then
            .error (.invalidPosition document.uri position.line position.character)
          else .ok offset) ∧
    (∀ position offset, document.offsetOf position = .ok offset →
      document.positionOf offset = .ok position) ∧
    (∀ offset later position position', offset < later →
      document.positionOf offset = .ok position → document.positionOf later = .ok position' →
      position.IsBefore position') := by
  have horder := inOrder_run (tidy_begin files clients root encoding)
    (inOrder_begin files clients root encoding) operations document hdocument
  refine ⟨fun offset hboundary => ?_, fun position offset hoffset => ?_,
    fun offset later position position' hlt hposition hposition' => ?_⟩
  · obtain ⟨position, hposition⟩ := exists_positionAt? hsize hboundary
    rw [← horder.lines, ← TextDocument.positionOf_eq_ok_iff] at hposition
    exact ⟨position, hposition, horder.offsetOf_positionOf hposition⟩
  · rw [TextDocument.offsetOf_eq_ok_iff, horder.lines] at hoffset
    rw [TextDocument.positionOf_eq_ok_iff, horder.lines]
    exact (positionAt?_offsetAt? hoffset).2
  · rw [TextDocument.positionOf_eq_ok_iff, horder.lines] at hposition hposition'
    exact isBefore_of_lt hlt hposition hposition'

/-- The end of the long character has a position; the offset within the line end has one as well,
but nothing is there. -/
theorem positions_of_lineEnds :
    ∃ document, document ∈ ((begin lineEnds [] "/w" .utf16).performAll
        [.openDocument "a" none]).session.documents ∧
      unitCount document.encoding document.text.toList < 2 ^ 32 ∧
      document.positionOf 7 = .ok ⟨1, 2⟩ ∧
      ∃ position, document.positionOf 2 = .ok position ∧
        document.offsetOf position =
          .error (.invalidPosition document.uri position.line position.character) ∧
        position.IsBefore ⟨1, 2⟩ := by
  obtain ⟨hback, hsame, hlater⟩ := positions_invert_offsets_run lineEnds [] "/w" .utf16
    [.openDocument "a" none] (List.mem_singleton_self _) (by decide +kernel)
  have hseven := hsame ⟨1, 2⟩ 7 (by decide +kernel)
  obtain ⟨position, htwo, hnone⟩ := hback 2 (by decide +kernel)
  rw [if_pos (by decide +kernel)] at hnone
  exact ⟨_, List.mem_singleton_self _, by decide +kernel, hseven, position, htwo, hnone,
    hlater 2 7 position ⟨1, 2⟩ (by decide) htwo hseven⟩

end Desk

end LanguageClient
