import LanguageClient.Proofs.Document.Changes
import LanguageClient.Proofs.Document.Positions
import LanguageClient.Proofs.Runs

/-!
# The queue of a document

A new edit is compared with its two neighbours in the queue only. As the ranges of the queue follow
each other, this keeps all of them apart, so that a commit can cut the text at each of their ends.
Calls that are refused leave the document as it was. The queue holds what was queued and not
discarded since, insertions at one offset in the order in which they were queued.
-/

namespace LanguageClient

open Text

namespace PendingEdit

/-- Whether an edit does nothing but insert, at this offset. -/
def insertsAt (edit : PendingEdit) (offset : Nat) : Bool :=
  edit.start == offset && edit.stop == offset

theorem insertsAt_iff {edit : PendingEdit} {offset : Nat} :
    edit.insertsAt offset = true ↔ edit.start = offset ∧ edit.stop = offset := by
  simp [insertsAt]

theorem comesBefore_iff {edit other : PendingEdit} :
    edit.comesBefore other = true ↔
      edit.start < other.start ∨ edit.start = other.start ∧ edit.stop ≤ other.stop := by
  simp [comesBefore]

end PendingEdit

namespace EditQueue

/-- The ranges of a queue are ranges of the text, ascend and follow each other. -/
structure IsSettled (text : List Char) (queue : EditQueue) : Prop where
  ascends : queue.Pairwise fun edit later => edit.comesBefore later = true
  apart : queue.Pairwise fun edit later => edit.stop ≤ later.start
  forward : ∀ edit ∈ queue, edit.start ≤ edit.stop
  within : ∀ edit ∈ queue, edit.stop ≤ byteSize text ∧
    isBoundary edit.start text = true ∧ isBoundary edit.stop text = true

section Queue

variable {text : List Char} {offset : Nat} {queue : EditQueue} {edit : PendingEdit}

/-- Ranges that follow each other from an offset on start there or later. -/
theorem le_start_of_fits (hfits : Fits text offset queue) :
    ∀ edit ∈ queue, offset ≤ edit.start := by
  induction queue generalizing offset with
  | nil => simp
  | cons first rest ih =>
    obtain ⟨hfirst, hle, -, -, hrest⟩ := hfits
    intro edit hedit
    rcases List.mem_cons.mp hedit with rfl | hlater
    · exact hfirst
    · exact Nat.le_trans (Nat.le_trans hfirst hle) (ih hrest edit hlater)

/-- Ranges that follow each other one by one are apart, each from all others. -/
theorem isSettled_of_fits (hfits : Fits text offset queue) : queue.IsSettled text := by
  induction queue generalizing offset with
  | nil => exact ⟨.nil, .nil, by simp, by simp⟩
  | cons first rest ih =>
    obtain ⟨-, hle, hstart, hstop, hrest⟩ := hfits
    have hlater := le_start_of_fits hrest
    have hsettled := ih hrest
    constructor
    · refine .cons (fun edit hedit => PendingEdit.comesBefore_iff.mpr ?_) hsettled.ascends
      have hafter := hlater edit hedit
      have hforward := hsettled.forward edit hedit
      omega
    · exact .cons hlater hsettled.apart
    · exact List.forall_mem_cons.mpr ⟨hle, hsettled.forward⟩
    · refine List.forall_mem_cons.mpr ⟨⟨?_, hstart, hstop⟩, hsettled.within⟩
      obtain ⟨before, after, rfl, hsize⟩ := split_of_isBoundary hstop
      rw [byteSize_append]
      omega

/-- In an ascending queue a new edit also comes before all edits behind it. -/
theorem insert?_eq_of_ascends
    (hascends : queue.Pairwise fun edit later => edit.comesBefore later = true)
    (edit : PendingEdit) : ∃ before after, queue = before ++ after ∧
      (∀ queued ∈ before, queued.comesBefore edit = true) ∧
      (∀ queued ∈ after, queued.comesBefore edit = false) ∧
      queue.insert? edit =
        if before.getLast?.any (·.overlaps edit) || after.head?.any (·.overlaps edit) then none
        else some (before ++ edit :: after) := by
  obtain ⟨before, after, rfl, hbefore, hhead, hresult⟩ := insert?_eq queue edit
  refine ⟨before, after, rfl, hbefore, ?_, hresult⟩
  cases after with
  | nil => simp
  | cons first rest =>
    have hfirst := hhead first rfl
    refine List.forall_mem_cons.mpr ⟨hfirst, fun queued hqueued => ?_⟩
    have hsorted := (List.pairwise_append.mp hascends).2.1
    have hlater := PendingEdit.comesBefore_iff.mp ((List.pairwise_cons.mp hsorted).1 queued hqueued)
    rw [← Bool.not_eq_true, PendingEdit.comesBefore_iff] at hfirst ⊢
    omega

/-- Insertions at one offset are queued one behind the other. -/
theorem filter_insert (hascends : queue.Pairwise fun edit later => edit.comesBefore later = true)
    {edits : EditQueue} (hinsert : queue.insert? edit = some edits) :
    edits.Perm (queue ++ [edit]) ∧ ∀ offset, edits.filter (·.insertsAt offset) =
      (queue ++ [edit]).filter (·.insertsAt offset) := by
  obtain ⟨before, after, rfl, -, hafter, hresult⟩ :=
    insert?_eq_of_ascends hascends edit
  rw [hresult] at hinsert
  split at hinsert
  · cases hinsert
  obtain rfl := Option.some.inj hinsert
  constructor
  · rw [List.append_assoc]
    exact List.perm_append_left_iff before |>.mpr (List.perm_append_singleton edit after).symm
  · intro offset
    rw [List.append_assoc, List.filter_append, List.filter_append, List.filter_append,
      List.filter_cons, List.filter_singleton]
    cases hown : edit.insertsAt offset with
    | false => simp
    | true =>
      -- what stands behind an insertion starts behind it, or replaces something
      have hnone : after.filter (·.insertsAt offset) = [] := by
        refine List.filter_eq_nil_iff.mpr fun queued hqueued hinserts => ?_
        have hlater := hafter queued hqueued
        rw [← Bool.not_eq_true, PendingEdit.comesBefore_iff] at hlater
        rw [PendingEdit.insertsAt_iff] at hown hinserts
        omega
      simp [hnone]

end Queue

/-- What a queue makes of the text from an offset on: what stands between the ranges is kept, each
range is replaced. -/
inductive Rewrites : (offset : Nat) → EditQueue → List Char → List Char → Prop
  | rest (offset : Nat) (text : List Char) : Rewrites offset [] text text
  | replace {offset : Nat} {edit : PendingEdit} {queue : EditQueue}
      {kept old rest new : List Char} (hkept : offset + byteSize kept = edit.start)
      (hold : edit.start + byteSize old = edit.stop) (hrest : Rewrites edit.stop queue rest new) :
      Rewrites offset (edit :: queue) (kept ++ old ++ rest) (kept ++ edit.text.toList ++ new)

/-- The pieces of the old text that are kept, from where to where. -/
def pieces (size : Nat) : (offset : Nat) → EditQueue → List (Nat × Nat)
  | offset, [] => [(offset, size)]
  | offset, edit :: rest => (offset, edit.start) :: pieces size edit.stop rest

section Commit

variable {text : List Char} {encoding : PositionEncoding} {queue : EditQueue}

/-- A queue whose ranges follow each other is applied by replacing each of them. -/
theorem rewrites_applyFrom {before after : List Char} (htext : text = before ++ after)
    (hfits : Fits text (byteSize before) queue) :
    Rewrites (byteSize before) queue after (applyFrom text (byteSize before) queue) := by
  induction queue generalizing before after with
  | nil =>
    rw [applyFrom, htext, dropBytes_append]
    exact .rest _ after
  | cons edit rest ih =>
    obtain ⟨hfirst, hle, hstart, hstop, hrest⟩ := hfits
    obtain ⟨before', after', hsplit, hsize⟩ := split_of_isBoundary hstart
    obtain ⟨kept, rfl, rfl⟩ := split_of_byteSize_le (htext.symm.trans hsplit) (by omega)
    obtain ⟨before'', after'', hsplit', hsize'⟩ := split_of_isBoundary hstop
    obtain ⟨old, rfl, rfl⟩ := split_of_byteSize_le (hsplit.symm.trans hsplit') (by omega)
    have hlater := ih hsplit' (by rwa [hsize'])
    rw [hsize'] at hlater
    have hslice : slice (byteSize before) edit.start text = kept := by
      rw [← hsize, hsplit, byteSize_append, slice_append]
    rw [applyFrom, hslice, ← List.append_assoc]
    refine .replace ?_ ?_ hlater
    · rw [← byteSize_append, hsize]
    · rw [← hsize, ← byteSize_append, hsize']

/-- Each piece that is kept lies within the text, between two characters at both ends. -/
theorem pieces_within {offset : Nat} (hoffset : isBoundary offset text = true)
    (hfits : Fits text offset queue) : ∀ piece ∈ pieces (byteSize text) offset queue,
      piece.1 ≤ piece.2 ∧ piece.2 ≤ byteSize text ∧ isBoundary piece.1 text = true ∧
        isBoundary piece.2 text = true := by
  have hend : isBoundary (byteSize text) text = true := by
    simpa using isBoundary_append text []
  have hbound {offset : Nat} (hoffset : isBoundary offset text = true) :
      offset ≤ byteSize text := by
    obtain ⟨before, after, rfl, rfl⟩ := split_of_isBoundary hoffset
    rw [byteSize_append]
    exact Nat.le_add_right _ _
  induction queue generalizing offset with
  | nil => simpa [pieces] using ⟨hbound hoffset, hoffset, hend⟩
  | cons edit rest ih =>
    obtain ⟨hfirst, -, hstart, hstop, hrest⟩ := hfits
    exact List.forall_mem_cons.mpr
      ⟨⟨hfirst, hbound hstart, hoffset, hstart⟩, ih hstop hrest⟩

/-- Every range of a queue has positions, if the units of the text can be counted by words. -/
theorem exists_events (hsize : unitCount encoding text < 2 ^ 32) {offset : Nat}
    (hfits : Fits text offset queue) :
    ∃ told, queue.events text (lineStarts text) encoding = .ok told := by
  induction queue generalizing offset with
  | nil => exact ⟨[], rfl⟩
  | cons edit rest ih =>
    obtain ⟨-, -, hstart, hstop, hrest⟩ := hfits
    obtain ⟨later, hlater⟩ := ih hrest
    obtain ⟨start, hstart⟩ := exists_positionAt? hsize hstart
    obtain ⟨stop, hstop⟩ := exists_positionAt? hsize hstop
    have hown : event text (lineStarts text) encoding edit =
        .ok ⟨some ⟨start, stop⟩, edit.text⟩ := by
      rw [event, hstart, hstop]
    refine ⟨later ++ [⟨some ⟨start, stop⟩, edit.text⟩], ?_⟩
    rw [events] at hlater
    rw [events, List.reverse_cons, List.mapM_append, hlater]
    simp [hown, bind, Except.bind, pure, Except.pure]

end Commit

end EditQueue

/-- A call that has to do with the queue of a document. -/
inductive QueueCall
  | edit (text : String) (start stop : Nat)
  | insert (text : String) (offset : Nat)
  | delete (start stop : Nat)
  | pushTextEdit (edit : TextEdit)
  | discardEdits

/-- Whether a call drops what was queued. -/
def QueueCall.discards : QueueCall → Bool
  | .discardEdits => true
  | _ => false

namespace TextDocument

/-- What a call makes of a document, unless it is refused. -/
def call (document : TextDocument) : QueueCall → Except DocumentError TextDocument
  | .edit text start stop => document.edit text start stop
  | .insert text offset => document.insert text offset
  | .delete start stop => document.delete start stop
  | .pushTextEdit edit => document.pushTextEdit edit
  | .discardEdits => .ok document.discardEdits

/-- The edit that a call queues unless it is refused. -/
def edit? (document : TextDocument) : QueueCall → Option PendingEdit
  | .edit text start stop => some ⟨start, stop, text⟩
  | .insert text offset => some ⟨offset, offset, text⟩
  | .delete start stop => some ⟨start, stop, ""⟩
  | .pushTextEdit edit =>
    (document.offsetsOf edit.range).toOption.map fun (start, stop) => ⟨start, stop, edit.newText⟩
  | .discardEdits => none

section Calls

variable {document changed : TextDocument} {call : QueueCall}

/-- A call that is not refused discards all edits or queues one. -/
theorem call_ok (hcall : document.call call = .ok changed) :
    (call.discards = true ∧ changed = { document with edits := [] }) ∨
    (call.discards = false ∧ ∃ edit, document.edit? call = some edit ∧
      document.edit edit.text edit.start edit.stop = .ok changed) := by
  cases call with
  | edit | insert | delete => exact Or.inr ⟨rfl, _, rfl, hcall⟩
  | pushTextEdit edit =>
    refine Or.inr ⟨rfl, ?_⟩
    simp only [TextDocument.call, pushTextEdit, bind, Except.bind] at hcall
    cases hoffsets : document.offsetsOf edit.range with
    | error error =>
      rw [hoffsets] at hcall
      cases hcall
    | ok offsets =>
      rw [hoffsets] at hcall
      refine ⟨⟨offsets.1, offsets.2, edit.newText⟩, ?_, hcall⟩
      rw [edit?, hoffsets]
      rfl
  | discardEdits => exact Or.inl ⟨rfl, (Except.ok.inj hcall).symm⟩

end Calls

end TextDocument

/-- A document between calls, and what was queued in it and not discarded since, in the order in
which it was queued. -/
structure Queueing where
  document : TextDocument
  queued : List PendingEdit

namespace Queueing

/-- A document with what it has queued so far. -/
def of (document : TextDocument) : Queueing :=
  ⟨document, document.edits⟩

/-- What one call leads to. A call that is refused leaves everything as it is. -/
def next (state : Queueing) (call : QueueCall) : Queueing :=
  match state.document.call call with
  | .ok document =>
    ⟨document, if call.discards then [] else state.queued ++ (state.document.edit? call).toList⟩
  | .error _ => state

/-- What calls lead to, one after the other. -/
abbrev run (document : TextDocument) (calls : List QueueCall) : Queueing :=
  Run.final next (of document) calls

/-- Nothing but the queue has changed since the start; its ranges follow each other in the text, and
it holds what was queued. -/
structure IsFaithful (start : TextDocument) (state : Queueing) : Prop where
  same : state.document = { start with edits := state.document.edits }
  fits : state.document.edits.Fits start.text.toList 0
  perm : state.document.edits.Perm state.queued
  inserts : ∀ offset, state.document.edits.filter (·.insertsAt offset) =
    state.queued.filter (·.insertsAt offset)

variable {start : TextDocument} {state : Queueing}

theorem isFaithful_of (hfits : start.edits.Fits start.text.toList 0) :
    (of start).IsFaithful start :=
  ⟨rfl, hfits, .refl _, fun _ => rfl⟩

/-- Every call keeps the queue faithful. -/
theorem IsFaithful.next (hfaithful : state.IsFaithful start) (call : QueueCall) :
    (state.next call).IsFaithful start := by
  rw [Queueing.next]
  cases hcall : state.document.call call with
  | error error => exact hfaithful
  | ok changed =>
    dsimp only
    have hsame := hfaithful.same
    obtain ⟨hdiscards, rfl⟩ | ⟨hqueues, edit, hedit, hqueued⟩ := TextDocument.call_ok hcall
    · rw [hdiscards, if_pos rfl]
      refine ⟨?_, trivial, .nil, fun _ => rfl⟩
      rw [hsame]
    · obtain ⟨-, hstart, hstop, hle, edits, hinsert, rfl⟩ :=
        TextDocument.edit_eq_ok_iff.mp hqueued
      rw [hqueues, if_neg Bool.false_ne_true, hedit]
      have htext : state.document.text = start.text := by rw [hsame]
      rw [htext] at hstart hstop
      obtain ⟨hperm, hfilter⟩ :=
        EditQueue.filter_insert (EditQueue.isSettled_of_fits hfaithful.fits).ascends hinsert
      constructor
      · rw [hsame]
      · exact EditQueue.fits_insert? hfaithful.fits hstart hstop hle hinsert
      · exact hperm.trans (hfaithful.perm.append_right [edit])
      · intro offset
        change edits.filter _ = (state.queued ++ [edit]).filter _
        rw [hfilter, List.filter_append, List.filter_append, hfaithful.inserts]

/-- Every run of calls keeps the queue faithful. -/
theorem isFaithful_run (hfits : start.edits.Fits start.text.toList 0) (calls : List QueueCall) :
    (run start calls).IsFaithful start :=
  Run.final_induction _ _ (isFaithful_of hfits) (fun _ call hfaithful => hfaithful.next call) calls

end Queueing

end LanguageClient
