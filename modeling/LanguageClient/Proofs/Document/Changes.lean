import LanguageClient.Document.Basic
import LanguageClient.Proofs.Document.Reading

/-!
# Applying changes on the other side

The queued edits of a document are applied all at once, while a server that is told their ranges
applies them one after the other. Both come to the same text, because the ranges are told from the
last to the first: each of them is still where it was in the old text.
-/

namespace LanguageClient

namespace Text

/-- The text after one change, as a server makes it. -/
def applyChange? (encoding : PositionEncoding) (text : List Char) (event : ChangeEvent) :
    Option (List Char) :=
  match event.range with
  | none => some event.text.toList
  | some range => do
    let (before, _) ← seek? encoding range.start text
    let (_, after) ← seek? encoding range.stop text
    return before ++ event.text.toList ++ after

/-- The text after several changes, one after the other. -/
def applyChanges? (encoding : PositionEncoding) (text : List Char) (events : List ChangeEvent) :
    Option (List Char) :=
  events.foldlM (applyChange? encoding) text

end Text

namespace EditQueue

open Text

/-- From an offset on, the ranges of the queue are ranges of the text and follow each other. -/
def Fits (text : List Char) : (offset : Nat) → EditQueue → Prop
  | _, [] => True
  | offset, edit :: rest =>
    offset ≤ edit.start ∧ edit.start ≤ edit.stop ∧ isBoundary edit.start text = true ∧
      isBoundary edit.stop text = true ∧ Fits text edit.stop rest

section Queue

variable {text : List Char} {offset : Nat} {queue edits : EditQueue} {edit : PendingEdit}

/-- Where the last range of a queue stops. -/
def lastStop (offset : Nat) (queue : EditQueue) : Nat :=
  (queue.getLast?.map PendingEdit.stop).getD offset

/-- A queue fits if both parts of it do. -/
theorem fits_append {before after : EditQueue} :
    Fits text offset (before ++ after) ↔
      Fits text offset before ∧ Fits text (lastStop offset before) after := by
  induction before generalizing offset with
  | nil => simp [Fits, lastStop]
  | cons first before ih =>
    have hlast : lastStop offset (first :: before) = lastStop first.stop before := by
      rw [lastStop, lastStop, List.getLast?_cons]
      cases before.getLast? <;> rfl
    simp only [List.cons_append, Fits, ih, hlast, and_assoc]

/-- A queue that fits from an offset on fits from any other one that is not beyond its first
range. -/
theorem Fits.of_head {other : Nat} (hfits : Fits text offset queue)
    (hhead : ∀ edit, queue.head? = some edit → other ≤ edit.start) : Fits text other queue := by
  cases queue with
  | nil => trivial
  | cons first rest => exact ⟨hhead first rfl, hfits.2⟩

/-- A queued edit that stays in front of a new one and does not overlap it stops before it. -/
theorem stop_le_of_comesBefore {queued : PendingEdit} (hbefore : queued.comesBefore edit = true)
    (hclear : queued.overlaps edit = false) : queued.stop ≤ edit.start := by
  simp only [PendingEdit.comesBefore, PendingEdit.overlaps, Bool.or_eq_true, Bool.or_eq_false_iff,
    Bool.and_eq_true, Bool.and_eq_false_iff, decide_eq_true_eq, decide_eq_false_iff_not,
    beq_iff_eq] at hbefore hclear
  omega

/-- A queued edit that does not stay in front of a new one and does not overlap it starts after
it. -/
theorem stop_le_of_not_comesBefore {queued : PendingEdit}
    (hafter : queued.comesBefore edit = false) (hclear : queued.overlaps edit = false) :
    edit.stop ≤ queued.start := by
  simp only [PendingEdit.comesBefore, PendingEdit.overlaps, Bool.or_eq_false_iff,
    Bool.and_eq_false_iff, decide_eq_false_iff_not, beq_eq_false_iff_ne] at hafter hclear
  omega

/-- A new edit divides the queue; it is refused if one of its neighbours overlaps it. -/
theorem insert?_eq (queue : EditQueue) (edit : PendingEdit) :
    ∃ before after, queue = before ++ after ∧
      (∀ queued ∈ before, queued.comesBefore edit = true) ∧
      (∀ queued, after.head? = some queued → queued.comesBefore edit = false) ∧
      queue.insert? edit =
        if before.getLast?.any (·.overlaps edit) || after.head?.any (·.overlaps edit) then none
        else some (before ++ edit :: after) := by
  refine ⟨queue.takeWhile (·.comesBefore edit), queue.dropWhile (·.comesBefore edit),
    List.takeWhile_append_dropWhile.symm, List.all_eq_true.mp List.all_takeWhile,
    fun queued hqueued => ?_, rfl⟩
  have hhead := List.head?_dropWhile_not (·.comesBefore edit) queue
  rw [hqueued] at hhead
  exact hhead

/-- An edit that gets its place does not stand in the way of its neighbours. -/
theorem fits_insert? (hfits : Fits text 0 queue) (hstart : isBoundary edit.start text = true)
    (hstop : isBoundary edit.stop text = true) (hle : edit.start ≤ edit.stop)
    (hinsert : queue.insert? edit = some edits) : Fits text 0 edits := by
  obtain ⟨before, after, rfl, hbefore, hafter, hresult⟩ := insert?_eq queue edit
  rw [fits_append] at hfits
  rw [hresult] at hinsert
  split at hinsert
  · cases hinsert
  · rename_i hclear
    obtain rfl := Option.some.inj hinsert
    rw [Bool.not_eq_true, Bool.or_eq_false_iff, Option.any_eq_false, Option.any_eq_false] at hclear
    refine fits_append.mpr ⟨hfits.1, ?_, hle, hstart, hstop, hfits.2.of_head ?_⟩
    · rw [lastStop]
      cases hlast : before.getLast? with
      | none => exact Nat.zero_le _
      | some queued =>
        exact stop_le_of_comesBefore (hbefore queued (List.mem_of_getLast? hlast))
          (hclear.1 queued hlast)
    · intro queued hqueued
      exact stop_le_of_not_comesBefore (hafter queued hqueued) (hclear.2 queued hqueued)

/-- The edits of a longer queue are those of the old one and the new edit. -/
theorem mem_insert? (hinsert : queue.insert? edit = some edits) {other : PendingEdit}
    (hmem : other ∈ edits) : other = edit ∨ other ∈ queue := by
  obtain ⟨before, after, rfl, -, -, hresult⟩ := insert?_eq queue edit
  rw [hresult] at hinsert
  split at hinsert
  · cases hinsert
  · obtain rfl := Option.some.inj hinsert
    rw [List.mem_append, List.mem_cons] at hmem
    rw [List.mem_append, or_left_comm]
    exact hmem

/-- Each character of the new text comes from the old one or from an edit. -/
theorem mem_applyFrom {c : Char} (hmem : c ∈ applyFrom text offset queue) :
    c ∈ text ∨ ∃ edit ∈ queue, c ∈ edit.text.toList := by
  induction queue generalizing offset with
  | nil => exact Or.inl (mem_of_mem_dropBytes hmem)
  | cons first rest ih =>
    rw [applyFrom, List.mem_append, List.mem_append] at hmem
    rcases hmem with (hslice | hedit) | hlater
    · exact Or.inl (mem_of_mem_dropBytes (mem_of_mem_takeBytes hslice))
    · exact Or.inr ⟨first, List.mem_cons_self, hedit⟩
    · rcases ih hlater with hold | ⟨edit, hedit, hchar⟩
      · exact Or.inl hold
      · exact Or.inr ⟨edit, List.mem_cons_of_mem _ hedit, hchar⟩

end Queue

section Events

variable {encoding : PositionEncoding} {text : List Char}

/-- The event of an edit tells the positions of both its ends. -/
theorem event_ok {lines : List Nat} {edit : PendingEdit} {told : ChangeEvent}
    (hevent : event text lines encoding edit = .ok told) : ∃ start stop,
      positionAt? text lines edit.start encoding = some start ∧
      positionAt? text lines edit.stop encoding = some stop ∧
      told = ⟨some ⟨start, stop⟩, edit.text⟩ := by
  unfold event at hevent
  split at hevent
  · rename_i start stop hstart hstop
    exact ⟨start, stop, hstart, hstop, (Except.ok.inj hevent).symm⟩
  · cases hevent

/-- The event of an edit replaces its range in every text that is still the old one up to the end of
the range. -/
theorem applyChange?_event (htext : '\r' ∉ text) {edit : PendingEdit} {told : ChangeEvent}
    (hevent : event text (lineStarts text) encoding edit = .ok told)
    (hle : edit.start ≤ edit.stop) : ∃ before middle rest, text = before ++ middle ++ rest ∧
      byteSize before = edit.start ∧ byteSize (before ++ middle) = edit.stop ∧
      ∀ other, applyChange? encoding (before ++ middle ++ other) told =
        some (before ++ edit.text.toList ++ other) := by
  obtain ⟨start, stop, hstart, hstop, rfl⟩ := event_ok hevent
  obtain ⟨before, after, hsplit, hsize, hseek⟩ := seek?_positionAt? htext hstart
  obtain ⟨before', rest, hsplit', hsize', hseek'⟩ := seek?_positionAt? htext hstop
  obtain ⟨middle, rfl, rfl⟩ := split_of_byteSize_le (hsplit.symm.trans hsplit') (by omega)
  refine ⟨before, middle, rest, hsplit', hsize, hsize', fun other => ?_⟩
  simp only [applyChange?, List.append_assoc, hseek, bind, Option.bind_some, pure]
  rw [← List.append_assoc, hseek' other]
  rfl

/-- The events of a queue are those of the later edits, and then the one of the first edit. -/
theorem events_cons {lines : List Nat} {edit : PendingEdit} {rest : EditQueue}
    {told : List ChangeEvent} (hevents : events text lines encoding (edit :: rest) = .ok told) :
    ∃ later own, events text lines encoding rest = .ok later ∧
      event text lines encoding edit = .ok own ∧ told = later ++ [own] := by
  rw [events, List.reverse_cons, List.mapM_append] at hevents
  simp only [bind, Except.bind, pure, Except.pure, List.mapM_cons, List.mapM_nil] at hevents
  split at hevents
  · cases hevents
  · rename_i later hlater
    split at hevents
    · cases hevents
    · rename_i single hsingle
      split at hsingle
      · cases hsingle
      · rename_i own hown
        obtain rfl := Except.ok.inj hsingle
        exact ⟨later, own, hlater, hown, (Except.ok.inj hevents).symm⟩

/-- The events of a queue, applied from the last one to the first, make the text that the queue
makes. -/
theorem applyChanges?_events (htext : '\r' ∉ text) {queue : EditQueue} {before after : List Char}
    (hsplit : text = before ++ after) (hfits : Fits text (byteSize before) queue)
    {told : List ChangeEvent}
    (hevents : queue.events text (lineStarts text) encoding = .ok told) :
    applyChanges? encoding text told = some (before ++ applyFrom text (byteSize before) queue) := by
  induction queue generalizing before after told with
  | nil =>
    obtain rfl := Except.ok.inj hevents
    rw [applyFrom, hsplit, dropBytes_append]
    rfl
  | cons edit rest ih =>
    obtain ⟨hfirst, hle, hstart, hstop, hrest⟩ := hfits
    obtain ⟨later, own, hlater, hown, rfl⟩ := events_cons hevents
    obtain ⟨head, middle, tail, htold, hhead, hmiddle, hreplace⟩ :=
      applyChange?_event htext hown hle
    -- the later ranges leave the text up to the end of this one as it was
    have hdone := ih htold (by rwa [hmiddle]) hlater
    obtain ⟨gap, hgap, -⟩ := split_of_byteSize_le
      (hsplit.symm.trans (htold.trans (List.append_assoc head middle tail))) (by omega)
    have hslice : slice (byteSize before) edit.start text = gap := by
      rw [← hhead, htold, List.append_assoc, hgap, byteSize_append, slice_append]
    rw [applyChanges?, List.foldlM_append]
    rw [applyChanges?] at hdone
    rw [hdone]
    simp only [bind, Option.bind_some, List.foldlM_cons, List.foldlM_nil, hreplace, pure]
    rw [applyFrom, hslice, hmiddle, hgap]
    simp only [List.append_assoc]

end Events

end EditQueue

/-- An edit is queued exactly if the document is open, the edit lies within its text and the queue
has a place for it. -/
theorem TextDocument.edit_eq_ok_iff {document changed : TextDocument} {text : String}
    {start stop : Nat} :
    document.edit text start stop = .ok changed ↔ document.isClosed = false ∧
      Text.isBoundary start document.text.toList = true ∧
      Text.isBoundary stop document.text.toList = true ∧ start ≤ stop ∧
      ∃ edits, document.edits.insert? ⟨start, stop, text⟩ = some edits ∧
        changed = { document with edits } := by
  simp only [edit, ensureOpen, checkOffset, bind, Except.bind, pure, Except.pure, throw, throwThe,
    MonadExceptOf.throw]
  cases hclosed : document.isClosed with
  | true => simp
  | false =>
    cases hstart : Text.isBoundary start document.text.toList with
    | false => simp
    | true =>
      cases hstop : Text.isBoundary stop document.text.toList with
      | false => simp
      | true =>
        by_cases hlt : stop < start
        · simp [hlt, Nat.not_le.mpr hlt]
        · cases hinsert : document.edits.insert? ⟨start, stop, text⟩ with
          | none => simp [hlt]
          | some edits => simp [hlt, Nat.le_of_not_lt hlt, eq_comm]

/-- A document has the table of its text, a queue that fits its text, and no carriage return in
either; its positions are in this encoding. -/
structure TextDocument.Sound (document : TextDocument) (encoding : PositionEncoding) : Prop where
  lines : document.lines = Text.lineStarts document.text.toList
  fits : document.edits.Fits document.text.toList 0
  plain : '\r' ∉ document.text.toList
  plain_edits : ∀ edit ∈ document.edits, '\r' ∉ edit.text.toList
  encoding : document.encoding = encoding

namespace TextDocument.Sound

variable {document : TextDocument} {encoding : PositionEncoding}

/-- A document that was just read is sound. -/
theorem opened (workspace : Nat) (path uri language : String) {text : String}
    (hplain : '\r' ∉ text.toList) (encoding : PositionEncoding) :
    (TextDocument.opened workspace path uri language text encoding).Sound encoding :=
  ⟨rfl, trivial, hplain, by simp [TextDocument.opened], rfl⟩

/-- A document without pending edits is sound. -/
theorem discard (hsound : document.Sound encoding) (holds : Nat) :
    { document with holds, edits := [] }.Sound encoding :=
  ⟨hsound.lines, trivial, hsound.plain, by simp, hsound.encoding⟩

/-- Queueing an edit keeps the document sound. -/
theorem queue (hsound : document.Sound encoding) {edit : PendingEdit} {edits : EditQueue}
    (hstart : Text.isBoundary edit.start document.text.toList = true)
    (hstop : Text.isBoundary edit.stop document.text.toList = true) (hle : edit.start ≤ edit.stop)
    (hinsert : document.edits.insert? edit = some edits) (hplain : '\r' ∉ edit.text.toList) :
    { document with edits }.Sound encoding where
  lines := hsound.lines
  fits := EditQueue.fits_insert? hsound.fits hstart hstop hle hinsert
  plain := hsound.plain
  plain_edits other hother := by
    rcases EditQueue.mem_insert? hinsert hother with rfl | hold
    · exact hplain
    · exact hsound.plain_edits other hold
  encoding := hsound.encoding

/-- The new text of a document is as plain as the old one and the edits. -/
theorem plain_apply (hsound : document.Sound encoding) :
    '\r' ∉ document.edits.apply document.text.toList := by
  intro hmem
  rcases EditQueue.mem_applyFrom hmem with hold | ⟨edit, hedit, hnew⟩
  · exact hsound.plain hold
  · exact hsound.plain_edits edit hedit hnew

/-- The ranges that are told of a change lead to the new text. -/
theorem applyChanges?_events (hsound : document.Sound encoding) {told : List ChangeEvent}
    (hevents : document.edits.events document.text.toList document.lines document.encoding =
      .ok told) : Text.applyChanges? encoding document.text.toList told =
        some (document.edits.apply document.text.toList) := by
  rw [hsound.lines, hsound.encoding] at hevents
  exact EditQueue.applyChanges?_events hsound.plain (List.nil_append _).symm hsound.fits hevents

end TextDocument.Sound

end LanguageClient
