import LanguageClient.Proofs.Document.Changes
import LanguageClient.Proofs.Document.LineEnds

/-!
# Applying changes with the table of lines

A server may look the ranges of the events up in the table of lines of the text that it has at that
moment. The ranges are told from the last one to the first, so the text before a range is still the
old one; but what follows it is not. Where a carriage return stands before the end of a range, a
line feed that has come to stand behind it moves the place. The events lead to the new text exactly
if this happens to no range.
-/

namespace LanguageClient

namespace Text

/-- The text after one change, whose range is looked up in the table of the text. -/
def replace? (encoding : PositionEncoding) (text : List Char) (event : ChangeEvent) :
    Option (List Char) :=
  match event.range with
  | none => some event.text.toList
  | some range => do
    let start ← offsetAt? text (lineStarts text) range.start encoding
    let stop ← offsetAt? text (lineStarts text) range.stop encoding
    return takeBytes start text ++ event.text.toList ++ dropBytes stop text

/-- The text after several changes, each looked up in the text that the one before has left. -/
def replaceAll? (encoding : PositionEncoding) (text : List Char) (events : List ChangeEvent) :
    Option (List Char) :=
  events.foldlM (replace? encoding) text

/-- Whether an offset lies within a line end. -/
def cutsLineEnd (text : List Char) (offset : Nat) : Bool :=
  joins (takeBytes offset text) (dropBytes offset text)

theorem cutsLineEnd_append (before rest : List Char) :
    cutsLineEnd (before ++ rest) (byteSize before) = joins before rest := by
  rw [cutsLineEnd, takeBytes_append, dropBytes_append]

/-- What stands behind the start of a range once it is replaced. If what follows the range shares a
line end with it, the line feed counts to the range, and stays in front if nothing is replaced. -/
def refill (middle new rest : List Char) (isShared : Bool) : List Char :=
  if isShared then
    (if middle.isEmpty then '\n' :: new else new) ++ rest.tail
  else new ++ rest

/-- The bytes from the start of a range up to its end are replaced, where both ends may have moved
behind a line feed; the start only has if there is nothing in the range. -/
theorem replaced_eq_refill {head middle rest : List Char} (new : List Char)
    (hstart : middle ≠ [] → joins head (middle ++ rest) = false) :
    takeBytes (byteSize head + (joins head (middle ++ rest)).toNat) (head ++ middle ++ rest) ++
        new ++
        dropBytes (byteSize (head ++ middle) + (joins (head ++ middle) rest).toNat)
          (head ++ middle ++ rest) =
      head ++ refill middle new rest (joins (head ++ middle) rest) := by
  have hfeed (later : List Char) : takeBytes 1 ('\n' :: later) = ['\n'] :=
    takeBytes_append ['\n'] later
  have hfeed' (later : List Char) : dropBytes 1 ('\n' :: later) = later :=
    dropBytes_append ['\n'] later
  rw [dropBytes_add, List.append_assoc head middle, takeBytes_add]
  cases hshared : joins (head ++ middle) rest with
  | false =>
    have hnone : joins head (middle ++ rest) = false := by
      by_cases hmiddle : middle = []
      · rw [hmiddle, List.append_nil] at hshared
        rwa [hmiddle, List.nil_append]
      · exact hstart hmiddle
    simp [hnone, refill, takeBytes, dropBytes]
  | true =>
    obtain ⟨-, later, -, rfl⟩ := exists_of_joins hshared
    by_cases hmiddle : middle = []
    · rw [hmiddle, List.append_nil] at hshared
      simp [hmiddle, hshared, refill, hfeed, hfeed']
    · simp [hstart hmiddle, hmiddle, refill, takeBytes, hfeed']

/-- A character can be moved from the front of a text to its end if there is nothing else in it. -/
theorem cons_append_eq_append_iff {c : Char} {new rest later : List Char} :
    c :: (new ++ rest) = new ++ later ↔ (∀ other ∈ new, other = c) ∧ later = c :: rest := by
  induction new with
  | nil => simp [eq_comm]
  | cons first new ih =>
    rw [List.cons_append, List.cons_append, List.cons.injEq, List.forall_mem_cons, and_assoc,
      eq_comm]
    refine and_congr_right fun hfirst => ?_
    rw [hfirst, ih]

/-- A range is replaced as it should be if what follows is as it should be, and if no line feed is
counted to it that makes a difference. -/
theorem refill_eq_iff (head middle new : List Char) {rest later : List Char}
    (hlength : rest.length ≤ later.length) :
    (refill middle new rest (joins (head ++ middle) rest)).length ≤ (new ++ later).length ∧
    (refill middle new rest (joins (head ++ middle) rest) = new ++ later ↔
      rest = later ∧ (joins (head ++ middle) later = true →
        middle = [] ∧ ∀ c ∈ new, c = '\n')) := by
  cases hshared : joins (head ++ middle) rest with
  | false =>
    rw [refill, if_neg Bool.false_ne_true, List.length_append, List.length_append,
      List.append_cancel_left_eq]
    refine ⟨by omega, fun heq => ⟨heq, fun htrue => ?_⟩, And.left⟩
    rw [← heq, hshared] at htrue
    cases htrue
  | true =>
    obtain ⟨-, fewer, -, rfl⟩ := exists_of_joins hshared
    rw [refill, if_pos rfl, List.tail_cons]
    rw [List.length_cons] at hlength
    cases middle with
    | nil =>
      rw [List.isEmpty_nil, if_pos rfl, List.cons_append, cons_append_eq_append_iff]
      simp only [List.length_cons, List.length_append]
      refine ⟨by omega, fun ⟨hnew, hlater⟩ => ⟨hlater.symm, fun _ => ⟨trivial, hnew⟩⟩, ?_⟩
      rintro ⟨rfl, hnew⟩
      exact ⟨(hnew hshared).2, rfl⟩
    | cons c middle =>
      rw [List.isEmpty_cons, if_neg Bool.false_ne_true, List.length_append, List.length_append]
      refine ⟨by omega, fun heq => ?_, ?_⟩
      · have hsame := congrArg List.length heq
        rw [List.length_append, List.length_append] at hsame
        omega
      · rintro ⟨rfl, hnew⟩
        cases (hnew hshared).1

end Text

open Text

namespace PendingEdit

/-- The range of an edit is found again when the text up to its end is still the old one and this
text follows: neither end lies within a line end, and no line feed follows that counts to a carriage
return before it. In front of an insertion of line feeds one more does not matter. -/
structure IsFoundAgain (edit : PendingEdit) (text later : List Char) : Prop where
  start : cutsLineEnd text edit.start = false
  stop : cutsLineEnd text edit.stop = false
  seam : joins (takeBytes edit.stop text) later = true →
    edit.start = edit.stop ∧ ∀ c ∈ edit.text.toList, c = '\n'

end PendingEdit

namespace EditQueue

/-- Every range of a queue is found again once the ranges behind it are replaced. -/
def AllFoundAgain (text : List Char) : EditQueue → Prop
  | [] => True
  | edit :: rest =>
    edit.IsFoundAgain text (applyFrom text edit.stop rest) ∧ AllFoundAgain text rest

variable {encoding : PositionEncoding} {text : List Char}

/-- What the event of an edit makes of a text that is still the old one up to the end of its
range. -/
theorem replace?_event {edit : PendingEdit} {told : ChangeEvent}
    (hevent : event text (lineStarts text) encoding edit = .ok told)
    (hle : edit.start ≤ edit.stop) (hstart : isBoundary edit.start text = true)
    (hstop : isBoundary edit.stop text = true) :
    ∃ head middle tail, text = head ++ middle ++ tail ∧ byteSize head = edit.start ∧
      byteSize (head ++ middle) = edit.stop ∧
      ∀ other, replace? encoding (head ++ middle ++ other) told =
        if cutsLineEnd text edit.start || cutsLineEnd text edit.stop then none
        else some (head ++
          refill middle edit.text.toList other (joins (head ++ middle) other)) := by
  obtain ⟨start, stop, hstarts, hstops, rfl⟩ := event_ok hevent
  obtain ⟨head, rest, hsplit, hsize⟩ := split_of_isBoundary hstart
  obtain ⟨head', tail, hsplit', hsize'⟩ := split_of_isBoundary hstop
  obtain ⟨middle, rfl, rfl⟩ := split_of_byteSize_le (hsplit.symm.trans hsplit') (by omega)
  refine ⟨head, middle, tail, hsplit', hsize, hsize', fun other => ?_⟩
  rw [← hsize, hsplit] at hstarts
  rw [← hsize', hsplit'] at hstops
  have hcut : cutsLineEnd text edit.start = joins head (middle ++ tail) := by
    rw [← hsize, hsplit, cutsLineEnd_append]
  have hcut' : cutsLineEnd text edit.stop = joins (head ++ middle) tail := by
    rw [← hsize', hsplit', cutsLineEnd_append]
  rw [hcut, hcut']
  cases hclear : joins head (middle ++ tail) with
  | true =>
    have hread := offsetAt?_within hclear hstarts (middle ++ other)
    simp [replace?, hread]
  | false =>
    have hread := offsetAt?_positionAt? hclear hstarts (middle ++ other)
    cases hclear' : joins (head ++ middle) tail with
    | true =>
      have hread' := offsetAt?_within hclear' hstops other
      simp only [replace?, List.append_assoc] at hread' ⊢
      simp [hread']
    | false =>
      have hread' := offsetAt?_positionAt? hclear' hstops other
      rw [← List.append_assoc] at hread
      simp only [replace?, hread, hread', bind, Option.bind_some, pure, Bool.or_self]
      rw [replaced_eq_refill]
      · rfl
      · intro hmiddle
        rwa [joins_append_right hmiddle] at hclear ⊢

/-- The events of a queue, applied from the last one to the first with the table of each text, make
the text that the queue makes exactly if all ranges are found again. Otherwise they fail, or make
another text, which is no longer. -/
theorem replaceAll?_events {queue : EditQueue} {before after : List Char}
    (hsplit : text = before ++ after) (hfits : Fits text (byteSize before) queue)
    {told : List ChangeEvent} (hevents : queue.events text (lineStarts text) encoding = .ok told) :
    (replaceAll? encoding text told = none ∧ ¬ queue.AllFoundAgain text) ∨
    ∃ rest, replaceAll? encoding text told = some (before ++ rest) ∧
      rest.length ≤ (applyFrom text (byteSize before) queue).length ∧
      (rest = applyFrom text (byteSize before) queue ↔ queue.AllFoundAgain text) := by
  induction queue generalizing before after told with
  | nil =>
    obtain rfl := Except.ok.inj hevents
    have hsame : applyFrom text (byteSize before) [] = after := by
      rw [applyFrom, hsplit, dropBytes_append]
    rw [hsame, hsplit]
    exact Or.inr ⟨after, rfl, Nat.le_refl _, iff_of_true rfl trivial⟩
  | cons edit rest ih =>
    obtain ⟨hfirst, hle, hstart, hstop, hrest⟩ := hfits
    obtain ⟨later, own, hlater, hown, rfl⟩ := events_cons hevents
    obtain ⟨head, middle, tail, htold, hhead, hmiddle, hreplace⟩ :=
      replace?_event hown hle hstart hstop
    have hwhole : replaceAll? encoding text (later ++ [own]) =
        (replaceAll? encoding text later).bind (replace? encoding · own) := by
      rw [replaceAll?, replaceAll?, List.foldlM_append]
      simp [bind]
    rw [hwhole]
    rcases ih htold (by rwa [hmiddle]) hlater with ⟨hnone, hlost⟩ | ⟨other, hdone, hlength, hfound⟩
    · exact Or.inl ⟨by rw [hnone]; rfl, fun hall => hlost hall.2⟩
    rw [hdone, Option.bind_some, hreplace]
    rw [hmiddle] at hlength hfound
    split
    · rename_i hcut
      refine Or.inl ⟨rfl, fun hall => ?_⟩
      rw [hall.1.start, hall.1.stop] at hcut
      cases hcut
    · rename_i hclear
      rw [Bool.not_eq_true, Bool.or_eq_false_iff] at hclear
      -- the text in front of the range is as it was
      obtain ⟨gap, rfl, -⟩ := split_of_byteSize_le
        (hsplit.symm.trans (htold.trans (List.append_assoc head middle tail))) (by omega)
      have hslice : slice (byteSize before) edit.start text = gap := by
        rw [← hhead, htold, List.append_assoc, byteSize_append, slice_append]
      have htake : takeBytes edit.stop text = before ++ gap ++ middle := by
        rw [← hmiddle, htold, takeBytes_append]
      have hmake : applyFrom text (byteSize before) (edit :: rest) =
          gap ++ (edit.text.toList ++ applyFrom text edit.stop rest) := by
        rw [applyFrom, hslice, List.append_assoc]
      have hempty : edit.start = edit.stop ↔ middle = [] := by
        rw [← hhead, ← hmiddle, byteSize_append (before ++ gap)]
        refine ⟨fun hsame => eq_nil_of_byteSize (by omega), ?_⟩
        rintro rfl
        rfl
      obtain ⟨hshorter, hsame⟩ :=
        refill_eq_iff (before ++ gap) middle edit.text.toList hlength
      refine Or.inr ⟨_, by rw [List.append_assoc], ?_, ?_⟩
      · rw [hmake, List.length_append, List.length_append]
        exact Nat.add_le_add_left hshorter _
      · rw [hmake, List.append_cancel_left_eq, hsame, hfound, ← hempty, ← htake, and_comm]
        exact and_congr_left fun _ =>
          ⟨fun hseam => ⟨hclear.1, hclear.2, hseam⟩, fun hagain => hagain.seam⟩

/-- The events of a queue that fits its text lead to the new text exactly if all ranges are found
again. -/
theorem replaceAll?_events_iff {queue : EditQueue} (hfits : Fits text 0 queue)
    {told : List ChangeEvent} (hevents : queue.events text (lineStarts text) encoding = .ok told) :
    replaceAll? encoding text told = some (queue.apply text) ↔ queue.AllFoundAgain text := by
  rcases replaceAll?_events (List.nil_append text).symm hfits hevents with
    ⟨hnone, hlost⟩ | ⟨rest, hdone, -, hfound⟩
  · rw [hnone]
    exact iff_of_false (fun hsome => by cases hsome) hlost
  · rw [hdone, List.nil_append, Option.some.injEq]
    exact hfound

/-- Without carriage returns in the old text all ranges are found again. -/
theorem allFoundAgain_of_not_mem (htext : '\r' ∉ text) (queue : EditQueue) :
    queue.AllFoundAgain text := by
  have hclear (offset : Nat) (rest : List Char) : joins (takeBytes offset text) rest = false :=
    joins_of_not_mem (fun hmem => htext (mem_of_mem_takeBytes hmem)) rest
  induction queue with
  | nil => trivial
  | cons edit rest ih =>
    refine ⟨⟨hclear _ _, hclear _ _, fun hseam => ?_⟩, ih⟩
    rw [hclear] at hseam
    cases hseam

end EditQueue

end LanguageClient
