import LanguageClient.Proofs.Document.Queueing

/-!
# Which edits are accepted

Edits can stand in one queue if their ranges are apart; only an insertion must not stand at the
start of a range that is replaced. An insertion at the end of such a range is accepted in front of
it, and behind it only if there is another insertion already. So the order in which edits are queued
matters exactly if they can stand together and one of them inserts where another one stops.
-/

namespace LanguageClient

open Text

namespace PendingEdit

/-- An edit can stand in front of another one: it stops before the other one starts, and is no
insertion at the start of what the other one replaces. -/
def Precedes (edit later : PendingEdit) : Prop :=
  edit.stop ≤ later.start ∧ (edit.start < later.start ∨ later.start = later.stop)

/-- One of two edits can stand in front of the other one. -/
def Agrees (edit other : PendingEdit) : Prop :=
  edit.Precedes other ∨ other.Precedes edit

theorem Agrees.symm {edit other : PendingEdit} (hagrees : edit.Agrees other) : other.Agrees edit :=
  Or.symm hagrees

/-- An edit does nothing but insert where another one stops that replaces something. -/
def InsertsBehind (edit range : PendingEdit) : Prop :=
  range.start < range.stop ∧ edit.insertsAt range.stop = true

/-- Edits are ranges of a text, and can stand together in one queue. -/
structure AreTogether (text : List Char) (edits : List PendingEdit) : Prop where
  within : ∀ edit ∈ edits, isBoundary edit.start text = true ∧ isBoundary edit.stop text = true ∧
    edit.start ≤ edit.stop
  agree : edits.Pairwise Agrees

/-- Of insertions at the end of a range that is replaced, one comes before this range. -/
def InsertFirst (edits : List PendingEdit) : Prop :=
  ∀ before range after, edits = before ++ range :: after →
    (∃ edit ∈ after, edit.InsertsBehind range) → ∃ edit ∈ before, edit.InsertsBehind range

section Pairs

variable {queued edit : PendingEdit}

/-- An edit that stays in front of a new one leaves room for it if it can stand there and the new
one does not insert behind it. -/
theorem overlaps_of_comesBefore (hqueued : queued.start ≤ queued.stop)
    (hedit : edit.start ≤ edit.stop) (hbefore : queued.comesBefore edit = true) :
    queued.overlaps edit = false ↔ queued.Precedes edit ∧ ¬ edit.InsertsBehind queued := by
  rw [comesBefore_iff] at hbefore
  simp only [overlaps, Precedes, InsertsBehind, insertsAt_iff, Bool.or_eq_false_iff,
    Bool.and_eq_false_iff, decide_eq_false_iff_not]
  omega

/-- An edit that does not stay in front of a new one leaves room for it if it can stand behind
it. -/
theorem overlaps_of_not_comesBefore (hqueued : queued.start ≤ queued.stop)
    (hafter : queued.comesBefore edit = false) :
    queued.overlaps edit = false ↔ edit.Precedes queued := by
  rw [← Bool.not_eq_true, comesBefore_iff] at hafter
  simp only [overlaps, Precedes, Bool.or_eq_false_iff, Bool.and_eq_false_iff,
    decide_eq_false_iff_not]
  omega

/-- Two edits that agree stand in ascending order. -/
theorem agrees_iff (hqueued : queued.start ≤ queued.stop) (hedit : edit.start ≤ edit.stop) :
    queued.Agrees edit ↔
      if queued.comesBefore edit then queued.Precedes edit else edit.Precedes queued := by
  unfold Agrees
  split
  · rename_i hbefore
    rw [comesBefore_iff] at hbefore
    unfold Precedes
    omega
  · rename_i hafter
    rw [comesBefore_iff] at hafter
    unfold Precedes
    omega

end Pairs

end PendingEdit

namespace EditQueue

variable {text : List Char} {queue : EditQueue} {edit : PendingEdit}

/-- A new edit finds room behind edits exactly if all of them can stand in front of it, and if there
is an insertion already wherever it inserts behind one of them. Only the last of them matters. -/
theorem room_behind_iff {before : EditQueue}
    (hapart : before.Pairwise fun edit later => edit.stop ≤ later.start)
    (hforward : ∀ queued ∈ before, queued.start ≤ queued.stop) :
    (∀ last, before.getLast? = some last → last.Precedes edit ∧ ¬ edit.InsertsBehind last) ↔
      (∀ queued ∈ before, queued.Precedes edit) ∧
      ∀ range ∈ before, edit.InsertsBehind range → ∃ other ∈ before, other.InsertsBehind range := by
  rcases List.eq_nil_or_concat before with rfl | ⟨shorter, last, rfl⟩
  · simp
  rw [List.concat_eq_append] at hapart hforward ⊢
  have hlast : last ∈ shorter ++ [last] := List.mem_append_right _ List.mem_cons_self
  have hfollows : ∀ queued ∈ shorter ++ [last], queued = last ∨ queued.stop ≤ last.start := by
    intro queued hqueued
    rcases List.mem_append.mp hqueued with hshorter | hsame
    · exact Or.inr ((List.pairwise_append.mp hapart).2.2 queued hshorter last List.mem_cons_self)
    · exact Or.inl (List.mem_singleton.mp hsame)
  have hlastForward := hforward last hlast
  constructor
  · intro hroom
    obtain ⟨hprecedes, hclear⟩ := hroom last List.getLast?_concat
    constructor
    · intro queued hqueued
      rcases hfollows queued hqueued with rfl | hstop
      · exact hprecedes
      · have hqueuedForward := hforward queued hqueued
        unfold PendingEdit.Precedes at *
        omega
    · intro range hrange hbehind
      rcases hfollows range hrange with rfl | hstop
      · exact absurd hbehind hclear
      · -- between the range and the new edit there is only room for an insertion
        refine ⟨last, hlast, hbehind.1, ?_⟩
        have hinserts := hbehind.2
        rw [PendingEdit.insertsAt_iff] at hinserts ⊢
        unfold PendingEdit.Precedes at hprecedes
        omega
  · rintro ⟨hprecedes, hinserts⟩ other hother
    obtain rfl : last = other := by simpa using hother
    refine ⟨hprecedes last hlast, fun hbehind => ?_⟩
    obtain ⟨other, hother, hreplaces, hthere⟩ := hinserts last hlast hbehind
    rw [PendingEdit.insertsAt_iff] at hthere
    rcases hfollows other hother with rfl | hstop <;> omega

/-- A new edit finds room in front of edits exactly if it can stand in front of all of them. Only
the first of them matters. -/
theorem room_before_iff {after : EditQueue}
    (hapart : after.Pairwise fun edit later => edit.stop ≤ later.start)
    (hforward : ∀ queued ∈ after, queued.start ≤ queued.stop) (hedit : edit.start ≤ edit.stop)
    (hafter : ∀ queued ∈ after, queued.comesBefore edit = false) :
    (∀ first, after.head? = some first → edit.Precedes first) ↔
      ∀ queued ∈ after, edit.Precedes queued := by
  refine ⟨fun hroom queued hqueued => ?_, fun hall first hfirst => ?_⟩
  · obtain ⟨first, rest, rfl⟩ := List.exists_cons_of_ne_nil (List.ne_nil_of_mem hqueued)
    have hprecedes := hroom first rfl
    rcases List.mem_cons.mp hqueued with rfl | hrest
    · exact hprecedes
    · have hstop := (List.pairwise_cons.mp hapart).1 queued hrest
      have hfirst := hafter first List.mem_cons_self
      have hforward' := hforward first List.mem_cons_self
      rw [← Bool.not_eq_true, PendingEdit.comesBefore_iff] at hfirst
      unfold PendingEdit.Precedes at *
      omega
  · exact hall first (List.mem_of_head? hfirst)

/-- The ranges that a new edit inserts behind stand in front of it, and so do the insertions that
are there already. -/
theorem insertions_behind_iff {before after : EditQueue}
    (hafter : ∀ queued ∈ after, queued.comesBefore edit = false) :
    (∀ range ∈ before ++ after, edit.InsertsBehind range →
        ∃ other ∈ before ++ after, other.InsertsBehind range) ↔
      ∀ range ∈ before, edit.InsertsBehind range →
        ∃ other ∈ before, other.InsertsBehind range := by
  have hfront {range queued : PendingEdit} (hbehind : edit.InsertsBehind range)
      (hmem : queued ∈ before ++ after) (hthere : queued = range ∨ queued.InsertsBehind range) :
      queued ∈ before := by
    refine (List.mem_append.mp hmem).resolve_right fun hmem => ?_
    have hlater := hafter queued hmem
    obtain ⟨hreplaces, hstop⟩ := hbehind
    rw [PendingEdit.insertsAt_iff] at hstop
    rw [← Bool.not_eq_true, PendingEdit.comesBefore_iff] at hlater
    rcases hthere with rfl | ⟨-, hstop'⟩
    · omega
    · rw [PendingEdit.insertsAt_iff] at hstop'
      omega
  constructor
  · intro hall range hmem hbehind
    obtain ⟨other, hmem', hbehind'⟩ := hall range (List.mem_append_left after hmem) hbehind
    exact ⟨other, hfront hbehind hmem' (Or.inr hbehind'), hbehind'⟩
  · intro hall range hmem hbehind
    obtain ⟨other, hmem', hbehind'⟩ := hall range (hfront hbehind hmem (Or.inl rfl)) hbehind
    exact ⟨other, List.mem_append_left after hmem', hbehind'⟩

/-- A new edit gets a place exactly if it agrees with all that are queued, and if there is an
insertion already wherever it inserts behind a range that is replaced. -/
theorem insert?_isSome_iff (hsettled : queue.IsSettled text) (hedit : edit.start ≤ edit.stop) :
    (queue.insert? edit).isSome = true ↔ (∀ queued ∈ queue, queued.Agrees edit) ∧
      ∀ range ∈ queue, edit.InsertsBehind range → ∃ other ∈ queue, other.InsertsBehind range := by
  obtain ⟨before, after, rfl, hbefore, hafter, hresult⟩ :=
    insert?_eq_of_ascends hsettled.ascends edit
  obtain ⟨hfront, hback, -⟩ := List.pairwise_append.mp hsettled.apart
  obtain ⟨hforward, hforward'⟩ := List.forall_mem_append.mp hsettled.forward
  have hplace : ((before ++ after).insert? edit).isSome = true ↔
      (∀ last, before.getLast? = some last → last.Precedes edit ∧ ¬ edit.InsertsBehind last) ∧
      ∀ first, after.head? = some first → edit.Precedes first := by
    have hlast (last : PendingEdit) (hlast : before.getLast? = some last) :
        last.overlaps edit = false ↔ last.Precedes edit ∧ ¬ edit.InsertsBehind last :=
      have hmem := List.mem_of_getLast? hlast
      PendingEdit.overlaps_of_comesBefore (hforward last hmem) hedit (hbefore last hmem)
    have hfirst (first : PendingEdit) (hfirst : after.head? = some first) :
        first.overlaps edit = false ↔ edit.Precedes first :=
      have hmem := List.mem_of_head? hfirst
      PendingEdit.overlaps_of_not_comesBefore (hforward' first hmem) (hafter first hmem)
    rw [hresult]
    cases hgetLast : before.getLast? <;> cases hhead : after.head? <;> simp_all
  have hagrees : (∀ queued ∈ before ++ after, queued.Agrees edit) ↔
      (∀ queued ∈ before, queued.Precedes edit) ∧ ∀ queued ∈ after, edit.Precedes queued := by
    rw [List.forall_mem_append]
    refine and_congr (forall₂_congr fun queued hqueued => ?_)
      (forall₂_congr fun queued hqueued => ?_)
    · rw [PendingEdit.agrees_iff (hforward queued hqueued) hedit, if_pos (hbefore queued hqueued)]
    · rw [PendingEdit.agrees_iff (hforward' queued hqueued) hedit, hafter queued hqueued,
        if_neg Bool.false_ne_true]
  rw [hplace, hagrees, insertions_behind_iff hafter, room_behind_iff hfront hforward,
    room_before_iff hback hforward' hedit hafter]
  exact and_right_comm

end EditQueue

namespace PendingEdit

variable {text : List Char} {edits : List PendingEdit} {edit : PendingEdit}

/-- One more edit stands together with others if it agrees with all of them. -/
theorem areTogether_concat : AreTogether text (edits ++ [edit]) ↔ AreTogether text edits ∧
    (isBoundary edit.start text = true ∧ isBoundary edit.stop text = true ∧
      edit.start ≤ edit.stop) ∧ ∀ other ∈ edits, other.Agrees edit := by
  constructor
  · rintro ⟨hwithin, hagree⟩
    rw [List.forall_mem_append] at hwithin
    rw [List.pairwise_append] at hagree
    exact ⟨⟨hwithin.1, hagree.1⟩, hwithin.2 edit List.mem_cons_self,
      fun other hother => hagree.2.2 other hother edit List.mem_cons_self⟩
  · rintro ⟨⟨hwithin, hagree⟩, hedit, hothers⟩
    refine ⟨List.forall_mem_append.mpr ⟨hwithin, by simpa using hedit⟩, ?_⟩
    refine List.pairwise_append.mpr
      ⟨hagree, .cons (by simp) .nil, fun other hother last hlast => ?_⟩
    rw [List.mem_singleton.mp hlast]
    exact hothers other hother

/-- Which edits stand together does not depend on their order. -/
theorem AreTogether.perm {order : List PendingEdit} (htogether : AreTogether text edits)
    (hperm : order.Perm edits) : AreTogether text order where
  within edit hedit := htogether.within edit (hperm.subset hedit)
  agree := (hperm.pairwise_iff fun hagrees => Agrees.symm hagrees).mpr htogether.agree

/-- One more edit keeps the insertions in front if there is an insertion already wherever it inserts
behind a range. -/
theorem insertFirst_concat : InsertFirst (edits ++ [edit]) ↔ InsertFirst edits ∧
    ∀ range ∈ edits, edit.InsertsBehind range → ∃ other ∈ edits, other.InsertsBehind range := by
  constructor
  · intro hfirst
    refine ⟨fun before range after hsplit ⟨other, hother, hbehind⟩ => ?_,
      fun range hrange hbehind => ?_⟩
    · refine hfirst before range (after ++ [edit]) ?_
        ⟨other, List.mem_append_left [edit] hother, hbehind⟩
      rw [hsplit, List.append_assoc, List.cons_append]
    · obtain ⟨before, after, rfl⟩ := List.append_of_mem hrange
      obtain ⟨other, hother, hbehind'⟩ := hfirst before range (after ++ [edit])
        (by rw [List.append_assoc, List.cons_append])
        ⟨edit, List.mem_append_right after List.mem_cons_self, hbehind⟩
      exact ⟨other, List.mem_append_left _ hother, hbehind'⟩
  · rintro ⟨hfirst, hlast⟩ before range after hsplit ⟨other, hother, hbehind⟩
    rcases List.eq_nil_or_concat after with rfl | ⟨shorter, last, rfl⟩
    · cases hother
    rw [List.concat_eq_append] at hsplit hother
    rw [← List.cons_append, ← List.append_assoc] at hsplit
    obtain ⟨rfl, hsame⟩ := List.append_inj' hsplit rfl
    obtain rfl := List.singleton_inj.mp hsame
    rcases List.mem_append.mp hother with hshorter | hedit
    · exact hfirst before range shorter rfl ⟨other, hshorter, hbehind⟩
    obtain rfl := List.mem_singleton.mp hedit
    -- the insertion that is there already comes before the range, or after another one
    obtain ⟨other, hother, hbehind'⟩ := hlast range (by simp) hbehind
    rcases List.mem_append.mp hother with hbefore | hafter
    · exact ⟨other, hbefore, hbehind'⟩
    rcases List.mem_cons.mp hafter with rfl | hshorter
    · have hthere := insertsAt_iff.mp hbehind'.2
      have hreplaces := hbehind'.1
      omega
    · exact hfirst before range shorter rfl ⟨other, hshorter, hbehind'⟩

/-- Insertions come before the ranges that they insert behind if all insertions come first. -/
theorem insertFirst_of_insertions (edits : List PendingEdit) :
    InsertFirst (edits.filter (fun edit => edit.start == edit.stop) ++
      edits.filter fun edit => !(edit.start == edit.stop)) := by
  rintro before range after hsplit ⟨other, hother, hreplaces, hthere⟩
  rw [insertsAt_iff] at hthere
  have hback : other ∉ edits.filter fun edit => !(edit.start == edit.stop) := by
    intro hmem
    simpa [hthere] using (List.mem_filter.mp hmem).2
  rcases List.append_eq_append_iff.mp hsplit with ⟨middle, -, hrest⟩ | ⟨middle, hfront, hrest⟩
  · exact absurd (hrest ▸ List.mem_append_right middle (List.mem_cons_of_mem range hother)) hback
  · cases middle with
    | nil =>
      rw [List.nil_append] at hrest
      exact absurd (hrest ▸ List.mem_cons_of_mem range hother) hback
    | cons first middle =>
      obtain ⟨rfl, -⟩ := List.cons.inj hrest
      have hmem : range ∈ edits.filter fun edit => edit.start == edit.stop := by
        rw [hfront]
        exact List.mem_append_right before List.mem_cons_self
      have hempty : range.start = range.stop := by simpa using (List.mem_filter.mp hmem).2
      omega

/-- No insertion comes before the first of all edits. -/
theorem not_insertFirst_cons {range : PendingEdit}
    (hinserts : ∃ edit ∈ edits, edit.InsertsBehind range) :
    ¬ InsertFirst (range :: edits) := by
  intro hfirst
  obtain ⟨edit, hedit, -⟩ := hfirst [] range edits rfl hinserts
  cases hedit

end PendingEdit

namespace TextDocument

/-- Queues edits one after the other, up to the first one that is refused. -/
def queueAll (document : TextDocument) (edits : List PendingEdit) :
    Except DocumentError TextDocument :=
  edits.foldlM (fun document edit => document.edit edit.text edit.start edit.stop) document

/-- Whether none of the edits is refused when they are queued one after the other. -/
def accepts (document : TextDocument) (edits : List PendingEdit) : Bool :=
  (document.queueAll edits).isOk

variable {document changed : TextDocument} {edits order : List PendingEdit}

theorem queueAll_concat (document : TextDocument) (edits : List PendingEdit) (edit : PendingEdit) :
    document.queueAll (edits ++ [edit]) =
      (document.queueAll edits).bind fun document =>
        document.edit edit.text edit.start edit.stop := by
  rw [queueAll, List.foldlM_append]
  simp only [List.foldlM_cons, List.foldlM_nil, bind_pure]
  rfl

/-- To queue edits is a run of calls, if all of them are accepted. -/
theorem run_of_queueAll (hqueued : document.queueAll edits = .ok changed) :
    Queueing.run document (edits.map fun edit => .edit edit.text edit.start edit.stop) =
      ⟨changed, document.edits ++ edits⟩ := by
  induction edits using List.reverseRecOn generalizing changed with
  | nil =>
    obtain rfl := Except.ok.inj hqueued
    rw [List.append_nil]
    rfl
  | append_singleton edits edit ih =>
    rw [queueAll_concat] at hqueued
    cases hbefore : document.queueAll edits with
    | error error =>
      rw [hbefore] at hqueued
      cases hqueued
    | ok before =>
      rw [hbefore] at hqueued
      have hcall : before.call (.edit edit.text edit.start edit.stop) = .ok changed := hqueued
      have hrun := ih hbefore
      rw [Queueing.run] at hrun
      rw [List.map_append, List.map_singleton, Queueing.run, Run.final_concat, hrun,
        Queueing.next, hcall, ← List.append_assoc]
      rfl

/-- Once all edits are accepted the queue consists of them, and nothing else has changed. -/
theorem queueAll_ok (hempty : document.edits = [])
    (hqueued : document.queueAll edits = .ok changed) :
    changed = { document with edits := changed.edits } ∧ changed.edits.Perm edits ∧
      changed.edits.Fits document.text.toList 0 := by
  have hfits : document.edits.Fits document.text.toList 0 := by
    rw [hempty]
    trivial
  have hfaithful := Queueing.isFaithful_run hfits
    (edits.map fun edit => .edit edit.text edit.start edit.stop)
  rw [run_of_queueAll hqueued, hempty] at hfaithful
  exact ⟨hfaithful.same, hfaithful.perm, hfaithful.fits⟩

/-- All edits are accepted exactly if they can stand together and insertions come before the ranges
that they insert behind. -/
theorem accepts_iff (hopen : document.isClosed = false) (hempty : document.edits = [])
    (edits : List PendingEdit) : document.accepts edits = true ↔
      PendingEdit.AreTogether document.text.toList edits ∧ PendingEdit.InsertFirst edits := by
  induction edits using List.reverseRecOn with
  | nil =>
    refine iff_of_true rfl ⟨⟨by simp, .nil⟩, fun before range after hsplit => ?_⟩
    cases before <;> cases hsplit
  | append_singleton edits edit ih =>
    rw [PendingEdit.areTogether_concat, PendingEdit.insertFirst_concat]
    rw [accepts] at ih ⊢
    rw [queueAll_concat]
    cases hbefore : document.queueAll edits with
    | error error =>
      rw [hbefore] at ih
      refine iff_of_false Bool.false_ne_true fun hall => ?_
      exact Bool.false_ne_true (ih.mpr ⟨hall.1.1, hall.2.1⟩)
    | ok before =>
      rw [hbefore] at ih
      obtain ⟨htogether, hfirst⟩ := ih.mp rfl
      obtain ⟨hsame, hperm, hfits⟩ := queueAll_ok hempty hbefore
      have hunchanged : before.isClosed = false ∧ before.text = document.text := by
        rw [hsame]
        exact ⟨hopen, rfl⟩
      have hedit : (before.edit edit.text edit.start edit.stop).isOk = true ↔
          isBoundary edit.start document.text.toList = true ∧
          isBoundary edit.stop document.text.toList = true ∧ edit.start ≤ edit.stop ∧
          (before.edits.insert? edit).isSome = true := by
        have hok : (before.edit edit.text edit.start edit.stop).isOk = true ↔
            ∃ changed, before.edit edit.text edit.start edit.stop = .ok changed := by
          cases before.edit edit.text edit.start edit.stop <;> simp [Except.isOk, Except.toBool]
        rw [hok, Option.isSome_iff_exists]
        simp only [edit_eq_ok_iff, hunchanged]
        simp
      change (before.edit edit.text edit.start edit.stop).isOk = true ↔ _
      rw [hedit]
      have hplace (hle : edit.start ≤ edit.stop) :=
        EditQueue.insert?_isSome_iff (EditQueue.isSettled_of_fits hfits) hle
      simp only [hperm.mem_iff] at hplace
      constructor
      · rintro ⟨hstart, hstop, hle, hinsert⟩
        obtain ⟨hagrees, hinserts⟩ := (hplace hle).mp hinsert
        exact ⟨⟨htogether, ⟨hstart, hstop, hle⟩, hagrees⟩, hfirst, hinserts⟩
      · rintro ⟨⟨-, ⟨hstart, hstop, hle⟩, hagrees⟩, -, hinserts⟩
        exact ⟨hstart, hstop, hle, (hplace hle).mpr ⟨hagrees, hinserts⟩⟩

/-- The order in which edits are queued matters exactly if they can stand together and one of them
inserts behind a range that another one replaces. Otherwise either all of them are accepted in every
order, or in none. A given order is accepted if an insertion comes before each of these ranges. -/
theorem accepts_alike_iff (hopen : document.isClosed = false) (hempty : document.edits = [])
    (edits : List PendingEdit) :
    (((∀ order, order.Perm edits → document.accepts order = true) ∨
        ∀ order, order.Perm edits → document.accepts order = false) ↔
      ¬ (PendingEdit.AreTogether document.text.toList edits ∧
        ∃ range ∈ edits, ∃ edit ∈ edits, edit.InsertsBehind range)) ∧
    ∀ order, order.Perm edits → (document.accepts order = true ↔
      PendingEdit.AreTogether document.text.toList edits ∧ PendingEdit.InsertFirst order) := by
  have hiff (order : List PendingEdit) (hperm : order.Perm edits) : document.accepts order = true ↔
      PendingEdit.AreTogether document.text.toList edits ∧ PendingEdit.InsertFirst order := by
    rw [accepts_iff hopen hempty]
    exact and_congr_left fun _ => ⟨fun h => h.perm hperm.symm, fun h => h.perm hperm⟩
  refine ⟨⟨?_, fun hnone => ?_⟩, hiff⟩
  · rintro halike ⟨htogether, range, hrange, edit, hedit, hbehind⟩
    -- all insertions first, and this range first
    have hgood := List.filter_append_perm (fun edit : PendingEdit => edit.start == edit.stop) edits
    have hbad := (List.perm_cons_erase hrange).symm
    have hne : edit ≠ range := by
      rintro rfl
      have hthere := PendingEdit.insertsAt_iff.mp hbehind.2
      have hreplaces := hbehind.1
      omega
    have haccepted := (hiff _ hgood).mpr
      ⟨htogether, PendingEdit.insertFirst_of_insertions edits⟩
    have hrefused : ¬ document.accepts (range :: edits.erase range) = true := fun haccepted =>
      PendingEdit.not_insertFirst_cons ⟨edit, (List.mem_erase_of_ne hne).mpr hedit, hbehind⟩
        ((hiff _ hbad).mp haccepted).2
    rcases halike with hall | hall
    · exact hrefused (hall _ hbad)
    · rw [hall _ hgood] at haccepted
      cases haccepted
  · by_cases htogether : PendingEdit.AreTogether document.text.toList edits
    · refine Or.inl fun order hperm => (hiff order hperm).mpr ⟨htogether, ?_⟩
      rintro before range after rfl ⟨edit, hedit, hbehind⟩
      refine absurd ⟨htogether, range, hperm.subset ?_, edit, hperm.subset ?_, hbehind⟩ hnone
      · simp
      · simp [hedit]
    · refine Or.inr fun order hperm => ?_
      rw [← Bool.not_eq_true, hiff order hperm]
      exact fun hall => htogether hall.1

/-- An open document of six characters. -/
def sixLetters : TextDocument :=
  .opened 0 "/w/a" "file:///w/a" "plaintext" "abcdef" .utf16

/-- A replacement and a deletion that touch are accepted in every order. -/
theorem accepts_of_touching : sixLetters.isClosed = false ∧ sixLetters.edits = [] ∧
    ((∀ order, order.Perm [⟨2, 5, "x"⟩, ⟨5, 6, ""⟩] → sixLetters.accepts order = true) ∨
      ∀ order, order.Perm [⟨2, 5, "x"⟩, ⟨5, 6, ""⟩] → sixLetters.accepts order = false) := by
  refine ⟨rfl, rfl, (accepts_alike_iff rfl rfl _).1.mpr ?_⟩
  rintro ⟨-, range, hrange, edit, hedit, -, hinserts⟩
  rw [PendingEdit.insertsAt_iff] at hinserts
  simp only [List.mem_cons, List.not_mem_nil, or_false] at hrange hedit
  rcases hedit with rfl | rfl <;> rcases hrange with rfl | rfl <;> simp at hinserts

/-- An insertion at the end of a replacement is accepted before it and refused after it. -/
theorem not_accepts_alike : sixLetters.isClosed = false ∧ sixLetters.edits = [] ∧
    (∀ edit ∈ ([⟨3, 5, "x"⟩, ⟨5, 5, "y"⟩] : List PendingEdit), edit.start ≤ edit.stop ∧
      isBoundary edit.start sixLetters.text.toList = true ∧
      isBoundary edit.stop sixLetters.text.toList = true) ∧
    ¬ ((∀ order, order.Perm [⟨3, 5, "x"⟩, ⟨5, 5, "y"⟩] → sixLetters.accepts order = true) ∨
      ∀ order, order.Perm [⟨3, 5, "x"⟩, ⟨5, 5, "y"⟩] → sixLetters.accepts order = false) := by
  refine ⟨rfl, rfl, by decide +kernel, ?_⟩
  rintro (hall | hnone)
  · exact absurd (hall [⟨3, 5, "x"⟩, ⟨5, 5, "y"⟩] (.refl _)) (by decide +kernel)
  · exact absurd (hnone [⟨5, 5, "y"⟩, ⟨3, 5, "x"⟩] (.swap _ _ _)) (by decide +kernel)

end TextDocument

end LanguageClient
