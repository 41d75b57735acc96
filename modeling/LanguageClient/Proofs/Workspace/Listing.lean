import LanguageClient.Proofs.Workspace.Handling

/-!
# What lists of locations do to documents

A list opens its documents again one after the other, and a list of the targets of locations opens
them, holds them while it is built and gives them back. No stray document is closed by the latter.
-/

namespace LanguageClient

section Lists

variable {session after : Session}

/-- Documents that are opened again for a list are held, unless they are not alone. -/
theorem path_buildEntries {items : List (Nat × List OffsetRange)} {entries : List LocationEntry}
    (htidy : Tidy session) (hafter : session.buildEntries items = .ok (entries, after)) :
    ∃ turns, Path session turns after ∧
      (∀ turn ∈ turns, turn.isCalm = true ∨ ∃ id, turn = .shadowed id) ∧
      (session.AreAlone (items.map Prod.fst) ∨ (∀ item ∈ items, session.IsLive item.1) →
        ∀ turn ∈ turns, turn.isCalm = true) := by
  induction items generalizing session entries with
  | nil =>
    obtain ⟨-, rfl⟩ := Prod.mk.inj (Except.ok.inj hafter)
    exact ⟨[], .nil session, by simp, by simp⟩
  | cons item rest ih =>
    obtain ⟨id, ranges⟩ := item
    simp only [Session.buildEntries, bind, Except.bind, pure, Except.pure] at hafter
    split at hafter
    · cases hafter
    · rename_i middle hreopen
      split at hafter
      · cases hafter
      · split at hafter
        · cases hafter
        · rename_i result hrest
          obtain ⟨-, rfl⟩ := Prod.mk.inj (Except.ok.inj hafter)
          obtain ⟨turn, hshift, hturn⟩ := shift_reopen htidy hreopen
          obtain ⟨turns, hpath, hturns, hcalm⟩ := ih (hshift.tidy htidy) hrest
          refine ⟨turn :: turns, .cons hshift hpath, ?_, fun hgood => ?_⟩
          · intro other hother
            rcases List.mem_cons.mp hother with rfl | hother
            · exact hturn.imp_right fun h => ⟨_, h.1⟩
            · exact hturns other hother
          · have hcalm_turn : turn.isCalm = true := by
              rcases hturn with h | ⟨-, hlive, halone⟩
              · exact h
              · rcases hgood with hgood | hgood
                · exact absurd hgood.1 halone
                · exact absurd (hgood _ List.mem_cons_self) hlive
            intro other hother
            rcases List.mem_cons.mp hother with rfl | hother
            · exact hcalm_turn
            · refine hcalm (hgood.imp (fun h => h.2 _ hreopen) fun h item hitem => ?_) other hother
              have hlive := h item (List.mem_cons_of_mem _ hitem)
              exact hshift.live hlive fun document isStray hclosed => by
                rw [hclosed] at hcalm_turn
                cases hcalm_turn

/-- A list that is built opens its documents again, one after the other. -/
theorem path_buildList {documents : List Nat} {ranges : List (List OffsetRange)}
    {list : LocationList} (htidy : Tidy session)
    (hafter : session.buildList documents ranges = .ok (list, after)) :
    ∃ turns, Path session turns after ∧
      (∀ turn ∈ turns, turn.isCalm = true ∨ ∃ id, turn = .shadowed id) ∧
      ((documents.length = ranges.length → session.AreAlone documents) ∨
        (∀ id ∈ documents, session.IsLive id) → ∀ turn ∈ turns, turn.isCalm = true) := by
  unfold Session.buildList at hafter
  split at hafter
  · cases hafter
  · rename_i hlength
    replace hlength : documents.length = ranges.length := by simpa using hlength
    have hdocuments : (documents.zip ranges).map Prod.fst = documents :=
      List.map_fst_zip (Nat.le_of_eq hlength)
    split at hafter
    · rename_i entries reached hentries
      obtain ⟨-, rfl⟩ := Prod.mk.inj (Except.ok.inj hafter)
      obtain ⟨turns, hpath, hturns, hcalm⟩ := path_buildEntries htidy hentries
      refine ⟨turns, hpath, hturns, fun hgood => hcalm (hgood.imp (fun h => ?_) fun h => ?_)⟩
      · rw [hdocuments]
        exact h hlength
      · intro item hitem
        exact h item.1 (hdocuments ▸ List.mem_map_of_mem hitem)
    · cases hafter

/-- Adding a range to the last run opens nothing. -/
theorem map_fst_addRange (session : Session) (opened : Session.OpenRuns) (range : Range) :
    (session.addRange opened range).1.runs.map Prod.fst = opened.runs.map Prod.fst := by
  unfold Session.addRange
  split
  · rfl
  · rename_i id ranges rest hruns
    split
    · simp [hruns]
    · rfl

/-- Opening a target opens or holds at most its document, which stands at its address then. -/
theorem path_openTarget (htidy : Tidy session) (opened : Session.OpenRuns) (uri : String)
    (range : Range) : ∃ turns, Path session turns (session.openTarget opened uri range).1 ∧
      (∀ turn ∈ turns, turn.isCalm = true) ∧
      ∀ id ∈ (session.openTarget opened uri range).2.1.runs.map Prod.fst,
        id ∈ opened.runs.map Prod.fst ∨ (session.openTarget opened uri range).1.IsLive id ∧
          (session.openTarget opened uri range).1.Housed id := by
  unfold Session.openTarget
  split
  · refine ⟨[], .nil session, by simp, fun id hid => Or.inl ?_⟩
    rwa [map_fst_addRange] at hid
  · split
    · rename_i found middle hopen
      obtain ⟨turn, address, hshift, hcalm, hfound⟩ := shift_openDocument htidy hopen
      obtain ⟨document, hdocument, hlive, rfl⟩ := (hshift.tidy htidy).live_of_openAt? hfound
      refine ⟨[turn], .single hshift, by simpa using hcalm, fun id hid => ?_⟩
      rw [map_fst_addRange] at hid
      rcases List.mem_cons.mp hid with rfl | hold
      · refine Or.inr ⟨⟨document, hdocument, hlive⟩, fun later hlater _ => ?_⟩
        obtain rfl := Option.some.inj (hdocument.symm.trans hlater)
        exact hfound
      · exact Or.inl hold
    · exact ⟨[], .nil session, by simp, fun id hid => Or.inl hid⟩

/-- Opening targets opens or holds at most their documents, which stand at their addresses then. -/
theorem path_openTargets (htidy : Tidy session) (opened : Session.OpenRuns)
    (targets : List (String × Range))
    (hruns : ∀ id ∈ opened.runs.map Prod.fst, session.IsLive id ∧ session.Housed id) :
    ∃ turns, Path session turns (session.openTargets opened targets).1 ∧
      (∀ turn ∈ turns, turn.isCalm = true) ∧
      ∀ id ∈ (session.openTargets opened targets).2.1.runs.map Prod.fst,
        (session.openTargets opened targets).1.IsLive id ∧
          (session.openTargets opened targets).1.Housed id := by
  induction targets generalizing session opened with
  | nil => exact ⟨[], .nil session, by simp, hruns⟩
  | cons target rest ih =>
    obtain ⟨uri, range⟩ := target
    obtain ⟨turns, hpath, hcalm, hids⟩ := path_openTarget htidy opened uri range
    have hall : ∀ id ∈ (session.openTarget opened uri range).2.1.runs.map Prod.fst,
        (session.openTarget opened uri range).1.IsLive id ∧
          (session.openTarget opened uri range).1.Housed id := by
      intro id hid
      rcases hids id hid with hold | hnew
      · exact hpath.live_and_housed htidy hcalm (hruns id hold).1 (hruns id hold).2
      · exact hnew
    unfold Session.openTargets
    split
    · rename_i middle reached hresult
      rw [hresult] at hpath hall
      obtain ⟨more, hmore, hcalm', hids'⟩ := ih (hpath.tidy htidy) reached hall
      refine ⟨turns ++ more, hpath.append hmore, ?_, hids'⟩
      intro turn hturn
      exact (List.mem_append.mp hturn).elim (hcalm turn) (hcalm' turn)
    · exact ⟨turns, hpath, hcalm, hall⟩

/-- Giving back holds one after the other closes documents at most. -/
theorem path_releases (htidy : Tidy session) (ids : List Nat) :
    ∃ turns, Path session turns (ids.foldl Session.releaseIfOpen session) ∧
      (∀ turn ∈ turns, turn.isPlain = true) ∧
      turns.any Turn.isStray = session.releasesStray ids := by
  induction ids generalizing session with
  | nil => exact ⟨[], .nil session, by simp, rfl⟩
  | cons id rest ih =>
    obtain ⟨turns, hpath, hplain, hstray⟩ := path_releaseIfOpen htidy id
    obtain ⟨more, hmore, hplain', hstray'⟩ := ih (hpath.tidy htidy)
    refine ⟨turns ++ more, hpath.append hmore, ?_, ?_⟩
    · intro turn hturn
      exact (List.mem_append.mp hturn).elim (hplain turn) (hplain' turn)
    · rw [List.any_append, hstray, hstray', Session.releasesStray]

/-- A document that stands at its address is not a stray one. -/
theorem releaseStrays_of_housed {id : Nat} (hhoused : session.Housed id) :
    session.releaseStrays id = false := by
  rw [Session.releaseStrays, Option.any_eq_false]
  intro document hdocument
  refine Bool.eq_false_iff.mpr fun hstrays => ?_
  obtain ⟨hholds, hstray⟩ := Bool.and_eq_true_iff.mp hstrays
  have hopen : document.isClosed = false := by
    rw [TextDocument.isClosed, beq_iff_eq.mp hholds]
    rfl
  exact bne_iff_ne.mp hstray (hhoused document hdocument hopen)

/-- Where documents are at most held, opened or closed, none is opened beside another one. -/
theorem shadowed_notMem {turns : List Turn} (hplain : ∀ turn ∈ turns, turn.isPlain = true)
    (id : Nat) : Turn.shadowed id ∉ turns :=
  fun hmem => by cases hplain _ hmem

/-- Giving back documents that stand at their addresses closes no stray one. -/
theorem releasesStray_of_housed (htidy : Tidy session) {ids : List Nat}
    (hhoused : ∀ id ∈ ids, session.Housed id) : session.releasesStray ids = false := by
  induction ids generalizing session with
  | nil => rfl
  | cons id rest ih =>
    obtain ⟨turns, hpath, hplain, -⟩ := path_releaseIfOpen htidy id
    rw [Session.releasesStray, releaseStrays_of_housed (hhoused id List.mem_cons_self),
      Bool.false_or]
    refine ih (hpath.tidy htidy) fun other hother => ?_
    exact hpath.housed htidy (hhoused other (List.mem_cons_of_mem _ hother))
      (shadowed_notMem hplain other)

/-- Documents that were at most held or opened, and then given back. -/
theorem path_giveBack {middle : Session} {turns : List Turn} {ids : List Nat}
    (htidy : Tidy session) (hpath : Path session turns middle)
    (hcalm : ∀ turn ∈ turns, turn.isCalm = true) (hhoused : ∀ id ∈ ids, middle.Housed id) :
    ∃ turns, Path session turns (ids.foldl Session.releaseIfOpen middle) ∧
      (∀ turn ∈ turns, turn.isPlain = true) ∧ turns.any Turn.isStray = false := by
  obtain ⟨more, hmore, hplain, hstray⟩ := path_releases (hpath.tidy htidy) ids
  rw [releasesStray_of_housed (hpath.tidy htidy) hhoused] at hstray
  refine ⟨turns ++ more, hpath.append hmore, fun turn hturn => ?_, ?_⟩
  · rcases List.mem_append.mp hturn with hfirst | hlater
    · exact Turn.isPlain_of_isCalm (hcalm turn hfirst)
    · exact hplain turn hlater
  · have hfirst : turns.any Turn.isStray = false :=
      List.any_eq_false.mpr fun turn hturn => by simp [Turn.isStray_of_isCalm (hcalm turn hturn)]
    rw [List.any_append, hfirst, hstray, Bool.false_or]

/-- A list of the targets of locations holds its documents open and closes no stray one. -/
theorem path_listOfLocations (htidy : Tidy session) (locations : Locations) :
    ∃ turns, Path session turns (session.listOfLocations locations).2 ∧
      (∀ turn ∈ turns, turn.isPlain = true) ∧ turns.any Turn.isStray = false := by
  unfold Session.listOfLocations
  obtain ⟨turns, hpath, hcalm, hids⟩ :=
    path_openTargets htidy ⟨[], none⟩ locations.targets (by simp)
  generalize session.openTargets ⟨[], none⟩ locations.targets = result at hpath hids ⊢
  obtain ⟨opened, ⟨runs, current⟩, outcome⟩ := result
  dsimp only at hpath hids ⊢
  have hruns (id : Nat) (hid : id ∈ runs.reverse.map Prod.fst) :
      opened.IsLive id ∧ opened.Housed id :=
    hids id (by rwa [List.map_reverse, List.mem_reverse] at hid)
  cases outcome with
  | error error =>
    dsimp only
    rw [← List.foldl_map]
    exact path_giveBack htidy hpath hcalm fun id hid => (hruns id hid).2
  | ok =>
    dsimp only
    split
    · rename_i list built hbuilt
      obtain ⟨more, hmore, -, hcalm'⟩ := path_buildList (hpath.tidy htidy) hbuilt
      replace hcalm' := hcalm' (Or.inr fun id hid => (hruns id hid).1)
      rw [← List.foldl_map]
      refine path_giveBack htidy (hpath.append hmore) (fun turn hturn => ?_) fun id hid => ?_
      · exact (List.mem_append.mp hturn).elim (hcalm turn) (hcalm' turn)
      · exact (hmore.live_and_housed (hpath.tidy htidy) hcalm' (hruns id hid).1 (hruns id hid).2).2
    · rw [← List.foldl_map]
      exact path_giveBack htidy hpath hcalm fun id hid => (hruns id hid).2

end Lists

end LanguageClient
