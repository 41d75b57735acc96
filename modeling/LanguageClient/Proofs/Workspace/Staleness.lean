import LanguageClient.Proofs.Workspace.Growing

/-!
# Lists of locations do not outlive their texts

A list of locations keeps the version of each document from when it was made, and shows an entry
only while the document is open in this version. Since the version tells the text, the ranges of an
entry are never shown against another text, also if documents are changed while the entries are gone
through one by one.
-/

namespace LanguageClient

/-- The entry is of the version that its document has. -/
def LocationEntry.IsDated (session : Session) (entry : LocationEntry) : Prop :=
  ∃ document, session.documents[entry.document]? = some document ∧
    document.version = entry.version

section Making

variable {session after : Session} {entry : LocationEntry}

/-- The entry stays of this version while its document does not grow. -/
theorem LocationEntry.IsDated.grow (hdated : entry.IsDated session)
    (hgrows : session.Grows (fun _ => 0) after) : entry.IsDated after := by
  obtain ⟨document, hdocument, hversion⟩ := hdated
  obtain ⟨later, hlater, hbecomes⟩ := hgrows _ document hdocument
  exact ⟨later, hlater, hbecomes.version.trans hversion⟩

/-- Documents that are opened again do not grow. -/
theorem changes_of_calm_or_shadowed {turns : List Turn}
    (hturns : ∀ turn ∈ turns, turn.isCalm = true ∨ ∃ id, turn = .shadowed id) :
    ∀ turn ∈ turns, ∀ n, turn.changes n = false := by
  intro turn hturn n
  rcases hturns turn hturn with hcalm | ⟨id, rfl⟩
  · exact Turn.changes_of_isPlain (Turn.isPlain_of_isCalm hcalm) n
  · rfl

/-- The entries of a list are of the versions that their documents have when it is made. -/
theorem dated_buildEntries {items : List (Nat × List OffsetRange)} {entries : List LocationEntry}
    (htidy : Tidy session) (hafter : session.buildEntries items = .ok (entries, after)) :
    ∀ entry ∈ entries, entry.IsDated after := by
  induction items generalizing session entries with
  | nil =>
    obtain ⟨rfl, -⟩ := Prod.mk.inj (Except.ok.inj hafter)
    simp
  | cons item rest ih =>
    obtain ⟨id, ranges⟩ := item
    simp only [Session.buildEntries, bind, Except.bind, pure, Except.pure] at hafter
    split at hafter
    · cases hafter
    · rename_i middle hreopen
      split at hafter
      · cases hafter
      · rename_i document hfind
        split at hafter
        · cases hafter
        · rename_i result hrest
          obtain ⟨rfl, rfl⟩ := Prod.mk.inj (Except.ok.inj hafter)
          obtain ⟨turn, hshift, -⟩ := shift_reopen htidy hreopen
          have htidy' := hshift.tidy htidy
          intro entry hentry
          rcases List.mem_cons.mp hentry with rfl | hmem
          · obtain ⟨turns, hpath, hturns, -⟩ := path_buildEntries htidy' hrest
            have hdated : LocationEntry.IsDated middle ⟨id, document.version, ranges⟩ := by
              refine ⟨document, ?_, rfl⟩
              unfold Session.find at hfind
              split at hfind
              · rename_i other hother
                rw [hother, Except.ok.inj hfind]
              · cases hfind
            exact hdated.grow (.still hpath (changes_of_calm_or_shadowed hturns))
          · exact ih htidy' hrest entry hmem

theorem dated_buildList {documents : List Nat} {ranges : List (List OffsetRange)}
    {list : LocationList} (htidy : Tidy session)
    (hafter : session.buildList documents ranges = .ok (list, after)) :
    ∀ entry ∈ list.entries, entry.IsDated after := by
  unfold Session.buildList at hafter
  split at hafter
  · cases hafter
  · split at hafter
    · rename_i hentries
      obtain ⟨rfl, rfl⟩ := Prod.mk.inj (Except.ok.inj hafter)
      exact dated_buildEntries htidy hentries
    · cases hafter

theorem dated_listOfLocations {locations : Locations} {list : LocationList} (htidy : Tidy session)
    (hafter : session.listOfLocations locations = (.ok list, after)) :
    ∀ entry ∈ list.entries, entry.IsDated after := by
  unfold Session.listOfLocations at hafter
  obtain ⟨turns, hpath, -⟩ := path_openTargets htidy ⟨[], none⟩ locations.targets (by simp)
  generalize session.openTargets ⟨[], none⟩ locations.targets = reached at hafter hpath
  obtain ⟨opened, ⟨runs, current⟩, outcome⟩ := reached
  have htidy' := hpath.tidy htidy
  cases outcome with
  | error error => cases (Prod.mk.inj hafter).1
  | ok =>
    dsimp only at hafter htidy'
    rw [← List.foldl_map] at hafter
    split at hafter
    · rename_i made built hbuilt
      obtain ⟨hmade, rfl⟩ := Prod.mk.inj hafter
      obtain rfl := Except.ok.inj hmade
      obtain ⟨_, hbuild, -⟩ := path_buildList htidy' hbuilt
      obtain ⟨_, hrelease, hplain, -⟩ :=
        path_releases (hbuild.tidy htidy') (runs.reverse.map Prod.fst)
      intro entry hentry
      refine (dated_buildList htidy' hbuilt entry hentry).grow (.still hrelease ?_)
      exact fun turn hturn => Turn.changes_of_isPlain (hplain turn hturn)
    · cases (Prod.mk.inj hafter).1

/-- A list is dated when it was made. -/
theorem Desk.dated_made {desk : Desk} {operation : Operation} {list : LocationList}
    (htidy : Tidy desk.session) (hmade : desk.made? operation = some list) :
    ∀ entry ∈ list.entries, entry.IsDated (desk.perform operation).session := by
  cases operation with
  | buildList documents ranges =>
    rw [perform]
    rw [made?] at hmade
    cases hbuilt : desk.session.buildList documents ranges with
    | error error =>
      rw [hbuilt] at hmade
      cases hmade
    | ok result =>
      rw [hbuilt] at hmade
      obtain rfl := Option.some.inj hmade
      exact dated_buildList htidy hbuilt
  | listLocations locations =>
    rw [perform]
    rw [made?] at hmade
    cases hbuilt : desk.session.listOfLocations locations with
    | mk result session =>
      rw [hbuilt] at hmade
      cases result with
      | error error => cases hmade
      | ok made =>
        obtain rfl := Option.some.inj hmade
        exact dated_listOfLocations htidy hbuilt
  | _ => cases hmade

end Making

/-- The next entry that is current, and those after it. -/
def LocationList.next? (session : Session) :
    List LocationEntry → Option (LocationEntry × List LocationEntry)
  | [] => none
  | entry :: rest => if entry.isCurrent session then some (entry, rest) else next? session rest

/-- A list of locations, as it is read: while its entries are gone through, the desk may change. -/
structure Reading where
  desk : Desk
  /-- The entries that are still to come. -/
  rest : List LocationEntry

namespace Reading

/-- What happens while a list is read. -/
inductive Step
  | operate (operation : Operation)
  /-- Begins to go through the entries. -/
  | restart
  /-- Goes on to the next entry that is current. -/
  | advance

/-- What one step leads to, for the list at a place. -/
def next (place : Nat) (reading : Reading) : Step → Reading
  | .operate operation => { reading with desk := reading.desk.perform operation }
  | .restart =>
    { reading with rest := ((reading.desk.lists[place]?).map LocationList.entries).getD [] }
  | .advance =>
    { reading with
      rest := ((LocationList.next? reading.desk.session reading.rest).map Prod.snd).getD [] }

/-- What steps lead to after a list was made at a desk. -/
abbrev run (made : Desk) (place : Nat) (steps : List Step) : Reading :=
  Run.final (next place) ⟨made, []⟩ steps

/-- The operations among steps. -/
def operations (steps : List Step) : List Operation :=
  steps.filterMap fun step =>
    match step with
    | .operate operation => some operation
    | _ => none

end Reading

/-- The document of an entry is open, and after some operations still has the text from before
them. -/
structure LocationEntry.IsUntouched (entry : LocationEntry) (made : Desk)
    (since : List Operation) : Prop where
  live : (made.performAll since).session.IsLive entry.document
  commits : made.commitsIn entry.document since = 0
  text : ∃ document later, made.session.documents[entry.document]? = some document ∧
    (made.performAll since).session.documents[entry.document]? = some later ∧
    later.text = document.text

/-- What a list shows that was made at a desk and is read in some steps. -/
structure Shows (list : LocationList) (made : Desk) (place : Nat) (steps : List Reading.Step) :
    Prop where
  desk : (Reading.run made place steps).desk = made.performAll (Reading.operations steps)
  /-- The list is still there, or was closed. -/
  kept : (Reading.run made place steps).desk.lists[place]? = some list ∨
    (Reading.run made place steps).desk.lists[place]? = some ⟨[]⟩
  /-- An entry is current exactly as long as its document is open and nothing was committed. -/
  current : ∀ entry ∈ list.entries,
    entry.isCurrent (Reading.run made place steps).desk.session = true ↔
      (Reading.run made place steps).desk.session.IsLive entry.document ∧
        made.commitsIn entry.document (Reading.operations steps) = 0
  /-- Ranges are given for an entry of the key, and for the text that its document has. -/
  get_ok : ∀ now, (Reading.run made place steps).desk.lists[place]? = some now → ∀ key ranges,
    now.get (Reading.run made place steps).desk.session key = .ok ranges →
      ∃ entry ∈ list.entries,
        entry.isMeant (Reading.run made place steps).desk.session key = true ∧
          entry.ranges = ranges ∧ entry.IsUntouched made (Reading.operations steps)
  /-- No ranges are given for a document that is closed, or was committed. -/
  get_error : ∀ now, (Reading.run made place steps).desk.lists[place]? = some now → ∀ id,
    ¬ (Reading.run made place steps).desk.session.IsLive id ∨
        made.commitsIn id (Reading.operations steps) ≠ 0 →
      (now.get (Reading.run made place steps).desk.session (.document id)).isOk = false
  /-- The entry that comes next is shown for the text that its document has. -/
  next : ∀ entry rest,
    LocationList.next? (Reading.run made place steps).desk.session
        (Reading.run made place steps).rest = some (entry, rest) →
      entry ∈ list.entries ∧ entry.IsUntouched made (Reading.operations steps)

section Reading

variable {session : Session} {entry : LocationEntry} {entries rest : List LocationEntry}

/-- Going through the entries one by one shows those that are current. -/
theorem LocationList.filter_of_next? :
    entries.filter (LocationEntry.isCurrent session) =
      match LocationList.next? session entries with
      | some (entry, rest) => entry :: rest.filter (LocationEntry.isCurrent session)
      | none => [] := by
  induction entries with
  | nil => rfl
  | cons entry rest ih =>
    rw [List.filter_cons, next?]
    split
    · rfl
    · exact ih

theorem LocationList.current_of_next?
    (hnext : LocationList.next? session entries = some (entry, rest)) :
    entry ∈ entries ∧ entry.isCurrent session = true := by
  have hmem : entry ∈ entries.filter (LocationEntry.isCurrent session) := by
    rw [filter_of_next?, hnext]
    exact List.mem_cons_self
  exact List.mem_filter.mp hmem

/-- What is still to come after an entry was to come before. -/
theorem LocationList.suffix_of_next?
    (hnext : LocationList.next? session entries = some (entry, rest)) : rest <:+ entries := by
  induction entries with
  | nil => cases hnext
  | cons first later ih =>
    rw [next?] at hnext
    split at hnext
    · obtain ⟨-, rfl⟩ := Prod.mk.inj (Option.some.inj hnext)
      exact List.suffix_cons first later
    · exact (ih hnext).trans (List.suffix_cons first later)

/-- An entry of the version that its document had is current while its document is open and was not
committed since. -/
theorem LocationEntry.IsDated.isCurrent_iff {made now : Session} {commits : Nat → Nat}
    (hdated : entry.IsDated made) (hgrows : made.Grows commits now) :
    entry.isCurrent now = true ↔ now.IsLive entry.document ∧ commits entry.document = 0 := by
  obtain ⟨document, hdocument, hversion⟩ := hdated
  obtain ⟨later, hlater, hbecomes⟩ := hgrows _ document hdocument
  have hlive : now.IsLive entry.document ↔ later.isClosed = false := by
    constructor
    · rintro ⟨other, hother, hopen⟩
      obtain rfl := Option.some.inj (hlater.symm.trans hother)
      exact hopen
    · intro hopen
      exact ⟨later, hlater, hopen⟩
  have hsame : later.version = entry.version ↔ commits entry.document = 0 := by
    have hlater_version := hbecomes.version
    omega
  rw [LocationEntry.isCurrent, hlater, hlive, ← hsame]
  simp

/-- A document that was not committed has the text that it had. -/
theorem LocationEntry.IsDated.isUntouched {made : Desk} {since : List Operation}
    (hdated : entry.IsDated made.session)
    (hgrows : made.session.Grows (fun id => made.commitsIn id since)
      (made.performAll since).session)
    (hcurrent : entry.isCurrent (made.performAll since).session = true) :
    entry.IsUntouched made since := by
  obtain ⟨hlive, hnone⟩ := (hdated.isCurrent_iff hgrows).mp hcurrent
  obtain ⟨document, hdocument, -⟩ := hdated
  obtain ⟨later, hlater, hbecomes⟩ := hgrows _ document hdocument
  exact ⟨hlive, hnone, document, later, hdocument, hlater, hbecomes.text hnone⟩

variable {made : Desk} {list : LocationList} {place : Nat}

/-- Operations leave a list as it is, or close it. -/
theorem lists_performAll (hlist : made.lists[place]? = some list) (since : List Operation) :
    (made.performAll since).lists[place]? = some list ∨
      (made.performAll since).lists[place]? = some ⟨[]⟩ := by
  induction since using List.reverseRecOn with
  | nil => exact Or.inl hlist
  | append_singleton since operation ih =>
    rw [Desk.performAll, Run.final_concat]
    have hlt : place < (made.performAll since).lists.length := by
      rcases ih with hsame | hclosed
      · exact (List.getElem?_eq_some_iff.mp hsame).1
      · exact (List.getElem?_eq_some_iff.mp hclosed).1
    obtain hlists | ⟨n, -, hlists⟩ := (made.performAll since).lists_perform operation
    · rw [hlists, List.getElem?_append_left hlt]
      exact ih
    · rw [hlists]
      by_cases hn : n = place
      · subst hn
        exact Or.inr (List.getElem?_set_self hlt)
      · rw [List.getElem?_set_ne hn]
        exact ih

theorem operations_concat (steps : List Reading.Step) (step : Reading.Step) :
    Reading.operations (steps ++ [step]) =
      Reading.operations steps ++ Reading.operations [step] :=
  List.filterMap_append

/-- Whatever is read of a list comes from it, and the desk is the one that the operations lead
to. -/
theorem reading_run (hlist : made.lists[place]? = some list) (steps : List Reading.Step) :
    (Reading.run made place steps).desk = made.performAll (Reading.operations steps) ∧
      ∀ entry ∈ (Reading.run made place steps).rest, entry ∈ list.entries := by
  induction steps using List.reverseRecOn with
  | nil => exact ⟨rfl, by simp [Run.final]⟩
  | append_singleton steps step ih =>
    obtain ⟨hdesk, hrest⟩ := ih
    rw [Reading.run, Run.final_concat, operations_concat]
    cases step with
    | operate operation =>
      refine ⟨?_, hrest⟩
      rw [Reading.next, hdesk]
      exact (Run.final_concat Desk.perform made _ operation).symm
    | restart =>
      refine ⟨by rw [Reading.next, hdesk]; simp [Reading.operations], fun entry hentry => ?_⟩
      rw [Reading.next, hdesk] at hentry
      rcases lists_performAll hlist (Reading.operations steps) with hsame | hclosed
      · simpa [hsame] using hentry
      · simp [hclosed] at hentry
    | advance =>
      refine ⟨by rw [Reading.next, hdesk]; simp [Reading.operations], fun entry hentry => ?_⟩
      rw [Reading.next] at hentry
      cases hnext : LocationList.next? (Reading.run made place steps).desk.session
          (Reading.run made place steps).rest with
      | none => simp [hnext] at hentry
      | some result =>
        obtain ⟨first, later⟩ := result
        have hmem : entry ∈ later := by simpa [hnext] using hentry
        exact hrest entry ((LocationList.suffix_of_next? hnext).mem hmem)

/-- Ranges are those of an entry of the key that is current. -/
theorem get_eq_ok {key : DocumentKey} {ranges : List OffsetRange}
    (hget : list.get session key = .ok ranges) :
    ∃ entry ∈ list.entries, entry.isMeant session key = true ∧ entry.ranges = ranges ∧
      entry.isCurrent session = true := by
  unfold LocationList.get at hget
  split at hget
  · cases hget
  · rename_i entry hfind
    split at hget
    · rename_i hcurrent
      have hmeant := List.find?_some hfind
      exact ⟨entry, List.mem_of_find?_eq_some hfind, hmeant, Except.ok.inj hget, hcurrent⟩
    · cases hget

/-- What was dated when it was made is shown only for the same text. -/
theorem shows_run (htidy : Tidy made.session)
    (hdated : ∀ entry ∈ list.entries, entry.IsDated made.session)
    (hlist : made.lists[place]? = some list) (steps : List Reading.Step) :
    Shows list made place steps := by
  obtain ⟨hdesk, hrest⟩ := reading_run hlist steps
  have hgrows := Desk.grows_run htidy (Reading.operations steps)
  have hkept := lists_performAll hlist (Reading.operations steps)
  have huntouched (entry) (hentry : entry ∈ list.entries)
      (hcurrent : entry.isCurrent (made.performAll (Reading.operations steps)).session = true) :
      entry.IsUntouched made (Reading.operations steps) :=
    (hdated entry hentry).isUntouched hgrows hcurrent
  have hget {now : LocationList} {key : DocumentKey} {ranges : List OffsetRange}
      (hnow : (made.performAll (Reading.operations steps)).lists[place]? = some now)
      (hok : now.get (made.performAll (Reading.operations steps)).session key = .ok ranges) :
      ∃ entry ∈ list.entries,
        entry.isMeant (made.performAll (Reading.operations steps)).session key = true ∧
          entry.ranges = ranges ∧ entry.IsUntouched made (Reading.operations steps) := by
    obtain ⟨entry, hentry, hmeant, hranges, hcurrent⟩ := get_eq_ok hok
    have hmem : entry ∈ list.entries := by
      rcases hkept with hsame | hclosed
      · rwa [Option.some.inj (hnow.symm.trans hsame)] at hentry
      · rw [Option.some.inj (hnow.symm.trans hclosed)] at hentry
        cases hentry
    exact ⟨entry, hmem, hmeant, hranges, huntouched entry hmem hcurrent⟩
  constructor
  · exact hdesk
  · rwa [hdesk]
  · intro entry hentry
    rw [hdesk]
    exact (hdated entry hentry).isCurrent_iff hgrows
  · intro now hnow key ranges hok
    rw [hdesk] at hnow hok ⊢
    exact hget hnow hok
  · intro now hnow id hgone
    rw [hdesk] at hnow hgone ⊢
    cases hok : now.get (made.performAll (Reading.operations steps)).session (.document id) with
    | error error => rfl
    | ok ranges =>
      obtain ⟨entry, -, hmeant, -, huntouched⟩ := hget hnow hok
      obtain rfl : entry.document = id := eq_of_beq hmeant
      rcases hgone with hclosed | hcommitted
      · exact absurd huntouched.live hclosed
      · exact absurd huntouched.commits hcommitted
  · intro entry rest hnext
    obtain ⟨hmem, hcurrent⟩ := LocationList.current_of_next? hnext
    rw [hdesk] at hcurrent
    exact ⟨hrest entry hmem, huntouched entry (hrest entry hmem) hcurrent⟩

/-- For every list that was made in a run, whatever is done after that, also while the list is gone
through: it gives and shows ranges only for the text that their document had when it was made, and
none for a document that is closed or was committed since. -/
theorem shows_of_made (files : FileTree) (clients : List Client) (root : String)
    (encoding : PositionEncoding) (before : List Operation) {operation : Operation}
    (hmade : ((Desk.begin files clients root encoding).performAll before).made? operation =
      some list) (steps : List Reading.Step) :
    Shows list (((Desk.begin files clients root encoding).performAll before).perform operation)
      ((Desk.begin files clients root encoding).performAll before).lists.length steps := by
  have htidy := Desk.tidy_run (Desk.tidy_begin files clients root encoding) before
  exact shows_run (Desk.tidy_run htidy [operation]) (Desk.dated_made htidy hmade)
    (Desk.getElem?_lists_of_made hmade) steps

/-- A list is gone through while its document is committed, closed and opened again. -/
def commitsBetween : List Reading.Step :=
  [.restart, .operate (.insert 0 "x" 0), .advance, .operate (.commit 0), .advance, .restart,
    .operate .closeWorkspace, .operate (.reopen 0)]

/-- The list was made before, so it shows nothing for another text. -/
theorem shows_of_commitsBetween :
    ((Desk.begin Sample.files [] "/w" .utf16).performAll [.openDocument "a" none]).made?
        (.buildList [0, 0] [[(0, 1)], [(1, 2)]]) =
      some ⟨[⟨0, 0, [(0, 1)]⟩, ⟨0, 0, [(1, 2)]⟩]⟩ ∧
    Shows ⟨[⟨0, 0, [(0, 1)]⟩, ⟨0, 0, [(1, 2)]⟩]⟩
      (((Desk.begin Sample.files [] "/w" .utf16).performAll [.openDocument "a" none]).perform
        (.buildList [0, 0] [[(0, 1)], [(1, 2)]]))
      ((Desk.begin Sample.files [] "/w" .utf16).performAll [.openDocument "a" none]).lists.length
      commitsBetween :=
  have hmade : ((Desk.begin Sample.files [] "/w" .utf16).performAll
      [.openDocument "a" none]).made? (.buildList [0, 0] [[(0, 1)], [(1, 2)]]) =
        some ⟨[⟨0, 0, [(0, 1)]⟩, ⟨0, 0, [(1, 2)]⟩]⟩ := rfl
  ⟨hmade, shows_of_made Sample.files [] "/w" .utf16 [.openDocument "a" none] hmade commitsBetween⟩

end Reading

end LanguageClient
