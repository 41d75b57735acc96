import LanguageClient.Proofs.Toml.Names
import LanguageClient.Settings.Store

/-!
# Documents name each key once

The values of a document are read first, and the tables are built from its lines after that. Neither
brings about a table with two entries of one key, nor do the moments that take the place of tables.
So every file of settings that can be read can be laid over another one key by key.
-/

namespace LanguageClient.Toml

/-- What every step of a fold keeps holds at its end. -/
theorem foldlM_keeps {σ α : Type} {step : σ → α → Option σ} (keeps : σ → Prop) {items : List α}
    (hstep : ∀ item ∈ items, ∀ start next, keeps start → step start item = some next → keeps next)
    {start after : σ} (hstart : keeps start) (hafter : items.foldlM step start = some after) :
    keeps after := by
  induction items generalizing start with
  | nil =>
    obtain rfl := Option.some.inj hafter
    exact hstart
  | cons item rest ih =>
    obtain ⟨hfirst, hrest⟩ := List.forall_mem_cons.mp hstep
    rw [List.foldlM_cons] at hafter
    obtain ⟨next, hnext, hafter⟩ := Option.bind_eq_some_iff.mp hafter
    exact ih hrest (hfirst start next hstart hnext) hafter

section Readers

variable {chars : List Char} {value : Toml}

/-- A reader of values reads only such whose tables name each key once. -/
def ReadsNamesOnce (reader : List Char → Option (Toml × List Char)) : Prop :=
  ∀ chars value rest, reader chars = some (value, rest) → value.namesOnce = true

theorem namesOnce_decimalValue? {negative : Bool} {significand : Nat} {power : Int}
    (hvalue : decimalValue? negative significand power = some value) : value.namesOnce = true := by
  unfold decimalValue? at hvalue
  split at hvalue
  · obtain rfl := Option.some.inj hvalue
    rfl
  · split at hvalue
    · obtain rfl := Option.some.inj hvalue
      rfl
    · split at hvalue
      · obtain rfl := Option.some.inj hvalue
        rfl
      · cases hvalue

theorem namesOnce_decimal? (hvalue : decimal? chars = some value) : value.namesOnce = true := by
  unfold decimal? at hvalue
  dsimp only at hvalue
  split at hvalue
  · split at hvalue
    · obtain ⟨exponent, -, hvalue⟩ := Option.bind_eq_some_iff.mp hvalue
      obtain ⟨whole, -, hvalue⟩ := Option.bind_eq_some_iff.mp hvalue
      split at hvalue
      · exact namesOnce_decimalValue? hvalue
      · obtain ⟨fraction, -, hvalue⟩ := Option.bind_eq_some_iff.mp hvalue
        exact namesOnce_decimalValue? hvalue
    · cases hvalue
  · obtain ⟨exponent, -, hvalue⟩ := Option.bind_eq_some_iff.mp hvalue
    obtain ⟨whole, -, hvalue⟩ := Option.bind_eq_some_iff.mp hvalue
    split at hvalue
    · exact namesOnce_decimalValue? hvalue
    · obtain ⟨fraction, -, hvalue⟩ := Option.bind_eq_some_iff.mp hvalue
      exact namesOnce_decimalValue? hvalue

theorem namesOnce_integer? (hvalue : integer? chars = some value) : value.namesOnce = true := by
  have hwithin {number : Int} (hvalue : integerWithin? number = some value) :
      value.namesOnce = true := by
    obtain ⟨-, hvalue⟩ := Option.ite_none_right_eq_some.mp hvalue
    obtain rfl := Option.some.inj hvalue
    rfl
  have hbased {base : Nat} {isDigit : Char → Bool} {digits : List Char}
      (hvalue : basedInteger? base isDigit digits = some value) : value.namesOnce = true := by
    obtain ⟨_, -, hvalue⟩ := Option.bind_eq_some_iff.mp hvalue
    exact hwithin hvalue
  unfold integer? at hvalue
  split at hvalue
  · exact hbased hvalue
  · exact hbased hvalue
  · exact hbased hvalue
  · obtain ⟨_, -, hvalue⟩ := Option.bind_eq_some_iff.mp hvalue
    exact hwithin hvalue

/-- No word is an array or a table. -/
theorem namesOnce_scalar? (hvalue : scalar? chars = some value) : value.namesOnce = true := by
  simp only [scalar?, Option.orElse_eq_orElse, Option.orElse_eq_or, Option.or_eq_some_iff]
    at hvalue
  obtain htruth | ⟨-, hmoment | ⟨-, hdecimal | ⟨-, hinteger | ⟨-, hword⟩⟩⟩⟩ := hvalue
  · unfold truth? at htruth
    split at htruth
    · obtain rfl := Option.some.inj htruth
      rfl
    · obtain ⟨-, htruth⟩ := Option.ite_none_right_eq_some.mp htruth
      obtain rfl := Option.some.inj htruth
      rfl
  · obtain ⟨written, -, rfl⟩ := Option.map_eq_some_iff.mp hmoment
    rfl
  · exact namesOnce_decimal? hdecimal
  · exact namesOnce_integer? hinteger
  · obtain ⟨-, hword⟩ := Option.ite_none_right_eq_some.mp hword
    obtain rfl := Option.some.inj hword
    rfl

theorem readsNamesOnce_readPlain? : ReadsNamesOnce readPlain? := by
  intro chars value rest hread
  unfold readPlain? at hread
  split at hread
  · obtain ⟨found, -, hfound⟩ := Option.map_eq_some_iff.mp hread
    obtain ⟨rfl, -⟩ := Prod.mk.inj hfound
    rfl
  · obtain ⟨found, -, hfound⟩ := Option.map_eq_some_iff.mp hread
    obtain ⟨rfl, -⟩ := Prod.mk.inj hfound
    rfl
  · obtain ⟨found, hscalar, hfound⟩ := Option.bind_eq_some_iff.mp hread
    obtain ⟨rfl, -⟩ := Prod.mk.inj (Option.some.inj hfound)
    exact namesOnce_scalar? hscalar

variable {reader : List Char → Option (Toml × List Char)}

theorem namesOnce_readItems? (hreader : ReadsNamesOnce reader) {fuel : Nat} {items : List Toml}
    {rest : List Char} (hread : readItems? reader fuel chars = some (items, rest)) :
    itemsNameOnce items = true := by
  induction fuel generalizing chars items rest with
  | zero => cases hread
  | succ fuel ih =>
    rw [readItems?] at hread
    split at hread
    · obtain ⟨rfl, -⟩ := Prod.mk.inj (Option.some.inj hread)
      rfl
    · obtain ⟨⟨item, after⟩, hitem, hread⟩ := Option.bind_eq_some_iff.mp hread
      have hfirst := hreader _ item after hitem
      dsimp only at hread
      split at hread
      · obtain ⟨⟨more, last⟩, hmore, hread⟩ := Option.bind_eq_some_iff.mp hread
        obtain ⟨rfl, -⟩ := Prod.mk.inj (Option.some.inj hread)
        rw [itemsNameOnce, hfirst, ih hmore]
        rfl
      · obtain ⟨rfl, -⟩ := Prod.mk.inj (Option.some.inj hread)
        rw [itemsNameOnce, hfirst]
        rfl
      · cases hread

theorem namesOnce_readEntry? (hreader : ReadsNamesOnce reader) {entry : List String × Toml}
    {rest : List Char} (hread : readEntry? reader chars = some (entry, rest)) :
    entry.2.namesOnce = true := by
  obtain ⟨⟨keys, after⟩, -, hread⟩ := Option.bind_eq_some_iff.mp hread
  dsimp only at hread
  split at hread
  · obtain ⟨⟨value, last⟩, hvalue, hread⟩ := Option.bind_eq_some_iff.mp hread
    obtain ⟨rfl, -⟩ := Prod.mk.inj (Option.some.inj hread)
    exact hreader _ value last hvalue
  · cases hread

theorem namesOnce_readEntries? (hreader : ReadsNamesOnce reader) {fuel : Nat}
    {entries : List (List String × Toml)} {rest : List Char}
    (hread : readEntries? reader fuel chars = some (entries, rest)) :
    ∀ entry ∈ entries, entry.2.namesOnce = true := by
  induction fuel generalizing chars entries rest with
  | zero => cases hread
  | succ fuel ih =>
    rw [readEntries?] at hread
    obtain ⟨⟨entry, after⟩, hentry, hread⟩ := Option.bind_eq_some_iff.mp hread
    have hfirst := namesOnce_readEntry? hreader hentry
    dsimp only at hread
    split at hread
    · obtain ⟨⟨more, last⟩, hmore, hread⟩ := Option.bind_eq_some_iff.mp hread
      obtain ⟨rfl, -⟩ := Prod.mk.inj (Option.some.inj hread)
      exact List.forall_mem_cons.mpr ⟨hfirst, ih hmore⟩
    · obtain ⟨rfl, -⟩ := Prod.mk.inj (Option.some.inj hread)
      exact List.forall_mem_singleton.mpr hfirst
    · cases hread

/-- Entries that are added one after the other keep the keys of their tables apart. -/
theorem namesOnce_inlineTable? {entries : List (List String × Toml)}
    (hentries : ∀ entry ∈ entries, entry.2.namesOnce = true)
    (htable : inlineTable? entries = some value) : value.namesOnce = true := by
  obtain ⟨after, hafter, htable⟩ := Option.bind_eq_some_iff.mp htable
  obtain rfl := Option.some.inj htable
  refine foldlM_keeps Draft.NamesOnce (fun entry hentry start next hstart hnext => ?_) .nil hafter
  exact Draft.keeps_addDotted entry.1 (hentries entry hentry) start next hstart hnext

theorem readsNamesOnce_readValue? (depth : Nat) : ReadsNamesOnce (readValue? depth) := by
  induction depth with
  | zero => exact readsNamesOnce_readPlain?
  | succ depth ih =>
    intro chars value rest hread
    unfold readValue? at hread
    split at hread
    · obtain ⟨⟨items, after⟩, hitems, hread⟩ := Option.bind_eq_some_iff.mp hread
      obtain ⟨rfl, -⟩ := Prod.mk.inj (Option.some.inj hread)
      exact namesOnce_readItems? ih hitems
    · split at hread
      · obtain ⟨rfl, -⟩ := Prod.mk.inj (Option.some.inj hread)
        rfl
      · obtain ⟨⟨entries, after⟩, hentries, hread⟩ := Option.bind_eq_some_iff.mp hread
        obtain ⟨table, htable, hread⟩ := Option.bind_eq_some_iff.mp hread
        obtain ⟨rfl, -⟩ := Prod.mk.inj (Option.some.inj hread)
        exact namesOnce_inlineTable? (namesOnce_readEntries? ih hentries) htable
    · exact readsNamesOnce_readPlain? _ value rest hread

end Readers

section Documents

variable {value : Toml}

/-- The value that a line writes, if any, names its keys once. -/
def Line.NamesOnce : Line → Prop
  | .entry _ value => value.namesOnce = true
  | _ => True

theorem namesOnce_readLine? {chars rest : List Char} {line : Line}
    (hread : readLine? chars = some (line, rest)) : line.NamesOnce := by
  unfold readLine? at hread
  split at hread
  · obtain ⟨⟨keys, after⟩, -, hread⟩ := Option.bind_eq_some_iff.mp hread
    dsimp only at hread
    split at hread
    · obtain ⟨last, -, hread⟩ := Option.bind_eq_some_iff.mp hread
      obtain ⟨rfl, -⟩ := Prod.mk.inj (Option.some.inj hread)
      trivial
    · cases hread
  · obtain ⟨⟨keys, after⟩, -, hread⟩ := Option.bind_eq_some_iff.mp hread
    dsimp only at hread
    split at hread
    · obtain ⟨last, -, hread⟩ := Option.bind_eq_some_iff.mp hread
      obtain ⟨rfl, -⟩ := Prod.mk.inj (Option.some.inj hread)
      trivial
    · cases hread
  · split at hread
    · obtain ⟨rfl, -⟩ := Prod.mk.inj (Option.some.inj hread)
      trivial
    · obtain ⟨⟨entry, after⟩, hentry, hread⟩ := Option.bind_eq_some_iff.mp hread
      obtain ⟨last, -, hread⟩ := Option.bind_eq_some_iff.mp hread
      obtain ⟨rfl, -⟩ := Prod.mk.inj (Option.some.inj hread)
      exact namesOnce_readEntry? (readsNamesOnce_readValue? maxDepth) hentry

theorem namesOnce_readLines? {fuel : Nat} {chars : List Char} {lines : List Line}
    (hread : readLines? fuel chars = some lines) : ∀ line ∈ lines, line.NamesOnce := by
  induction fuel generalizing chars lines with
  | zero =>
    cases chars with
    | nil =>
      obtain rfl := Option.some.inj hread
      simp
    | cons => cases hread
  | succ fuel ih =>
    cases chars with
    | nil =>
      obtain rfl := Option.some.inj hread
      simp
    | cons c chars =>
      rw [readLines?] at hread
      · obtain ⟨⟨line, after⟩, hline, hread⟩ := Option.bind_eq_some_iff.mp hread
        obtain ⟨more, hmore, hread⟩ := Option.bind_eq_some_iff.mp hread
        obtain rfl := Option.some.inj hread
        exact List.forall_mem_cons.mpr ⟨namesOnce_readLine? hline, ih hmore⟩
      · simp

/-- Every line adds to the tables of a document without naming a key again. -/
theorem namesOnce_take {reading after : Reading} {line : Line} (hline : line.NamesOnce)
    (honce : Draft.NamesOnce reading.entries) (htake : reading.take line = some after) :
    Draft.NamesOnce after.entries := by
  cases line with
  | blank =>
    obtain rfl := Option.some.inj htake
    exact honce
  | header keys =>
    obtain ⟨key, -, htake⟩ := Option.bind_eq_some_iff.mp htake
    obtain ⟨entries, hentries, htake⟩ := Option.bind_eq_some_iff.mp htake
    obtain rfl := Option.some.inj htake
    exact Draft.keeps_withinHeader (Draft.keeps_openTable key) _ _ entries honce hentries
  | nextHeader keys =>
    obtain ⟨key, -, htake⟩ := Option.bind_eq_some_iff.mp htake
    obtain ⟨entries, hentries, htake⟩ := Option.bind_eq_some_iff.mp htake
    obtain rfl := Option.some.inj htake
    exact Draft.keeps_withinHeader (Draft.keeps_openNext key) _ _ entries honce hentries
  | entry keys value =>
    obtain ⟨entries, hentries, htake⟩ := Option.bind_eq_some_iff.mp htake
    obtain rfl := Option.some.inj htake
    exact Draft.keeps_withinHeader (Draft.keeps_addDotted keys hline) _ _ entries honce hentries

/-- Every document that is read is a table that names each key once, as all tables in it do. -/
theorem namesOnce_parse? {text : String} (hparse : parse? text = some value) :
    ∃ entries, value = .table entries ∧ value.namesOnce = true := by
  obtain ⟨lines, hlines, hparse⟩ := Option.bind_eq_some_iff.mp hparse
  obtain ⟨reading, hreading, hparse⟩ := Option.bind_eq_some_iff.mp hparse
  obtain rfl := Option.some.inj hparse
  refine ⟨_, rfl, ?_⟩
  have hlater := namesOnce_readLines? hlines
  refine foldlM_keeps (fun reading => Draft.NamesOnce reading.entries)
    (fun line hline start next hstart hnext => ?_) Draft.NamesOnce.nil hreading
  exact namesOnce_take (hlater line hline) hstart hnext

mutual

/-- Moments take the place of tables and leave the keys of the others as they are. -/
theorem namesOnce_withMoments? : ∀ {value found : Toml}, value.namesOnce = true →
    value.withMoments? = some found → found.namesOnce = true
  | .array items, found, honce, hfound => by
    rw [withMoments?] at hfound
    obtain ⟨items', hitems, rfl⟩ := Option.map_eq_some_iff.mp hfound
    rw [namesOnce] at honce ⊢
    exact itemsNameOnce_withMoments? honce hitems
  | .table [], found, honce, hfound => by
    obtain rfl := Option.some.inj hfound
    exact honce
  | .table ((key, value) :: rest), found, honce, hfound => by
    unfold withMoments? at hfound
    split at hfound
    · split at hfound
      · obtain ⟨written, -, rfl⟩ := Option.map_eq_some_iff.mp hfound
        rfl
      · cases hfound
    · obtain ⟨entries, hentries, rfl⟩ := Option.map_eq_some_iff.mp hfound
      obtain ⟨hnodup, hvalues⟩ := namesOnce_table.mp honce
      obtain ⟨hnames, honce⟩ := entriesNameOnce_withMoments? hvalues hentries
      exact namesOnce_table.mpr ⟨hnames ▸ hnodup, honce⟩
  | .text _, found, honce, hfound | .integer _, found, honce, hfound
  | .decimal _ _, found, honce, hfound | .nonFinite, found, honce, hfound
  | .truth _, found, honce, hfound | .moment _, found, honce, hfound => by
    obtain rfl := Option.some.inj hfound
    exact honce

theorem itemsNameOnce_withMoments? : ∀ {items found : List Toml}, itemsNameOnce items = true →
    itemsWithMoments? items = some found → itemsNameOnce found = true
  | [], found, honce, hfound => by
    obtain rfl := Option.some.inj hfound
    exact honce
  | item :: rest, found, honce, hfound => by
    rw [itemsNameOnce, Bool.and_eq_true] at honce
    rw [itemsWithMoments?] at hfound
    obtain ⟨first, hfirst, hfound⟩ := Option.bind_eq_some_iff.mp hfound
    obtain ⟨more, hmore, hfound⟩ := Option.bind_eq_some_iff.mp hfound
    obtain rfl := Option.some.inj hfound
    rw [itemsNameOnce, namesOnce_withMoments? honce.1 hfirst,
      itemsNameOnce_withMoments? honce.2 hmore]
    rfl

theorem entriesNameOnce_withMoments? : ∀ {entries found : List (String × Toml)},
    entriesNameOnce entries = true → entriesWithMoments? entries = some found →
      found.map Prod.fst = entries.map Prod.fst ∧ entriesNameOnce found = true
  | [], found, honce, hfound => by
    obtain rfl := Option.some.inj hfound
    exact ⟨rfl, honce⟩
  | (key, value) :: rest, found, honce, hfound => by
    rw [entriesNameOnce, Bool.and_eq_true] at honce
    rw [entriesWithMoments?] at hfound
    obtain ⟨first, hfirst, hfound⟩ := Option.bind_eq_some_iff.mp hfound
    obtain ⟨more, hmore, hfound⟩ := Option.bind_eq_some_iff.mp hfound
    obtain rfl := Option.some.inj hfound
    obtain ⟨hnames, hlater⟩ := entriesNameOnce_withMoments? honce.2 hmore
    refine ⟨by rw [List.map_cons, hnames]; rfl, ?_⟩
    rw [entriesNameOnce, namesOnce_withMoments? honce.1 hfirst, hlater]
    rfl

end

/-- Every file of settings that can be read gives a table that names each key once, as all tables in
it do. -/
theorem namesOnce_readDocument {files : FileTree} {path : String} {document : Toml}
    (hread : Settings.readDocument files path = .ok document) :
    ∃ entries, document = .table entries ∧ document.namesOnce = true := by
  unfold Settings.readDocument at hread
  split at hread
  · obtain rfl := Except.ok.inj hread
    exact ⟨[], rfl, rfl⟩
  · split at hread
    · cases hread
    · split at hread
      · rename_i found hfound
        obtain rfl := Except.ok.inj hread
        obtain ⟨plain, hplain, hmoments⟩ := Option.bind_eq_some_iff.mp hfound
        obtain ⟨entries, rfl, honce⟩ := namesOnce_parse? hplain
        obtain ⟨entries', hentries, rfl⟩ := Option.map_eq_some_iff.mp hmoments
        obtain ⟨hnodup, hvalues⟩ := namesOnce_table.mp honce
        obtain ⟨hnames, honce⟩ := entriesNameOnce_withMoments? hvalues hentries
        exact ⟨entries', rfl, namesOnce_table.mpr ⟨hnames ▸ hnodup, honce⟩⟩
      · cases hread

/-- A file that holds a document is read as that document with its moments. -/
theorem readDocument_of_parse? {files : FileTree} {path text : String} {plain document : Toml}
    (hpresent : files.isPresent path = true) (htext : files.readText path = .ok text)
    (hparse : parse? text = some plain) (hmoments : plain.documentWithMoments? = some document) :
    Settings.readDocument files path = .ok document := by
  simp only [Settings.readDocument, hpresent, Bool.not_true, Bool.false_eq_true, if_false, htext,
    hparse, Option.bind_some, hmoments]

end Documents

end LanguageClient.Toml
