import LanguageClient.Feature.Schema
import LanguageClient.Proofs.Protocol.Normalizing
import LanguageClient.Protocol.Handshake

/-!
# The types of the protocol stay the same once they were read

Capabilities, registrations, filters, locations and the options of every form are read again as
what they are from what is written for them. Most types are records, each with the rules for its
fields in their order. Where a type is a choice, what is written for a later form has to be kept
apart from the earlier ones.
-/

namespace LanguageClient

open FieldReader

section Locations

instance : NormalWire Range :=
  .of_lawful fun _ => nofun

instance : NormalWire Location :=
  .record (.required fun _ => .required fun _ => .pure rfl) (by decide)

instance : NormalWire LocationLink :=
  .record (.required fun _ => .required fun _ => .required fun _ => .nullable fun _ => .pure rfl)
    (by decide)

/-- A location is not taken for a link, since it has no target. -/
theorem Location.decode?_link (location : Location) :
    (decode? (encode location) : Option LocationLink) = none :=
  readRecord?_record_eq_none (by decide : ["uri", "range"].Nodup)
    (by decide : "targetUri" ∉ ["uri", "range"])

/-- Locations in an array are not taken for links, unless the array is empty. -/
theorem Location.decode?_links (location : Location) (rest : List Location) :
    (decode? (encode (location :: rest)) : Option (List LocationLink)) = none := by
  change ((encode location :: rest.map encode).mapM decode? : Option (List LocationLink)) = none
  rw [List.mapM_cons, location.decode?_link]
  rfl

/-- Only an empty array is read as no locations. -/
theorem eq_empty_of_decode?_nil {α : Type} [Wire α] {raw : Json}
    (hread : decode? raw = some ([] : List α)) : raw = .arr [] := by
  cases raw with
  | arr items =>
    cases items with
    | nil => rfl
    | cons item items =>
      change (item :: items).mapM decode? = some [] at hread
      rw [List.mapM_cons] at hread
      obtain ⟨_, -, hrest⟩ := Option.bind_eq_some_iff.mp hread
      obtain ⟨_, -, hdone⟩ := Option.bind_eq_some_iff.mp hrest
      cases hdone
  | _ => cases hread

instance : NormalWire Locations where
  normalizes := by
    refine .choice (.form fun _ => rfl)
      (.choice_form (.form fun _ => rfl) (fun _ => rfl) fun _ => rfl) ?_
    intro raw locations hlinks hread
    cases hmany : (decode? raw : Option (List Location)) with
    | some many =>
      rw [hmany] at hread
      obtain rfl := Option.some.inj hread
      cases many with
      | nil =>
        obtain rfl := eq_empty_of_decode?_nil hmany
        cases hlinks
      | cons location rest =>
        exact congrArg (Option.map Locations.links) (location.decode?_links rest)
    | none =>
      rw [hmany] at hread
      obtain ⟨location, -, rfl⟩ := Option.map_eq_some_iff.mp hread
      rfl

end Locations

section Registrations

instance : NormalWire Registration :=
  .record (.required fun _ => .required fun _ => .omissible fun _ => .pure rfl) (by decide)

instance : NormalWire Unregistration :=
  .record (.required fun _ => .required fun _ => .pure rfl) (by decide)

instance : NormalWire RegistrationParams :=
  .record (.required fun _ => .pure rfl) (by decide)

instance : NormalWire UnregistrationParams :=
  .record (.required fun _ => .pure rfl) (by decide)

end Registrations

section Filters

instance : NormalWire PatternBase where
  normalizes := by
    refine .choice_named (.form fun _ => rfl) (fun _ => rfl) ["uri", "name"] (by decide) ?_
    exact .required fun _ => .required fun _ => .pure rfl

instance : NormalWire RelativePattern :=
  .record (.required fun _ => .required fun _ => .pure rfl) (by decide)

instance : NormalWire GlobPattern :=
  ⟨.choice_form (.form fun _ => rfl) (fun _ => rfl) fun _ => rfl⟩

instance : NormalWire TextDocumentFilter :=
  .record (.nullable fun _ => .nullable fun _ => .nullable fun _ => .pure rfl) (by decide)

instance : NormalWire NotebookCellFilter :=
  .record (.required fun _ => .nullable fun _ => .pure rfl) (by decide)

/-- A filter of texts is not taken for one of cells, since it names no notebook. -/
theorem TextDocumentFilter.decode?_notebookCell (filter : TextDocumentFilter) :
    (decode? (encode filter) : Option NotebookCellFilter) = none :=
  readRecord?_record_eq_none (by decide : ["language", "scheme", "pattern"].Nodup)
    (by decide : "notebook" ∉ ["language", "scheme", "pattern"])

instance : NormalWire DocumentFilter :=
  ⟨.choice_form (.form fun _ => rfl) (fun _ => rfl) fun filter =>
    congrArg (Option.map DocumentFilter.notebookCell) filter.decode?_notebookCell⟩

instance : NormalWire FilePatternOptions :=
  .record (.nullable fun _ => .pure rfl) (by decide)

instance : NormalWire FilePattern :=
  .record (.required fun _ => .nullable fun _ => .nullable fun _ => .pure rfl) (by decide)

instance : NormalWire FileOperationFilter :=
  .record (.nullable fun _ => .required fun _ => .pure rfl) (by decide)

end Filters

section Options

instance : NormalWire SaveOptions :=
  .record (.nullable fun _ => .pure rfl) (by decide)

instance : NormalWire SaveOption :=
  ⟨.choice_form (.form fun _ => rfl) (fun _ => rfl) fun _ => rfl⟩

instance : NormalWire SyncOptions :=
  .record (.nullable fun _ => .nullable fun _ => .nullable fun _ => .nullable fun _ =>
    .nullable fun _ => .pure rfl) (by decide)

instance : NormalWire DocumentOptions :=
  .record (.omissible fun _ => .omissible fun _ => .pure rfl) (by decide)

instance : NormalWire ChangeOptions :=
  .record (.omissible fun _ => .required fun _ => .pure rfl) (by decide)

instance : NormalWire SaveNoticeOptions :=
  .record (.omissible fun _ => .omissible fun _ => .pure rfl) (by decide)

instance : NormalWire CompletionItemOptions :=
  .record (.omissible fun _ => .pure rfl) (by decide)

instance : NormalWire CompletionOptions :=
  .record (.omissible fun _ => .omissible fun _ => .omissible fun _ => .omissible fun _ =>
    .omissible fun _ => .pure rfl) (by decide)

instance : NormalWire CodeActionOptions :=
  .record (.omissible fun _ => .omissible fun _ => .omissible fun _ => .pure rfl) (by decide)

instance : NormalWire CommandOptions :=
  .record (.defaulted rfl fun _ => .pure rfl) (by decide)

instance : NormalWire FullTokens where
  normalizes := by
    refine .choice_named (.form fun _ => rfl) (fun _ => rfl) ["delta"] (by decide) ?_
    exact .omissible fun _ => .pure rfl

instance : NormalWire SemanticTokensOptions :=
  .record (.omissible fun _ => .omissible fun _ => .omissible fun _ => .omissible fun _ =>
    .omissible fun _ => .pure rfl) (by decide)

instance : NormalWire FileOperationOptions :=
  .record (.required fun _ => .pure rfl) (by decide)

instance : NormalWire DiagnosticOptions :=
  .record (.omissible fun _ => .omissible fun _ => .omissible fun _ => .defaulted rfl fun _ =>
    .defaulted rfl fun _ => .pure rfl) (by decide)

instance : NormalWire ResolveOptions :=
  .record (.omissible fun _ => .omissible fun _ => .omissible fun _ => .pure rfl) (by decide)

instance : NormalWire NotebookSyncOptions :=
  .record (.defaulted rfl fun _ => .omissible fun _ => .omissible fun _ => .pure rfl) (by decide)

end Options

section Keys

variable {κ : Type} [DecidableEq κ] {keys : List κ} {field : κ → String}

/-- Reads the value of a key, if it has one. -/
def readKey (field : κ → String) (key : κ) : FieldReader (Option (κ × Json)) := do
  return (← nullable (field key)).map (key, ·)

/-- The fields of all keys, those without a value included. -/
def eachField (keys : List κ) (field : κ → String) (value : κ → Option Json) : List WrittenField :=
  keys.map fun key => .optionalField (field key) (value key)

theorem mapM_readKey_eq_some (hkeys : keys.Nodup) {members rest : Members}
    {found : List (Option (κ × Json))}
    (hread : keys.mapM (readKey field) members = some (found, rest)) :
    ∃ value : κ → Option Json, found = keys.map (fun key => (value key).map (key, ·)) ∧
      ∀ key ∈ keys, ∃ before after, nullable (field key) before = some (value key, after) := by
  induction keys generalizing members rest found with
  | nil =>
    obtain ⟨rfl, -⟩ := Prod.mk.inj (Option.some.inj hread)
    exact ⟨fun _ => none, rfl, nofun⟩
  | cons key keys ih =>
    obtain ⟨hfresh, hkeys⟩ := List.nodup_cons.mp hkeys
    rw [List.mapM_cons] at hread
    obtain ⟨entry, middle, hentry, hmore⟩ := bind_eq_some hread
    obtain ⟨entries, last, hentries, hdone⟩ := bind_eq_some hmore
    obtain ⟨rfl, -⟩ := Prod.mk.inj (Option.some.inj hdone)
    obtain ⟨first, after, hfirst, hpair⟩ := bind_eq_some hentry
    obtain ⟨rfl, -⟩ := Prod.mk.inj (Option.some.inj hpair)
    obtain ⟨value, rfl, hvalue⟩ := ih hkeys hentries
    have hother : ∀ other ∈ keys, other ≠ key := fun other hmem hsame => hfresh (hsame ▸ hmem)
    refine ⟨Function.update value key first, ?_, fun other hmem => ?_⟩
    · rw [List.map_cons, Function.update_self]
      refine congrArg _ (List.map_congr_left fun other hmem => ?_)
      rw [Function.update_of_ne (hother other hmem)]
    · rcases List.mem_cons.mp hmem with rfl | hlater
      · exact ⟨members, after, by rwa [Function.update_self]⟩
      · rw [Function.update_of_ne (hother other hlater)]
        exact hvalue other hlater

omit [DecidableEq κ] in
theorem mapM_readKey_named {fields : List (String × Json)} {value : κ → Option Json}
    (hread : ∀ key ∈ keys,
      nullable (field key) (.named fields) = some (value key, .named fields)) :
    keys.mapM (readKey field) (.named fields) =
      some (keys.map fun key => (value key).map (key, ·), .named fields) := by
  induction keys with
  | nil => rfl
  | cons key keys ih =>
    obtain ⟨hkey, hkeys⟩ := List.forall_mem_cons.mp hread
    have hentry : readKey field key (.named fields) =
        some ((value key).map (key, ·), .named fields) := by
      rw [readKey, bind_of_eq hkey]
      rfl
    rw [List.mapM_cons, bind_of_eq hentry, bind_of_eq (ih hkeys)]
    rfl

/-- The values of the keys are in the order of the keys, and each was read for its key. -/
theorem readEach_eq_some (hkeys : keys.Nodup) {members rest : Members}
    {values : List (κ × Json)} (hread : readEach keys field members = some (values, rest)) :
    values = keys.filterMap (fun key => (values.lookup key).map (key, ·)) ∧
      ∀ key ∈ keys, ∃ before after,
        nullable (field key) before = some (values.lookup key, after) := by
  obtain ⟨found, after, hfound, hdone⟩ := bind_eq_some hread
  obtain ⟨rfl, -⟩ := Prod.mk.inj (Option.some.inj hdone)
  obtain ⟨value, rfl, hvalue⟩ := mapM_readKey_eq_some hkeys hfound
  have hlookup : ∀ key ∈ keys,
      ((keys.filterMap fun key => (value key).map (key, ·)).lookup key) = value key := by
    intro key hkey
    exact lookup_filterMap value (by rwa [List.map_id]) hkey
  rw [List.filterMap_map, Function.id_comp]
  refine ⟨List.filterMap_congr fun key hkey => ?_, fun key hkey => ?_⟩
  · rw [hlookup key hkey]
  · rw [hlookup key hkey]
    exact hvalue key hkey

theorem rereads_each (hkeys : keys.Nodup) :
    Rereads (readEach keys field) fun values => eachField keys field (values.lookup ·) := by
  intro members values rest hread fields hholds
  obtain ⟨hvalues, hparts⟩ := readEach_eq_some hkeys hread
  have hagain : ∀ key ∈ keys,
      nullable (field key) (.named fields) = some (values.lookup key, .named fields) := by
    intro key hkey
    obtain ⟨before, after, hpart⟩ := hparts key hkey
    refine rereads_nullable before _ after hpart fields fun written hwritten => ?_
    obtain rfl := List.mem_singleton.mp hwritten
    exact hholds _ (List.mem_map_of_mem hkey)
  rw [readEach]
  refine (bind_of_eq (mapM_readKey_named hagain)).trans ?_
  rw [List.filterMap_map, Function.id_comp, ← hvalues]
  rfl

omit [DecidableEq κ] in
/-- Fields without a value do not matter for the object that is written. -/
theorem members_writeEach (value : κ → Option Json) :
    Json.members (writeEach field (keys.filterMap fun key => (value key).map (key, ·))) =
      Json.members (eachField keys field value) := by
  unfold Json.members writeEach eachField
  rw [List.map_filterMap, List.filterMap_filterMap, List.filterMap_map]
  refine List.filterMap_congr fun key _ => ?_
  cases hvalue : value key <;> simp [WrittenField.field, WrittenField.optionalField, hvalue]

theorem members_append (first second : List WrittenField) :
    Json.members (first ++ second) = Json.members first ++ Json.members second :=
  List.filterMap_append

theorem Finishes.each {β : Type} {write : β → Json} {before : List WrittenField}
    {names : List String} {next : List (κ × Json) → FieldReader β} (hkeys : keys.Nodup)
    (hnext : ∀ values, Json.members (writeEach field values) =
        Json.members (eachField keys field (values.lookup ·)) →
      Finishes write (before ++ eachField keys field (values.lookup ·)) names (next values)) :
    Finishes write before (keys.map field ++ names) (readEach keys field >>= next) := by
  refine .bind (rereads_each hkeys) (fun values => List.map_map) ?_
  intro members values rest hread
  refine hnext values ?_
  have hvalues := (readEach_eq_some hkeys hread).1
  rw [← members_writeEach, ← hvalues]

end Keys

section Capabilities

instance : NormalWire DocumentSync :=
  ⟨.choice_form (.form fun _ => rfl) (fun _ => rfl) fun _ => rfl⟩

instance : NormalWire ChangeNotifications :=
  ⟨.choice_form (.form fun _ => rfl) (fun _ => rfl) fun _ => rfl⟩

instance : NormalWire FolderCapabilities :=
  .record (.nullable fun _ => .nullable fun _ => .pure rfl) (by decide)

instance : NormalWire FileOperationCapabilities := by
  refine .record (.each (by decide) fun operations hmembers => .pure ?_) (by decide)
  exact congrArg Json.object hmembers

instance : NormalWire WorkspaceCapabilities :=
  .record (.nullable fun _ => .nullable fun _ => .pure rfl) (by decide)

instance : NormalWire ServerCapabilities := by
  refine .record (.nullable fun _ => .nullable fun _ => .each (by decide)
    fun providers hmembers => .nullable fun _ => .nullable fun _ => .pure ?_)
    (by decide)
  refine congrArg Json.object ?_
  rw [members_append, members_append, hmembers, ← members_append, ← members_append]
  exact congrArg Json.members (List.append_assoc _ [_] [_]).symm

instance : NormalWire ProgramInfo :=
  .record (.required fun _ => .nullable fun _ => .pure rfl) (by decide)

instance : NormalWire HandshakeResult :=
  .record (.required fun _ => .nullable fun _ => .pure rfl) (by decide)

end Capabilities

section Schemas

/-- Typed options are written as an object, which is not taken for a wish for the defaults. -/
theorem OptionsSchema.parse?_form {α : Type} [Wire α] [NormalWire α]
    {wrap : α → RegistrationOptions} {raw : Json} {options : RegistrationOptions}
    (hwrite : ∀ value, (wrap value).toJson = encode value)
    (hobject : ∀ value : α, orDefaults (encode value) = encode value)
    (hread : (decode? (orDefaults raw)).map wrap = some options) :
    (decode? (orDefaults options.toJson)).map wrap = some options := by
  have hagain := (Normalizes.form hwrite).again hread
  obtain ⟨value, -, rfl⟩ := Option.map_eq_some_iff.mp hread
  rw [hwrite] at hagain ⊢
  rwa [hobject]

/-- Options that were read in a form are read again in that form as what they are. -/
theorem OptionsSchema.parse?_toJson {schema : OptionsSchema} {raw : Json}
    {options : RegistrationOptions} (hread : schema.parse? raw = some options) :
    schema.parse? options.toJson = some options := by
  cases schema with
  | none => exact hread
  | plain =>
    obtain rfl := Option.some.inj hread
    rfl
  | _ => exact parse?_form (fun _ => rfl) (fun _ => rfl) hread

end Schemas

/-- What is written for a value that was read is read as that value again. -/
def NormalizesInOneStep (α : Type) [Wire α] : Prop :=
  ∀ (raw : Json) (value : α), decode? raw = some value → decode? (encode value) = some value

theorem NormalWire.inOneStep {α : Type} [Wire α] [NormalWire α] : NormalizesInOneStep α :=
  fun _ _ hread => NormalWire.normalizes.again hread

/-- Whatever a server has sent and the client has read, the client reads it again as the same value
from what it would write for it. -/
theorem normalizesInOneStep_wireTypes :
    NormalizesInOneStep ServerCapabilities ∧ NormalizesInOneStep HandshakeResult ∧
      NormalizesInOneStep Registration ∧ NormalizesInOneStep RegistrationParams ∧
      NormalizesInOneStep UnregistrationParams ∧ NormalizesInOneStep DocumentFilter ∧
      NormalizesInOneStep FileOperationFilter ∧ NormalizesInOneStep Locations ∧
      ∀ (schema : OptionsSchema) (raw : Json) (options : RegistrationOptions),
        schema.parse? raw = some options → schema.parse? options.toJson = some options :=
  ⟨NormalWire.inOneStep, NormalWire.inOneStep, NormalWire.inOneStep, NormalWire.inOneStep,
    NormalWire.inOneStep, NormalWire.inOneStep, NormalWire.inOneStep, NormalWire.inOneStep,
    fun _ _ _ hread => OptionsSchema.parse?_toJson hread⟩

/-- Capabilities with a shorthand, a filter that comes as an array and is written as an object, and
options that ask for the defaults. -/
theorem wireTypes_of_shorthands :
    (∃ capabilities : ServerCapabilities,
      decode? (.obj [("hoverProvider", .bool true), ("textDocumentSync", .int 2)]) =
        some capabilities ∧ decode? (encode capabilities) = some capabilities) ∧
    (∃ filter : DocumentFilter, decode? (.arr [.str "python", .null, .null]) = some filter ∧
      encode filter = .obj [("language", .str "python")] ∧ decode? (encode filter) = some filter) ∧
    ∃ options : RegistrationOptions, OptionsSchema.diagnostic.parse? (.bool true) = some options ∧
      OptionsSchema.diagnostic.parse? options.toJson = some options := by
  obtain ⟨hcapabilities, -, -, -, -, hfilter, -, -, hoptions⟩ := normalizesInOneStep_wireTypes
  have hfull : decode? (.obj [("hoverProvider", .bool true), ("textDocumentSync", .int 2)]) =
      some (⟨none, some (.kind .incremental), [(.hover, .bool true)], none, none⟩ :
        ServerCapabilities) := rfl
  have hlisted : decode? (.arr [.str "python", .null, .null]) =
      some (DocumentFilter.textDocument ⟨some "python", none, none⟩) := rfl
  have hdefaults : OptionsSchema.diagnostic.parse? (.bool true) =
      some (.diagnostic ⟨none, none, none, false, false⟩) := rfl
  exact ⟨⟨_, hfull, hcapabilities _ _ hfull⟩, ⟨_, hlisted, rfl, hfilter _ _ hlisted⟩,
    ⟨_, hdefaults, hoptions _ _ _ hdefaults⟩⟩

end LanguageClient
