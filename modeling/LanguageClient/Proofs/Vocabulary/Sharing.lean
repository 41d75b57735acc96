import LanguageClient.Proofs.Runs
import LanguageClient.Vocabulary.Interning
import LanguageClient.Vocabulary.Kinds

/-!
# Members read one after the other

All readings of open vocabularies share one table of custom values, which grows with every new one.
What was read before stays in place, so the payload of a custom member tells its vocabulary and its
value, however much is read later on. With that, members can be compared by their payloads.
-/

namespace LanguageClient

/-- The vocabularies in use. -/
inductive Lexicon
  | syncKind
  | codeActionKind
  | positionEncoding
  | fileKind
  | severity
  | tokensMode
  deriving DecidableEq

/-- Whether a raw value is a number. -/
def RawValue.isNumber : RawValue → Bool
  | .number _ => true
  | .text _ => false

namespace Lexicon

/-- The members of a vocabulary. -/
def Member : Lexicon → Type
  | syncKind => SyncKind
  | codeActionKind => CodeActionKind
  | positionEncoding => PositionEncoding
  | fileKind => FileKind
  | severity => Severity
  | tokensMode => TokensMode

instance : ∀ lexicon : Lexicon, DecidableEq lexicon.Member
  | syncKind => inferInstanceAs (DecidableEq SyncKind)
  | codeActionKind => inferInstanceAs (DecidableEq CodeActionKind)
  | positionEncoding => inferInstanceAs (DecidableEq PositionEncoding)
  | fileKind => inferInstanceAs (DecidableEq FileKind)
  | severity => inferInstanceAs (DecidableEq Severity)
  | tokensMode => inferInstanceAs (DecidableEq TokensMode)

instance : ∀ lexicon : Lexicon, Vocabulary lexicon.Member
  | syncKind => inferInstanceAs (Vocabulary SyncKind)
  | codeActionKind => inferInstanceAs (Vocabulary CodeActionKind)
  | positionEncoding => inferInstanceAs (Vocabulary PositionEncoding)
  | fileKind => inferInstanceAs (Vocabulary FileKind)
  | severity => inferInstanceAs (Vocabulary Severity)
  | tokensMode => inferInstanceAs (Vocabulary TokensMode)

/-- The name of a vocabulary. -/
abbrev name (lexicon : Lexicon) : String :=
  Vocabulary.name lexicon.Member

/-- The raw values that a vocabulary is written with: numbers, or texts. -/
abbrev Value (lexicon : Lexicon) : Type :=
  { value : RawValue // value.isNumber = Vocabulary.isNumeric lexicon.Member }

/-- The values of the predefined members. -/
def values (lexicon : Lexicon) : List RawValue :=
  (Vocabulary.members (α := lexicon.Member)).map fun entry => Vocabulary.raw entry.1

theorem name_injective {lexicon other : Lexicon} (hname : lexicon.name = other.name) :
    lexicon = other := by
  cases lexicon <;> cases other <;> first | rfl | exact absurd hname (by decide)

/-- Every predefined member is found by its value. -/
theorem known?_of_mem (lexicon : Lexicon) :
    ∀ entry ∈ Vocabulary.members (α := lexicon.Member),
      Vocabulary.known? (Vocabulary.raw entry.1) = some entry := by
  cases lexicon <;> decide

/-- A custom member keeps its text. -/
theorem raw_custom {lexicon : Lexicon} {make : String → lexicon.Member}
    (hmake : Vocabulary.custom? = some make) (text : String) :
    Vocabulary.raw (make text) = .text text := by
  cases lexicon <;> cases hmake <;> rfl

/-- Open vocabularies are written with texts. -/
theorem isNumeric_of_custom {lexicon : Lexicon} {make : String → lexicon.Member}
    (hmake : Vocabulary.custom? = some make) : Vocabulary.isNumeric lexicon.Member = false := by
  cases lexicon <;> cases hmake <;> rfl

theorem raw_of_known? {lexicon : Lexicon} {value : RawValue} {entry : lexicon.Member × String}
    (hknown : Vocabulary.known? value = some entry) : Vocabulary.raw entry.1 = value := by
  simpa using List.find?_some hknown

theorem known?_eq_none_iff {lexicon : Lexicon} {value : RawValue} :
    Vocabulary.known? (α := lexicon.Member) value = none ↔ value ∉ lexicon.values := by
  simp [Vocabulary.known?, values]

section Table

variable {table : InternTable} {vocabulary : String} {value : RawValue}

/-- What is in the table stays in its place. -/
theorem prefix_intern (table : InternTable) (vocabulary : String) (value : RawValue) :
    table.entries <+: (table.intern vocabulary value).2.entries := by
  unfold InternTable.intern
  split
  · exact List.prefix_rfl
  · exact List.prefix_append _ _

/-- A value stands in the table where its place says. -/
theorem getElem?_intern (table : InternTable) (vocabulary : String) (value : RawValue) :
    (table.intern vocabulary value).2.entries[(table.intern vocabulary value).1]? =
      some (vocabulary, value) := by
  unfold InternTable.intern
  split
  · rename_i place hplace
    obtain ⟨hlt, hfound, -⟩ := List.findIdx?_eq_some_iff_getElem.mp hplace
    rw [List.getElem?_eq_getElem hlt]
    exact congrArg some (eq_of_beq hfound)
  · exact List.getElem?_concat_length

/-- No value enters the table twice. -/
theorem nodup_intern (hnodup : table.entries.Nodup) :
    (table.intern vocabulary value).2.entries.Nodup := by
  unfold InternTable.intern
  split
  · exact hnodup
  · rename_i hnone
    have hfresh : (vocabulary, value) ∉ table.entries := List.idxOf?_eq_none_iff.mp hnone
    rw [List.nodup_append]
    refine ⟨hnodup, List.pairwise_singleton _ _, fun entry hentry other hother heq => hfresh ?_⟩
    rwa [← List.mem_singleton.mp hother, ← heq]

end Table

/-- A value on the wire, with the vocabulary in which it is read. -/
structure Word where
  lexicon : Lexicon
  value : lexicon.Value

/-- A value that was read, with what came of it. -/
structure Reading where
  word : Word
  result : Except UnrecognizedValue (Interned word.lexicon.Member)

/-- The table of custom values, and everything that was read so far. -/
structure History where
  table : InternTable
  readings : List Reading

section Reading

variable {table after : InternTable} {lexicon : Lexicon} {value : RawValue}

theorem read_of_known? {entry : lexicon.Member × String}
    (hknown : Vocabulary.known? value = some entry) :
    table.read lexicon.Member value = (.ok ⟨entry.1, none⟩, table) := by
  have hmember : Vocabulary.ofRaw value = .ok entry.1 := by
    simp only [Vocabulary.ofRaw, hknown]
  have hrecognized : Vocabulary.isRecognized entry.1 = true := by
    rw [Vocabulary.isRecognized, raw_of_known? hknown, hknown]
    rfl
  rw [InternTable.read, hmember]
  exact if_pos hrecognized

theorem read_of_custom? {text : String} {make : String → lexicon.Member}
    (hunknown : Vocabulary.known? (α := lexicon.Member) (.text text) = none)
    (hmake : Vocabulary.custom? = some make) :
    table.read lexicon.Member (.text text) =
      (.ok ⟨make text, some (table.intern lexicon.name (.text text)).1⟩,
        (table.intern lexicon.name (.text text)).2) := by
  have hmember : Vocabulary.ofRaw (.text text) = .ok (make text) := by
    simp only [Vocabulary.ofRaw, hunknown, hmake]
  have hrecognized : ¬ Vocabulary.isRecognized (make text) = true := by
    rw [Vocabulary.isRecognized, raw_custom hmake, hunknown]
    simp
  rw [InternTable.read, hmember]
  exact if_neg hrecognized

theorem read_of_closed (hunknown : Vocabulary.known? (α := lexicon.Member) value = none)
    (hclosed : Vocabulary.custom? (α := lexicon.Member) = none) :
    table.read lexicon.Member value = (.error ⟨lexicon.name, value.quoted⟩, table) := by
  have hmember : Vocabulary.ofRaw (α := lexicon.Member) value =
      .error ⟨lexicon.name, value.quoted⟩ := by
    simp only [Vocabulary.ofRaw, hunknown, hclosed]
  rw [InternTable.read, hmember]

/-- A value is read as the predefined member that it belongs to, or else as a custom member that
stands in the table, or else not at all. -/
theorem read_cases (table : InternTable) (value : lexicon.Value) :
    (∃ entry, Vocabulary.known? value.1 = some entry ∧
      table.read lexicon.Member value.1 = (.ok ⟨entry.1, none⟩, table)) ∨
    (∃ member : lexicon.Member, value.1 ∉ lexicon.values ∧
      Vocabulary.isOpen lexicon.Member = true ∧ Vocabulary.raw member = value.1 ∧
      table.read lexicon.Member value.1 =
        (.ok ⟨member, some (table.intern lexicon.name value.1).1⟩,
          (table.intern lexicon.name value.1).2)) ∨
    (value.1 ∉ lexicon.values ∧ Vocabulary.isOpen lexicon.Member = false ∧
      table.read lexicon.Member value.1 = (.error ⟨lexicon.name, value.1.quoted⟩, table)) := by
  obtain ⟨value, hfits⟩ := value
  cases hknown : Vocabulary.known? (α := lexicon.Member) value with
  | some entry => exact .inl ⟨entry, rfl, read_of_known? hknown⟩
  | none =>
    have hvalue := known?_eq_none_iff.mp hknown
    cases hcustom : Vocabulary.custom? (α := lexicon.Member) with
    | none =>
      have hclosed : Vocabulary.isOpen lexicon.Member = false := by
        rw [Vocabulary.isOpen, hcustom]
        rfl
      exact .inr (.inr ⟨hvalue, hclosed, read_of_closed hknown hcustom⟩)
    | some make =>
      have hopen : Vocabulary.isOpen lexicon.Member = true := by
        rw [Vocabulary.isOpen, hcustom]
        rfl
      cases value with
      | number number =>
        rw [isNumeric_of_custom hcustom] at hfits
        cases hfits
      | text text =>
        exact .inr (.inl ⟨make text, hvalue, hopen, raw_custom hcustom text,
          read_of_custom? hknown hcustom⟩)

/-- What came of a value agrees with the table of custom values. -/
inductive Reading.Holds (table : InternTable) : Reading → Prop
  | named {lexicon : Lexicon} {value : lexicon.Value} {entry : lexicon.Member × String}
      (hknown : Vocabulary.known? value.1 = some entry) :
      Holds table ⟨⟨lexicon, value⟩, .ok ⟨entry.1, none⟩⟩
  | custom {lexicon : Lexicon} {value : lexicon.Value} {member : lexicon.Member} {place : Nat}
      (hvalue : value.1 ∉ lexicon.values) (hopen : Vocabulary.isOpen lexicon.Member = true)
      (hraw : Vocabulary.raw member = value.1)
      (hplace : table.entries[place]? = some (lexicon.name, value.1)) :
      Holds table ⟨⟨lexicon, value⟩, .ok ⟨member, some place⟩⟩
  | refused {lexicon : Lexicon} {value : lexicon.Value} (hvalue : value.1 ∉ lexicon.values)
      (hclosed : Vocabulary.isOpen lexicon.Member = false) :
      Holds table ⟨⟨lexicon, value⟩, .error ⟨lexicon.name, value.1.quoted⟩⟩

theorem holds_read (table : InternTable) (value : lexicon.Value) :
    Reading.Holds (table.read lexicon.Member value.1).2
      ⟨⟨lexicon, value⟩, (table.read lexicon.Member value.1).1⟩ := by
  obtain ⟨entry, hknown, hread⟩ | ⟨member, hvalue, hopen, hraw, hread⟩ | ⟨hvalue, hclosed, hread⟩ :=
    read_cases table value
  · rw [hread]
    exact .named hknown
  · rw [hread]
    exact .custom hvalue hopen hraw (getElem?_intern table lexicon.name value.1)
  · rw [hread]
    exact .refused hvalue hclosed

/-- What was read before still agrees with a table that has grown. -/
theorem Reading.Holds.grow {reading : Reading} (hholds : reading.Holds table)
    (hgrows : table.entries <+: after.entries) : reading.Holds after := by
  cases hholds with
  | named hknown => exact .named hknown
  | custom hvalue hopen hraw hplace =>
    refine .custom hvalue hopen hraw ?_
    obtain ⟨more, hmore⟩ := hgrows
    obtain ⟨hlt, -⟩ := List.getElem?_eq_some_iff.mp hplace
    rw [← hmore, List.getElem?_append_left hlt, hplace]
  | refused hvalue hclosed => exact .refused hvalue hclosed

theorem prefix_read (table : InternTable) (value : lexicon.Value) :
    table.entries <+: (table.read lexicon.Member value.1).2.entries := by
  obtain ⟨entry, -, hread⟩ | ⟨member, -, -, -, hread⟩ | ⟨-, -, hread⟩ := read_cases table value
  · simp only [hread, List.prefix_rfl]
  · rw [hread]
    exact prefix_intern table lexicon.name value.1
  · simp only [hread, List.prefix_rfl]

theorem nodup_read (hnodup : table.entries.Nodup) (value : lexicon.Value) :
    (table.read lexicon.Member value.1).2.entries.Nodup := by
  obtain ⟨entry, -, hread⟩ | ⟨member, -, -, -, hread⟩ | ⟨-, -, hread⟩ := read_cases table value
  · rwa [hread]
  · rw [hread]
    exact nodup_intern hnodup
  · rwa [hread]

/-- Reading in a closed vocabulary leaves the table alone. -/
theorem read_closed (hclosed : Vocabulary.isOpen lexicon.Member = false) (value : lexicon.Value) :
    (table.read lexicon.Member value.1).2 = table := by
  obtain ⟨entry, -, hread⟩ | ⟨member, -, hopen, -, -⟩ | ⟨-, -, hread⟩ := read_cases table value
  · rw [hread]
  · rw [hclosed] at hopen
    cases hopen
  · rw [hread]

end Reading

namespace History

/-- Nothing was read yet. -/
def empty : History := ⟨.empty, []⟩

/-- One more value is read. -/
def next (history : History) (word : Word) : History :=
  let (result, table) := history.table.read word.lexicon.Member word.value.1
  ⟨table, history.readings ++ [⟨word, result⟩]⟩

/-- Several values are read one after the other. -/
abbrev run (words : List Word) : History :=
  Run.final next empty words

/-- Every custom value stands in the table once, and all that was read agrees with the table. -/
structure IsKept (history : History) : Prop where
  nodup : history.table.entries.Nodup
  holds : ∀ reading ∈ history.readings, reading.Holds history.table

theorem isKept_empty : empty.IsKept where
  nodup := List.nodup_nil
  holds reading hreading := by cases hreading

theorem IsKept.next {history : History} (hkept : history.IsKept) (word : Word) :
    (history.next word).IsKept where
  nodup := nodup_read hkept.nodup word.value
  holds reading hreading := by
    rcases List.mem_append.mp hreading with hearlier | hnew
    · exact (hkept.holds reading hearlier).grow (prefix_read history.table word.value)
    · obtain rfl := List.mem_singleton.mp hnew
      exact holds_read history.table word.value

/-- What is true of everything that was read. -/
structure IsSound (history : History) : Prop where
  /-- A member has the value that it was read from; that of a custom one stands in the table. -/
  value : ∀ {lexicon : Lexicon} {value : lexicon.Value} {found : Interned lexicon.Member},
    ⟨⟨lexicon, value⟩, .ok found⟩ ∈ history.readings → Vocabulary.raw found.member = value.1 ∧
      ∀ place, found.payload = some place →
        history.table.entries[place]? = some (lexicon.name, value.1)
  /-- The value of a predefined member is read as that member. -/
  named : ∀ {lexicon : Lexicon} {value : lexicon.Value}
    {result : Except UnrecognizedValue (Interned lexicon.Member)},
    ⟨⟨lexicon, value⟩, result⟩ ∈ history.readings → ∀ entry ∈ Vocabulary.members,
      Vocabulary.raw entry.1 = value.1 → result = .ok ⟨entry.1, none⟩
  /-- Every other value is refused by a closed vocabulary and read as a custom member by an open
  one. -/
  unnamed : ∀ {lexicon : Lexicon} {value : lexicon.Value}
    {result : Except UnrecognizedValue (Interned lexicon.Member)},
    ⟨⟨lexicon, value⟩, result⟩ ∈ history.readings → value.1 ∉ lexicon.values →
      if Vocabulary.isOpen lexicon.Member then ∃ member place, result = .ok ⟨member, some place⟩
      else result = .error ⟨lexicon.name, value.1.quoted⟩
  /-- Two members are equal if they were read from the same value, and then their hashes are. -/
  equal : ∀ {lexicon : Lexicon} {value other : lexicon.Value}
    {first second : Interned lexicon.Member},
    ⟨⟨lexicon, value⟩, .ok first⟩ ∈ history.readings →
    ⟨⟨lexicon, other⟩, .ok second⟩ ∈ history.readings →
      (first.equals second = true ↔ value = other) ∧
      (first.equals second = true → first.hashInput = second.hashInput)
  /-- Two custom members have one payload if they are of the same vocabulary and were read from the
  same value. -/
  shared : ∀ {lexicon lexicon' : Lexicon} {value : lexicon.Value} {other : lexicon'.Value}
    {first : Interned lexicon.Member} {second : Interned lexicon'.Member},
    ⟨⟨lexicon, value⟩, .ok first⟩ ∈ history.readings →
    ⟨⟨lexicon', other⟩, .ok second⟩ ∈ history.readings →
      ∀ place place', first.payload = some place → second.payload = some place' →
        (place = place' ↔ lexicon = lexicon' ∧ value.1 = other.1)

section Comparing

variable {table : InternTable} {lexicon lexicon' : Lexicon} {value other : lexicon.Value}
  {first second : Interned lexicon.Member}

theorem raw_of_holds (hholds : Reading.Holds table ⟨⟨lexicon, value⟩, .ok first⟩) :
    Vocabulary.raw first.member = value.1 := by
  cases hholds with
  | named hknown => exact raw_of_known? hknown
  | custom hvalue hopen hraw hplace => exact hraw

theorem getElem?_of_holds (hholds : Reading.Holds table ⟨⟨lexicon, value⟩, .ok first⟩) {place : Nat}
    (hpayload : first.payload = some place) :
    table.entries[place]? = some (lexicon.name, value.1) := by
  cases hholds with
  | named hknown => cases hpayload
  | custom hvalue hopen hraw hplace =>
    obtain rfl := Option.some.inj hpayload
    exact hplace

theorem known?_of_holds (hholds : Reading.Holds table ⟨⟨lexicon, value⟩, .ok first⟩)
    (hpayload : first.payload = none) :
    ∃ name, Vocabulary.known? value.1 = some (first.member, name) := by
  cases hholds with
  | named hknown => exact ⟨_, hknown⟩
  | custom hvalue hopen hraw hplace => cases hpayload

/-- A custom member never stands for the value of a predefined one. -/
theorem known?_eq_none_of_holds (hholds : Reading.Holds table ⟨⟨lexicon, value⟩, .ok first⟩)
    {place : Nat} (hpayload : first.payload = some place) :
    Vocabulary.known? (α := lexicon.Member) value.1 = none := by
  cases hholds with
  | named hknown => cases hpayload
  | custom hvalue hopen hraw hplace => exact known?_eq_none_iff.mpr hvalue

/-- Every place of the table belongs to one vocabulary and one value. -/
theorem place_eq_iff (hnodup : table.entries.Nodup) {value : lexicon.Value} {other : lexicon'.Value}
    {place place' : Nat} (hplace : table.entries[place]? = some (lexicon.name, value.1))
    (hplace' : table.entries[place']? = some (lexicon'.name, other.1)) :
    place = place' ↔ lexicon = lexicon' ∧ value.1 = other.1 := by
  constructor
  · rintro rfl
    obtain ⟨hname, hvalue⟩ := Prod.mk.inj (Option.some.inj (hplace.symm.trans hplace'))
    exact ⟨name_injective hname, hvalue⟩
  · rintro ⟨rfl, hvalue⟩
    rw [← hvalue, ← hplace] at hplace'
    obtain ⟨hlt, -⟩ := List.getElem?_eq_some_iff.mp hplace
    exact (List.getElem?_inj hlt hnodup).mp hplace'.symm

/-- Members are equal exactly if their values are. -/
theorem equals_iff (hnodup : table.entries.Nodup)
    (hfirst : Reading.Holds table ⟨⟨lexicon, value⟩, .ok first⟩)
    (hsecond : Reading.Holds table ⟨⟨lexicon, other⟩, .ok second⟩) :
    first.equals second = true ↔ value.1 = other.1 := by
  have hraw := raw_of_holds hfirst
  have hraw' := raw_of_holds hsecond
  cases hpayload : first.payload with
  | none =>
    obtain ⟨name, hknown⟩ := known?_of_holds hfirst hpayload
    cases hpayload' : second.payload with
    | none =>
      obtain ⟨name', hknown'⟩ := known?_of_holds hsecond hpayload'
      simp only [Interned.equals, hpayload, hpayload', beq_iff_eq]
      constructor
      · intro hmember
        rw [← hraw, ← hraw', hmember]
      · intro hvalue
        rw [hvalue, hknown'] at hknown
        exact (congrArg Prod.fst (Option.some.inj hknown)).symm
    | some place =>
      have hunknown := known?_eq_none_of_holds hsecond hpayload'
      simp only [Interned.equals, hpayload, hpayload', Bool.false_eq_true, false_iff]
      intro hvalue
      rw [hvalue, hunknown] at hknown
      cases hknown
  | some place =>
    have hunknown := known?_eq_none_of_holds hfirst hpayload
    cases hpayload' : second.payload with
    | none =>
      obtain ⟨name', hknown'⟩ := known?_of_holds hsecond hpayload'
      simp only [Interned.equals, hpayload, hpayload', Bool.false_eq_true, false_iff]
      intro hvalue
      rw [← hvalue, hunknown] at hknown'
      cases hknown'
    | some place' =>
      -- the comparison of the payloads finds nothing that the values do not say
      have hplaces := place_eq_iff hnodup (getElem?_of_holds hfirst hpayload)
        (getElem?_of_holds hsecond hpayload')
      simp only [Interned.equals, hpayload, hpayload', Bool.or_eq_true, beq_iff_eq, hplaces, hraw,
        hraw', true_and, or_self]

/-- Equal members are hashed alike. -/
theorem hashInput_eq (hnodup : table.entries.Nodup)
    (hfirst : Reading.Holds table ⟨⟨lexicon, value⟩, .ok first⟩)
    (hsecond : Reading.Holds table ⟨⟨lexicon, other⟩, .ok second⟩)
    (hequals : first.equals second = true) : first.hashInput = second.hashInput := by
  have hvalue := (equals_iff hnodup hfirst hsecond).mp hequals
  have hraw : Vocabulary.raw first.member = Vocabulary.raw second.member := by
    rw [raw_of_holds hfirst, raw_of_holds hsecond, hvalue]
  cases hpayload : first.payload with
  | none =>
    cases hpayload' : second.payload with
    | none =>
      simp only [Interned.equals, hpayload, hpayload', beq_iff_eq] at hequals
      simp only [Interned.hashInput, hpayload, hpayload', hequals]
    | some place => simp [Interned.equals, hpayload, hpayload'] at hequals
  | some place =>
    cases hpayload' : second.payload with
    | none => simp [Interned.equals, hpayload, hpayload'] at hequals
    | some place' => simp only [Interned.hashInput, hpayload, hpayload', hraw]

end Comparing

/-- Whatever was read agrees with everything else that was read. -/
theorem IsKept.isSound {history : History} (hkept : history.IsKept) : history.IsSound where
  value hreading :=
    ⟨raw_of_holds (hkept.holds _ hreading), fun _ => getElem?_of_holds (hkept.holds _ hreading)⟩
  named hreading entry hentry hraw := by
    have hknown := known?_of_mem _ entry hentry
    rw [hraw] at hknown
    cases hkept.holds _ hreading with
    | named hfound =>
      obtain rfl := Option.some.inj (hfound.symm.trans hknown)
      rfl
    | custom hvalue | refused hvalue =>
      rw [known?_eq_none_iff.mpr hvalue] at hknown
      cases hknown
  unnamed hreading hvalue := by
    cases hkept.holds _ hreading with
    | named hknown =>
      rw [known?_eq_none_iff.mpr hvalue] at hknown
      cases hknown
    | custom _ hopen =>
      rw [if_pos hopen]
      exact ⟨_, _, rfl⟩
    | refused _ hclosed =>
      rw [hclosed]
      rfl
  equal hfirst hsecond := by
    have hfirst := hkept.holds _ hfirst
    have hsecond := hkept.holds _ hsecond
    refine ⟨?_, hashInput_eq hkept.nodup hfirst hsecond⟩
    rw [equals_iff hkept.nodup hfirst hsecond, Subtype.ext_iff]
  shared hfirst hsecond _ _ hplace hplace' :=
    place_eq_iff hkept.nodup (getElem?_of_holds (hkept.holds _ hfirst) hplace)
      (getElem?_of_holds (hkept.holds _ hsecond) hplace')

/-- For every sequence of readings in all vocabularies: there is one reading for each value that was
given, and all of them are sound. Reading in a closed vocabulary leaves the table alone. -/
theorem isSound_readings (words : List Word) :
    (run words).readings.map Reading.word = words ∧ (run words).IsSound ∧
      ∀ word, Vocabulary.isOpen word.lexicon.Member = false →
        (run (words ++ [word])).table = (run words).table := by
  refine ⟨?_, ?_, fun word hclosed => ?_⟩
  · induction words using List.reverseRecOn with
    | nil => rfl
    | append_singleton words word ih =>
      rw [run, Run.final_concat, History.next, List.map_append, ih]
      rfl
  · have hkept : (run words).IsKept :=
      Run.final_induction next empty isKept_empty (fun _ word h => h.next word) words
    exact hkept.isSound
  · rw [run, Run.final_concat]
    exact read_closed hclosed word.value

/-- A text that no vocabulary knows, read in two vocabularies and once more in the first one. -/
example : (run [⟨.codeActionKind, ⟨.text "x", rfl⟩⟩, ⟨.positionEncoding, ⟨.text "x", rfl⟩⟩,
    ⟨.codeActionKind, ⟨.text "x", rfl⟩⟩]).readings = [
      ⟨⟨.codeActionKind, ⟨.text "x", rfl⟩⟩, .ok ⟨CodeActionKind.custom "x", some 0⟩⟩,
      ⟨⟨.positionEncoding, ⟨.text "x", rfl⟩⟩, .ok ⟨PositionEncoding.custom "x", some 1⟩⟩,
      ⟨⟨.codeActionKind, ⟨.text "x", rfl⟩⟩, .ok ⟨CodeActionKind.custom "x", some 0⟩⟩] :=
  rfl

end History

end LanguageClient.Lexicon
