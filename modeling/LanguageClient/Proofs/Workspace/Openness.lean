import Mathlib.Data.List.Chain
import LanguageClient.Proofs.Protocol.Wire
import LanguageClient.Proofs.Workspace.Telling

/-!
# Which documents a server has open

From the notices that a client is sent a server knows for each address whether a document is open
there. The notices of one address come in turns, and agree with the workspace, exactly as long as no
document is closed that the workspace does not have at its address.
-/

namespace LanguageClient

/-- What a message says about an address: a document is open there now, or none is. -/
def Message.openness? (uri : String) : Message → Option Bool
  | .notification ⟨_, method, some params⟩ =>
    if method = "textDocument/didOpen" then
      (decode? params : Option DidOpenParams).bind fun params =>
        if params.document.uri = uri then some true else none
    else if method = "textDocument/didClose" then
      (decode? params : Option DidCloseParams).bind fun params =>
        if params.document.uri = uri then some false else none
    else none
  | _ => none

/-- What messages say about an address, in order. -/
def opennessAt (uri : String) (messages : List Message) : List Bool :=
  messages.filterMap (Message.openness? uri)

/-- Opening and closing come in turns, and opening comes first. -/
def Alternates (flags : List Bool) : Prop :=
  (false :: flags).IsChain (· ≠ ·)

/-- Whether a server has a document open after it was told so often that it is opened or closed. -/
def isOpenAfter (flags : List Bool) : Bool :=
  flags.getLast?.getD false

/-- The notices of an address come in turns, and a server has a document open there exactly if the
workspace has one. -/
structure Consistent (session : Session) (messages : List Message) (uri : String) : Prop where
  alternates : Alternates (opennessAt uri messages)
  open_eq : isOpenAfter (opennessAt uri messages) = (session.openAt? uri).isSome

section Flags

/-- One more notice has to say something else than the last one. -/
theorem alternates_concat (flags : List Bool) (flag : Bool) :
    Alternates (flags ++ [flag]) ↔ Alternates flags ∧ isOpenAfter flags ≠ flag := by
  rcases List.eq_nil_or_concat flags with rfl | ⟨init, last, rfl⟩
  · simp [Alternates, isOpenAfter]
  · have hsplit : false :: (init ++ [last] ++ [flag]) = (false :: init) ++ last :: flag :: [] := by
      rw [List.append_assoc, List.cons_append]
      rfl
    rw [List.concat_eq_append, Alternates, hsplit, List.isChain_append_cons_cons]
    simp [Alternates, isOpenAfter]

@[simp] theorem isOpenAfter_concat (flags : List Bool) (flag : Bool) :
    isOpenAfter (flags ++ [flag]) = flag := by
  rw [isOpenAfter, List.getLast?_concat, Option.getD_some]

theorem openness?_didOpen (document : TextDocument) (uri : String) :
    (Message.didOpen document).openness? uri = if document.uri = uri then some true else none := by
  simp only [Message.didOpen, Message.openness?, if_true, decode?_encode, Option.bind_some]
  rfl

theorem openness?_didClose (address uri : String) :
    (Message.didClose address).openness? uri = if address = uri then some false else none := by
  simp only [Message.didClose, Message.openness?, decode?_encode, Option.bind_some]
  rfl

/-- A server hears what the turn says about an address. -/
theorem Turn.IsTold.opennessAt_eq {turn : Turn} {options : SyncOptions} {messages : List Message}
    (htold : turn.IsTold options messages) (uri : String) :
    opennessAt uri messages = (turn.openness? uri).toList := by
  cases turn with
  | opened document =>
    obtain rfl := htold
    by_cases huri : document.uri = uri <;>
      simp [opennessAt, openness?_didOpen, Turn.openness?, huri]
  | closed document isStray =>
    obtain rfl := htold
    by_cases huri : document.uri = uri <;>
      simp [opennessAt, openness?_didClose, Turn.openness?, huri]
  | changed id change =>
    rcases htold with ⟨rfl, -⟩ | rfl | rfl <;> rfl
  | quiet | filed | queued | shadowed =>
    obtain rfl := htold
    rfl

end Flags

section Shifts

variable {session after : Session} {turn : Turn} {messages more : List Message}
  {options : SyncOptions} {uri : String}

/-- What was said about an address cannot be set right any more: notices did not come in turns, or
the last one said that the document is closed which the workspace still has there. -/
def IsOff (session : Session) (messages : List Message) (uri : String) : Prop :=
  ¬ Alternates (opennessAt uri messages) ∨
    isOpenAfter (opennessAt uri messages) = false ∧ (session.openAt? uri).isSome = true

theorem IsOff.not_consistent (hoff : IsOff session messages uri) :
    ¬ Consistent session messages uri := by
  intro hconsistent
  rcases hoff with hturns | ⟨hclosed, hopen⟩
  · exact hturns hconsistent.alternates
  · rw [hconsistent.open_eq, hopen] at hclosed
    cases hclosed

theorem opennessAt_append (uri : String) (messages more : List Message) :
    opennessAt uri (messages ++ more) = opennessAt uri messages ++ opennessAt uri more :=
  List.filterMap_append

/-- What is said about an address, and what becomes of it: a document comes or goes there, a stray
one is closed, or nothing happens. -/
theorem Shift.openness_cases (hshift : Shift session turn after) (htidy : Tidy session)
    (uri : String) :
    (turn.openness? uri = some true ∧ (session.openAt? uri).isSome = false ∧
      (after.openAt? uri).isSome = true) ∨
    (turn.openness? uri = some false ∧ (session.openAt? uri).isSome = true ∧
      (after.openAt? uri).isSome = false) ∨
    (turn.openness? uri = some false ∧ turn.isStray = true ∧
      after.openAt? uri = session.openAt? uri) ∨
    (turn.openness? uri = none ∧ after.openAt? uri = session.openAt? uri) := by
  rcases hshift.openAt?_cases htidy with ⟨document, id, rfl, hnone, hafter⟩ |
    ⟨document, id, rfl, hsome, hafter⟩ | ⟨⟨document, rfl⟩ | hsilent, hafter⟩
  · by_cases huri : document.uri = uri
    · subst huri
      exact Or.inl ⟨if_pos rfl, by rw [hnone]; rfl, by rw [hafter, if_pos rfl]; rfl⟩
    · exact Or.inr (Or.inr (Or.inr ⟨if_neg huri, by rw [hafter, if_neg (Ne.symm huri)]⟩))
  · by_cases huri : document.uri = uri
    · subst huri
      exact Or.inr (Or.inl ⟨if_pos rfl, by rw [hsome]; rfl, by rw [hafter, if_pos rfl]; rfl⟩)
    · exact Or.inr (Or.inr (Or.inr ⟨if_neg huri, by rw [hafter, if_neg (Ne.symm huri)]⟩))
  · by_cases huri : document.uri = uri
    · exact Or.inr (Or.inr (Or.inl ⟨if_pos huri, rfl, hafter uri⟩))
    · exact Or.inr (Or.inr (Or.inr ⟨if_neg huri, hafter uri⟩))
  · exact Or.inr (Or.inr (Or.inr ⟨hsilent uri, hafter uri⟩))

/-- A shift that closes no stray document keeps the notices of every address consistent. -/
theorem Consistent.shift (hconsistent : Consistent session messages uri)
    (hshift : Shift session turn after) (htidy : Tidy session)
    (htold : turn.IsTold options more) (hstray : turn.isStray = false) :
    Consistent after (messages ++ more) uri := by
  obtain ⟨halternates, hopen⟩ := hconsistent
  have hmore := htold.opennessAt_eq uri
  rcases hshift.openness_cases htidy uri with ⟨hsaid, hbefore, hafter⟩ |
    ⟨hsaid, hbefore, hafter⟩ | ⟨-, hclosed, -⟩ | ⟨hsaid, hafter⟩
  · rw [hsaid] at hmore
    constructor <;> rw [opennessAt_append, hmore, Option.toList_some]
    · exact (alternates_concat _ _).mpr ⟨halternates, by rw [hopen, hbefore]; decide⟩
    · rw [isOpenAfter_concat, hafter]
  · rw [hsaid] at hmore
    constructor <;> rw [opennessAt_append, hmore, Option.toList_some]
    · exact (alternates_concat _ _).mpr ⟨halternates, by rw [hopen, hbefore]; decide⟩
    · rw [isOpenAfter_concat, hafter]
  · rw [hstray] at hclosed
    cases hclosed
  · rw [hsaid] at hmore
    constructor <;> rw [opennessAt_append, hmore, Option.toList_none, List.append_nil]
    · exact halternates
    · rw [hopen, hafter]

/-- Closing a stray document spoils the notices of its address. -/
theorem Consistent.isOff_of_stray {document : TextDocument}
    (hconsistent : Consistent session messages document.uri)
    (hshift : Shift session (.closed document true) after) (htidy : Tidy session)
    (htold : (Turn.closed document true).IsTold options more) :
    IsOff after (messages ++ more) document.uri := by
  have hmore : opennessAt document.uri more = [false] :=
    (htold.opennessAt_eq document.uri).trans (by rw [Turn.openness?, if_pos rfl]; rfl)
  have hafter : after.openAt? document.uri = session.openAt? document.uri := by
    rcases hshift.openAt?_cases htidy with ⟨_, _, hturn, -⟩ | ⟨_, _, hturn, -⟩ | ⟨-, hafter⟩
    · cases hturn
    · cases hturn
    · exact hafter document.uri
  rw [IsOff, opennessAt_append, hmore, isOpenAfter_concat, alternates_concat, hafter,
    hconsistent.open_eq]
  cases (session.openAt? document.uri).isSome with
  | false => exact Or.inl fun h => h.2 rfl
  | true => exact Or.inr ⟨rfl, rfl⟩

/-- What is spoiled stays so. -/
theorem IsOff.shift (hoff : IsOff session messages uri) (hshift : Shift session turn after)
    (htidy : Tidy session) (htold : turn.IsTold options more) :
    IsOff after (messages ++ more) uri := by
  have hmore := htold.opennessAt_eq uri
  rw [IsOff, opennessAt_append, hmore]
  rcases hshift.openness_cases htidy uri with ⟨hsaid, hbefore, hafter⟩ |
    ⟨hsaid, hbefore, hafter⟩ | ⟨hsaid, hstray, hafter⟩ | ⟨hsaid, hafter⟩
  all_goals
    rw [hsaid]
    simp only [Option.toList_some, Option.toList_none, List.append_nil, alternates_concat,
      isOpenAfter_concat, hafter]
  · rcases hoff with hturns | ⟨-, hopen⟩
    · exact Or.inl fun h => hturns h.1
    · rw [hbefore] at hopen
      cases hopen
  · rcases hoff with hturns | ⟨hclosed, -⟩
    · exact Or.inl fun h => hturns h.1
    · exact Or.inl fun h => h.2 hclosed
  · rcases hoff with hturns | ⟨hclosed, -⟩
    · exact Or.inl fun h => hturns h.1
    · exact Or.inl fun h => h.2 hclosed
  · exact hoff

/-- Whether the notices are consistent, or those of some address are spoiled. -/
def Judged (session : Session) (messages : List Message) : (isSpoiled : Bool) → Prop
  | false => ∀ uri, Consistent session messages uri
  | true => ∃ uri, IsOff session messages uri

theorem Judged.consistent_iff {isSpoiled : Bool} (hjudged : Judged session messages isSpoiled) :
    (∀ uri, Consistent session messages uri) ↔ isSpoiled = false := by
  cases isSpoiled with
  | false => exact ⟨fun _ => rfl, fun _ => hjudged⟩
  | true =>
    obtain ⟨uri, hoff⟩ := hjudged
    exact ⟨fun h => absurd (h uri) hoff.not_consistent, fun h => by cases h⟩

/-- A shift spoils the notices exactly if it closes a stray document. -/
theorem Judged.shift {isSpoiled : Bool} (hjudged : Judged session messages isSpoiled)
    (hshift : Shift session turn after) (htidy : Tidy session)
    (htold : turn.IsTold options more) :
    Judged after (messages ++ more) (isSpoiled || turn.isStray) := by
  cases isSpoiled with
  | true =>
    obtain ⟨uri, hoff⟩ := hjudged
    exact ⟨uri, hoff.shift hshift htidy htold⟩
  | false =>
    cases hstray : turn.isStray with
    | false => exact fun uri => (hjudged uri).shift hshift htidy htold hstray
    | true =>
      cases turn with
      | closed document isStray =>
        obtain rfl : isStray = true := hstray
        exact ⟨document.uri, (hjudged document.uri).isOff_of_stray hshift htidy htold⟩
      | _ => cases hstray

variable {place : Nat} {client : Client}

/-- Several shifts spoil the notices exactly if one of them closes a stray document. -/
theorem Judged.path {turns : List Turn} {isSpoiled : Bool}
    (hjudged : Judged session messages isSpoiled) (hpath : Path session turns after)
    (htidy : Tidy session) (hfollows : client.Follows options)
    (htold : Told session place client messages) :
    ∃ later, Told after place client later ∧
      Judged after later (isSpoiled || turns.any Turn.isStray) := by
  induction hpath generalizing messages isSpoiled with
  | nil => exact ⟨messages, htold, by rwa [List.any_nil, Bool.or_false]⟩
  | cons hshift _ ih =>
    obtain ⟨more, hmore, htold'⟩ := hshift.told hfollows htold
    rw [List.any_cons, ← Bool.or_assoc]
    exact ih (hjudged.shift hshift htidy hmore) (hshift.tidy htidy) htold'

end Shifts

namespace Desk

/-- Whether some operation closes a document that the workspace does not have at its address. -/
def straysIn : Desk → List Operation → Bool
  | _, [] => false
  | desk, operation :: rest => desk.strays operation || (desk.perform operation).straysIn rest

variable {place : Nat} {client : Client} {options : SyncOptions} {messages : List Message}

/-- Operations spoil the notices exactly if one of them closes a stray document. -/
theorem judged_run {desk : Desk} {isSpoiled : Bool} (htidy : Tidy desk.session)
    (hfollows : client.Follows options) (htold : Told desk.session place client messages)
    (hjudged : Judged desk.session messages isSpoiled) {operations : List Operation}
    (hattach : ∀ operation ∈ operations, operation.isAttach = false) :
    ∃ later, Told (desk.performAll operations).session place client later ∧
      Judged (desk.performAll operations).session later
        (isSpoiled || desk.straysIn operations) := by
  induction operations generalizing desk messages isSpoiled with
  | nil => exact ⟨messages, htold, by rwa [straysIn, Bool.or_false]⟩
  | cons operation rest ih =>
    obtain ⟨turns, hpath, haccount⟩ :=
      path_perform htidy operation (hattach operation List.mem_cons_self)
    obtain ⟨later, htold', hjudged'⟩ := hjudged.path hpath htidy hfollows htold
    rw [haccount.stray] at hjudged'
    rw [straysIn, ← Bool.or_assoc]
    exact ih (hpath.tidy htidy) htold' hjudged' fun other hother =>
      hattach other (List.mem_cons_of_mem _ hother)

/-- Of documents at different addresses each is said to be open once. -/
theorem opennessAt_didOpen {documents : List TextDocument} {entries : List (String × Nat)}
    (hnodup : (entries.map Prod.fst).Nodup)
    (hlive : ∀ uri id, (uri, id) ∈ entries →
      ∃ document, documents[id]? = some document ∧ document.uri = uri) (uri : String) :
    opennessAt uri ((entries.filterMap fun entry => documents[entry.2]?).map Message.didOpen) =
      if (entries.lookup uri).isSome then [true] else [] := by
  induction entries with
  | nil => rfl
  | cons entry rest ih =>
    obtain ⟨name, id⟩ := entry
    obtain ⟨document, hdocument, rfl⟩ := hlive name id List.mem_cons_self
    obtain ⟨hfresh, hrest⟩ := List.nodup_cons.mp hnodup
    have ih := ih hrest fun uri id hmem => hlive uri id (List.mem_cons_of_mem _ hmem)
    have hcons : (((document.uri, id) :: rest).filterMap fun entry => documents[entry.2]?) =
        document :: rest.filterMap fun entry => documents[entry.2]? := by
      rw [List.filterMap_cons, hdocument]
    rw [hcons, List.map_cons, lookup_cons_ite]
    by_cases huri : uri = document.uri
    · subst huri
      have hnone : opennessAt document.uri
          ((rest.filterMap fun entry => documents[entry.2]?).map Message.didOpen) = [] := by
        rw [ih, lookup_eq_none_of_not_mem hfresh]
        rfl
      rw [opennessAt, List.filterMap_cons_some ((openness?_didOpen _ _).trans (if_pos rfl)),
        if_pos rfl, ← opennessAt, hnone]
      rfl
    · rw [opennessAt, List.filterMap_cons_none
        ((openness?_didOpen _ _).trans (if_neg (Ne.symm huri))), if_neg huri, ← opennessAt, ih]

/-- A client that is attached has heard of exactly the addresses at which a document is open. -/
theorem consistent_shelved {session : Session} (htidy : Tidy session) (place : Nat) (uri : String) :
    Consistent (session.attach place) (session.shelved.map Message.didOpen) uri := by
  have hflags : opennessAt uri (session.shelved.map Message.didOpen) =
      if (session.openAt? uri).isSome then [true] else [] := by
    rw [Session.openAt?_eq_lookup]
    exact opennessAt_didOpen htidy.nodup htidy.exists_of_mem uri
  constructor
  · rw [hflags]
    split <;> simp [Alternates]
  · rw [hflags, openAt?_attach htidy.here]
    cases (session.openAt? uri).isSome <;> rfl

/-- For every run in which one client is attached once: the notices of each address that it is sent
come in turns, and agree with the workspace, exactly if no operation from then on closes a document
that the workspace does not have at its address. -/
theorem consistent_iff_not_straysIn (files : FileTree) {clients : List Client} (root : String)
    (encoding : PositionEncoding) (hclient : clients[place]? = some client)
    (hfollows : client.Follows options) {before after : List Operation}
    (hbefore : ∀ operation ∈ before, operation.isAttach = false)
    (hafter : ∀ operation ∈ after, operation.isAttach = false) :
    (∀ uri, Consistent
        ((begin files clients root encoding).performAll (before ++ .attach place :: after)).session
        (((begin files clients root encoding).performAll
          (before ++ .attach place :: after)).sent place client.outbox.length) uri) ↔
      (((begin files clients root encoding).performAll before).perform (.attach place)).straysIn
        after = false := by
  have htidy := tidy_run (tidy_begin files clients root encoding) before
  have huntold := untold_run (tidy_begin files clients root encoding)
    (untold_begin files root encoding hclient) hbefore
  have hjudged : Judged (((begin files clients root encoding).performAll before).perform
      (.attach place)).session _ false := fun uri => consistent_shelved htidy place uri
  obtain ⟨messages, htold, hfinal⟩ := judged_run (htidy.attach place) hfollows
    (huntold.attach hfollows) hjudged hafter
  rw [performAll_append_cons, sent_eq htold]
  exact hfinal.consistent_iff

/-- A run in which a document is opened again beside a newer copy, and is then closed. -/
def reopensBeside : List Operation :=
  [.openDocument "a" none, .release 0, .openDocument "a" none, .reopen 0, .release 0]

/-- The run meets the conditions, so its notices are consistent exactly if it closes no stray
document. -/
theorem consistent_iff_of_reopensBeside :
    [Sample.client][0]? = some Sample.client ∧
    Sample.client.Follows (DocumentSync.kind .incremental).toOptions ∧
    (∀ operation ∈ reopensBeside, operation.isAttach = false) ∧
    ((∀ uri, Consistent
        ((begin Sample.files [Sample.client] "/w" .utf16).performAll
          ([] ++ .attach 0 :: reopensBeside)).session
        (((begin Sample.files [Sample.client] "/w" .utf16).performAll
          ([] ++ .attach 0 :: reopensBeside)).sent 0 Sample.client.outbox.length) uri) ↔
      (((begin Sample.files [Sample.client] "/w" .utf16).performAll []).perform
        (.attach 0)).straysIn reopensBeside = false) :=
  have hoperations : ∀ operation ∈ reopensBeside, operation.isAttach = false := by decide
  ⟨rfl, Sample.follows_client, hoperations,
    consistent_iff_not_straysIn Sample.files "/w" .utf16 rfl Sample.follows_client
      (fun _ hmem => by cases hmem) hoperations⟩

/-- In that run the server hears last that the newer copy is closed, which the workspace still
has. -/
theorem not_consistent_of_reopensBeside :
    Sample.client.Follows (DocumentSync.kind .incremental).toOptions ∧
    ¬ Consistent
      ((begin Sample.files [Sample.client] "/w" .utf16).performAll
        (.attach 0 :: reopensBeside)).session
      (((begin Sample.files [Sample.client] "/w" .utf16).performAll
        (.attach 0 :: reopensBeside)).sent 0 Sample.client.outbox.length) "file:///w/a" := by
  refine ⟨Sample.follows_client, fun hconsistent => ?_⟩
  have hflags : opennessAt "file:///w/a"
      (((begin Sample.files [Sample.client] "/w" .utf16).performAll
        (.attach 0 :: reopensBeside)).sent 0 Sample.client.outbox.length) =
      [true, false, true, false] := by decide +kernel
  have hopen : ((begin Sample.files [Sample.client] "/w" .utf16).performAll
      (.attach 0 :: reopensBeside)).session.openAt? "file:///w/a" = some 1 := by decide +kernel
  have hagree := hconsistent.open_eq
  rw [hflags, hopen] at hagree
  cases hagree

end Desk

end LanguageClient
