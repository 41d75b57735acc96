import LanguageClient.Proofs.Client.Exchanges
import LanguageClient.Proofs.Fields

/-!
# What a client keeps for a request

Whether a request is outstanding, whether it has an outcome and how often the server was told that
it was given up follows from how far the request has come and from the news that has reached it.
Every move of a request keeps this for the request and leaves the others alone, and news keeps it
for all of them.
-/

namespace LanguageClient.Correlation

/-- The number of the request that a message gives up. -/
def cancelledNumber? : Message → Option Int
  | .notification ⟨_, method, some params⟩ =>
    match params.get? "id" with
    | some (.int value) => if method = Client.cancelMethod then some value else none
    | _ => none
  | _ => none

/-- How often the server was told that a request was given up. -/
def cancels (client : Client) (id : Nat) : Nat :=
  client.outbox.countP fun message => cancelledNumber? message == some (id : Int)

/-- How often the server is told that a request was given up that has come so far. -/
def Phase.cancels : Phase → Nat
  | .ended (.timedOut true) => 1
  | _ => 0

/-- A request that goes from one phase to a like one needs nothing else to be kept for it. -/
structure Phase.Like (before phase : Phase) : Prop where
  isOpen_eq : phase.isOpen = before.isOpen
  ne_numbered : phase ≠ .numbered
  wasNoted_eq : phase.wasNoted = before.wasNoted
  not_answered : ∀ response, phase ≠ .ended (.answered response)
  cancels_eq : phase.cancels = before.cancels

/-- What the client keeps for a request fits how far the request has come and what has reached
it. -/
structure Exchange.Agrees (client : Client) (exchange : Exchange) : Prop where
  number : exchange.id < client.nextId
  outstanding_iff : exchange.id ∈ client.outstanding ↔
    exchange.phase.isOpen = true ∧ exchange.news = []
  outcome : exchange.phase.isOpen = true ∨ exchange.phase = .numbered →
    client.outcomes.lookup exchange.id = exchange.news.head?.map (News.response exchange.id)
  unheard : exchange.phase.wasNoted = false → exchange.news = []
  answered : ∀ response, exchange.phase = .ended (.answered response) →
    exchange.news.head?.map (News.response exchange.id) = some response
  told : cancels client exchange.id = exchange.phase.cancels

/-- What a client keeps is the same as before, except for one request. -/
structure SameExcept (id : Nat) (client after : Client) : Prop where
  nextId : after.nextId = client.nextId
  outstanding : ∀ other, other ≠ id → (other ∈ after.outstanding ↔ other ∈ client.outstanding)
  outcomes : ∀ other, other ≠ id → after.outcomes.lookup other = client.outcomes.lookup other
  cancels : ∀ other, other ≠ id → cancels after other = cancels client other

section Messages

variable {client : Client} {id : Nat}

/-- A message that gives up no request does not count. -/
theorem cancels_send {after : Client} {message : Message}
    (hmessage : cancelledNumber? message = none) (hsend : client.send message = .ok after)
    (id : Nat) : cancels after id = cancels client id := by
  unfold Client.send at hsend
  split at hsend
  · obtain rfl := Except.ok.inj hsend
    simp [cancels, List.countP_append, hmessage]
  · cases hsend

theorem cancels_sendExit (client : Client) (id : Nat) :
    cancels client.sendExit id = cancels client id := by
  unfold Client.sendExit Client.trySend
  split
  · rename_i after hsend
    exact cancels_send rfl hsend id
  · rfl

/-- Telling the server to exit changes nothing else. -/
theorem sendExit_keeps (client : Client) :
    client.sendExit.nextId = client.nextId ∧
    client.sendExit.outstanding = client.outstanding ∧
    client.sendExit.outcomes = client.outcomes ∧
    client.sendExit.isTerminated = client.isTerminated := by
  unfold Client.sendExit Client.trySend Client.send
  cases client.isSending <;> exact ⟨rfl, rfl, rfl, rfl⟩

/-- Telling the server that a request was given up counts once, if it can be told. -/
theorem cancels_tellCancelled (client : Client) (id other : Nat) :
    cancels (client.tellCancelled id) other =
      cancels client other + if client.isSending ∧ other = id then 1 else 0 := by
  unfold Client.tellCancelled Client.trySend Client.send
  cases hsending : client.isSending with
  | false => simp
  | true =>
    have hnumber : cancelledNumber? (.notification ⟨protocolVersion, Client.cancelMethod,
        some (Json.object [("id", .int id)])⟩) = some (id : Int) := rfl
    simp only [if_true, cancels, List.countP_append, List.countP_singleton, hnumber, true_and]
    by_cases hother : other = id
    · simp [hother]
    · have hne : ¬ (id : Int) = other := fun heq => hother (Int.ofNat.inj heq).symm
      simp [hother, hne]

/-- Telling the server something changes nothing else. -/
theorem tellCancelled_keeps (client : Client) (id : Nat) :
    (client.tellCancelled id).nextId = client.nextId ∧
    (client.tellCancelled id).outstanding = client.outstanding ∧
    (client.tellCancelled id).outcomes = client.outcomes ∧
    (client.tellCancelled id).isTerminated = client.isTerminated := by
  unfold Client.tellCancelled Client.trySend Client.send
  cases client.isSending <;> exact ⟨rfl, rfl, rfl, rfl⟩

end Messages

/-- Looking up in a list of numbers with something for each of them. -/
private theorem lookup_map_pair {α : Type} (value : Nat → α) (ids : List Nat) (id : Nat) :
    (ids.map fun id => (id, value id)).lookup id =
      if id ∈ ids then some (value id) else none := by
  induction ids with
  | nil => rfl
  | cons first rest ih =>
    rw [List.map_cons, lookup_cons_ite, ih]
    by_cases hid : id = first
    · subst hid
      simp
    · simp [hid]

section Moves

variable {client after : Client} {exchange : Exchange}

theorem SameExcept.refl (id : Nat) (client : Client) : SameExcept id client client :=
  ⟨rfl, fun _ _ => Iff.rfl, fun _ _ => rfl, fun _ _ => rfl⟩

/-- What fits a request depends only on what the client keeps for that request. -/
theorem Exchange.Agrees.congr (hagrees : exchange.Agrees client)
    (hnext : client.nextId ≤ after.nextId)
    (houtstanding : exchange.id ∈ after.outstanding ↔ exchange.id ∈ client.outstanding)
    (houtcomes : after.outcomes.lookup exchange.id = client.outcomes.lookup exchange.id)
    (hcancels : cancels after exchange.id = cancels client exchange.id) :
    exchange.Agrees after where
  number := Nat.lt_of_lt_of_le hagrees.number hnext
  outstanding_iff := houtstanding.trans hagrees.outstanding_iff
  outcome hopen := houtcomes.trans (hagrees.outcome hopen)
  unheard := hagrees.unheard
  answered := hagrees.answered
  told := hcancels.trans hagrees.told

/-- A request that goes on to a like phase, while the client keeps the same for it, fits. -/
theorem Exchange.Agrees.like (hagrees : exchange.Agrees client) {phase : Phase}
    (hlike : exchange.phase.Like phase) : { exchange with phase }.Agrees client where
  number := hagrees.number
  outstanding_iff := by
    rw [hlike.isOpen_eq]
    exact hagrees.outstanding_iff
  outcome h := hagrees.outcome (Or.inl (hlike.isOpen_eq ▸ h.resolve_right hlike.ne_numbered))
  unheard h := hagrees.unheard (hlike.wasNoted_eq.symm.trans h)
  answered response h := absurd h (hlike.not_answered response)
  told := hagrees.told.trans hlike.cancels_eq.symm

/-- What a move does: the client keeps the same for all other requests, what it keeps for this one
fits its new phase, and nothing becomes outstanding twice or on a connection that went away. -/
structure Moved (client after : Client) (exchange : Exchange) (phase : Phase) : Prop where
  same : SameExcept exchange.id client after
  agrees : { exchange with phase }.Agrees after
  nodup : client.outstanding.Nodup → after.outstanding.Nodup
  isTerminated : after.isTerminated = client.isTerminated
  terminated : client.isTerminated = true → client.outstanding = [] → after.outstanding = []

/-- A request that goes on to a like phase on its own does not change the client. -/
theorem Moved.alone (hagrees : exchange.Agrees client) {phase : Phase}
    (hlike : exchange.phase.Like phase) : Moved client client exchange phase :=
  ⟨.refl _ _, hagrees.like hlike, id, rfl, fun _ h => h⟩

/-- Noting a request that was not noted yet makes it outstanding. -/
theorem Moved.note (hagrees : exchange.Agrees client) (hphase : exchange.phase = .numbered)
    (hnote : client.note exchange.id = .ok after) : Moved client after exchange .noted := by
  unfold Client.note at hnote
  split at hnote
  · cases hnote
  · rename_i hrunning
    obtain rfl := Except.ok.inj hnote
    have hunheard := hagrees.unheard (by rw [hphase]; rfl)
    have hout : exchange.id ∉ client.outstanding := by
      intro hmem
      have hopen := (hagrees.outstanding_iff.mp hmem).1
      rw [hphase] at hopen
      cases hopen
    constructor
    · exact ⟨rfl, fun other hne => by simp [hne], fun _ _ => rfl, fun _ _ => rfl⟩
    · exact {
        number := hagrees.number
        outstanding_iff := by simp [hunheard, Phase.isOpen]
        outcome := fun _ => hagrees.outcome (Or.inr hphase)
        unheard := fun h => by cases h
        answered := fun _ h => by cases h
        told := hagrees.told.trans (by rw [hphase]; rfl) }
    · intro hnodup
      refine List.nodup_append.mpr
        ⟨hnodup, (List.nodup_cons.mpr ⟨List.not_mem_nil, List.nodup_nil⟩), ?_⟩
      intro a ha b hb
      obtain rfl := List.mem_singleton.mp hb
      rintro rfl
      exact hout ha
    · rfl
    · intro hterminated
      exact absurd hterminated hrunning

/-- A request that was handed over waits. -/
theorem Moved.handOver (hagrees : exchange.Agrees client) (hphase : exchange.phase = .noted)
    (hsend : client.sendRequest exchange.id exchange.method exchange.params = .ok after) :
    Moved client after exchange .sent := by
  have hcancels := cancels_send rfl hsend
  unfold Client.sendRequest Client.send at hsend
  split at hsend
  · obtain rfl := Except.ok.inj hsend
    have hsame : exchange.Agrees { client with outbox := client.outbox ++
        [.request ⟨protocolVersion, .number (UInt64.ofNat exchange.id), exchange.method,
          exchange.params⟩] } :=
      hagrees.congr (Nat.le_refl _) Iff.rfl rfl (hcancels exchange.id)
    refine ⟨⟨rfl, fun _ _ => Iff.rfl, fun _ _ => rfl, fun other _ => hcancels other⟩, ?_, id, rfl,
      fun _ h => h⟩
    have hlike : exchange.phase.Like .sent := hphase ▸ ⟨rfl, nofun, rfl, nofun, rfl⟩
    exact hsame.like hlike
  · cases hsend

/-- A request that is withdrawn is no longer outstanding. -/
theorem Moved.withdraw (hagrees : exchange.Agrees client) {phase : Phase}
    (hopen : phase.isOpen = false) (hnumbered : phase ≠ .numbered)
    (hnoted : phase.wasNoted = true) (hanswered : ∀ response, phase ≠ .ended (.answered response))
    (hcancels : phase.cancels = exchange.phase.cancels) :
    Moved client (client.withdraw exchange.id) exchange phase := by
  constructor
  · refine ⟨rfl, ?_, fun _ _ => rfl, fun _ _ => rfl⟩
    intro other hne
    simp [Client.withdraw, hne]
  · exact {
      number := hagrees.number
      outstanding_iff := by simp [Client.withdraw, hopen]
      outcome := fun h => by
        rcases h with h | h
        · rw [hopen] at h
          cases h
        · exact absurd h hnumbered
      unheard := fun h => by
        rw [hnoted] at h
        cases h
      answered := fun response h => absurd h (hanswered response)
      told := hagrees.told.trans hcancels.symm }
  · exact fun hnodup => hnodup.filter _
  · rfl
  · intro _ hnone
    simp [Client.withdraw, hnone]

/-- The caller of a request gets the first news that has reached it. -/
theorem Moved.collect (hagrees : exchange.Agrees client) (hphase : exchange.phase = .sent)
    {response : Response}
    (htake : client.takeOutcome? exchange.id = some (response, after)) :
    Moved client after exchange (.ended (.answered response)) := by
  unfold Client.takeOutcome? at htake
  obtain ⟨found, hlookup, heq⟩ := Option.map_eq_some_iff.mp htake
  obtain ⟨rfl, rfl⟩ := Prod.mk.inj heq
  have hnews := (hagrees.outcome (Or.inl (by rw [hphase]; rfl))).symm.trans hlookup
  constructor
  · refine ⟨rfl, fun _ _ => Iff.rfl, ?_, fun _ _ => rfl⟩
    intro other hne
    exact (lookup_filter_ne exchange.id other client.outcomes).trans (if_neg hne)
  · exact {
      number := hagrees.number
      outstanding_iff := by
        have hheard : exchange.news ≠ [] := by
          intro hnil
          rw [hnil] at hnews
          cases hnews
        have hout := mt hagrees.outstanding_iff.mp (fun h => hheard h.2)
        exact ⟨fun h => absurd h hout, fun h => by cases h.1⟩
      outcome := fun h => by rcases h with h | h <;> cases h
      unheard := fun h => by cases h
      answered := fun _ h => by
        obtain rfl := Ending.answered.inj (Phase.ended.inj h)
        exact hnews
      told := hagrees.told.trans (by rw [hphase]; rfl) }
  · exact id
  · rfl
  · exact fun _ hnone => hnone

/-- A request that was withdrawn is given up for good, whether the server can be told so or not. -/
theorem Moved.tell (hagrees : exchange.Agrees client) (hphase : exchange.phase = .withdrawn) :
    Moved client (client.tellCancelled exchange.id) exchange
      (.ended (.timedOut client.isSending)) := by
  have hkept := tellCancelled_keeps client exchange.id
  constructor
  · refine ⟨hkept.1, fun _ _ => by rw [hkept.2.1], fun _ _ => by rw [hkept.2.2.1], ?_⟩
    intro other hne
    rw [cancels_tellCancelled, if_neg (fun h => hne h.2), Nat.add_zero]
  · exact {
      number := by
        rw [hkept.1]
        exact hagrees.number
      outstanding_iff := by
        rw [hkept.2.1]
        refine hagrees.outstanding_iff.trans ?_
        rw [hphase]
        simp [Phase.isOpen]
      outcome := fun h => by rcases h with h | h <;> cases h
      unheard := fun h => by cases h
      answered := fun _ h => by cases h
      told := by
        have hnone : cancels client exchange.id = 0 := hagrees.told.trans (by rw [hphase]; rfl)
        rw [cancels_tellCancelled, hnone]
        cases client.isSending <;> simp [Phase.cancels] }
  · intro hnodup
    rwa [hkept.2.1]
  · exact hkept.2.2.2
  · intro _ hnone
    rwa [hkept.2.1]

/-- Shutting down may give up its own request, which changes nothing for the client. -/
theorem Moved.leave (hagrees : exchange.Agrees client) {phase next : Phase}
    (hmove : (if exchange.isShutdown then some (client, next) else none) = some (after, phase))
    (hlike : exchange.phase.Like next) : Moved client after exchange phase := by
  split at hmove
  · obtain ⟨rfl, rfl⟩ := Prod.mk.inj (Option.some.inj hmove)
    exact .alone hagrees hlike
  · cases hmove

/-- Every move of a request that can be made keeps the client in order. -/
theorem Exchange.Agrees.moved (hagrees : exchange.Agrees client) {move : Move} {phase : Phase}
    (hmove : exchange.advance? client move = some (after, phase)) :
    Moved client after exchange phase := by
  unfold Exchange.advance? at hmove
  split at hmove <;> rename_i hphase
  · split at hmove
    · rename_i hnote
      obtain ⟨rfl, rfl⟩ := Prod.mk.inj (Option.some.inj hmove)
      exact .note hagrees hphase hnote
    · obtain ⟨rfl, rfl⟩ := Prod.mk.inj (Option.some.inj hmove)
      exact .alone hagrees (hphase ▸ ⟨rfl, nofun, rfl, nofun, rfl⟩)
  · split at hmove
    · rename_i hsend
      obtain ⟨rfl, rfl⟩ := Prod.mk.inj (Option.some.inj hmove)
      exact .handOver hagrees hphase hsend
    · obtain ⟨rfl, rfl⟩ := Prod.mk.inj (Option.some.inj hmove)
      exact .alone hagrees (hphase ▸ ⟨rfl, nofun, rfl, nofun, rfl⟩)
  · obtain ⟨rfl, rfl⟩ := Prod.mk.inj (Option.some.inj hmove)
    exact .withdraw hagrees rfl nofun rfl nofun (by rw [hphase]; rfl)
  · obtain ⟨⟨response, rest⟩, htake, heq⟩ := Option.map_eq_some_iff.mp hmove
    obtain ⟨rfl, rfl⟩ := Prod.mk.inj heq
    exact .collect hagrees hphase htake
  · split at hmove
    · cases hmove
    · obtain ⟨rfl, rfl⟩ := Prod.mk.inj (Option.some.inj hmove)
      exact .alone hagrees (hphase ▸ ⟨rfl, nofun, rfl, nofun, rfl⟩)
  · obtain ⟨rfl, rfl⟩ := Prod.mk.inj (Option.some.inj hmove)
    exact .withdraw hagrees rfl nofun rfl nofun (by rw [hphase]; rfl)
  · obtain ⟨rfl, rfl⟩ := Prod.mk.inj (Option.some.inj hmove)
    exact .tell hagrees hphase
  -- Shutting down gives up its request before it is noted, or at one of three points after that.
  · exact .leave hagrees hmove (hphase ▸ ⟨rfl, nofun, rfl, nofun, rfl⟩)
  · exact .leave hagrees hmove (hphase ▸ ⟨rfl, nofun, rfl, nofun, rfl⟩)
  · exact .leave hagrees hmove (hphase ▸ ⟨rfl, nofun, rfl, nofun, rfl⟩)
  · exact .leave hagrees hmove (hphase ▸ ⟨rfl, nofun, rfl, nofun, rfl⟩)
  · cases hmove

end Moves

section News

variable {client after : Client} {exchange : Exchange} {news : News}

/-- What a client does when news comes: the requests that it concerns are no longer outstanding, and
have an outcome. -/
structure Hears (client : Client) (news : News) (after : Client) : Prop where
  nextId : after.nextId = client.nextId
  outbox : after.outbox = client.outbox
  sublist : after.outstanding.Sublist client.outstanding
  outstanding : ∀ id, id ∈ after.outstanding ↔ id ∈ client.outstanding ∧ news.concerns id = false
  reached : ∀ id, id ∈ client.outstanding → news.concerns id = true →
    after.outcomes.lookup id = (client.outcomes.lookup id).or (some (news.response id))
  missed : ∀ id, (id ∈ client.outstanding → news.concerns id = false) →
    after.outcomes.lookup id = client.outcomes.lookup id

/-- News that concerns nothing that is outstanding changes nothing. -/
theorem Hears.nothing (houtstanding : ∀ id ∈ client.outstanding, news.concerns id = false) :
    Hears client news client where
  nextId := rfl
  outbox := rfl
  sublist := List.Sublist.refl _
  outstanding id := ⟨fun hid => ⟨hid, houtstanding id hid⟩, fun h => h.1⟩
  reached id hid hconcerns := by
    rw [houtstanding id hid] at hconcerns
    cases hconcerns
  missed _ _ := rfl

/-- A response concerns the request that it is about. -/
theorem concerns_answer {response : Response} (id : Nat) :
    News.concerns id (.answer response) = true ↔ response.IsAbout id :=
  decide_eq_true_iff

/-- A response reaches the outstanding request that it is about, if there is one. -/
theorem hears_takeResponse (client : Client) (response : Response) :
    Hears client (.answer response) (client.takeResponse response) := by
  unfold Client.takeResponse
  cases hnamed : response.id.bind Client.answeredNumber? with
  | none =>
    apply Hears.nothing
    intro id _
    rw [Bool.eq_false_iff, ne_eq, concerns_answer, ← Response.isAbout_iff, hnamed]
    exact (Option.some_ne_none id).symm
  | some named =>
    have hconcerns (id : Nat) : News.concerns id (.answer response) = true ↔ named = id := by
      rw [concerns_answer, ← Response.isAbout_iff, hnamed, Option.some.injEq]
    by_cases hout : named ∈ client.outstanding
    · simp only [List.contains_eq_mem, hout, decide_true, if_true]
      exact {
        nextId := rfl
        outbox := rfl
        sublist := List.filter_sublist
        outstanding := fun id => by
          rw [Bool.eq_false_iff, ne_eq, hconcerns]
          simp only [Client.decide, List.mem_filter, bne_iff_ne, ne_eq]
          exact and_congr Iff.rfl (not_congr eq_comm)
        reached := fun id _ hid => by
          obtain rfl := (hconcerns id).mp hid
          simp only [Client.decide, List.lookup_append, lookup_cons_ite, if_true, News.response]
        missed := fun id hid => by
          have hne : id ≠ named := by
            rintro rfl
            exact absurd (hid hout) (by rw [(hconcerns id).mpr rfl]; decide)
          simp only [Client.decide, List.lookup_append, lookup_cons_ite, if_neg hne,
            List.lookup_nil, Option.or_none] }
    · simp only [List.contains_eq_mem, hout, decide_false, Bool.false_eq_true, if_false]
      apply Hears.nothing
      intro id hid
      rw [Bool.eq_false_iff, ne_eq, hconcerns]
      rintro rfl
      exact hout hid

/-- A failure reaches every outstanding request. -/
theorem hears_failOutstanding (client : Client) (error : ResponseError) :
    Hears client (.failure error) (client.failOutstanding error) where
  nextId := rfl
  outbox := rfl
  sublist := List.nil_sublist _
  outstanding id := by simp [Client.failOutstanding, News.concerns]
  reached id hid _ := by
    simp only [Client.failOutstanding, List.lookup_append, lookup_map_pair, if_pos hid,
      News.response]
  missed id hid := by
    have hout : id ∉ client.outstanding := fun hout => by cases hid hout
    simp only [Client.failOutstanding, List.lookup_append, lookup_map_pair, if_neg hout,
      Option.or_none]

/-- A request remembers the news that concerns it, and still fits. -/
theorem Exchange.Agrees.heard (hagrees : exchange.Agrees client)
    (hhears : Hears client news after) : (exchange.hear news).Agrees after := by
  have hcancels : cancels after exchange.id = cancels client exchange.id := by
    unfold cancels
    rw [hhears.outbox]
  have hnoted (hopen : exchange.phase.isOpen = true) : exchange.phase.wasNoted = true := by
    cases hphase : exchange.phase <;> simp_all [Phase.isOpen, Phase.wasNoted]
  unfold hear
  split
  · rename_i h
    obtain ⟨hwas, hconcerns⟩ := Bool.and_eq_true_iff.mp h
    exact {
      number := by
        rw [hhears.nextId]
        exact hagrees.number
      outstanding_iff := by
        rw [hhears.outstanding, hconcerns]
        simp
      outcome := fun hopen => by
        have hopen : exchange.phase.isOpen = true := by
          rcases hopen with hopen | hphase
          · exact hopen
          · rw [hphase] at hwas
            cases hwas
        have hkept := hagrees.outcome (Or.inl hopen)
        -- Only the first news reaches the request while it is outstanding.
        cases hnews : exchange.news with
        | nil =>
          have hout := hagrees.outstanding_iff.mpr ⟨hopen, hnews⟩
          rw [hhears.reached exchange.id hout hconcerns, hkept, hnews]
          rfl
        | cons first rest =>
          have hout : exchange.id ∉ client.outstanding := by
            intro hout
            rw [(hagrees.outstanding_iff.mp hout).2] at hnews
            cases hnews
          rw [hhears.missed exchange.id (fun hin => absurd hin hout), hkept, hnews]
          rfl
      unheard := fun hearly => by
        rw [hwas] at hearly
        cases hearly
      answered := fun response hphase => by
        have hfirst := hagrees.answered response hphase
        cases hnews : exchange.news with
        | nil =>
          rw [hnews] at hfirst
          cases hfirst
        | cons =>
          rw [hnews] at hfirst
          exact hfirst
      told := hcancels.trans hagrees.told }
  · rename_i h
    have hout (hout : exchange.id ∈ client.outstanding) : news.concerns exchange.id = false := by
      have hopen := (hagrees.outstanding_iff.mp hout).1
      cases hconcerns : news.concerns exchange.id with
      | false => rfl
      | true => exact absurd (by rw [hnoted hopen, hconcerns]; rfl) h
    refine hagrees.congr (Nat.le_of_eq hhears.nextId.symm) ?_ ?_ hcancels
    · rw [hhears.outstanding]
      exact ⟨fun h => h.1, fun h => ⟨h, hout h⟩⟩
    · exact hhears.missed exchange.id hout

end News

end LanguageClient.Correlation
