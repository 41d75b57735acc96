import LanguageClient.Proofs.Client.Outstanding

/-!
# Every response finds its request

At every point of every run, the requests that are outstanding are those that were noted and that no
news has reached since. The first news is what the caller gets, and whatever comes later is about
something that is no longer outstanding and changes nothing.
-/

namespace LanguageClient.Correlation

/-- What a client keeps fits all of its requests. -/
structure Coherent (state : State) : Prop where
  agrees : ∀ exchange ∈ state.exchanges, exchange.Agrees state.client
  distinct : (state.exchanges.map Exchange.id).Nodup
  known : ∀ id ∈ state.client.outstanding, id ∈ state.exchanges.map Exchange.id
  nodup : state.client.outstanding.Nodup
  fresh : ∀ id, state.client.nextId ≤ id →
    state.client.outcomes.lookup id = none ∧ cancels state.client id = 0
  terminated : state.client.isTerminated = true → state.client.outstanding = []

section Steps

variable {state : State}

theorem coherent_initial (name : String) (encoding : PositionEncoding) (timeouts : Timeouts)
    (processId : UInt32) (handshakeOptions : Option Json) :
    Coherent (.initial name encoding timeouts processId handshakeOptions) := by
  constructor <;> simp [State.initial, Client.connect, cancels]

/-- A number that no request has yet is not outstanding. -/
theorem Coherent.lt_of_outstanding (hcoherent : Coherent state) {id : Nat}
    (hid : id ∈ state.client.outstanding) : id < state.client.nextId := by
  obtain ⟨exchange, hexchange, rfl⟩ := List.mem_map.mp (hcoherent.known id hid)
  exact (hcoherent.agrees exchange hexchange).number

/-- A change of the client that has nothing to do with requests leaves everything in order. -/
theorem Coherent.congr (hcoherent : Coherent state) {after : Client}
    (hnext : after.nextId = state.client.nextId)
    (houtstanding : after.outstanding = state.client.outstanding)
    (houtcomes : after.outcomes = state.client.outcomes)
    (hcancels : ∀ id, cancels after id = cancels state.client id)
    (hterminated : after.isTerminated = state.client.isTerminated) :
    Coherent ⟨after, state.exchanges⟩ where
  agrees exchange hexchange :=
    (hcoherent.agrees exchange hexchange).congr (Nat.le_of_eq hnext.symm) (by rw [houtstanding])
      (by rw [houtcomes]) (hcancels exchange.id)
  distinct := hcoherent.distinct
  known id hid := hcoherent.known id (houtstanding ▸ hid)
  nodup := houtstanding ▸ hcoherent.nodup
  fresh id hid := by
    rw [houtcomes, hcancels id]
    exact hcoherent.fresh id (hnext ▸ hid)
  terminated h := by
    rw [houtstanding]
    exact hcoherent.terminated (hterminated.symm.trans h)

/-- A new request gets a number that no request has had before. -/
theorem Coherent.begin (hcoherent : Coherent state) (method : String) (params : Option Json)
    (isShutdown : Bool) : Coherent (state.begin method params isShutdown) := by
  obtain ⟨hlookup, hcancels⟩ := hcoherent.fresh state.client.nextId (Nat.le_refl _)
  have hout : state.client.nextId ∉ state.client.outstanding :=
    fun hid => Nat.lt_irrefl _ (hcoherent.lt_of_outstanding hid)
  constructor
  · intro exchange hexchange
    rcases List.mem_append.mp hexchange with hold | hnew
    · exact (hcoherent.agrees exchange hold).congr (Nat.le_succ _) Iff.rfl rfl rfl
    · obtain rfl := List.mem_singleton.mp hnew
      exact {
        number := Nat.lt_succ_self _
        outstanding_iff := ⟨fun h => absurd h hout, fun h => by cases h.1⟩
        outcome := fun _ => hlookup
        unheard := fun _ => rfl
        answered := fun _ h => by cases h
        told := hcancels }
  · simp only [State.begin, Client.takeNumber, List.map_append, List.map_cons, List.map_nil]
    refine List.nodup_append.mpr
      ⟨hcoherent.distinct, List.nodup_cons.mpr ⟨List.not_mem_nil, List.nodup_nil⟩, ?_⟩
    intro a ha b hb
    obtain ⟨exchange, hexchange, rfl⟩ := List.mem_map.mp ha
    obtain rfl := List.mem_singleton.mp hb
    exact Nat.ne_of_lt (hcoherent.agrees exchange hexchange).number
  · intro id hid
    simp only [State.begin, List.map_append]
    exact List.mem_append_left _ (hcoherent.known id hid)
  · exact hcoherent.nodup
  · intro id hid
    exact hcoherent.fresh id (Nat.le_of_succ_le hid)
  · exact hcoherent.terminated

theorem getElem?_settle (state : State) (n m : Nat) (client : Client) (phase : Phase) :
    (state.settle n client phase).exchanges[m]? =
      if n = m then (state.exchanges[m]?).map fun exchange => { exchange with phase }
      else state.exchanges[m]? := by
  simp only [State.settle, List.getElem?_modify]
  split <;> simp

/-- A request that goes on keeps its number. -/
theorem map_id_settle (state : State) (n : Nat) (client : Client) (phase : Phase) :
    (state.settle n client phase).exchanges.map Exchange.id = state.exchanges.map Exchange.id := by
  apply List.ext_getElem?
  intro m
  rw [List.getElem?_map, List.getElem?_map, getElem?_settle]
  split
  · rw [Option.map_map]
    rfl
  · rfl

/-- A request that goes on keeps everything in order. -/
theorem Coherent.settle (hcoherent : Coherent state) {n : Nat} {exchange : Exchange}
    (hexchange : state.exchanges[n]? = some exchange) {after : Client} {phase : Phase}
    (hmoved : Moved state.client after exchange phase) :
    Coherent (state.settle n after phase) where
  agrees other hother := by
    obtain ⟨m, hm⟩ := List.mem_iff_getElem?.mp hother
    rw [getElem?_settle] at hm
    split at hm
    · rename_i heq
      subst heq
      rw [hexchange] at hm
      obtain rfl := Option.some.inj hm
      exact hmoved.agrees
    · rename_i hne
      have hids : other.id ≠ exchange.id := by
        intro heq
        apply hne
        have hlt : n < (state.exchanges.map Exchange.id).length := by
          rw [List.length_map]
          exact (List.getElem?_eq_some_iff.mp hexchange).1
        apply (List.getElem?_inj hlt hcoherent.distinct).mp
        rw [List.getElem?_map, List.getElem?_map, hexchange, hm, Option.map_some, Option.map_some,
          heq]
      have hagrees := hcoherent.agrees other (List.mem_of_getElem? hm)
      exact hagrees.congr (Nat.le_of_eq hmoved.same.nextId.symm)
        (hmoved.same.outstanding other.id hids) (hmoved.same.outcomes other.id hids)
        (hmoved.same.cancels other.id hids)
  distinct := by
    rw [map_id_settle]
    exact hcoherent.distinct
  known id hid := by
    rw [map_id_settle]
    by_cases heq : id = exchange.id
    · subst heq
      exact List.mem_map_of_mem (List.mem_of_getElem? hexchange)
    · exact hcoherent.known id ((hmoved.same.outstanding id heq).mp hid)
  nodup := hmoved.nodup hcoherent.nodup
  fresh id hid := by
    have hid : state.client.nextId ≤ id := by
      rw [← hmoved.same.nextId]
      exact hid
    have hnumber := (hcoherent.agrees exchange (List.mem_of_getElem? hexchange)).number
    have hne : id ≠ exchange.id := by omega
    obtain ⟨hlookup, hcancels⟩ := hcoherent.fresh id hid
    exact ⟨(hmoved.same.outcomes id hne).trans hlookup, (hmoved.same.cancels id hne).trans hcancels⟩
  terminated h := by
    have hbefore := hmoved.isTerminated.symm.trans h
    exact hmoved.terminated hbefore (hcoherent.terminated hbefore)

theorem Exchange.id_hear (news : News) (exchange : Exchange) :
    (exchange.hear news).id = exchange.id := by
  unfold hear
  split <;> rfl

/-- News keeps everything in order, unless it leaves something outstanding on a connection that goes
away. -/
theorem Coherent.hear (hcoherent : Coherent state) {news : News} {after : Client}
    (hhears : Hears state.client news after)
    (hterminated : after.isTerminated = true → after.outstanding = []) :
    Coherent ⟨after, state.exchanges.map (.hear news)⟩ := by
  have hids : (state.exchanges.map (.hear news)).map Exchange.id =
      state.exchanges.map Exchange.id := by
    rw [List.map_map]
    exact List.map_congr_left fun exchange _ => exchange.id_hear news
  constructor
  · intro exchange hexchange
    obtain ⟨before, hbefore, rfl⟩ := List.mem_map.mp hexchange
    exact (hcoherent.agrees before hbefore).heard hhears
  · rw [hids]
    exact hcoherent.distinct
  · intro id hid
    rw [hids]
    exact hcoherent.known id (hhears.sublist.subset hid)
  · exact hcoherent.nodup.sublist hhears.sublist
  · intro id hid
    have hid : state.client.nextId ≤ id := by
      rw [← hhears.nextId]
      exact hid
    have hmissed := hhears.missed id fun hout =>
      absurd (hcoherent.lt_of_outstanding hout) (Nat.not_lt_of_le hid)
    obtain ⟨hlookup, hcancels⟩ := hcoherent.fresh id hid
    refine ⟨hmissed.trans hlookup, ?_⟩
    unfold cancels at hcancels ⊢
    rw [hhears.outbox]
    exact hcancels
  · exact hterminated

theorem isTerminated_takeResponse (client : Client) (response : Response) :
    (client.takeResponse response).isTerminated = client.isTerminated := by
  unfold Client.takeResponse
  split
  · split <;> rfl
  · rfl

/-- Every step keeps everything in order. -/
theorem Coherent.next (hcoherent : Coherent state) (step : Step) : Coherent (state.next step) := by
  cases step with
  | request method params => exact hcoherent.begin method params false
  | beginShutdown =>
    simp only [State.next]
    split
    · exact hcoherent
    · have hbegun : Coherent { state with client := { state.client with isShutdown := true } } :=
        hcoherent.congr rfl rfl rfl (fun _ => rfl) rfl
      exact hbegun.begin _ _ _
  | move n move =>
    simp only [State.next, State.move]
    split
    · exact hcoherent
    · rename_i exchange hexchange
      split
      · rename_i hmove
        have hagrees := hcoherent.agrees exchange (List.mem_of_getElem? hexchange)
        exact hcoherent.settle hexchange (hagrees.moved hmove)
      · exact hcoherent
  | receive response =>
    have hhears := hears_takeResponse state.client response
    refine hcoherent.hear hhears fun hterminated => ?_
    rw [isTerminated_takeResponse] at hterminated
    have hnone := hhears.sublist
    rw [hcoherent.terminated hterminated] at hnone
    exact List.sublist_nil.mp hnone
  | terminate =>
    have hhears := hears_failOutstanding { state.client with isTerminated := true }
      state.client.terminationFailure
    exact hcoherent.hear ⟨hhears.nextId, hhears.outbox, hhears.sublist, hhears.outstanding,
      hhears.reached, hhears.missed⟩ fun _ => rfl
  | sendExit =>
    have hkept := sendExit_keeps state.client
    exact hcoherent.congr hkept.1 hkept.2.1 hkept.2.2.1 (cancels_sendExit state.client) hkept.2.2.2
  | stopSending => exact hcoherent.congr rfl rfl rfl (fun _ => rfl) rfl
  | failRemaining =>
    have hhears := hears_failOutstanding state.client Client.shutdownFailure
    exact hcoherent.hear ⟨hhears.nextId, hhears.outbox, hhears.sublist, hhears.outstanding,
      hhears.reached, hhears.missed⟩ fun _ => rfl

/-- What is known of a request that has come as far as a phase, at a point of a run. -/
def State.HasReached (state : State) (n id : Nat) (phase : Phase) : Prop :=
  ∃ exchange, state.exchanges[n]? = some exchange ∧ exchange.id = id ∧ exchange.phase = phase

/-- A request that has ended makes no further move. -/
theorem advance?_ended {client : Client} {exchange : Exchange} {ending : Ending}
    (hended : exchange.phase = .ended ending) (move : Move) :
    exchange.advance? client move = none := by
  unfold Exchange.advance?
  rw [hended]
  cases move <;> rfl

/-- News does not make a request go on. -/
theorem Exchange.phase_hear (news : News) (exchange : Exchange) :
    (exchange.hear news).phase = exchange.phase := by
  unfold hear
  split <;> rfl

/-- What a step does to one request: it begins it, lets it make a move, or lets news reach it. -/
theorem getElem?_next {step : Step} {n : Nat} {later : Exchange}
    (hlater : (state.next step).exchanges[n]? = some later) :
    (state.exchanges[n]? = none ∧ later.phase = .numbered) ∨
    ∃ exchange, state.exchanges[n]? = some exchange ∧ later.id = exchange.id ∧
      (later.phase = exchange.phase ∨ ∃ move after,
        exchange.advance? state.client move = some (after, later.phase)) := by
  have hbegin {other : State} (hsame : other.exchanges = state.exchanges) {method : String}
      {params : Option Json} {isShutdown : Bool}
      (hlater : (other.begin method params isShutdown).exchanges[n]? = some later) :
      (state.exchanges[n]? = none ∧ later.phase = .numbered) ∨
        ∃ exchange, state.exchanges[n]? = some exchange ∧ later.id = exchange.id ∧
          (later.phase = exchange.phase ∨ ∃ move after,
            exchange.advance? state.client move = some (after, later.phase)) := by
    simp only [State.begin, hsame] at hlater
    by_cases hn : n < state.exchanges.length
    · rw [List.getElem?_append_left hn] at hlater
      exact Or.inr ⟨later, hlater, rfl, Or.inl rfl⟩
    · refine Or.inl ⟨List.getElem?_eq_none (Nat.le_of_not_lt hn), ?_⟩
      rw [List.getElem?_append_right (Nat.le_of_not_lt hn)] at hlater
      obtain rfl := List.mem_singleton.mp (List.mem_of_getElem? hlater)
      rfl
  have hhear {news : News} (hlater : (state.exchanges.map (.hear news))[n]? = some later) :
      ∃ exchange, state.exchanges[n]? = some exchange ∧ later.id = exchange.id ∧
        (later.phase = exchange.phase ∨ ∃ move after,
          exchange.advance? state.client move = some (after, later.phase)) := by
    rw [List.getElem?_map, Option.map_eq_some_iff] at hlater
    obtain ⟨exchange, hexchange, rfl⟩ := hlater
    exact ⟨exchange, hexchange, exchange.id_hear news, Or.inl (exchange.phase_hear news)⟩
  cases step with
  | request => exact hbegin rfl hlater
  | beginShutdown =>
    simp only [State.next] at hlater
    split at hlater
    · exact Or.inr ⟨later, hlater, rfl, Or.inl rfl⟩
    · exact hbegin (by rfl) hlater
  | move m move =>
    simp only [State.next, State.move] at hlater
    split at hlater
    · exact Or.inr ⟨later, hlater, rfl, Or.inl rfl⟩
    · rename_i other hother
      split at hlater
      · rename_i after phase hmove
        rw [getElem?_settle] at hlater
        split at hlater
        · rename_i hm
          subst hm
          rw [hother, Option.map_some, Option.some.injEq] at hlater
          subst hlater
          exact Or.inr ⟨other, hother, rfl, Or.inr ⟨move, after, hmove⟩⟩
        · exact Or.inr ⟨later, hlater, rfl, Or.inl rfl⟩
      · exact Or.inr ⟨later, hlater, rfl, Or.inl rfl⟩
  | receive response => exact Or.inr (hhear hlater)
  | terminate => exact Or.inr (hhear hlater)
  | sendExit => exact Or.inr ⟨later, hlater, rfl, Or.inl rfl⟩
  | stopSending => exact Or.inr ⟨later, hlater, rfl, Or.inl rfl⟩
  | failRemaining => exact Or.inr (hhear hlater)

/-- No request is forgotten. -/
theorem length_le_next (step : Step) :
    state.exchanges.length ≤ (state.next step).exchanges.length := by
  cases step with
  | request => simp [State.next, State.begin]
  | beginShutdown =>
    simp only [State.next]
    split <;> simp [State.begin]
  | move m move =>
    simp only [State.next, State.move]
    split
    · exact Nat.le_refl _
    · split <;> simp [State.settle]
  | receive | terminate | failRemaining => simp [State.next]
  | sendExit | stopSending => exact Nat.le_refl _

/-- A request that has ended stays as it is, whatever comes next. -/
theorem State.HasReached.final {n id : Nat} {ending : Ending} (step : Step)
    (hended : state.HasReached n id (.ended ending)) :
    (state.next step).HasReached n id (.ended ending) := by
  obtain ⟨exchange, hexchange, rfl, hphase⟩ := hended
  have hlt := (List.getElem?_eq_some_iff.mp hexchange).1
  obtain ⟨later, hlater⟩ : ∃ later, (state.next step).exchanges[n]? = some later :=
    ⟨_, List.getElem?_eq_getElem (Nat.lt_of_lt_of_le hlt (length_le_next step))⟩
  refine ⟨later, hlater, ?_⟩
  rcases getElem?_next hlater with ⟨hnone, -⟩ | ⟨other, hother, hid, hgone | ⟨move, after, hmove⟩⟩
  · rw [hexchange] at hnone
    cases hnone
  · obtain rfl := Option.some.inj (hexchange.symm.trans hother)
    exact ⟨hid, hgone.trans hphase⟩
  · obtain rfl := Option.some.inj (hexchange.symm.trans hother)
    rw [advance?_ended hphase] at hmove
    cases hmove

/-- A connection that went away does not come back. -/
theorem Coherent.isTerminated_next (hcoherent : Coherent state) (step : Step)
    (hterminated : state.client.isTerminated = true) :
    (state.next step).client.isTerminated = true := by
  cases step with
  | request | stopSending | failRemaining => exact hterminated
  | beginShutdown =>
    simp only [State.next]
    split <;> exact hterminated
  | move n move =>
    simp only [State.next, State.move]
    split
    · exact hterminated
    · rename_i exchange hexchange
      split
      · rename_i hmove
        have hagrees := hcoherent.agrees exchange (List.mem_of_getElem? hexchange)
        exact (hagrees.moved hmove).isTerminated.trans hterminated
      · exact hterminated
  | receive response => exact (isTerminated_takeResponse _ _).trans hterminated
  | terminate => rfl
  | sendExit => exact (sendExit_keeps state.client).2.2.2.trans hterminated

/-- A step takes at most one number. -/
theorem Coherent.nextId_next_le (hcoherent : Coherent state) (step : Step) :
    (state.next step).client.nextId ≤ state.client.nextId + 1 := by
  cases step with
  | request | terminate | stopSending | failRemaining =>
    simp [State.next, State.begin, Client.takeNumber, Client.terminate, Client.failOutstanding,
      Client.failRemaining, Client.stopSending]
  | beginShutdown =>
    simp only [State.next]
    split
    · exact Nat.le_succ _
    · exact Nat.le_refl _
  | move n move =>
    simp only [State.next, State.move]
    split
    · exact Nat.le_succ _
    · rename_i exchange hexchange
      split
      · rename_i hmove
        have hagrees := hcoherent.agrees exchange (List.mem_of_getElem? hexchange)
        exact Nat.le_succ_of_le (Nat.le_of_eq (hagrees.moved hmove).same.nextId)
      · exact Nat.le_succ _
  | receive response =>
    exact Nat.le_succ_of_le (Nat.le_of_eq (hears_takeResponse state.client response).nextId)
  | sendExit => exact Nat.le_succ_of_le (Nat.le_of_eq (sendExit_keeps state.client).1)

/-- A response about no outstanding request changes nothing. -/
theorem takeResponse_of_not_outstanding {client : Client} {response : Response}
    (hunasked : ∀ id ∈ client.outstanding, ¬ response.IsAbout id) :
    client.takeResponse response = client := by
  unfold Client.takeResponse
  split
  · rename_i id hnamed
    have hout : id ∉ client.outstanding :=
      fun hid => hunasked id hid (Response.isAbout_iff.mp hnamed)
    rw [List.contains_eq_mem, decide_eq_false hout]
    rfl
  · rfl

/-- News does not make a request go on. -/
theorem map_phase_hear (news : News) (exchanges : List Exchange) :
    (exchanges.map (.hear news)).map Exchange.phase = exchanges.map Exchange.phase := by
  rw [List.map_map]
  exact List.map_congr_left fun exchange _ => exchange.phase_hear news

/-- On a connection that went away, a request is refused when it is to be noted, and the client does
nothing. -/
theorem next_note_of_terminated {n : Nat} {exchange : Exchange}
    (hterminated : state.client.isTerminated = true)
    (hexchange : state.exchanges[n]? = some exchange) (hphase : exchange.phase = .numbered) :
    state.next (.move n .note) = state.settle n state.client (.ended .refused) := by
  have hnote : exchange.advance? state.client .note = some (state.client, .ended .refused) := by
    simp only [Exchange.advance?, hphase, Client.note, if_pos hterminated]
  simp only [State.next, State.move, hexchange, hnote]

/-- On a connection that went away, a request that has not been noted cannot be noted any more. -/
theorem advance?_late {client after : Client} {exchange : Exchange} {move : Move} {phase : Phase}
    (hterminated : client.isTerminated = true) (hlate : exchange.phase.wasNoted = false)
    (hmove : exchange.advance? client move = some (after, phase)) : phase.wasNoted = false := by
  have hphases : exchange.phase = .numbered ∨ exchange.phase = .leftEarly ∨
      exchange.phase = .ended .refused := by
    revert hlate
    unfold Phase.wasNoted
    split <;> simp_all
  rcases hphases with hphase | hphase | hphase
  · cases move with
    | note =>
      simp only [Exchange.advance?, hphase, Client.note, if_pos hterminated] at hmove
      obtain ⟨-, rfl⟩ := Prod.mk.inj (Option.some.inj hmove)
      rfl
    | leave =>
      simp only [Exchange.advance?, hphase] at hmove
      split at hmove
      · obtain ⟨-, rfl⟩ := Prod.mk.inj (Option.some.inj hmove)
        rfl
      · cases hmove
    | _ => simp [Exchange.advance?, hphase] at hmove
  · cases move <;> simp [Exchange.advance?, hphase] at hmove
  · rw [advance?_ended hphase] at hmove
    cases hmove

end Steps

/-- What a run leads to. -/
abbrev run (start : State) (steps : List Step) : State :=
  Run.final State.next start steps

/-- What holds at the end of every run. -/
structure Correlated (start : State) (steps : List Step) : Prop where
  distinct : ((run start steps).exchanges.map Exchange.id).Nodup
  /-- Numbers are sent as words of 64 bits, into which they fit in every run of fewer steps than
  there are words. -/
  fits : start.client.nextId + steps.length ≤ UInt64.size →
    ∀ exchange ∈ (run start steps).exchanges, (UInt64.ofNat exchange.id).toNat = exchange.id
  outstanding_nodup : (run start steps).client.outstanding.Nodup
  /-- The requests that are outstanding are those that are open and that no news has reached since
  they were noted. -/
  outstanding_iff : ∀ id, id ∈ (run start steps).client.outstanding ↔
    ∃ exchange ∈ (run start steps).exchanges, exchange.id = id ∧
      exchange.phase.isOpen = true ∧ exchange.news = []
  /-- What a waiting caller can take is the first news that has reached its request. -/
  available : ∀ exchange ∈ (run start steps).exchanges, exchange.phase = .sent →
    ((run start steps).client.takeOutcome? exchange.id).map Prod.fst =
      exchange.news.head?.map (News.response exchange.id)
  /-- What a caller has got was the first news that has reached its request. -/
  answered : ∀ exchange ∈ (run start steps).exchanges, ∀ response,
    exchange.phase = .ended (.answered response) →
    ∃ first, exchange.news.head? = some first ∧ first.response exchange.id = response
  /-- A request that has ended stays as it is, whatever happens afterwards. -/
  final : ∀ more n id ending, (run start steps).HasReached n id (.ended ending) →
    (run start (steps ++ more)).HasReached n id (.ended ending)
  /-- A response about no outstanding request changes nothing. -/
  ignored : ∀ response, (∀ id ∈ (run start steps).client.outstanding, ¬ response.IsAbout id) →
    (run start (steps ++ [.receive response])).client = (run start steps).client ∧
    (run start (steps ++ [.receive response])).exchanges.map Exchange.phase =
      (run start steps).exchanges.map Exchange.phase
  /-- The server is told once about each request that was given up because its time was over, unless
  nothing could be sent any more, and about no other. -/
  cancelled : ∀ exchange ∈ (run start steps).exchanges,
    cancels (run start steps).client exchange.id = exchange.phase.cancels
  /-- Nothing is outstanding on a connection that went away, and never will be. -/
  terminated : (run start steps).client.isTerminated = true → ∀ more,
    (run start (steps ++ more)).client.isTerminated = true ∧
    (run start (steps ++ more)).client.outstanding = []
  /-- A request that has not been noted when the connection goes away never is. -/
  late : (run start steps).client.isTerminated = true → ∀ more (n : Nat),
    (∀ exchange, (run start steps).exchanges[n]? = some exchange →
      exchange.phase.wasNoted = false) →
    ∀ later, (run start (steps ++ more)).exchanges[n]? = some later → later.phase.wasNoted = false
  /-- It fails at once, and nothing is sent; its caller hears that the connection went away. -/
  refused : (run start steps).client.isTerminated = true → ∀ n exchange,
    (run start steps).exchanges[n]? = some exchange → exchange.phase = .numbered →
    run start (steps ++ [.move n .note]) =
      (run start steps).settle n (run start steps).client (.ended .refused) ∧
    Ending.refused.result (run start steps).client exchange.method =
      .error (.terminated (run start steps).client.name)

section Runs

variable {start : State}

theorem coherent_run (hstart : Coherent start) (steps : List Step) : Coherent (run start steps) :=
  Run.final_induction _ _ hstart (fun _ step hcoherent => hcoherent.next step) steps

/-- A run takes at most as many numbers as it has steps. -/
theorem nextId_run_le (hstart : Coherent start) (steps : List Step) :
    (run start steps).client.nextId ≤ start.client.nextId + steps.length := by
  induction steps using List.reverseRecOn with
  | nil => exact Nat.le_refl _
  | append_singleton steps step ih =>
    have hnext := (coherent_run hstart steps).nextId_next_le step
    have hlast : run start (steps ++ [step]) = (run start steps).next step :=
      Run.final_concat State.next start steps step
    rw [hlast, List.length_append, List.length_singleton]
    omega

/-- A request that has ended stays as it is for the rest of the run. -/
theorem ended_run {steps : List Step} (more : List Step) {n id : Nat} {ending : Ending}
    (hended : (run start steps).HasReached n id (.ended ending)) :
    (run start (steps ++ more)).HasReached n id (.ended ending) := by
  refine Run.final_append_induction State.next start
    (fun state => state.HasReached n id (.ended ending)) steps more hended ?_
  intro before step hbefore
  rw [Run.final_concat]
  exact hbefore.final step

/-- A connection that went away does not come back for the rest of the run. -/
theorem terminated_run (hstart : Coherent start) {steps : List Step} (more : List Step)
    (hterminated : (run start steps).client.isTerminated = true) :
    (run start (steps ++ more)).client.isTerminated = true := by
  refine Run.final_append_induction State.next start
    (fun state => state.client.isTerminated = true) steps more hterminated ?_
  intro before step hbefore
  rw [Run.final_concat]
  exact (coherent_run hstart before).isTerminated_next step hbefore

/-- A request that has not been noted when the connection goes away is not noted for the rest of the
run. -/
theorem late_run (hstart : Coherent start) {steps : List Step} (more : List Step) {n : Nat}
    (hterminated : (run start steps).client.isTerminated = true)
    (hlate : ∀ exchange, (run start steps).exchanges[n]? = some exchange →
      exchange.phase.wasNoted = false) :
    ∀ later, (run start (steps ++ more)).exchanges[n]? = some later →
      later.phase.wasNoted = false := by
  have hlasting := Run.final_append_induction State.next start
    (fun state => state.client.isTerminated = true ∧
      ∀ exchange, state.exchanges[n]? = some exchange → exchange.phase.wasNoted = false)
    steps more ⟨hterminated, hlate⟩ ?_
  · exact hlasting.2
  · intro before step hbefore
    rw [Run.final_concat]
    refine ⟨(coherent_run hstart before).isTerminated_next step hbefore.1, ?_⟩
    intro later hlater
    rcases getElem?_next hlater with
      ⟨-, hphase⟩ | ⟨exchange, hexchange, -, hsame | ⟨move, after, hmove⟩⟩
    · rw [hphase]
      rfl
    · rw [hsame]
      exact hbefore.2 exchange hexchange
    · exact advance?_late hbefore.1 (hbefore.2 exchange hexchange) hmove

/-- Every run from a state in order pairs each response with its request. -/
theorem Coherent.correlated (hstart : Coherent start) (steps : List Step) :
    Correlated start steps where
  distinct := (coherent_run hstart steps).distinct
  fits hwords exchange hexchange := by
    have hnumber := ((coherent_run hstart steps).agrees exchange hexchange).number
    have hnext := nextId_run_le hstart steps
    exact UInt64.toNat_ofNat_of_lt' (by omega)
  outstanding_nodup := (coherent_run hstart steps).nodup
  outstanding_iff id := by
    have hcoherent := coherent_run hstart steps
    constructor
    · intro hid
      obtain ⟨exchange, hexchange, rfl⟩ := List.mem_map.mp (hcoherent.known id hid)
      exact ⟨exchange, hexchange, rfl,
        (hcoherent.agrees exchange hexchange).outstanding_iff.mp hid⟩
    · rintro ⟨exchange, hexchange, rfl, hopen⟩
      exact (hcoherent.agrees exchange hexchange).outstanding_iff.mpr hopen
  available exchange hexchange hphase := by
    have hagrees := (coherent_run hstart steps).agrees exchange hexchange
    have houtcome := hagrees.outcome (Or.inl (by rw [hphase]; rfl))
    rw [Client.takeOutcome?, Option.map_map, ← houtcome]
    exact Option.map_id'
  answered exchange hexchange response hphase := by
    have hagrees := (coherent_run hstart steps).agrees exchange hexchange
    exact Option.map_eq_some_iff.mp (hagrees.answered response hphase)
  final more _ _ _ hended := ended_run more hended
  ignored response hunasked := by
    rw [run, Run.final_concat]
    exact ⟨takeResponse_of_not_outstanding hunasked, map_phase_hear _ _⟩
  cancelled exchange hexchange := ((coherent_run hstart steps).agrees exchange hexchange).told
  terminated hterminated more :=
    have hlater := terminated_run hstart more hterminated
    ⟨hlater, (coherent_run hstart (steps ++ more)).terminated hlater⟩
  late hterminated more _ hlate := late_run hstart more hterminated hlate
  refused hterminated n exchange hexchange hphase := by
    rw [run, Run.final_concat]
    exact ⟨next_note_of_terminated hterminated hexchange hphase, rfl⟩

/-- Every run of a client, from its connection on, pairs each response with its request. -/
theorem correlated_run (name : String) (encoding : PositionEncoding) (timeouts : Timeouts)
    (processId : UInt32) (handshakeOptions : Option Json) (steps : List Step) :
    Correlated (.initial name encoding timeouts processId handshakeOptions) steps :=
  (coherent_initial name encoding timeouts processId handshakeOptions).correlated steps

/-- The answer to the first request, whose number is given back as a text. -/
def echoed : Response :=
  .success (.text "+01") (.str "found")

/-- A request is sent; before its answer there come one without an id and one for another request,
and after it a second one. -/
def echoesText : List Step :=
  [.request "textDocument/hover" none, .move 0 .note, .move 0 .handOver,
    .receive ⟨protocolVersion, none, some .null, none⟩, .receive (.success (.text "11") .null),
    .receive echoed, .receive (.success (.number 1) (.str "late"))]

/-- The text spells the number of the request, so its caller gets this answer, whatever comes
later. -/
theorem answered_of_echoesText :
    let start := State.initial "server" .utf16 .standard 0 none
    echoed.IsAbout 1 ∧ (∀ n, echoed.IsAbout n → n = 1) ∧
      (run start (echoesText.take 5)).client.outstanding = [1] ∧
      (run start echoesText).client.outstanding = [] ∧
      ∀ more, (run start (echoesText ++ .move 0 .collect :: more)).HasReached 0 1
        (.ended (.answered echoed)) := by
  intro start
  have hspells : Numeral.Spells "+01".toList 1 :=
    ⟨['0', '1'], Or.inr rfl, by decide, List.all_eq_true.mp rfl, rfl⟩
  have hword : 1 < UInt64.size := by decide
  refine ⟨⟨_, rfl, .text hspells hword⟩, fun n habout => ?_, rfl, rfl, fun more => ?_⟩
  · exact (Option.some.inj (Response.isAbout_iff.mpr habout)).symm
  · have hcorrelated := correlated_run "server" .utf16 .standard 0 none
      (echoesText ++ [.move 0 .collect])
    have hfinal := hcorrelated.final more 0 1 (.answered echoed) ⟨_, rfl, rfl, rfl⟩
    rwa [List.append_assoc] at hfinal

end Runs

end LanguageClient.Correlation
