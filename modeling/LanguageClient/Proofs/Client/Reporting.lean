import LanguageClient.Proofs.Client.Correlation
import LanguageClient.Proofs.Client.Latecomers

/-!
# What callers hear about failures

A caller whose request is answered with an error first gets that answer in the end, whatever else
happens before it is taken. The loss of the connection reaches callers in the same way, as an error
with a code that is reserved for it. So the errors of a server are passed on as they were sent, and
callers hear of a loss only if there was one, exactly as long as the server does not use that code
itself.
-/

namespace LanguageClient.Correlation

/-- The server was the first to decide a request, by this response, and its caller can take it or
has taken it. Only shutting down may no longer wait for its own request. -/
def State.Delivers (state : State) (n : Nat) (response : Response) : Prop :=
  ∃ exchange, state.exchanges[n]? = some exchange ∧
    exchange.news.head? = some (.answer response) ∧
    (exchange.phase = .sent ∨ exchange.phase = .ended (.answered response) ∨
      exchange.phase = .left ∧ exchange.isShutdown = true)

/-- What the caller of a request has got, if the request has ended. -/
def Exchange.result? (client : Client) (exchange : Exchange) : Option (Except ClientError Json) :=
  match exchange.phase with
  | .ended ending => some (ending.result client exchange.method)
  | _ => none

/-- The server has decided a request by an error, and the caller has taken its answer. -/
def Exchange.IsFailedBy (exchange : Exchange) (error : ResponseError) : Prop :=
  ∃ response, exchange.phase = .ended (.answered response) ∧
    exchange.news.head? = some (.answer response) ∧ response.outcome = .error error

/-- Callers hear of failures as they are. -/
structure State.IsFaithful (state : State) : Prop where
  /-- Where the server has failed a request, the caller gets the error as it was sent. -/
  errors : ∀ exchange ∈ state.exchanges, ∀ error, exchange.IsFailedBy error →
    exchange.result? state.client = some (.error (.serverError error.code error.message))
  /-- A caller hears that the connection went away only if it did. -/
  losses : ∀ exchange ∈ state.exchanges, ∀ server,
    exchange.result? state.client = some (.error (.terminated server)) →
    state.client.isTerminated = true

/-- The failures of a request that the client makes up itself have their causes. -/
structure Exchange.IsGrounded (client : Client) (exchange : Exchange) : Prop where
  refused : exchange.phase = .ended .refused → client.isTerminated = true
  unsent : ∀ error, exchange.phase = .failed error ∨ exchange.phase = .ended (.unsent error) →
    error = .notConnected
  failures : ∀ error, .failure error ∈ exchange.news →
    error.code = ResponseError.serverTerminated → client.isTerminated = true

/-- The failures of all requests have their causes. -/
def State.IsGrounded (state : State) : Prop :=
  ∀ exchange ∈ state.exchanges, exchange.IsGrounded state.client

section Steps

variable {state : State} {client after : Client} {exchange : Exchange} {response : Response}
  {n : Nat}

/-- Only the end of the stream counts as the loss of the connection. -/
theorem isTerminated_next_iff (state : State) (step : Step) :
    (state.next step).client.isTerminated = true ↔
      step = .terminate ∨ state.client.isTerminated = true := by
  have hsame (hstep : (Connection.Step.exchange step).isEnd = false) :
      (state.next step).client.isTerminated = state.client.isTerminated :=
    (Connection.unmoved_next state hstep).isTerminated
  cases step with
  | terminate => simp [State.next, Client.terminate, Client.failOutstanding]
  | failRemaining => simp [State.next, Client.failRemaining, Client.failOutstanding]
  | _ => simp [hsame rfl]

/-- A request stays where it is and forgets no news, and it goes on at most by a move of its own. -/
theorem exists_next (hexchange : state.exchanges[n]? = some exchange) (step : Step) :
    ∃ later, (state.next step).exchanges[n]? = some later ∧
      later.isShutdown = exchange.isShutdown ∧ exchange.news <+: later.news ∧
      (later.phase = exchange.phase ∨ ∃ move after,
        exchange.advance? state.client move = some (after, later.phase)) := by
  have hlt := (List.getElem?_eq_some_iff.mp hexchange).1
  have hidle {other : State} (hsame : other.exchanges[n]? = some exchange) :
      ∃ later, other.exchanges[n]? = some later ∧
        later.isShutdown = exchange.isShutdown ∧ exchange.news <+: later.news ∧
        (later.phase = exchange.phase ∨ ∃ move after,
          exchange.advance? state.client move = some (after, later.phase)) :=
    ⟨exchange, hsame, rfl, List.prefix_rfl, Or.inl rfl⟩
  have hbegin (other : State) (hsame : other.exchanges = state.exchanges) (method : String)
      (params : Option Json) (isShutdown : Bool) :
      (other.begin method params isShutdown).exchanges[n]? = some exchange := by
    simp only [State.begin, hsame]
    rw [List.getElem?_append_left hlt, hexchange]
  have hhear (news : News) (other : Client) :
      ∃ later, (State.mk other (state.exchanges.map (.hear news))).exchanges[n]? = some later ∧
        later.isShutdown = exchange.isShutdown ∧ exchange.news <+: later.news ∧
        (later.phase = exchange.phase ∨ ∃ move after,
          exchange.advance? state.client move = some (after, later.phase)) := by
    refine ⟨exchange.hear news, ?_, ?_, ?_, Or.inl (exchange.phase_hear news)⟩
    · rw [List.getElem?_map, hexchange, Option.map_some]
    · unfold Exchange.hear
      split <;> rfl
    · unfold Exchange.hear
      split
      · exact List.prefix_append _ _
      · exact List.prefix_rfl
  cases step with
  | request method params => exact hidle (hbegin state rfl method params false)
  | beginShutdown =>
    simp only [State.next]
    split
    · exact hidle hexchange
    · exact hidle (hbegin _ rfl _ _ _)
  | move m move =>
    simp only [State.next, State.move]
    split
    · exact hidle hexchange
    · rename_i other hother
      split
      · rename_i client phase hmove
        by_cases hm : m = n
        · subst hm
          obtain rfl := Option.some.inj (hexchange.symm.trans hother)
          refine ⟨{ exchange with phase }, ?_, rfl, List.prefix_rfl, Or.inr ⟨move, client, hmove⟩⟩
          rw [getElem?_settle, if_pos rfl, hexchange, Option.map_some]
        · refine hidle ?_
          rw [getElem?_settle, if_neg hm, hexchange]
      · exact hidle hexchange
  | receive response => exact hhear _ _
  | terminate => exact hhear _ _
  | sendExit => exact hidle hexchange
  | stopSending => exact hidle hexchange
  | failRemaining => exact hhear _ _

/-- A caller who waits for a request that was decided can do nothing but take the outcome. -/
theorem advance?_of_decided (hagrees : exchange.Agrees client) (hphase : exchange.phase = .sent)
    (hnews : exchange.news.head? = some (.answer response)) {move : Move} {phase : Phase}
    (hmove : exchange.advance? client move = some (after, phase)) :
    phase = .ended (.answered response) ∨ phase = .left ∧ exchange.isShutdown = true := by
  have hlookup : client.outcomes.lookup exchange.id = some response := by
    rw [hagrees.outcome (Or.inl (by rw [hphase]; rfl)), hnews]
    rfl
  cases move with
  | collect =>
    simp only [Exchange.advance?, hphase, Client.takeOutcome?, hlookup, Option.map_some,
      Option.some.injEq, Prod.mk.injEq] at hmove
    exact Or.inl hmove.2.symm
  | deadline =>
    -- The outcome is there, so the caller takes it even if the time is over by now.
    simp [Exchange.advance?, hphase, Client.takeOutcome?, hlookup] at hmove
  | leave =>
    simp only [Exchange.advance?, hphase] at hmove
    split at hmove
    · rename_i hshutdown
      obtain ⟨-, rfl⟩ := Prod.mk.inj (Option.some.inj hmove)
      exact Or.inr ⟨rfl, hshutdown⟩
    · cases hmove
  | note | handOver | takeBack | withdraw | tell => simp [Exchange.advance?, hphase] at hmove

/-- Shutting down takes no notice of a request for which it no longer waits. -/
theorem advance?_left (hphase : exchange.phase = .left) (move : Move) :
    exchange.advance? client move = none := by
  cases move <;> simp [Exchange.advance?, hphase]

/-- A response that was the first to decide a request stays so, and goes to the caller. -/
theorem State.Delivers.next (hdelivers : state.Delivers n response) (hcoherent : Coherent state)
    (step : Step) : (state.next step).Delivers n response := by
  obtain ⟨exchange, hexchange, hnews, hphase⟩ := hdelivers
  obtain ⟨later, hlater, hshutdown, ⟨more, hmore⟩, hstep⟩ := exists_next hexchange step
  refine ⟨later, hlater, ?_, ?_⟩
  · rw [← hmore, List.head?_append, hnews]
    rfl
  rw [hshutdown]
  rcases hstep with hsame | ⟨move, after, hmove⟩
  · rwa [hsame]
  rcases hphase with hsent | hended | ⟨hleft, -⟩
  · have hagrees := hcoherent.agrees exchange (List.mem_of_getElem? hexchange)
    exact Or.inr (advance?_of_decided hagrees hsent hnews hmove)
  · rw [advance?_ended hended] at hmove
    cases hmove
  · rw [advance?_left hleft] at hmove
    cases hmove

/-- A response about a request in flight decides it. -/
theorem delivers_receive (hexchange : state.exchanges[n]? = some exchange)
    (hphase : exchange.phase = .sent) (hnews : exchange.news = [])
    (habout : response.IsAbout exchange.id) :
    (state.next (.receive response)).Delivers n response := by
  have hconcerns := (concerns_answer exchange.id).mpr habout
  have hhear : exchange.hear (.answer response) = { exchange with news := [.answer response] } := by
    rw [Exchange.hear, hphase, hconcerns, if_pos (by rfl), hnews, List.nil_append]
  refine ⟨{ exchange with news := [.answer response] }, ?_, rfl, Or.inl hphase⟩
  simp only [State.next]
  rw [List.getElem?_map, hexchange, Option.map_some, hhear]

/-- A caller who still waits can take the response. -/
theorem State.Delivers.collect (hdelivers : state.Delivers n response)
    (hcoherent : Coherent state) (hexchange : state.exchanges[n]? = some exchange)
    (hphase : exchange.phase = .sent) :
    (state.next (.move n .collect)).HasReached n exchange.id (.ended (.answered response)) := by
  obtain ⟨found, hfound, hnews, -⟩ := hdelivers
  obtain rfl := Option.some.inj (hexchange.symm.trans hfound)
  have hagrees := hcoherent.agrees exchange (List.mem_of_getElem? hexchange)
  have hlookup : state.client.outcomes.lookup exchange.id = some response := by
    rw [hagrees.outcome (Or.inl (by rw [hphase]; rfl)), hnews]
    rfl
  refine ⟨{ exchange with phase := .ended (.answered response) }, ?_, rfl, rfl⟩
  simp only [State.next, State.move, hexchange, Exchange.advance?, hphase, Client.takeOutcome?,
    hlookup, Option.map_some]
  rw [getElem?_settle, if_pos rfl, hexchange, Option.map_some]

/-- The causes of failures stay, as long as the connection does not come back. -/
theorem Exchange.IsGrounded.congr (hgrounded : exchange.IsGrounded client)
    (hterminated : client.isTerminated = true → after.isTerminated = true) :
    exchange.IsGrounded after where
  refused h := hterminated (hgrounded.refused h)
  unsent := hgrounded.unsent
  failures error hmem hcode := hterminated (hgrounded.failures error hmem hcode)

/-- The client has made up no failure of the request itself. -/
def Phase.IsUnfailed (phase : Phase) : Prop :=
  phase ≠ .ended .refused ∧ ∀ error, phase ≠ .failed error ∧ phase ≠ .ended (.unsent error)

/-- A request is refused only on a connection that went away, and it fails to be handed over only if
nothing can be sent. No other move makes up a failure. -/
theorem advance?_cases {move : Move} {phase : Phase}
    (hmove : exchange.advance? client move = some (after, phase)) :
    phase = .ended .refused ∧ client.isTerminated = true ∨ phase = .failed .notConnected ∨
      (∃ error, exchange.phase = .failed error ∧ phase = .ended (.unsent error)) ∨
      phase.IsUnfailed := by
  unfold Exchange.advance? at hmove
  split at hmove
  case h_1 =>
    split at hmove <;> obtain ⟨-, rfl⟩ := Prod.mk.inj (Option.some.inj hmove)
    · exact Or.inr (Or.inr (Or.inr (by simp [Phase.IsUnfailed])))
    · rename_i hnote
      refine Or.inl ⟨rfl, ?_⟩
      unfold Client.note at hnote
      split at hnote
      · assumption
      · cases hnote
  case h_2 =>
    split at hmove <;> obtain ⟨-, rfl⟩ := Prod.mk.inj (Option.some.inj hmove)
    · exact Or.inr (Or.inr (Or.inr (by simp [Phase.IsUnfailed])))
    · rename_i hsend
      unfold Client.sendRequest Client.send at hsend
      split at hsend
      · cases hsend
      · exact Or.inr (Or.inl (congrArg Phase.failed (Except.error.inj hsend).symm))
  case h_3 error hphase =>
    obtain ⟨-, rfl⟩ := Prod.mk.inj (Option.some.inj hmove)
    exact Or.inr (Or.inr (Or.inl ⟨error, hphase, rfl⟩))
  case h_4 =>
    obtain ⟨_, -, heq⟩ := Option.map_eq_some_iff.mp hmove
    obtain ⟨-, rfl⟩ := Prod.mk.inj heq
    exact Or.inr (Or.inr (Or.inr (by simp [Phase.IsUnfailed])))
  all_goals
    refine Or.inr (Or.inr (Or.inr ?_))
    first
      | cases hmove <;> simp [Phase.IsUnfailed]
      | split at hmove <;> cases hmove; simp [Phase.IsUnfailed]

/-- A move of a request makes up a failure only for its cause. -/
theorem Exchange.IsGrounded.advance (hgrounded : exchange.IsGrounded client) {move : Move}
    {phase : Phase} (hmove : exchange.advance? client move = some (after, phase)) :
    { exchange with phase }.IsGrounded after := by
  have hsame := (Connection.unmoved_advance? hmove).isTerminated
  refine ⟨fun hrefused => ?_, fun error hfailure => ?_, fun error hmem hcode => ?_⟩
  · obtain rfl : phase = .ended .refused := hrefused
    obtain ⟨-, hgone⟩ | h | ⟨_, -, h⟩ | ⟨h, -⟩ := advance?_cases hmove
    · exact hsame.trans hgone
    · cases h
    · cases h
    · exact absurd rfl h
  · replace hfailure : phase = .failed error ∨ phase = .ended (.unsent error) := hfailure
    obtain ⟨rfl, -⟩ | rfl | ⟨cause, hfailed, rfl⟩ | ⟨-, h⟩ := advance?_cases hmove
    · rcases hfailure with h | h <;> cases h
    · rcases hfailure with h | h
      · exact (Phase.failed.inj h).symm
      · cases h
    · rcases hfailure with h | h
      · cases h
      · obtain rfl := Ending.unsent.inj (Phase.ended.inj h)
        exact hgrounded.unsent cause (Or.inl hfailed)
    · rcases hfailure with rfl | rfl
      · exact absurd rfl (h error).1
      · exact absurd rfl (h error).2
  · exact hsame.trans (hgrounded.failures error hmem hcode)

/-- News that is no loss of the connection, or comes with one, has its cause. -/
theorem Exchange.IsGrounded.hear (hgrounded : exchange.IsGrounded client) {news : News}
    (hnews : ∀ error, news = .failure error → error.code = ResponseError.serverTerminated →
      client.isTerminated = true) : (exchange.hear news).IsGrounded client := by
  refine ⟨?_, ?_, fun error hmem hcode => ?_⟩
  · rw [exchange.phase_hear]
    exact hgrounded.refused
  · rw [exchange.phase_hear]
    exact hgrounded.unsent
  · unfold Exchange.hear at hmem
    split at hmem
    · rcases List.mem_append.mp hmem with hold | hnew
      · exact hgrounded.failures error hold hcode
      · exact hnews error (List.mem_singleton.mp hnew).symm hcode
    · exact hgrounded.failures error hmem hcode

/-- Every step keeps the causes of all failures. -/
theorem State.IsGrounded.next (hgrounded : state.IsGrounded) (step : Step) :
    (state.next step).IsGrounded := by
  have hlater := (isTerminated_next_iff state step).mpr ∘ Or.inr
  have hbegin (other : State) (hsame : other.exchanges = state.exchanges)
      (hgone : other.client.isTerminated = state.client.isTerminated) (method : String)
      (params : Option Json) (isShutdown : Bool) :
      (other.begin method params isShutdown).IsGrounded := by
    intro exchange hexchange
    simp only [State.begin, hsame] at hexchange
    rcases List.mem_append.mp hexchange with hold | hnew
    · exact (hgrounded exchange hold).congr fun h => hgone.trans h
    · obtain rfl := List.mem_singleton.mp hnew
      refine ⟨fun hsent => ?_, fun error hfailure => ?_, fun error hmem => by cases hmem⟩
      · cases hsent
      · rcases hfailure with h | h <;> cases h
  have hhear {news : News} {after : Client}
      (hgone : state.client.isTerminated = true → after.isTerminated = true)
      (hnews : ∀ error, news = .failure error → error.code = ResponseError.serverTerminated →
        after.isTerminated = true) :
      (State.mk after (state.exchanges.map (.hear news))).IsGrounded := by
    intro exchange hexchange
    obtain ⟨before, hbefore, rfl⟩ := List.mem_map.mp hexchange
    exact ((hgrounded before hbefore).congr hgone).hear hnews
  cases step with
  | request method params => exact hbegin state rfl rfl method params false
  | beginShutdown =>
    simp only [State.next]
    split
    · exact hgrounded
    · exact hbegin ⟨{ state.client with isShutdown := true }, state.exchanges⟩ rfl rfl _ _ _
  | move n move =>
    simp only [State.next, State.move] at hlater ⊢
    split
    · exact hgrounded
    · rename_i exchange hexchange
      split
      · rename_i after phase hmove
        intro other hother
        obtain ⟨m, hm⟩ := List.mem_iff_getElem?.mp hother
        rw [getElem?_settle] at hm
        split at hm
        · rename_i heq
          subst heq
          rw [hexchange] at hm
          obtain rfl := Option.some.inj hm
          exact (hgrounded exchange (List.mem_of_getElem? hexchange)).advance hmove
        · have hsame := (Connection.unmoved_advance? hmove).isTerminated
          exact (hgrounded other (List.mem_of_getElem? hm)).congr fun h => hsame.trans h
      · exact hgrounded
  | receive response => exact hhear hlater fun error herror => by cases herror
  | terminate => exact hhear hlater fun _ _ _ => rfl
  | sendExit => exact fun exchange hexchange => (hgrounded exchange hexchange).congr hlater
  | stopSending => exact fun exchange hexchange => (hgrounded exchange hexchange).congr hlater
  | failRemaining =>
    -- Shutting down fails requests with another code than a lost connection does.
    refine hhear hlater fun error herror hcode => ?_
    obtain rfl := News.failure.inj herror
    exact absurd hcode (by decide)

/-- What the caller of a failed request gets: the error as it was sent, unless it has the code of a
lost connection. -/
theorem resultOf_error (client : Client) {error : ResponseError}
    (houtcome : response.outcome = .error error) : client.resultOf response =
      .error (if error.code = ResponseError.serverTerminated then .terminated client.name
        else .serverError error.code error.message) := by
  rw [Client.resultOf, houtcome]
  dsimp only
  by_cases hcode : error.code = ResponseError.serverTerminated
  · rw [if_pos (beq_iff_eq.mpr hcode), if_pos hcode, Client.terminatedError]
  · rw [if_neg (mt beq_iff_eq.mp hcode), if_neg hcode, ClientError.ofResponse]

/-- A caller gets what the answer says that was the first to decide the request. -/
theorem Exchange.IsFailedBy.result?_eq {error : ResponseError}
    (hfailed : exchange.IsFailedBy error) (client : Client) : exchange.result? client =
      some (.error (if error.code = ResponseError.serverTerminated then .terminated client.name
        else .serverError error.code error.message)) := by
  obtain ⟨response, hphase, -, houtcome⟩ := hfailed
  rw [Exchange.result?, hphase]
  exact congrArg some (resultOf_error client houtcome)

/-- A caller hears of a lost connection if it was lost, or if the server has said so. -/
theorem lost_cases (hagrees : exchange.Agrees client) (hgrounded : exchange.IsGrounded client)
    {server : String} (hresult : exchange.result? client = some (.error (.terminated server))) :
    client.isTerminated = true ∨
      ∃ error, exchange.IsFailedBy error ∧ error.code = ResponseError.serverTerminated := by
  unfold Exchange.result? at hresult
  split at hresult
  · rename_i ending hphase
    replace hresult := Option.some.inj hresult
    cases ending with
    | refused => exact Or.inl (hgrounded.refused hphase)
    | unsent error =>
      obtain rfl := hgrounded.unsent error (Or.inr hphase)
      cases hresult
    | timedOut isTold => cases hresult
    | answered response =>
      replace hresult : client.resultOf response = .error (.terminated server) := hresult
      obtain ⟨error, houtcome⟩ : ∃ error, response.outcome = .error error := by
        unfold Client.resultOf at hresult
        split at hresult
        · cases hresult
        · rename_i error houtcome
          exact ⟨error, houtcome⟩
      have hcode : error.code = ResponseError.serverTerminated := by
        by_contra hcode
        rw [resultOf_error client houtcome, if_neg hcode] at hresult
        cases hresult
      -- The response is either one of the server, or was made up when all requests were failed.
      obtain ⟨news, hnews, hresponse⟩ :=
        Option.map_eq_some_iff.mp (hagrees.answered response hphase)
      cases news with
      | answer sent =>
        obtain rfl : sent = response := hresponse
        exact Or.inr ⟨error, ⟨sent, hphase, hnews, houtcome⟩, hcode⟩
      | failure cause =>
        obtain rfl : Response.failure _ cause = response := hresponse
        obtain rfl : cause = error := Except.error.inj houtcome
        exact Or.inl (hgrounded.failures cause (List.mem_of_head? hnews) hcode)
  · cases hresult

/-- Callers hear of failures as they are, exactly as long as no server uses the code of a lost
connection. -/
theorem isFaithful_iff (hcoherent : Coherent state) (hgrounded : state.IsGrounded) :
    state.IsFaithful ↔ ∀ exchange ∈ state.exchanges, ∀ error, exchange.IsFailedBy error →
      error.code ≠ ResponseError.serverTerminated := by
  constructor
  · intro hfaithful exchange hexchange error hfailed hcode
    have hresult := hfaithful.errors exchange hexchange error hfailed
    rw [hfailed.result?_eq, if_pos hcode] at hresult
    cases hresult
  · intro hcodes
    refine ⟨fun exchange hexchange error hfailed => ?_, fun exchange hexchange server hresult => ?_⟩
    · rw [hfailed.result?_eq, if_neg (hcodes exchange hexchange error hfailed)]
    · rcases lost_cases (hcoherent.agrees exchange hexchange) (hgrounded exchange hexchange)
        hresult with hlost | ⟨error, hfailed, hcode⟩
      · exact hlost
      · exact absurd hcode (hcodes exchange hexchange error hfailed)

end Steps

/-- What callers hear about failures at the end of a run. -/
structure Reported (start : State) (steps : List Step) : Prop where
  /-- A response to a request in flight goes to the caller, whatever happens afterwards. -/
  delivers : ∀ (n : Nat) exchange response, (run start steps).exchanges[n]? = some exchange →
    exchange.phase = .sent → exchange.news = [] → response.IsAbout exchange.id →
    ∀ more, (run start (steps ++ .receive response :: more)).Delivers n response
  /-- A caller who waits takes what was delivered. -/
  collects : ∀ (n : Nat) exchange response, (run start steps).exchanges[n]? = some exchange →
    exchange.phase = .sent → (run start steps).Delivers n response →
    (run start (steps ++ [.move n .collect])).HasReached n exchange.id (.ended (.answered response))
  /-- The connection counts as lost exactly if the stream of the server has ended. -/
  isTerminated_iff : (run start steps).client.isTerminated = true ↔ .terminate ∈ steps
  /-- Callers hear of failures as they are, exactly if no error that the server has answered with
  and that a caller has got has the code of a lost connection. -/
  isFaithful_iff : (run start steps).IsFaithful ↔
    ∀ exchange ∈ (run start steps).exchanges, ∀ error, exchange.IsFailedBy error →
      error.code ≠ ResponseError.serverTerminated

section Runs

variable {start : State}

/-- What was delivered stays so for the rest of the run. -/
theorem delivers_run (hstart : Coherent start) {steps : List Step} (more : List Step) {n : Nat}
    {response : Response} (hdelivers : (run start steps).Delivers n response) :
    (run start (steps ++ more)).Delivers n response := by
  refine Run.final_append_induction State.next start
    (fun state => state.Delivers n response) steps more hdelivers ?_
  intro before step hbefore
  rw [Run.final_concat]
  exact hbefore.next (coherent_run hstart before) step

/-- The connection counts as lost exactly if the stream has ended in the run. -/
theorem isTerminated_run_iff (hstart : start.client.isTerminated = false) (steps : List Step) :
    (run start steps).client.isTerminated = true ↔ .terminate ∈ steps := by
  induction steps using List.reverseRecOn with
  | nil => simp [run, Run.final, hstart]
  | append_singleton steps step ih =>
    rw [run, Run.final_concat, isTerminated_next_iff, ih, List.mem_append, List.mem_singleton,
      or_comm, eq_comm]

/-- For every run of a client, from its connection on: a response to a request in flight goes to its
caller. The errors of the server are passed on as they were sent, and callers hear of a lost
connection only if the stream has ended, exactly if the server never uses the code that is reserved
for that. -/
theorem reported_run (name : String) (encoding : PositionEncoding) (timeouts : Timeouts)
    (processId : UInt32) (handshakeOptions : Option Json) (steps : List Step) :
    Reported (.initial name encoding timeouts processId handshakeOptions) steps := by
  have hstart := coherent_initial name encoding timeouts processId handshakeOptions
  have hgrounded : (run (.initial name encoding timeouts processId handshakeOptions)
      steps).IsGrounded :=
    Run.final_induction _ _ (fun _ hmem => by cases hmem) (fun _ step h => h.next step) steps
  refine ⟨fun n exchange response hexchange hphase hnews habout more => ?_,
    fun n exchange response hexchange hphase hdelivers => ?_, isTerminated_run_iff rfl steps,
    isFaithful_iff (coherent_run hstart steps) hgrounded⟩
  · rw [List.append_cons]
    refine delivers_run hstart more ?_
    rw [run, Run.final_concat]
    exact delivers_receive hexchange hphase hnews habout
  · rw [run, Run.final_concat]
    exact hdelivers.collect (coherent_run hstart steps) hexchange hphase

/-- A run in which the server answers a request with an error that has the reserved code. -/
def usesReservedCode : List Step :=
  [.request "textDocument/hover" none, .move 0 .note, .move 0 .handOver,
    .receive (.failure (.number 1) (.plain ResponseError.serverTerminated "busy")),
    .move 0 .collect]

/-- The caller hears that the connection went away, which is still there. -/
theorem not_isFaithful_of_usesReservedCode :
    let state := run (.initial "server" .utf16 .standard 0 none) usesReservedCode
    state.exchanges.map (Exchange.result? state.client) =
      [some (.error (.terminated "server"))] ∧
    state.client.isTerminated = false ∧ ¬ state.IsFaithful := by
  refine ⟨rfl, rfl, fun hfaithful => ?_⟩
  have hlost := hfaithful.losses _ (List.mem_singleton_self _) "server" rfl
  cases hlost

end Runs

end LanguageClient.Correlation
