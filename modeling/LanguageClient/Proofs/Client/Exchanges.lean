import LanguageClient.Client.Lifecycle
import LanguageClient.Proofs.Runs
import LanguageClient.Proofs.Text.Reading

/-!
# Requests in flight

A client makes any number of requests, each of which goes through stages: it gets a number, it is
noted as outstanding, it is handed over for writing, and its caller waits until there is an outcome
or the time is over. In between, responses with any ids arrive, the connection may go away, and the
client may be shut down; each of these may also fall between two stages of a request. Requests are
kept in the order in which they got their numbers, and each remembers what has reached it since it
was noted. A response is about the request whose number is its id, or is spelled by its id.
-/

namespace LanguageClient

/-- The number that an id stands for. Some servers give numbers back as texts. -/
inductive RequestId.Names : RequestId → Nat → Prop
  | number (value : UInt64) : Names (.number value) value.toNat
  | text {text : String} {n : Nat} (hspells : Numeral.Spells text.toList n)
      (hword : n < UInt64.size) : Names (.text text) n

/-- A response is about the request that its id names, and about none if its id is null. -/
def Response.IsAbout (response : Response) (n : Nat) : Prop :=
  ∃ id, response.id = some id ∧ id.Names n

/-- The client looks for the request that an id names. -/
theorem Client.answeredNumber?_eq_some_iff {id : RequestId} {n : Nat} :
    answeredNumber? id = some n ↔ id.Names n := by
  cases id with
  | number value =>
    rw [answeredNumber?, Option.some.injEq]
    constructor
    · rintro rfl
      exact .number value
    · intro hnames
      cases hnames
      rfl
  | text text =>
    have hread : answeredNumber? (.text text) = some n ↔
        Numeral.readChars UInt64.size text.toList = .ok n := by
      rw [answeredNumber?, Numeral.read]
      cases Numeral.readChars UInt64.size text.toList <;> simp [Except.toOption]
    rw [hread, Numeral.readChars_eq_ok_iff (by decide)]
    constructor
    · rintro ⟨hspells, hword⟩
      exact .text hspells hword
    · intro hnames
      cases hnames with
      | text hspells hword => exact ⟨hspells, hword⟩

/-- The client looks for the request that a response is about. -/
theorem Response.isAbout_iff {response : Response} {n : Nat} :
    response.id.bind Client.answeredNumber? = some n ↔ response.IsAbout n := by
  rw [Option.bind_eq_some_iff]
  exact exists_congr fun id => and_congr_right fun _ => Client.answeredNumber?_eq_some_iff

instance (response : Response) (n : Nat) : Decidable (response.IsAbout n) :=
  decidable_of_iff (response.id.bind Client.answeredNumber? = some n) Response.isAbout_iff

namespace Correlation

/-- What decides the outcome of a request. -/
inductive News
  | answer (response : Response)
  /-- All outstanding requests fail. -/
  | failure (error : ResponseError)

namespace News

/-- Whether news is about the request with a number. -/
def concerns (id : Nat) : News → Bool
  | .answer response => decide (response.IsAbout id)
  | .failure _ => true

/-- The response by which news reaches the request with a number. -/
def response (id : Nat) : News → Response
  | .answer response => response
  | .failure error => .failure (.number (UInt64.ofNat id)) error

end News

/-- How a request has ended. -/
inductive Ending
  /-- It came when the connection was already gone. -/
  | refused
  /-- It could not be handed over for writing. -/
  | unsent (error : ClientError)
  | answered (response : Response)
  /-- Its time was over; the server could be told so, or not. -/
  | timedOut (isTold : Bool)

/-- What the caller of a request gets. -/
def Ending.result (client : Client) (method : String) : Ending → Except ClientError Json
  | .refused => .error client.terminatedError
  | .unsent error => .error error
  | .answered response => client.resultOf response
  | .timedOut _ => .error (.requestTimeout client.name method)

/-- How far a request has come. -/
inductive Phase
  /-- It has a number. -/
  | numbered
  /-- It is noted as outstanding, but not handed over yet. -/
  | noted
  /-- It could not be handed over, and is still to be withdrawn. -/
  | failed (error : ClientError)
  /-- Its caller waits. -/
  | sent
  /-- Its time is over, and it is still to be withdrawn. -/
  | overdue
  /-- Its time is over, and the server is still to be told. -/
  | withdrawn
  /-- Shutting down no longer waits for it; it had been noted before. -/
  | left
  /-- Shutting down no longer waits for it; it had not been noted yet. -/
  | leftEarly
  | ended (ending : Ending)

namespace Phase

/-- Whether a request was ever noted as outstanding. -/
def wasNoted : Phase → Bool
  | .numbered | .leftEarly | .ended .refused => false
  | _ => true

/-- Whether a request is to be outstanding until news reaches it. -/
def isOpen : Phase → Bool
  | .noted | .failed _ | .sent | .overdue | .left => true
  | _ => false

end Phase

/-- A request, and what has reached it since it was noted. -/
structure Exchange where
  id : Nat
  method : String
  params : Option Json
  /-- Whether shutting down has made the request. -/
  isShutdown : Bool
  phase : Phase
  news : List News

/-- Lets a request that was noted remember news that concerns it. -/
def Exchange.hear (news : News) (exchange : Exchange) : Exchange :=
  if exchange.phase.wasNoted && news.concerns exchange.id then
    { exchange with news := exchange.news ++ [news] }
  else exchange

/-- A client, and all requests that it has ever made. -/
structure State where
  client : Client
  exchanges : List Exchange

/-- What a request can do next. -/
inductive Move
  | note
  | handOver
  /-- It could not be handed over, and is withdrawn. -/
  | takeBack
  /-- Its caller takes the outcome. -/
  | collect
  /-- Its time passes without an outcome. -/
  | deadline
  /-- Its time is over, and it is withdrawn. -/
  | withdraw
  /-- The server is told that it was given up. -/
  | tell
  /-- Shutting down no longer waits for it. -/
  | leave

/-- One thing that can happen. -/
inductive Step
  /-- A request gets its number. -/
  | request (method : String) (params : Option Json)
  /-- Shutting down begins, and its own request gets a number. -/
  | beginShutdown
  | move (n : Nat) (move : Move)
  | receive (response : Response)
  /-- The stream of the server ends. -/
  | terminate
  | sendExit
  | stopSending
  /-- Shutting down fails what is still outstanding. -/
  | failRemaining

/-- What a move of a request leads to, if the request has come far enough for it. -/
def Exchange.advance? (client : Client) (exchange : Exchange) (move : Move) :
    Option (Client × Phase) :=
  match move, exchange.phase with
  | .note, .numbered =>
    match client.note exchange.id with
    | .ok client => some (client, .noted)
    | .error _ => some (client, .ended .refused)
  | .handOver, .noted =>
    match client.sendRequest exchange.id exchange.method exchange.params with
    | .ok client => some (client, .sent)
    | .error error => some (client, .failed error)
  | .takeBack, .failed error => some (client.withdraw exchange.id, .ended (.unsent error))
  | .collect, .sent =>
    (client.takeOutcome? exchange.id).map fun (response, client) =>
      (client, .ended (.answered response))
  | .deadline, .sent =>
    if (client.takeOutcome? exchange.id).isSome then none else some (client, .overdue)
  | .withdraw, .overdue => some (client.withdraw exchange.id, .withdrawn)
  | .tell, .withdrawn =>
    some (client.tellCancelled exchange.id, .ended (.timedOut client.isSending))
  | .leave, .numbered => if exchange.isShutdown then some (client, .leftEarly) else none
  | .leave, .failed _ | .leave, .sent | .leave, .overdue =>
    if exchange.isShutdown then some (client, .left) else none
  | _, _ => none

namespace State

/-- Takes note of how far a request has come. -/
def settle (state : State) (n : Nat) (client : Client) (phase : Phase) : State :=
  ⟨client, state.exchanges.modify n fun exchange => { exchange with phase }⟩

/-- Adds a request that has just got its number. -/
def begin (state : State) (method : String) (params : Option Json) (isShutdown : Bool) : State :=
  let (id, client) := state.client.takeNumber
  ⟨client, state.exchanges ++ [⟨id, method, params, isShutdown, .numbered, []⟩]⟩

/-- Lets a request go on. -/
def move (state : State) (n : Nat) (move : Move) : State :=
  match state.exchanges[n]? with
  | none => state
  | some exchange =>
    match exchange.advance? state.client move with
    | some (client, phase) => state.settle n client phase
    | none => state

/-- What one step leads to. -/
def next (state : State) : Step → State
  | .request method params => state.begin method params false
  | .beginShutdown =>
    if state.client.isShutdown then state
    else { state with client := { state.client with isShutdown := true } }.begin
      Client.shutdownMethod none true
  | .move n move => state.move n move
  | .receive response =>
    ⟨state.client.takeResponse response, state.exchanges.map (.hear (.answer response))⟩
  | .terminate =>
    ⟨state.client.terminate,
      state.exchanges.map (.hear (.failure state.client.terminationFailure))⟩
  | .sendExit => { state with client := state.client.sendExit }
  | .stopSending => { state with client := state.client.stopSending }
  | .failRemaining =>
    ⟨state.client.failRemaining, state.exchanges.map (.hear (.failure Client.shutdownFailure))⟩

/-- A client that was just connected, and no request. -/
def initial (name : String) (encoding : PositionEncoding) (timeouts : Timeouts)
    (processId : UInt32) (handshakeOptions : Option Json) : State :=
  ⟨.connect name encoding timeouts processId handshakeOptions, []⟩

end State

end Correlation

end LanguageClient
