import LanguageClient.Proofs.Client.Exchanges
import LanguageClient.Proofs.Feature.Lingering
import LanguageClient.Proofs.Feature.Static

/-!
# Calls for features on a connection that went away

Requests and calls for features share one client. When the connection goes away, and at the end of
shutting down, all of them are failed that wait at that moment. A request that comes later is
refused, because it looks whether the connection is still there before it is noted. A call for a
feature does not look. So the calls that are pending after the end of a connection are those that
have begun since, and by themselves they end at their deadline or not at all.
-/

namespace LanguageClient.Connection

open Waiting (Stage)

/-- A client, all requests that it has ever made, and all calls for features. -/
structure State where
  requests : Correlation.State
  calls : List (Waiting.Call × Stage)

/-- One thing that can happen: to the requests and the connection, or to the grants and the calls
for features. -/
inductive Step
  | exchange (step : Correlation.Step)
  | feature (step : Waiting.Step)

namespace State

/-- The client of the connection. -/
def client (state : State) : Client := state.requests.client

/-- The registry of the client with the calls that were ever made. -/
def waiting (state : State) : Waiting.State := ⟨state.client.registry, state.calls⟩

/-- What one step leads to. -/
def next (files : FileTree) (state : State) : Step → State
  | .exchange step => { state with requests := state.requests.next step }
  | .feature step =>
    let waiting := state.waiting.next files step
    ⟨{ state.requests with client := { state.client with registry := waiting.registry } },
      waiting.calls⟩

/-- A call that has begun, and has neither ended nor been dropped. -/
def HasOpen (state : State) (n : Nat) (call : Waiting.Call) : Prop :=
  state.waiting.HasOpen n call

/-- A call has an entry in the registry. -/
def IsPending (state : State) (call : Waiting.Call) : Prop :=
  ∃ waiter ∈ state.client.registry.waiters, call.waiter? = some waiter

end State

/-- Whether a step fails everything that waits. -/
def Step.isEnd : Step → Bool
  | .exchange .terminate | .exchange .failRemaining => true
  | _ => false

/-- What of a step the registry sees. -/
def Step.seen : Step → List Waiting.Step
  | .exchange .terminate | .exchange .failRemaining => [.abandon]
  | .exchange _ => []
  | .feature step => [step]

/-- What of a run the registry sees. -/
def history (steps : List Step) : List Waiting.Step :=
  steps.flatMap Step.seen

section Frame

variable {client after : Client}

/-- What does not change when a request goes on: the grants, the calls that wait for one, and
whether the connection is there. -/
structure Unmoved (client after : Client) : Prop where
  registry : after.registry = client.registry
  isTerminated : after.isTerminated = client.isTerminated

theorem unmoved_send {message : Message} (hsend : client.send message = .ok after) :
    Unmoved client after := by
  unfold Client.send at hsend
  split at hsend
  · obtain rfl := Except.ok.inj hsend
    exact ⟨rfl, rfl⟩
  · cases hsend

theorem unmoved_trySend (client : Client) (message : Message) :
    Unmoved client (client.trySend message) := by
  unfold Client.trySend
  split
  · rename_i hsend
    exact unmoved_send hsend
  · exact ⟨rfl, rfl⟩

theorem unmoved_takeResponse (client : Client) (response : Response) :
    Unmoved client (client.takeResponse response) := by
  unfold Client.takeResponse
  split
  · split <;> exact ⟨rfl, rfl⟩
  · exact ⟨rfl, rfl⟩

theorem unmoved_note {id : Nat} (hnote : client.note id = .ok after) : Unmoved client after := by
  unfold Client.note at hnote
  split at hnote
  · cases hnote
  · obtain rfl := Except.ok.inj hnote
    exact ⟨rfl, rfl⟩

theorem unmoved_takeOutcome? {id : Nat} {response : Response}
    (htake : client.takeOutcome? id = some (response, after)) : Unmoved client after := by
  obtain ⟨_, -, heq⟩ := Option.map_eq_some_iff.mp htake
  obtain ⟨-, rfl⟩ := Prod.mk.inj heq
  exact ⟨rfl, rfl⟩

/-- A request that goes on changes nothing of that. -/
theorem unmoved_advance? {exchange : Correlation.Exchange} {move : Correlation.Move}
    {phase : Correlation.Phase} (hmove : exchange.advance? client move = some (after, phase)) :
    Unmoved client after := by
  have hsame {other : Client} {next : Correlation.Phase}
      (h : some (other, next) = some (after, phase)) (hother : Unmoved client other) :
      Unmoved client after := by
    obtain ⟨rfl, -⟩ := Prod.mk.inj (Option.some.inj h)
    exact hother
  have hleave {next : Correlation.Phase}
      (h : (if exchange.isShutdown then some (client, next) else none) = some (after, phase)) :
      Unmoved client after := by
    split at h
    · exact hsame h ⟨rfl, rfl⟩
    · cases h
  unfold Correlation.Exchange.advance? at hmove
  split at hmove
  · split at hmove
    · rename_i hnote
      exact hsame hmove (unmoved_note hnote)
    · exact hsame hmove ⟨rfl, rfl⟩
  · split at hmove
    · rename_i hsend
      exact hsame hmove (unmoved_send hsend)
    · exact hsame hmove ⟨rfl, rfl⟩
  · exact hsame hmove ⟨rfl, rfl⟩
  · obtain ⟨⟨response, other⟩, htake, heq⟩ := Option.map_eq_some_iff.mp hmove
    exact hsame (congrArg some heq) (unmoved_takeOutcome? htake)
  · split at hmove
    · cases hmove
    · exact hsame hmove ⟨rfl, rfl⟩
  · exact hsame hmove ⟨rfl, rfl⟩
  · exact hsame hmove (unmoved_trySend _ _)
  · exact hleave hmove
  · exact hleave hmove
  · exact hleave hmove
  · exact hleave hmove
  · cases hmove

/-- Nothing that happens to the requests and the connection changes that, apart from an end. -/
theorem unmoved_next (requests : Correlation.State) {step : Correlation.Step}
    (hstep : (Step.exchange step).isEnd = false) :
    Unmoved requests.client (requests.next step).client := by
  cases step with
  | request | stopSending => exact ⟨rfl, rfl⟩
  | beginShutdown =>
    simp only [Correlation.State.next]
    split <;> exact ⟨rfl, rfl⟩
  | move n move =>
    simp only [Correlation.State.next, Correlation.State.move]
    split
    · exact ⟨rfl, rfl⟩
    · split
      · rename_i hmove
        exact unmoved_advance? hmove
      · exact ⟨rfl, rfl⟩
  | receive response => exact unmoved_takeResponse _ _
  | terminate | failRemaining => cases hstep
  | sendExit => exact unmoved_trySend _ _

end Frame

section History

variable {files : FileTree}

/-- What of a step the registry sees is all that it and the calls notice. -/
theorem waiting_next (state : State) (step : Step) :
    (state.next files step).waiting =
      Run.final (Waiting.State.next files) state.waiting step.seen := by
  cases step with
  | feature step => rfl
  | exchange step =>
    cases hend : (Step.exchange step).isEnd with
    | true => cases step <;> first | rfl | cases hend
    | false =>
      have hseen : (Step.exchange step).seen = [] := by
        cases step <;> first | rfl | cases hend
      have hregistry := (unmoved_next state.requests hend).registry
      rw [hseen]
      exact congrArg (Waiting.State.mk · state.calls) hregistry

/-- A connection that went away does not come back. -/
theorem isTerminated_next (state : State) (step : Step)
    (hgone : state.client.isTerminated = true) :
    (state.next files step).client.isTerminated = true := by
  cases step with
  | feature step => exact hgone
  | exchange step =>
    cases hend : (Step.exchange step).isEnd with
    | true => cases step <;> first | rfl | exact hgone | cases hend
    | false => exact (unmoved_next state.requests hend).isTerminated.trans hgone

end History

namespace State

/-- A client that was just connected, and neither a request nor a call. -/
def initial (name : String) (encoding : PositionEncoding) (timeouts : Timeouts)
    (processId : UInt32) (handshakeOptions : Option Json) : State :=
  ⟨.initial name encoding timeouts processId handshakeOptions, []⟩

end State

/-- What a run leads to. -/
abbrev run (files : FileTree) (start : State) (steps : List Step) : State :=
  Run.final (State.next files) start steps

/-- What holds at the end of a run in which the connection went away when some calls had begun. -/
structure AfterEnd (files : FileTree) (start : State) (begun : Nat) (steps : List Step) : Prop where
  terminated : (run files start steps).client.isTerminated = true
  /-- No entry is left exactly if the open calls that have begun since were met or given up. -/
  empty_iff : (run files start steps).client.registry.waiters = [] ↔
    ∀ n call, (run files start steps).HasOpen n call → begun ≤ n →
      Waiting.WasMet files (history steps) n call ∨ Waiting.WasGivenUp files (history steps) n call
  /-- A call that had begun before has no entry any more; by itself it ends, and it fails as given
  up unless it was met. -/
  early : ∀ n call, (run files start steps).HasOpen n call → n < begun →
    ¬ (run files start steps).IsPending call ∧
    ∃ signal, Waiting.WasTold files (history steps) n call signal ∧
      (run files start (steps ++ (Waiting.linger n).map .feature)).calls[n]? =
        some (call, .ended (signal.result call.method))
  /-- A call that has begun since, and was neither met nor given up, has an entry; by itself it ends
  at its deadline, or not at all. -/
  late : ∀ n call, (run files start steps).HasOpen n call → begun ≤ n →
    ¬ Waiting.WasMet files (history steps) n call →
    ¬ Waiting.WasGivenUp files (history steps) n call →
    (run files start steps).IsPending call ∧
    (run files start (steps ++ (Waiting.linger n).map .feature)).calls[n]? =
      some (call, call.unsignalled)

section Runs

variable {files : FileTree} {start : State}

/-- What the registry sees of a run leads to the same. -/
theorem waiting_run (hstart : start.waiting = .initial) (steps : List Step) :
    (run files start steps).waiting = Waiting.run files (history steps) := by
  induction steps using List.reverseRecOn with
  | nil => exact hstart
  | append_singleton steps step ih =>
    have hhistory : history (steps ++ [step]) = history steps ++ step.seen := by
      rw [history, List.flatMap_append, List.flatMap_singleton]
      rfl
    have hrun : Waiting.run files (history steps ++ step.seen) =
        Run.final (Waiting.State.next files) (Waiting.run files (history steps)) step.seen :=
      List.foldl_append
    rw [run, Run.final_concat, waiting_next, hhistory, hrun, ← ih]

/-- A call that has begun has begun for good. -/
theorem knows_run (steps more : List Waiting.Step) {n : Nat} {call : Waiting.Call}
    (hknown : (Waiting.run files steps).Knows n call) :
    (Waiting.run files (steps ++ more)).Knows n call :=
  Run.final_append_induction _ _ (fun state : Waiting.State => state.Knows n call) steps more
    hknown fun before step hbefore => (Waiting.effect_run files before step).knows hbefore

/-- A call that had begun when the connection went away was given up then. -/
theorem wasGivenUp_of_lt (hstart : start.waiting = .initial) {before after : List Step} {n : Nat}
    {call : Waiting.Call}
    (hopen : (run files start (before ++ .exchange .terminate :: after)).HasOpen n call)
    (hlt : n < (run files start before).calls.length) :
    Waiting.WasGivenUp files (history (before ++ .exchange .terminate :: after)) n call := by
  have hsplit : history (before ++ .exchange .terminate :: after) =
      history before ++ .abandon :: history after := by
    rw [history, List.flatMap_append, List.flatMap_cons]
    rfl
  have hknown : (Waiting.run files (history before)).Knows n
      ((run files start before).calls[n]).1 := by
    rw [← waiting_run hstart]
    exact ⟨_, List.getElem?_eq_getElem hlt⟩
  have hlasting := knows_run (history before) (.abandon :: history after) hknown
  rw [State.HasOpen, waiting_run hstart, hsplit] at hopen
  rw [← hlasting.unique hopen.knows, hsplit]
  exact ⟨_, _, _, rfl, hknown, rfl⟩

/-- An open call is pending as long as it was neither met nor given up; what it does by itself is
what a call of the registry does. -/
theorem linger_run (hstart : start.waiting = .initial) {steps : List Step} {n : Nat}
    {call : Waiting.Call} (hopen : (run files start steps).HasOpen n call) :
    (¬ Waiting.WasMet files (history steps) n call ∧
      ¬ Waiting.WasGivenUp files (history steps) n call ∧
      (run files start steps).IsPending call ∧
      (run files start (steps ++ (Waiting.linger n).map .feature)).calls[n]? =
        some (call, call.unsignalled)) ∨
    ∃ signal, Waiting.WasTold files (history steps) n call signal ∧
      ¬ (run files start steps).IsPending call ∧
      (run files start (steps ++ (Waiting.linger n).map .feature)).calls[n]? =
        some (call, .ended (signal.result call.method)) := by
  have hmore : (run files start (steps ++ (Waiting.linger n).map .feature)).calls =
      (Waiting.run files (history steps ++ Waiting.linger n)).calls := by
    have hhistory : history (steps ++ (Waiting.linger n).map .feature) =
        history steps ++ Waiting.linger n := List.flatMap_append
    rw [← hhistory, ← waiting_run hstart]
    rfl
  have hwaiters : (run files start steps).client.registry.waiters =
      (Waiting.run files (history steps)).registry.waiters := by
    rw [← waiting_run hstart]
    rfl
  rw [State.HasOpen, waiting_run hstart] at hopen
  rw [hmore, State.IsPending, hwaiters]
  rcases Waiting.linger_run (history steps) hopen with
    ⟨hunmet, hkept, hpending, hlinger⟩ | ⟨signal, htold, hgone, hlinger⟩
  · exact Or.inl ⟨hunmet, hkept, hpending, hlinger⟩
  · exact Or.inr ⟨signal, htold, fun ⟨waiter, hwaiter, hmade⟩ => hgone waiter hwaiter hmade,
      hlinger⟩

/-- An entry that is left is that of an open call, which is pending. -/
theorem exists_pending (hstart : start.waiting = .initial) {steps : List Step} {waiter : Waiter}
    (hwaiter : waiter ∈ (run files start steps).client.registry.waiters) :
    ∃ n call, (run files start steps).HasOpen n call ∧
      (run files start steps).IsPending call := by
  have haccounted := Waiting.accounted_run files (history steps)
  rw [← waiting_run hstart] at haccounted
  obtain ⟨n, call, hopen, hmade⟩ := haccounted.waiter_call waiter hwaiter
  exact ⟨n, call, hopen, waiter, hwaiter, hmade⟩

/-- For every run in which the connection goes away: the calls that had begun before are not pending
any more, and fail as given up unless they were met. But those that begin afterwards are pending
until they are met or given up at another end, as if the connection were there. -/
theorem afterEnd_run (files : FileTree) (name : String) (encoding : PositionEncoding)
    (timeouts : Timeouts) (processId : UInt32) (handshakeOptions : Option Json)
    (before after : List Step) :
    AfterEnd files (.initial name encoding timeouts processId handshakeOptions)
      (run files (.initial name encoding timeouts processId handshakeOptions) before).calls.length
      (before ++ .exchange .terminate :: after) := by
  have hstart : (State.initial name encoding timeouts processId handshakeOptions).waiting =
      .initial := rfl
  refine ⟨?_, ⟨fun hempty n call hopen hlate => ?_, fun hall => ?_⟩, fun n call hopen hearly => ?_,
    fun n call hopen hlate hunmet hkept => ?_⟩
  · have hsplit : before ++ Step.exchange .terminate :: after =
        (before ++ [.exchange .terminate]) ++ after := List.append_cons ..
    rw [hsplit]
    refine Run.final_append_induction _ _ (fun state : State => state.client.isTerminated = true)
      _ after ?_ fun _ step hbefore => ?_
    · rw [Run.final_concat]
      rfl
    · rw [Run.final_concat]
      exact isTerminated_next _ step hbefore
  · rcases linger_run hstart hopen with ⟨-, -, ⟨waiter, hwaiter, -⟩, -⟩ | ⟨signal, htold, -, -⟩
    · rw [hempty] at hwaiter
      cases hwaiter
    · cases signal with
      | met => exact Or.inl htold
      | abandoned => exact Or.inr htold
  · refine List.eq_nil_iff_forall_not_mem.mpr fun waiter hwaiter => ?_
    obtain ⟨n, call, hopen, hpending⟩ := exists_pending hstart hwaiter
    rcases linger_run hstart hopen with ⟨hunmet, hkept, -⟩ | ⟨signal, -, hnone, -⟩
    · have hlate := Nat.le_of_not_lt fun hlt => hkept (wasGivenUp_of_lt hstart hopen hlt)
      exact (hall n call hopen hlate).elim hunmet hkept
    · exact hnone hpending
  · rcases linger_run hstart hopen with ⟨-, hkept, -⟩ | ⟨signal, htold, hnone, hended⟩
    · exact absurd (wasGivenUp_of_lt hstart hopen hearly) hkept
    · exact ⟨hnone, signal, htold, hended⟩
  · rcases linger_run hstart hopen with ⟨-, -, hpending, hlinger⟩ | ⟨signal, htold, -, -⟩
    · exact ⟨hpending, hlinger⟩
    · cases signal with
      | met => exact absurd htold hunmet
      | abandoned => exact absurd htold hkept

/-- A run in which the connection goes away before two calls begin, one of them with a deadline. -/
def beginsLate : List Step :=
  [.exchange .terminate, .feature (.require "textDocument/hover" .empty none),
    .feature (.require "textDocument/hover" .empty (some (.ofSeconds 1)))]

/-- Neither call is given up: both have entries on the dead connection, the first one never ends by
itself, and the second one fails at its deadline. -/
theorem pending_of_beginsLate :
    let start : State := .initial "server" .utf16 .standard 0 none
    (run Sample.files start beginsLate).client.isTerminated = true ∧
    (run Sample.files start beginsLate).client.registry.waiters.map Waiter.id = [0, 1] ∧
    (run Sample.files start (beginsLate ++ (Waiting.linger 0).map .feature)).calls[0]? =
      some (⟨"textDocument/hover", .empty, none, some 0⟩, .waiting) ∧
    (run Sample.files start (beginsLate ++ (Waiting.linger 1).map .feature)).calls[1]? =
      some (⟨"textDocument/hover", .empty, some (.ofSeconds 1), some 1⟩,
        .ended (.error (.timeout "textDocument/hover" (.ofSeconds 1)))) :=
  ⟨rfl, rfl, rfl, rfl⟩

end Runs

end LanguageClient.Connection
