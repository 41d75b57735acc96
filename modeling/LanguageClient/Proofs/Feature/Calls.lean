import LanguageClient.Feature.Registry
import LanguageClient.Proofs.Runs

/-!
# Calls that wait for a feature

A call for a feature is met at once, or it leaves an entry behind and waits. While it waits, the
grants may change, the connection may be given up, its deadline may pass, and whoever made the call
may drop it. Here any number of calls and any order of these events is followed step by step. Calls
are numbered in the order in which they began.
-/

namespace LanguageClient.Waiting

/-- How far a call has come. -/
inductive Stage
  /-- It waits for its signal. -/
  | waiting
  /-- Its deadline has passed without a signal, but it has not looked at its entry again. -/
  | overdue
  | ended (result : Except FeatureError Unit)
  | dropped

/-- Whether a call has neither ended nor been dropped. -/
def Stage.isOpen : Stage → Bool
  | .waiting | .overdue => true
  | .ended _ | .dropped => false

/-- A call, and the number of the entry that it has made, unless it was met at once. -/
structure Call where
  method : String
  request : FeatureRequest
  limit : Option Duration
  entry : Option Nat

/-- The entry that a call has made. -/
def Call.waiter? (call : Call) : Option Waiter :=
  call.entry.map fun id => ⟨id, call.method, call.request⟩

/-- A registry, and all calls that were ever made. -/
structure State where
  registry : Registry
  calls : List (Call × Stage)

/-- One thing that can happen. -/
inductive Step
  | require (method : String) (request : FeatureRequest) (limit : Option Duration)
  | setCapabilities (capabilities : ServerCapabilities)
  | add (registration : Registration)
  | remove (unregistration : Unregistration)
  | abandon
  /-- A waiting call takes its signal. -/
  | resume (call : Nat)
  /-- The deadline of a waiting call passes. -/
  | deadline (call : Nat)
  /-- A call whose deadline has passed looks at its entry. -/
  | expire (call : Nat)
  | drop (call : Nat)

namespace State

/-- The beginning: no grant and no call. -/
def initial : State := ⟨.empty, []⟩

/-- A call with this number has begun. -/
def Knows (state : State) (n : Nat) (call : Call) : Prop :=
  ∃ stage, state.calls[n]? = some (call, stage)

/-- A call with this number has begun, and has neither ended nor been dropped. -/
def HasOpen (state : State) (n : Nat) (call : Call) : Prop :=
  ∃ stage, state.calls[n]? = some (call, stage) ∧ stage.isOpen = true

/-- A call with this number has ended or was dropped. -/
def HasFinished (state : State) (n : Nat) (call : Call) : Prop :=
  ∃ stage, state.calls[n]? = some (call, stage) ∧ stage.isOpen = false

/-- Takes note of how far a call has come. -/
def settle (state : State) (n : Nat) (registry : Registry) (stage : Stage) : State :=
  ⟨registry, state.calls.modify n fun entry => (entry.1, stage)⟩

/-- Begins a call. -/
def require (files : FileTree) (state : State) (method : String) (request : FeatureRequest)
    (limit : Option Duration) : State :=
  let (registry, entry) := state.registry.await files method request
  let stage := if entry.isSome then .waiting else .ended (.ok ())
  ⟨registry, state.calls ++ [(⟨method, request, limit, entry⟩, stage)]⟩

/-- Lets a waiting call take its signal. -/
def resume (state : State) (n : Nat) : State :=
  match state.calls[n]? with
  | some (⟨method, _, _, some id⟩, .waiting) =>
    match state.registry.resume? id method with
    | some (result, registry) => state.settle n registry (.ended result)
    | none => state
  | _ => state

/-- Lets the deadline of a call pass that has one and has no signal. -/
def deadline (state : State) (n : Nat) : State :=
  match state.calls[n]? with
  | some (⟨_, _, some _, some id⟩, .waiting) =>
    if (state.registry.signals.lookup id).isSome then state
    else state.settle n state.registry .overdue
  | _ => state

/-- Lets a call look at its entry after its deadline. -/
def expire (state : State) (n : Nat) : State :=
  match state.calls[n]? with
  | some (⟨method, _, some limit, some id⟩, .overdue) =>
    let (result, registry) := state.registry.expire id method limit
    state.settle n registry (.ended result)
  | _ => state

/-- Drops a call that has not ended. -/
def drop (state : State) (n : Nat) : State :=
  match state.calls[n]? with
  | some (⟨_, _, _, some id⟩, stage) =>
    if stage.isOpen then state.settle n (state.registry.forget id) .dropped else state
  | _ => state

/-- What one step leads to. A registration that is refused changes nothing. -/
def next (files : FileTree) (state : State) : Step → State
  | .require method request limit => state.require files method request limit
  | .setCapabilities capabilities =>
    { state with registry := state.registry.setCapabilities files capabilities }
  | .add registration =>
    match state.registry.add files registration with
    | .ok registry => { state with registry }
    | .error _ => state
  | .remove unregistration => { state with registry := (state.registry.remove unregistration).1 }
  | .abandon => { state with registry := state.registry.abandon }
  | .resume n => state.resume n
  | .deadline n => state.deadline n
  | .expire n => state.expire n
  | .drop n => state.drop n

section Numbering

variable {state : State} {registry : Registry} {stage : Stage} {n : Nat} {call : Call}

theorem getElem?_settle (m : Nat) :
    (state.settle n registry stage).calls[m]? =
      if n = m then (state.calls[m]?).map fun entry => (entry.1, stage) else state.calls[m]? := by
  simp only [settle, List.getElem?_modify]
  split <;> simp

/-- How far a call has come does not matter for which calls have begun. -/
theorem knows_settle (m : Nat) :
    (state.settle n registry stage).Knows m call ↔ state.Knows m call := by
  unfold Knows
  rw [getElem?_settle]
  split
  · cases state.calls[m]? with
    | none => simp
    | some entry => simp [Prod.ext_iff]
  · rfl

/-- A call that ends or is dropped is no longer open, and all others are as before. -/
theorem hasOpen_settle_of_closed (hclosed : stage.isOpen = false) (m : Nat) :
    (state.settle n registry stage).HasOpen m call ↔ state.HasOpen m call ∧ n ≠ m := by
  unfold HasOpen
  rw [getElem?_settle]
  split
  · rename_i hm
    constructor
    · rintro ⟨other, hother, hopen⟩
      obtain ⟨entry, -, hentry⟩ := Option.map_eq_some_iff.mp hother
      obtain ⟨-, rfl⟩ := Prod.mk.inj hentry
      rw [hclosed] at hopen
      cases hopen
    · rintro ⟨-, hne⟩
      exact absurd hm hne
  · rename_i hm
    exact ⟨fun hopen => ⟨hopen, hm⟩, fun hopen => hopen.1⟩

/-- An open call that moves on and stays open makes no difference to which calls are open. -/
theorem hasOpen_settle_of_open (hopen : stage.isOpen = true) {before : Stage}
    (hn : state.calls[n]?.map Prod.snd = some before) (hbefore : before.isOpen = true) (m : Nat) :
    (state.settle n registry stage).HasOpen m call ↔ state.HasOpen m call := by
  unfold HasOpen
  rw [getElem?_settle]
  split
  · rename_i hm
    subst hm
    obtain ⟨⟨other, _⟩, hother, rfl⟩ := Option.map_eq_some_iff.mp hn
    simp only [hother, Option.map_some, Option.some.injEq, Prod.mk.injEq]
    constructor
    · rintro ⟨_, ⟨rfl, rfl⟩, -⟩
      exact ⟨_, ⟨rfl, rfl⟩, hbefore⟩
    · rintro ⟨_, ⟨rfl, rfl⟩, -⟩
      exact ⟨_, ⟨rfl, rfl⟩, hopen⟩
  · rfl

/-- A number stands for one call only. -/
theorem Knows.unique {other : Call} (hknown : state.Knows n call) (hother : state.Knows n other) :
    call = other := by
  obtain ⟨_, hcall⟩ := hknown
  obtain ⟨_, hother⟩ := hother
  exact (Prod.mk.inj (Option.some.inj (hcall.symm.trans hother))).1

theorem HasOpen.knows (hopen : state.HasOpen n call) : state.Knows n call := by
  obtain ⟨stage, hcall, -⟩ := hopen
  exact ⟨stage, hcall⟩

/-- A call that begins gets the next number. -/
theorem getElem?_concat (new entry : Call × Stage) (m : Nat) :
    (state.calls ++ [new])[m]? = some entry ↔
      state.calls[m]? = some entry ∨ m = state.calls.length ∧ entry = new := by
  rcases Nat.lt_trichotomy m state.calls.length with hlt | rfl | hgt
  · rw [List.getElem?_append_left hlt]
    exact ⟨Or.inl, fun h => h.resolve_right fun hm => absurd hm.1 (by omega)⟩
  · rw [List.getElem?_concat_length, List.getElem?_eq_none (Nat.le_refl _)]
    simp [eq_comm]
  · rw [List.getElem?_eq_none (by simp; omega), List.getElem?_eq_none (by omega)]
    simp only [reduceCtorEq, false_or, false_iff]
    omega

/-- The calls after one has begun. -/
theorem knows_concat (new : Call) (m : Nat) :
    (State.mk registry (state.calls ++ [(new, stage)])).Knows m call ↔
      state.Knows m call ∨ m = state.calls.length ∧ call = new := by
  unfold Knows
  simp only [getElem?_concat, Prod.mk.injEq]
  constructor
  · rintro ⟨_, hcall | ⟨hm, hnew, -⟩⟩
    · exact Or.inl ⟨_, hcall⟩
    · exact Or.inr ⟨hm, hnew⟩
  · rintro (⟨_, hcall⟩ | ⟨hm, hnew⟩)
    · exact ⟨_, Or.inl hcall⟩
    · exact ⟨_, Or.inr ⟨hm, hnew, rfl⟩⟩

/-- The open calls after one has begun, which may itself be open or not. -/
theorem hasOpen_concat (new : Call) (m : Nat) :
    (State.mk registry (state.calls ++ [(new, stage)])).HasOpen m call ↔
      state.HasOpen m call ∨ m = state.calls.length ∧ call = new ∧ stage.isOpen = true := by
  unfold HasOpen
  simp only [getElem?_concat, Prod.mk.injEq]
  constructor
  · rintro ⟨_, hcall | ⟨hm, hnew, rfl⟩, hopen⟩
    · exact Or.inl ⟨_, hcall, hopen⟩
    · exact Or.inr ⟨hm, hnew, hopen⟩
  · rintro (⟨_, hcall, hopen⟩ | ⟨hm, hnew, hopen⟩)
    · exact ⟨_, Or.inl hcall, hopen⟩
    · exact ⟨_, Or.inr ⟨hm, hnew, rfl⟩, hopen⟩

end Numbering

end State

/-- What a run leads to. -/
abbrev run (files : FileTree) (steps : List Step) : State :=
  Run.final (State.next files) .initial steps

/-- Something has happened in a run. -/
abbrev Passed (files : FileTree) (steps : List Step) (event : State → Step → State → Prop) : Prop :=
  Run.Passed (State.next files) .initial steps event

end LanguageClient.Waiting
