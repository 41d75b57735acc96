import LanguageClient.Proofs.Feature.Waiting

/-!
# Calls that are left to themselves

A call that nothing happens to any more takes its signal if there is one. Otherwise it waits for its
deadline, and without a deadline it waits for good. Which of these it is, is decided by whether the
grants have met the call or the connection was given up since it began.
-/

namespace LanguageClient.Waiting

/-- All that a call does by itself: it takes its signal, its deadline passes, and it looks at its
entry. -/
def linger (n : Nat) : List Step :=
  [.resume n, .deadline n, .expire n]

/-- Where a call without a signal ends up. -/
def Call.unsignalled (call : Call) : Stage :=
  match call.limit with
  | none => .waiting
  | some limit => .ended (.error (.timeout call.method limit))

/-- Only a call that has a deadline is ever overdue. -/
def State.Limited (state : State) : Prop :=
  ∀ (n : Nat) (call : Call), state.calls[n]? = some (call, .overdue) → call.limit.isSome = true

section Limits

variable {state : State} {files : FileTree}

theorem State.Limited.settle (hlimited : state.Limited) (n : Nat) (registry : Registry)
    {stage : Stage} (hstage : ∀ (call : Call) (before : Stage),
      state.calls[n]? = some (call, before) → stage = .overdue → call.limit.isSome = true) :
    (state.settle n registry stage).Limited := by
  intro m call hcall
  rw [State.getElem?_settle] at hcall
  split at hcall
  · rename_i hm
    subst hm
    obtain ⟨⟨other, before⟩, hbefore, heq⟩ := Option.map_eq_some_iff.mp hcall
    obtain ⟨rfl, rfl⟩ := Prod.mk.inj heq
    exact hstage _ before hbefore rfl
  · exact hlimited m call hcall

theorem State.Limited.next (hlimited : state.Limited) (step : Step) :
    (state.next files step).Limited := by
  cases step with
  | require method request limit =>
    intro n call hcall
    rcases (State.getElem?_concat _ _ n).mp hcall with hold | ⟨-, hnew⟩
    · exact hlimited n call hold
    · obtain ⟨-, hstage⟩ := Prod.mk.inj hnew
      split at hstage <;> cases hstage
  | setCapabilities | remove | abandon => exact hlimited
  | add registration =>
    simp only [State.next]
    split <;> exact hlimited
  | resume n =>
    simp only [State.next, State.resume]
    split
    · split
      · exact hlimited.settle n _ fun _ _ _ hstage => by cases hstage
      · exact hlimited
    · exact hlimited
  | deadline n =>
    simp only [State.next, State.deadline]
    split
    · rename_i hcall
      split
      · exact hlimited
      · refine hlimited.settle n _ fun call before hbefore _ => ?_
        obtain ⟨rfl, -⟩ := Prod.mk.inj (Option.some.inj (hcall.symm.trans hbefore))
        rfl
    · exact hlimited
  | expire n =>
    simp only [State.next, State.expire]
    split
    · exact hlimited.settle n _ fun _ _ _ hstage => by cases hstage
    · exact hlimited
  | drop n =>
    simp only [State.next, State.drop]
    split
    · split
      · exact hlimited.settle n _ fun _ _ _ hstage => by cases hstage
      · exact hlimited
    · exact hlimited

theorem limited_run (files : FileTree) (steps : List Step) : (run files steps).Limited :=
  Run.final_induction _ _ (fun n call hcall => by cases hcall)
    (fun _ step hlimited => hlimited.next step) steps

end Limits

section Alone

variable {files : FileTree} {state : State} {n id : Nat} {method : String}
  {request : FeatureRequest} {limit : Duration} {call : Call}

theorem getElem?_settle_self {before stage : Stage} {registry : Registry}
    (hcall : state.calls[n]? = some (call, before)) :
    (state.settle n registry stage).calls[n]? = some (call, stage) := by
  rw [State.getElem?_settle, if_pos rfl, hcall]
  rfl

/-- A call that looks at its entry after its deadline and still finds it there has waited in
vain. -/
theorem getElem?_expire
    (hcall : state.calls[n]? = some (⟨method, request, some limit, some id⟩, .overdue))
    (hwaiting : state.registry.isWaiting id = true) :
    (state.expire n).calls[n]? =
      some (⟨method, request, some limit, some id⟩, .ended (.error (.timeout method limit))) := by
  simp only [State.expire, hcall, Registry.expire, if_pos hwaiting]
  exact getElem?_settle_self hcall

/-- A call that still has its entry ends up without a signal. -/
theorem Accounted.linger_pending (haccounted : Accounted files state) (hlimited : state.Limited)
    {waiter : Waiter} (hopen : state.HasOpen n call) (hmade : call.waiter? = some waiter)
    (hwaiter : waiter ∈ state.registry.waiters) :
    (Run.final (State.next files) state (linger n)).calls[n]? = some (call, call.unsignalled) := by
  obtain ⟨method, request, limit, entry⟩ := call
  obtain ⟨id, rfl, rfl⟩ := Option.map_eq_some_iff.mp hmade
  have hnone : state.registry.signals.lookup id = none := haccounted.disjoint hwaiter
  have hwaiting : state.registry.isWaiting id = true :=
    List.any_eq_true.mpr ⟨_, hwaiter, beq_self_eq_true id⟩
  obtain ⟨stage, hcall, hstage⟩ := hopen
  change ((state.resume n).deadline n |>.expire n).calls[n]? = _
  have hresume : state.resume n = state := by
    cases stage with
    | waiting =>
      simp only [State.resume, hcall, Registry.resume?, Registry.takeSignal?, hnone,
        Option.map_none]
    | _ => simp only [State.resume, hcall]
  rw [hresume]
  cases stage with
  | ended | dropped => cases hstage
  | waiting =>
    cases limit with
    | none =>
      have hdeadline : state.deadline n = state := by simp only [State.deadline, hcall]
      have hexpire : state.expire n = state := by simp only [State.expire, hcall]
      rw [hdeadline, hexpire]
      exact hcall
    | some limit =>
      have hdeadline : state.deadline n = state.settle n state.registry .overdue := by
        simp only [State.deadline, hcall, hnone, Option.isSome_none, Bool.false_eq_true, if_false]
      rw [hdeadline]
      exact getElem?_expire (getElem?_settle_self hcall) hwaiting
  | overdue =>
    obtain ⟨limit, rfl⟩ := Option.isSome_iff_exists.mp (hlimited n _ hcall)
    have hdeadline : state.deadline n = state := by simp only [State.deadline, hcall]
    rw [hdeadline]
    exact getElem?_expire hcall hwaiting

/-- A call that has a signal ends with it. -/
theorem Accounted.linger_signalled (haccounted : Accounted files state) (hlimited : state.Limited)
    {signal : WaiterSignal} (hopen : state.HasOpen n call) (hentry : call.entry = some id)
    (hsignal : state.registry.signals.lookup id = some signal) :
    (Run.final (State.next files) state (linger n)).calls[n]? =
      some (call, .ended (signal.result call.method)) := by
  obtain ⟨method, request, limit, entry⟩ := call
  subst hentry
  have hwaiting : state.registry.isWaiting id = false := by
    rw [Registry.isWaiting, List.any_eq_false]
    intro waiter hwaiter hid
    obtain rfl := eq_of_beq hid
    rw [haccounted.disjoint hwaiter] at hsignal
    cases hsignal
  obtain ⟨stage, hcall, hstage⟩ := hopen
  change ((state.resume n).deadline n |>.expire n).calls[n]? = _
  cases stage with
  | ended | dropped => cases hstage
  | waiting =>
    obtain ⟨registry, hresume⟩ : ∃ registry,
        state.resume n = state.settle n registry (.ended (signal.result method)) := by
      simp only [State.resume, hcall, Registry.resume?, Registry.takeSignal?, hsignal,
        Option.map_some]
      exact ⟨_, rfl⟩
    have hended : (state.settle n registry (.ended (signal.result method))).calls[n]? =
        some (⟨method, request, limit, some id⟩, .ended (signal.result method)) :=
      getElem?_settle_self hcall
    have hdeadline : (state.resume n).deadline n = state.resume n := by
      simp only [hresume, State.deadline, hended]
    have hexpire : (state.resume n).expire n = state.resume n := by
      simp only [hresume, State.expire, hended]
    rw [hdeadline, hexpire, hresume]
    exact hended
  | overdue =>
    obtain ⟨limit, rfl⟩ := Option.isSome_iff_exists.mp (hlimited n _ hcall)
    have hresume : state.resume n = state := by simp only [State.resume, hcall]
    have hdeadline : state.deadline n = state := by simp only [State.deadline, hcall]
    rw [hresume, hdeadline]
    simp only [State.expire, hcall, Registry.expire, hwaiting, Bool.false_eq_true, if_false,
      Registry.resume?, Registry.takeSignal?, hsignal, Option.map_some, Option.getD_some]
    exact getElem?_settle_self hcall

/-- What has happened to a call that was signalled. -/
def WasTold (files : FileTree) (steps : List Step) (n : Nat) (call : Call) : WaiterSignal → Prop
  | .met => WasMet files steps n call
  | .abandoned => WasGivenUp files steps n call

/-- A signal that is kept under a number can be looked up there. -/
theorem exists_signal (hid : id ∈ state.registry.signals.map Prod.fst) :
    ∃ signal, state.registry.signals.lookup id = some signal ∧
      (id, signal) ∈ state.registry.signals := by
  obtain ⟨entry, hentry, rfl⟩ := List.mem_map.mp hid
  have hsome : (state.registry.signals.lookup entry.1).isSome = true :=
    List.lookup_isSome_iff.mpr ⟨entry, hentry, beq_self_eq_true entry.1⟩
  obtain ⟨signal, hlookup⟩ := Option.isSome_iff_exists.mp hsome
  obtain ⟨before, after, hsplit, -⟩ := List.lookup_eq_some_iff.mp hlookup
  exact ⟨signal, hlookup, by rw [hsplit]; simp⟩

/-- An open call of a run was neither met nor given up, and then it has its entry and ends up
without a signal; or it was told one of the two, and ends with that. -/
theorem linger_run (steps : List Step) (hopen : (run files steps).HasOpen n call) :
    (¬ WasMet files steps n call ∧ ¬ WasGivenUp files steps n call ∧
      (∃ waiter ∈ (run files steps).registry.waiters, call.waiter? = some waiter) ∧
      (run files (steps ++ linger n)).calls[n]? = some (call, call.unsignalled)) ∨
    ∃ signal, WasTold files steps n call signal ∧
      (∀ waiter ∈ (run files steps).registry.waiters, call.waiter? ≠ some waiter) ∧
      (run files (steps ++ linger n)).calls[n]? =
        some (call, .ended (signal.result call.method)) := by
  have haccounted := accounted_run files steps
  have hlimited := limited_run files steps
  have hsplit : run files (steps ++ linger n) =
      Run.final (State.next files) (run files steps) (linger n) := List.foldl_append
  obtain ⟨id, hentry, htracked⟩ := haccounted.open_tracked n call hopen
  rw [hsplit]
  rcases List.mem_append.mp htracked with hkept | htold
  · obtain ⟨waiter, hwaiter, rfl⟩ := List.mem_map.mp hkept
    have hmade := haccounted.waiter_eq hopen hentry hwaiter
    obtain ⟨hunmet, hkept⟩ := pending_history files steps hopen hmade hwaiter
    exact Or.inl ⟨hunmet, hkept, ⟨waiter, hwaiter, hmade⟩,
      haccounted.linger_pending hlimited hopen hmade hwaiter⟩
  · obtain ⟨signal, hlookup, hsignal⟩ := exists_signal htold
    refine Or.inr ⟨signal, ?_, fun waiter hwaiter hmade => ?_,
      haccounted.linger_signalled hlimited hopen hentry hlookup⟩
    · have hjustified := signals_justified files steps hopen hentry hsignal
      cases signal with
      | met =>
        unfold WaiterSignal.result Justified at hjustified
        exact hjustified.imp fun _ _ _ h => h.2
      | abandoned =>
        unfold WasTold WasGivenUp
        exact hjustified.2.imp fun _ _ _ h => ⟨h.2.1.knows, h.1⟩
    · obtain rfl := Option.some.inj (hentry.symm.trans (Call.entry_of_waiter hmade))
      rw [haccounted.disjoint hwaiter] at hlookup
      cases hlookup

end Alone

end LanguageClient.Waiting
