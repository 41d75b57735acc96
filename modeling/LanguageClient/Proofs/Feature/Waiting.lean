import LanguageClient.Proofs.Feature.Accounting

/-!
# No wake-up is lost, and every call ends as it should

At every point of every run, the entries are those of the calls that still have to wait, and none
of them is met. A call ends at most once, and only in a way that something in the run is the reason
for: it was met, its deadline passed while it had an entry, or the connection was given up.
-/

namespace LanguageClient.Waiting

/-- The grants have met a call at some point since it began. -/
def WasMet (files : FileTree) (steps : List Step) (n : Nat) (call : Call) : Prop :=
  Passed files steps fun _ _ after =>
    after.Knows n call ∧ after.registry.check files call.method call.request = true

/-- The connection was given up at some point since a call began. -/
def WasGivenUp (files : FileTree) (steps : List Step) (n : Nat) (call : Call) : Prop :=
  Passed files steps fun before step _ => before.Knows n call ∧ step = .abandon

/-- What in a run is the reason for the result of a call. -/
def Justified (files : FileTree) (steps : List Step) (n : Nat) (call : Call) :
    Except FeatureError Unit → Prop
  /- The grants met the call after it began and before it ended. -/
  | .ok () => Passed files steps fun before _ after =>
    ¬ before.HasFinished n call ∧ after.Knows n call ∧
      after.registry.check files call.method call.request = true
  /- The call had an entry, which was not met, up to the moment in which it took the entry away. -/
  | .error (.timeout method limit) => method = call.method ∧ call.limit = some limit ∧
    Passed files steps fun before step after => step = .expire n ∧
      ∃ waiter ∈ before.registry.waiters, call.waiter? = some waiter ∧
        before.registry.check files call.method call.request = false ∧
        waiter ∉ after.registry.waiters
  /- The call had an entry, and giving up the connection took it away. -/
  | .error (.abandoned method) => method = call.method ∧
    Passed files steps fun before step after => step = .abandon ∧ before.HasOpen n call ∧
      ∃ waiter ∈ before.registry.waiters, call.waiter? = some waiter ∧
        waiter ∉ after.registry.waiters
  | .error _ => False

/-- What holds at the end of every run. -/
structure Sound (files : FileTree) (steps : List Step) : Prop where
  /-- No entry is met by the grants that are there. -/
  unmet : ∀ waiter ∈ (run files steps).registry.waiters,
    (run files steps).registry.check files waiter.method waiter.request = false
  distinct : ((run files steps).registry.waiters.map Waiter.id).Nodup
  /-- The entries are those of the calls that are still open, and that were neither met nor given up
  since they began. -/
  pending_iff : ∀ waiter, waiter ∈ (run files steps).registry.waiters ↔
    ∃ n call, (run files steps).HasOpen n call ∧ call.waiter? = some waiter ∧
      ¬ WasMet files steps n call ∧ ¬ WasGivenUp files steps n call
  justified : ∀ n call result, (run files steps).calls[n]? = some (call, .ended result) →
    Justified files steps n call result
  /-- A call that has ended or was dropped stays as it is, whatever happens afterwards. -/
  final : ∀ more (n : Nat) (call : Call) (stage : Stage),
    (run files steps).calls[n]? = some (call, stage) → stage.isOpen = false →
      (run files (steps ++ more)).calls[n]? = some (call, stage)
  /-- Nothing is kept for a call that has ended or was dropped. -/
  gone : ∀ n call id, (run files steps).HasFinished n call → call.entry = some id →
    id ∉ (run files steps).tracked

section History

variable {files : FileTree} {steps : List Step}

/-- A reason for a result is still one when more has happened. -/
theorem Justified.concat {n : Nat} {call : Call} {result : Except FeatureError Unit} (step : Step)
    (hjustified : Justified files steps n call result) :
    Justified files (steps ++ [step]) n call result := by
  match result, hjustified with
  | .ok (), hpassed =>
    unfold Justified at hpassed ⊢
    exact Run.passed_concat.mpr (Or.inl hpassed)
  | .error (.timeout _ _), ⟨hmethod, hlimit, hpassed⟩ =>
    exact ⟨hmethod, hlimit, Run.passed_concat.mpr (Or.inl hpassed)⟩
  | .error (.abandoned _), ⟨hmethod, hpassed⟩ =>
    exact ⟨hmethod, Run.passed_concat.mpr (Or.inl hpassed)⟩

/-- A call that is open has not ended. -/
theorem State.HasOpen.not_finished {state : State} {n : Nat} {call other : Call}
    (hopen : state.HasOpen n call) : ¬ state.HasFinished n other := by
  rintro ⟨_, hfinished, hclosed⟩
  obtain ⟨_, hcall, hopen⟩ := hopen
  obtain ⟨rfl, rfl⟩ := Prod.mk.inj (Option.some.inj (hcall.symm.trans hfinished))
  rw [hclosed] at hopen
  cases hopen

/-- A call that has ended or was dropped stays as it is. -/
theorem Effect.final {state after : State} {step : Step} (heffect : Effect files state step after)
    {n : Nat} {call : Call} {stage : Stage} (hcall : state.calls[n]? = some (call, stage))
    (hclosed : stage.isOpen = false) : after.calls[n]? = some (call, stage) := by
  have hsettle {m : Nat} {other : Call} (registry : Registry) (next : Stage)
      (hopen : state.HasOpen m other) :
      (state.settle m registry next).calls[n]? = some (call, stage) := by
    rw [State.getElem?_settle, if_neg, hcall]
    rintro rfl
    exact hopen.not_finished ⟨stage, hcall, hclosed⟩
  cases heffect with
  | nothing => exact hcall
  | metAtOnce => exact (State.getElem?_concat _ _ n).mpr (Or.inl hcall)
  | begun => exact (State.getElem?_concat _ _ n).mpr (Or.inl hcall)
  | signalled => exact hcall
  | overdue m other hother => exact hsettle _ _ ⟨_, hother, rfl⟩
  | resumed _ m other id signal hopen => exact hsettle _ _ hopen
  | timedOut m other limit waiter hopen => exact hsettle _ _ hopen
  | dropped m other id hopen => exact hsettle _ _ hopen

/-- A call that has begun has begun for good. -/
theorem Effect.knows {state after : State} {step : Step} (heffect : Effect files state step after)
    {n : Nat} {call : Call} (hknown : state.Knows n call) : after.Knows n call := by
  cases heffect with
  | nothing => exact hknown
  | metAtOnce => exact (State.knows_concat _ n).mpr (Or.inl hknown)
  | begun => exact (State.knows_concat _ n).mpr (Or.inl hknown)
  | signalled => exact hknown
  | overdue => exact (State.knows_settle n).mpr hknown
  | resumed => exact (State.knows_settle n).mpr hknown
  | timedOut => exact (State.knows_settle n).mpr hknown
  | dropped => exact (State.knows_settle n).mpr hknown

/-- A call that is open after a step was open before, or has begun with the step. -/
theorem Effect.open_cases {state after : State} {step : Step}
    (heffect : Effect files state step after) {n : Nat} {call : Call}
    (hopen : after.HasOpen n call) :
    state.HasOpen n call ∨ call.entry = some state.registry.nextWaiter := by
  cases heffect with
  | nothing => exact Or.inl hopen
  | metAtOnce =>
    rcases (State.hasOpen_concat _ n).mp hopen with hold | ⟨-, -, hclosed⟩
    · exact Or.inl hold
    · cases hclosed
  | begun =>
    rcases (State.hasOpen_concat _ n).mp hopen with hold | ⟨-, rfl, -⟩
    · exact Or.inl hold
    · exact Or.inr rfl
  | signalled => exact Or.inl hopen
  | overdue m other hother =>
    exact Or.inl ((State.hasOpen_settle_of_open rfl (by rw [hother]; rfl) rfl n).mp hopen)
  | resumed => exact Or.inl ((State.hasOpen_settle_of_closed rfl n).mp hopen).1
  | timedOut => exact Or.inl ((State.hasOpen_settle_of_closed rfl n).mp hopen).1
  | dropped => exact Or.inl ((State.hasOpen_settle_of_closed rfl n).mp hopen).1

/-- A signal that is there after a step was there before, or the step has taken an entry for it. -/
theorem Effect.signal_cases {state after : State} {step : Step}
    (heffect : Effect files state step after) {id : Nat} {signal : WaiterSignal}
    (hsignal : (id, signal) ∈ after.registry.signals) :
    (id, signal) ∈ state.registry.signals ∨
      ∃ waiter ∈ state.registry.waiters, waiter.id = id ∧ waiter ∉ after.registry.waiters ∧
        IsDue files after.registry step waiter signal := by
  cases heffect with
  | nothing => exact Or.inl hsignal
  | metAtOnce => exact Or.inl hsignal
  | begun => exact Or.inl hsignal
  | signalled _ after isTold told hwaiters hsignals hnext hdue =>
    rw [hsignals] at hsignal
    rcases List.mem_append.mp hsignal with hold | hnew
    · exact Or.inl hold
    · obtain ⟨waiter, hwaiter, heq⟩ := List.mem_map.mp hnew
      obtain ⟨rfl, rfl⟩ := Prod.mk.inj heq
      obtain ⟨hwaiter, htold⟩ := List.mem_filter.mp hwaiter
      refine Or.inr ⟨waiter, hwaiter, rfl, ?_, hdue waiter htold⟩
      simp [hwaiters, htold]
  | overdue => exact Or.inl hsignal
  | resumed => exact Or.inl (List.mem_filter.mp hsignal).1
  | timedOut => exact Or.inl (List.mem_filter.mp hsignal).1
  | dropped => exact Or.inl (List.mem_filter.mp hsignal).1

/-- A call that has a result after a step had it before, or the step has ended it: at once, by its
signal, or at its deadline. -/
theorem Effect.ended_cases {state after : State} {step : Step}
    (heffect : Effect files state step after) {n : Nat} {call : Call}
    {result : Except FeatureError Unit} (hcall : after.calls[n]? = some (call, .ended result)) :
    state.calls[n]? = some (call, .ended result) ∨
    (n = state.calls.length ∧ result = .ok () ∧
      after.registry.check files call.method call.request = true) ∨
    (∃ id signal, state.HasOpen n call ∧ call.entry = some id ∧
      (id, signal) ∈ state.registry.signals ∧ result = signal.result call.method) ∨
    ∃ limit waiter, step = .expire n ∧ call.limit = some limit ∧ call.waiter? = some waiter ∧
      waiter ∈ state.registry.waiters ∧ waiter ∉ after.registry.waiters ∧
      result = .error (.timeout call.method limit) := by
  have hsettled {m : Nat} {other : Call} {registry : Registry} {stage : Stage}
      (hother : state.Knows m other)
      (hcall : (state.settle m registry stage).calls[n]? = some (call, .ended result)) :
      state.calls[n]? = some (call, .ended result) ∨ m = n ∧ other = call ∧
        stage = .ended result := by
    rw [State.getElem?_settle] at hcall
    split at hcall
    · rename_i hm
      subst hm
      obtain ⟨_, hother⟩ := hother
      simp only [hother, Option.map_some, Option.some.injEq, Prod.mk.injEq] at hcall
      exact Or.inr ⟨rfl, hcall⟩
    · exact Or.inl hcall
  cases heffect with
  | nothing => exact Or.inl hcall
  | metAtOnce method request limit hmet =>
    rcases (State.getElem?_concat _ _ n).mp hcall with hold | ⟨hn, hnew⟩
    · exact Or.inl hold
    · obtain ⟨rfl, hresult⟩ := Prod.mk.inj hnew
      exact Or.inr (Or.inl ⟨hn, Stage.ended.inj hresult, hmet⟩)
  | begun =>
    rcases (State.getElem?_concat _ _ n).mp hcall with hold | ⟨-, hnew⟩
    · exact Or.inl hold
    · cases hnew
  | signalled => exact Or.inl hcall
  | overdue m other hother =>
    rcases hsettled ⟨_, hother⟩ hcall with hold | ⟨-, -, hstage⟩
    · exact Or.inl hold
    · cases hstage
  | resumed _ m other id signal hopen hentry hsignal =>
    rcases hsettled hopen.knows hcall with hold | ⟨rfl, rfl, hstage⟩
    · exact Or.inl hold
    · exact Or.inr (Or.inr (Or.inl
        ⟨id, signal, hopen, hentry, hsignal, (Stage.ended.inj hstage).symm⟩))
  | timedOut m other limit waiter hopen hlimit hmade hwaiter =>
    rcases hsettled hopen.knows hcall with hold | ⟨rfl, rfl, hstage⟩
    · exact Or.inl hold
    · refine Or.inr (Or.inr (Or.inr
        ⟨limit, waiter, rfl, hlimit, hmade, hwaiter, ?_, (Stage.ended.inj hstage).symm⟩))
      simp [State.settle, Registry.forget]
  | dropped m other id hopen =>
    rcases hsettled hopen.knows hcall with hold | ⟨-, -, hstage⟩
    · exact Or.inl hold
    · cases hstage

/-- An entry that is there after a step was there before, or is numbered anew. -/
theorem Effect.waiter_cases {state after : State} {step : Step}
    (heffect : Effect files state step after) {waiter : Waiter}
    (hwaiter : waiter ∈ after.registry.waiters) :
    waiter ∈ state.registry.waiters ∨ waiter.id = state.registry.nextWaiter := by
  cases heffect with
  | nothing => exact Or.inl hwaiter
  | metAtOnce => exact Or.inl hwaiter
  | begun =>
    rcases List.mem_append.mp hwaiter with hold | hnew
    · exact Or.inl hold
    · obtain rfl := List.mem_singleton.mp hnew
      exact Or.inr rfl
  | signalled _ after isTold signal hwaiters =>
    rw [hwaiters] at hwaiter
    exact Or.inl (List.mem_filter.mp hwaiter).1
  | overdue => exact Or.inl hwaiter
  | resumed => exact Or.inl (List.mem_filter.mp hwaiter).1
  | timedOut => exact Or.inl (List.mem_filter.mp hwaiter).1
  | dropped => exact Or.inl (List.mem_filter.mp hwaiter).1

theorem effect_run (files : FileTree) (steps : List Step) (step : Step) :
    Effect files (run files steps) step (run files (steps ++ [step])) := by
  rw [run, run, Run.final_concat]
  exact (accounted_run files steps).effect step

/-- As long as an entry is there, its call was neither met nor given up since it began. -/
theorem pending_history (files : FileTree) (steps : List Step) :
    ∀ {n : Nat} {call : Call} {waiter : Waiter}, (run files steps).HasOpen n call →
      call.waiter? = some waiter → waiter ∈ (run files steps).registry.waiters →
      ¬ WasMet files steps n call ∧ ¬ WasGivenUp files steps n call := by
  induction steps using List.reverseRecOn with
  | nil =>
    rintro n call waiter ⟨_, hcall, -⟩
    cases hcall
  | append_singleton steps step ih =>
    intro n call waiter hopen hmade hwaiter
    have haccounted := accounted_run files (steps ++ [step])
    have heffect := effect_run files steps step
    have hlasting (before : List Step) (step : Step) (hknown : (run files before).Knows n call) :
        (run files (before ++ [step])).Knows n call := (effect_run files before step).knows hknown
    -- Before the step, the call either had this entry already or had not begun.
    have hbefore : (run files steps).Knows n call →
        ¬ WasMet files steps n call ∧ ¬ WasGivenUp files steps n call := by
      intro hknown
      have hlt := (accounted_run files steps).fresh n call waiter.id hknown
        (Call.entry_of_waiter hmade)
      have hold := (heffect.waiter_cases hwaiter).resolve_right (by omega)
      obtain ⟨m, other, hother, hother_made⟩ := (accounted_run files steps).waiter_call waiter hold
      obtain rfl := (accounted_run files steps).apart m n other call waiter.id hother.knows hknown
        (Call.entry_of_waiter hother_made) (Call.entry_of_waiter hmade)
      obtain rfl := hother.knows.unique hknown
      exact ih hother hmade hold
    constructor
    · intro hmet
      unfold WasMet at hmet hbefore
      rcases Run.passed_concat.mp hmet with hmet | ⟨-, hcheck⟩
      · have hknown := hmet.lasting (fun _ _ _ h => Or.inr h.1) hlasting
        exact (hbefore hknown).1 hmet
      · have hunmet := haccounted.unmet waiter hwaiter
        obtain ⟨id, -, rfl⟩ := Option.map_eq_some_iff.mp hmade
        rw [hcheck] at hunmet
        cases hunmet
    · intro hgiven
      unfold WasGivenUp at hgiven hbefore
      rcases Run.passed_concat.mp hgiven with hgiven | ⟨-, rfl⟩
      · have hknown := hgiven.lasting (fun _ _ _ h => Or.inl h.1) hlasting
        exact (hbefore hknown).2 hgiven
      · rw [run, Run.final_concat] at hwaiter
        cases hwaiter

/-- Every signal that waits to be taken has its reason in the run. -/
theorem signals_justified (files : FileTree) (steps : List Step) :
    ∀ {n : Nat} {call : Call} {id : Nat} {signal : WaiterSignal},
      (run files steps).HasOpen n call → call.entry = some id →
      (id, signal) ∈ (run files steps).registry.signals →
      Justified files steps n call (signal.result call.method) := by
  induction steps using List.reverseRecOn with
  | nil =>
    rintro n call id signal ⟨_, hcall, -⟩
    cases hcall
  | append_singleton steps step ih =>
    intro n call id signal hopen hentry hsignal
    have haccounted := accounted_run files steps
    have heffect := effect_run files steps step
    rcases heffect.open_cases hopen with hbefore | hnew
    · rcases heffect.signal_cases hsignal with hold | ⟨waiter, hwaiter, rfl, hgone, hdue⟩
      · exact (ih hbefore hentry hold).concat step
      · have hmade := haccounted.waiter_eq hbefore hentry hwaiter
        obtain ⟨id, -, rfl⟩ := Option.map_eq_some_iff.mp hmade
        cases signal with
        | met =>
          unfold WaiterSignal.result Justified
          exact Run.passed_concat.mpr (Or.inr ⟨hbefore.not_finished, hopen.knows, hdue⟩)
        | abandoned =>
          exact ⟨rfl, Run.passed_concat.mpr
            (Or.inr ⟨hdue, hbefore, _, hwaiter, hmade, hgone⟩)⟩
    · -- The call has begun with this step, so its number is not that of anything kept before.
      obtain rfl := Option.some.inj (hentry.symm.trans hnew)
      have hkept : (run files steps).registry.nextWaiter ∈ (run files steps).tracked := by
        rcases heffect.signal_cases hsignal with hold | ⟨waiter, hwaiter, hid, -⟩
        · exact List.mem_append_right _ (List.mem_map_of_mem (f := Prod.fst) hold)
        · rw [← hid]
          exact List.mem_append_left _ (List.mem_map_of_mem hwaiter)
      exact absurd hkept haccounted.next_not_tracked

/-- Every result has its reason in the run. -/
theorem results_justified (files : FileTree) (steps : List Step) :
    ∀ {n : Nat} {call : Call} {result : Except FeatureError Unit},
      (run files steps).calls[n]? = some (call, .ended result) →
      Justified files steps n call result := by
  induction steps using List.reverseRecOn with
  | nil =>
    intro n call result hcall
    cases hcall
  | append_singleton steps step ih =>
    intro n call result hcall
    have haccounted := accounted_run files steps
    have heffect := effect_run files steps step
    rcases heffect.ended_cases hcall with hold | ⟨rfl, rfl, hmet⟩ |
      ⟨id, signal, hopen, hentry, hsignal, rfl⟩ |
      ⟨limit, waiter, rfl, hlimit, hmade, hwaiter, hgone, rfl⟩
    · exact (ih hold).concat step
    · unfold Justified
      refine Run.passed_concat.mpr (Or.inr ⟨?_, ⟨_, hcall⟩, hmet⟩)
      rintro ⟨_, hfinished, -⟩
      rw [List.getElem?_eq_none (Nat.le_refl _)] at hfinished
      cases hfinished
    · exact (signals_justified files steps hopen hentry hsignal).concat step
    · have hunmet := haccounted.unmet waiter hwaiter
      obtain ⟨id, -, rfl⟩ := Option.map_eq_some_iff.mp hmade
      exact ⟨rfl, hlimit, Run.passed_concat.mpr
        (Or.inr ⟨rfl, _, hwaiter, hmade, hunmet, hgone⟩)⟩

/-- A call that has ended or was dropped stays as it is for the rest of the run. -/
theorem final_run (files : FileTree) (steps more : List Step) {n : Nat} {call : Call}
    {stage : Stage} (hcall : (run files steps).calls[n]? = some (call, stage))
    (hclosed : stage.isOpen = false) :
    (run files (steps ++ more)).calls[n]? = some (call, stage) :=
  Run.final_append_induction _ _ (fun state : State => state.calls[n]? = some (call, stage))
    steps more hcall fun before step hbefore =>
      (effect_run files before step).final hbefore hclosed

end History

/-- Every run ends in a state in which no wake-up is lost and every call that is over has ended as
it should. -/
theorem sound_run (files : FileTree) (steps : List Step) : Sound files steps where
  unmet := (accounted_run files steps).unmet
  distinct := (List.nodup_append.mp (accounted_run files steps).nodup).1
  pending_iff waiter := by
    have haccounted := accounted_run files steps
    constructor
    · intro hwaiter
      obtain ⟨n, call, hopen, hmade⟩ := haccounted.waiter_call waiter hwaiter
      exact ⟨n, call, hopen, hmade, pending_history files steps hopen hmade hwaiter⟩
    · rintro ⟨n, call, hopen, hmade, hunmet, hkept⟩
      obtain ⟨id, hentry, htracked⟩ := haccounted.open_tracked n call hopen
      unfold WasMet at hunmet
      unfold WasGivenUp at hkept
      rcases List.mem_append.mp htracked with hwaiter | htold
      · obtain ⟨other, hother, rfl⟩ := List.mem_map.mp hwaiter
        have hsame := (haccounted.waiter_eq hopen hentry hother).symm.trans hmade
        rwa [← Option.some.inj hsame]
      · obtain ⟨⟨id, signal⟩, hsignal, rfl⟩ := List.mem_map.mp htold
        have hjustified := signals_justified files steps hopen hentry hsignal
        cases signal with
        | met =>
          unfold WaiterSignal.result Justified at hjustified
          exact absurd (hjustified.imp fun _ _ _ h => h.2) hunmet
        | abandoned =>
          exact absurd (hjustified.2.imp fun _ _ _ h => ⟨h.2.1.knows, h.1⟩) hkept
  justified _ _ _ hcall := results_justified files steps hcall
  final more _ _ _ hcall hclosed := final_run files steps more hcall hclosed
  gone n call id hfinished hentry htracked := by
    obtain ⟨m, other, hopen, hmade⟩ := (accounted_run files steps).call_of_tracked htracked
    have hknown : (run files steps).Knows n call := by
      obtain ⟨stage, hcall, -⟩ := hfinished
      exact ⟨stage, hcall⟩
    obtain rfl :=
      (accounted_run files steps).apart m n other call id hopen.knows hknown hmade hentry
    exact hopen.not_finished hfinished

end LanguageClient.Waiting
