import LanguageClient.Proofs.Feature.Calls
import LanguageClient.Proofs.Feature.Coverage

/-!
# Every waiting call is accounted for

As long as a call is open, it has either an entry or a signal, never both, and no other call has
the same. An entry is never met by the grants that are there. This is kept by every step, whatever
the steps before it were.
-/

namespace LanguageClient.Waiting

/-- The numbers under which the registry keeps something for a call. -/
def State.tracked (state : State) : List Nat :=
  state.registry.waiters.map Waiter.id ++ state.registry.signals.map Prod.fst

/-- The registry keeps something for exactly the calls that are open, and no entry is met. -/
structure Accounted (files : FileTree) (state : State) : Prop where
  unmet : ∀ waiter ∈ state.registry.waiters,
    state.registry.check files waiter.method waiter.request = false
  nodup : state.tracked.Nodup
  waiter_call : ∀ waiter ∈ state.registry.waiters, ∃ n call,
    state.HasOpen n call ∧ call.waiter? = some waiter
  signal_call : ∀ entry ∈ state.registry.signals, ∃ n call,
    state.HasOpen n call ∧ call.entry = some entry.1
  open_tracked : ∀ n call, state.HasOpen n call →
    ∃ id, call.entry = some id ∧ id ∈ state.tracked
  apart : ∀ m n (a b : Call) id, state.Knows m a → state.Knows n b →
    a.entry = some id → b.entry = some id → m = n
  fresh : ∀ n (call : Call) id, state.Knows n call → call.entry = some id →
    id < state.registry.nextWaiter

/-- Why an entry is signalled: the grants meet it now, or the connection is given up. -/
def IsDue (files : FileTree) (after : Registry) (step : Step) (waiter : Waiter) :
    WaiterSignal → Prop
  | .met => after.check files waiter.method waiter.request = true
  | .abandoned => step = .abandon

/-- Everything that a step can do. -/
inductive Effect (files : FileTree) (state : State) : Step → State → Prop
  | nothing (step : Step) : Effect files state step state
  | metAtOnce (method : String) (request : FeatureRequest) (limit : Option Duration)
      (hmet : state.registry.check files method request = true) :
      Effect files state (.require method request limit)
        ⟨state.registry, state.calls ++ [(⟨method, request, limit, none⟩, .ended (.ok ()))]⟩
  | begun (method : String) (request : FeatureRequest) (limit : Option Duration)
      (hunmet : state.registry.check files method request = false) :
      Effect files state (.require method request limit)
        ⟨{ state.registry with
            waiters := state.registry.waiters ++ [⟨state.registry.nextWaiter, method, request⟩]
            nextWaiter := state.registry.nextWaiter + 1 },
          state.calls ++ [(⟨method, request, limit, some state.registry.nextWaiter⟩, .waiting)]⟩
  /-- Some of the entries are signalled; what is left is met only if it was met before. -/
  | signalled (step : Step) (after : Registry) (isTold : Waiter → Bool) (signal : WaiterSignal)
      (hwaiters : after.waiters = state.registry.waiters.filter fun waiter => !isTold waiter)
      (hsignals : after.signals = state.registry.signals ++
        (state.registry.waiters.filter isTold).map fun waiter => (waiter.id, signal))
      (hnext : after.nextWaiter = state.registry.nextWaiter)
      (hdue : ∀ waiter, isTold waiter = true → IsDue files after step waiter signal)
      (hleft : ∀ waiter, isTold waiter = false →
        state.registry.check files waiter.method waiter.request = false →
        after.check files waiter.method waiter.request = false)
      (hall : step = .abandon → ∀ waiter, isTold waiter = true) :
      Effect files state step ⟨after, state.calls⟩
  | overdue (n : Nat) (call : Call) (hcall : state.calls[n]? = some (call, .waiting)) :
      Effect files state (.deadline n) (state.settle n state.registry .overdue)
  | resumed (step : Step) (n : Nat) (call : Call) (id : Nat)
      (signal : WaiterSignal) (hopen : state.HasOpen n call) (hentry : call.entry = some id)
      (hsignal : (id, signal) ∈ state.registry.signals) :
      Effect files state step
        (state.settle n (state.registry.forget id) (.ended (signal.result call.method)))
  | timedOut (n : Nat) (call : Call) (limit : Duration) (waiter : Waiter)
      (hopen : state.HasOpen n call) (hlimit : call.limit = some limit)
      (hentry : call.waiter? = some waiter) (hwaiter : waiter ∈ state.registry.waiters) :
      Effect files state (.expire n)
        (state.settle n (state.registry.forget waiter.id)
          (.ended (.error (.timeout call.method limit))))
  | dropped (n : Nat) (call : Call) (id : Nat) (hopen : state.HasOpen n call)
      (hentry : call.entry = some id) :
      Effect files state (.drop n) (state.settle n (state.registry.forget id) .dropped)

section Inversion

variable {files : FileTree} {state : State}

/-- The entry of a call carries the number that the call knows. -/
theorem Call.entry_of_waiter {call : Call} {waiter : Waiter}
    (hwaiter : call.waiter? = some waiter) : call.entry = some waiter.id := by
  unfold waiter? at hwaiter
  obtain ⟨id, hid, rfl⟩ := Option.map_eq_some_iff.mp hwaiter
  exact hid

theorem Accounted.initial (files : FileTree) : Accounted files .initial := by
  constructor <;>
    simp [State.initial, Registry.empty, State.tracked, State.Knows, State.HasOpen]

/-- Whatever is kept, is kept for an open call. -/
theorem Accounted.call_of_tracked (haccounted : Accounted files state) {id : Nat}
    (htracked : id ∈ state.tracked) : ∃ n call, state.HasOpen n call ∧ call.entry = some id := by
  rcases List.mem_append.mp htracked with hkept | htold
  · obtain ⟨waiter, hwaiter, rfl⟩ := List.mem_map.mp hkept
    obtain ⟨n, call, hopen, hmade⟩ := haccounted.waiter_call waiter hwaiter
    exact ⟨n, call, hopen, Call.entry_of_waiter hmade⟩
  · obtain ⟨entry, hsignal, rfl⟩ := List.mem_map.mp htold
    exact haccounted.signal_call entry hsignal

/-- Nothing is kept yet under the number of the next entry. -/
theorem Accounted.next_not_tracked (haccounted : Accounted files state) :
    state.registry.nextWaiter ∉ state.tracked := by
  intro htracked
  obtain ⟨n, call, hopen, hmade⟩ := haccounted.call_of_tracked htracked
  exact Nat.lt_irrefl _ (haccounted.fresh n call _ hopen.knows hmade)

/-- A number under which an entry is kept is not that of a signal. -/
theorem Accounted.disjoint (haccounted : Accounted files state) {waiter : Waiter}
    (hwaiter : waiter ∈ state.registry.waiters) :
    state.registry.signals.lookup waiter.id = none := by
  rw [List.lookup_eq_none_iff]
  rintro ⟨id, signal⟩ hsignal
  apply bne_iff_ne.mpr
  rintro rfl
  have hdisjoint := (List.nodup_append.mp haccounted.nodup).2.2
  exact hdisjoint waiter.id (List.mem_map_of_mem hwaiter) waiter.id
    (List.mem_map_of_mem (f := Prod.fst) hsignal) rfl

/-- Taking a signal forgets all that is kept for the call, since a call with a signal has no entry
any more. -/
theorem Accounted.resume_eq_forget (haccounted : Accounted files state) {id : Nat} {method : String}
    {result : Except FeatureError Unit} {after : Registry}
    (hresume : state.registry.resume? id method = some (result, after)) :
    ∃ signal, (id, signal) ∈ state.registry.signals ∧ result = signal.result method ∧
      after = state.registry.forget id := by
  unfold Registry.resume? Registry.takeSignal? at hresume
  simp only [Option.map_map, Option.map_eq_some_iff, Function.comp_apply, Prod.mk.injEq] at hresume
  obtain ⟨signal, hlookup, hresult, rfl⟩ := hresume
  have hmem := mem_of_lookup hlookup
  refine ⟨signal, hmem, hresult.symm, ?_⟩
  have hwaiters : (state.registry.waiters.filter fun waiter => waiter.id != id) =
      state.registry.waiters := by
    apply List.filter_eq_self.mpr
    intro waiter hwaiter
    apply bne_iff_ne.mpr
    rintro rfl
    rw [haccounted.disjoint hwaiter] at hlookup
    cases hlookup
  simp only [Registry.forget, hwaiters]

/-- The entry under the number of an open call is the one that the call has made. -/
theorem Accounted.waiter_eq (haccounted : Accounted files state) {n : Nat} {call : Call}
    {waiter : Waiter} (hopen : state.HasOpen n call) (hentry : call.entry = some waiter.id)
    (hwaiter : waiter ∈ state.registry.waiters) : call.waiter? = some waiter := by
  obtain ⟨m, other, hother, hmade⟩ := haccounted.waiter_call waiter hwaiter
  obtain rfl := haccounted.apart m n other call waiter.id hother.knows hopen.knows
    (Call.entry_of_waiter hmade) hentry
  obtain rfl := hother.knows.unique hopen.knows
  exact hmade

/-- An open call that has no entry any more has a signal to take. -/
theorem Accounted.resume_of_not_isWaiting (haccounted : Accounted files state) {n id : Nat}
    {call : Call} (hopen : state.HasOpen n call) (hentry : call.entry = some id)
    (hwaiting : ¬ state.registry.isWaiting id = true) :
    ∃ result after, state.registry.resume? id call.method = some (result, after) := by
  obtain ⟨id', hentry', htracked⟩ := haccounted.open_tracked n call hopen
  obtain rfl := Option.some.inj (hentry.symm.trans hentry')
  rcases List.mem_append.mp htracked with hkept | htold
  · obtain ⟨waiter, hwaiter, rfl⟩ := List.mem_map.mp hkept
    exact absurd (List.any_eq_true.mpr ⟨waiter, hwaiter, beq_self_eq_true waiter.id⟩) hwaiting
  · obtain ⟨entry, hsignal, rfl⟩ := List.mem_map.mp htold
    have hsome : (state.registry.signals.lookup entry.1).isSome = true :=
      List.lookup_isSome_iff.mpr ⟨entry, hsignal, beq_self_eq_true entry.1⟩
    obtain ⟨signal, hsignal⟩ := Option.isSome_iff_exists.mp hsome
    simp only [Registry.resume?, Registry.takeSignal?, hsignal, Option.map_some]
    exact ⟨_, _, rfl⟩

/-- Entries that the grants meet after a change are signalled, where entries that the change cannot
have met need not be looked at. -/
theorem effect_of_signalMet {step : Step} {method? : Option String} {changed : Registry}
    (hwaiters : changed.waiters = state.registry.waiters)
    (hsignals : changed.signals = state.registry.signals)
    (hnext : changed.nextWaiter = state.registry.nextWaiter)
    (hother : ∀ (name method : String) (request : FeatureRequest), method? = some name →
      method ≠ name →
        changed.check files method request = state.registry.check files method request)
    (hstep : step ≠ .abandon) :
    Effect files state step ⟨changed.signalMet files method?, state.calls⟩ := by
  refine Effect.signalled step _ (fun waiter => method?.all (· == waiter.method) &&
    changed.check files waiter.method waiter.request) .met ?_ ?_ hnext ?_ ?_ ?_
  · simp only [Registry.signalMet, hwaiters]
  · simp only [Registry.signalMet, hwaiters, hsignals]
  · intro waiter htold
    exact (Bool.and_eq_true_iff.mp htold).2
  · intro waiter huntold hunmet
    change changed.check files waiter.method waiter.request = false
    by_cases hmethod : method?.all (· == waiter.method) = true
    · simpa only [hmethod, Bool.true_and] using huntold
    · obtain ⟨name, hname, hne⟩ : ∃ name, method? = some name ∧ waiter.method ≠ name := by
        cases method? with
        | none => simp at hmethod
        | some name => exact ⟨name, rfl, fun heq => hmethod (by simp [heq])⟩
      rw [hother name _ _ hname hne, hunmet]
  · intro habandon
    exact absurd habandon hstep

/-- Every step does one of the things that are listed. -/
theorem Accounted.effect (haccounted : Accounted files state) (step : Step) :
    Effect files state step (state.next files step) := by
  cases step with
  | require method request limit =>
    simp only [State.next, State.require, Registry.await]
    by_cases hmet : state.registry.check files method request = true
    · simp only [if_pos hmet]
      exact .metAtOnce method request limit hmet
    · simp only [if_neg hmet]
      exact .begun method request limit (Bool.not_eq_true _ ▸ hmet)
  | setCapabilities capabilities =>
    exact effect_of_signalMet rfl rfl rfl (fun _ _ _ hname => by cases hname) nofun
  | add registration =>
    simp only [State.next]
    cases hadd : state.registry.add files registration with
    | error => exact .nothing _
    | ok after =>
      obtain ⟨method, grants, rfl⟩ := Registry.add_eq_signalMet hadd
      refine effect_of_signalMet rfl rfl rfl ?_ nofun
      intro name other request hname hne
      obtain rfl := Option.some.inj hname
      exact Registry.check_insertField grants request hne
  | remove unregistration =>
    obtain ⟨hwaiters, hsignals, hnext⟩ := state.registry.remove_keeps_book unregistration
    refine .signalled _ _ (fun _ => false) .met ?_ ?_ hnext nofun ?_ nofun
    · rw [hwaiters]
      exact (List.filter_eq_self.mpr fun _ _ => rfl).symm
    · simp [hsignals]
    · intro waiter _ hunmet
      apply Bool.eq_false_iff.mpr
      intro hmet
      rw [Registry.check_of_check_remove hmet] at hunmet
      cases hunmet
  | abandon =>
    refine .signalled _ _ (fun _ => true) .abandoned ?_ ?_ rfl (fun _ _ => rfl) nofun
      (fun _ _ => rfl)
    · simp [Registry.abandon]
    · have hall : (state.registry.waiters.filter fun _ => true) = state.registry.waiters :=
        List.filter_eq_self.mpr fun _ _ => rfl
      rw [hall]
      rfl
  | resume n =>
    simp only [State.next, State.resume]
    split
    · rename_i method _ _ id hcall
      split
      · rename_i result after hresume
        obtain ⟨signal, hsignal, rfl, rfl⟩ := haccounted.resume_eq_forget hresume
        exact .resumed _ n _ id signal ⟨_, hcall, rfl⟩ rfl hsignal
      · exact .nothing _
    · exact .nothing _
  | deadline n =>
    simp only [State.next, State.deadline]
    split
    · rename_i hcall
      split
      · exact .nothing _
      · exact .overdue n _ hcall
    · exact .nothing _
  | expire n =>
    simp only [State.next, State.expire]
    split
    · rename_i method request limit id hcall
      have hopen : state.HasOpen n ⟨method, request, some limit, some id⟩ := ⟨_, hcall, rfl⟩
      unfold Registry.expire
      by_cases hwaiting : state.registry.isWaiting id = true
      · simp only [if_pos hwaiting]
        obtain ⟨waiter, hwaiter, hid⟩ := List.any_eq_true.mp hwaiting
        obtain rfl := eq_of_beq hid
        exact .timedOut n _ limit waiter hopen rfl (haccounted.waiter_eq hopen rfl hwaiter) hwaiter
      · simp only [if_neg hwaiting]
        obtain ⟨result, after, hresume⟩ := haccounted.resume_of_not_isWaiting hopen rfl hwaiting
        obtain ⟨signal, hsignal, rfl, rfl⟩ := haccounted.resume_eq_forget hresume
        simp only [hresume, Option.getD_some]
        exact .resumed _ n _ id signal hopen rfl hsignal
    · exact .nothing _
  | drop n =>
    simp only [State.next, State.drop]
    split
    · rename_i hcall
      split
      · rename_i hopen
        exact .dropped n _ _ ⟨_, hcall, hopen⟩ rfl
      · exact .nothing _
    · exact .nothing _

end Inversion

section Preservation

variable {files : FileTree} {state : State}

theorem tracked_forget (n id : Nat) (stage : Stage) :
    (state.settle n (state.registry.forget id) stage).tracked = state.tracked.filter (· != id) := by
  simp [State.tracked, State.settle, Registry.forget, List.filter_map, Function.comp_def]

/-- What is kept for a call goes when the call ends or is dropped, and nothing else does. -/
theorem Accounted.forget (haccounted : Accounted files state) {n id : Nat} {call : Call}
    {stage : Stage} (hopen : state.HasOpen n call) (hentry : call.entry = some id)
    (hclosed : stage.isOpen = false) :
    Accounted files (state.settle n (state.registry.forget id) stage) where
  unmet waiter hwaiter := haccounted.unmet waiter (List.mem_filter.mp hwaiter).1
  nodup := by
    rw [tracked_forget]
    exact haccounted.nodup.filter _
  waiter_call waiter hwaiter := by
    obtain ⟨hwaiter, hid⟩ := List.mem_filter.mp hwaiter
    obtain ⟨m, other, hother, hmade⟩ := haccounted.waiter_call waiter hwaiter
    refine ⟨m, other, (State.hasOpen_settle_of_closed hclosed m).mpr ⟨hother, ?_⟩, hmade⟩
    rintro rfl
    obtain rfl := hother.knows.unique hopen.knows
    have hsame := (Call.entry_of_waiter hmade).symm.trans hentry
    exact bne_iff_ne.mp hid (Option.some.inj hsame)
  signal_call entry hsignal := by
    obtain ⟨hsignal, hid⟩ := List.mem_filter.mp hsignal
    obtain ⟨m, other, hother, hmade⟩ := haccounted.signal_call entry hsignal
    refine ⟨m, other, (State.hasOpen_settle_of_closed hclosed m).mpr ⟨hother, ?_⟩, hmade⟩
    rintro rfl
    obtain rfl := hother.knows.unique hopen.knows
    exact bne_iff_ne.mp hid (Option.some.inj (hmade.symm.trans hentry))
  open_tracked m other hstill := by
    obtain ⟨hother, hne⟩ := (State.hasOpen_settle_of_closed hclosed m).mp hstill
    obtain ⟨id', hmade, htracked⟩ := haccounted.open_tracked m other hother
    refine ⟨id', hmade, ?_⟩
    rw [tracked_forget, List.mem_filter]
    refine ⟨htracked, bne_iff_ne.mpr ?_⟩
    rintro rfl
    exact hne (haccounted.apart n m call other id' hopen.knows hother.knows hentry hmade)
  apart m k a b id' ha hb :=
    haccounted.apart m k a b id' ((State.knows_settle m).mp ha) ((State.knows_settle k).mp hb)
  fresh m other id' hother :=
    haccounted.fresh m other id' ((State.knows_settle m).mp hother)

/-- The registry stays accounted for while the same calls are open and no entry is made. -/
theorem Accounted.calls (haccounted : Accounted files state) {calls : List (Call × Stage)}
    (hopen : ∀ m call,
      (State.mk state.registry calls).HasOpen m call ↔ state.HasOpen m call)
    (hknown : ∀ {m call id}, Call.entry call = some id →
      (State.mk state.registry calls).Knows m call → state.Knows m call) :
    Accounted files ⟨state.registry, calls⟩ where
  unmet := haccounted.unmet
  nodup := haccounted.nodup
  waiter_call waiter hwaiter := by
    obtain ⟨m, other, hother, hmade⟩ := haccounted.waiter_call waiter hwaiter
    exact ⟨m, other, (hopen m other).mpr hother, hmade⟩
  signal_call entry hsignal := by
    obtain ⟨m, other, hother, hmade⟩ := haccounted.signal_call entry hsignal
    exact ⟨m, other, (hopen m other).mpr hother, hmade⟩
  open_tracked m other hother := haccounted.open_tracked m other ((hopen m other).mp hother)
  apart m k a b id ha hb hma hmb :=
    haccounted.apart m k a b id (hknown hma ha) (hknown hmb hb) hma hmb
  fresh m other id hother hmade := haccounted.fresh m other id (hknown hmade hother) hmade

/-- A call whose deadline passes keeps its entry. -/
theorem Accounted.overdue (haccounted : Accounted files state) {n : Nat} {call : Call}
    (hcall : state.calls[n]? = some (call, .waiting)) :
    Accounted files (state.settle n state.registry .overdue) := by
  have hopen (m : Nat) (other : Call) :
      (state.settle n state.registry .overdue).HasOpen m other ↔ state.HasOpen m other :=
    State.hasOpen_settle_of_open rfl (by rw [hcall]; rfl) rfl m
  exact haccounted.calls hopen fun _ hother => (State.knows_settle _).mp hother

/-- Entries become signals one for one, so everything that was kept for a call is still kept. -/
theorem Accounted.signalled (haccounted : Accounted files state) {after : Registry}
    {isTold : Waiter → Bool} {signal : WaiterSignal}
    (hwaiters : after.waiters = state.registry.waiters.filter fun waiter => !isTold waiter)
    (hsignals : after.signals = state.registry.signals ++
      (state.registry.waiters.filter isTold).map fun waiter => (waiter.id, signal))
    (hnext : after.nextWaiter = state.registry.nextWaiter)
    (hleft : ∀ waiter, isTold waiter = false →
      state.registry.check files waiter.method waiter.request = false →
      after.check files waiter.method waiter.request = false) :
    Accounted files ⟨after, state.calls⟩ := by
  have hperm : (State.mk after state.calls).tracked.Perm state.tracked := by
    have hsplit := (List.filter_append_perm isTold state.registry.waiters).map Waiter.id
    simp only [State.tracked, hwaiters, hsignals, List.map_append, List.map_map, Function.comp_def]
      at hsplit ⊢
    refine List.Perm.trans ?_ (hsplit.append_right _)
    refine List.Perm.trans ?_ (List.Perm.append_right _ List.perm_append_comm)
    rw [List.append_assoc]
    exact List.Perm.append_left _ List.perm_append_comm
  exact {
    unmet := fun waiter hwaiter => by
      rw [hwaiters] at hwaiter
      obtain ⟨hwaiter, huntold⟩ := List.mem_filter.mp hwaiter
      exact hleft waiter (by simpa using huntold) (haccounted.unmet waiter hwaiter)
    nodup := hperm.nodup_iff.mpr haccounted.nodup
    waiter_call := fun waiter hwaiter => by
      rw [hwaiters] at hwaiter
      exact haccounted.waiter_call waiter (List.mem_filter.mp hwaiter).1
    signal_call := fun entry hsignal => by
      rw [hsignals] at hsignal
      rcases List.mem_append.mp hsignal with hold | hnew
      · exact haccounted.signal_call entry hold
      · obtain ⟨waiter, hwaiter, rfl⟩ := List.mem_map.mp hnew
        obtain ⟨m, other, hother, hmade⟩ :=
          haccounted.waiter_call waiter (List.mem_filter.mp hwaiter).1
        exact ⟨m, other, hother, Call.entry_of_waiter hmade⟩
    open_tracked := fun m other hother => by
      obtain ⟨id, hmade, htracked⟩ := haccounted.open_tracked m other hother
      exact ⟨id, hmade, hperm.mem_iff.mpr htracked⟩
    apart := haccounted.apart
    fresh := fun m other id hother hmade => by
      rw [hnext]
      exact haccounted.fresh m other id hother hmade }

/-- A call that is met at once leaves nothing behind. -/
theorem Accounted.metAtOnce (haccounted : Accounted files state) {new : Call} {stage : Stage}
    (hentry : new.entry = none) (hclosed : stage.isOpen = false) :
    Accounted files ⟨state.registry, state.calls ++ [(new, stage)]⟩ := by
  have hopen (m : Nat) (call : Call) :
      (State.mk state.registry (state.calls ++ [(new, stage)])).HasOpen m call ↔
        state.HasOpen m call := by
    rw [State.hasOpen_concat, hclosed]
    simp
  refine haccounted.calls hopen fun {m call id} hmade hcall => ?_
  rcases (State.knows_concat new m).mp hcall with hcall | ⟨-, rfl⟩
  · exact hcall
  · rw [hentry] at hmade
    cases hmade

/-- A call that waits makes an entry under a number that no call has had before. -/
theorem Accounted.begun (haccounted : Accounted files state) (method : String)
    (request : FeatureRequest) (limit : Option Duration)
    (hunmet : state.registry.check files method request = false) :
    Accounted files
      ⟨{ state.registry with
          waiters := state.registry.waiters ++ [⟨state.registry.nextWaiter, method, request⟩]
          nextWaiter := state.registry.nextWaiter + 1 },
        state.calls ++ [(⟨method, request, limit, some state.registry.nextWaiter⟩, .waiting)]⟩ := by
  let new : Call := ⟨method, request, limit, some state.registry.nextWaiter⟩
  have hperm : (state.registry.nextWaiter :: state.tracked).Perm
      ((state.registry.waiters ++ [Waiter.mk state.registry.nextWaiter method request]).map
        Waiter.id ++ state.registry.signals.map Prod.fst) := by
    simp only [State.tracked, List.map_append, List.map_cons, List.map_nil, List.append_assoc,
      List.singleton_append]
    exact List.perm_middle.symm
  have hcases {m : Nat} {call : Call} {id : Nat}
      (hcall : state.Knows m call ∨ m = state.calls.length ∧ call = new)
      (hmade : call.entry = some id) :
      state.Knows m call ∧ id < state.registry.nextWaiter ∨
        m = state.calls.length ∧ id = state.registry.nextWaiter := by
    rcases hcall with hcall | ⟨hm, rfl⟩
    · exact Or.inl ⟨hcall, haccounted.fresh m call id hcall hmade⟩
    · exact Or.inr ⟨hm, (Option.some.inj hmade).symm⟩
  exact {
    unmet := fun waiter hwaiter => by
      rcases List.mem_append.mp hwaiter with hold | hnew
      · exact haccounted.unmet waiter hold
      · obtain rfl := List.mem_singleton.mp hnew
        exact hunmet
    nodup :=
      hperm.nodup_iff.mp (List.nodup_cons.mpr ⟨haccounted.next_not_tracked, haccounted.nodup⟩)
    waiter_call := fun waiter hwaiter => by
      rcases List.mem_append.mp hwaiter with hold | hnew
      · obtain ⟨m, other, hother, hmade⟩ := haccounted.waiter_call waiter hold
        exact ⟨m, other, (State.hasOpen_concat _ m).mpr (Or.inl hother), hmade⟩
      · obtain rfl := List.mem_singleton.mp hnew
        exact ⟨state.calls.length, new,
          (State.hasOpen_concat new _).mpr (Or.inr ⟨rfl, rfl, rfl⟩), rfl⟩
    signal_call := fun entry hsignal => by
      obtain ⟨m, other, hother, hmade⟩ := haccounted.signal_call entry hsignal
      exact ⟨m, other, (State.hasOpen_concat _ m).mpr (Or.inl hother), hmade⟩
    open_tracked := fun m call hcall => by
      rcases (State.hasOpen_concat _ m).mp hcall with hold | ⟨-, rfl, -⟩
      · obtain ⟨id, hmade, htracked⟩ := haccounted.open_tracked m call hold
        exact ⟨id, hmade, hperm.mem_iff.mp (List.mem_cons_of_mem _ htracked)⟩
      · exact ⟨state.registry.nextWaiter, rfl, hperm.mem_iff.mp List.mem_cons_self⟩
    apart := fun m k a b id ha hb hma hmb => by
      rcases hcases ((State.knows_concat _ m).mp ha) hma with ⟨ha, _⟩ | ⟨rfl, _⟩ <;>
        rcases hcases ((State.knows_concat _ k).mp hb) hmb with ⟨hb, _⟩ | ⟨rfl, _⟩
      · exact haccounted.apart m k a b id ha hb hma hmb
      · omega
      · omega
      · rfl
    fresh := fun m call id hcall hmade => by
      change id < state.registry.nextWaiter + 1
      rcases hcases ((State.knows_concat _ m).mp hcall) hmade with ⟨-, hlt⟩ | ⟨-, heq⟩ <;> omega }

/-- Every step keeps the account. -/
theorem Accounted.next (haccounted : Accounted files state) (step : Step) :
    Accounted files (state.next files step) := by
  have heffect := haccounted.effect step
  revert heffect
  generalize state.next files step = after
  intro heffect
  cases heffect with
  | nothing => exact haccounted
  | metAtOnce => exact haccounted.metAtOnce rfl rfl
  | begun method request limit hunmet => exact haccounted.begun method request limit hunmet
  | signalled _ after isTold signal hwaiters hsignals hnext hdue hleft =>
    exact haccounted.signalled hwaiters hsignals hnext hleft
  | overdue n call hcall => exact haccounted.overdue hcall
  | resumed _ n call id signal hopen hentry => exact haccounted.forget hopen hentry rfl
  | timedOut n call limit waiter hopen hlimit hmade =>
    exact haccounted.forget hopen (Call.entry_of_waiter hmade) rfl
  | dropped n call id hopen hentry => exact haccounted.forget hopen hentry rfl

/-- Every run keeps the account. -/
theorem accounted_run (files : FileTree) (steps : List Step) : Accounted files (run files steps) :=
  Run.final_induction _ _ (Accounted.initial files) (fun _ step haccounted => haccounted.next step)
    steps

end Preservation

end LanguageClient.Waiting
