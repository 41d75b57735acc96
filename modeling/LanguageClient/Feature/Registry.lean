import LanguageClient.Feature.Check

/-!
# The registry of grants

The registry holds every grant that a server has made, by method, and the calls that wait for one.
A call that is not met at once leaves an entry behind. Every change of the grants looks at the
entries again and signals those that are met now; closing the connection signals all of them that
they are given up. A signal stays until its call takes it. A call that reaches its deadline removes
its entry itself, so an entry is either signalled or timed out, never both.
-/

namespace LanguageClient

/-- An entry of a call that waits for a feature. -/
structure Waiter where
  id : Nat
  method : String
  request : FeatureRequest

/-- What a waiting call is told. -/
inductive WaiterSignal
  | met
  | abandoned
  deriving DecidableEq

/-- What a call for a method ends with when it takes the signal. -/
def WaiterSignal.result (method : String) : WaiterSignal → Except FeatureError Unit
  | .met => .ok ()
  | .abandoned => .error (.abandoned method)

/-- Whether grants can be added already. -/
inductive RegistryState
  /-- The server has not answered the handshake yet. -/
  | uninitialized
  | ready
  deriving DecidableEq

/-- The grants of a server and the calls that wait for more of them. -/
structure Registry where
  state : RegistryState
  /-- What the server answered to the handshake; absent until it has answered. -/
  capabilities : Option ServerCapabilities
  /-- The grants of each method, ascending by method; no method has an empty list. -/
  grants : List (String × List Grant)
  /-- The entries of the calls that wait, in the order in which they began. -/
  waiters : List Waiter
  /-- Signals that their calls have not taken yet. -/
  signals : List (Nat × WaiterSignal)
  /-- The id of the next entry. -/
  nextWaiter : Nat

namespace Registry

/-- The registry of a server that has not answered yet. -/
def empty : Registry := ⟨.uninitialized, none, [], [], [], 0⟩

/-- Whether the server has answered the handshake. -/
def isReady (registry : Registry) : Bool := registry.state == .ready

/-- The grants of a method. -/
def grantsOf (registry : Registry) (method : String) : List Grant :=
  (registry.grants.lookup method).getD []

/-- The methods that have a grant, in ascending order. -/
def methods (registry : Registry) : List String :=
  registry.grants.map Prod.fst

/-- Whether the grants of a method meet a request. -/
def check (files : FileTree) (registry : Registry) (method : String) (request : FeatureRequest) :
    Bool :=
  request.isMet files (registry.grantsOf method)

/-- Whether the grants of a method meet a request, if this can be told. -/
def check? (files : FileTree) (registry : Registry) (method : String) (request : FeatureRequest) :
    Option Bool :=
  request.isMet? files (registry.grantsOf method)

/-- Appends a grant to those of its method. -/
def append (grants : List (String × List Grant)) (grant : Grant) : List (String × List Grant) :=
  insertField grant.method ((grants.lookup grant.method).getD [] ++ [grant]) grants

/-- Signals the entries that are met now; only those of one method are looked at if one is named. -/
def signalMet (files : FileTree) (method? : Option String) (registry : Registry) : Registry :=
  let isMet (waiter : Waiter) : Bool :=
    method?.all (· == waiter.method) && registry.check files waiter.method waiter.request
  { registry with
    waiters := registry.waiters.filter fun waiter => !isMet waiter
    signals := registry.signals ++
      (registry.waiters.filter isMet).map fun waiter => (waiter.id, .met) }

/-- Takes the answer to the handshake: its grants replace all earlier ones. -/
def setCapabilities (files : FileTree) (registry : Registry) (capabilities : ServerCapabilities) :
    Registry :=
  signalMet files none
    { registry with
      state := .ready
      capabilities := some capabilities
      grants := (Grant.ofCapabilities capabilities).foldl append [] }

/-- Puts a grant in the place of the one with its id, or at the end. -/
def replaceOrAppend (grant : Grant) : List Grant → List Grant
  | [] => [grant]
  | other :: rest =>
    if other.id.isSome && other.id == grant.id then grant :: rest
    else other :: replaceOrAppend grant rest

/-- Adds the grant of a later registration. -/
def add (files : FileTree) (registry : Registry) (registration : Registration) :
    Except FeatureError Registry :=
  if !registry.isReady then .error (.notReady registration.method)
  else
    match Grant.ofRegistration registration with
    | .error error => .error error
    | .ok grant =>
      let grants :=
        insertField grant.method (replaceOrAppend grant (registry.grantsOf grant.method))
          registry.grants
      .ok (signalMet files (some grant.method) { registry with grants })

/-- Takes a grant back, and tells whether there was one. -/
def remove (registry : Registry) (unregistration : Unregistration) : Registry × Bool :=
  let method := unregistration.method
  let isMeant (grant : Grant) : Bool := grant.id == some unregistration.id
  let before := registry.grantsOf method
  if before.any isMeant then
    let after := before.eraseP isMeant
    let grants :=
      if after.isEmpty then registry.grants.filter fun entry => entry.1 != method
      else insertField method after registry.grants
    ({ registry with grants }, true)
  else (registry, false)

/-- Gives up all entries, because the connection has closed. -/
def abandon (registry : Registry) : Registry :=
  { registry with
    waiters := []
    signals := registry.signals ++ registry.waiters.map fun waiter => (waiter.id, .abandoned) }

/-- Begins to wait for a feature; nothing is left behind if the request is met already. -/
def await (files : FileTree) (registry : Registry) (method : String) (request : FeatureRequest) :
    Registry × Option Nat :=
  if registry.check files method request then (registry, none)
  else
    let id := registry.nextWaiter
    ({ registry with
        waiters := registry.waiters ++ [⟨id, method, request⟩]
        nextWaiter := id + 1 }, some id)

/-- Takes the signal for a call, if there is one. -/
def takeSignal? (registry : Registry) (id : Nat) : Option (WaiterSignal × Registry) :=
  (registry.signals.lookup id).map fun signal =>
    (signal, { registry with signals := registry.signals.filter fun entry => entry.1 != id })

/-- Whether a call still has an entry. -/
def isWaiting (registry : Registry) (id : Nat) : Bool :=
  registry.waiters.any fun waiter => waiter.id == id

/-- Removes what a call has left behind, because it was dropped or its deadline has passed. -/
def forget (registry : Registry) (id : Nat) : Registry :=
  { registry with
    waiters := registry.waiters.filter fun waiter => waiter.id != id
    signals := registry.signals.filter fun entry => entry.1 != id }

/-- Ends the wait of a call, if its signal has come. -/
def resume? (registry : Registry) (id : Nat) (method : String) :
    Option (Except FeatureError Unit × Registry) :=
  (registry.takeSignal? id).map fun (signal, registry) => (signal.result method, registry)

/-- Ends the wait of a call whose deadline has passed. If its entry is gone, a signal came before
the call could look, and that counts. -/
def expire (registry : Registry) (id : Nat) (method : String) (limit : Duration) :
    Except FeatureError Unit × Registry :=
  if registry.isWaiting id then (.error (.timeout method limit), registry.forget id)
  else (registry.resume? id method).getD (.error (.abandoned method), registry)

end Registry

end LanguageClient
