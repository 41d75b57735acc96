import LanguageClient.Double
import LanguageClient.Duration

/-!
# Time limits

How long answers are waited for. Each kind of request has its own share of the configured limit;
the product is computed with 53 significant bits, and one that does not fit into a word of seconds
is refused.
-/

namespace LanguageClient

/-- Kinds of requests that differ in how long they may take. -/
inductive OperationKind
  | ordinary
  | workspaceWide
  | handshake
  | shutdown
  deriving DecidableEq

namespace OperationKind

/-- The methods that look at the whole workspace. -/
def workspaceWideMethods : List String := [
  "workspace/symbol", "workspace/diagnostic", "workspace/executeCommand",
  "textDocument/references", "textDocument/rename", "callHierarchy/incomingCalls",
  "callHierarchy/outgoingCalls"]

/-- The kind of a method. -/
def ofMethod (method : String) : OperationKind :=
  if workspaceWideMethods.contains method then .workspaceWide
  else if method == "initialize" then .handshake
  else if method == "shutdown" then .shutdown
  else .ordinary

/-- The share of the configured limit, in halves. -/
def halves : OperationKind → Nat
  | .ordinary => 2
  | .workspaceWide => 6
  | .handshake => 4
  | .shutdown => 1

end OperationKind

/-- The configured limits. -/
structure Timeouts where
  /-- The limit for ordinary requests, in seconds. -/
  requestSeconds : Nat
  /-- The limit for waiting for a feature; absent, there is none. -/
  feature : Option Duration
  /-- The time that a server is given to shut down. -/
  shutdown : Duration

namespace Timeouts

/-- The limits where nothing is configured. -/
def standard : Timeouts := ⟨30, some (.ofSeconds 10), .ofSeconds 5⟩

/-- The limit for a request, unless it does not fit into a word of seconds. -/
def ofMethod? (timeouts : Timeouts) (method : String) : Option Duration :=
  let halves := (OperationKind.ofMethod method).halves
  let product := Double.round (Double.round timeouts.requestSeconds * halves)
  if product / 2 < Nat.pow 2 64 then some ⟨product * (Duration.perSecond / 2)⟩ else none

end Timeouts

end LanguageClient
