import LanguageClient.Client.Documents
import LanguageClient.Client.Lifecycle
import LanguageClient.Proofs.Feature.Coverage

/-!
# What the answer to the handshake grants

A server that asks in its answer to the handshake to hear of the life of documents asks for all of
them. As long as it takes nothing back it is told about each document that is opened, changed or
closed.
-/

namespace LanguageClient

/-- Appending grants one after the other keeps those of each method in order. -/
theorem Registry.lookup_foldl_append (grants : List Grant) (fields : List (String × List Grant))
    (method : String) : ((grants.foldl append fields).lookup method).getD [] =
      (fields.lookup method).getD [] ++ grants.filter (·.method == method) := by
  induction grants generalizing fields with
  | nil => rw [List.foldl_nil, List.filter_nil, List.append_nil]
  | cons grant rest ih =>
    rw [List.foldl_cons, ih, append, lookup_insertField]
    by_cases hmethod : method = grant.method
    · subst hmethod
      simp
    · have hother : (grant.method == method) = false := beq_eq_false_iff_ne.mpr (Ne.symm hmethod)
      rw [if_neg hmethod, List.filter_cons, hother, if_neg Bool.false_ne_true]

namespace Grant

/-- A shorthand stands for its options, also where it stands for nothing. -/
theorem ofSync_eq (sync : DocumentSync) : ofSync sync = ofSyncOptions sync.toOptions := by
  cases sync with
  | kind shorthand => cases shorthand <;> rfl
  | options full => rfl

/-- The grant of a method that options about the life of documents stand for. -/
def ofSyncMethod (method : String) (options : SyncOptions) : Grant :=
  ofOptions none method (.textDocumentSync options)

/-- Who asks to hear of documents that are opened also asks to hear of those that are closed. -/
theorem openClose_mem {options : SyncOptions} (hopenClose : options.openClose = some true) :
    ofSyncMethod "textDocument/didOpen" options ∈ ofSyncOptions options ∧
      ofSyncMethod "textDocument/didClose" options ∈ ofSyncOptions options := by
  simp [ofSyncOptions, ofSyncMethod, hopenClose]

/-- Who names a form for changes asks to hear of them. -/
theorem change_mem {options : SyncOptions} {kind : SyncKind} (hchange : options.change = some kind)
    (hkind : kind ≠ .none) :
    ofSyncMethod "textDocument/didChange" options ∈ ofSyncOptions options := by
  cases kind with
  | none => exact absurd rfl hkind
  | full | incremental => simp [ofSyncOptions, ofSyncMethod, hchange]

/-- The grant applies to all documents. -/
theorem isMet_forDocument (files : FileTree) (method : String) (options : SyncOptions)
    (uri language : String) :
    (FeatureRequest.forDocument uri language).isMet files [ofSyncMethod method options] = true :=
  rfl

/-- The grant names the form of changes for all documents. -/
theorem isMet_syncKind (files : FileTree) (method : String) {options : SyncOptions}
    {kind : SyncKind} (hchange : options.change = some kind) (uri language : String) :
    ((FeatureRequest.forDocument uri language).add (.syncKind kind)).isMet files
      [ofSyncMethod method options] = true := by
  simp [FeatureRequest.isMet_eq, FeatureRequest.forDocument, FeatureRequest.empty,
    FeatureRequest.add, FeatureRequest.insert, Requirement.needs, Requirement.key, holds, appliesTo,
    ofSyncMethod, ofOptions, RegistrationOptions.selector?, hchange]

end Grant

/-- The server has asked in its answer to the handshake, and nowhere else, to hear of all documents
that are opened and closed, and messages can be sent to it. -/
structure Client.Follows (client : Client) (options : SyncOptions) : Prop where
  sending : client.isSending = true
  openClose : options.openClose = some true
  granted : ∃ capabilities sync,
    client.registry.grants = (Grant.ofCapabilities capabilities).foldl Registry.append [] ∧
      capabilities.documentSync = some sync ∧ sync.toOptions = options

namespace Client.Follows

variable {client : Client} {options : SyncOptions} {files : FileTree}

/-- A server that has just answered the handshake in this way is told about documents. -/
theorem of_finishHandshake {result : HandshakeResult} {sync : DocumentSync}
    (hsending : client.isSending = true) (hsync : result.capabilities.documentSync = some sync)
    (hopenClose : sync.toOptions.openClose = some true) :
    (client.finishHandshake files result).2.Follows sync.toOptions := by
  unfold finishHandshake notify send
  simp only [hsending, if_true]
  exact ⟨rfl, hopenClose, result.capabilities, sync, rfl, hsync, rfl⟩

/-- What one of the grants meets is met. -/
theorem check (hfollows : client.Follows options) {method : String}
    {request : FeatureRequest}
    (hmem : Grant.ofSyncMethod method options ∈ Grant.ofSyncOptions options)
    (hmet : request.isMet files [Grant.ofSyncMethod method options] = true) :
    client.check files method request = true := by
  obtain ⟨capabilities, sync, hgrants, hsync, rfl⟩ := hfollows.granted
  have hall : Grant.ofSyncMethod method sync.toOptions ∈ Grant.ofCapabilities capabilities := by
    refine List.mem_append_left _ (List.mem_append_left _ ?_)
    rwa [hsync, Option.map_some, Option.getD_some, Grant.ofSync_eq]
  have hgranted : Grant.ofSyncMethod method sync.toOptions ∈ client.registry.grantsOf method := by
    rw [Registry.grantsOf, hgrants, Registry.lookup_foldl_append]
    exact List.mem_append_right _ (List.mem_filter.mpr ⟨hall, beq_self_eq_true method⟩)
  refine FeatureRequest.isMet_of_subset (fun grant hgrant => ?_) hmet
  obtain rfl := List.mem_singleton.mp hgrant
  exact hgranted

/-- Documents that are opened are told. -/
theorem check_didOpen (hfollows : client.Follows options) (uri language : String) :
    client.check files "textDocument/didOpen" (.forDocument uri language) = true :=
  hfollows.check (Grant.openClose_mem hfollows.openClose).1 (Grant.isMet_forDocument ..)

/-- Documents that are closed are told. -/
theorem check_didClose (hfollows : client.Follows options) (uri language : String) :
    client.check files "textDocument/didClose" (.forDocument uri language) = true :=
  hfollows.check (Grant.openClose_mem hfollows.openClose).2 (Grant.isMet_forDocument ..)

/-- Documents that have changed are told in the form that the server names. -/
theorem check_didChange (hfollows : client.Follows options) {kind : SyncKind}
    (hchange : options.change = some kind) (hkind : kind ≠ .none) (uri language : String) :
    client.check files "textDocument/didChange"
      ((FeatureRequest.forDocument uri language).add (.syncKind kind)) = true :=
  hfollows.check (Grant.change_mem hchange hkind) (Grant.isMet_syncKind _ _ hchange ..)

/-- Messages that are sent change nothing of what the server has asked for. -/
theorem sent (hfollows : client.Follows options) (messages : List Message) :
    { client with outbox := client.outbox ++ messages }.Follows options :=
  ⟨hfollows.sending, hfollows.openClose, hfollows.granted⟩

end Client.Follows

namespace Sample

/-- The files of a small project. -/
def files : FileTree :=
  ⟨["w"], [], [([], .folder), (["w"], .folder), (["w", "a"], .file [0x61, 0x0A, 0x62])]⟩

/-- A client whose server has asked for the ranges of changes. -/
def client : Client :=
  ((Client.connect "server" .utf16 .standard 0 none).finishHandshake files
    ⟨⟨none, some (.kind .incremental), [], none, none⟩, none⟩).2

theorem follows_client : client.Follows (DocumentSync.kind .incremental).toOptions :=
  .of_finishHandshake rfl rfl rfl

end Sample

end LanguageClient
