import LanguageClient.Feature.Grant
import LanguageClient.Feature.Request

/-!
# Whether grants meet a request

A grant holds a need or does not, depending on the form of its options. A request is met by the
grants of a method if there is one at all and if every need is held by some grant; different needs
may be held by different grants.
-/

namespace LanguageClient

namespace FullTokens

/-- Whether tokens of a whole document are given. -/
def givesFull : FullTokens → Bool
  | .flag enabled => enabled
  | .options _ => true

/-- Whether changes of the tokens of a whole document are given. -/
def givesDelta : FullTokens → Bool
  | .flag _ => false
  | .options delta => delta.getD false

end FullTokens

namespace SemanticTokensOptions

/-- Whether tokens are given in a form. -/
def gives (options : SemanticTokensOptions) : TokensMode → Bool
  | .full => (options.full.map FullTokens.givesFull).getD false
  | .fullDelta => (options.full.map FullTokens.givesDelta).getD false
  | .range => (options.range.map Grant.isGranted).getD false

end SemanticTokensOptions

namespace ResolveSupport

/-- The switch for it in the options, if they have one that is set. -/
def switch? : ResolveSupport → RegistrationOptions → Option Bool
  | .codeAction, .codeAction options => options.resolveProvider
  | .completionItem, .completion options => options.resolveProvider
  | .completionItemLabelDetails, .completion options =>
    options.completionItem.bind CompletionItemOptions.labelDetailsSupport
  | .inlayHint, .inlayHint options => options.resolveProvider
  | .workspaceSymbol, .workspaceSymbol options => options.resolveProvider
  | .codeLens, .codeLens options => options.resolveProvider
  | .documentLink, .documentLink options => options.resolveProvider
  | .workspaceDiagnostic, .diagnostic options => some options.workspaceDiagnostics
  | _, _ => none

end ResolveSupport

namespace Grant

/-- Whether the grant applies to a document; without a filter it applies to all. -/
def appliesTo (grant : Grant) (document : DocumentInfo) : Bool :=
  match grant.selector with
  | none | some [] => true
  | some filters => filters.any (DocumentFilter.covers document)

/-- Whether the grant holds a need. -/
def holds (files : FileTree) (grant : Grant) : Need → Bool
  | .document document => grant.appliesTo document
  | .syncKind kind =>
    match grant.options with
    | .textDocumentChange options => options.syncKind == kind
    | .textDocumentSync options => options.change == some kind
    | _ => false
  | .includeText included =>
    match grant.options with
    | .save options => options.includeText.getD false == included
    | _ => false
  | .fileOperation uri =>
    match grant.options with
    | .fileOperation options => options.filters.any fun filter => filter.covers files uri
    | _ => false
  | .tokens mode =>
    match grant.options with
    | .semanticTokens options => options.gives mode
    | _ => false
  | .codeAction kind =>
    match grant.options with
    | .codeAction options => (options.kinds.getD []).contains kind
    | _ => false
  | .command name =>
    match grant.options with
    | .executeCommand options => options.commands.contains name
    | _ => false
  | .resolve support => (support.switch? grant.options).getD false

/-- Whether it cannot be told if the grant holds a need. Filters are asked one after the other, up
to the first one that covers what is needed. -/
def failsOn (files : FileTree) (grant : Grant) : Need → Bool
  | .document document =>
    let filters := grant.selector.getD []
    (filters.find? fun filter => filter.failsOn document || filter.covers document).any
      (DocumentFilter.failsOn document)
  | .fileOperation uri =>
    match grant.options with
    | .fileOperation options =>
      (options.filters.find? fun filter => filter.failsOn uri || filter.covers files uri).any
        (FileOperationFilter.failsOn · uri)
    | _ => false
  | _ => false

end Grant

namespace Requirement

/-- Raises the flag of each need of the requirement that a grant holds. -/
def raise (files : FileTree) (requirement : Requirement) (grant : Grant) (flags : List Bool) :
    List Bool :=
  List.zipWith (fun flag need => flag || grant.holds files need) flags requirement.needs

end Requirement

namespace FeatureRequest

/-- One flag for each need of each requirement. The grants raise them, one after the other. -/
def flags (files : FileTree) (request : FeatureRequest) (grants : List Grant) :
    List (List Bool) :=
  grants.foldl
    (fun flags grant =>
      List.zipWith (fun requirement => requirement.raise files grant) request.requirements flags)
    (request.requirements.map fun requirement => requirement.needs.map fun _ => false)

/-- Whether the grants of a method meet the request: there is one, and they raise all flags. -/
def isMet (files : FileTree) (request : FeatureRequest) (grants : List Grant) : Bool :=
  !grants.isEmpty && (request.flags files grants).flatten.all id

/-- Whether the grants of a method meet the request, if this can be told. Every grant is asked for
every need, also where another one holds it. -/
def isMet? (files : FileTree) (request : FeatureRequest) (grants : List Grant) : Option Bool :=
  let needs := request.requirements.flatMap Requirement.needs
  if grants.any fun grant => needs.any (grant.failsOn files) then none
  else some (request.isMet files grants)

end FeatureRequest

end LanguageClient
