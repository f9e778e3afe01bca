import ApexForensic.Mcp.Model

/-!
# The authorization gate

Which cases a call is about is read from its arguments, or from what the Core
answers about them.  The gate compares these cases with the session, the
scopes of the token with those of the tool, and the role in each case with
both.
-/

namespace ApexForensic.Mcp

open ApexForensic.Support ApexForensic.Domain

/-! ## The Core -/

/-- The identifiers of a request, when there are any. -/
structure CallIds where
  requestId : Option String
  correlationId : Option String

/-- The public interface of the Core on its state.  `invoke_read` refuses the
operations that change the state. -/
structure Core (σ : Type) where
  invokeRead : σ → String → List (String × Json) → CallIds →
    Except PyError (List (String × Json))
  invokeMutation : σ → String → List (String × Json) → CallIds →
    σ × Except PyError (List (String × Json))

/-- A lookup carries no identifiers. -/
def noIds : CallIds where
  requestId := none
  correlationId := none

/-- `result.get("status") == status`. -/
def hasStatus (result : List (String × Json)) (status : String) : Bool :=
  equalsStr? (getKey result "status") (some status)

/-- The tools that read the live context before anything else. -/
def contextTools : List String :=
  ["apex.context.get", "apex.context.snapshot"]

/-- The adapter between the server and the Core.  The Core's descriptors of
the context tools require no confirmation. -/
structure EngineAdapter (σ : Type) where
  core : Core σ
  descriptors : Table EngineToolDescriptor.toolName
  closed : Bool
  unconfirmed : ∀ descriptor ∈ descriptors.rows,
    descriptor.toolName ∈ contextTools → descriptor.requiresConfirmation = false

def closedError : ToolFailure :=
  builtinFailure .runtimeError "EngineAdapter is closed."

/-! ## Target cases -/

mutual

/-- `_case_ids`. -/
def caseIds : Json → List String
  | .obj fields =>
      (match getKey fields "case_id" with
        | .str caseId => if caseId = "" then [] else [caseId]
        | _ => []) ++ caseIdsOfFields fields
  | .arr items => caseIdsOfItems items
  | _ => []

def caseIdsOfItems : List Json → List String
  | [] => []
  | item :: items => caseIds item ++ caseIdsOfItems items

def caseIdsOfFields : List (String × Json) → List String
  | [] => []
  | (_, item) :: fields => caseIds item ++ caseIdsOfFields fields

end

/-- `_CASE_LOOKUPS`: the tool that resolves a case, and the arguments it
takes. -/
def caseLookups : List (String × String × List String) :=
  [("apex.context.get", "apex.context.get", ["session_context_id"]),
   ("apex.context.snapshot", "apex.context.get", ["session_context_id"]),
   ("apex.context.snapshot_show", "apex.context.snapshot_show",
      ["context_snapshot_id"]),
   ("apex.context.scope_page", "apex.context.snapshot_show",
      ["context_snapshot_id"]),
   ("ai.request.get", "ai.request.get", ["assistance_request_id"]),
   ("ai.request.execute", "ai.request.get", ["assistance_request_id"]),
   ("ai.keyword-batch.get", "ai.keyword-batch.get",
      ["recommendation_batch_id"]),
   ("ai.keyword-recommendation.get", "ai.keyword-recommendation.get",
      ["recommendation_id"]),
   ("ai.scope-summary.get", "ai.scope-summary.get", ["scope_summary_id"])]

/-- The arguments that a lookup takes. -/
def lookupPayload (arguments : List (String × Json)) (names : List String) :
    List (String × Json) :=
  names.filterMap fun name =>
    (Json.lookup name arguments).map fun value => (name, value)

/-- The case that the arguments name. -/
def namedCase (arguments : List (String × Json)) : Option String :=
  match getKey arguments "case_id" with
  | .str caseId => if caseId = "" then none else some caseId
  | _ => none

section

variable {σ : Type}

/-- `target_case_ids`, in key order. -/
def EngineAdapter.targetCaseIds (adapter : EngineAdapter σ) (state : σ)
    (toolName : String) (arguments : List (String × Json)) :
    Except ToolFailure (List String) := do
  if adapter.closed then
    .error closedError
  match namedCase arguments with
  | some caseId => return [caseId]
  | none =>
      match caseLookups.lookup toolName with
      | none => return []
      | some (lookupTool, names) => do
          let result ← (adapter.core.invokeRead state lookupTool
            (lookupPayload arguments names) noIds).mapError .core
          if hasStatus result "OK" then
            return sortedUnique (caseIds (getKey result "data"))
          else return []

end

/-! ## Sessions -/

/-- A server-resolved identity and its tenancy boundary. -/
structure FrontendSession where
  actorId : String
  sessionId : String
  tenantId : String
  allowedCaseIds : List String
  roles : List String

def unauthenticatedActors : List String :=
  ["", "anonymous", "unauthenticated"]

def machineActors : List String :=
  ["ai", "llm", "model", "bot", "system", "mcp-ai", "external-ai"]

/-- `_MACHINE_ACTOR.search`: the pattern is anchored at the start, and its `$`
also holds before a final line feed. -/
def isMachineActor (actorId : String) : Bool :=
  machineActors.any fun word =>
    (afterWord word.toList actorId.toList).any fun rest =>
      match rest with
      | [] => true
      | ['\n'] => true
      | c :: _ => c ∈ ['-', '_', ':']

section

variable (P : Platform)

def isAuthenticatedActor (actorId : String) : Bool :=
  P.casefold actorId ∉ unauthenticatedActors ∧ isMachineActor actorId = false

/-- `FrontendSession` with the checks of its constructor. -/
def frontendSession (actorId sessionId tenantId : String)
    (allowedCaseIds roles : List String) :
    Except ToolFailure FrontendSession := do
  if strip actorId = "" ∨ isAuthenticatedActor P actorId = false then
    .error (authenticatedActorRequiredError "frontend.session")
  if strip sessionId = "" ∨ strip tenantId = "" then
    .error (builtinFailure .valueError
      "Frontend session and tenant identifiers must be non-empty.")
  if allowedCaseIds = [] ∨ "" ∈ allowedCaseIds.map strip then
    .error (builtinFailure .valueError
      "A frontend session must allow at least one non-empty case id.")
  let normalized := (roles.filter (strip · ≠ "")).map (normalizedRole P)
  if normalized = [] then
    .error (builtinFailure .valueError
      "A frontend session must have at least one role.")
  if ¬ normalized ⊆ allRoles then
    .error (builtinFailure .valueError
      "A frontend session contains an unsupported role.")
  return { actorId, sessionId, tenantId, allowedCaseIds, roles := normalized }

/-- The stripped strings of a list, without the empty ones. -/
def strippedTexts (items : List Json) : List String :=
  items.filterMap fun
    | .str s => if strip s = "" then none else some (strip s)
    | _ => none

/-- `for item in value`, on a decoded value. -/
def pyItems : Json → Except PyError (List Json)
  | .arr items => .ok items
  | .obj fields => .ok (fields.map fun field => .str field.1)
  | .str s => .ok (s.toList.map fun c => .str (String.singleton c))
  | _ => .error (.builtin .typeError "object is not iterable")

/-- `PersistentFrontendSecurityProvider.resolve_session`. -/
def resolveSession (token : AccessToken) :
    Except ToolFailure FrontendSession := do
  let actorId := token.actorId P
  let sessionId := token.text P "session_id"
  let tenantId := token.text P "tenant_id"
  if actorId = "" ∨ sessionId = "" ∨ tenantId = "" then
    .error (authorizationDeniedError "frontend.session" [])
  match Json.lookup "case_roles" token.claims with
  | none =>
      .error (authorizationDeniedError "frontend.session.legacy_token" [])
  | some (.obj caseRoles) => do
      let rawCaseIds := getKey token.claims "allowed_case_ids"
      let items ← (if truthy rawCaseIds then pyItems rawCaseIds
        else .ok []).mapError .core
      frontendSession P actorId sessionId tenantId
        (strippedTexts items).dedup
        ((strippedTexts (caseRoles.map Prod.snd)).map P.upper).dedup
  | some _ =>
      .error (authorizationDeniedError "frontend.session.invalid_case_roles" [])

/-! ## Requirements of a tool -/

def requiredScopes (descriptor : EngineToolDescriptor) (toolName : String) :
    List String :=
  ["apex:mcp", "apex:read"] ++
    (if descriptor.mutatesState then ["apex:write"] else []) ++
    (if descriptor.requiresConfirmation then ["apex:confirm"] else []) ++
    (if toolName = "apex.view.raw_read" then ["apex:raw"] else []) ++
    (if toolName ∈ approvalTools then ["apex:approve"] else []) ++
    (if toolName ∈ exportTools then ["apex:export"] else [])

/-- `sorted(required - held)`. -/
def missingScopes (required held : List String) : List String :=
  sortedUnique (required.filter (· ∉ held))

def scopesDenied (toolName : String) (missing : List String) : ToolFailure :=
  authorizationDeniedError toolName (missing.map ("scope:" ++ ·))

/-- The roles that may call a tool; there are none when every role may. -/
def requiredRoles (descriptor : EngineToolDescriptor) (toolName : String) :
    List String :=
  if toolName ∈ approvalTools then approvalRoles
  else if toolName ∈ exportTools then exportRoles
  else if toolName = "apex.view.raw_read" then rawReadRoles
  else if descriptor.mutatesState then humanMutationRoles
  else []

def rolesDenied (toolName : String) (required : List String) : ToolFailure :=
  authorizationDeniedError toolName (required.map ("role:" ++ ·))

/-- `str(case_roles.get(case_id, "")).strip().upper()`. -/
def roleText (caseRoles : Json) (caseId : String) : Except PyError String :=
  match caseRoles with
  | .obj fields =>
      .ok (normalizedRole P (pyStr P (getDefault fields caseId (.str ""))))
  | _ => .error (.builtin .attributeError "object has no attribute 'get'")

/-- The scopes of a role; the empty role has none. -/
def roleScopes (role : String) : List String :=
  if role = "" then [] else Auth.scopesForRoles P.toAuth [role]

/-! ## The gate -/

/-- The role in a case must grant every required scope. -/
def requireCaseScopes (caseRoles : Json) (toolName : String)
    (required : List String) (caseId : String) : Except ToolFailure Unit := do
  let role ← (roleText P caseRoles caseId).mapError .core
  let missing := missingScopes required (roleScopes P role)
  if missing ≠ [] then
    .error (scopesDenied toolName missing)

/-- The role in a case must be one of those that may call the tool. -/
def requireCaseRole (caseRoles : Json) (toolName : String)
    (required : List String) (caseId : String) : Except ToolFailure Unit := do
  let role ← (caseRole P caseRoles caseId).mapError .core
  if role ∉ required then
    .error (rolesDenied toolName required)

/-- `FrontendAuthorizationGate.require`. -/
def requireAuthorization (session : FrontendSession) (token : AccessToken)
    (descriptor : EngineToolDescriptor) (toolName : String)
    (targetCaseIds : List String) : Except ToolFailure Unit := do
  if ¬ targetCaseIds ⊆ session.allowedCaseIds then
    .error (tenantScopeViolationError toolName)
  let required := requiredScopes descriptor toolName
  let missing := missingScopes required token.scopes
  if missing ≠ [] then
    .error (scopesDenied toolName missing)
  let caseRoles := orEmptyDict (getKey token.claims "case_roles")
  if truthy caseRoles then
    targetCaseIds.forM (requireCaseScopes P caseRoles toolName required)
  let roles := requiredRoles descriptor toolName
  if roles ≠ [] then
    if truthy caseRoles then
      targetCaseIds.forM (requireCaseRole P caseRoles toolName roles)
    else if session.roles.all (· ∉ roles) then
      .error (rolesDenied toolName roles)

/-- The target cases of a call that the gate lets through. -/
def authorizeTool {σ : Type} (adapter : EngineAdapter σ) (state : σ)
    (session : FrontendSession) (token : AccessToken)
    (descriptor : EngineToolDescriptor) (toolName : String)
    (arguments : List (String × Json)) : Except ToolFailure (List String) := do
  let targetCaseIds ← adapter.targetCaseIds state toolName arguments
  requireAuthorization P session token descriptor toolName targetCaseIds
  return targetCaseIds

end

end ApexForensic.Mcp
