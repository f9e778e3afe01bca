import ApexForensic.Mcp.Registry

/-!
# Tool calls

`call_tool` as a computation on the state of the server: the Core, the grants,
the budget windows, and the operations that were passed to the Core so far,
each with the grant that confirmed it.
-/

namespace ApexForensic.Mcp

open ApexForensic.Support ApexForensic.Domain

structure CoreCall where
  operation : String
  confirmedBy : Option String
  deriving DecidableEq

structure ServerState (σ : Type) where
  core : σ
  grants : GrantStore
  windows : Windows
  coreCalls : List CoreCall

/-- The arguments of `call_tool`. -/
structure CallRequest where
  toolName : String
  arguments : List (String × Json)
  confirmation : Option ConfirmationRequest := none
  budgetScope : String := "direct"
  trustedActorId : Option String := none
  trustedSessionId : Option String := none
  accessToken : Option AccessToken := none

/-- What `uuid4` and the clocks return during one call. -/
structure CallInputs where
  requestId : String
  correlationId : String
  confirmationAt : Datetime
  begunAt : ℤ
  authorizedAt : Datetime
  invokedAt : Datetime
  acceptedAt : ℤ

/-- What the client is given: a result, or the exception that escaped. -/
inductive CallOutcome where
  | returned (result : List (String × Json)) (isError : Bool)
  | raised (failure : ToolFailure)

/-- The client sees an error. -/
def CallOutcome.isError : CallOutcome → Bool
  | returned _ isError => isError
  | raised _ => true

/-! ## Before the call is counted -/

def targetIdFields : List String :=
  ["resource_id", "context_snapshot_id", "report_id", "report_version_id",
    "left_report_version_id", "right_report_version_id", "section_id",
    "custody_snapshot_id", "expected_custody_snapshot_id",
    "expected_approval_id", "package_id", "export_manifest_id",
    "recommendation_id", "scope_summary_id", "keyword_set_id", "target_id"]

/-- `_target_ids`. -/
def targetIds (arguments : List (String × Json)) : List String :=
  targetIdFields.foldl (fun values field =>
    match getKey arguments field with
    | .str value =>
        if value = "" ∨ value ∈ values then values else values ++ [value]
    | _ => values) []

/-- `request_fingerprint`. -/
def requestFingerprint (P : Platform) (arguments : List (String × Json)) :
    String :=
  canonicalSha256 P.sha256 (.obj arguments) []

/-- `str(arguments.get("case_id", ""))`. -/
def caseText (P : Platform) (arguments : List (String × Json)) : String :=
  pyStr P (getDefault arguments "case_id" (.str ""))

/-- `FrontendSession.budget_scope`. -/
def FrontendSession.budgetScope (P : Platform) (session : FrontendSession) :
    String :=
  "http:" ++ P.sha256 (session.tenantId ++ "\x00" ++ session.sessionId).toUTF8

/-- `confirmation_for`: the first grant with uses left. -/
def confirmationFor (session : FrontendSession)
    (caseId toolName fingerprint : String) (targets : List String)
    (now : Datetime) (store : GrantStore) : Option ConfirmationRequest :=
  (store.grants.rows.find? fun row =>
      row.actorId = session.actorId ∧ row.sessionId = session.sessionId ∧
        row.caseId = caseId ∧ row.toolName = toolName ∧
        row.requestFingerprint = fingerprint ∧
        now.utcMicros < row.expiresAt.utcMicros ∧
        row.usesCount < row.maxUses ∧ row.targetIds = targets).map
    fun row =>
      { grantId := row.grantId
        actorId := session.actorId
        sessionId := session.sessionId
        caseId := caseId
        toolName := toolName
        requestFingerprint := fingerprint
        targetIds := targets }

/-- The payload that names the live context. -/
def contextPayload (arguments : List (String × Json)) :
    List (String × Json) :=
  [("session_context_id", getKey arguments "session_context_id")]

/-- What is known of a call once it may be counted. -/
structure Admission where
  tool : RegisteredTool
  actorId : Option String
  sessionId : Option String
  scope : String
  confirmation : Option ConfirmationRequest

section

variable {σ : Type} (P : CallPlatform) (registry : ToolRegistry σ)

/-- `require_frontend_context`. -/
def requireFrontendContext (state : σ) (toolName : String)
    (arguments : List (String × Json)) (actorId sessionId : String) :
    Except ToolFailure Unit :=
  if toolName ∉ contextTools then .ok ()
  else do
    let result ← (registry.adapter.core.invokeRead state "apex.context.get"
      (contextPayload arguments) noIds).mapError .core
    if hasStatus result "OK" then
      match getKey result "data" with
      | .obj data =>
          if equalsStr? (getKey data "session_id") (some sessionId) = false ∨
              equalsStr? (getKey data "actor_id") (some actorId) = false then
            .error (authorizationDeniedError toolName [])
      | _ => .error (authorizationDeniedError toolName [])

/-- The registered tool of a call, after the checks that need no identity. -/
def findTool (request : CallRequest) : Except ToolFailure RegisteredTool :=
  match registry.registered.find? fun tool =>
      tool.binding.toolName = request.toolName with
  | none => .error (toolNotFoundError request.toolName)
  | some tool => do
      validateInline P registry.catalog tool.binding.inputSchema
        (.obj request.arguments)
      requireCapabilities registry tool.descriptor
      return tool

/-- The checks of a call that carries an access token. -/
def admitToken (request : CallRequest) (inputs : CallInputs)
    (s : ServerState σ) (tool : RegisteredTool) (token : AccessToken) :
    Except ToolFailure Admission := do
  if registry.frontendSecurity = false then
    .error (authorizationDeniedError request.toolName [])
  let session ← resolveSession P.toPlatform token
  let _ ← authorizeTool P.toPlatform registry.adapter s.core session token
    tool.descriptor request.toolName request.arguments
  requireFrontendContext registry s.core request.toolName request.arguments
    session.actorId session.sessionId
  return {
    tool
    actorId := some session.actorId
    sessionId := some session.sessionId
    scope := session.budgetScope P.toPlatform
    confirmation :=
      if tool.descriptor.requiresConfirmation then
        confirmationFor session (caseText P.toPlatform request.arguments)
          request.toolName (requestFingerprint P.toPlatform request.arguments)
          (targetIds request.arguments) inputs.confirmationAt s.grants
      else request.confirmation }

/-- Everything before `begin_call`. -/
def admitCall (request : CallRequest) (inputs : CallInputs) (s : ServerState σ) :
    Except ToolFailure Admission := do
  let tool ← findTool P registry request
  match request.accessToken with
  | some token => admitToken P registry request inputs s tool token
  | none => return {
      tool
      actorId := request.trustedActorId
      sessionId := request.trustedSessionId
      scope := request.budgetScope
      confirmation := request.confirmation }

/-! ## The stages -/

/-- `begin_call`. -/
def beginCall (request : CallRequest) (inputs : CallInputs)
    (admission : Admission) : Service (ServerState σ) ToolFailure Unit :=
  fun s =>
    let (result, windows) := registry.budget.beginCall admission.scope
      request.toolName request.arguments inputs.begunAt s.windows
    (result, { s with windows })

/-- `ConfirmationProvider.authorize`, alone on the store at a time. -/
def ConfirmationProvider.authorize (provider : ConfirmationProvider)
    (confirmation : ConfirmationRequest) (now : Datetime)
    (store : GrantStore) : GrantStore × Bool :=
  match provider with
  | denyAll => (store, false)
  | grants =>
      match (Mcp.authorize confirmation).alone { store with now } with
      | (store, .ok authorized) => (store, authorized)
      | (store, .error _) => (store, false)

/-- The confirmation is the one that the call needs. -/
def ConfirmationRequest.Expected (confirmation : ConfirmationRequest)
    (request : CallRequest) (admission : Admission) : Prop :=
  confirmation.toolName = admission.tool.descriptor.toolName ∧
    confirmation.actorId = admission.actorId.getD "" ∧
    confirmation.sessionId = admission.sessionId.getD "" ∧
    confirmation.caseId = caseText P.toPlatform request.arguments ∧
    confirmation.requestFingerprint =
      Mcp.requestFingerprint P.toPlatform request.arguments ∧
    confirmation.targetIds = Mcp.targetIds request.arguments

instance (confirmation : ConfirmationRequest) (request : CallRequest)
    (admission : Admission) :
    Decidable (confirmation.Expected P request admission) :=
  inferInstanceAs (Decidable (_ ∧ _))

/-- The confirmation of a call, when its tool requires one. -/
def confirm (request : CallRequest) (inputs : CallInputs)
    (admission : Admission) :
    Service (ServerState σ) ToolFailure (Option ConfirmationRequest) :=
  fun s =>
    if admission.tool.descriptor.requiresConfirmation = false then
      (.ok none, s)
    else
      match admission.confirmation with
      | none => (.error (confirmationRequiredError
          admission.tool.descriptor.toolName), s)
      | some confirmation =>
          if admission.actorId.any fun actorId =>
              !isAuthenticatedActor P.toPlatform actorId then
            (.error (authenticatedActorRequiredError request.toolName), s)
          else if confirmation.Expected P request admission then
            let (grants, authorized) := registry.confirmations.authorize
              confirmation inputs.authorizedAt s.grants
            if authorized then (.ok (some confirmation), { s with grants })
            else (.error (confirmationRequiredError
              admission.tool.descriptor.toolName), { s with grants })
          else (.error (confirmationRequiredError
            admission.tool.descriptor.toolName), s)

/-- `ContextBridge.prepare` for a call. -/
def prepareCall (request : CallRequest) (admission : Admission)
    (granted : Option ConfirmationRequest) :
    Except ToolFailure (List (String × Json)) :=
  prepare P.toPlatform request.toolName request.arguments
    { actorId := admission.actorId
      sessionId := admission.sessionId
      confirmationGrantId := granted.map ConfirmationRequest.grantId
      confirmationFingerprint := granted.map fun _ =>
        requestFingerprint P.toPlatform request.arguments }

/-- A call that is about to reach the adapter. -/
structure Invocation where
  admission : Admission
  granted : Option ConfirmationRequest
  payload : List (String × Json)

def confirmCall (request : CallRequest) (inputs : CallInputs) :
    Service (ServerState σ) ToolFailure
      (Admission × Option ConfirmationRequest) := do
  let admission ← Service.read (admitCall P registry request inputs)
  beginCall registry request inputs admission
  let granted ← confirm P registry request inputs admission
  return (admission, granted)

/-- Everything before `adapter.invoke`. -/
def preflight (request : CallRequest) (inputs : CallInputs) :
    Service (ServerState σ) ToolFailure Invocation := do
  let (admission, granted) ← confirmCall P registry request inputs
  let payload ← Service.read fun _ => prepareCall P request admission granted
  return { admission, granted, payload }

/-! ## The Core -/

/-- `_require_live_context`. -/
def requireLiveContext (data : Json) (now : Datetime) :
    Except ToolFailure Unit :=
  match data with
  | .obj fields =>
      match getKey fields "expires_at" with
      | .str text =>
          match P.fromIsoformat text with
          | some expiration =>
              if expiration.utcMicros ≤ now.utcMicros then
                .error (.core (.apex
                  { code := "CONTEXT_EXPIRED"
                    messageKey := codeMessageKey "CONTEXT_EXPIRED"
                    developerMessage := some
                      "Expired GUI session contexts cannot be used by MCP."
                    target := some "session_context_id"
                    retryable := false
                    details := [] }))
              else .ok ()
          | none => .ok ()
      | _ => .ok ()
  | _ => .ok ()

/-- The live context of a context tool: what the Core answers about it ends
the call when it is not there, or when the tool only reads it. -/
def readContext (state : σ) (inputs : CallInputs)
    (operation : String) (payload : List (String × Json)) (ids : CallIds) :
    Except ToolFailure (Option (List (String × Json))) := do
  let result ← (registry.adapter.core.invokeRead state "apex.context.get"
    (contextPayload payload) ids).mapError .core
  if hasStatus result "OK" then
    requireLiveContext P (getKey result "data") inputs.invokedAt
    if operation = "apex.context.get" then return some result
    else return none
  else return some result

/-- The checks of `adapter.invoke`; a result ends the call without the
operation. -/
def checkInvocation (state : σ) (inputs : CallInputs) (operation : String)
    (payload : List (String × Json)) (ids : CallIds)
    (confirmationGranted : Bool) :
    Except ToolFailure
      (EngineToolDescriptor × Option (List (String × Json))) := do
  if registry.adapter.closed then
    .error closedError
  match registry.adapter.descriptors.find? operation with
  | none => .error (toolNotFoundError operation)
  | some descriptor => do
      if descriptor.requiresConfirmation ∧ confirmationGranted = false then
        .error (confirmationRequiredError operation)
      if operation ∈ contextTools then
        let early ← readContext P registry state inputs operation payload ids
        return (descriptor, early)
      else return (descriptor, none)

def invokeCore (mutates : Bool) (operation : String)
    (payload : List (String × Json)) (ids : CallIds)
    (confirmedBy : Option String) :
    Service (ServerState σ) ToolFailure (List (String × Json)) :=
  fun s =>
    let coreCalls := s.coreCalls ++ [⟨operation, confirmedBy⟩]
    if mutates then
      let (core, reply) :=
        registry.adapter.core.invokeMutation s.core operation payload ids
      (reply.mapError .core, { s with core, coreCalls })
    else
      ((registry.adapter.core.invokeRead s.core operation payload
        ids).mapError .core, { s with coreCalls })

/-- `adapter.invoke`. -/
def invoke (inputs : CallInputs) (invocation : Invocation) :
    Service (ServerState σ) ToolFailure (List (String × Json)) := do
  let operation := invocation.admission.tool.binding.operation
  let ids : CallIds := ⟨some inputs.requestId, some inputs.correlationId⟩
  let (descriptor, early) ← Service.read fun s =>
    checkInvocation P registry s.core inputs operation invocation.payload ids
      invocation.granted.isSome
  match early with
  | some result => return result
  | none =>
      invokeCore registry descriptor.mutatesState operation
        invocation.payload ids
        (invocation.granted.map ConfirmationRequest.grantId)

/-! ## After the Core -/

/-- `_validate_output`. -/
def validateOutput (tool : RegisteredTool) (result : List (String × Json)) :
    Except ToolFailure Unit :=
  if hasStatus result "OK" = false then .ok ()
  else
    let checked :=
      match tool.binding.outputSchemaRef, tool.binding.outputDataSchema with
      | some name, _ =>
          validateNamed P registry.catalog name (getKey result "data")
      | none, some schema =>
          validateInline P registry.catalog schema (getKey result "data")
      | none, none => .ok ()
    match checked with
    | .error (.mcp error) =>
        if error.code = "VALIDATION_ERROR" then
          .error (toolOutputValidationError
            "Core output does not match the MCP invocation output contract."
            error.target)
        else .error (.mcp error)
    | checked => checked

def readErrorCode (result : List (String × Json)) : Except ToolFailure Unit :=
  match getKey result "errors" with
  | .arr (.obj _ :: _) => .ok ()
  | .arr (_ :: _) => .error (builtinFailure .attributeError
      "object has no attribute 'get'")
  | .obj _ => .error (builtinFailure .keyError "0")
  | .str _ => .error (builtinFailure .attributeError
      "'str' object has no attribute 'get'")
  | _ => .error (builtinFailure .typeError "object is not subscriptable")

/-- `accept_result`. -/
def acceptResult (inputs : CallInputs) (invocation : Invocation)
    (result : List (String × Json)) :
    Service (ServerState σ) ToolFailure Unit :=
  fun s =>
    let (accepted, windows) := registry.budget.acceptResult
      invocation.admission.scope result
      invocation.admission.tool.descriptor.maxResultItems inputs.acceptedAt
      s.windows
    (accepted, { s with windows })

/-- Redaction, the schema checks and the budget, with whether the result is an
error. -/
def finish (inputs : CallInputs) (invocation : Invocation)
    (reply : List (String × Json)) :
    Service (ServerState σ) ToolFailure (List (String × Json) × Bool) := do
  let result := redactFields P.toPlatform reply
  Service.read fun _ =>
    validateNamed P registry.catalog "api-response.schema.json" (.obj result)
  Service.read fun _ =>
    validateOutput P registry invocation.admission.tool result
  acceptResult registry inputs invocation result
  let isError := hasStatus result "ERROR"
  if isError ∧ truthy (getKey result "errors") then
    Service.read fun _ => readErrorCode result
  return (result, isError)

/-- The `try` block of `call_tool`. -/
def callBody (request : CallRequest) (inputs : CallInputs) :
    Service (ServerState σ) ToolFailure (List (String × Json) × Bool) := do
  let invocation ← preflight P registry request inputs
  let reply ← invoke P registry inputs invocation
  finish P registry inputs invocation reply

/-- `call_tool`. -/
def callTool (request : CallRequest) (inputs : CallInputs)
    (s : ServerState σ) : CallOutcome × ServerState σ :=
  match callBody P registry request inputs s with
  | (.ok (result, isError), s') => (.returned result isError, s')
  | (.error failure, s') =>
      let result := mapException P.toPlatform failure inputs.requestId
        inputs.correlationId
      match validateNamed P registry.catalog "api-response.schema.json"
          (.obj result) with
      | .ok () => (.returned result true, s')
      | .error failure => (.raised failure, s')

end

end ApexForensic.Mcp
