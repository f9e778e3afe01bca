import ApexForensic.Auth.Model
import ApexForensic.Domain.Canonical

/-!
# Sessions, tokens and tool descriptors

What the tool server knows of a caller and of a tool, the errors that it
raises itself, and the values it reads from the claims of an access token.
-/

namespace ApexForensic.Mcp

open ApexForensic.Support ApexForensic.Domain

/-- Beside what the authentication service takes from elsewhere: the digest,
the Unicode tables, and `str` of a value that is not a string. -/
structure Platform extends toAuth : Auth.Platform where
  sha256 : ByteArray → String
  casefold : String → String
  isWord : Char → Bool
  str : Json → String

/-- A platform for ASCII texts, with tokens that carry nothing. -/
def asciiPlatform : Platform where
  jwtDecode _ := .ok []
  verifyPassword _ _ := true
  upper s := String.ofList (s.toList.map Char.toUpper)
  sha256 _ := "digest"
  casefold s := String.ofList (s.toList.map Char.toLower)
  isWord c := c.isAlphanum || c == '_'
  str _ := ""

/-- `str(value)`. -/
def pyStr (P : Platform) : Json → String
  | .str s => s
  | value => P.str value

/-! ## Errors -/

structure McpFoundationError where
  code : String
  developerMessage : String
  target : Option String
  retryable : Bool
  details : List (String × Json)

/-- What a tool call can raise. -/
inductive ToolFailure where
  | mcp (error : McpFoundationError)
  | core (error : PyError)

def mcpError (code developerMessage : String) (target : Option String)
    (details : List (String × Json)) : ToolFailure :=
  .mcp { code, developerMessage, target, retryable := false, details }

def capabilityGateError (missing : List String) : ToolFailure :=
  mcpError "CAPABILITY_UNAVAILABLE"
    "The tool requires unavailable capabilities."
    (some "required_capabilities")
    [("missing_capabilities", .arr ((sortedUnique missing).map .str))]

def confirmationRequiredError (toolName : String) : ToolFailure :=
  mcpError "HUMAN_CONFIRMATION_REQUIRED"
    "A server-verified human confirmation is required."
    (some "confirmation") [("tool_name", .str toolName)]

def authenticatedActorRequiredError (toolName : String) : ToolFailure :=
  mcpError "MCP_AUTHENTICATED_ACTOR_REQUIRED"
    "A trusted authenticated actor is required for this human action."
    (some "actor_id") [("tool_name", .str toolName)]

def authorizationDeniedError (toolName : String) (required : List String) :
    ToolFailure :=
  mcpError "MCP_AUTHORIZATION_DENIED"
    "The authenticated frontend session is not authorized for this tool."
    (some "authorization")
    [("tool_name", .str toolName), ("required", .arr (required.map .str))]

def tenantScopeViolationError (toolName : String) : ToolFailure :=
  mcpError "MCP_TENANT_SCOPE_VIOLATION"
    "The requested case is outside the authenticated frontend session scope."
    (some "case_id") [("tool_name", .str toolName)]

def toolInputValidationError (message : String) (target : Option String) :
    ToolFailure :=
  mcpError "VALIDATION_ERROR" message target []

def toolOutputValidationError (message : String) (target : Option String) :
    ToolFailure :=
  mcpError "MCP_OUTPUT_VALIDATION_FAILED" message target []

def toolBudgetExceededError (limit : String) : ToolFailure :=
  mcpError "MCP_BUDGET_EXCEEDED" "The MCP safety budget was exceeded."
    (some limit) [("limit", .str limit)]

def paginationLoopError : ToolFailure :=
  mcpError "MCP_PAGINATION_LOOP"
    "The same opaque pagination cursor was reused in one budget window."
    (some "cursor") []

def toolNotFoundError (toolName : String) : ToolFailure :=
  mcpError "TOOL_NOT_FOUND" "The requested tool is not registered."
    (some "tool_name") [("tool_name", .str toolName)]

def descriptorValidationError (message : String) (target : Option String) :
    ToolFailure :=
  mcpError "DESCRIPTOR_VALIDATION_FAILED" message target []

/-- An exception that is neither the Core's nor the server's own. -/
def builtinFailure (kind : BuiltinError) (message : String) : ToolFailure :=
  .core (.builtin kind message)

/-! ## Tools -/

/-- The fields of a descriptor that the server reads. -/
structure EngineToolDescriptor where
  toolName : String
  requiredCapabilities : List String
  mutatesState : Bool
  requiresConfirmation : Bool
  maxResultItems : ℕ

/-! ## Callers -/

/-- An access token as its verifier returns it; absent claims are empty. -/
structure AccessToken where
  subject : Option String
  scopes : List String
  claims : List (String × Json)

/-- `str(claims.get("sub") or access_token.subject or "").strip()`. -/
def AccessToken.actorId (P : Platform) (token : AccessToken) : String :=
  let sub := getKey token.claims "sub"
  strip (if truthy sub then pyStr P sub else token.subject.getD "")

/-- `str(claims.get(field, "")).strip()`. -/
def AccessToken.text (P : Platform) (token : AccessToken) (field : String) :
    String :=
  strip (pyStr P (getDefault token.claims field (.str "")))

/-- `role.strip().upper()`. -/
def normalizedRole (P : Platform) (role : String) : String :=
  P.upper (strip role)

/-- `(claims.get("case_roles") or {}).get(case_id, "").strip().upper()`. -/
def caseRole (P : Platform) (caseRoles : Json) (caseId : String) :
    Except PyError String :=
  match caseRoles with
  | .obj fields =>
      match getDefault fields caseId (.str "") with
      | .str role => .ok (normalizedRole P role)
      | _ => .error (.builtin .attributeError
          "object has no attribute 'strip'")
  | _ => .error (.builtin .attributeError "object has no attribute 'get'")

/-- `value or {}`. -/
def orEmptyDict (value : Json) : Json :=
  if truthy value then value else .obj []

/-- `text in value`. -/
def pyContains (value : Json) (text : String) : Except PyError Bool :=
  match value with
  | .arr items => .ok (items.any fun item => equalsStr? item (some text))
  | .obj fields => .ok (Json.lookup text fields).isSome
  | .str s => .ok (containsText text s)
  | _ => .error (.builtin .typeError "argument is not iterable")

/-! ## Roles -/

def approvalTools : List String :=
  ["report.approve", "report.reject", "report.approval.revoke"]

def exportTools : List String :=
  ["report.render-package.create", "report.export.prepare"]

def humanMutationRoles : List String := ["ADMIN", "ANALYST", "APPROVER"]
def approvalRoles : List String := ["ADMIN", "APPROVER"]
def exportRoles : List String := ["ADMIN", "APPROVER", "EXPORTER"]
def rawReadRoles : List String := ["ADMIN", "ANALYST", "APPROVER"]
def allRoles : List String :=
  ["VIEWER", "ANALYST", "APPROVER", "EXPORTER", "ADMIN"]

end ApexForensic.Mcp
