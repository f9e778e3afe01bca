import ApexForensic.Domain.PyJson
import ApexForensic.Domain.Table
import ApexForensic.Domain.Time
import ApexForensic.Support.PyText

/-!
# Users, sessions and tokens

The tables of the authentication service, the claims of its tokens, and the
scopes that a role grants.
-/

namespace ApexForensic.Auth

open ApexForensic.Support ApexForensic.Domain

/-- What the service takes from other libraries: decoding and checking a
signed token, comparing a password with its hash, and `str.upper`. -/
structure Platform where
  jwtDecode : String → Except String (List (String × Json))
  verifyPassword : String → String → Bool
  upper : String → String

/-! ## Scopes -/

def baseScopes : List String := ["apex:mcp", "apex:read"]

/-- `_ROLE_SCOPES`. -/
def roleScopes : List (String × List String) :=
  [("VIEWER", baseScopes),
   ("ANALYST", baseScopes ++ ["apex:write", "apex:confirm"]),
   ("EXPORTER", baseScopes ++ ["apex:export"]),
   ("APPROVER", baseScopes ++
      ["apex:write", "apex:confirm", "apex:approve", "apex:export"]),
   ("ADMIN", baseScopes ++
      ["apex:write", "apex:confirm", "apex:approve", "apex:export",
        "apex:raw"])]

/-- `scopes_for_roles`, as a list of its members. -/
def scopesForRoles (P : Platform) (roles : List String) : List String :=
  roles.flatMap fun role => (roleScopes.lookup (P.upper role)).getD []

/-! ## Tables -/

structure User where
  id : String
  email : String
  hashedPassword : String
  tenantId : String
  isActive : Bool

structure CaseTenancy where
  actorId : String
  caseId : String
  role : String

structure UserSession where
  sessionId : String
  actorId : String
  tenantId : String
  createdAt : Datetime
  expiresAt : Datetime
  revokedAt : Option Datetime
  currentRefreshJti : Option String

/-- `UserSession.is_active`. -/
def UserSession.isActive (s : UserSession) : Bool :=
  s.revokedAt.isNone

structure Store where
  users : Table User.id
  tenancies : List CaseTenancy
  sessions : Table UserSession.sessionId

/-! ## Claims -/

structure RefreshClaims where
  sub : String
  sessionId : String
  jti : String

def claimText (claims : List (String × Json)) (field : String) :
    Except String String :=
  match Json.lookup field claims with
  | some (.str value) =>
      if strip value = "" then .error ("Invalid " ++ field ++ " claim.")
      else .ok value
  | _ => .error ("Invalid " ++ field ++ " claim.")

def checkIntClaim (claims : List (String × Json)) (field : String) :
    Except String Unit :=
  match Json.lookup field claims with
  | some (.int _) => .ok ()
  | _ => .error ("Invalid " ++ field ++ " claim.")

/-- `decode_refresh_token` with the claims its callers read: the checks of
`validate_token_claims` for a refresh token. -/
def decodeRefreshToken (P : Platform) (refreshToken : String) :
    Except String RefreshClaims := do
  let claims ← P.jwtDecode refreshToken
  match Json.lookup "token_type" claims with
  | some (.str "refresh") => do
      let sub ← claimText claims "sub"
      let sessionId ← claimText claims "session_id"
      let jti ← claimText claims "jti"
      checkIntClaim claims "iat"
      checkIntClaim claims "exp"
      return { sub, sessionId, jti }
  | _ => .error "Unexpected token type."

/-! ## Tokens -/

structure AccessToken where
  actorId : String
  sessionId : String
  tenantId : String
  allowedCaseIds : List String
  roles : List String
  scopes : List String
  caseRoles : List (String × String)
  jti : String
  issuedAt : Datetime

structure RefreshToken where
  actorId : String
  sessionId : String
  jti : String
  issuedAt : Datetime

structure TokenPair where
  access : AccessToken
  refresh : RefreshToken

inductive AuthError where
  | invalidCredentials
  | accountInactive
  | invalidRefreshToken (reason : String)
  | sessionRevoked
  | reLoginRequired
  | reuseDetected
  | sessionNotFound
  | sessionExpired
  | actorMismatch
  | accountInactiveOrDeleted
  | tenantMismatch
  | integrityError

/-- What the clock and `uuid4` return during one call. -/
structure CallInputs where
  now : Datetime
  newSessionId : String
  newJti : String
  accessJti : String
  issuedAt : Datetime

end ApexForensic.Auth
