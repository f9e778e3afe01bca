import ApexForensic.Mcp.Model
import ApexForensic.Support.Interleaving

/-!
# Confirmation grants

Grants are rows that an approval inserts and that `authorize` uses up.  What a
grant is for is compared with the request in one read; the use is a second,
conditional update.  The clock is part of the store, so that time can pass
between the two.
-/

namespace ApexForensic.Mcp

open ApexForensic.Support ApexForensic.Domain

structure ConfirmationRequest where
  grantId : String
  actorId : String
  sessionId : String
  caseId : String
  toolName : String
  requestFingerprint : String
  targetIds : List String
  deriving DecidableEq

/-- A row of `confirmation_grants`. -/
structure ConfirmationGrantRow where
  grantId : String
  actorId : String
  sessionId : String
  caseId : String
  toolName : String
  requestFingerprint : String
  targetIds : List String
  expiresAt : Datetime
  maxUses : ℕ
  usesCount : ℕ
  deriving DecidableEq

structure GrantStore where
  grants : Table ConfirmationGrantRow.grantId
  sessions : Table Auth.UserSession.sessionId
  now : Datetime

/-- A grant is issued, or used by a call that read the first time and
committed at the second. -/
inductive GrantEvent where
  | issued (grant : ConfirmationGrantRow)
  | used (request : ConfirmationRequest) (readAt usedAt : Datetime)
  deriving DecidableEq

/-- What a route answers when it does not succeed. -/
inductive RouteError where
  | http (statusCode : ℕ) (detail : String)
  | raised (error : PyError)

/-! ## Using a grant -/

def ConfirmationGrantRow.Matches (row : ConfirmationGrantRow)
    (request : ConfirmationRequest) : Prop :=
  row.actorId = request.actorId ∧ row.sessionId = request.sessionId ∧
    row.caseId = request.caseId ∧ row.toolName = request.toolName ∧
    row.requestFingerprint = request.requestFingerprint ∧
    row.targetIds = request.targetIds

instance (row : ConfirmationGrantRow) (request : ConfirmationRequest) :
    Decidable (row.Matches request) :=
  inferInstanceAs (Decidable (_ ∧ _))

/-- The checks of `authorize` on the row it read. -/
def ConfirmationGrantRow.accepts (row : ConfirmationGrantRow) (now : Datetime)
    (request : ConfirmationRequest) : Bool :=
  if row.expiresAt.utcMicros ≤ now.utcMicros then false
  else if row.maxUses ≤ row.usesCount then false
  else decide (row.Matches request)

theorem accepts_eq_true_iff {row : ConfirmationGrantRow} {now : Datetime}
    {request : ConfirmationRequest} :
    row.accepts now request = true ↔
      now.utcMicros < row.expiresAt.utcMicros ∧
        row.usesCount < row.maxUses ∧ row.Matches request := by
  rw [ConfirmationGrantRow.accepts]
  split_ifs with hexpired hused
  · simp only [false_iff, not_and]
    omega
  · simp only [false_iff, not_and]
    omega
  · simp only [decide_eq_true_eq]
    exact ⟨fun h => ⟨by omega, by omega, h⟩, fun h => h.2.2⟩

/-- The `WHERE` of the increment. -/
def ConfirmationGrantRow.usable (grantId : String)
    (row : ConfirmationGrantRow) : Bool :=
  row.grantId = grantId ∧ row.usesCount < row.maxUses

/-- `UPDATE confirmation_grants SET uses_count = uses_count + 1 WHERE ...`,
with its `rowcount`. -/
def GrantStore.use (request : ConfirmationRequest) (readAt : Datetime)
    (store : GrantStore) : ℕ × GrantStore × List GrantEvent :=
  let rowcount :=
    store.grants.rowcount (ConfirmationGrantRow.usable request.grantId)
  (rowcount,
    { store with
      grants :=
        store.grants.update (ConfirmationGrantRow.usable request.grantId)
          (fun row => { row with usesCount := row.usesCount + 1 })
          fun _ => rfl },
    if rowcount = 0 then [] else [.used request readAt store.now])

/-- `DbFrontendSecurityProvider.authorize`. -/
def authorize (request : ConfirmationRequest) :
    Script GrantStore GrantEvent RouteError Bool := do
  let now ← Script.read GrantStore.now
  let row ← Script.read fun store => store.grants.find? request.grantId
  match row with
  | none => return false
  | some row =>
      if row.accepts now request then do
        let rowcount ← Script.commit (GrantStore.use request now)
        return decide (0 < rowcount)
      else return false

/-! ## Issuing a grant -/

/-- The body of `POST /confirmations`. -/
structure ConfirmationBody where
  caseId : String
  toolName : String
  requestFingerprint : String
  targetIds : List String

def grantTtlSeconds : ℤ := 300

/-- The roles that may confirm a tool. -/
def confirmationRoles (toolName : String) : List String :=
  if toolName ∈ approvalTools then approvalRoles
  else if toolName ∈ exportTools then exportRoles
  else if toolName = "apex.view.raw_read" then rawReadRoles
  else humanMutationRoles

section

variable (P : Platform)

/-- The checks of `issue_confirmation` on the session of the token. -/
def checkGrantSession (token : AccessToken) (now : Datetime) :
    Option Auth.UserSession → Except RouteError Unit
  | none => .error (.http 401 "Session not found.")
  | some session => do
      if session.isActive = false then
        .error (.http 401 "Session revoked.")
      if session.expiresAt.utcMicros ≤ now.utcMicros then
        .error (.http 401 "Session expired.")
      if session.actorId ≠ token.actorId P then
        .error (.http 401 "Session actor mismatch.")
      if token.text P "tenant_id" ≠ "" ∧
          session.tenantId ≠ token.text P "tenant_id" then
        .error (.http 401 "Session tenant mismatch.")

def checkGrantCase (token : AccessToken) (body : ConfirmationBody) :
    Except RouteError Unit := do
  let allowed := getKey token.claims "allowed_case_ids"
  let caseAllowed ← (pyContains (if truthy allowed then allowed else .arr [])
    body.caseId).mapError .raised
  if caseAllowed = false then
    .error (.http 403 "case_id not in token's allowed_case_ids.")
  let role ← (caseRole P (orEmptyDict (getKey token.claims "case_roles"))
    body.caseId).mapError .raised
  if role ∉ confirmationRoles body.toolName then
    .error (.http 403
      "Insufficient role for this tool in the requested case.")

/-- The grant that an approval inserts. -/
def newGrant (token : AccessToken) (body : ConfirmationBody)
    (grantId : String) (now : Datetime) : ConfirmationGrantRow where
  grantId := grantId
  actorId := token.actorId P
  sessionId := token.text P "session_id"
  caseId := body.caseId
  toolName := body.toolName
  requestFingerprint := body.requestFingerprint
  targetIds := body.targetIds
  expiresAt :=
    { now with utcMicros := now.utcMicros + grantTtlSeconds * 1000000 }
  maxUses := 1
  usesCount := 0

/-- `INSERT INTO confirmation_grants`; false when the identifier is taken. -/
def GrantStore.insertGrant (grant : ConfirmationGrantRow)
    (store : GrantStore) : Bool × GrantStore × List GrantEvent :=
  match store.grants.insert grant with
  | some grants => (true, { store with grants }, [.issued grant])
  | none => (false, store, [])

/-- `issue_confirmation` with the token that the verifier returned. -/
def issueConfirmation (verified : Option AccessToken)
    (body : ConfirmationBody) (grantId : String) :
    Script GrantStore GrantEvent RouteError String :=
  match verified with
  | none => Script.raise (.http 401 "Invalid or expired access token.")
  | some token =>
      let sessionId := token.text P "session_id"
      if token.actorId P = "" ∨ sessionId = "" then
        Script.raise (.http 401 "Token missing required claims.")
      else do
        let session ← Script.read fun store => store.sessions.find? sessionId
        let now ← Script.read GrantStore.now
        match (do checkGrantSession P token now session
                  checkGrantCase P token body) with
        | .error e => Script.raise e
        | .ok () => do
            let now ← Script.read GrantStore.now
            let inserted ← Script.commit
              (GrantStore.insertGrant (newGrant P token body grantId now))
            if inserted then return grantId
            else Script.raise (.raised (.builtin .integrityError
              "UNIQUE constraint failed: confirmation_grants.grant_id"))

end

/-! ## The grants as a system -/

/-- Beside the requests on grants, time passes and sessions change. -/
inductive GrantRequest where
  | authorize (request : ConfirmationRequest)
  | issue (verified : Option AccessToken) (body : ConfirmationBody)
      (grantId : String)
  | clock (now : Datetime)
  | sessions (sessions : Table Auth.UserSession.sessionId)

inductive GrantReply where
  | decision (authorized : Bool)
  | issued (grantId : String)
  | done

def GrantRequest.script (P : Platform) :
    GrantRequest → Script GrantStore GrantEvent RouteError GrantReply
  | authorize request => .decision <$> Mcp.authorize request
  | issue verified body grantId =>
      .issued <$> issueConfirmation P verified body grantId
  | clock now =>
      (fun _ => .done) <$> Script.write fun store => ({ store with now }, [])
  | sessions table =>
      (fun _ => .done) <$>
        Script.write fun store => ({ store with sessions := table }, [])

/-- The grants after any interleaving of requests. -/
def grantsReached (P : Platform) (store : GrantStore) {ι : Type}
    [DecidableEq ι] (moves : List (Move ι GrantRequest)) :
    System GrantStore ι GrantEvent RouteError GrantReply GrantRequest :=
  System.reached (GrantRequest.script P) store moves

end ApexForensic.Mcp
