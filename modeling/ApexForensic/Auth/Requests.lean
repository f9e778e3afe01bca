import ApexForensic.Auth.Model
import ApexForensic.Support.Interleaving

/-!
# The requests of the authentication service

Each request is a script of transactions.  The rotation of a refresh token is
one conditional update; what it says about the session, its user and its
tenant is checked by later reads.  A transaction reports the identifiers it
issues, redeems and revokes.
-/

namespace ApexForensic.Auth

open ApexForensic.Support ApexForensic.Domain

inductive Event where
  | opened (sessionId jti : String)
  | rotated (sessionId jti newJti : String)
  | revoked (sessionId : String)
  deriving DecidableEq

/-! ## Transactions -/

/-- The `WHERE` of the rotation. -/
def UserSession.rotatable (sessionId jti : String) (s : UserSession) : Bool :=
  s.sessionId = sessionId ∧ s.currentRefreshJti = some jti ∧
    s.revokedAt = none

/-- `UPDATE user_sessions SET current_refresh_jti = ? WHERE ...`, with its
`rowcount`. -/
def Store.rotate (sessionId jti newJti : String) (store : Store) :
    ℕ × Store × List Event :=
  let rowcount := store.sessions.rowcount (UserSession.rotatable sessionId jti)
  (rowcount,
    { store with
      sessions :=
        store.sessions.update (UserSession.rotatable sessionId jti)
          (fun s => { s with currentRefreshJti := some newJti })
          fun _ => rfl },
    if rowcount = 0 then [] else [.rotated sessionId jti newJti])

/-- The flush of `revoked_at` on the named sessions. -/
def Store.revoke (sessionIds : List String) (now : Datetime) (store : Store) :
    Store × List Event :=
  ({ store with
     sessions :=
       store.sessions.update (fun s => s.sessionId ∈ sessionIds)
         (fun s => { s with revokedAt := some now }) fun _ => rfl },
    sessionIds.map .revoked)

/-- The flush of `is_active = False` on a user. -/
def Store.deactivate (actorId : String) (store : Store) : Store :=
  { store with
    users :=
      store.users.update (fun u => u.id = actorId)
        (fun u => { u with isActive := false }) fun _ => rfl }

def Store.tenanciesOf (store : Store) (actorId : String) :
    List CaseTenancy :=
  store.tenancies.filter fun t => t.actorId = actorId

/-! ## Requests -/

section

variable (P : Platform)

/-- Both tokens of a session. -/
def issueTokens (actorId sessionId tenantId refreshJti : String)
    (tenancies : List CaseTenancy) (inputs : CallInputs) : TokenPair :=
  let roles := (tenancies.map CaseTenancy.role).dedup
  { access :=
      { actorId, sessionId, tenantId
        allowedCaseIds := tenancies.map CaseTenancy.caseId
        roles
        scopes := sortedUnique (scopesForRoles P roles)
        caseRoles := tenancies.map fun t => (t.caseId, t.role)
        jti := inputs.accessJti
        issuedAt := inputs.issuedAt }
    refresh :=
      { actorId, sessionId, jti := refreshJti, issuedAt := inputs.issuedAt } }

/-- `login`. -/
def login (email password tenantId : String) (ttl : ℤ) (inputs : CallInputs) :
    Script Store Event AuthError TokenPair := do
  let user ← Script.read fun store => store.users.rows.find? fun u =>
    u.email = email ∧ u.tenantId = tenantId
  match user with
  | none => Script.raise .invalidCredentials
  | some user =>
      if P.verifyPassword password user.hashedPassword = false then
        Script.raise .invalidCredentials
      else if user.isActive = false then Script.raise .accountInactive
      else do
        let tenancies ← Script.read fun store => store.tenanciesOf user.id
        let session : UserSession :=
          { sessionId := inputs.newSessionId
            actorId := user.id
            tenantId
            createdAt := inputs.now
            expiresAt :=
              { inputs.now with
                utcMicros := inputs.now.utcMicros + ttl * 1000000 }
            revokedAt := none
            currentRefreshJti := some inputs.newJti }
        let inserted ← Script.commit fun store =>
          match store.sessions.insert session with
          | some sessions => (true, { store with sessions },
              [.opened session.sessionId inputs.newJti])
          | none => (false, store, [])
        if inserted then
          return issueTokens P user.id session.sessionId tenantId
            inputs.newJti tenancies inputs
        else Script.raise .integrityError

/-- `refresh` when the rotation matched no session. -/
def refuse (claims : RefreshClaims) (inputs : CallInputs) :
    Script Store Event AuthError TokenPair := do
  let session ← Script.read fun store =>
    store.sessions.find? claims.sessionId
  match session with
  | none => Script.raise .sessionRevoked
  | some session =>
      if session.isActive = false then Script.raise .sessionRevoked
      else if session.currentRefreshJti = none then
        Script.raise .reLoginRequired
      else do
        Script.write (Store.revoke [claims.sessionId] inputs.now)
        Script.raise .reuseDetected

/-- The checks of `refresh` on the session it rotated. -/
def checkSession (claims : RefreshClaims) (now : Datetime) :
    Option UserSession → Except AuthError UserSession
  | none => .error .sessionNotFound
  | some session =>
      if session.expiresAt.utcMicros ≤ now.utcMicros then
        .error .sessionExpired
      else if session.actorId ≠ claims.sub then .error .actorMismatch
      else .ok session

/-- The checks of `refresh` on the user of the session. -/
def checkUser (session : UserSession) :
    Option User → Except AuthError Unit
  | none => .error .accountInactiveOrDeleted
  | some user =>
      if user.isActive = false then .error .accountInactiveOrDeleted
      else if user.tenantId ≠ session.tenantId then .error .tenantMismatch
      else .ok ()

/-- `refresh` once the rotation has matched. -/
def issueRotated (claims : RefreshClaims) (inputs : CallInputs) :
    Script Store Event AuthError TokenPair := do
  let session ← Script.read fun store =>
    checkSession claims inputs.now (store.sessions.find? claims.sessionId)
  match session with
  | .error e => Script.raise e
  | .ok session => do
      let user ← Script.read fun store =>
        checkUser session (store.users.find? claims.sub)
      match user with
      | .error e => Script.raise e
      | .ok () => do
          let tenancies ← Script.read fun store =>
            store.tenanciesOf claims.sub
          return issueTokens P claims.sub claims.sessionId session.tenantId
            inputs.newJti tenancies inputs

/-- `refresh` of a decoded token. -/
def rotateToken (claims : RefreshClaims) (inputs : CallInputs) :
    Script Store Event AuthError TokenPair := do
  let rowcount ← Script.commit
    (Store.rotate claims.sessionId claims.jti inputs.newJti)
  if rowcount = 0 then refuse claims inputs
  else issueRotated P claims inputs

/-- `refresh`. -/
def refresh (refreshToken : String) (inputs : CallInputs) :
    Script Store Event AuthError TokenPair :=
  match decodeRefreshToken P refreshToken with
  | .error reason => Script.raise (.invalidRefreshToken reason)
  | .ok claims => rotateToken P claims inputs

/-- `deactivate_user`: the sessions it read as active are revoked together
with the update of the user. -/
def deactivateUser (actorId : String) (inputs : CallInputs) :
    Script Store Event AuthError Unit := do
  let active ← Script.read fun store =>
    (store.sessions.rows.filter fun s =>
      s.actorId = actorId && s.isActive).map UserSession.sessionId
  Script.write fun store =>
    (store.deactivate actorId).revoke active inputs.now

/-- `logout`. -/
def logout (sessionId : String) (inputs : CallInputs) :
    Script Store Event AuthError Unit := do
  let session ← Script.read fun store => store.sessions.find? sessionId
  match session with
  | none => return ()
  | some session =>
      if session.isActive = false then return ()
      else Script.write (Store.revoke [sessionId] inputs.now)

end

/-! ## The service as a system -/

inductive Request where
  | login (email password tenantId : String) (ttl : ℤ) (inputs : CallInputs)
  | refresh (refreshToken : String) (inputs : CallInputs)
  | deactivateUser (actorId : String) (inputs : CallInputs)
  | logout (sessionId : String) (inputs : CallInputs)

/-- The script of a request; only some return tokens. -/
def Request.script (P : Platform) :
    Request → Script Store Event AuthError (Option TokenPair)
  | login email password tenantId ttl inputs =>
      some <$> Auth.login P email password tenantId ttl inputs
  | refresh refreshToken inputs => some <$> Auth.refresh P refreshToken inputs
  | deactivateUser actorId inputs =>
      (fun _ => none) <$> Auth.deactivateUser actorId inputs
  | logout sessionId inputs => (fun _ => none) <$> Auth.logout sessionId inputs

/-- The service after any interleaving of requests. -/
def reached (P : Platform) (store : Store) {ι : Type} [DecidableEq ι]
    (moves : List (Move ι Request)) :
    System Store ι Event AuthError (Option TokenPair) Request :=
  System.reached (Request.script P) store moves

end ApexForensic.Auth
