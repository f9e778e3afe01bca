import Mathlib.Data.List.MinMax
import ApexForensic.Ai.Model

/-!
# Governing what may be sent to an AI

A case has revisions of a policy.  An assessment compares the metadata of a
representation with the latest one and is kept as an audit record.  The values
of the contracts are checked when they are built, so what is stored meets the
checks of its table.
-/

namespace ApexForensic.Ai

open ApexForensic.Support ApexForensic.Domain

/-! ## Enumerations -/

inductive DataClassification where
  | «public» | internal | sensitive | secret
  deriving DecidableEq

def DataClassification.value : DataClassification → String
  | .«public» => "PUBLIC"
  | .internal => "INTERNAL"
  | .sensitive => "SENSITIVE"
  | .secret => "SECRET"

/-- The members, as the enumeration lists them. -/
def DataClassification.all : List DataClassification :=
  [.«public», .internal, .sensitive, .secret]

inductive AiDestinationCategory where
  | locally | external
  deriving DecidableEq

inductive AiSecretHandling where
  | deny | redact | allow
  deriving DecidableEq

def AiSecretHandling.value : AiSecretHandling → String
  | .deny => "DENY"
  | .redact => "REDACT"
  | .allow => "ALLOW"

inductive AiDataForm where
  | raw | structured | redacted | safeProjection
  deriving DecidableEq

inductive AiDataSourceType where
  | artifact | contextSnapshot | aiAssistanceRequest
  deriving DecidableEq

inductive AiEgressDecision where
  | allow | deny | allowWithRedaction | allowProjectionOnly
  deriving DecidableEq

def AiEgressDecision.transformations : AiEgressDecision → List AiDataForm
  | .allow => []
  | .deny => []
  | .allowWithRedaction => [.redacted]
  | .allowProjectionOnly => [.safeProjection]

inductive AiEgressReason where
  | policyMissing | caseMismatch | aiDisabled | localOnly | externalDenied
  | classificationDenied | secretDenied | redactionIncomplete | rawDenied
  | projectionRequired | redactionRequired | policySatisfied
  deriving DecidableEq

/-! ## Identifiers and fingerprints -/

/-- `_uuid`: 32 hexadecimal digits in five groups, in either case. -/
def isUuid (s : String) : Bool :=
  s.toList.length = 36 &&
    s.toList.zipIdx.all fun (c, n) =>
      if n = 8 ∨ n = 13 ∨ n = 18 ∨ n = 23 then c = '-' else isHexDigit c

/-- `_digest`: 64 lower-case hexadecimal digits. -/
def isDigest (s : String) : Bool :=
  s.toList.length = 64 &&
    s.toList.all fun c => c.isDigit || ('a' ≤ c && c ≤ 'f')

def uuidError (target : String) : PyError :=
  validationError "Expected a UUID identifier." (some target) []

def digestError (target : String) : PyError :=
  validationError "Expected a SHA-256 fingerprint." (some target) []

def schemaVersion : String := "1.0.0"

/-! ## Policies -/

structure CaseAiPolicy where
  policyId : String
  caseId : String
  revision : ℕ
  createdAt : String
  aiEnabled : Bool
  externalAllowed : Bool
  localOnly : Bool
  allowedClassifications : List DataClassification
  secretHandling : AiSecretHandling
  rawAllowed : Bool
  redactionRequired : Bool
  projectionRequired : Bool
  policyId_uuid : isUuid policyId = true
  caseId_uuid : isUuid caseId = true
  revision_pos : 0 < revision
  classifications_ordered :
    allowedClassifications.Sublist DataClassification.all

/-- What the caller of `configure` decides, with its defaults. -/
structure PolicySettings where
  aiEnabled : Bool := false
  externalAllowed : Bool := false
  localOnly : Bool := true
  allowedClassifications : List DataClassification := [.«public», .internal]
  secretHandling : AiSecretHandling := .deny
  rawAllowed : Bool := false
  redactionRequired : Bool := true
  projectionRequired : Bool := true

/-- `CaseAiPolicy(...)`. -/
def CaseAiPolicy.make (policyId caseId : String) (revision : ℕ)
    (createdAt : String) (settings : PolicySettings) :
    Except PyError CaseAiPolicy :=
  if hpolicy : isUuid policyId = true then
    if hcase : isUuid caseId = true then
      if hrevision : 0 < revision then
        if settings.allowedClassifications.Nodup then
          .ok
            { policyId := policyId
              caseId := caseId
              revision := revision
              createdAt := createdAt
              aiEnabled := settings.aiEnabled
              externalAllowed := settings.externalAllowed
              localOnly := settings.localOnly
              allowedClassifications := DataClassification.all.filter
                fun item => item ∈ settings.allowedClassifications
              secretHandling := settings.secretHandling
              rawAllowed := settings.rawAllowed
              redactionRequired := settings.redactionRequired
              projectionRequired := settings.projectionRequired
              policyId_uuid := hpolicy
              caseId_uuid := hcase
              revision_pos := hrevision
              classifications_ordered := List.filter_sublist }
        else .error (validationError "Duplicate classification."
          (some "allowed_classifications") [])
      else .error (validationError "Expected a positive integer."
        (some "revision") [])
    else .error (uuidError "case_id")
  else .error (uuidError "policy_id")

theorem CaseAiPolicy.make_eq_ok {policyId caseId createdAt : String}
    {revision : ℕ} {settings : PolicySettings} {policy : CaseAiPolicy}
    (h : CaseAiPolicy.make policyId caseId revision createdAt settings =
      .ok policy) :
    policy.caseId = caseId ∧ policy.revision = revision := by
  rw [CaseAiPolicy.make] at h
  split at h
  · split at h
    · split at h
      · split at h
        · obtain rfl := Except.ok.inj h
          exact ⟨rfl, rfl⟩
        · cases h
      · cases h
    · cases h
  · cases h

def CaseAiPolicy.toSchemaDict (policy : CaseAiPolicy) : Json :=
  .obj
    [("schema_version", .str schemaVersion),
     ("policy_id", .str policy.policyId),
     ("case_id", .str policy.caseId),
     ("revision", .int policy.revision),
     ("created_at", .str policy.createdAt),
     ("ai_enabled", .bool policy.aiEnabled),
     ("external_allowed", .bool policy.externalAllowed),
     ("local_only", .bool policy.localOnly),
     ("allowed_classifications",
       .arr (policy.allowedClassifications.map fun c => .str c.value)),
     ("secret_handling", .str policy.secretHandling.value),
     ("raw_allowed", .bool policy.rawAllowed),
     ("redaction_required", .bool policy.redactionRequired),
     ("projection_required", .bool policy.projectionRequired)]

/-! ## What is assessed -/

/-- A reference to a stored record. -/
structure AiDataReference where
  caseId : String
  sourceId : String
  sourceType : AiDataSourceType
  sourceFingerprint : String
  deriving DecidableEq

/-- The metadata of a representation.  What contains secrets is secret, and
what was derived has a fingerprint. -/
structure AiEgressData where
  source : AiDataReference
  classification : DataClassification
  containsSecrets : Bool
  dataForm : AiDataForm
  contentFingerprint : Option String
  secret_of_secrets :
    containsSecrets = true → classification = .secret
  fingerprint_of_derived : dataForm ≠ .raw → contentFingerprint ≠ none

def AiEgressData.redactionApplied (data : AiEgressData) : Bool :=
  data.dataForm = .redacted || data.dataForm = .safeProjection

def AiEgressData.projectionApplied (data : AiEgressData) : Bool :=
  data.dataForm = .safeProjection

/-- `replace(data, classification=SECRET, contains_secrets=...)`. -/
def AiEgressData.asSecret (data : AiEgressData) : AiEgressData :=
  { data with
    classification := .secret
    containsSecrets := data.containsSecrets || !data.redactionApplied
    secret_of_secrets := fun _ => rfl }

/-- A stored record that may be sent: an artifact, a context snapshot or an
AI request, with its schema dictionary. -/
structure AiProjectionSource where
  sourceType : AiDataSourceType
  sourceId : String
  caseId : String
  artifactType : Option String
  schemaDict : Json

/-! ## Secret fields -/

def sensitiveFieldNames : List String :=
  ["api_key", "apikey", "authorization", "cookie", "db_iv_hex", "db_key_hex",
   "key", "masterkey_hex", "nt_hash_hex", "password", "plaintext",
   "plaintext_b64", "pragma_key", "secret", "token", "user_nonce"]

def safeIndicatorFieldNames : List String :=
  ["key_material_status", "password_plaintext_emitted",
   "password_value_present", "primary_password_emitted",
   "primary_password_required", "primary_password_supplied",
   "raw_key_material_emitted", "secret_fields_emitted",
   "secret_value_emitted", "secret_values_emitted"]

def sensitiveKeyMarkers : List String :=
  ["api_key", "apikey", "authorization", "cookie_value", "key_material",
   "key_value", "password", "private_key", "raw_key", "secret_material",
   "secret_value", "token"]

def isSensitiveFieldName (lowered : String) : Bool :=
  !safeIndicatorFieldNames.contains lowered &&
    (sensitiveFieldNames.contains lowered ||
      sensitiveKeyMarkers.any fun marker => containsText marker lowered)

variable (P : Platform)

mutual

def redactValue : Json → Json
  | .obj fields => .obj (redactMapping fields)
  | .arr items => .arr (redactList items)
  | value => value

def redactList : List Json → List Json
  | [] => []
  | item :: items => redactValue item :: redactList items

def redactMapping : List (String × Json) → List (String × Json)
  | [] => []
  | (key, item) :: fields =>
      (key,
        if isSensitiveFieldName (P.casefold key) then .str "<redacted>"
        else redactValue item) :: redactMapping fields

end

/-- `redact_secret_fields`, of a schema dictionary. -/
def redactSecretFields (value : Json) : Json :=
  redactValue P value

/-- `source_has_secret_fields`. -/
def sourceHasSecretFields (source : AiProjectionSource) : Bool :=
  (source.sourceType = .artifact &&
    (source.artifactType = some "BROWSER_COOKIE" ||
      source.artifactType = some "BROWSER_CREDENTIAL")) ||
    canonicalSha256 P.sha256 source.schemaDict [] ≠
      canonicalSha256 P.sha256 (redactSecretFields P source.schemaDict) []

/-- `ai_data_reference`: identifiers and digest are checked. -/
def aiDataReference (source : AiProjectionSource) :
    Except PyError AiDataReference := do
  let fingerprint := canonicalSha256 P.sha256 source.schemaDict []
  if isUuid source.caseId = false then .error (uuidError "case_id")
  if isUuid source.sourceId = false then .error (uuidError "source_id")
  if isDigest fingerprint = false then
    .error (digestError "source_fingerprint")
  .ok ⟨source.caseId, source.sourceId, source.sourceType, fingerprint⟩

/-! ## The assessment -/

def CaseAiPolicy.contentFingerprint (policy : CaseAiPolicy) : String :=
  canonicalSha256 P.sha256 policy.toSchemaDict []

/-- A decision on one representation, with the policy it was made under. -/
structure AiEgressResult where
  data : AiEgressData
  destination : AiDestinationCategory
  decision : AiEgressDecision
  reasonCodes : List AiEgressReason
  requiredTransformations : List AiDataForm
  policyId : Option String
  policyRevision : Option ℕ
  policyFingerprint : Option String
  reasons_ne_nil : reasonCodes ≠ []
  reasons_nodup : reasonCodes.Nodup
  transformations_eq : requiredTransformations = decision.transformations
  satisfied_of_allow : decision = .allow → reasonCodes = [.policySatisfied]
  deny_of_missing : policyId = none →
    decision = .deny ∧ policyRevision = none ∧ policyFingerprint = none
  named_of_policy : policyId ≠ none →
    policyRevision ≠ none ∧ policyFingerprint ≠ none

/-- The reasons that hold, in the order of the list. -/
def holding (reasons : List (Bool × AiEgressReason)) : List AiEgressReason :=
  (reasons.filter Prod.fst).map Prod.snd

section Assessment

variable (policy : CaseAiPolicy) (data : AiEgressData)
  (destination : AiDestinationCategory)

def needsProjection : Bool :=
  policy.projectionRequired && !data.projectionApplied

def deniesRaw : Bool :=
  data.dataForm = .raw && !policy.rawAllowed

def needsRedaction : Bool :=
  !data.redactionApplied && (policy.redactionRequired ||
    (data.containsSecrets && policy.secretHandling = .redact))

/-- Why nothing may be sent.  A raw representation that can be projected
instead is not denied for being raw. -/
def deniedReasons : List AiEgressReason :=
  holding
    [(policy.caseId ≠ data.source.caseId, .caseMismatch),
     (!policy.aiEnabled, .aiDisabled),
     (destination = .external && policy.localOnly, .localOnly),
     (destination = .external && !policy.externalAllowed, .externalDenied),
     (!policy.allowedClassifications.contains data.classification,
       .classificationDenied),
     (data.containsSecrets && policy.secretHandling = .deny, .secretDenied),
     (data.containsSecrets && data.redactionApplied, .redactionIncomplete),
     (deniesRaw policy data && !needsProjection policy data, .rawDenied)]

/-- Why the representation has to be transformed. -/
def requiredReasons : List AiEgressReason :=
  holding
    [(needsProjection policy data, .projectionRequired),
     (deniesRaw policy data && needsProjection policy data, .rawDenied),
     (needsRedaction policy data, .redactionRequired)]

def egressDecision : AiEgressDecision :=
  if deniedReasons policy data destination ≠ [] then .deny
  else if needsProjection policy data then .allowProjectionOnly
  else if needsRedaction policy data then .allowWithRedaction
  else .allow

def egressReasons : List AiEgressReason :=
  if deniedReasons policy data destination ≠ [] then
    deniedReasons policy data destination
  else if needsProjection policy data ∨ needsRedaction policy data then
    requiredReasons policy data
  else [.policySatisfied]

theorem holding_sublist (reasons : List (Bool × AiEgressReason)) :
    (holding reasons).Sublist (reasons.map Prod.snd) :=
  (List.filter_sublist).map Prod.snd

theorem egressReasons_nodup : (egressReasons policy data destination).Nodup := by
  rw [egressReasons]
  split
  · exact (holding_sublist _).nodup (by simp)
  · split
    · exact (holding_sublist _).nodup (by simp)
    · exact List.nodup_singleton _

theorem egressReasons_ne_nil : egressReasons policy data destination ≠ [] := by
  rw [egressReasons]
  split
  · assumption
  · split
    · rename_i h
      rcases h with h | h
      · simp [requiredReasons, holding, h]
      · simp only [requiredReasons, holding, h]
        cases needsProjection policy data <;> cases deniesRaw policy data <;>
          decide
    · exact List.cons_ne_nil _ _

theorem egressReasons_of_allow
    (h : egressDecision policy data destination = .allow) :
    egressReasons policy data destination = [.policySatisfied] := by
  rw [egressDecision] at h
  rw [egressReasons]
  split at h
  · cases h
  · split at h
    · cases h
    · split at h
      · cases h
      · simp_all

end Assessment

/-- `evaluate_ai_egress`. -/
def evaluateAiEgress (policy : Option CaseAiPolicy) (data : AiEgressData)
    (destination : AiDestinationCategory) : Except PyError AiEgressResult :=
  match policy with
  | none => .ok
      { data := data
        destination := destination
        decision := .deny
        reasonCodes := [.policyMissing]
        requiredTransformations := []
        policyId := none
        policyRevision := none
        policyFingerprint := none
        reasons_ne_nil := List.cons_ne_nil _ _
        reasons_nodup := List.nodup_singleton _
        transformations_eq := rfl
        satisfied_of_allow := nofun
        deny_of_missing := fun _ => ⟨rfl, rfl, rfl⟩
        named_of_policy := fun h => absurd rfl h }
  | some policy =>
      if isDigest (policy.contentFingerprint P) = false then
        .error (digestError "policy_fingerprint")
      else .ok
        { data := data
          destination := destination
          decision := egressDecision policy data destination
          reasonCodes := egressReasons policy data destination
          requiredTransformations :=
            (egressDecision policy data destination).transformations
          policyId := some policy.policyId
          policyRevision := some policy.revision
          policyFingerprint := some (policy.contentFingerprint P)
          reasons_ne_nil := egressReasons_ne_nil policy data destination
          reasons_nodup := egressReasons_nodup policy data destination
          transformations_eq := rfl
          satisfied_of_allow := egressReasons_of_allow policy data destination
          deny_of_missing := nofun
          named_of_policy := fun _ => ⟨nofun, nofun⟩ }

/-- An assessment that was kept. -/
structure AiEgressAuditRecord where
  auditId : String
  result : AiEgressResult
  createdAt : String
  auditId_uuid : isUuid auditId = true

/-- `AiEgressAuditRecord(...)`. -/
def AiEgressAuditRecord.make (auditId : String) (result : AiEgressResult)
    (createdAt : String) : Except PyError AiEgressAuditRecord :=
  if h : isUuid auditId = true then .ok ⟨auditId, result, createdAt, h⟩
  else .error (uuidError "audit_id")

end ApexForensic.Ai
