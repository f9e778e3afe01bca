import ApexForensic.Mcp.Confirmation
import ApexForensic.Mcp.Gate

/-!
# Payloads

What the server does to the arguments of a call before the Core sees them, to
the result before the client sees it, and to an exception.
-/

namespace ApexForensic.Mcp

open ApexForensic.Support ApexForensic.Domain

/-! ## Keys that may not pass -/

/-- The alternatives of `_FORBIDDEN_KEY` and `_SENSITIVE_KEY`: words with an
optional `-` or `_` between them. -/
def sensitiveWords : List (List String) :=
  [["api", "key"], ["authorization"], ["credential"], ["password"],
   ["secret"], ["access", "token"], ["refresh", "token"], ["prompt"],
   ["chain", "of", "thought"], ["reasoning", "trace"], ["raw", "response"],
   ["raw", "body"], ["raw", "blob"], ["attachment", "bytes"], ["base64"]]

/-- `[-_]?`; a word never starts with one of the two. -/
def skipSeparator : List Char → List Char
  | '-' :: cs => cs
  | '_' :: cs => cs
  | cs => cs

/-- The words stand at the start of a text. -/
def startsWithWords : List String → List Char → Bool
  | [], _ => true
  | word :: words, cs =>
      (afterWord word.toList cs).any fun rest =>
        words.isEmpty || startsWithWords words (skipSeparator rest)

def isSensitiveKey (key : String) : Bool :=
  searchText (fun cs => sensitiveWords.any fun words =>
    startsWithWords words cs) key

mutual

/-- `_reject_forbidden_values`. -/
def rejectForbiddenValues : Json → Except ToolFailure Unit
  | .obj fields => rejectForbiddenFields fields
  | .arr items => rejectForbiddenItems items
  | _ => .ok ()

def rejectForbiddenItems : List Json → Except ToolFailure Unit
  | [] => .ok ()
  | item :: items => do
      rejectForbiddenValues item
      rejectForbiddenItems items

def rejectForbiddenFields : List (String × Json) → Except ToolFailure Unit
  | [] => .ok ()
  | (key, item) :: fields => do
      if isSensitiveKey key then
        .error (toolInputValidationError
          "MCP arguments cannot contain secrets, prompts, or raw blobs."
          (some key))
      rejectForbiddenValues item
      rejectForbiddenFields fields

end

/-! ## Preparing the arguments -/

def maxArgumentBytes : ℕ := 64 * 1024
def maxArgumentDepth : ℕ := 8

/-- `_TRUSTED_ACTOR_FIELDS`. -/
def trustedActorFields : List (String × String) :=
  [("ai.keyword-recommendation.review", "actor_id"),
   ("ai.scope-summary.review", "actor_id"),
   ("ai.keyword-recommendation.promote", "actor_id"),
   ("report.create", "created_by"),
   ("report.version.create", "created_by"),
   ("report.review.submit", "actor_id"),
   ("report.review.comment", "actor_id"),
   ("report.review.request-changes", "actor_id"),
   ("report.review.accept-section", "actor_id"),
   ("report.review.reject-section", "actor_id"),
   ("report.review.complete", "actor_id"),
   ("report.review.reopen", "actor_id"),
   ("report.approve", "approver_id"),
   ("report.reject", "approver_id"),
   ("report.approval.revoke", "actor_id"),
   ("report.custody-snapshot.create", "captured_by"),
   ("report.render-package.create", "created_by"),
   ("report.export.prepare", "created_by"),
   ("report.archive", "actor_id")]

/-- `_AUTHENTICATED_HUMAN_TOOLS`. -/
def authenticatedHumanTools : List String :=
  trustedActorFields.map Prod.fst ++
    ["apex.view.raw_read", "ai.promotion.preview"]

/-- The number of bytes of a payload as it is sent. -/
def payloadBytes (payload : List (String × Json)) : ℕ :=
  (canonicalJsonBytes (.obj payload) []).size

/-- `ContextBridge._validate_budget`. -/
def validatePayloadBudget (payload : List (String × Json)) :
    Except ToolFailure Unit := do
  if maxArgumentDepth < depth 0 (.obj payload) then
    .error (toolInputValidationError
      "MCP arguments exceed the maximum JSON depth." (some "arguments"))
  if maxArgumentBytes < payloadBytes payload then
    .error (toolInputValidationError
      "MCP arguments exceed the maximum serialized size." (some "arguments"))

/-- Who is known to make a call, and what confirmed it. -/
structure TrustedContext where
  actorId : Option String
  sessionId : Option String
  confirmationGrantId : Option String
  confirmationFingerprint : Option String

/-- A JSON string or null. -/
def optionalText (value : Option String) : Json :=
  value.elim .null .str

/-- The payload with the fields that the server sets itself. -/
def trustedPayload (toolName : String) (arguments : List (String × Json))
    (trusted : TrustedContext) : List (String × Json) :=
  let payload :=
    if toolName = "apex.context.snapshot" then
      setItem "purpose" (.str "MCP_REQUEST") arguments
    else arguments
  let payload :=
    match trustedActorFields.lookup toolName with
    | some field => setItem field (.str (trusted.actorId.getD "")) payload
    | none => payload
  let payload :=
    if toolName = "report.ai-draft.ingest" then
      setItem "created_by" (.str "mcp-ai-layer") payload
    else payload
  if toolName = "ai.keyword-recommendation.promote" then
    setItem "confirmation_metadata" (.obj
      [("grant_id", optionalText trusted.confirmationGrantId),
       ("actor_id", optionalText trusted.actorId),
       ("session_id", optionalText trusted.sessionId),
       ("request_fingerprint",
          optionalText trusted.confirmationFingerprint)]) payload
  else payload

section

variable (P : Platform)

/-- `ContextBridge.prepare`. -/
def prepare (toolName : String) (arguments : List (String × Json))
    (trusted : TrustedContext) :
    Except ToolFailure (List (String × Json)) := do
  rejectForbiddenValues (.obj arguments)
  if toolName ∈ authenticatedHumanTools ∧
      isAuthenticatedActor P (trusted.actorId.getD "") = false then
    .error (authenticatedActorRequiredError toolName)
  let payload := trustedPayload toolName arguments trusted
  validatePayloadBudget payload
  return payload

/-- What a payload that was prepared has passed. -/
structure Prepared (toolName : String) (arguments : List (String × Json))
    (trusted : TrustedContext) (payload : List (String × Json)) : Prop where
  permitted : rejectForbiddenValues (.obj arguments) = .ok ()
  authenticated : toolName ∈ authenticatedHumanTools →
    isAuthenticatedActor P (trusted.actorId.getD "") = true
  eq : trustedPayload toolName arguments trusted = payload
  depth_le : depth 0 (.obj payload) ≤ maxArgumentDepth
  bytes_le : payloadBytes payload ≤ maxArgumentBytes

theorem validatePayloadBudget_eq_ok_iff {payload : List (String × Json)} :
    validatePayloadBudget payload = .ok () ↔
      depth 0 (.obj payload) ≤ maxArgumentDepth ∧
        payloadBytes payload ≤ maxArgumentBytes := by
  rw [validatePayloadBudget, check_eq_ok_iff, not_lt]
  refine and_congr_right fun _ => ?_
  split
  · exact iff_of_false nofun (by omega)
  · exact iff_of_true rfl (by omega)

theorem prepare_eq_ok_iff {toolName : String}
    {arguments : List (String × Json)} {trusted : TrustedContext}
    {payload : List (String × Json)} :
    prepare P toolName arguments trusted = .ok payload ↔
      Prepared P toolName arguments trusted payload := by
  simp only [prepare, bind_eq_ok_iff, check_eq_ok_iff]
  constructor
  · rintro ⟨_, hpermitted, hactor, _, hbudget, hpayload⟩
    obtain rfl := Except.ok.inj hpayload
    obtain ⟨hdepth, hbytes⟩ := validatePayloadBudget_eq_ok_iff.mp hbudget
    exact ⟨hpermitted, fun htool => by simpa [htool] using hactor, rfl,
      hdepth, hbytes⟩
  · rintro ⟨hpermitted, hactor, rfl, hdepth, hbytes⟩
    refine ⟨(), hpermitted, ?_, (),
      validatePayloadBudget_eq_ok_iff.mpr ⟨hdepth, hbytes⟩, rfl⟩
    rintro ⟨htool, hfalse⟩
    rw [hactor htool] at hfalse
    cases hfalse

/-! ## Redaction -/

def redactedText : String := "<redacted>"

/-- The text with every match replaced; a match is given by its length, which
is positive, and depends on the character before it. -/
def replaceMatches (found : Option Char → List Char → Option ℕ) :
    ℕ → Option Char → List Char → List Char
  | _, _, [] => []
  | skip + 1, _, c :: cs => replaceMatches found skip (some c) cs
  | 0, previous, c :: cs =>
      match found previous (c :: cs) with
      | some (length + 1) =>
          redactedText.toList ++ replaceMatches found length (some c) cs
      | _ => c :: replaceMatches found 0 (some c) cs

/-- `\b` between two characters. -/
def isWordBoundary (a b : Option Char) : Bool :=
  a.any P.isWord != b.any P.isWord

def isBearerChar (c : Char) : Bool :=
  (foldLetter c).isAlphanum ||
    c ∈ ['.', '_', '~', '+', '/', '=', '-']

/-- `\bbearer\s+[A-Za-z0-9._~+/=-]+` without case. -/
def bearerLength (previous : Option Char) (cs : List Char) : Option ℕ :=
  if isWordBoundary P previous cs.head? then
    match afterWord "bearer".toList cs with
    | some rest =>
        let blanks := rest.takeWhile isSpace
        let token := (rest.drop blanks.length).takeWhile isBearerChar
        if blanks = [] ∨ token = [] then none
        else some (6 + blanks.length + token.length)
    | none => none
  else none

def isKeyChar (c : Char) : Bool :=
  c.isAlphanum || c == '_' || c == '-'

/-- `\bsk-[A-Za-z0-9_-]{8,}\b`: the longest run that ends at a word
boundary. -/
def secretKeyLength (previous : Option Char) (cs : List Char) : Option ℕ :=
  if isWordBoundary P previous cs.head? ∧ cs.take 3 = ['s', 'k', '-'] then
    let key := (cs.drop 3).takeWhile isKeyChar
    ((List.range (key.length + 1)).reverse.find? fun n =>
      8 ≤ n ∧ isWordBoundary P (key.take n).getLast? (cs.drop (3 + n)).head?)
      |>.map (3 + ·)
  else none

/-- `redact_text`. -/
def redactText (value : String) : String :=
  let withoutBearer := replaceMatches (bearerLength P) 0 none value.toList
  String.ofList (replaceMatches (secretKeyLength P) 0 none withoutBearer)

mutual

/-- `Redactor.redact`. -/
def redact : Json → Json
  | .obj fields => .obj (redactFields fields)
  | .arr items => .arr (redactItems items)
  | .str s => .str (redactText P s)
  | value => value

def redactItems : List Json → List Json
  | [] => []
  | item :: items => redact item :: redactItems items

def redactFields : List (String × Json) → List (String × Json)
  | [] => []
  | (key, item) :: fields =>
      (key, if isSensitiveKey key then .str redactedText else redact item) ::
        redactFields fields

end

/-! ## Errors as results -/

def builtinTypeName : BuiltinError → String
  | .keyError => "KeyError"
  | .typeError => "TypeError"
  | .attributeError => "AttributeError"
  | .runtimeError => "RuntimeError"
  | .valueError => "ValueError"
  | .overflowError => "OverflowError"
  | .zeroDivisionError => "ZeroDivisionError"
  | .zoneInfoNotFoundError => "ZoneInfoNotFoundError"
  | .integrityError => "IntegrityError"
  | .indexError => "IndexError"
  | .operationalError => "OperationalError"

def apiError (code messageKey : String) (developerMessage target : Json)
    (retryable : Bool) (details : List (String × Json)) : Json :=
  .obj [("code", .str code), ("message_key", .str messageKey),
    ("developer_message", developerMessage), ("target", target),
    ("retryable", .bool retryable), ("details", .obj details)]

def failureError : ToolFailure → Json
  | .core (.apex e) => apiError e.code e.messageKey
      (optionalText e.developerMessage) (optionalText e.target) e.retryable
      e.details
  | .mcp e => apiError e.code
      ("error.mcp." ++ String.ofList (e.code.toList.map Char.toLower))
      (.str e.developerMessage) (optionalText e.target) e.retryable e.details
  | .core (.builtin kind _) => apiError "MCP_INTERNAL_ERROR"
      "error.mcp.internal" (.str "The MCP adapter failed unexpectedly.") .null
      false [("error_type", .str (builtinTypeName kind))]

/-- `ErrorMapper.map_exception`. -/
def mapException (failure : ToolFailure) (requestId correlationId : String) :
    List (String × Json) :=
  redactFields P
    [("schema_version", .str "1.0.0"), ("interface_version", .str "1.0.0"),
     ("request_id", .str requestId), ("correlation_id", .str correlationId),
     ("status", .str "ERROR"), ("data", .null), ("warnings", .arr []),
     ("errors", .arr [failureError failure])]

end

end ApexForensic.Mcp
