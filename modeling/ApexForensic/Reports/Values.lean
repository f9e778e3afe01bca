import ApexForensic.Custody.Ledger
import ApexForensic.Support.PyText

/-!
# Value checks of the report service

The service validates everything it stores: texts are stripped, bounded and
free of markup, lists are bounded and sorted, payloads are shallow, small and
free of secret or binary fields.
-/

namespace ApexForensic.Reports

open ApexForensic.Support ApexForensic.Domain

/-- What the service computes with but does not define: beside the digest, the
Unicode tables, the built-in conversions of values that are neither strings
nor integers, and the configured root of rendered outputs. -/
structure Platform extends Custody.Platform where
  casefold : String → String
  isWord : Char → Bool
  str : Json → String
  int : Json → Option ℤ
  derivedOutputRootId : String

section

variable (P : Platform)

/-- `canonical_sha256` of a value. -/
def digest (value : Json) : String :=
  canonicalSha256 P.sha256 value []

/-! ## Texts -/

/-- `str(value)`. -/
def pyStr : Json → String
  | .str s => s
  | value => P.str value

def requiredNonEmpty (value : Json) (target : String) :
    Except PyError String :=
  if value matches .null ∨ strip (pyStr P value) = "" then
    .error (validationError "Field must be a non-empty string."
      (some target) [])
  else .ok (strip (pyStr P value))

def boundedNonEmpty (value : Json) (target : String) (maximum : ℕ) :
    Except PyError String :=
  match value with
  | .str s =>
      if strip s = "" then
        .error (validationError "Field must be a non-empty string."
          (some target) [])
      else if maximum < s.length then
        .error (reportError "REPORT_CONTENT_LIMIT_EXCEEDED"
          "Text field exceeds the maximum length." (some target) [] false)
      else .ok (strip s)
  | _ => .error (validationError "Field must be a non-empty string."
      (some target) [])

def boundedOptionalText (value : Json) (target : String) (maximum : ℕ) :
    Except PyError (Option String) :=
  match value with
  | .null => .ok none
  | .str s =>
      if maximum < s.length then
        .error (reportError "REPORT_CONTENT_LIMIT_EXCEEDED"
          "Text field exceeds the maximum length." (some target) [] false)
      else .ok (some s)
  | _ => .error (validationError "Field must be a string." (some target) [])

def maxReasonLength : ℕ := 4000

def requiredReason (value : Json) : Except PyError String := do
  let reason ← requiredNonEmpty P value "reason"
  if maxReasonLength < reason.length then
    .error (validationError "Reason exceeds maximum length."
      (some "reason") [])
  else .ok reason

def dangerousTags : List String :=
  ["script", "iframe", "object", "embed", "img", "svg", "html"]

/-- An opening tag of an active element at the start of a text. -/
def isDangerousTag : List Char → Bool
  | '<' :: rest =>
      dangerousTags.any fun tag =>
        (afterWord tag.toList (rest.dropWhile isSpace)).any fun after =>
          after.head?.all fun c => !P.isWord c
  | _ => false

/-- A data URL with a base64 marker at the start of a text. -/
def isBase64Data (cs : List Char) : Bool :=
  match (afterWord "data".toList cs).map (List.dropWhile isSpace) with
  | some (':' :: rest) =>
      let (mediaType, rest) := rest.span (· != ';')
      !mediaType.isEmpty &&
        match (afterWord "base64".toList
            ((rest.drop 1).dropWhile isSpace)).map (List.dropWhile isSpace) with
        | some (',' :: _) => true
        | _ => false
  | _ => false

def safeText (value target : String) : Except PyError String :=
  if value.toList.contains '\x00' then
    .error (validationError "Text cannot contain a null byte."
      (some target) [])
  else if searchText (isDangerousTag P) value ∨
      searchText isBase64Data value then
    .error (validationError
      "Text cannot contain executable HTML or embedded base64 data."
      (some target) [])
  else .ok value

/-! ## Numbers and enumerations -/

def limit (value : Json) (minimum maximum : ℤ) (target : String) :
    Except PyError ℤ :=
  let parsed :=
    match value with
    | .int n => some n
    | .str _ => P.int value
    | .float _ => P.int value
    | _ => none
  match parsed with
  | none => .error (validationError "Field must be an integer."
      (some target) [])
  | some n =>
      if n < minimum ∨ maximum < n then
        .error (validationError "Field is outside the allowed range."
          (some target) [("minimum", .int minimum), ("maximum", .int maximum),
            ("value", .int n)])
      else .ok n

/-- A member of an enumeration, read from its value. -/
def enumValue {α : Type} (members : List α) (valueOf : α → String)
    (value : Json) (target : String) : Except PyError α :=
  match value with
  | .str s =>
      if s = "" then
        .error (validationError "Field must be a non-empty string."
          (some target) [])
      else
        match members.find? fun member => valueOf member = s with
        | some member => .ok member
        | none => .error (validationError
            "Field has an unsupported enum value." (some target)
            [("value", value)])
  | _ => .error (validationError "Field must be a non-empty string."
      (some target) [])

/-! ## Lists -/

def dedupe (values : List String) : List String :=
  sortedUnique (values.filter (· ≠ ""))

/-- The items of a list of strings. -/
def strings? : List Json → Option (List String)
  | [] => some []
  | .str s :: items => (strings? items).map (s :: ·)
  | _ :: _ => none

def listLimitError (target : String) : PyError :=
  reportError "REPORT_CONTENT_LIMIT_EXCEEDED"
    "List field exceeds the maximum item count." (some target) [] false

def stringList (value : Json) (target : String) (maxItems : ℕ) :
    Except PyError (List String) :=
  match value with
  | .null => .ok []
  | .arr items =>
      match strings? items with
      | some values =>
          if "" ∈ values then
            .error (validationError
              "Field must be a list of non-empty strings." (some target) [])
          else if maxItems < values.length then .error (listLimitError target)
          else .ok (dedupe values)
      | none => .error (validationError
          "Field must be a list of non-empty strings." (some target) [])
  | _ => .error (validationError
      "Field must be a list of non-empty strings." (some target) [])

/-- The items of a list of integers. -/
def integers? : List Json → Option (List ℤ)
  | [] => some []
  | .int n :: items => (integers? items).map (n :: ·)
  | _ :: _ => none

def integerList (value : Json) (target : String) (maxItems : ℕ) :
    Except PyError (List ℤ) :=
  match value with
  | .arr items =>
      match integers? items with
      | some values =>
          if maxItems < values.length then .error (listLimitError target)
          else .ok values
      | none => .error (validationError "Field must be a list of integers."
          (some target) [])
  | _ => .error (validationError "Field must be a list of integers."
      (some target) [])

def validateStringLengths (values : List String) (target : String)
    (maximum : ℕ) : Except PyError Unit :=
  if values.any fun value => maximum < value.length then
    .error (reportError "REPORT_CONTENT_LIMIT_EXCEEDED"
      "List item exceeds the maximum length." (some target) [] false)
  else .ok ()

def listOrEmpty (value : Json) : Except PyError (List Json) :=
  match value with
  | .null => .ok []
  | .arr items => .ok items
  | _ => .error (validationError "Field must be a list." none [])

def requiredOptionalList (value : Json) (target : String) :
    Except PyError (List Json) :=
  match value with
  | .arr items => .ok items
  | _ => .error (validationError "Field must be a list." (some target) [])

/-! ## Payloads -/

def forbiddenKeyParts : List String :=
  ["api_key", "apikey", "secret", "credential", "password", "prompt",
    "system_prompt", "chain_of_thought", "chain-of-thought",
    "reasoning_trace", "raw_body", "raw_response"]

def rawBlobKeys : List String :=
  ["raw_blob", "blob", "binary", "bytes", "base64", "attachment_bytes"]

def normalizedKey (key : String) : String :=
  String.ofList ((P.casefold key).toList.map fun c =>
    if c = '-' then '_' else c)

mutual

def rejectForbiddenJson (target : String) : Json → Except PyError Unit
  | .obj fields => rejectForbiddenFields target fields
  | .arr items => rejectForbiddenItems target items
  | _ => .ok ()

def rejectForbiddenItems (target : String) : List Json → Except PyError Unit
  | [] => .ok ()
  | item :: items => do
      rejectForbiddenJson target item
      rejectForbiddenItems target items

def rejectForbiddenFields (target : String) :
    List (String × Json) → Except PyError Unit
  | [] => .ok ()
  | (key, item) :: fields => do
      if forbiddenKeyParts.any fun part =>
          containsText part (normalizedKey P key) then
        .error (validationError
          "Report contracts cannot store prompts, secrets, or raw provider bodies."
          (some target) [])
      if normalizedKey P key ∈ rawBlobKeys then
        .error (validationError "Report contracts cannot store raw blobs."
          (some target) [])
      rejectForbiddenJson target item
      rejectForbiddenFields target fields

end

def maxJsonDepth : ℕ := 8
def maxJsonBytes : ℕ := 512 * 1024

def validateContractPayload (value : Json) (target : String) :
    Except PyError Unit := do
  rejectForbiddenJson P target value
  if maxJsonDepth < depth 0 value then
    .error (reportError "REPORT_CONTENT_LIMIT_EXCEEDED"
      "Report payload exceeds the maximum JSON depth." (some target) [] false)
  if maxJsonBytes < (canonicalJsonBytes value []).size then
    .error (reportError "REPORT_CONTENT_LIMIT_EXCEEDED"
      "Report payload exceeds the maximum serialized size."
      (some target) [] false)

/-! ## Warnings -/

/-- One item for each digest, in the order of the digests. -/
def stableItems (items : List Json) : List Json :=
  ((items.foldl (fun normalized item =>
      setItem (digest P item) item normalized) []).insertionSort
        fun a b => a.1 ≤ b.1).map Prod.snd

def maxWarningCount : ℕ := 1000
def maxWarningMessageLength : ℕ := 2000

/-- `[A-Z][A-Z0-9_]*`. -/
def isWarningCode (code : String) : Bool :=
  match code.toList with
  | c :: cs => c.isUpper &&
      cs.all fun c => c.isUpper || c.isDigit || c == '_'
  | [] => false

def checkWarning (target : String) : Json → Except PyError Unit
  | .obj fields =>
      match getKey fields "code" with
      | .str code =>
          if isWarningCode code then do
            let _ ← boundedOptionalText (getKey fields "developer_message")
              (target ++ ".developer_message") maxWarningMessageLength
          else .error (validationError "Warning code is invalid."
            (some target) [])
      | _ => .error (validationError "Warning code is invalid."
          (some target) [])
  | _ => .error (validationError "Warning must be a JSON object."
      (some target) [])

def boundedWarnings (value : Json) (target : String) :
    Except PyError (List Json) := do
  let warnings ← requiredOptionalList value target
  if maxWarningCount < warnings.length then
    .error (reportError "REPORT_CONTENT_LIMIT_EXCEEDED"
      "Warning collection exceeds the maximum item count."
      (some target) [] false)
  warnings.forM (checkWarning target)
  .ok (stableItems P warnings)

def hasWarning (warnings : List Json) (code : String) : Bool :=
  warnings.any fun
    | .obj fields => equalsStr? (getKey fields "code") (some code)
    | _ => false

/-- `value or []`. -/
def orEmptyList (value : Json) : Json :=
  if truthy value then value else .arr []

end

end ApexForensic.Reports
