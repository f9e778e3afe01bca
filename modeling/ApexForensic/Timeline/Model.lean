import ApexForensic.Domain.Canonical
import ApexForensic.Domain.PyJson
import ApexForensic.Domain.Rows
import ApexForensic.Domain.Table
import ApexForensic.Domain.TimeOrder

/-!
# Timeline events

An event is a projection of a source row, a file-system node or an artifact,
for one of its timestamps.  Its time, when it has one, is an instant of UTC.
-/

namespace ApexForensic.Timeline

open ApexForensic.Support ApexForensic.Domain

inductive TimelineSourceType where
  | fileSystemNode | registryArtifact | eventLogArtifact | prefetchArtifact
  | mediaArtifact | browserArtifact | communicationArtifact
  | analystAnnotation
  deriving DecidableEq

def TimelineSourceType.value : TimelineSourceType → String
  | fileSystemNode => "FILE_SYSTEM_NODE"
  | registryArtifact => "REGISTRY_ARTIFACT"
  | eventLogArtifact => "EVENT_LOG_ARTIFACT"
  | prefetchArtifact => "PREFETCH_ARTIFACT"
  | mediaArtifact => "MEDIA_ARTIFACT"
  | browserArtifact => "BROWSER_ARTIFACT"
  | communicationArtifact => "COMMUNICATION_ARTIFACT"
  | analystAnnotation => "ANALYST_ANNOTATION"

inductive TimelineEventType where
  | fileCreated | fileModified | fileAccessed | fileMetadataChanged
  | registryKeyLastWrite | registryValueObserved | processExecution | logon
  | logoff | processCreated | networkConnection | fileCreatedByProcess
  | registryModified | dnsQuery | serviceInstalled | eventLogCleared
  | prefetchLastRun | mediaCreated | mediaModified | mediaCaptured
  | mediaMetadataTimestamp | mediaCapturedCandidate | browserProfileObserved
  | browserVisit | browserSearch | browserDownload | browserDownloadStarted
  | browserDownloadCompleted | browserDownloadObserved | browserCookieObserved
  | browserCredentialObserved | browserCacheEntryObserved
  | browserDeletedSqliteRowCandidate | browserPrivateModeCandidate
  | communicationProfileObserved | communicationAccountObserved
  | communicationConversationObserved | communicationMessage
  | communicationAttachment | communicationUnsupportedStore | other
  deriving DecidableEq

def TimelineEventType.value : TimelineEventType → String
  | fileCreated => "FILE_CREATED"
  | fileModified => "FILE_MODIFIED"
  | fileAccessed => "FILE_ACCESSED"
  | fileMetadataChanged => "FILE_METADATA_CHANGED"
  | registryKeyLastWrite => "REGISTRY_KEY_LAST_WRITE"
  | registryValueObserved => "REGISTRY_VALUE_OBSERVED"
  | processExecution => "PROCESS_EXECUTION"
  | logon => "LOGON"
  | logoff => "LOGOFF"
  | processCreated => "PROCESS_CREATED"
  | networkConnection => "NETWORK_CONNECTION"
  | fileCreatedByProcess => "FILE_CREATED_BY_PROCESS"
  | registryModified => "REGISTRY_MODIFIED"
  | dnsQuery => "DNS_QUERY"
  | serviceInstalled => "SERVICE_INSTALLED"
  | eventLogCleared => "EVENT_LOG_CLEARED"
  | prefetchLastRun => "PREFETCH_LAST_RUN"
  | mediaCreated => "MEDIA_CREATED"
  | mediaModified => "MEDIA_MODIFIED"
  | mediaCaptured => "MEDIA_CAPTURED"
  | mediaMetadataTimestamp => "MEDIA_METADATA_TIMESTAMP"
  | mediaCapturedCandidate => "MEDIA_CAPTURED_CANDIDATE"
  | browserProfileObserved => "BROWSER_PROFILE_OBSERVED"
  | browserVisit => "BROWSER_VISIT"
  | browserSearch => "BROWSER_SEARCH"
  | browserDownload => "BROWSER_DOWNLOAD"
  | browserDownloadStarted => "BROWSER_DOWNLOAD_STARTED"
  | browserDownloadCompleted => "BROWSER_DOWNLOAD_COMPLETED"
  | browserDownloadObserved => "BROWSER_DOWNLOAD_OBSERVED"
  | browserCookieObserved => "BROWSER_COOKIE_OBSERVED"
  | browserCredentialObserved => "BROWSER_CREDENTIAL_OBSERVED"
  | browserCacheEntryObserved => "BROWSER_CACHE_ENTRY_OBSERVED"
  | browserDeletedSqliteRowCandidate => "BROWSER_DELETED_SQLITE_ROW_CANDIDATE"
  | browserPrivateModeCandidate => "BROWSER_PRIVATE_MODE_CANDIDATE"
  | communicationProfileObserved => "COMMUNICATION_PROFILE_OBSERVED"
  | communicationAccountObserved => "COMMUNICATION_ACCOUNT_OBSERVED"
  | communicationConversationObserved => "COMMUNICATION_CONVERSATION_OBSERVED"
  | communicationMessage => "COMMUNICATION_MESSAGE"
  | communicationAttachment => "COMMUNICATION_ATTACHMENT"
  | communicationUnsupportedStore => "COMMUNICATION_UNSUPPORTED_STORE"
  | other => "OTHER"

inductive TimestampPrecision where
  | second | millisecond | microsecond | day | unknown
  deriving DecidableEq

inductive TimezoneSource where
  | explicitOffset | utcSource | caseDefault | artifactConfiguration
  | windowsTimezoneCandidate | analystConfirmed | unknown
  deriving DecidableEq

inductive TimezoneConfidence where
  | confirmed | high | medium | low | unknown
  deriving DecidableEq

/-- Unified timeline projection from filesystem and artifact sources. -/
structure TimelineEvent where
  timelineEventId : String
  caseId : String
  evidenceId : String
  sourceType : TimelineSourceType
  sourceId : String
  sourceRevision : ℕ
  eventType : TimelineEventType
  eventSubtype : String
  title : String
  description : String
  rawTimestamp : Option String
  rawTimezone : Option String
  timestampSemantics : String
  normalizedUtc : Option Instant
  caseTimezone : String
  displayedCaseTime : Option String
  timezoneSource : TimezoneSource
  timezoneConfidence : TimezoneConfidence
  precision : TimestampPrecision
  analyzerId : Option String
  analyzerVersion : Option String
  rawLocator : Json
  citations : Json
  fields : List (String × Json)
  isPartial : Bool
  timelineRevision : ℕ
  createdAt : String
  dedupKey : String

/-- A time zone of the IANA database: the text of an instant in its local
time, and the instant of a local time. -/
structure Zone where
  isoformat : Instant → Except PyError String
  toUtc : ℤ → Except PyError Instant

/-- The document in the text of a cursor. -/
def cursorPayload (sort : Option String) (timelineEventId order : String) :
    Json :=
  .obj [("order", .str order), ("sort", optionalText sort),
    ("timeline_event_id", .str timelineEventId)]

/-- What the timeline takes from the Python library and from SQLite.
`int` has no value where it raises a `TypeError` or a `ValueError`, and
`fromisoformat` where it raises a `ValueError`; `jsonText` is
`json.dumps` with sorted keys; `bindText` is the text that a bound parameter
has when it is compared with a text column; `cursorText` is the unpadded
base64 text of a JSON document, and `cursorJson` reads such a text back and
has no value where that raises a `ValueError`. -/
structure Platform where
  casefold : String → String
  upper : String → String
  sha256 : ByteArray → String
  str : Json → String
  int : Json → Option ℤ
  jsonText : Json → String
  bindText : Json → Except PyError String
  fromisoformat : String → Option Datetime
  zoneInfo : String → Except PyError Zone
  cursorText : Json → String
  cursorJson : String → Option Json
  upper_order : upper "ASC" = "ASC" ∧ upper "DESC" = "DESC"
  str_str : ∀ s, str (.str s) = s
  bindText_str : ∀ s, bindText (.str s) = .ok s
  cursorJson_cursorText : ∀ sort timelineEventId order,
    cursorJson (cursorText (cursorPayload sort timelineEventId order)) =
      some (cursorPayload sort timelineEventId order)

/-- The time that sorts events without one. -/
def noTimestamp : String := "9999-12-31T23:59:59.999999Z"

/-- The column `normalized_utc`. -/
def TimelineEvent.utcText (event : TimelineEvent) : Option String :=
  event.normalizedUtc.map Instant.text

/-- The column `sort_timestamp`. -/
def TimelineEvent.sortTimestamp (event : TimelineEvent) : String :=
  event.utcText.getD noTimestamp

/-- `a or b`. -/
def orElse (a b : Json) : Json := if truthy a then a else b

section

variable (P : Platform)

/-- `None if value is None else str(value)`. -/
def textUnlessNone : Json → Option String
  | .null => none
  | value => some (P.str value)

/-- The column `artifact_type`. -/
def TimelineEvent.artifactTypeText (event : TimelineEvent) : Option String :=
  textUnlessNone P (getKey event.fields "artifact_type")

/-- The column `path_key`. -/
def TimelineEvent.pathKey (event : TimelineEvent) : Option String :=
  (textUnlessNone P (orElse (getKey event.fields "path")
    (orElse (getKey event.fields "source_path")
      (getKey event.fields "registry_path")))).map P.casefold

end

end ApexForensic.Timeline
