import ApexForensic.FileSystem.Model
import ApexForensic.Timeline.Listing

/-!
# Timeline events of source rows

A file-system node has an event for each of the four timestamps it carries,
and an artifact has one.  The key of an event is the digest of its source, the
revision of the source and its timestamp.
-/

namespace ApexForensic.Timeline

open ApexForensic.Support ApexForensic.Domain

inductive ArtifactType where
  | registryKey | registryValue | registryAutorun | registryUsbDevice
  | registryTimezone | registryUserassist | eventLogRecord | prefetchExecution
  | mediaImage | mediaVideo | mediaAudio | browserProfile | browserVisit
  | browserSearch | browserDownload | browserCookie | browserCredential
  | browserCacheEntry | browserDeletedSqliteRow | browserPrivateModeCandidate
  | communicationProfile | communicationAccount | communicationConversation
  | communicationMessage | communicationAttachment
  | communicationUnsupportedStore | unknownWindowsArtifact
  deriving DecidableEq

def ArtifactType.value : ArtifactType → String
  | registryKey => "REGISTRY_KEY"
  | registryValue => "REGISTRY_VALUE"
  | registryAutorun => "REGISTRY_AUTORUN"
  | registryUsbDevice => "REGISTRY_USB_DEVICE"
  | registryTimezone => "REGISTRY_TIMEZONE"
  | registryUserassist => "REGISTRY_USERASSIST"
  | eventLogRecord => "EVENT_LOG_RECORD"
  | prefetchExecution => "PREFETCH_EXECUTION"
  | mediaImage => "MEDIA_IMAGE"
  | mediaVideo => "MEDIA_VIDEO"
  | mediaAudio => "MEDIA_AUDIO"
  | browserProfile => "BROWSER_PROFILE"
  | browserVisit => "BROWSER_VISIT"
  | browserSearch => "BROWSER_SEARCH"
  | browserDownload => "BROWSER_DOWNLOAD"
  | browserCookie => "BROWSER_COOKIE"
  | browserCredential => "BROWSER_CREDENTIAL"
  | browserCacheEntry => "BROWSER_CACHE_ENTRY"
  | browserDeletedSqliteRow => "BROWSER_DELETED_SQLITE_ROW"
  | browserPrivateModeCandidate => "BROWSER_PRIVATE_MODE_CANDIDATE"
  | communicationProfile => "COMMUNICATION_PROFILE"
  | communicationAccount => "COMMUNICATION_ACCOUNT"
  | communicationConversation => "COMMUNICATION_CONVERSATION"
  | communicationMessage => "COMMUNICATION_MESSAGE"
  | communicationAttachment => "COMMUNICATION_ATTACHMENT"
  | communicationUnsupportedStore => "COMMUNICATION_UNSUPPORTED_STORE"
  | unknownWindowsArtifact => "UNKNOWN_WINDOWS_ARTIFACT"

/-- The columns of `fs_nodes` that the timeline reads. -/
structure NodeRow extends FileSystem.FileSystemNode where
  platform : String
  rawTimestamps : List (String × Json)
  utcTimestamps : List (String × Option Instant)
  timestampMeanings : List (String × Json)
  timestampSources : List (String × Json)
  rawLocator : Json
  isPartial : Bool

/-- The columns of `artifacts` that the timeline reads. -/
structure ArtifactRow where
  artifactId : String
  caseId : String
  evidenceId : String
  artifactType : ArtifactType
  title : String
  summary : String
  sourcePath : String
  observedAtRaw : Option String
  observedAtUtc : Option Instant
  fields : List (String × Json)
  rawLocator : Json
  citations : Json
  analyzerId : String
  analyzerVersion : String
  isPartial : Bool
  indexRevision : ℕ
  dedupKey : String

/-- A row of `iter_timeline_source_rows`; an artifact row comes with the
source type it was read for. -/
inductive SourceRow where
  | node (row : NodeRow)
  | artifact (sourceType : TimelineSourceType) (row : ArtifactRow)

namespace SourceRow

def caseId : SourceRow → String
  | node row => row.caseId
  | artifact _ row => row.caseId

def evidenceId : SourceRow → String
  | node row => row.evidenceId
  | artifact _ row => row.evidenceId

def sourceType : SourceRow → TimelineSourceType
  | node _ => .fileSystemNode
  | artifact sourceType _ => sourceType

def sourceId : SourceRow → String
  | node row => row.nodeId
  | artifact _ row => row.artifactId

def sourceRevision : SourceRow → ℕ
  | node row => row.indexRevision
  | artifact _ row => row.indexRevision

/-- `(source_type, source_id)`. -/
def position (row : SourceRow) : String × String :=
  (row.sourceType.value, row.sourceId)

end SourceRow

/-! ## Normalising a timestamp -/

/-- Raw, UTC, and case-timezone timestamp representation. -/
structure TimestampNormalization where
  rawTimestamp : Option String
  rawTimezone : Option String
  timestampSemantics : String
  normalizedUtc : Option Instant
  caseTimezone : String
  displayedCaseTime : Option String
  timezoneSource : TimezoneSource
  timezoneConfidence : TimezoneConfidence
  precision : TimestampPrecision

/-- `value.astimezone(UTC)` of an aware datetime. -/
def astimezoneUtc (micros : ℤ) : Except PyError Instant :=
  if h : -62135596800000000 ≤ micros ∧ micros ≤ 253402300799999999 then
    .ok ⟨micros, h⟩
  else .error (.builtin .overflowError "date value out of range")

/-- The text before the first of a character. -/
def beforeChar (c : Char) (cs : List Char) : List Char :=
  cs.takeWhile (· ≠ c)

def precisionOf : Option String → TimestampPrecision
  | none => .unknown
  | some raw =>
      let cs := raw.toList
      if 'T' ∉ cs ∧ cs.length = 10 then .day
      else if '.' ∈ cs then
        let fraction := beforeChar 'Z'
          (beforeChar '+' ((cs.dropWhile (· ≠ '.')).drop 1))
        if 3 < fraction.length then .microsecond else .millisecond
      else .second

section

variable (P : Platform)

/-- `_parse_raw_datetime`: a text with a final `Z` is read as UTC. -/
def parseRawDatetime (value : String) : Except PyError (Option Datetime) :=
  if value.toList.getLast? = some 'Z' then
    match P.fromisoformat
        (String.ofList (value.toList.dropLast ++ "+00:00".toList)) with
    | none => .ok none
    | some parsed => do
        let utc ← astimezoneUtc parsed.utcMicros
        return some utc.toDatetime
  else .ok (P.fromisoformat value)

/-- What `normalize_timestamp` finds for a parsed raw timestamp: its instant,
and where its time zone comes from. -/
def normalizeParsed (parsed : Datetime) (rawTimezone : Option String)
    (sourceHint : TimezoneSource) :
    Except PyError
      (Option Instant × TimezoneSource × TimezoneConfidence) :=
  match parsed.offsetSeconds, rawTimezone with
  | some offset, _ => do
      let utc ← astimezoneUtc parsed.utcMicros
      return (some utc,
        if offset = 0 then .utcSource else .explicitOffset, .high)
  | none, none => .ok (none, .unknown, .unknown)
  | none, some "" => .ok (none, .unknown, .unknown)
  | none, some timezone =>
      match P.zoneInfo timezone with
      | .ok zone => do
          let utc ← zone.toUtc parsed.utcMicros
          return (some utc, .artifactConfiguration, .medium)
      | .error (.builtin .zoneInfoNotFoundError _) =>
          .ok (none, sourceHint, .unknown)
      | .error error => .error error

/-- The instant of a timestamp, and where its time zone comes from. -/
def normalizedInstant (rawTimestamp rawTimezone : Option String)
    (utcSource : Option Instant) (sourceHint : TimezoneSource) :
    Except PyError
      (Option Instant × TimezoneSource × TimezoneConfidence) :=
  match utcSource, rawTimestamp with
  | some utc, _ => .ok (some utc, .utcSource, .high)
  | none, none => .ok (none, sourceHint, .unknown)
  | none, some "" => .ok (none, sourceHint, .unknown)
  | none, some raw => do
      match ← parseRawDatetime P raw with
      | some parsed => normalizeParsed P parsed rawTimezone sourceHint
      | none => .ok (none, sourceHint, .unknown)

/-- Normalize timestamps without overwriting raw timestamp evidence. -/
def normalizeTimestamp (rawTimestamp rawTimezone : Option String)
    (caseTimezone timestampSemantics : String) (utcSource : Option Instant)
    (sourceHint : TimezoneSource) : Except PyError TimestampNormalization := do
  validateTimezone P caseTimezone
  let (normalized, timezoneSource, confidence) ←
    normalizedInstant P rawTimestamp rawTimezone utcSource sourceHint
  let zone ← P.zoneInfo caseTimezone
  let displayed ← normalized.mapM zone.isoformat
  return {
    rawTimestamp := rawTimestamp
    rawTimezone := rawTimezone
    timestampSemantics := timestampSemantics
    normalizedUtc := normalized
    caseTimezone := caseTimezone
    displayedCaseTime := displayed
    timezoneSource := timezoneSource
    timezoneConfidence := confidence
    precision := precisionOf rawTimestamp }

/-! ## Events -/

/-- What a build gives to its events. -/
structure BuildContext where
  caseTimezone : String
  timelineRevision : ℕ
  now : String

/-- What an event is about, but for its source. -/
structure EventBody where
  sourceType : TimelineSourceType
  eventType : TimelineEventType
  eventSubtype : String
  title : String
  description : String
  normalization : TimestampNormalization
  analyzerId : String
  analyzerVersion : String
  rawLocator : Json
  citations : Json
  fields : List (String × Json)
  isPartial : Bool

/-- What the key of an event is the digest of. -/
def dedupDocument (caseId evidenceId : String)
    (sourceType : TimelineSourceType) (sourceId : String)
    (sourceRevision : ℕ) (eventType : TimelineEventType)
    (rawTimestamp : Option String) (normalizedUtc : Option Instant) : Json :=
  .obj [
    ("case_id", .str caseId),
    ("evidence_id", .str evidenceId),
    ("source_type", .str sourceType.value),
    ("source_id", .str sourceId),
    ("source_revision", .int sourceRevision),
    ("event_type", .str eventType.value),
    ("raw_timestamp", optionalText rawTimestamp),
    ("normalized_utc", optionalText (normalizedUtc.map Instant.text))]

def makeEvent (context : BuildContext) (row : SourceRow) (body : EventBody) :
    TimelineEvent :=
  let dedupKey := canonicalSha256 P.sha256 (dedupDocument row.caseId
    row.evidenceId body.sourceType row.sourceId row.sourceRevision
    body.eventType body.normalization.rawTimestamp
    body.normalization.normalizedUtc) []
  { timelineEventId := "timeline-event-" ++ dedupKey
    caseId := row.caseId
    evidenceId := row.evidenceId
    sourceType := body.sourceType
    sourceId := row.sourceId
    sourceRevision := row.sourceRevision
    eventType := body.eventType
    eventSubtype := body.eventSubtype
    title := body.title
    description := body.description
    rawTimestamp := body.normalization.rawTimestamp
    rawTimezone := body.normalization.rawTimezone
    timestampSemantics := body.normalization.timestampSemantics
    normalizedUtc := body.normalization.normalizedUtc
    caseTimezone := body.normalization.caseTimezone
    displayedCaseTime := body.normalization.displayedCaseTime
    timezoneSource := body.normalization.timezoneSource
    timezoneConfidence := body.normalization.timezoneConfidence
    precision := body.normalization.precision
    analyzerId := some body.analyzerId
    analyzerVersion := some body.analyzerVersion
    rawLocator := body.rawLocator
    citations := body.citations
    fields := body.fields
    isPartial := body.isPartial
    timelineRevision := context.timelineRevision
    createdAt := context.now
    dedupKey := dedupKey }

/-- `_FS_TIMESTAMP_EVENTS`. -/
def fsTimestampEvents : List (String × TimelineEventType) :=
  [("created", .fileCreated), ("modified", .fileModified),
    ("accessed", .fileAccessed), ("changed", .fileMetadataChanged)]

/-- `a or b or ""` of two texts. -/
def firstNonEmpty (a b : String) : String := if a = "" then b else a

/-- The events of one of a node's timestamps: none when it has neither a raw
nor a UTC value. -/
def fsEvent (context : BuildContext) (row : NodeRow)
    (timestamp : String × TimelineEventType) :
    Except PyError (List TimelineEvent) := do
  let (key, eventType) := timestamp
  let utcValue := (row.utcTimestamps.lookup key).join
  let rawValue := textUnlessNone P (getKey row.rawTimestamps key)
  if utcValue.isNone ∧ rawValue.isNone then return []
  let normalized ← normalizeTimestamp P rawValue
    (if utcValue.isSome then some "UTC" else none) context.caseTimezone
    (P.str (getDefault row.timestampMeanings key (.str key))) utcValue
    (if utcValue.isSome then .utcSource else .unknown)
  return [makeEvent P context (.node row) {
    sourceType := .fileSystemNode
    eventType := eventType
    eventSubtype := P.str (getDefault row.timestampSources key
      (.str "os.stat"))
    title := eventType.value ++ ": " ++ row.displayPath
    description := firstNonEmpty row.originalName row.displayPath
    normalization := normalized
    analyzerId := firstNonEmpty row.providerId "filesystem.metadata"
    analyzerVersion := row.providerVersion
    rawLocator := row.rawLocator
    citations := .arr []
    fields := [
      ("timestamp_key", .str key),
      ("path", .str row.displayPath),
      ("node_type", .str row.nodeType.value),
      ("platform", .str row.platform)]
    isPartial := row.isPartial }]

def fsEvents (context : BuildContext) (row : NodeRow) :
    Except PyError (List TimelineEvent) := do
  let events ← fsTimestampEvents.mapM (fsEvent P context row)
  return events.flatten

def artifactSourceType : ArtifactType → TimelineSourceType
  | .registryKey | .registryValue | .registryAutorun | .registryUsbDevice
  | .registryTimezone | .registryUserassist => .registryArtifact
  | .eventLogRecord => .eventLogArtifact
  | .prefetchExecution => .prefetchArtifact
  | .mediaImage | .mediaVideo | .mediaAudio => .mediaArtifact
  | .browserProfile | .browserVisit | .browserSearch | .browserDownload
  | .browserCookie | .browserCredential | .browserCacheEntry
  | .browserDeletedSqliteRow | .browserPrivateModeCandidate =>
      .browserArtifact
  | .communicationProfile | .communicationAccount
  | .communicationConversation | .communicationMessage
  | .communicationAttachment | .communicationUnsupportedStore =>
      .communicationArtifact
  | .unknownWindowsArtifact => .registryArtifact

/-- `_EVENT_ID_TYPES`. -/
def eventIdType : ℤ → TimelineEventType
  | 4624 => .logon
  | 4634 => .logoff
  | 4647 => .logoff
  | 4688 => .processCreated
  | 7045 => .serviceInstalled
  | 1102 => .eventLogCleared
  | 3 => .networkConnection
  | 11 => .fileCreatedByProcess
  | 12 => .registryModified
  | 13 => .registryModified
  | 22 => .dnsQuery
  | _ => .other

/-- The type and subtype of an event log record. -/
def eventLogType (fields : List (String × Json)) :
    TimelineEventType × String :=
  match P.int (getKey fields "event_id") with
  | none => (eventIdType (-1), "EVENT_RECORD")
  | some eventId =>
      (eventIdType (if eventId = 0 then -1 else eventId),
        P.str (orElse (getKey fields "event_subtype")
          (.str s!"EVENT_ID_{eventId}")))

def browserDownloadType (fields : List (String × Json)) :
    TimelineEventType × String :=
  let status := P.upper (P.str (orElse (getKey fields "state_label")
    (orElse (getKey fields "state") (.str ""))))
  if status ∈ ["COMPLETE", "COMPLETED", "1"] then
    (.browserDownloadCompleted, "BROWSER_DOWNLOAD_COMPLETED")
  else if getKey fields "end_time_utc" matches .null then
    (.browserDownloadStarted, "BROWSER_DOWNLOAD_STARTED")
  else (.browserDownloadObserved, "BROWSER_DOWNLOAD_OBSERVED")

def artifactEventType (fields : List (String × Json)) :
    ArtifactType → TimelineEventType × String
  | .prefetchExecution => (.prefetchLastRun, "PREFETCH_LAST_RUN_CANDIDATE")
  | .eventLogRecord => eventLogType P fields
  | .mediaImage =>
      if truthy (getKey fields "media_timestamps") then
        (.mediaCapturedCandidate, "MEDIA_IMAGE_CAPTURED_CANDIDATE")
      else (.mediaModified, "MEDIA_IMAGE_MODIFIED")
  | .mediaVideo =>
      if truthy (getKey fields "media_timestamps") then
        (.mediaMetadataTimestamp, "MEDIA_VIDEO_METADATA_TIMESTAMP")
      else (.mediaModified, "MEDIA_VIDEO_MODIFIED")
  | .mediaAudio =>
      if truthy (getKey fields "media_timestamps") then
        (.mediaMetadataTimestamp, "MEDIA_AUDIO_METADATA_TIMESTAMP")
      else (.mediaModified, "MEDIA_AUDIO_MODIFIED")
  | .browserProfile => (.browserProfileObserved, "BROWSER_PROFILE")
  | .browserVisit => (.browserVisit, "BROWSER_VISIT")
  | .browserSearch => (.browserSearch, "BROWSER_SEARCH")
  | .browserDownload => browserDownloadType P fields
  | .browserCookie => (.browserCookieObserved, "BROWSER_COOKIE_OBSERVED")
  | .browserCredential =>
      (.browserCredentialObserved, "BROWSER_CREDENTIAL_OBSERVED")
  | .browserCacheEntry =>
      (.browserCacheEntryObserved, "BROWSER_CACHE_ENTRY_OBSERVED")
  | .browserDeletedSqliteRow =>
      (.browserDeletedSqliteRowCandidate,
        "BROWSER_DELETED_SQLITE_ROW_CANDIDATE")
  | .browserPrivateModeCandidate =>
      (.browserPrivateModeCandidate, "BROWSER_PRIVATE_MODE_CANDIDATE")
  | .communicationProfile =>
      (.communicationProfileObserved, "COMMUNICATION_PROFILE")
  | .communicationAccount =>
      (.communicationAccountObserved, "COMMUNICATION_ACCOUNT")
  | .communicationConversation =>
      (.communicationConversationObserved, "COMMUNICATION_CONVERSATION")
  | .communicationMessage => (.communicationMessage, "COMMUNICATION_MESSAGE")
  | .communicationAttachment =>
      (.communicationAttachment, "COMMUNICATION_ATTACHMENT")
  | .communicationUnsupportedStore =>
      (.communicationUnsupportedStore, "COMMUNICATION_UNSUPPORTED_STORE")
  | .registryKey => (.registryKeyLastWrite, "REGISTRY_KEY")
  | .registryUserassist =>
      (.processExecution, "USERASSIST_EXECUTION_CANDIDATE")
  | .registryAutorun => (.registryValueObserved, "AUTORUN_ENTRY_CANDIDATE")
  | .registryUsbDevice => (.registryValueObserved, "USB_DEVICE_CANDIDATE")
  | .registryTimezone => (.registryValueObserved, "TIMEZONE_CONFIGURATION")
  | .registryValue => (.registryValueObserved, "REGISTRY_VALUE")
  | .unknownWindowsArtifact => (.registryValueObserved, "REGISTRY_VALUE")

def artifactEvent (context : BuildContext)
    (sourceType : TimelineSourceType) (row : ArtifactRow) :
    Except PyError TimelineEvent := do
  let normalized ← normalizeTimestamp P row.observedAtRaw none
    context.caseTimezone "artifact_observed_at" row.observedAtUtc
    (if row.observedAtUtc.isSome then .utcSource else .unknown)
  return makeEvent P context (.artifact sourceType row) {
    sourceType := artifactSourceType row.artifactType
    eventType := (artifactEventType P row.fields row.artifactType).1
    eventSubtype := (artifactEventType P row.fields row.artifactType).2
    title := row.title
    description := row.summary
    normalization := normalized
    analyzerId := row.analyzerId
    analyzerVersion := row.analyzerVersion
    rawLocator := row.rawLocator
    citations := row.citations
    fields := setItem "source_path" (.str row.sourcePath)
      (setItem "artifact_type" (.str row.artifactType.value) row.fields)
    isPartial := row.isPartial }

def eventsFromSourceRow (context : BuildContext) :
    SourceRow → Except PyError (List TimelineEvent)
  | .node row => fsEvents P context row
  | .artifact sourceType row => do
      let event ← artifactEvent P context sourceType row
      return [event]

end

end ApexForensic.Timeline
