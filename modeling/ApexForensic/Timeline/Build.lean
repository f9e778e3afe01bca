import ApexForensic.Support.BatchJob
import ApexForensic.Timeline.Projection

/-!
# Building the timeline

A build reads the source rows of a case in the order of source type and source
id, and stores the events of one batch of them in one transaction.  An event
whose key is already stored is ignored.
-/

namespace ApexForensic.Timeline

open ApexForensic.Support ApexForensic.Domain

/-- The primary key of `fs_nodes`. -/
def NodeRow.key (row : NodeRow) : String := row.nodeId

/-- The tables of a case's sources and events. -/
structure CaseStore extends Store where
  nodes : Table NodeRow.key
  artifacts : Table ArtifactRow.artifactId

/-! ## The sources -/

/-- The unique columns of a node that name its path. -/
def NodeRow.pathKey (row : NodeRow) :
    String × String × String × String × String :=
  (row.caseId, row.evidenceId, row.providerId, row.providerVersion,
    row.originalRelativePath)

/-- What `DO UPDATE SET` makes of a stored node: everything but its id, the
columns of its path and the time it was created. -/
def NodeRow.excluded (old new : NodeRow) : NodeRow :=
  { new with
    nodeId := old.nodeId
    caseId := old.caseId
    evidenceId := old.evidenceId
    providerId := old.providerId
    providerVersion := old.providerVersion
    originalRelativePath := old.originalRelativePath
    createdAt := old.createdAt }

/-- Insert or update a filesystem node without creating duplicates. -/
def upsertFsNode (nodes : Table NodeRow.key) (node : NodeRow) :
    Except PyError (Table NodeRow.key) :=
  if nodes.rows.any fun row => row.pathKey = node.pathKey then
    .ok (nodes.update (fun row => row.pathKey = node.pathKey)
      (fun row => row.excluded node) fun _ => rfl)
  else
    match nodes.insert node with
    | some nodes => .ok nodes
    | none => .error (.builtin .integrityError
        "UNIQUE constraint failed: fs_nodes.node_id")

/-- `INSERT OR IGNORE` of one artifact. -/
def insertArtifact (artifacts : Table ArtifactRow.artifactId)
    (row : ArtifactRow) : Table ArtifactRow.artifactId :=
  if artifacts.rows.any fun a => a.dedupKey = row.dedupKey then artifacts
  else (artifacts.insert row).getD artifacts

/-- Batch insert immutable artifacts and ignore exact duplicates. -/
def saveArtifacts (artifacts : Table ArtifactRow.artifactId)
    (rows : List ArtifactRow) : Table ArtifactRow.artifactId :=
  rows.foldl insertArtifact artifacts

/-! ## Reading the sources -/

def timelineSourceArtifactTypes : TimelineSourceType → List ArtifactType
  | .eventLogArtifact => [.eventLogRecord]
  | .prefetchArtifact => [.prefetchExecution]
  | .mediaArtifact => [.mediaImage, .mediaVideo, .mediaAudio]
  | .browserArtifact => [.browserProfile, .browserVisit, .browserSearch,
      .browserDownload, .browserCookie, .browserCredential,
      .browserCacheEntry, .browserDeletedSqliteRow,
      .browserPrivateModeCandidate]
  | .communicationArtifact => [.communicationProfile, .communicationAccount,
      .communicationConversation, .communicationMessage,
      .communicationAttachment, .communicationUnsupportedStore]
  | _ => [.registryKey, .registryValue, .registryAutorun, .registryUsbDevice,
      .registryTimezone, .registryUserassist]

section

variable (store : CaseStore) (caseId : String) (evidenceId : Option String)

def iterFsTimelineRows (afterId : Option String) (limit : ℕ) :
    List SourceRow :=
  (((store.nodes.rows.filter fun row =>
      row.caseId = caseId && (evidenceId.all fun id => row.evidenceId = id) &&
        afterId.all fun id => id < row.nodeId).insertionSort
    fun a b => a.nodeId ≤ b.nodeId).take limit).map .node

def iterArtifactTimelineRows (sourceType : TimelineSourceType)
    (afterId : Option String) (limit : ℕ) : List SourceRow :=
  (((store.artifacts.rows.filter fun row =>
      row.caseId = caseId &&
        row.artifactType ∈ timelineSourceArtifactTypes sourceType &&
        (evidenceId.all fun id => row.evidenceId = id) &&
        afterId.all fun id => id < row.artifactId).insertionSort
    fun a b => a.artifactId ≤ b.artifactId).take limit).map
      (.artifact sourceType)

/-- The rows of one source type. -/
def iterRows (sourceType : TimelineSourceType) (afterId : Option String)
    (limit : ℕ) : List SourceRow :=
  match sourceType with
  | .fileSystemNode =>
      iterFsTimelineRows store caseId evidenceId afterId limit
  | sourceType =>
      iterArtifactTimelineRows store caseId evidenceId sourceType afterId
        limit

/-- The source types in the order of their texts. -/
def sortedSourceTypes : List TimelineSourceType :=
  [.browserArtifact, .communicationArtifact, .eventLogArtifact,
    .fileSystemNode, .mediaArtifact, .prefetchArtifact, .registryArtifact]

/-- The source types that are read; without any, all of them. -/
def selectedTypes (sourceTypes : List TimelineSourceType) :
    List TimelineSourceType :=
  sortedSourceTypes.filter fun t => sourceTypes.isEmpty || t ∈ sourceTypes

/-- Return existing source rows projected for timeline generation. -/
def iterTimelineSourceRows (sourceTypes : List TimelineSourceType)
    (afterSource : Option (String × String)) (limit : ℕ) : List SourceRow :=
  ((readTables TimelineSourceType.value (iterRows store caseId evidenceId)
      (selectedTypes sourceTypes) afterSource limit).insertionSort
    (orderBy (fun row => row.sourceType.value) SourceRow.sourceId)).take limit

end

/-! ## Storing events -/

/-- `INSERT OR IGNORE` of one event, and its `rowcount`. -/
def insertEvent (saved : Table TimelineEvent.timelineEventId × ℕ)
    (event : TimelineEvent) : Table TimelineEvent.timelineEventId × ℕ :=
  if saved.1.rows.any fun e => e.dedupKey = event.dedupKey then saved
  else
    match saved.1.insert event with
    | some events => (events, saved.2 + 1)
    | none => saved

/-- Persist timeline events, preventing duplicate source/event/timestamp
rows. -/
def saveTimelineEvents (events : Table TimelineEvent.timelineEventId)
    (new : List TimelineEvent) : Table TimelineEvent.timelineEventId × ℕ :=
  new.foldl insertEvent (events, 0)

/-! ## The build -/

section

variable (P : Platform)

/-- The events of a batch are projected first and stored together. -/
def buildBatch (context : BuildContext)
    (events : Table TimelineEvent.timelineEventId) (counters : Counters)
    (rows : List SourceRow) :
    Batched (Table TimelineEvent.timelineEventId) PyError :=
  match rows.mapM (eventsFromSourceRow P context) with
  | .error error => ⟨events, counters, some error⟩
  | .ok projected =>
      let saved := saveTimelineEvents events projected.flatten
      { store := saved.1
        counters := {
          processed := counters.processed +
            projected.countP fun events => ! events.isEmpty
          skipped := counters.skipped +
            projected.countP fun events => events.isEmpty
          written := counters.written + saved.2 }
        error := none }

structure BuildArgs where
  caseId : String
  evidenceId : Option String
  sourceTypes : List TimelineSourceType
  itemBudget : Option ℕ
  batchSize : ℕ
  timelineRevision : ℕ
  now : String

def BuildArgs.context (args : BuildArgs) (caseTimezone : String) :
    BuildContext where
  caseTimezone := caseTimezone
  timelineRevision := args.timelineRevision
  now := args.now

/-- `_run_build` as a batch job; its budget counts the rows with events and
those without. -/
def timelineJob (store : CaseStore) (args : BuildArgs)
    (caseTimezone : String) :
    BatchJob (Table TimelineEvent.timelineEventId) SourceRow
      (String × String) PyError where
  fetch := iterTimelineSourceRows store args.caseId args.evidenceId
    args.sourceTypes
  position := SourceRow.position
  batch := buildBatch P (args.context caseTimezone)
  inspected counters := counters.processed + counters.skipped
  batchSize := args.batchSize

def noProgress : Counters := ⟨0, 0, 0⟩

/-- The state in which a new build starts. -/
def startState (events : Table TimelineEvent.timelineEventId) :
    JobState (Table TimelineEvent.timelineEventId) (String × String) where
  store := events
  counters := noProgress
  current := none
  after := none
  saved := ⟨none, noProgress⟩

/-- Enough turns for every source row. -/
def CaseStore.turns (store : CaseStore) : ℕ :=
  store.nodes.rows.length + 7 * store.artifacts.rows.length + 1

/-- Project filesystem nodes and Windows artifacts into timeline events.
`signal` is what the tokens ask for before each batch. -/
def build (store : CaseStore) (args : BuildArgs)
    (signal : ℕ → Option Interrupt) :
    CaseStore × Except PyError JobEnd :=
  match requireCase store.cases args.caseId with
  | .error error => (store, .error error)
  | .ok caseTimezone =>
      if args.batchSize < 1 ∨ 5000 < args.batchSize then
        (store, .error (validationError
          "Batch size must be between 1 and 5000." (some "batch_size") []))
      else
        match (timelineJob P store args caseTimezone).runLoop args.itemBudget
            signal store.turns (startState store.events) with
        | some (s, result) => ({ store with events := s.store }, result)
        | none => (store, .error (.builtin .runtimeError ""))

end

end ApexForensic.Timeline
