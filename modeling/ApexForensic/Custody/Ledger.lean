import ApexForensic.Domain.Canonical
import ApexForensic.Domain.PyJson
import ApexForensic.Domain.Time
import ApexForensic.Support.HashChain

/-!
# The custody ledger

`addEventRead` is everything `add_event` does before its insert: validation,
reading the head of the evidence's chain and building the event.
`saveCustodyEvent` is the insert with the table's constraints.  `verifyChain`
recomputes the links and hashes of the stored events of one evidence.
-/

namespace ApexForensic.Custody

open ApexForensic.Support ApexForensic.Domain

inductive CustodyEventType where
  | acquisition
  | received
  | transferred
  | stored
  | opened
  | mounted
  | analyzed
  | hashVerified
  | copied
  | exported
  | returned
  | released
  | archived
  | disposed
  | correction
  deriving DecidableEq

def CustodyEventType.value : CustodyEventType → String
  | acquisition => "ACQUISITION"
  | received => "RECEIVED"
  | transferred => "TRANSFERRED"
  | stored => "STORED"
  | opened => "OPENED"
  | mounted => "MOUNTED"
  | analyzed => "ANALYZED"
  | hashVerified => "HASH_VERIFIED"
  | copied => "COPIED"
  | exported => "EXPORTED"
  | returned => "RETURNED"
  | released => "RELEASED"
  | archived => "ARCHIVED"
  | disposed => "DISPOSED"
  | correction => "CORRECTION"

/-! ## Events -/

/-- The document `add_event` builds, one field for each of its keys. -/
structure EventData where
  eventId : String
  caseId : String
  evidenceId : String
  eventType : CustodyEventType
  actorId : Option String
  actorName : String
  actorRole : Option String
  organization : Option String
  sourceLocation : Option String
  destinationLocation : Option String
  action : String
  reason : Option String
  occurredAtUtc : String
  displayedAt : String
  timezone : String
  toolName : Option String
  toolVersion : Option String
  previousHash : Option (List (String × String))
  currentHash : Option (List (String × String))
  notes : Option String
  createdAt : String
  immutableRevision : ℤ
  previousEventHash : Option String
  eventHash : String
  correctionOfEventId : Option String

def jsonStr? (s : Option String) : Json :=
  s.elim .null .str

def jsonHashes? (hashes : Option (List (String × String))) : Json :=
  hashes.elim .null fun fields =>
    .obj (fields.map fun field => (field.1, .str field.2))

def schemaVersion : String := "1.0.0"
def engineVersion : String := "0.1.0"
def custodyLedgerVersion : String := "apex-custody-canonical-v1"

def EventData.toSchemaDict (d : EventData) : Json :=
  .obj
    [("schema_version", .str schemaVersion),
     ("event_id", .str d.eventId),
     ("case_id", .str d.caseId),
     ("evidence_id", .str d.evidenceId),
     ("event_type", .str d.eventType.value),
     ("actor_id", jsonStr? d.actorId),
     ("actor_name", .str d.actorName),
     ("actor_role", jsonStr? d.actorRole),
     ("organization", jsonStr? d.organization),
     ("source_location", jsonStr? d.sourceLocation),
     ("destination_location", jsonStr? d.destinationLocation),
     ("action", .str d.action),
     ("reason", jsonStr? d.reason),
     ("occurred_at_utc", .str d.occurredAtUtc),
     ("displayed_at", .str d.displayedAt),
     ("timezone", .str d.timezone),
     ("tool_name", jsonStr? d.toolName),
     ("tool_version", jsonStr? d.toolVersion),
     ("previous_hash", jsonHashes? d.previousHash),
     ("current_hash", jsonHashes? d.currentHash),
     ("notes", jsonStr? d.notes),
     ("created_at", .str d.createdAt),
     ("immutable_revision", .int d.immutableRevision),
     ("previous_event_hash", jsonStr? d.previousEventHash),
     ("event_hash", .str d.eventHash),
     ("ledger_algorithm", .str "SHA256"),
     ("ledger_version", .str custodyLedgerVersion),
     ("approval", .null),
     ("correction_of_event_id", jsonStr? d.correctionOfEventId)]

/-- The keys left out of the digest of an event. -/
def hashExcluded : List String := ["event_hash"]

@[simp] theorem field?_evidenceId (d : EventData) :
    d.toSchemaDict.field? "evidence_id" = some (.str d.evidenceId) := rfl

@[simp] theorem field?_immutableRevision (d : EventData) :
    d.toSchemaDict.field? "immutable_revision" =
      some (.int d.immutableRevision) := rfl

@[simp] theorem field?_previousEventHash (d : EventData) :
    d.toSchemaDict.field? "previous_event_hash" =
      some (jsonStr? d.previousEventHash) := rfl

@[simp] theorem field?_eventHash (d : EventData) :
    d.toSchemaDict.field? "event_hash" = some (.str d.eventHash) := rfl

theorem canonicalForm_eventHash (d : EventData) (hash : String) :
    canonicalForm { d with eventHash := hash }.toSchemaDict hashExcluded =
      canonicalForm d.toSchemaDict hashExcluded := by
  rfl

/-! ## The store -/

structure CaseRecord where
  caseId : String
  timezone : String

structure EvidenceRecord where
  evidenceId : String
  caseId : String

/-- A row of `custody_events`; `eventJson` is the document its text column
reads back as. -/
structure CustodyRow where
  eventId : String
  caseId : String
  evidenceId : String
  eventType : String
  immutableRevision : ℤ
  previousEventHash : Option String
  eventHash : String
  occurredAtUtc : String
  createdAt : String
  eventJson : Json

structure Store where
  cases : List CaseRecord
  evidence : List EvidenceRecord
  custodyEvents : List CustodyRow

def Store.getCase (store : Store) (caseId : String) : Option CaseRecord :=
  store.cases.find? fun c => c.caseId = caseId

def Store.getEvidence
    (store : Store) (evidenceId : String) : Option EvidenceRecord :=
  store.evidence.find? fun e => e.evidenceId = evidenceId

def Store.getCustodyEvent (store : Store) (eventId : String) : Option Json :=
  (store.custodyEvents.find? fun row => row.eventId = eventId).map
    CustodyRow.eventJson

/-- Rows in the order of the revision column. -/
def revisionLE (a b : CustodyRow) : Prop :=
  a.immutableRevision ≤ b.immutableRevision

instance : DecidableRel revisionLE := fun a b =>
  inferInstanceAs (Decidable (a.immutableRevision ≤ b.immutableRevision))

def evidenceRows (evidenceId : String) (rows : List CustodyRow) :
    List CustodyRow :=
  rows.filter fun row => row.evidenceId = evidenceId

def Store.listCustodyEvents (store : Store) (evidenceId : String) :
    List Json :=
  ((evidenceRows evidenceId store.custodyEvents).insertionSort revisionLE).map
    CustodyRow.eventJson

def EventData.toRow (d : EventData) : CustodyRow where
  eventId := d.eventId
  caseId := d.caseId
  evidenceId := d.evidenceId
  eventType := d.eventType.value
  immutableRevision := d.immutableRevision
  previousEventHash := d.previousEventHash
  eventHash := d.eventHash
  occurredAtUtc := d.occurredAtUtc
  createdAt := d.createdAt
  eventJson := d.toSchemaDict

/-- Append a custody event, or raise and leave the table as it is. -/
def Store.saveCustodyEvent (store : Store) (d : EventData) :
    Except PyError Store :=
  let row := d.toRow
  if row.immutableRevision < -2 ^ 63 ∨ 2 ^ 63 ≤ row.immutableRevision then
    .error (.builtin .overflowError
      "Python int too large to convert to SQLite INTEGER")
  else if store.custodyEvents.any fun r => r.eventId = row.eventId then
    .error (.builtin .integrityError
      "UNIQUE constraint failed: custody_events.event_id")
  else if store.custodyEvents.any fun r =>
      r.evidenceId = row.evidenceId ∧
        r.immutableRevision = row.immutableRevision then
    .error (.builtin .integrityError
      ("UNIQUE constraint failed: custody_events.evidence_id, " ++
        "custody_events.immutable_revision"))
  else if (store.getCase row.caseId).isNone ∨
      (store.getEvidence row.evidenceId).isNone then
    .error (.builtin .integrityError "FOREIGN KEY constraint failed")
  else
    .ok { store with custodyEvents := store.custodyEvents ++ [row] }

/-! ## Appending an event -/

/-- What the ledger computes with but does not define: the digest, and the
offset in seconds of a named zone at an instant. -/
structure Platform where
  sha256 : ByteArray → String
  zoneOffset : String → ℤ → Option ℤ

structure AddEventArgs where
  evidenceId : String
  eventType : CustodyEventType
  actorName : String
  action : String
  actorId : Option String := none
  actorRole : Option String := none
  organization : Option String := none
  sourceLocation : Option String := none
  destinationLocation : Option String := none
  reason : Option String := none
  occurredAtUtc : Option Datetime := none
  toolName : Option String := some "APEX Forensic Core"
  toolVersion : Option String := some engineVersion
  previousHash : Option (List (String × String)) := none
  currentHash : Option (List (String × String)) := none
  notes : Option String := none
  correctionOfEventId : Option String := none

/-- What the clock and the id generator return during one call. -/
structure CallInputs where
  occurredNow : Datetime
  createdNow : Datetime
  newId : String

/-- `str(data["event_hash"])` of an event the ledger wrote. -/
def eventHash (data : Json) : Except PyError String := do
  match ← getItem data "event_hash" with
  | .str s => .ok s
  | _ => .error (.builtin .typeError "event_hash")

/-- `int(data["immutable_revision"])` of an event the ledger wrote. -/
def immutableRevision (data : Json) : Except PyError ℤ := do
  match ← getItem data "immutable_revision" with
  | .int n => .ok n
  | .bool b => .ok (if b then 1 else 0)
  | _ => .error (.builtin .typeError "immutable_revision")

/-- The hash and the revision of the last event, if there is one. -/
def chainHead (existing : List Json) :
    Except PyError (Option (String × ℤ)) :=
  match existing.getLast? with
  | none => .ok none
  | some data => do
      let hash ← eventHash data
      let revision ← immutableRevision data
      .ok (some (hash, revision))

/-- Whether a field of a document is the given string. -/
def fieldIs (data : Json) (key value : String) : Bool :=
  match data.field? key with
  | some v => equalsStr? v (some value)
  | none => false

/-- Only a correction refers to another event, and only to one of the same
evidence and case. -/
def checkCorrection (store : Store) (args : AddEventArgs)
    (evidence : EvidenceRecord) : Except PyError Unit :=
  let target := some "correction_of_event_id"
  if args.eventType = .correction then
    match args.correctionOfEventId with
    | none => .error (validationError
        "CORRECTION events require correction_of_event_id." target [])
    | some eventId =>
        match store.getCustodyEvent eventId with
        | none => .error (notFoundError "OBJECT_NOT_FOUND"
            ("Correction target not found: " ++ eventId) target)
        | some data =>
            if fieldIs data "evidence_id" args.evidenceId = false then
              .error (validationError
                "Correction target belongs to a different evidence item."
                target [])
            else if fieldIs data "case_id" evidence.caseId = false then
              .error (validationError
                "Correction target belongs to a different case." target [])
            else .ok ()
  else if args.correctionOfEventId.isSome then
    .error (validationError
      "Only CORRECTION events may reference correction_of_event_id." target [])
  else .ok ()

def findEvidence (store : Store) (evidenceId : String) :
    Except PyError EvidenceRecord :=
  match store.getEvidence evidenceId with
  | some evidence => .ok evidence
  | none => .error (notFoundError "EVIDENCE_NOT_FOUND"
      ("Evidence not found: " ++ evidenceId) (some "evidence_id"))

def findCase (store : Store) (caseId : String) : Except PyError CaseRecord :=
  match store.getCase caseId with
  | some case => .ok case
  | none => .error (notFoundError "CASE_NOT_FOUND"
      ("Case not found: " ++ caseId) none)

/-- `ZoneInfo(timezone)` applied to an instant. -/
def zoneOffsetAt (P : Platform) (timezone : String) (utcMicros : ℤ) :
    Except PyError ℤ :=
  match P.zoneOffset timezone utcMicros with
  | some offset => .ok offset
  | none => .error (.builtin .zoneInfoNotFoundError
      ("No time zone found with key " ++ timezone))

/-- Fill in the recorded hash of an event. -/
def EventData.withHash (P : Platform) (d : EventData) : EventData :=
  { d with
    eventHash := canonicalSha256 P.sha256 d.toSchemaDict hashExcluded }

/-- `add_event` up to its insert: one read of the store. -/
def addEventRead (P : Platform) (store : Store) (args : AddEventArgs)
    (inputs : CallInputs) : Except PyError EventData := do
  let evidence ← findEvidence store args.evidenceId
  let case ← findCase store evidence.caseId
  checkCorrection store args evidence
  let head ← chainHead (store.listCustodyEvents args.evidenceId)
  let occurred := args.occurredAtUtc.getD inputs.occurredNow
  let offset ← zoneOffsetAt P case.timezone occurred.utcMicros
  let displayedAt ← isoformatWithOffset occurred.utcMicros offset
  let occurredAtUtc ← toJsonTimestamp occurred
  let createdAt ← toJsonTimestamp inputs.createdNow
  .ok (EventData.withHash P
    { eventId := inputs.newId
      caseId := evidence.caseId
      evidenceId := args.evidenceId
      eventType := args.eventType
      actorId := args.actorId
      actorName := args.actorName
      actorRole := args.actorRole
      organization := args.organization
      sourceLocation := args.sourceLocation
      destinationLocation := args.destinationLocation
      action := args.action
      reason := args.reason
      occurredAtUtc := occurredAtUtc
      displayedAt := displayedAt
      timezone := case.timezone
      toolName := args.toolName
      toolVersion := args.toolVersion
      previousHash := args.previousHash
      currentHash := args.currentHash
      notes := args.notes
      createdAt := createdAt
      immutableRevision := head.elim 1 fun h => h.2 + 1
      previousEventHash := head.map Prod.fst
      eventHash := ""
      correctionOfEventId := args.correctionOfEventId })

/-! ## Verifying a chain -/

/-- The loop of `verify_chain`, from an expected revision and the hash of the
event before. -/
def verifyFrom (P : Platform) (expectedRevision : ℕ)
    (previousHash : Option String) : List Json → Except PyError Bool
  | [] => .ok true
  | data :: events => do
      let revision ← getItem data "immutable_revision"
      if equalsInt revision expectedRevision = false then
        return false
      let previous ← getItem data "previous_event_hash"
      if equalsStr? previous previousHash = false then
        return false
      let hash ← getItem data "event_hash"
      let digest := canonicalSha256 P.sha256 data hashExcluded
      if equalsStr? hash (some digest) = false then
        return false
      verifyFrom P (expectedRevision + 1) (some digest) events

/-- Verify previous-hash links and canonical event hashes. -/
def verifyChain (P : Platform) (store : Store) (evidenceId : String) :
    Except PyError Bool :=
  verifyFrom P 1 none (store.listCustodyEvents evidenceId)

end ApexForensic.Custody
