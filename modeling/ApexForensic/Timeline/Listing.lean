import ApexForensic.Timeline.Model
import ApexForensic.Support.Keyset

/-!
# Listing timeline events

A listing is a query over `timeline_events` in the order of time and event id,
forwards or backwards.  The cursor of a page is a JSON document in a text: the
time and id of the last event of the page, and the order it was read in.
-/

namespace ApexForensic.Timeline

open ApexForensic.Support ApexForensic.Domain

structure Filters where
  caseId : String
  evidenceId : Option String
  sourceTypes : List TimelineSourceType
  eventTypes : List TimelineEventType
  analyzerId : Option String
  keyword : Option String
  path : Option String
  artifactType : Option String
  isPartial : Option Bool
  confidence : Option TimezoneConfidence
  timeFrom : Option Datetime
  timeTo : Option Datetime
  deriving DecidableEq

/-- The arguments of `list_events` but for the cursor. -/
structure ListArgs where
  filters : Filters
  timezone : Option String
  limit : ℤ
  order : String

structure CursorPage where
  nextCursor : Option String
  hasMore : Bool
  returned : ℕ

structure TimelinePage where
  items : List TimelineEvent
  page : CursorPage
  timezone : String

/-- The tables a listing reads: cases with their time zones, and events. -/
structure Store where
  cases : List (String × String)
  events : Table TimelineEvent.timelineEventId

section

variable (P : Platform)

/-- `LIKE` with a text anywhere. -/
def contains (column : String) (text : String) : Bool :=
  like ('%' :: text.toList ++ ['%']) column.toList

def matchesKeyword (keyword : String) (event : TimelineEvent) : Bool :=
  contains event.title keyword || contains event.description keyword ||
    contains (P.jsonText (.obj event.fields)) keyword ||
    (event.pathKey P).any fun path =>
      like (P.casefold (String.ofList
        ('%' :: keyword.toList ++ ['%']))).toList path.toList

/-- The clauses of the query but for those on times and on the cursor. -/
def Filters.selects (filters : Filters) (event : TimelineEvent) : Bool :=
  event.caseId = filters.caseId &&
    (filters.evidenceId.all fun id => event.evidenceId = id) &&
    (filters.sourceTypes.isEmpty || filters.sourceTypes.contains
      event.sourceType) &&
    (filters.eventTypes.isEmpty || filters.eventTypes.contains
      event.eventType) &&
    (filters.analyzerId.all fun id => event.analyzerId = some id) &&
    (filters.artifactType.all fun t => event.artifactTypeText P = some t) &&
    (filters.path.all fun path =>
      (event.pathKey P).any fun key => contains key (P.casefold path)) &&
    (filters.keyword.all fun keyword => matchesKeyword P keyword event) &&
    (filters.isPartial.all fun isPartial => event.isPartial = isPartial) &&
    (filters.confidence.all fun c => event.timezoneConfidence = c)

/-- `normalized_utc >= ?` and `normalized_utc <= ?`. -/
def withinTimes (timeFrom timeTo : Option String) (event : TimelineEvent) :
    Bool :=
  (timeFrom.all fun t => event.utcText.any fun utc => t ≤ utc) &&
    (timeTo.all fun t => event.utcText.any fun utc => utc ≤ t)

/-- `ORDER BY sort_timestamp, timeline_event_id`, in a direction. -/
abbrev eventOrder (descending : Bool) :
    TimelineEvent → TimelineEvent → Prop :=
  inDirection descending
    (orderBy TimelineEvent.sortTimestamp TimelineEvent.timelineEventId)

/-- The clause on the cursor. -/
def follows (descending : Bool) (after : String × String)
    (event : TimelineEvent) : Bool :=
  if descending then
    event.sortTimestamp < after.1 ||
      (event.sortTimestamp = after.1 && event.timelineEventId < after.2)
  else
    after.1 < event.sortTimestamp ||
      (event.sortTimestamp = after.1 && after.2 < event.timelineEventId)

def invalidCursor : PyError :=
  validationError "Invalid timeline cursor." (some "cursor") []

/-- The time that a cursor stands at. -/
def cursorSort (data : Json) : Except PyError String :=
  match data.field? "sort" with
  | some sort => if truthy sort then P.bindText sort else .ok noTimestamp
  | none => .ok noTimestamp

def decodeTimelineCursor (cursor : String) :
    Except PyError (String × String) :=
  match P.cursorJson cursor with
  | some (.obj fields) => do
      let id ← getItem (.obj fields) "timeline_event_id"
      let sort ← cursorSort P (.obj fields)
      return (sort, P.str id)
  | _ => .error invalidCursor

def queryTimelineEvents (events : Table TimelineEvent.timelineEventId)
    (filters : Filters) (order : String) (cursor : Option String)
    (limit : ℕ) : Except PyError (List TimelineEvent) := do
  let timeFrom ← filters.timeFrom.mapM toJsonTimestamp
  let timeTo ← filters.timeTo.mapM toJsonTimestamp
  let after ← cursor.mapM (decodeTimelineCursor P)
  let descending := decide (order = "DESC")
  return ((events.rows.filter fun event =>
      filters.selects P event && withinTimes timeFrom timeTo event &&
        after.all fun after => follows descending after event).insertionSort
    (eventOrder descending)).take limit

def validateTimezone (timezone : String) : Except PyError Unit :=
  match P.zoneInfo timezone with
  | .ok _ => .ok ()
  | .error (.builtin .zoneInfoNotFoundError _) =>
      .error (validationError "Invalid IANA timezone identifier."
        (some "timezone") [])
  | .error error => .error error

def encodeTimelineCursor (order : String) (event : TimelineEvent) : String :=
  P.cursorText (cursorPayload event.utcText event.timelineEventId order)

/-- `timezone or case.timezone`. -/
def selectedTimezone (timezone : Option String) (caseTimezone : String) :
    String :=
  match timezone with
  | none => caseTimezone
  | some "" => caseTimezone
  | some timezone => timezone

def maxTimelineLimit : ℤ := 1000

def requireCase (cases : List (String × String)) (caseId : String) :
    Except PyError String :=
  match cases.find? fun c => c.1 = caseId with
  | some c => .ok c.2
  | none =>
      .error (notFoundError "CASE_NOT_FOUND" "Case not found."
        (some "case_id"))

def listEvents (store : Store) (args : ListArgs) (cursor : Option String) :
    Except PyError TimelinePage := do
  let caseTimezone ← requireCase store.cases args.filters.caseId
  if args.limit < 1 ∨ maxTimelineLimit < args.limit then
    .error (validationError "Limit must be between 1 and 1000."
      (some "limit") [])
  validateTimezone P (selectedTimezone args.timezone caseTimezone)
  let items ← queryTimelineEvents P store.events args.filters
    (P.upper args.order) cursor (args.limit.toNat + 1)
  let hasMore := decide (args.limit.toNat < items.length)
  let returned := items.take args.limit.toNat
  return {
    items := returned
    page := {
      nextCursor :=
        if hasMore then
          returned.getLast?.map (encodeTimelineCursor P (P.upper args.order))
        else none
      hasMore := hasMore
      returned := returned.length }
    timezone := selectedTimezone args.timezone caseTimezone }

end

end ApexForensic.Timeline
