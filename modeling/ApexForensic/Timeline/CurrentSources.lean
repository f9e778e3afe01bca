import ApexForensic.Support.Run
import ApexForensic.FileSystem.Pagination
import ApexForensic.Timeline.Pagination
import ApexForensic.Timeline.Sources

/-!
# The timeline and its current sources

Events are never removed, and the key of an event has the revision of its
source.  A build therefore shows each timestamp of the current sources once as
long as no node that is indexed again brings back, under a new revision, a
timestamp that the timeline already has for it.
-/

namespace ApexForensic.Timeline

open ApexForensic.Support ApexForensic.Domain

variable {a b e event : TimelineEvent} {revision : ℕ}
  {events : Table TimelineEvent.timelineEventId} {row : SourceRow}
  {rows : List SourceRow} {context : BuildContext} {counters : Counters}

variable {P : Platform}

/-! ## Events and the keys they are stored under -/

/-- What the key of a stored event is the digest of. -/
def TimelineEvent.document (event : TimelineEvent) : Json :=
  dedupDocument event.caseId event.evidenceId event.sourceType event.sourceId
    event.sourceRevision event.eventType event.rawTimestamp
    event.normalizedUtc

/-- The key of the event is the digest of what the event says. -/
structure TimelineEvent.Keyed (P : Platform) (event : TimelineEvent) :
    Prop where
  dedupKey : event.dedupKey = canonicalSha256 P.sha256 event.document []
  timelineEventId : event.timelineEventId =
    "timeline-event-" ++ event.dedupKey

/-- The events have the same source and the same timestamp, whatever the
revision of the source. -/
structure SameTimestamp (a b : TimelineEvent) : Prop where
  sourceType : a.sourceType = b.sourceType
  sourceId : a.sourceId = b.sourceId
  eventType : a.eventType = b.eventType
  rawTimestamp : a.rawTimestamp = b.rawTimestamp
  normalizedUtc : a.normalizedUtc = b.normalizedUtc

theorem TimelineSourceType.value_injective :
    Function.Injective TimelineSourceType.value := by
  intro a b h
  cases a <;> cases b <;> first | rfl | exact absurd h (by decide)

def TimelineEventType.all : List TimelineEventType :=
  [.fileCreated, .fileModified, .fileAccessed, .fileMetadataChanged,
    .registryKeyLastWrite, .registryValueObserved, .processExecution, .logon,
    .logoff, .processCreated, .networkConnection, .fileCreatedByProcess,
    .registryModified, .dnsQuery, .serviceInstalled, .eventLogCleared,
    .prefetchLastRun, .mediaCreated, .mediaModified, .mediaCaptured,
    .mediaMetadataTimestamp, .mediaCapturedCandidate,
    .browserProfileObserved, .browserVisit, .browserSearch, .browserDownload,
    .browserDownloadStarted, .browserDownloadCompleted,
    .browserDownloadObserved, .browserCookieObserved,
    .browserCredentialObserved, .browserCacheEntryObserved,
    .browserDeletedSqliteRowCandidate, .browserPrivateModeCandidate,
    .communicationProfileObserved, .communicationAccountObserved,
    .communicationConversationObserved, .communicationMessage,
    .communicationAttachment, .communicationUnsupportedStore, .other]

theorem TimelineEventType.mem_all (t : TimelineEventType) : t ∈ all := by
  cases t <;> decide

theorem TimelineEventType.value_injective :
    Function.Injective TimelineEventType.value := by
  have hnodup : (all.map value).Nodup := by decide +kernel
  intro a b h
  exact List.inj_on_of_nodup_map hnodup (mem_all a) (mem_all b) h

/-- Events with the same document have the same case, source, revision and
timestamp. -/
theorem document_inj
    (h : canonicalJsonBytes a.document [] = canonicalJsonBytes b.document []) :
    SameTimestamp a b ∧ a.sourceRevision = b.sourceRevision ∧
      a.caseId = b.caseId := by
  have hform := canonicalForm_eq_of_bytes_eq h
  have hfield : ∀ (key : String) {v w : Json}, v.isScalar = true →
      w.isScalar = true → a.document.field? key = some v →
      b.document.field? key = some w → v = w := by
    intro key v w hv hw ha hb
    have ha := (field?_canonicalForm_scalar (List.not_mem_nil (a := key))
      hv).mpr ha
    have hb := (field?_canonicalForm_scalar (List.not_mem_nil (a := key))
      hw).mpr hb
    rw [hform, hb] at ha
    exact (Option.some.inj ha).symm
  have hcase := Json.str.inj (hfield "case_id" rfl rfl rfl rfl)
  have htype := Json.str.inj (hfield "source_type" rfl rfl rfl rfl)
  have hid := Json.str.inj (hfield "source_id" rfl rfl rfl rfl)
  have hrevision := Json.int.inj (hfield "source_revision" rfl rfl rfl rfl)
  have hevent := Json.str.inj (hfield "event_type" rfl rfl rfl rfl)
  have hraw := optionalText_inj (hfield "raw_timestamp"
    (isScalar_optionalText _) (isScalar_optionalText _) rfl rfl)
  have hutc := optionalText_inj (hfield "normalized_utc"
    (isScalar_optionalText _) (isScalar_optionalText _) rfl rfl)
  exact ⟨⟨TimelineSourceType.value_injective htype, hid,
    TimelineEventType.value_injective hevent, hraw,
    Option.map_injective Instant.text_injective hutc⟩,
    Int.ofNat_inj.mp hrevision, hcase⟩

/-- Two stored events of one case and evidence with the same source, revision
and timestamp are one event. -/
theorem eq_of_sameTimestamp (ha : a ∈ events.rows) (hb : b ∈ events.rows)
    (hkeyed : a.Keyed P) (hkeyed' : b.Keyed P) (hcase : a.caseId = b.caseId)
    (hevidence : a.evidenceId = b.evidenceId)
    (hrevision : a.sourceRevision = b.sourceRevision) (h : SameTimestamp a b) :
    a = b := by
  have hdocument : a.document = b.document := by
    simp only [TimelineEvent.document, hcase, hevidence, hrevision,
      h.sourceType, h.sourceId, h.eventType, h.rawTimestamp, h.normalizedUtc]
  apply events.row_unique ha hb
  rw [hkeyed.timelineEventId, hkeyed'.timelineEventId, hkeyed.dedupKey,
    hkeyed'.dedupKey, hdocument]

/-! ## The events of a source row -/

variable (P) in
/-- The row has the event among those that a build makes for it. -/
def Projects (context : BuildContext) (row : SourceRow)
    (event : TimelineEvent) : Prop :=
  ∃ events, eventsFromSourceRow P context row = .ok events ∧ event ∈ events

def SourceRow.eventSourceType : SourceRow → TimelineSourceType
  | .node _ => .fileSystemNode
  | .artifact _ row => artifactSourceType row.artifactType

/-- What every event of a row takes from it. -/
structure EventOf (P : Platform) (row : SourceRow) (event : TimelineEvent) :
    Prop where
  keyed : event.Keyed P
  caseId : event.caseId = row.caseId
  evidenceId : event.evidenceId = row.evidenceId
  sourceId : event.sourceId = row.sourceId
  sourceRevision : event.sourceRevision = row.sourceRevision
  sourceType : event.sourceType = row.eventSourceType

theorem eventOf_makeEvent {body : EventBody}
    (h : body.sourceType = row.eventSourceType) :
    EventOf P row (makeEvent P context row body) :=
  ⟨⟨rfl, rfl⟩, rfl, rfl, rfl, rfl, h⟩

theorem Projects.eventOf (h : Projects P context row event) :
    EventOf P row event := by
  obtain ⟨events, hevents, hmem⟩ := h
  cases row with
  | node node =>
      obtain ⟨lists, hlists, hflatten⟩ := bind_ok hevents
      obtain rfl := Except.ok.inj hflatten
      obtain ⟨list, hlist, hmem⟩ := List.mem_flatten.mp hmem
      obtain ⟨timestamp, -, hmade⟩ := exists_of_mem_mapM hlists hlist
      obtain ⟨key, eventType⟩ := timestamp
      unfold fsEvent at hmade
      dsimp only at hmade
      split at hmade
      · obtain rfl := Except.ok.inj hmade
        cases hmem
      · obtain ⟨normalized, -, hmade⟩ := bind_ok hmade
        obtain rfl := Except.ok.inj hmade
        obtain rfl := List.mem_singleton.mp hmem
        exact eventOf_makeEvent rfl
  | artifact sourceType artifact =>
      obtain ⟨made, hmade, hlist⟩ := bind_ok hevents
      obtain rfl := Except.ok.inj hlist
      obtain rfl := List.mem_singleton.mp hmem
      obtain ⟨normalized, -, hmade⟩ := bind_ok hmade
      obtain rfl := Except.ok.inj hmade
      exact eventOf_makeEvent rfl

/-! ## Storing events -/

theorem mem_insertEvent {saved : Table TimelineEvent.timelineEventId × ℕ}
    (h : e ∈ (insertEvent saved event).1.rows) :
    e ∈ saved.1.rows ∨ e = event := by
  unfold insertEvent at h
  split at h
  · exact Or.inl h
  · split at h
    · rename_i events hinsert
      rw [(Table.insert_eq_some_iff.mp hinsert).2, List.mem_append,
        List.mem_singleton] at h
      exact h
    · exact Or.inl h

/-- An insert keeps the stored events, and one of them has the id or the key
of the new one. -/
theorem insertEvent_stored (saved : Table TimelineEvent.timelineEventId × ℕ)
    (event : TimelineEvent) :
    (∀ e ∈ saved.1.rows, e ∈ (insertEvent saved event).1.rows) ∧
      ∃ e ∈ (insertEvent saved event).1.rows,
        e.dedupKey = event.dedupKey ∨
          e.timelineEventId = event.timelineEventId := by
  unfold insertEvent
  split
  · rename_i hstored
    obtain ⟨e, he, hkey⟩ := List.any_eq_true.mp hstored
    exact ⟨fun e he => he, e, he, Or.inl (by simpa using hkey)⟩
  · split
    · rename_i events hinsert
      rw [(Table.insert_eq_some_iff.mp hinsert).2]
      exact ⟨fun e he => List.mem_append_left _ he, event, by simp, Or.inl rfl⟩
    · rename_i hinsert
      have htaken : event.timelineEventId ∈
          saved.1.rows.map TimelineEvent.timelineEventId := by
        by_contra hfree
        simp [Table.insert, hfree] at hinsert
      obtain ⟨e, he, hid⟩ := List.mem_map.mp htaken
      exact ⟨fun e he => he, e, he, Or.inr hid⟩

theorem saveTimelineEvents_stored (new : List TimelineEvent) :
    ∀ saved : Table TimelineEvent.timelineEventId × ℕ,
      (∀ e ∈ saved.1.rows, e ∈ (new.foldl insertEvent saved).1.rows) ∧
      (∀ e ∈ (new.foldl insertEvent saved).1.rows,
        e ∈ saved.1.rows ∨ e ∈ new) ∧
      ∀ event ∈ new, ∃ e ∈ (new.foldl insertEvent saved).1.rows,
        e.dedupKey = event.dedupKey ∨
          e.timelineEventId = event.timelineEventId := by
  induction new with
  | nil =>
      intro saved
      exact ⟨fun e he => he, fun e he => Or.inl he, fun e he => by cases he⟩
  | cons event new ih =>
      intro saved
      obtain ⟨hkeep, hnew, hstored⟩ := ih (insertEvent saved event)
      obtain ⟨hkeep', hstored'⟩ := insertEvent_stored saved event
      rw [List.foldl_cons]
      refine ⟨fun e he => hkeep e (hkeep' e he), fun e he => ?_, ?_⟩
      · rcases hnew e he with he | he
        · rcases mem_insertEvent he with he | rfl
          · exact Or.inl he
          · exact Or.inr List.mem_cons_self
        · exact Or.inr (List.mem_cons_of_mem _ he)
      · intro e he
        rcases List.mem_cons.mp he with rfl | he
        · obtain ⟨e', he', hkey⟩ := hstored'
          exact ⟨e', hkeep e' he', hkey⟩
        · exact hstored e he

/-! ## A build -/

theorem buildBatch_ok
    (h : (buildBatch P context events counters rows).error = none) :
    ∃ projected, rows.mapM (eventsFromSourceRow P context) = .ok projected ∧
      (buildBatch P context events counters rows).store =
        (projected.flatten.foldl insertEvent (events, 0)).1 := by
  unfold buildBatch at h ⊢
  split at h
  · cases h
  · rename_i projected hprojected
    exact ⟨projected, hprojected, rfl⟩

theorem buildBatch_error
    (h : (buildBatch P context events counters rows).error ≠ none) :
    (buildBatch P context events counters rows).store = events := by
  unfold buildBatch at h ⊢
  split
  · rfl
  · rename_i projected hprojected
    rw [hprojected] at h
    exact absurd rfl h

variable (P) in
/-- Every event of the rows is stored, or another one under its key. -/
def Stored (context : BuildContext) (rows : List SourceRow)
    (events : Table TimelineEvent.timelineEventId) : Prop :=
  ∀ row ∈ rows, ∃ made, eventsFromSourceRow P context row = .ok made ∧
    ∀ event ∈ made, ∃ e ∈ events.rows, e.dedupKey = event.dedupKey ∨
      e.timelineEventId = event.timelineEventId

theorem Stored.buildBatch {done : List SourceRow}
    (hdone : Stored P context done events)
    (h : (buildBatch P context events counters rows).error = none) :
    Stored P context (done ++ rows)
      (Timeline.buildBatch P context events counters rows).store := by
  obtain ⟨projected, hprojected, hstore⟩ := buildBatch_ok h
  obtain ⟨hkeep, -, hstored⟩ := saveTimelineEvents_stored
    projected.flatten (events, 0)
  rw [hstore]
  intro row hrow
  rcases List.mem_append.mp hrow with hrow | hrow
  · obtain ⟨made, hmade, hfound⟩ := hdone row hrow
    refine ⟨made, hmade, fun event hevent => ?_⟩
    obtain ⟨e, he, hkey⟩ := hfound event hevent
    exact ⟨e, hkeep e he, hkey⟩
  · obtain ⟨made, hmem, hmade⟩ :=
      exists_ok_of_mem_mapM hprojected hrow
    exact ⟨made, hmade, fun event hevent =>
      hstored event (List.mem_flatten_of_mem hmem hevent)⟩

/-! ## A whole build -/

variable {store store' : CaseStore} {args : BuildArgs}
  {signal : ℕ → Option Interrupt} {result : Except PyError JobEnd}

variable (store) in
/-- The rows that a build reads. -/
def BuildArgs.sources (args : BuildArgs) : List SourceRow :=
  timelineSources store args.caseId args.evidenceId args.sourceTypes

variable (store args) in
theorem length_sources_lt : (args.sources store).length < store.turns := by
  have hlength : ∀ t, (rowsOf store args.caseId args.evidenceId t).length ≤
      if t = .fileSystemNode then store.nodes.rows.length
      else store.artifacts.rows.length := by
    intro t
    cases t with
    | fileSystemNode =>
        simp only [rowsOf, List.length_map, List.length_insertionSort]
        exact List.length_filter_le _ _
    | _ =>
        simp only [rowsOf, List.length_map, List.length_insertionSort]
        exact List.length_filter_le _ _
  have hsublist : (args.sources store).Sublist
      (sortedSourceTypes.flatMap
        (rowsOf store args.caseId args.evidenceId)) :=
    List.filter_sublist.flatMap _
  refine hsublist.length_le.trans_lt ?_
  simp only [sortedSourceTypes, List.flatMap_cons, List.flatMap_nil,
    List.append_nil, List.length_append, CaseStore.turns]
  have h₁ := hlength .browserArtifact
  have h₂ := hlength .communicationArtifact
  have h₃ := hlength .eventLogArtifact
  have h₄ := hlength .fileSystemNode
  have h₅ := hlength .mediaArtifact
  have h₆ := hlength .prefetchArtifact
  have h₇ := hlength .registryArtifact
  simp only [reduceCtorEq, if_false, if_true] at h₁ h₂ h₃ h₄ h₅ h₆ h₇
  omega

theorem timelineJob_fetch (caseTimezone : String) :
    ∀ c xs, StandsAfter (timelineJob P store args caseTimezone).position
        (args.sources store) c xs →
      ∀ n, (timelineJob P store args caseTimezone).fetch c n = xs.take n :=
  fun _ _ hstands n => iterTimelineSourceRows_eq hstands n

theorem build_cases (h : build P store args signal = (store', result)) :
    (store' = store ∧ ∃ error, result = .error error) ∨
    ∃ caseTimezone s, requireCase store.cases args.caseId = .ok caseTimezone ∧
      0 < args.batchSize ∧
      (timelineJob P store args caseTimezone).runLoop args.itemBudget signal
        store.turns (startState store.events) = some (s, result) ∧
      store' = { store with events := s.store } := by
  unfold build at h
  split at h
  · obtain ⟨rfl, rfl⟩ := Prod.mk.inj h
    exact Or.inl ⟨rfl, _, rfl⟩
  · rename_i caseTimezone hcase
    split at h
    · obtain ⟨rfl, rfl⟩ := Prod.mk.inj h
      exact Or.inl ⟨rfl, _, rfl⟩
    · rename_i hsize
      split at h
      · rename_i s _ hrun
        obtain ⟨rfl, rfl⟩ := Prod.mk.inj h
        exact Or.inr ⟨caseTimezone, s, hcase, by omega, hrun, rfl⟩
      · rename_i hnone
        have hstart : StandsAfter SourceRow.position (args.sources store)
            (startState store.events).after (args.sources store) := rfl
        have hsome : ((timelineJob P store args caseTimezone).runLoop
            args.itemBudget signal store.turns
              (startState store.events)).isSome = true :=
          BatchJob.runLoop_isSome (timelineJob_fetch caseTimezone)
            (List.nil_append _).symm hstart (length_sources_lt store args)
        rw [hnone] at hsome
        cases hsome

theorem stored_of_build
    (h : build P store args signal = (store', .ok .succeeded)) :
    ∃ caseTimezone, requireCase store.cases args.caseId = .ok caseTimezone ∧
      Stored P (args.context caseTimezone) (args.sources store)
        store'.events := by
  rcases build_cases h with
    ⟨-, error, hend⟩ | ⟨caseTimezone, s, hcase, hsize, hrun, rfl⟩
  · cases hend
  have hstart : StandsAfter SourceRow.position (args.sources store)
      (startState store.events).after (args.sources store) := rfl
  have hnothing : Stored P (args.context caseTimezone) []
      (startState store.events).store := by
    intro row hrow
    cases hrow
  refine ⟨caseTimezone, hcase, ?_⟩
  exact BatchJob.runLoop_succeeded hsize (timelineJob_fetch caseTimezone)
    (fun done rows events counters hdone hnone => hdone.buildBatch hnone)
    (List.nil_append _).symm hstart hnothing hrun

/-! ## What the store records of its sources -/

def CaseStore.Has (store : CaseStore) : SourceRow → Prop
  | .node row => row ∈ store.nodes.rows
  | .artifact _ row => row ∈ store.artifacts.rows

theorem has_of_mem_sources (h : row ∈ args.sources store) :
    store.Has row ∧ row.caseId = args.caseId := by
  obtain ⟨t, -, h⟩ := List.mem_flatMap.mp h
  obtain ⟨-, hcase, -, hrow⟩ := mem_rowsOf.mp h
  cases row with
  | node row => exact ⟨hrow, hcase⟩
  | artifact t row => exact ⟨hrow.1, hcase⟩

/-- Every event has a stored source.  An artifact has the revision of its
events; a node has the revision of those that show a timestamp it still
has. -/
structure Recorded (P : Platform) (store : CaseStore) : Prop where
  keyed : ∀ e ∈ store.events.rows, e.Keyed P
  ofNode : ∀ e ∈ store.events.rows, e.sourceType = .fileSystemNode →
    ∃ row ∈ store.nodes.rows, row.nodeId = e.sourceId ∧
      row.caseId = e.caseId ∧ row.evidenceId = e.evidenceId
  ofArtifact : ∀ e ∈ store.events.rows, e.sourceType ≠ .fileSystemNode →
    ∃ row ∈ store.artifacts.rows, row.artifactId = e.sourceId ∧
      row.caseId = e.caseId ∧ row.evidenceId = e.evidenceId ∧
      row.indexRevision = e.sourceRevision
  current : ∀ e ∈ store.events.rows, ∀ row ∈ store.nodes.rows,
    ∀ context p, Projects P context (.node row) p → SameTimestamp e p →
      e.sourceRevision = row.indexRevision

theorem artifactSourceType_ne (t : ArtifactType) :
    artifactSourceType t ≠ .fileSystemNode := by
  cases t <;> decide

theorem Recorded.addEvents (h : Recorded P store)
    (hnew : ∀ e ∈ events.rows, e ∈ store.events.rows ∨
      ∃ context row, store.Has row ∧ Projects P context row e) :
    Recorded P { store with events := events } := by
  constructor
  · intro e he
    rcases hnew e he with he | ⟨context, row, -, hprojects⟩
    · exact h.keyed e he
    · exact hprojects.eventOf.keyed
  · intro e he htype
    rcases hnew e he with he | ⟨context, row, hrow, hprojects⟩
    · exact h.ofNode e he htype
    · have hof := hprojects.eventOf
      cases row with
      | node row =>
          exact ⟨row, hrow, hof.sourceId.symm, hof.caseId.symm,
            hof.evidenceId.symm⟩
      | artifact t row =>
          rw [hof.sourceType] at htype
          exact absurd htype (artifactSourceType_ne _)
  · intro e he htype
    rcases hnew e he with he | ⟨context, row, hrow, hprojects⟩
    · exact h.ofArtifact e he htype
    · have hof := hprojects.eventOf
      cases row with
      | node row => exact absurd hof.sourceType htype
      | artifact t row =>
          exact ⟨row, hrow, hof.sourceId.symm, hof.caseId.symm,
            hof.evidenceId.symm, hof.sourceRevision.symm⟩
  · intro e he node hnode context p hp hsame
    rcases hnew e he with he | ⟨context, row, hrow, hprojects⟩
    · exact h.current e he node hnode context p hp hsame
    · have hof := hprojects.eventOf
      have hof' := hp.eventOf
      cases row with
      | node row =>
          have hid : row.nodeId = node.nodeId := by
            have := hsame.sourceId
            rwa [hof.sourceId, hof'.sourceId] at this
          obtain rfl := store.nodes.row_unique hrow hnode hid
          exact hof.sourceRevision
      | artifact t row =>
          have htype := hsame.sourceType
          rw [hof.sourceType, hof'.sourceType] at htype
          exact absurd htype (artifactSourceType_ne _)

/-- The events that a build leaves were stored before it, or are those of
stored rows. -/
theorem mem_of_build {args : BuildArgs} {signal : ℕ → Option Interrupt}
    (he : e ∈ (build P store args signal).1.events.rows) :
    e ∈ store.events.rows ∨
      ∃ context row, store.Has row ∧ Projects P context row e := by
  rcases build_cases (Prod.eta (build P store args signal)).symm with
    ⟨hstore, -⟩ | ⟨caseTimezone, s, -, -, hrun, hstore⟩
  · rw [hstore] at he
    exact Or.inl he
  · rw [hstore] at he
    have hkept : ∀ events counters c n,
        (∀ e ∈ events.rows, e ∈ store.events.rows ∨
          ∃ context row, store.Has row ∧ Projects P context row e) →
        ∀ e ∈ ((timelineJob P store args caseTimezone).batch events counters
            ((timelineJob P store args caseTimezone).fetch c n)).store.rows,
          e ∈ store.events.rows ∨
            ∃ context row, store.Has row ∧ Projects P context row e := by
      intro events counters c n hevents e he
      change e ∈ (buildBatch P (args.context caseTimezone) events counters
        ((timelineJob P store args caseTimezone).fetch c n)).store.rows at he
      by_cases hnone : (buildBatch P (args.context caseTimezone) events
          counters ((timelineJob P store args caseTimezone).fetch c n)).error =
            none
      · obtain ⟨projected, hprojected, hsaved⟩ := buildBatch_ok hnone
        rw [hsaved] at he
        rcases (saveTimelineEvents_stored projected.flatten
          (events, 0)).2.1 e he with he | he
        · exact hevents e he
        · obtain ⟨made, hmade, he⟩ := List.mem_flatten.mp he
          obtain ⟨row, hrow, hrowmade⟩ := exists_of_mem_mapM hprojected hmade
          refine Or.inr ⟨_, row, ?_, made, hrowmade, he⟩
          exact (has_of_mem_sources (mem_timelineSources_of_mem_iter hrow)).1
      · rw [buildBatch_error hnone] at he
        exact hevents e he
    exact BatchJob.runLoop_store hkept (fun e he => Or.inl he) hrun e he

theorem build_nodes (args : BuildArgs) (signal : ℕ → Option Interrupt) :
    (build P store args signal).1.nodes = store.nodes ∧
      (build P store args signal).1.cases = store.cases := by
  rcases build_cases (Prod.eta (build P store args signal)).symm with
    ⟨hstore, -⟩ | ⟨_, _, -, -, -, hstore⟩
  · rw [hstore]
    exact ⟨rfl, rfl⟩
  · rw [hstore]
    exact ⟨rfl, rfl⟩

theorem Recorded.build (h : Recorded P store) (args : BuildArgs)
    (signal : ℕ → Option Interrupt) :
    Recorded P (Timeline.build P store args signal).1 := by
  have hrecorded := h.addEvents
    fun e (he : e ∈ (Timeline.build P store args signal).1.events.rows) =>
      mem_of_build he
  rcases build_cases (Prod.eta (Timeline.build P store args signal)).symm with
    ⟨hstore, -⟩ | ⟨_, _, -, -, -, hstore⟩
  · rwa [hstore]
  · rw [hstore] at hrecorded ⊢
    exact hrecorded

/-! ## Runs of the three services -/

/-- What changes the sources and the timeline: a node that an index run
stores, artifacts that an analysis run stores, and a build. -/
inductive CaseOp where
  | upsertFsNode (node : NodeRow)
  | saveArtifacts (rows : List ArtifactRow)
  | build (args : BuildArgs) (signal : ℕ → Option Interrupt)

variable (P) in
/-- One operation; one that raises leaves what it has committed. -/
def step (store : CaseStore) : CaseOp → CaseStore
  | .upsertFsNode node =>
      match upsertFsNode store.nodes node with
      | .ok nodes => { store with nodes := nodes }
      | .error _ => store
  | .saveArtifacts rows =>
      { store with artifacts := saveArtifacts store.artifacts rows }
  | .build args signal => (build P store args signal).1

variable (P) in
/-- A node that is indexed again under another revision has no timestamp that
the timeline already shows for it. -/
def BringsNewTimestamps (store : CaseStore) : CaseOp → Prop
  | .upsertFsNode node =>
      ∀ old ∈ store.nodes.rows, old.pathKey = node.pathKey →
        ∀ e ∈ store.events.rows, ∀ context p,
          Projects P context (.node (old.excluded node)) p →
          SameTimestamp e p → e.sourceRevision = node.indexRevision
  | _ => True

/-- A case whose tables are empty. -/
def noSources (cases : List (String × String)) : CaseStore where
  cases := cases
  events := Table.empty _
  nodes := Table.empty _
  artifacts := Table.empty _

theorem recorded_noSources (cases : List (String × String)) :
    Recorded P (noSources cases) where
  keyed e he := by cases he
  ofNode e he := by cases he
  ofArtifact e he := by cases he
  current e he := by cases he

theorem Recorded.upsertFsNode (h : Recorded P store) {node : NodeRow}
    (hnew : BringsNewTimestamps P store (.upsertFsNode node))
    {nodes : Table NodeRow.key}
    (hnodes : Timeline.upsertFsNode store.nodes node = .ok nodes) :
    Recorded P { store with nodes := nodes } := by
  unfold Timeline.upsertFsNode at hnodes
  split at hnodes
  · obtain rfl := Except.ok.inj hnodes
    refine ⟨h.keyed, ?_, h.ofArtifact, ?_⟩
    · intro e he htype
      obtain ⟨row, hrow, hid, hcase, hevidence⟩ := h.ofNode e he htype
      refine ⟨_, List.mem_map_of_mem hrow, ?_⟩
      split
      · exact ⟨hid, hcase, hevidence⟩
      · exact ⟨hid, hcase, hevidence⟩
    · intro e he row hrow context p hp hsame
      obtain ⟨old, hold, rfl⟩ := List.mem_map.mp hrow
      by_cases hpath : old.pathKey = node.pathKey
      · rw [if_pos (by simpa using hpath)] at hp ⊢
        exact hnew old hold hpath e he context p hp hsame
      · rw [if_neg (by simpa using hpath)] at hp ⊢
        exact h.current e he old hold context p hp hsame
  · split at hnodes
    · rename_i inserted hinsert
      obtain rfl := Except.ok.inj hnodes
      obtain ⟨hfresh, hrows⟩ := Table.insert_eq_some_iff.mp hinsert
      refine ⟨h.keyed, ?_, h.ofArtifact, ?_⟩
      · intro e he htype
        obtain ⟨row, hrow, hrest⟩ := h.ofNode e he htype
        exact ⟨row, by rw [hrows]; exact List.mem_append_left _ hrow, hrest⟩
      · intro e he row hrow context p hp hsame
        rw [hrows, List.mem_append, List.mem_singleton] at hrow
        rcases hrow with hrow | rfl
        · exact h.current e he row hrow context p hp hsame
        · have hof := hp.eventOf
          have htype : e.sourceType = .fileSystemNode := by
            rw [hsame.sourceType, hof.sourceType]
            rfl
          obtain ⟨old, hold, hid, -⟩ := h.ofNode e he htype
          refine absurd ?_ hfresh
          refine List.mem_map.mpr ⟨old, hold, ?_⟩
          change old.nodeId = row.nodeId
          rw [hid, hsame.sourceId, hof.sourceId]
          rfl
    · cases hnodes

theorem mem_saveArtifacts {artifacts : Table ArtifactRow.artifactId}
    {row : ArtifactRow} (h : row ∈ artifacts.rows) (rows : List ArtifactRow) :
    row ∈ (saveArtifacts artifacts rows).rows := by
  unfold saveArtifacts
  induction rows generalizing artifacts with
  | nil => exact h
  | cons new rows ih =>
      apply ih
      unfold insertArtifact
      split
      · exact h
      · cases hinsert : artifacts.insert new with
        | none => exact h
        | some inserted =>
            rw [Option.getD_some, (Table.insert_eq_some_iff.mp hinsert).2]
            exact List.mem_append_left _ h

theorem Recorded.saveArtifacts (h : Recorded P store)
    (rows : List ArtifactRow) :
    Recorded P { store with
      artifacts := Timeline.saveArtifacts store.artifacts rows } := by
  refine ⟨h.keyed, h.ofNode, fun e he htype => ?_, h.current⟩
  obtain ⟨row, hrow, hrest⟩ := h.ofArtifact e he htype
  exact ⟨row, mem_saveArtifacts hrow rows, hrest⟩

theorem Recorded.step (h : Recorded P store) {op : CaseOp}
    (hnew : BringsNewTimestamps P store op) :
    Recorded P (Timeline.step P store op) := by
  cases op with
  | upsertFsNode node =>
      unfold Timeline.step
      dsimp only
      split
      · rename_i nodes hnodes
        exact h.upsertFsNode hnew hnodes
      · exact h
  | saveArtifacts rows => exact h.saveArtifacts rows
  | build args signal => exact h.build args signal

/-! ## The timeline after a build -/

/-- The listing of a whole case. -/
def wholeTimeline (caseId : String) : ListArgs where
  filters := {
    caseId := caseId
    evidenceId := none
    sourceTypes := []
    eventTypes := []
    analyzerId := none
    keyword := none
    path := none
    artifactType := none
    isPartial := none
    confidence := none
    timeFrom := none
    timeTo := none }
  timezone := none
  limit := 1000
  order := "ASC"

theorem mem_wholeTimeline {store : Store} {caseId : String} :
    event ∈ matching P store (wholeTimeline caseId) ↔
      event ∈ store.events.rows ∧ event.caseId = caseId := by
  simp only [matching, wholeTimeline, Filters.selects, withinTimes, boundText,
    List.mem_insertionSort, List.mem_filter, Option.all_none, Bool.and_true,
    Option.bind_none, List.isEmpty_nil, Bool.true_or]
  exact and_congr_right fun _ => decide_eq_true_iff

/-- The build reads the rows of every source type and evidence of its case. -/
def BuildArgs.OverAllSources (args : BuildArgs) : Prop :=
  args.evidenceId = none ∧ selectedTypes args.sourceTypes = sortedSourceTypes

/-- The timeline of the case lists, for each of its current source rows and
each timestamp of the row, exactly one event of that source and timestamp, and
it has the current revision. -/
def ReflectsSources (P : Platform) (store : CaseStore)
    (context : BuildContext) (caseId : String) : Prop :=
  ∀ row ∈ timelineSources store caseId none [],
    ∃ events, eventsFromSourceRow P context row = .ok events ∧
      ∀ event ∈ events,
        ∃ e ∈ matching P store.toStore (wholeTimeline caseId),
          SameTimestamp e event ∧ e.sourceRevision = row.sourceRevision ∧
            ∀ e' ∈ matching P store.toStore (wholeTimeline caseId),
              SameTimestamp e' event → e' = e

/-- The digest tells the stored events from those of the current sources. -/
def CollisionFree (P : Platform) (store : CaseStore) (caseId : String) :
    Prop :=
  ∀ e ∈ store.events.rows, ∀ row ∈ timelineSources store caseId none [],
    ∀ context event, Projects P context row event →
      P.sha256 (canonicalJsonBytes e.document []) =
        P.sha256 (canonicalJsonBytes event.document []) →
      canonicalJsonBytes e.document [] = canonicalJsonBytes event.document []

theorem sources_eq_of_overAll (hall : args.OverAllSources) :
    args.sources store = timelineSources store args.caseId none [] := by
  rw [BuildArgs.sources, timelineSources, timelineSources, hall.1, hall.2]
  rfl

/-- A stored event under the key or the id of an event of a current source is
one of the same case, source, revision and timestamp. -/
theorem sameTimestamp_of_stored {caseId : String}
    (hkeyed : ∀ e ∈ store.events.rows, e.Keyed P)
    (hfree : CollisionFree P store caseId)
    (hrow : row ∈ timelineSources store caseId none [])
    (hprojects : Projects P context row event) (he : e ∈ store.events.rows)
    (hkey : e.dedupKey = event.dedupKey ∨
      e.timelineEventId = event.timelineEventId) :
    SameTimestamp e event ∧ e.sourceRevision = row.sourceRevision ∧
      e.caseId = row.caseId := by
  have hkeyed := hkeyed e he
  have hof := hprojects.eventOf
  have hkey : e.dedupKey = event.dedupKey := by
    rcases hkey with hkey | hid
    · exact hkey
    · rw [hkeyed.timelineEventId, hof.keyed.timelineEventId] at hid
      exact String.append_right_inj _ |>.mp hid
  rw [hkeyed.dedupKey, hof.keyed.dedupKey] at hkey
  have hdocument := document_inj
    (hfree e he row hrow context event hprojects hkey)
  exact ⟨hdocument.1, hdocument.2.1.trans hof.sourceRevision,
    hdocument.2.2.trans hof.caseId⟩

/-- An event of the timestamp of a current source has the case, the evidence
and the revision of the source. -/
theorem Recorded.source_eq (h : Recorded P store) (hrow : store.Has row)
    (hprojects : Projects P context row event) (he : e ∈ store.events.rows)
    (hsame : SameTimestamp e event) :
    e.caseId = row.caseId ∧ e.evidenceId = row.evidenceId ∧
      e.sourceRevision = row.sourceRevision := by
  have hof := hprojects.eventOf
  have hid : e.sourceId = row.sourceId := hsame.sourceId.trans hof.sourceId
  have htype : e.sourceType = row.eventSourceType :=
    hsame.sourceType.trans hof.sourceType
  cases row with
  | node row =>
      obtain ⟨row', hrow', hid', hcase, hevidence⟩ := h.ofNode e he htype
      obtain rfl := store.nodes.row_unique hrow' hrow (hid'.trans hid)
      exact ⟨hcase.symm, hevidence.symm,
        h.current e he row' hrow context event hprojects hsame⟩
  | artifact t row =>
      have hne : e.sourceType ≠ .fileSystemNode := by
        rw [htype]
        exact artifactSourceType_ne _
      obtain ⟨row', hrow', hid', hcase, hevidence, hrevision⟩ :=
        h.ofArtifact e he hne
      obtain rfl := store.artifacts.row_unique hrow' hrow (hid'.trans hid)
      exact ⟨hcase.symm, hevidence.symm, hrevision.symm⟩

/-- As long as no node that is indexed again brings back a timestamp that the
timeline shows for it, a build over all sources that succeeded leaves exactly
one event for each timestamp of each current source. -/
theorem timeline_reflects_sources {cases : List (String × String)}
    {ops : List CaseOp}
    (hops : StepsMeet (step P) (BringsNewTimestamps P) (noSources cases) ops)
    (hall : args.OverAllSources)
    (hbuild : build P (run (step P) (noSources cases) ops) args signal =
      (store', .ok .succeeded))
    (hfree : CollisionFree P store' args.caseId) :
    ∃ caseTimezone, requireCase store'.cases args.caseId = .ok caseTimezone ∧
      ReflectsSources P store' (args.context caseTimezone) args.caseId := by
  have hrecorded : Recorded P (run (step P) (noSources cases) ops) :=
    run_invariant_of_stepsMeet (fun _ _ h hnew => h.step hnew)
      (recorded_noSources cases) hops
  have hrecorded' : Recorded P store' := by
    have h := hrecorded.build args signal
    rwa [hbuild] at h
  obtain ⟨caseTimezone, hcase, hstored⟩ := stored_of_build hbuild
  obtain ⟨hcases, hsources⟩ : store'.cases =
      (run (step P) (noSources cases) ops).cases ∧
      args.sources store' =
        args.sources (run (step P) (noSources cases) ops) := by
    rcases build_cases hbuild with ⟨-, _, h⟩ | ⟨_, _, -, -, -, rfl⟩
    · cases h
    · exact ⟨rfl, rfl⟩
  rw [← hsources, sources_eq_of_overAll hall] at hstored
  refine ⟨caseTimezone, by rw [hcases, hcase], fun row hrow => ?_⟩
  obtain ⟨made, hmade, hfound⟩ := hstored row hrow
  obtain ⟨hhas, hrowcase⟩ : store'.Has row ∧ row.caseId = args.caseId := by
    apply has_of_mem_sources
    rwa [sources_eq_of_overAll hall]
  refine ⟨made, hmade, fun event hevent => ?_⟩
  have hprojects : Projects P (args.context caseTimezone) row event :=
    ⟨made, hmade, hevent⟩
  obtain ⟨e, he, hkey⟩ := hfound event hevent
  obtain ⟨hsame, hrevision, hecase⟩ :=
    sameTimestamp_of_stored hrecorded'.keyed hfree hrow hprojects he hkey
  obtain ⟨-, heevidence, -⟩ := hrecorded'.source_eq hhas hprojects he hsame
  refine ⟨e, mem_wholeTimeline.mpr ⟨he, hecase.trans hrowcase⟩, hsame,
    hrevision, fun e' he' hsame' => ?_⟩
  have he' := (mem_wholeTimeline.mp he').1
  obtain ⟨hecase', heevidence', hrevision'⟩ :=
    hrecorded'.source_eq hhas hprojects he' hsame'
  apply eq_of_sameTimestamp he' he (hrecorded'.keyed e' he')
    (hrecorded'.keyed e he)
  · rw [hecase', hecase]
  · rw [heevidence', heevidence]
  · rw [hrevision', hrevision]
  · exact ⟨hsame'.sourceType.trans hsame.sourceType.symm,
      hsame'.sourceId.trans hsame.sourceId.symm,
      hsame'.eventType.trans hsame.eventType.symm,
      hsame'.rawTimestamp.trans hsame.rawTimestamp.symm,
      hsame'.normalizedUtc.trans hsame.normalizedUtc.symm⟩

/-! ## A file that is indexed twice -/

theorem utcPlatform_sha256_injective :
    Function.Injective utcPlatform.sha256 :=
  FileSystem.jsonTextPlatform_sha256_injective

theorem collisionFree_utcPlatform (store : CaseStore) (caseId : String) :
    CollisionFree utcPlatform store caseId :=
  fun _ _ _ _ _ _ _ h => utcPlatform_sha256_injective h

/-- A file with a modification time, as the index run of a revision stores
it. -/
def indexedFile (revision : ℕ) : NodeRow where
  nodeId := "node"
  caseId := "case"
  evidenceId := "evidence"
  providerId := "logical"
  providerVersion := "1"
  parentNodeId := none
  originalName := "a.txt"
  originalRelativePath := "a.txt"
  displayPath := "a.txt"
  comparisonPath := "a.txt"
  nodeType := .file
  fileSize := some 1
  extension := some "txt"
  isDeleted := false
  isReadable := true
  isLink := false
  isTraversed := false
  indexRevision := revision
  createdAt := "t"
  updatedAt := "t"
  platform := "linux"
  rawTimestamps := []
  utcTimestamps := [("modified", some ⟨1709210096789012, by omega⟩)]
  timestampMeanings := []
  timestampSources := []
  rawLocator := .obj []
  isPartial := false

def wholeBuild : BuildArgs where
  caseId := "case"
  evidenceId := none
  sourceTypes := []
  itemBudget := none
  batchSize := 100
  timelineRevision := 1
  now := "t"

theorem wholeBuild_overAllSources : wholeBuild.OverAllSources :=
  ⟨rfl, by decide⟩

/-- Nothing interrupts a build. -/
def noSignal : ℕ → Option Interrupt := fun _ => none

/-- The file indexed once. -/
noncomputable def indexedOnce : CaseStore :=
  run (step utcPlatform) (noSources [("case", "UTC")])
    [.upsertFsNode (indexedFile 1)]

theorem build_indexedOnce :
    (build utcPlatform indexedOnce wholeBuild noSignal).2 = .ok .succeeded :=
  eq_ok_of_toOption (by decide +kernel)

theorem timeline_reflects_indexedOnce :
    ∃ caseTimezone, requireCase [("case", "UTC")] "case" = .ok caseTimezone ∧
      ReflectsSources utcPlatform
        (build utcPlatform indexedOnce wholeBuild noSignal).1
        (wholeBuild.context caseTimezone) "case" := by
  have hops : StepsMeet (step utcPlatform) (BringsNewTimestamps utcPlatform)
      (noSources [("case", "UTC")]) [.upsertFsNode (indexedFile 1)] :=
    ⟨fun _ hold => absurd hold List.not_mem_nil, trivial⟩
  exact timeline_reflects_sources hops wholeBuild_overAllSources
    (Prod.ext rfl build_indexedOnce) (collisionFree_utcPlatform _ _)

/-- The file indexed again without a change after a build. -/
noncomputable def indexedTwice : CaseStore :=
  run (step utcPlatform) (noSources [("case", "UTC")])
    [.upsertFsNode (indexedFile 1), .build wholeBuild noSignal,
      .upsertFsNode (indexedFile 2)]

theorem build_indexedTwice :
    (build utcPlatform indexedTwice wholeBuild noSignal).2 =
      .ok .succeeded :=
  eq_ok_of_toOption (by decide +kernel)

theorem indexedTwice_eq :
    ∃ nodes : Table NodeRow.key, indexedFile 2 ∈ nodes.rows ∧
      indexedTwice = { (build utcPlatform indexedOnce wholeBuild noSignal).1
        with nodes := nodes } := by
  obtain ⟨nodes, hnodes, hmem⟩ : ∃ nodes : Table NodeRow.key,
      upsertFsNode indexedOnce.nodes (indexedFile 2) = .ok nodes ∧
        indexedFile 2 ∈ nodes.rows :=
    ⟨_, rfl, List.mem_singleton_self _⟩
  rw [← (build_nodes (P := utcPlatform) wholeBuild noSignal).1] at hnodes
  refine ⟨nodes, hmem, ?_⟩
  change step utcPlatform
    (build utcPlatform indexedOnce wholeBuild noSignal).1
    (.upsertFsNode (indexedFile 2)) = _
  simp only [step, hnodes]

theorem mem_build (he : e ∈ store.events.rows) (args : BuildArgs)
    (signal : ℕ → Option Interrupt) :
    e ∈ (build P store args signal).1.events.rows := by
  rcases build_cases (Prod.eta (build P store args signal)).symm with
    ⟨hstore, -⟩ | ⟨caseTimezone, s, -, -, hrun, hstore⟩
  · rwa [hstore]
  · have hkept : ∀ events counters c n, e ∈ events.rows →
        e ∈ ((timelineJob P store args caseTimezone).batch events counters
          ((timelineJob P store args caseTimezone).fetch c n)).store.rows := by
      intro events counters c n hevents
      change e ∈ (buildBatch P (args.context caseTimezone) events counters
        ((timelineJob P store args caseTimezone).fetch c n)).store.rows
      by_cases hnone : (buildBatch P (args.context caseTimezone) events
          counters ((timelineJob P store args caseTimezone).fetch c n)).error =
            none
      · obtain ⟨projected, -, hsaved⟩ := buildBatch_ok hnone
        rw [hsaved]
        exact (saveTimelineEvents_stored projected.flatten
          (events, 0)).1 e hevents
      · rwa [buildBatch_error hnone]
    rw [hstore]
    exact BatchJob.runLoop_store hkept he hrun

theorem events_indexedFile (revision : ℕ) :
    ∃ event, eventsFromSourceRow utcPlatform (wholeBuild.context "UTC")
        (.node (indexedFile revision)) = .ok [event] ∧
      event.eventType = .fileModified ∧ event.rawTimestamp = none ∧
      event.normalizedUtc = some ⟨1709210096789012, by omega⟩ :=
  ⟨_, rfl, rfl, rfl, rfl⟩

theorem sameTimestamp_indexedFile {revision' : ℕ}
    (ha : Projects utcPlatform (wholeBuild.context "UTC")
      (.node (indexedFile revision)) a)
    (hb : Projects utcPlatform (wholeBuild.context "UTC")
      (.node (indexedFile revision')) b) : SameTimestamp a b := by
  have hofa := ha.eventOf
  have hofb := hb.eventOf
  obtain ⟨event, hevents, htype, hraw, hutc⟩ := events_indexedFile revision
  obtain ⟨event', hevents', htype', hraw', hutc'⟩ :=
    events_indexedFile revision'
  obtain ⟨made, hmade, ha⟩ := ha
  obtain ⟨made', hmade', hb⟩ := hb
  obtain rfl := Except.ok.inj (hmade.symm.trans hevents)
  obtain rfl := Except.ok.inj (hmade'.symm.trans hevents')
  obtain rfl := List.mem_singleton.mp ha
  obtain rfl := List.mem_singleton.mp hb
  exact ⟨hofa.sourceType.trans hofb.sourceType.symm,
    hofa.sourceId.trans hofb.sourceId.symm, htype.trans htype'.symm,
    hraw.trans hraw'.symm, hutc.trans hutc'.symm⟩

theorem mem_sources_indexedFile {store : CaseStore}
    (hnode : indexedFile revision ∈ store.nodes.rows) :
    .node (indexedFile revision) ∈ timelineSources store "case" none [] := by
  refine List.mem_flatMap.mpr ⟨.fileSystemNode, by decide, ?_⟩
  exact mem_rowsOf.mpr ⟨rfl, rfl, (fun id h => by cases h), hnode⟩

theorem exists_event (hkeyed : ∀ e ∈ store.events.rows, e.Keyed utcPlatform)
    (hcases : store.cases = [("case", "UTC")])
    (hnode : indexedFile revision ∈ store.nodes.rows)
    (hbuild : (build utcPlatform store wholeBuild noSignal).2 =
      .ok .succeeded) :
    ∃ e ∈ (build utcPlatform store wholeBuild noSignal).1.events.rows,
      e.caseId = "case" ∧ e.sourceRevision = revision ∧
        ∀ revision' event, Projects utcPlatform (wholeBuild.context "UTC")
          (.node (indexedFile revision')) event → SameTimestamp e event := by
  obtain ⟨caseTimezone, hcase, hstored⟩ := stored_of_build
    (Prod.ext rfl hbuild : build utcPlatform store wholeBuild noSignal =
      ((build utcPlatform store wholeBuild noSignal).1, .ok .succeeded))
  obtain rfl : caseTimezone = "UTC" := by
    rw [hcases] at hcase
    exact (Except.ok.inj hcase).symm
  have hkeyed' : ∀ e ∈
      (build utcPlatform store wholeBuild noSignal).1.events.rows,
      e.Keyed utcPlatform := by
    intro e he
    rcases mem_of_build he with he | ⟨context, row, -, hprojects⟩
    · exact hkeyed e he
    · exact hprojects.eventOf.keyed
  have hsource : SourceRow.node (indexedFile revision) ∈
      timelineSources (build utcPlatform store wholeBuild noSignal).1
        "case" none [] := by
    apply mem_sources_indexedFile
    rw [(build_nodes _ _).1]
    exact hnode
  have hread : SourceRow.node (indexedFile revision) ∈
      wholeBuild.sources store := mem_sources_indexedFile hnode
  obtain ⟨made, hmade, hfound⟩ := hstored _ hread
  obtain ⟨event, hevent, -⟩ := events_indexedFile revision
  have hmem : event ∈ made := by
    rw [Except.ok.inj (hmade.symm.trans hevent)]
    exact List.mem_singleton_self _
  have hprojects : Projects utcPlatform (wholeBuild.context "UTC")
      (.node (indexedFile revision)) event := ⟨made, hmade, hmem⟩
  obtain ⟨e, he, hkey⟩ := hfound event hmem
  obtain ⟨hsame, hrevision, hcase⟩ := sameTimestamp_of_stored hkeyed'
    (collisionFree_utcPlatform _ "case") hsource hprojects he hkey
  refine ⟨e, he, hcase, hrevision, fun revision' event' hprojects' => ?_⟩
  have hsame' := sameTimestamp_indexedFile hprojects hprojects'
  exact ⟨hsame.sourceType.trans hsame'.sourceType,
    hsame.sourceId.trans hsame'.sourceId,
    hsame.eventType.trans hsame'.eventType,
    hsame.rawTimestamp.trans hsame'.rawTimestamp,
    hsame.normalizedUtc.trans hsame'.normalizedUtc⟩

/-- A file that is indexed again without a change has two events of one
timestamp after the next build. -/
theorem indexedTwice_shown_twice :
    ¬ ∀ (P : Platform) (cases : List (String × String)) (ops : List CaseOp)
        (args : BuildArgs) (signal : ℕ → Option Interrupt)
        (store' : CaseStore), args.OverAllSources →
      build P (run (step P) (noSources cases) ops) args signal =
        (store', .ok .succeeded) →
      CollisionFree P store' args.caseId →
      ∃ caseTimezone,
        requireCase store'.cases args.caseId = .ok caseTimezone ∧
        ReflectsSources P store' (args.context caseTimezone) args.caseId := by
  intro h
  -- the build before the file is indexed again
  have hempty : ∀ e ∈ indexedOnce.events.rows, e.Keyed utcPlatform :=
    fun e he => by cases he
  obtain ⟨first, hfirst, hcase₁, hone, hsame⟩ :=
    exists_event hempty rfl (List.mem_singleton_self _) build_indexedOnce
  obtain ⟨nodes, hnode, hstore⟩ := indexedTwice_eq
  have hkept : first ∈ indexedTwice.events.rows := by
    rw [hstore]
    exact hfirst
  have hkeyed : ∀ e ∈ indexedTwice.events.rows, e.Keyed utcPlatform := by
    intro e he
    rw [hstore] at he
    rcases mem_of_build he with he | ⟨context, row, -, hprojects⟩
    · cases he
    · exact hprojects.eventOf.keyed
  have hcases : indexedTwice.cases = [("case", "UTC")] := by
    rw [hstore]
    exact (build_nodes wholeBuild noSignal).2
  have hnode : indexedFile 2 ∈ indexedTwice.nodes.rows := by
    rw [hstore]
    exact hnode
  obtain ⟨second, hsecond, hcase₂, htwo, hsame'⟩ :=
    exists_event hkeyed hcases hnode build_indexedTwice
  -- the build after it
  obtain ⟨caseTimezone, hcase, hreflects⟩ := h utcPlatform [("case", "UTC")]
    [.upsertFsNode (indexedFile 1), .build wholeBuild noSignal,
      .upsertFsNode (indexedFile 2)] wholeBuild noSignal
    (build utcPlatform indexedTwice wholeBuild noSignal).1
    wholeBuild_overAllSources (Prod.ext rfl build_indexedTwice)
    (collisionFree_utcPlatform _ _)
  rw [(build_nodes wholeBuild noSignal).2, hcases] at hcase
  obtain rfl : "UTC" = caseTimezone := Except.ok.inj hcase
  rw [← (build_nodes (P := utcPlatform) wholeBuild noSignal).1] at hnode
  have hsource := mem_sources_indexedFile hnode
  obtain ⟨made, hmade, hshown⟩ := hreflects _ hsource
  obtain ⟨event, hevent, -⟩ := events_indexedFile 2
  obtain rfl := Except.ok.inj (hmade.symm.trans hevent)
  obtain ⟨e, -, -, -, hunique⟩ := hshown event (List.mem_singleton_self _)
  have hprojects : Projects utcPlatform (wholeBuild.context "UTC")
      (.node (indexedFile 2)) event :=
    ⟨_, hmade, List.mem_singleton_self _⟩
  have hfirst' : first = e := hunique first
    (mem_wholeTimeline.mpr ⟨mem_build hkept _ _, hcase₁⟩)
    (hsame 2 event hprojects)
  have hsecond' : second = e := hunique second
    (mem_wholeTimeline.mpr ⟨hsecond, hcase₂⟩) (hsame' 2 event hprojects)
  rw [hfirst', ← hsecond', htwo] at hone
  exact absurd hone (by decide)

end ApexForensic.Timeline
