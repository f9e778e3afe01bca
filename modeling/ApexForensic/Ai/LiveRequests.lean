import ApexForensic.Ai.Requests

/-!
# Requests that are live

A request is live until it expires.  One that has expired stays in the table
with its fingerprint, and a call that asks for the same again is given it back.
-/

namespace ApexForensic.Ai

open ApexForensic.Support ApexForensic.Domain

/-! ## The table -/

/-- The rows of `ai_assistance_requests`, with the two columns that are
unique. -/
structure RequestTable where
  byId : Table RequestRow.assistanceRequestId
  byFingerprint : Table fun row : RequestRow => row.requestFingerprint
  same_rows : byId.rows = byFingerprint.rows

namespace RequestTable

def uniqueFailed (column : String) : PyError :=
  .builtin .integrityError
    ("UNIQUE constraint failed: ai_assistance_requests." ++ column)

/-- `save_ai_assistance_request`. -/
def save (table : RequestTable) (row : RequestRow) :
    Except PyError RequestTable :=
  match hid : table.byId.insert row,
      hfingerprint : table.byFingerprint.insert row with
  | some byId, some byFingerprint =>
      .ok
        { byId, byFingerprint
          same_rows := by
            rw [(Table.insert_eq_some_iff.mp hid).2, table.same_rows,
              (Table.insert_eq_some_iff.mp hfingerprint).2] }
  | none, _ => .error (uniqueFailed "assistance_request_id")
  | some _, none => .error (uniqueFailed "request_fingerprint")

/-- `expire_ai_assistance_request`. -/
def expire (table : RequestTable) (assistanceRequestId : String)
    (expiresAt : Instant) : RequestTable where
  byId := table.byId.update
    (fun row => row.assistanceRequestId = assistanceRequestId)
    (fun row => { row with expiresAt }) fun _ => rfl
  byFingerprint := table.byFingerprint.update
    (fun row => row.assistanceRequestId = assistanceRequestId)
    (fun row => { row with expiresAt }) fun _ => rfl
  same_rows := congrArg (List.map _) table.same_rows

variable {table table' : RequestTable} {row : RequestRow}

theorem find?_eq_some_iff {fingerprint : String} :
    table.byFingerprint.find? fingerprint = some row ↔
      row ∈ table.byId.rows ∧ row.requestFingerprint = fingerprint := by
  rw [Table.find?_eq_some_iff, table.same_rows]

theorem rows_of_save (h : table.save row = .ok table') :
    table'.byId.rows = table.byId.rows ++ [row] := by
  unfold save at h
  split at h
  · next byId byFingerprint hid hfingerprint =>
      obtain rfl := Except.ok.inj h
      exact (Table.insert_eq_some_iff.mp hid).2
  · cases h
  · cases h

theorem exists_save
    (hid : row.assistanceRequestId ∉
      table.byId.rows.map RequestRow.assistanceRequestId)
    (hfingerprint :
      table.byFingerprint.find? row.requestFingerprint = none) :
    ∃ table', table.save row = .ok table' := by
  have hbyId : ∃ byId, table.byId.insert row = some byId := by
    unfold Table.insert
    rw [dif_neg hid]
    exact ⟨_, rfl⟩
  have hbyFingerprint : ∃ byFingerprint,
      table.byFingerprint.insert row = some byFingerprint := by
    rw [Table.find?_eq_none_iff] at hfingerprint
    unfold Table.insert
    rw [dif_neg hfingerprint]
    exact ⟨_, rfl⟩
  obtain ⟨byId, hbyId⟩ := hbyId
  obtain ⟨byFingerprint, hbyFingerprint⟩ := hbyFingerprint
  unfold save
  split
  · exact ⟨_, rfl⟩
  · simp_all
  · simp_all

end RequestTable

structure RequestStore where
  sources : RequestSources
  requests : RequestTable
  now : Instant

/-! ## The calls -/

section Calls

variable (sha256 : ByteArray → String)

/-- `create_request_from_context_snapshot`. -/
def createRequest (store : RequestStore) (args : RequestArgs)
    (newId : String) : Except PyError (RequestRow × RequestStore) := do
  let draft ← draftRequest sha256 store.sources store.now args
  match store.requests.byFingerprint.find? draft.requestFingerprint with
  | some existing => return (existing, store)
  | none =>
      let row : RequestRow := { draft with assistanceRequestId := newId }
      let requests ← store.requests.save row
      return (row, { store with requests })

/-- `expire_request`. -/
def expireRequest (store : RequestStore) (assistanceRequestId : String) :
    Except PyError RequestStore :=
  match store.requests.byId.find? assistanceRequestId with
  | some _ => .ok
      { store with
        requests := store.requests.expire assistanceRequestId store.now }
  | none => .error (executionError "AI_REQUEST_NOT_FOUND"
      "AI assistance request not found." "assistance_request_id" [])

/-- What happens to the requests of a store. -/
inductive RequestEvent where
  | create (args : RequestArgs) (newId : String)
  | expire (assistanceRequestId : String)
  | setClock (now : Instant)

/-- A call that raises leaves the store as it is. -/
def requestStep (store : RequestStore) : RequestEvent → RequestStore
  | .create args newId =>
      match createRequest sha256 store args newId with
      | .ok (_, store) => store
      | .error _ => store
  | .expire assistanceRequestId =>
      match expireRequest store assistanceRequestId with
      | .ok store => store
      | .error _ => store
  | .setClock now => { store with now }

end Calls

/-! ## What the calls keep -/

section Keeps

variable {sha256 : ByteArray → String} {store store' : RequestStore}
  {args : RequestArgs} {newId : String} {row : RequestRow}
  {draft : RequestDraft}

theorem fingerprint_of_draft {sources : RequestSources} {now now' : Instant}
    {draft' : RequestDraft}
    (h : draftRequest sha256 sources now args = .ok draft)
    (h' : draftRequest sha256 sources now' args = .ok draft') :
    draft.requestFingerprint = draft'.requestFingerprint := by
  unfold draftRequest at h h'
  obtain ⟨basis, hbasis, h⟩ := bind_ok h
  obtain ⟨basis', hbasis', h'⟩ := bind_ok h'
  obtain rfl := Except.ok.inj (hbasis.symm.trans hbasis')
  obtain ⟨_, -, h⟩ := bind_ok h
  obtain ⟨_, -, h'⟩ := bind_ok h'
  obtain ⟨fingerprint, hfingerprint, h⟩ := bind_ok h
  obtain ⟨fingerprint', hfingerprint', h'⟩ := bind_ok h'
  obtain rfl := Except.ok.inj (hfingerprint.symm.trans hfingerprint')
  rw [← Except.ok.inj h, ← Except.ok.inj h']

theorem ttlSeconds_pos {sources : RequestSources} {basis : RequestBasis}
    (h : checkRequest sha256 sources args = .ok basis) :
    0 < args.ttlSeconds := by
  unfold checkRequest at h
  obtain ⟨_, -, h⟩ := bind_ok h
  obtain ⟨-, h⟩ := check_ok h
  split at h
  · cases h
  · obtain ⟨-, h⟩ := check_ok h
    obtain ⟨_, -, h⟩ := bind_ok h
    obtain ⟨_, -, h⟩ := bind_ok h
    obtain ⟨_, -, h⟩ := bind_ok h
    obtain ⟨_, -, h⟩ := bind_ok h
    obtain ⟨_, -, h⟩ := bind_ok h
    obtain ⟨_, -, h⟩ := bind_ok h
    exact not_le.mp (check_ok h).1

theorem expiresAt_of_draft {sources : RequestSources} {now : Instant}
    (h : draftRequest sha256 sources now args = .ok draft) :
    now.micros < draft.expiresAt.micros := by
  unfold draftRequest at h
  obtain ⟨basis, hbasis, h⟩ := bind_ok h
  obtain ⟨expiresAt, hexpires, h⟩ := bind_ok h
  obtain ⟨fingerprint, -, h⟩ := bind_ok h
  rw [← Except.ok.inj h]
  have hpositive := ttlSeconds_pos hbasis
  unfold expiryOf at hexpires
  dsimp only at hexpires
  split_ifs at hexpires with hint hdays hrange
  rw [← Except.ok.inj hexpires]
  dsimp only
  omega

theorem createRequest_of_draft
    (h : draftRequest sha256 store.sources store.now args = .ok draft) :
    createRequest sha256 store args newId =
      match store.requests.byFingerprint.find? draft.requestFingerprint with
      | some existing => .ok (existing, store)
      | none => do
          let requests ← store.requests.save
            { draft with assistanceRequestId := newId }
          return ({ draft with assistanceRequestId := newId },
            { store with requests }) := by
  unfold createRequest
  rw [h, ok_bind]
  rfl

theorem sources_of_create
    (h : createRequest sha256 store args newId = .ok (row, store')) :
    store'.sources = store.sources := by
  unfold createRequest at h
  obtain ⟨draft, -, h⟩ := bind_ok h
  split at h
  · obtain ⟨-, rfl⟩ := ok_pair_inj h
    rfl
  · obtain ⟨requests, -, h⟩ := bind_ok h
    obtain ⟨-, rfl⟩ := ok_pair_inj h
    rfl

/-- No call takes a row away or gives it another fingerprint. -/
def HasRequest (store : RequestStore)
    (assistanceRequestId fingerprint : String) : Prop :=
  ∃ row ∈ store.requests.byId.rows,
    row.assistanceRequestId = assistanceRequestId ∧
      row.requestFingerprint = fingerprint

/-- What no event changes: where requests are drafted from, and which request
has which fingerprint. -/
def Extends (store store' : RequestStore) : Prop :=
  store'.sources = store.sources ∧
    ∀ assistanceRequestId fingerprint,
      HasRequest store assistanceRequestId fingerprint →
        HasRequest store' assistanceRequestId fingerprint

theorem Extends.refl (store : RequestStore) : Extends store store :=
  ⟨rfl, fun _ _ h => h⟩

theorem Extends.trans {store'' : RequestStore} (h : Extends store store')
    (h' : Extends store' store'') : Extends store store'' :=
  ⟨h'.1.trans h.1, fun _ _ hrow => h'.2 _ _ (h.2 _ _ hrow)⟩

theorem extends_of_create
    (h : createRequest sha256 store args newId = .ok (row, store')) :
    Extends store store' := by
  refine ⟨sources_of_create h, ?_⟩
  rintro _ _ ⟨found, hmem, rfl, rfl⟩
  unfold createRequest at h
  obtain ⟨draft, -, h⟩ := bind_ok h
  split at h
  · obtain ⟨-, rfl⟩ := ok_pair_inj h
    exact ⟨found, hmem, rfl, rfl⟩
  · obtain ⟨requests, hsave, h⟩ := bind_ok h
    obtain ⟨-, rfl⟩ := ok_pair_inj h
    refine ⟨found, ?_, rfl, rfl⟩
    rw [RequestTable.rows_of_save hsave]
    exact List.mem_append_left _ hmem

theorem extends_of_expire {assistanceRequestId : String}
    (h : expireRequest store assistanceRequestId = .ok store') :
    Extends store store' := by
  unfold expireRequest at h
  split at h
  · obtain rfl := Except.ok.inj h
    refine ⟨rfl, ?_⟩
    rintro _ _ ⟨found, hmem, rfl, rfl⟩
    refine ⟨_, List.mem_map_of_mem hmem, ?_⟩
    split_ifs <;> exact ⟨rfl, rfl⟩
  · cases h

theorem extends_step (store : RequestStore) (event : RequestEvent) :
    Extends store (requestStep sha256 store event) := by
  cases event with
  | create args newId =>
      unfold requestStep
      dsimp only
      split
      · next row store' h => exact extends_of_create h
      · exact Extends.refl store
  | expire assistanceRequestId =>
      unfold requestStep
      dsimp only
      split
      · next store' h => exact extends_of_expire h
      · exact Extends.refl store
  | setClock now => exact Extends.refl store

theorem extends_run (store : RequestStore) (events : List RequestEvent) :
    Extends store (run (requestStep sha256) store events) := by
  have hstep : ∀ s (event : RequestEvent), True →
      Extends s (requestStep sha256 s event) :=
    fun s event _ => extends_step s event
  exact run_related (fun _ _ _ => trivial) Extends.refl
    (fun h h' => h.trans h') hstep trivial events

end Keeps

/-! ## Requests that are live -/

/-- A request is live before the time at which it expires. -/
def Live (row : RequestRow) (now : Instant) : Prop :=
  now.micros < row.expiresAt.micros

section Law

variable (sha256 : ByteArray → String) {store : RequestStore}
  {args : RequestArgs} {newId : String} {draft : RequestDraft}

/-- A call returns a live request, and while it is live a call with the same
arguments returns it again, whatever happens in between. -/
def ReturnsLive (store : RequestStore) (args : RequestArgs) (newId : String) :
    Prop :=
  ∃ row store', createRequest sha256 store args newId = .ok (row, store') ∧
    Live row store.now ∧
    ∀ events,
      let later := run (requestStep sha256) store' events
      ∀ found ∈ later.requests.byId.rows,
        found.assistanceRequestId = row.assistanceRequestId →
        Live found later.now →
        ∀ draft otherId,
          draftRequest sha256 later.sources later.now args = .ok draft →
            createRequest sha256 later args otherId = .ok (found, later)

variable {sha256}

theorem create_again {assistanceRequestId : String} {store' : RequestStore}
    (hdraft : draftRequest sha256 store.sources store.now args = .ok draft)
    (hrow : HasRequest store' assistanceRequestId draft.requestFingerprint)
    (hsources : store'.sources = store.sources) (events : List RequestEvent) :
    let later := run (requestStep sha256) store' events
    ∀ found ∈ later.requests.byId.rows,
      found.assistanceRequestId = assistanceRequestId →
        ∀ draft otherId,
          draftRequest sha256 later.sources later.now args = .ok draft →
            createRequest sha256 later args otherId = .ok (found, later) := by
  intro later found hfound hid draft' otherId hdraft'
  obtain ⟨hkept, hhas⟩ : Extends store' later := extends_run store' events
  obtain ⟨same, hsame, hsameId, hfingerprint⟩ := hhas _ _ hrow
  obtain rfl : same = found :=
    later.requests.byId.row_unique hsame hfound (hsameId.trans hid.symm)
  have hlater : later.sources = store.sources := hkept.trans hsources
  rw [hlater] at hdraft'
  have hequal := fingerprint_of_draft hdraft hdraft'
  rw [← hlater] at hdraft'
  rw [createRequest_of_draft hdraft']
  have hfind : later.requests.byFingerprint.find? draft'.requestFingerprint =
      some same :=
    RequestTable.find?_eq_some_iff.mpr ⟨hsame, hfingerprint.trans hequal⟩
  rw [hfind]

theorem create_fresh
    (hdraft : draftRequest sha256 store.sources store.now args = .ok draft)
    (hfresh : newId ∉
      store.requests.byId.rows.map RequestRow.assistanceRequestId)
    (hfind : store.requests.byFingerprint.find? draft.requestFingerprint =
      none) :
    ∃ requests, requests.byId.rows = store.requests.byId.rows ++
        [{ draft with assistanceRequestId := newId }] ∧
      createRequest sha256 store args newId =
        .ok ({ draft with assistanceRequestId := newId },
          { store with requests }) := by
  set row : RequestRow := { draft with assistanceRequestId := newId }
  obtain ⟨requests, hsave⟩ : ∃ requests,
      store.requests.save row = .ok requests :=
    RequestTable.exists_save hfresh hfind
  refine ⟨requests, RequestTable.rows_of_save hsave, ?_⟩
  rw [createRequest_of_draft hdraft, hfind]
  dsimp only
  rw [hsave]
  rfl

theorem returnsLive_iff
    (hdraft : draftRequest sha256 store.sources store.now args = .ok draft)
    (hfresh : newId ∉
      store.requests.byId.rows.map RequestRow.assistanceRequestId) :
    ReturnsLive sha256 store args newId ↔
      ∀ row ∈ store.requests.byId.rows,
        row.requestFingerprint = draft.requestFingerprint →
          Live row store.now := by
  constructor
  · rintro ⟨returned, store', hcreate, hlive, -⟩ row hrow hfingerprint
    have hfind : store.requests.byFingerprint.find? draft.requestFingerprint =
        some row := RequestTable.find?_eq_some_iff.mpr ⟨hrow, hfingerprint⟩
    rw [createRequest_of_draft hdraft, hfind] at hcreate
    obtain ⟨rfl, -⟩ := ok_pair_inj hcreate
    exact hlive
  · intro hlive
    cases hfind : store.requests.byFingerprint.find?
        draft.requestFingerprint with
    | some existing =>
        obtain ⟨hmem, hfingerprint⟩ := RequestTable.find?_eq_some_iff.mp hfind
        refine ⟨existing, store, ?_, hlive _ hmem hfingerprint, ?_⟩
        · rw [createRequest_of_draft hdraft, hfind]
        · intro events later found hfound hid _ draft' otherId hdraft'
          exact create_again hdraft ⟨existing, hmem, rfl, hfingerprint⟩ rfl
            events found hfound hid draft' otherId hdraft'
    | none =>
        obtain ⟨requests, hrows, hcreate⟩ := create_fresh hdraft hfresh hfind
        have hrow : HasRequest { store with requests } newId
            draft.requestFingerprint := by
          refine ⟨{ draft with assistanceRequestId := newId }, ?_, rfl, rfl⟩
          rw [hrows]
          exact List.mem_append_right _ (List.mem_singleton_self _)
        refine ⟨_, _, hcreate, expiresAt_of_draft hdraft, ?_⟩
        intro events later found hfound hid _ draft' otherId hdraft'
        exact create_again hdraft hrow rfl events found hfound hid draft'
          otherId hdraft'

/-- After any history a call with valid arguments returns a live request, and
the same one while it is live, exactly if no request with its fingerprint has
expired. -/
theorem create_returns_live_iff (sha256 : ByteArray → String)
    (initial : RequestStore) (history : List RequestEvent)
    (args : RequestArgs) (newId : String) (draft : RequestDraft)
    (hdraft : draftRequest sha256
      (run (requestStep sha256) initial history).sources
      (run (requestStep sha256) initial history).now args = .ok draft)
    (hfresh : newId ∉ (run (requestStep sha256) initial
      history).requests.byId.rows.map RequestRow.assistanceRequestId) :
    ReturnsLive sha256 (run (requestStep sha256) initial history) args newId ↔
      ∀ row ∈ (run (requestStep sha256) initial history).requests.byId.rows,
        row.requestFingerprint = draft.requestFingerprint →
          Live row (run (requestStep sha256) initial history).now :=
  returnsLive_iff hdraft hfresh

end Law

/-! ## A request that has expired -/

def spelledDigest (bytes : ByteArray) : String :=
  String.ofList (bytes.toList.map fun byte => Char.ofNat byte.toNat)

def caseScope : RequestScope where
  scopeContextId := "scope"
  contextSnapshotId := "snapshot"
  scopeType := "case"
  caseId := "case"
  evidenceIds := []
  resourceIds := []
  sourceRevisions := []
  analyzerVersions := []
  filters := []
  timeRange := []
  resultCount := 0
  includedCount := 0
  isPartial := false
  coverage := .obj []
  staleReasons := []
  citations := []
  continuationCursor := none
  scopeFingerprint := ""
  createdAt := ⟨0, Instant.zero_inRange⟩
  warnings := []

def caseSnapshot : RequestSnapshot where
  contextSnapshotId := "snapshot"
  caseId := "case"
  sessionContextId := none
  sessionContextRevision := none
  actorId := none
  purpose := .aiRequest
  scopes := ["case"]
  includedResourceIds := Table.empty _
  excludedResourceIds := Table.empty _
  filters := []
  timeRange := []
  sourceRevisions := []
  analyzerVersions := []
  searchIndexRevision := none
  timelineRevision := none
  keywordSetId := none
  keywordSetVersion := none
  searchExecutionId := none
  partialState := .obj []
  staleState := .obj []
  citations := []
  contextFingerprint := ""
  previousSnapshotId := none
  createdAt := ⟨0, Instant.zero_inRange⟩
  warnings := []

/-- A case with one snapshot and no request. -/
def unasked : RequestStore where
  sources :=
    { caseIds := ["case"]
      snapshots := ⟨[caseSnapshot], List.nodup_singleton _⟩
      scopes := ⟨[caseScope], List.nodup_singleton _⟩ }
  requests := ⟨.empty _, .empty _, rfl⟩
  now := ⟨0, Instant.zero_inRange⟩

def plainArgs : RequestArgs where
  caseId := "case"
  contextSnapshotId := "snapshot"

theorem exists_draft : ∃ draft, draftRequest spelledDigest unasked.sources
    unasked.now plainArgs = .ok draft := by
  have hok : (draftRequest spelledDigest unasked.sources unasked.now
      plainArgs).isOk = true := by
    decide +kernel
  cases hdraft : draftRequest spelledDigest unasked.sources unasked.now
      plainArgs with
  | error e =>
      rw [hdraft] at hok
      cases hok
  | ok draft => exact ⟨draft, rfl⟩

theorem create_returns_live_unasked :
    ReturnsLive spelledDigest unasked plainArgs "first" := by
  obtain ⟨draft, hdraft⟩ := exists_draft
  have hfresh : "first" ∉
      unasked.requests.byId.rows.map RequestRow.assistanceRequestId :=
    List.not_mem_nil
  apply (create_returns_live_iff spelledDigest unasked [] plainArgs "first"
    draft hdraft hfresh).mpr
  intro row hrow
  cases hrow

/-- What a call asks for again after it was asked for and expired. -/
def expiredHistory : List RequestEvent :=
  [.create plainArgs "first", .expire "first"]

theorem run_expiredHistory :
    ∃ draft row,
      draftRequest spelledDigest unasked.sources unasked.now plainArgs =
        .ok draft ∧
      row.requestFingerprint = draft.requestFingerprint ∧
      row.assistanceRequestId = "first" ∧ row.expiresAt = unasked.now ∧
      ∃ requests, requests.byId.rows = [row] ∧
        run (requestStep spelledDigest) unasked expiredHistory =
          { unasked with requests } := by
  obtain ⟨draft, hdraft⟩ := exists_draft
  obtain ⟨requests, hrows, hcreate⟩ : ∃ requests : RequestTable,
      requests.byId.rows = [{ draft with assistanceRequestId := "first" }] ∧
        createRequest spelledDigest unasked plainArgs "first" =
          .ok ({ draft with assistanceRequestId := "first" },
            { unasked with requests }) :=
    create_fresh hdraft List.not_mem_nil rfl
  refine ⟨draft, { draft with assistanceRequestId := "first",
                              expiresAt := unasked.now }, hdraft, rfl, rfl,
    rfl, requests.expire "first" unasked.now, ?_, ?_⟩
  · change requests.byId.rows.map _ = _
    rw [hrows]
    rfl
  · have hfind : requests.byId.find? "first" =
        some { draft with assistanceRequestId := "first" } := by
      rw [Table.find?, hrows]
      rfl
    rw [expiredHistory, run_cons, run_cons, run_nil]
    simp only [requestStep, hcreate, expireRequest, hfind]

theorem expired_not_returned_live :
    ¬ ∀ args newId draft,
      let store := run (requestStep spelledDigest) unasked expiredHistory
      draftRequest spelledDigest store.sources store.now args = .ok draft →
        newId ∉ store.requests.byId.rows.map RequestRow.assistanceRequestId →
          ReturnsLive spelledDigest store args newId := by
  intro h
  obtain ⟨draft, row, hdraft, hfingerprint, hid, hexpires, requests, hrows,
    hrun⟩ := run_expiredHistory
  have hreturns := h plainArgs "second" draft
  rw [hrun] at hreturns
  have hfresh : "second" ∉ requests.byId.rows.map
      RequestRow.assistanceRequestId := by
    simp [hrows, hid]
  have hlive := (@returnsLive_iff _ { unasked with requests } _ _ _ hdraft
    hfresh).mp (hreturns hdraft hfresh)
  have hmem : row ∈ requests.byId.rows := by
    rw [hrows]
    exact List.mem_singleton_self row
  have hlt : Live row unasked.now := hlive row hmem hfingerprint
  unfold Live at hlt
  rw [hexpires] at hlt
  exact lt_irrefl _ hlt

end ApexForensic.Ai
