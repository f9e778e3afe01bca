import ApexForensic.Domain.Rows
import ApexForensic.Support.Interleaving

/-!
# Reserving timeline revisions

A revision is reserved by reading the greatest one of the case and, in a later
statement, inserting the next one unless it is there.  The insert hides that
another call took the revision in between, so two calls return different
revisions as long as neither reads between the other's read and its insert.
-/

namespace ApexForensic.Timeline

open ApexForensic.Support ApexForensic.Domain

/-! ## The tables -/

/-- A row of `timeline_revisions`. -/
structure RevisionRow where
  caseId : String
  timelineRevision : ℕ
  createdAt : String

/-- A row of `timeline_jobs`, as far as it identifies a build. -/
structure TimelineJobRow where
  jobId : String
  caseId : String
  evidenceId : Option String
  timelineRevision : ℕ

structure RevisionStore where
  revisions : List RevisionRow
  jobs : List TimelineJobRow

namespace RevisionStore

/-- `SELECT COALESCE(MAX(timeline_revision), 0) ... WHERE case_id = ?`. -/
def latestRevision (s : RevisionStore) (caseId : String) : ℕ :=
  ((s.revisions.filter fun r => r.caseId = caseId).map
    RevisionRow.timelineRevision).foldr max 0

/-- `INSERT OR IGNORE INTO timeline_revisions`. -/
def insertOrIgnore (s : RevisionStore) (row : RevisionRow) : RevisionStore :=
  if s.revisions.any fun r => r.caseId = row.caseId ∧
      r.timelineRevision = row.timelineRevision then s
  else { s with revisions := s.revisions ++ [row] }

/-- `INSERT INTO timeline_jobs`. -/
def insertJob (s : RevisionStore) (row : TimelineJobRow) :
    Except PyError RevisionStore := do
  let jobs ← insertRow
    [("timeline_jobs.job_id", fun a b => a.jobId = b.jobId)] s.jobs row
  return { s with jobs }

end RevisionStore

/-! ## The calls -/

/-- What a call has done: read the greatest revision of a case, reserved one,
or stored the job of a build. -/
inductive RevisionEvent where
  | read (caseId : String)
  | reserve (caseId : String) (revision : ℕ)
  | job (row : TimelineJobRow)

abbrev RevisionScript := Script RevisionStore RevisionEvent PyError

def nextTimelineRevision (caseId createdAt : String) : RevisionScript ℕ := do
  let latest ← Script.commit fun s =>
    (s.latestRevision caseId, s, [.read caseId])
  let revision := latest + 1
  Script.write fun s =>
    (s.insertOrIgnore ⟨caseId, revision, createdAt⟩,
      [.reserve caseId revision])
  return revision

/-- The insert of the job row, and its event. -/
def jobTransaction (row : TimelineJobRow) (s : RevisionStore) :
    Except PyError Unit × RevisionStore × List RevisionEvent :=
  match s.insertJob row with
  | .ok s' => (.ok (), s', [.job row])
  | .error e => (.error e, s, [])

def createTimelineJob (row : TimelineJobRow) : RevisionScript Unit := do
  match ← Script.commit (jobTransaction row) with
  | .ok () => return ()
  | .error e => Script.raise e

/-- `TimelineService.build` up to the start of its run. -/
def startBuild (caseId : String) (evidenceId : Option String)
    (jobId createdAt : String) : RevisionScript ℕ := do
  let timelineRevision ← nextTimelineRevision caseId createdAt
  createTimelineJob { jobId, caseId, evidenceId, timelineRevision }
  return timelineRevision

inductive RevisionRequest where
  | nextTimelineRevision (caseId createdAt : String)
  | build (caseId : String) (evidenceId : Option String)
      (jobId createdAt : String)

namespace RevisionRequest

def caseId : RevisionRequest → String
  | nextTimelineRevision caseId _ => caseId
  | build caseId _ _ _ => caseId

def script : RevisionRequest → RevisionScript ℕ
  | nextTimelineRevision caseId createdAt =>
      Timeline.nextTimelineRevision caseId createdAt
  | build caseId evidenceId jobId createdAt =>
      startBuild caseId evidenceId jobId createdAt

end RevisionRequest

/-! ## The greatest revision -/

section

variable {s s' : RevisionStore} {caseId : String}

theorem le_foldr_max {l : List ℕ} {n : ℕ} (h : n ∈ l) : n ≤ l.foldr max 0 := by
  induction l with
  | nil => cases h
  | cons m l ih =>
      rw [List.foldr_cons]
      rcases List.mem_cons.mp h with rfl | h
      · exact le_max_left _ _
      · exact (ih h).trans (le_max_right _ _)

theorem foldr_max_append (l l' : List ℕ) :
    (l ++ l').foldr max 0 = max (l.foldr max 0) (l'.foldr max 0) := by
  induction l with
  | nil => simp
  | cons m l ih => simp [ih, max_assoc]

/-- Inserting a revision, or finding it there, makes the greatest revision of
its case at least that. -/
theorem latestRevision_insertOrIgnore (s : RevisionStore) (row : RevisionRow)
    (caseId : String) :
    (s.insertOrIgnore row).latestRevision caseId =
      if row.caseId = caseId then
        max (s.latestRevision caseId) row.timelineRevision
      else s.latestRevision caseId := by
  rw [RevisionStore.insertOrIgnore]
  split
  · rename_i hany
    obtain ⟨r, hr, hsame⟩ := List.any_eq_true.mp hany
    obtain ⟨hcase, hrevision⟩ := of_decide_eq_true hsame
    split
    · rename_i hrow
      refine (max_eq_left (le_foldr_max ?_)).symm
      refine List.mem_map.mpr ⟨r, List.mem_filter.mpr ⟨hr, ?_⟩, hrevision⟩
      exact decide_eq_true (hcase.trans hrow)
    · rfl
  · rw [RevisionStore.latestRevision, List.filter_append, List.map_append,
      foldr_max_append]
    split
    · rename_i hrow
      simp [hrow, RevisionStore.latestRevision]
    · rename_i hrow
      simp [hrow, RevisionStore.latestRevision]

end

/-! ## What the calls have done -/

section

variable {ι : Type} {caseId : String}

/-- The revisions of a case reserved in a log. -/
def reservedIn (caseId : String) (log : List (ι × RevisionEvent)) : List ℕ :=
  log.filterMap fun e =>
    match e.2 with
    | .reserve c revision => if c = caseId then some revision else none
    | _ => none

/-- The greatest revision of a case after a log, from a first store. -/
def latestIn (s : RevisionStore) (caseId : String)
    (log : List (ι × RevisionEvent)) : ℕ :=
  max (s.latestRevision caseId) ((reservedIn caseId log).foldr max 0)

/-- The jobs stored in a log. -/
def jobsIn (log : List (ι × RevisionEvent)) : List TimelineJobRow :=
  log.filterMap fun e =>
    match e.2 with
    | .job row => some row
    | _ => none

/-- Every revision was reserved by a call that had read the greatest one
before it, and every job has a revision its call reserved. -/
structure ReservedAfterRead (s : RevisionStore)
    (log : List (ι × RevisionEvent)) : Prop where
  reserve : ∀ (q : ℕ) i c revision,
    log[q]? = some (i, .reserve c revision) →
    ∃ p < q, log[p]? = some (i, .read c) ∧
      revision = latestIn s c (log.take p) + 1
  job : ∀ i row, (i, .job row) ∈ log →
    (i, .reserve row.caseId row.timelineRevision) ∈ log

/-- Two calls reserve a revision of the same case, and the second reads the
greatest revision between the read and the insert of the first. -/
def Overlap (i j : ι) (log : List (ι × RevisionEvent)) : Prop :=
  ∃ (c : String) (revision revision' p r q : ℕ), p < r ∧ r < q ∧
    log[p]? = some (i, .read c) ∧ log[r]? = some (j, .read c) ∧
    log[q]? = some (i, .reserve c revision) ∧
    (j, .reserve c revision') ∈ log

theorem le_latestIn_of_lt {s : RevisionStore} {i : ι} {revision q n : ℕ}
    {log : List (ι × RevisionEvent)}
    (h : log[q]? = some (i, .reserve caseId revision)) (hq : q < n) :
    revision ≤ latestIn s caseId (log.take n) := by
  refine (le_foldr_max ?_).trans (le_max_right _ _)
  refine List.mem_filterMap.mpr ⟨(i, .reserve caseId revision), ?_, if_pos rfl⟩
  apply List.mem_of_getElem?
  rwa [List.getElem?_take_of_lt hq]

/-- A call that read first and reserved a revision overlaps any later reader
that reserved the same one. -/
theorem overlap_of_lt {s : RevisionStore} {log : List (ι × RevisionEvent)}
    {i j : ι} {revision p q r : ℕ} (hread : log[p]? = some (i, .read caseId))
    (hreserve : log[q]? = some (i, .reserve caseId revision))
    (hread' : log[r]? = some (j, .read caseId))
    (hrevision : revision = latestIn s caseId (log.take r) + 1)
    (hreserve' : (j, .reserve caseId revision) ∈ log) (hlt : p < r) :
    Overlap i j log := by
  refine ⟨caseId, revision, revision, p, r, q, hlt, ?_, hread, hread',
    hreserve, hreserve'⟩
  by_contra hnot
  rcases (not_lt.mp hnot).lt_or_eq with hbefore | rfl
  · -- the revision was reserved before the second read
    have hle := le_latestIn_of_lt (s := s) hreserve hbefore
    omega
  · rw [hreserve] at hread'
    cases hread'

theorem ReservedAfterRead.eq_of_reserve {s : RevisionStore}
    {log : List (ι × RevisionEvent)} (hlog : ReservedAfterRead s log)
    (hno : ∀ i j, i ≠ j → ¬ Overlap i j log) {i j : ι} {revision : ℕ}
    (hi : (i, .reserve caseId revision) ∈ log)
    (hj : (j, .reserve caseId revision) ∈ log) : i = j := by
  by_contra hne
  obtain ⟨q, hq⟩ := List.mem_iff_getElem?.mp hi
  obtain ⟨q', hq'⟩ := List.mem_iff_getElem?.mp hj
  obtain ⟨p, -, hread, hrevision⟩ := hlog.reserve q i caseId revision hq
  obtain ⟨p', -, hread', hrevision'⟩ := hlog.reserve q' j caseId revision hq'
  rcases lt_trichotomy p p' with hlt | rfl | hlt
  · exact hno i j hne (overlap_of_lt hread hq hread' hrevision' hj hlt)
  · rw [hread] at hread'
    exact hne (Prod.mk.inj (Option.some.inj hread')).1
  · exact hno j i (Ne.symm hne)
      (overlap_of_lt hread' hq' hread hrevision hi hlt)

end

/-! ## Any number of connections -/

section

variable {ι : Type} {s₀ : RevisionStore} {i : ι} {request : RevisionRequest}

theorem ReservedAfterRead.concat {log : List (ι × RevisionEvent)}
    (hlog : ReservedAfterRead s₀ log) {event : RevisionEvent}
    (hreserve : ∀ c revision, event = .reserve c revision →
      ∃ p, log[p]? = some (i, .read c) ∧
        revision = latestIn s₀ c (log.take p) + 1)
    (hjob : ∀ row, event = .job row →
      (i, .reserve row.caseId row.timelineRevision) ∈ log) :
    ReservedAfterRead s₀ (log ++ [(i, event)]) := by
  have hextend : ∀ {p e}, log[p]? = some e → p < log.length ∧
      (log ++ [(i, event)])[p]? = some e ∧
      (log ++ [(i, event)]).take p = log.take p := by
    intro p e he
    have hp := (List.getElem?_eq_some_iff.mp he).1
    exact ⟨hp, (List.getElem?_append_left hp).trans he,
      List.take_append_of_le_length hp.le⟩
  constructor
  · intro q j c revision hq
    rcases lt_or_ge q log.length with hlt | hge
    · rw [List.getElem?_append_left hlt] at hq
      obtain ⟨p, hp, hread, hrevision⟩ := hlog.reserve q j c revision hq
      obtain ⟨-, hread', htake⟩ := hextend hread
      exact ⟨p, hp, hread', htake ▸ hrevision⟩
    · have hlast := List.mem_of_getElem? ((List.getElem?_append_right hge).symm.trans
        hq)
      obtain ⟨rfl, hevent⟩ := Prod.mk.inj (List.mem_singleton.mp hlast)
      obtain ⟨p, hread, hrevision⟩ := hreserve c revision hevent.symm
      obtain ⟨hp, hread', htake⟩ := hextend hread
      exact ⟨p, hp.trans_le hge, hread', htake ▸ hrevision⟩
  · intro j row hmem
    rcases List.mem_append.mp hmem with hmem | hmem
    · exact List.mem_append_left _ (hlog.job j row hmem)
    · obtain ⟨rfl, hevent⟩ := Prod.mk.inj (List.mem_singleton.mp hmem)
      exact List.mem_append_left _ (hjob row hevent.symm)

theorem latestIn_read (log : List (ι × RevisionEvent)) (c caseId : String) :
    latestIn s₀ caseId (log ++ [(i, .read c)]) = latestIn s₀ caseId log := by
  simp [latestIn, reservedIn]

theorem latestIn_job (log : List (ι × RevisionEvent)) (row : TimelineJobRow)
    (caseId : String) :
    latestIn s₀ caseId (log ++ [(i, .job row)]) = latestIn s₀ caseId log := by
  simp [latestIn, reservedIn]

theorem latestIn_reserve (log : List (ι × RevisionEvent))
    (c : String) (revision : ℕ) (caseId : String) :
    latestIn s₀ caseId (log ++ [(i, .reserve c revision)]) =
      if c = caseId then max (latestIn s₀ caseId log) revision
      else latestIn s₀ caseId log := by
  rw [latestIn, reservedIn, List.filterMap_append, foldr_max_append]
  by_cases hcase : c = caseId
  · simp [hcase, latestIn, reservedIn, max_assoc]
  · simp [hcase, latestIn, reservedIn]

/-- The store holds what the log says was done since the first store. -/
structure RevisionsRecorded (s₀ : RevisionStore)
    (h : History RevisionStore ι RevisionEvent) : Prop where
  latest : ∀ caseId, h.store.latestRevision caseId =
    latestIn s₀ caseId h.log
  reserved : ReservedAfterRead s₀ h.log
  jobs : h.store.jobs = s₀.jobs ++ jobsIn h.log

/-- What a call returns it has reserved, and a build has stored its job. -/
def Reserved (i : ι) (request : RevisionRequest) (revision : ℕ)
    (log : List (ι × RevisionEvent)) : Prop :=
  (i, .reserve request.caseId revision) ∈ log ∧
    ∀ caseId evidenceId jobId createdAt,
      request = .build caseId evidenceId jobId createdAt →
      (i, .job ⟨jobId, caseId, evidenceId, revision⟩) ∈ log

/-- What the calls that reserve revisions agree on. -/
def revisionProtocol (s₀ : RevisionStore) :
    Protocol RevisionStore ι RevisionEvent PyError ℕ RevisionRequest where
  inv := RevisionsRecorded s₀
  rely h k := h.log <+: k.log
  post i request result h := ∀ revision, result = .ok revision →
    Reserved i request revision h.log
  refl h := List.prefix_refl h.log
  trans := List.IsPrefix.trans
  post_of_rely hrely hpost := fun revision hresult =>
    ⟨hrely.subset (hpost revision hresult).1,
      fun _ _ _ _ hrequest => hrely.subset
        ((hpost revision hresult).2 _ _ _ _ hrequest)⟩

theorem RevisionsRecorded.read {h : History RevisionStore ι RevisionEvent}
    (hh : RevisionsRecorded s₀ h) (caseId : String) :
    RevisionsRecorded s₀ (h.after i (h.store, [.read caseId])) where
  latest c := (hh.latest c).trans (latestIn_read h.log caseId c).symm
  reserved := hh.reserved.concat (by simp) (by simp)
  jobs := by simpa [History.after, jobsIn] using hh.jobs

theorem RevisionsRecorded.reserve {h : History RevisionStore ι RevisionEvent}
    (hh : RevisionsRecorded s₀ h) (row : RevisionRow) {p : ℕ}
    (hread : h.log[p]? = some (i, .read row.caseId))
    (hrevision : row.timelineRevision =
      latestIn s₀ row.caseId (h.log.take p) + 1) :
    RevisionsRecorded s₀ (h.after i (h.store.insertOrIgnore row,
      [.reserve row.caseId row.timelineRevision])) where
  latest c := by
    refine (latestRevision_insertOrIgnore _ _ _).trans ?_
    rw [hh.latest]
    exact (latestIn_reserve h.log row.caseId row.timelineRevision c).symm
  reserved := by
    refine hh.reserved.concat (fun c revision hevent => ?_) (by simp)
    obtain ⟨rfl, rfl⟩ := RevisionEvent.reserve.inj hevent
    exact ⟨p, hread, hrevision⟩
  jobs := by
    have hsame : (h.store.insertOrIgnore row).jobs = h.store.jobs := by
      rw [RevisionStore.insertOrIgnore]
      split <;> rfl
    simpa [History.after, jobsIn, hsame] using hh.jobs

theorem RevisionsRecorded.job {h : History RevisionStore ι RevisionEvent}
    (hh : RevisionsRecorded s₀ h) {row : TimelineJobRow}
    {s : RevisionStore} (hinsert : h.store.insertJob row = .ok s)
    (hreserved : (i, .reserve row.caseId row.timelineRevision) ∈ h.log) :
    RevisionsRecorded s₀ (h.after i (s, [.job row])) := by
  obtain ⟨jobs, hjobs, hs⟩ := bind_ok hinsert
  obtain ⟨rfl, -⟩ := insertRow_eq_ok_iff.mp hjobs
  obtain rfl := Except.ok.inj hs
  refine ⟨fun c => (hh.latest c).trans (latestIn_job h.log row c).symm, ?_, ?_⟩
  · refine hh.reserved.concat (by simp) fun row' hevent => ?_
    obtain rfl := RevisionEvent.job.inj hevent
    exact hreserved
  · simp [History.after, jobsIn, hh.jobs]

theorem safe_nextTimelineRevision {caseId createdAt : String}
    {f : ℕ → RevisionScript ℕ} {h : History RevisionStore ι RevisionEvent}
    (hsafe : ∀ k revision, RevisionsRecorded s₀ k →
      (i, .reserve caseId revision) ∈ k.log →
      (f revision).Safe (revisionProtocol s₀) i request k) :
    (nextTimelineRevision caseId createdAt >>= f).Safe (revisionProtocol s₀)
      i request h := by
  intro k _ hk
  refine ⟨hk.read caseId, List.prefix_append _ _, fun l hkl hl => ?_⟩
  obtain ⟨late, hlate⟩ := hkl
  have hread : l.log = k.log ++ (i, .read caseId) :: late := by
    rw [← hlate]
    simp [History.after]
  have hreserved := hl.reserve
    ⟨caseId, k.store.latestRevision caseId + 1, createdAt⟩
    (show l.log[k.log.length]? = some (i, .read caseId) by simp [hread])
    (by simp [hread, hk.latest])
  exact ⟨hreserved, List.prefix_append _ _, hsafe _ _ hreserved (by
    simp [History.after])⟩

theorem safe_createTimelineJob {row : TimelineJobRow} {revision : ℕ}
    {h : History RevisionStore ι RevisionEvent}
    (hreserved : (i, .reserve row.caseId row.timelineRevision) ∈ h.log)
    (hpost : ∀ k, h.log <+: k.log → (i, .job row) ∈ k.log →
      (revisionProtocol s₀).post i request (.ok revision) k) :
    (createTimelineJob row >>= fun _ =>
      (pure revision : RevisionScript ℕ)).Safe (revisionProtocol s₀) i request
      h := by
  intro k hrely hk
  change (revisionProtocol s₀).inv (k.after i (jobTransaction row k.store).2) ∧
    (revisionProtocol s₀).rely k (k.after i (jobTransaction row k.store).2) ∧
    Script.Safe (revisionProtocol s₀) i request
      ((match (jobTransaction row k.store).1 with
        | .ok () => (pure () : RevisionScript Unit)
        | .error e => Script.raise e) >>= fun _ => pure revision)
      (k.after i (jobTransaction row k.store).2)
  cases hinsert : k.store.insertJob row with
  | error e =>
      simp only [jobTransaction, hinsert, History.after_nil]
      refine ⟨hk, List.prefix_refl _, fun r hr => ?_⟩
      cases hr
  | ok s =>
      simp only [jobTransaction, hinsert]
      refine ⟨hk.job hinsert (hrely.subset hreserved),
        List.prefix_append _ _, hpost _ ?_ ?_⟩
      · exact hrely.trans (List.prefix_append _ _)
      · simp [History.after]

theorem safe_script (i : ι) (request : RevisionRequest)
    (h : History RevisionStore ι RevisionEvent) :
    request.script.Safe (revisionProtocol s₀) i request h := by
  cases request with
  | nextTimelineRevision caseId createdAt =>
      refine safe_nextTimelineRevision (f := pure) fun k revision _ hmem => ?_
      intro r hr
      obtain rfl := Except.ok.inj hr
      exact ⟨hmem, by simp⟩
  | build caseId evidenceId jobId createdAt =>
      refine safe_nextTimelineRevision fun k revision _ hmem => ?_
      refine safe_createTimelineJob hmem fun l hkl hjob r hr => ?_
      obtain rfl := Except.ok.inj hr
      refine ⟨hkl.subset hmem, fun _ _ _ _ hrequest => ?_⟩
      obtain ⟨rfl, rfl, rfl, rfl⟩ := RevisionRequest.build.inj hrequest
      exact hjob

end

/-- In every interleaving of any number of calls in which no two calls of a
case overlap, calls of one case return different revisions, the jobs that
different calls stored for one case have different revisions, and every stored
job is one of these or was there before. -/
theorem timeline_revisions_unique {ι : Type} [DecidableEq ι]
    (s₀ : RevisionStore) (moves : List (Move ι RevisionRequest))
    (hno : ∀ i j, i ≠ j → ¬ Overlap i j
      (System.reached RevisionRequest.script s₀ moves).log) :
    (∀ i j request request' revision revision',
      (System.reached RevisionRequest.script s₀ moves).progress i =
        .finished request (.ok revision) →
      (System.reached RevisionRequest.script s₀ moves).progress j =
        .finished request' (.ok revision') →
      i ≠ j → request.caseId = request'.caseId → revision ≠ revision') ∧
    (∀ i j row row',
      (i, .job row) ∈ (System.reached RevisionRequest.script s₀ moves).log →
      (j, .job row') ∈ (System.reached RevisionRequest.script s₀ moves).log →
      i ≠ j → row.caseId = row'.caseId →
      row.timelineRevision ≠ row'.timelineRevision) ∧
    ∀ row ∈ (System.reached RevisionRequest.script s₀ moves).store.jobs,
      row ∈ s₀.jobs ∨ ∃ i, (i, .job row) ∈
        (System.reached RevisionRequest.script s₀ moves).log := by
  have hfirst : RevisionsRecorded (ι := ι) s₀ ⟨s₀, []⟩ := by
    exact ⟨fun c => by simp [latestIn, reservedIn], ⟨by simp, by simp⟩,
      by simp [jobsIn]⟩
  have hsound := System.sound_reached (p := revisionProtocol s₀)
    (fun i request h _ => safe_script i request h) hfirst moves
  have hlog := hsound.inv.reserved
  refine ⟨?_, ?_, ?_⟩
  · intro i j request request' revision revision' hi hj hne hcase heq
    have hsafe := hsound.safe i
    have hsafe' := hsound.safe j
    rw [hi] at hsafe
    rw [hj] at hsafe'
    have hreserve := (hsafe revision rfl).1
    have hreserve' := (hsafe' revision' rfl).1
    rw [← hcase, ← heq] at hreserve'
    exact hne (hlog.eq_of_reserve hno hreserve hreserve')
  · intro i j row row' hi hj hne hcase heq
    have hreserve := hlog.job i row hi
    have hreserve' := hlog.job j row' hj
    rw [← hcase, ← heq] at hreserve'
    exact hne (hlog.eq_of_reserve hno hreserve hreserve')
  · intro row hrow
    rw [hsound.inv.jobs] at hrow
    rcases List.mem_append.mp hrow with hrow | hrow
    · exact Or.inl hrow
    · obtain ⟨⟨i, event⟩, hmem, hjob⟩ := List.mem_filterMap.mp hrow
      refine Or.inr ⟨i, ?_⟩
      cases event with
      | job row' =>
          obtain rfl := Option.some.inj hjob
          exact hmem
      | read c => cases hjob
      | reserve c revision => cases hjob

/-! ## Two builds that overlap -/

/-- The first build of a case, and the second. -/
def buildOf (jobId : String) : RevisionRequest :=
  .build "case" none jobId "t"

/-- Both builds read before either inserts. -/
def overlapping : List (Move ℕ RevisionRequest) :=
  [.start 0 (buildOf "a"), .start 1 (buildOf "b"), .advance 0, .advance 1,
    .advance 0, .advance 1, .advance 0, .advance 1]

/-- The second build starts after the first has inserted. -/
def oneAfterTheOther : List (Move ℕ RevisionRequest) :=
  [.start 0 (buildOf "a"), .start 1 (buildOf "b"), .advance 0, .advance 0,
    .advance 1, .advance 1, .advance 0, .advance 1]

theorem overlapping_results :
    (System.reached RevisionRequest.script ⟨[], []⟩ overlapping).progress 0 =
        .finished (buildOf "a") (.ok 1) ∧
      (System.reached RevisionRequest.script ⟨[], []⟩ overlapping).progress 1 =
        .finished (buildOf "b") (.ok 1) :=
  ⟨rfl, rfl⟩

/-- Two builds that overlap return one revision. -/
theorem overlapping_builds_share_revision :
    ¬ ∀ (s₀ : RevisionStore) (moves : List (Move ℕ RevisionRequest)),
      ∀ i j request request' revision revision',
        (System.reached RevisionRequest.script s₀ moves).progress i =
          .finished request (.ok revision) →
        (System.reached RevisionRequest.script s₀ moves).progress j =
          .finished request' (.ok revision') →
        i ≠ j → request.caseId = request'.caseId → revision ≠ revision' := by
  intro h
  exact h ⟨[], []⟩ overlapping 0 1 (buildOf "a") (buildOf "b") 1 1
    overlapping_results.1 overlapping_results.2 (by decide) rfl rfl

theorem oneAfterTheOther_log :
    (System.reached RevisionRequest.script ⟨[], []⟩ oneAfterTheOther).log =
      [(0, .read "case"), (0, .reserve "case" 1), (1, .read "case"),
        (1, .reserve "case" 2), (0, .job ⟨"a", "case", none, 1⟩),
        (1, .job ⟨"b", "case", none, 2⟩)] := rfl

theorem oneAfterTheOther_separate (i j : ℕ) :
    ¬ Overlap i j (System.reached RevisionRequest.script ⟨[], []⟩
      oneAfterTheOther).log := by
  rw [oneAfterTheOther_log]
  rintro ⟨c, revision, revision', p, r, q, hpr, hrq, hp, hr, hq, -⟩
  have hread : ∀ {n k}, ([(0, .read "case"), (0, .reserve "case" 1),
      (1, .read "case"), (1, .reserve "case" 2),
      (0, .job ⟨"a", "case", none, 1⟩), (1, .job ⟨"b", "case", none, 2⟩)] :
      List (ℕ × RevisionEvent))[n]? = some (k, .read c) →
      (n = 0 ∧ k = 0) ∨ (n = 2 ∧ k = 1) := by
    intro n k h
    rcases n with _ | _ | _ | _ | _ | _ | n <;> simp at h
    · exact Or.inl ⟨rfl, h.1.symm⟩
    · exact Or.inr ⟨rfl, h.1.symm⟩
  have hlast : 3 ≤ q := by
    rcases hread hp with ⟨rfl, -⟩ | ⟨rfl, -⟩
    · rcases hread hr with ⟨rfl, -⟩ | ⟨rfl, -⟩
      · omega
      · omega
    · omega
  rcases hread hp with ⟨rfl, rfl⟩ | ⟨rfl, rfl⟩
  · rcases q with _ | _ | _ | _ | _ | _ | q <;> simp at hq
    omega
  · rcases hread hr with ⟨rfl, -⟩ | ⟨rfl, -⟩
    · omega
    · omega

/-- Builds one after the other return different revisions. -/
theorem separate_builds_differ :
    (System.reached RevisionRequest.script ⟨[], []⟩ oneAfterTheOther).progress
        0 = .finished (buildOf "a") (.ok 1) ∧
      (System.reached RevisionRequest.script ⟨[], []⟩
        oneAfterTheOther).progress 1 = .finished (buildOf "b") (.ok 2) ∧
      (1 : ℕ) ≠ 2 := by
  refine ⟨rfl, rfl, ?_⟩
  exact (timeline_revisions_unique ⟨[], []⟩ oneAfterTheOther
    (fun i j _ => oneAfterTheOther_separate i j)).1 0 1 (buildOf "a")
      (buildOf "b") 1 2 rfl rfl (by decide) rfl

end ApexForensic.Timeline
