import ApexForensic.Custody.TamperEvidence
import ApexForensic.Reports.Ownership

/-!
# The gate before a completed review

The review status is read off the last event alone and the verdicts off the
whole history, so neither sees whether the version was submitted, or judged,
since the review was last reopened.  When every completion finds its version
submitted and judged in the current round, a completed review is what it
should be.
-/

namespace ApexForensic.Reports

open ApexForensic.Support ApexForensic.Domain

variable {e : ReviewEvent} {version : ReportVersion} {events : List ReviewEvent}
  {args : ReviewArgs} {inputs : CallInputs}

/-! ## Rounds and verdicts -/

/-- The events after the last reopening. -/
def currentRound (events : List ReviewEvent) : List ReviewEvent :=
  (events.reverse.takeWhile fun e => e.action ≠ .reopenReview).reverse

def ReviewAction.isReviewing : ReviewAction → Bool
  | submitForReview => false
  | reopenReview => false
  | _ => true

def ReviewAction.verdict? : ReviewAction → Option Verdict
  | acceptSection => some .accepted
  | rejectSection => some .rejected
  | requestChanges => some .changesRequested
  | _ => none

def ReviewEvent.verdictOn (e : ReviewEvent) (sectionId : String) :
    Option Verdict :=
  if e.sectionId = some sectionId then e.action.verdict? else none

def lastVerdict (events : List ReviewEvent) (sectionId : String) :
    Option Verdict :=
  events.reverse.findSome? fun e => e.verdictOn sectionId

theorem currentRound_concat (he : e.action ≠ .reopenReview)
    (events : List ReviewEvent) :
    currentRound (events ++ [e]) = currentRound events ++ [e] := by
  simp [currentRound, he]

theorem currentRound_suffix (events : List ReviewEvent) :
    ∃ earlier, events = earlier ++ currentRound events := by
  refine ⟨(events.reverse.dropWhile fun e =>
    e.action ≠ .reopenReview).reverse, ?_⟩
  rw [currentRound, ← List.reverse_append, List.takeWhile_append_dropWhile,
    List.reverse_reverse]

theorem lastVerdict_append (earlier later : List ReviewEvent)
    (sectionId : String) :
    lastVerdict (earlier ++ later) sectionId =
      (lastVerdict later sectionId).or (lastVerdict earlier sectionId) := by
  rw [lastVerdict, List.reverse_append, List.findSome?_append]
  rfl

theorem lastVerdict_concat (events : List ReviewEvent) (e : ReviewEvent)
    (sectionId : String) :
    lastVerdict (events ++ [e]) sectionId =
      (e.verdictOn sectionId).or (lastVerdict events sectionId) := by
  rw [lastVerdict_append]
  congr 1
  cases h : e.verdictOn sectionId with
  | none => simp [lastVerdict, h]
  | some v => simp [lastVerdict, h]

theorem lookup_sectionReviewState (events : List ReviewEvent)
    (sectionId : String) :
    (sectionReviewState events).lookup sectionId =
      lastVerdict events sectionId := by
  induction events using List.reverseRecOn with
  | nil => rfl
  | append_singleton events e ih =>
      rw [lastVerdict_concat, ← ih, sectionReviewState, List.foldl_append]
      simp only [List.foldl_cons, List.foldl_nil, ReviewEvent.verdictOn]
      cases hid : e.sectionId with
      | none => simp [sectionReviewState]
      | some id =>
          by_cases h : id = sectionId
          · cases e.action <;>
              simp [ReviewAction.verdict?, lookup_setItem, h,
                sectionReviewState]
          · cases e.action <;>
              simp [lookup_setItem, h, sectionReviewState]

/-! ## The gate -/

/-- The events hold a submission in the current round. -/
def SubmittedInRound (events : List ReviewEvent) : Prop :=
  ∃ e ∈ currentRound events, e.action = .submitForReview

/-- No reviewing action was taken on the draft. -/
def NotReviewedInDraft (events : List ReviewEvent) : Prop :=
  ∀ before e after, events = before ++ e :: after →
    reviewStatus before = .draft → e.action.isReviewing = false

/-- What a completed review of a version must be. -/
structure ProperlyReviewed (version : ReportVersion)
    (events : List ReviewEvent) : Prop where
  sectionIds : (version.sections.map ReportSection.sectionId).Nodup
  submitted : SubmittedInRound events
  notInDraft : NotReviewedInDraft events
  accepted : ∀ item ∈ version.sections, item.reviewRequired = true →
    lastVerdict (currentRound events) item.sectionId = some .accepted

/-- Every version whose review status is complete was properly reviewed. -/
def GateHolds (store : Store) : Prop :=
  ∀ v ∈ store.versions,
    reviewStatus (store.reviewEventsOf v.reportVersionId) = .reviewComplete →
    ProperlyReviewed v (store.reviewEventsOf v.reportVersionId)

/-- The checks of a completion let it pass. -/
def CompletionPasses (version : ReportVersion) (events : List ReviewEvent) :
    Prop :=
  (reviewStatus events = .inReview ∨
      reviewStatus events = .changesRequested) ∧
    missingRequiredSectionReviews version events = []

/-- A completion whose checks pass finds its version submitted, and every
required section judged, in the current round. -/
def CompletesSubmitted (store : Store) : Op → Prop
  | .review args _ => args.action = .markReviewComplete →
      ∀ version, store.version? args.reportVersionId = some version →
        CompletionPasses version
          (store.reviewEventsOf version.reportVersionId) →
        SubmittedInRound (store.reviewEventsOf version.reportVersionId) ∧
        NotReviewedInDraft (store.reviewEventsOf version.reportVersionId) ∧
        ∀ item ∈ version.sections, item.reviewRequired = true →
          (lastVerdict (currentRound
            (store.reviewEventsOf version.reportVersionId))
            item.sectionId).isSome
  | _ => True

theorem checkReviewAction_complete {requestedChanges : List String} {u : Unit}
    (h : checkReviewAction version events args requestedChanges = .ok u)
    (hmark : args.action = .markReviewComplete) :
    CompletionPasses version events := by
  rw [checkReviewAction] at h
  obtain ⟨-, h⟩ := check_ok h
  obtain ⟨hstatus, h⟩ := check_ok h
  obtain ⟨-, h⟩ := check_ok h
  obtain ⟨-, h⟩ := check_ok h
  obtain ⟨hmissing, -⟩ := check_ok h
  constructor
  · by_contra hnot
    obtain ⟨hreview, hchanges⟩ := not_or.mp hnot
    exact hstatus ⟨hmark, hreview, hchanges⟩
  · by_contra hnot
    exact hmissing ⟨hmark, hnot⟩

theorem accepted_of_missing_eq_nil
    (h : missingRequiredSectionReviews version events = [])
    {item : ReportSection} (hitem : item ∈ version.sections)
    (hrequired : item.reviewRequired = true) :
    lastVerdict events item.sectionId = some .accepted := by
  have hmem : item.sectionId ∈
      (version.sections.filter ReportSection.reviewRequired).map
        ReportSection.sectionId :=
    List.mem_map.mpr ⟨item, List.mem_filter.mpr ⟨hitem, hrequired⟩, rfl⟩
  have hnot := List.filter_eq_nil_iff.mp h item.sectionId hmem
  rw [lookup_sectionReviewState] at hnot
  simpa using hnot

theorem lastVerdict_currentRound {sectionId : String}
    (h : (lastVerdict (currentRound events) sectionId).isSome) :
    lastVerdict (currentRound events) sectionId =
      lastVerdict events sectionId := by
  obtain ⟨earlier, hevents⟩ := currentRound_suffix events
  obtain ⟨v, hv⟩ := Option.isSome_iff_exists.mp h
  conv_rhs => rw [hevents, lastVerdict_append, hv]
  rw [hv]
  rfl

theorem properlyReviewed_concat
    (hsections : (version.sections.map ReportSection.sectionId).Nodup)
    (he : e.action = .markReviewComplete)
    (hpasses : CompletionPasses version events)
    (hsubmitted : SubmittedInRound events) (hdraft : NotReviewedInDraft events)
    (hjudged : ∀ item ∈ version.sections, item.reviewRequired = true →
      (lastVerdict (currentRound events) item.sectionId).isSome) :
    ProperlyReviewed version (events ++ [e]) := by
  have hreopen : e.action ≠ .reopenReview := by simp [he]
  refine ⟨hsections, ?_, ?_, ?_⟩
  · obtain ⟨submission, hmem, haction⟩ := hsubmitted
    refine ⟨submission, ?_, haction⟩
    rw [currentRound_concat hreopen]
    exact List.mem_append_left _ hmem
  · intro before e' after hsplit hstatus
    rcases List.eq_nil_or_concat' after with rfl | ⟨init, last, rfl⟩
    · obtain ⟨rfl, -⟩ := List.append_inj' hsplit rfl
      rcases hpasses.1 with hreview | hchanges
      · rw [hstatus] at hreview
        cases hreview
      · rw [hstatus] at hchanges
        cases hchanges
    · rw [← List.cons_append, ← List.append_assoc] at hsplit
      obtain ⟨hsplit, -⟩ := List.append_inj' hsplit rfl
      exact hdraft before e' init hsplit hstatus
  · intro item hitem hrequired
    have hverdict : e.verdictOn item.sectionId = none := by
      simp [ReviewEvent.verdictOn, he, ReviewAction.verdict?]
    rw [currentRound_concat hreopen, lastVerdict_concat, hverdict,
      Option.none_or, lastVerdict_currentRound (hjudged item hitem hrequired)]
    exact accepted_of_missing_eq_nil hpasses.2 hitem hrequired

theorem reviewStatus_concat_complete
    (h : reviewStatus (events ++ [e]) = .reviewComplete) :
    e.action = .markReviewComplete := by
  rw [reviewStatus, List.getLast?_concat] at h
  dsimp only at h
  split at h
  · assumption
  · cases h
  · cases h

section

variable {P : Platform} {s s' : Store}

theorem reviewEventsOf_eq (h : s'.reviewEvents = s.reviewEvents)
    (reportVersionId : String) :
    s'.reviewEventsOf reportVersionId = s.reviewEventsOf reportVersionId := by
  rw [Store.reviewEventsOf, Store.reviewEventsOf, h]

theorem GateHolds.of_eq (hgate : GateHolds s)
    (hversions : s'.versions = s.versions)
    (hevents : s'.reviewEvents = s.reviewEvents) : GateHolds s' := by
  intro v hv hcomplete
  rw [hversions] at hv
  rw [reviewEventsOf_eq hevents] at hcomplete ⊢
  exact hgate v hv hcomplete

theorem reviewEventsOf_eq_nil {reportVersionId : String}
    (h : ∀ e ∈ s.reviewEvents, e.reportVersionId ≠ reportVersionId) :
    s.reviewEventsOf reportVersionId = [] := by
  have hnil : (s.reviewEvents.filter fun e =>
      e.reportVersionId = reportVersionId) = [] :=
    List.filter_eq_nil_iff.mpr fun e he => by simpa using h e he
  rw [Store.reviewEventsOf, hnil]
  rfl

theorem GateHolds.of_createVersion (hs : WellOwned s) (hgate : GateHolds s)
    {args : CreateVersionArgs}
    (h : createVersion P s args inputs = .ok (version, s')) : GateHolds s' := by
  rcases createVersion_eq_ok h with ⟨rfl, -⟩ | ⟨heq, hnew, -⟩
  · exact hgate
  intro v hv hcomplete
  have hevents : s'.reviewEvents = s.reviewEvents := by rw [heq]
  rw [reviewEventsOf_eq hevents] at hcomplete ⊢
  rw [heq] at hv
  rcases List.mem_append.mp hv with hv | hv
  · exact hgate v hv hcomplete
  · rw [List.mem_singleton.mp hv, reviewEventsOf_eq_nil ?_] at hcomplete
    · cases hcomplete
    · intro e he hid
      obtain ⟨w, hw, howner⟩ := hs.reviewed e he
      exact hnew w hw (hid.symm.trans howner.symm)

theorem GateHolds.of_appendReviewEvent (hs : WellOwned s) (hgate : GateHolds s)
    {event : ReviewEvent} (hcond : CompletesSubmitted s (.review args inputs))
    (h : appendReviewEvent P s args inputs = .ok (event, s')) :
    GateHolds s' := by
  obtain ⟨⟨version, hbuilt⟩, heq⟩ := appendReviewEvent_eq_ok h
  have hrevision := hbuilt.reviewRevision
  rw [← hbuilt.reportVersionId] at hrevision
  have hevents : s'.reviewEvents = s.reviewEvents ++ [event] := by rw [heq]
  have hhistory := reviewEventsOf_append hrevision hevents
  intro v hv hcomplete
  rw [heq] at hv
  rw [hhistory] at hcomplete ⊢
  split at hcomplete
  · rename_i hid
    rw [if_pos hid]
    have htarget := (mem_of_version? hbuilt.target).1
    obtain rfl := hs.version_unique htarget hv
      (hbuilt.reportVersionId.symm.trans hid)
    have hmark := reviewStatus_concat_complete hcomplete
    obtain ⟨changes, hcheck⟩ := hbuilt.checked
    have hpasses := checkReviewAction_complete hcheck
      (hbuilt.action.symm.trans hmark)
    obtain ⟨hsubmitted, hdraft, hjudged⟩ :=
      hcond (hbuilt.action.symm.trans hmark) version hbuilt.target hpasses
    exact properlyReviewed_concat (hs.sectionIds _ hv) hmark hpasses
      hsubmitted hdraft hjudged
  · rename_i hid
    rw [if_neg hid]
    exact hgate v hv hcomplete

theorem GateHolds.of_written (hs : WellOwned s) (hgate : GateHolds s)
    {op : Op} (hcond : CompletesSubmitted s op) (h : Written P s op s') :
    GateHolds s' := by
  rcases h.reviews_cases with
    ⟨hversions, hevents⟩ | ⟨args, inputs, version, rfl, hcreate⟩ |
      ⟨args, inputs, event, rfl, happend⟩
  · exact hgate.of_eq hversions hevents
  · exact hgate.of_createVersion hs hcreate
  · exact hgate.of_appendReviewEvent hs hcond happend

/-- When every completion finds its version submitted and judged in the
current round, every completed review is a proper one. -/
theorem gateHolds_reached (P : Platform) (world : World) (ops : List Op)
    (hmeet : StepsMeet (step P) CompletesSubmitted (Store.empty world) ops) :
    GateHolds (reached P world ops) := by
  have hempty : WellOwned (Store.empty world) ∧
      GateHolds (Store.empty world) :=
    ⟨wellOwned_empty world, fun v hv _ => absurd hv (List.not_mem_nil)⟩
  have hstep : ∀ s op, (WellOwned s ∧ GateHolds s) → CompletesSubmitted s op →
      WellOwned (step P s op) ∧ GateHolds (step P s op) := by
    rintro s op ⟨hs, hgate⟩ hcond
    have hwritten := step_written (P := P) (s := s) op
    exact ⟨hs.of_written hwritten, hgate.of_written hs hcond hwritten⟩
  exact (run_invariant_of_stepsMeet hstep hempty hmeet).2

end

/-! ## A version completed without a submission -/

/-- A platform whose digest has no collisions. -/
def spelledPlatform : Platform where
  sha256 := Custody.spellOut
  zoneOffset _ _ := some 0
  casefold s := s.toLower
  isWord c := c.isAlphanum || c == '_'
  str _ := ""
  int _ := none
  derivedOutputRootId := "root"

/-- One case with two pieces of evidence, each with a custody chain. -/
def oneCase : World where
  caseLocale _ := some ("en-US", "UTC")
  ledger := (Custody.exec Custody.spelledPlatform Custody.twoChains).store
  evidenceItem _ := .obj []
  snapshot _ := none
  resource _ _ := none
  searchExecutionCase _ := none
  aiRequestCase _ := .ok "case"
  aiResultCase _ := none

/-- A call at a second of the epoch, with the identifier it draws. -/
def callAt (second : ℕ) (newId : String) : CallInputs :=
  ⟨⟨second * 1000000, some 0⟩, newId⟩

/-- A section that needs no review. -/
def openSection (citations : List Json) : Json :=
  .obj [("title", .str "F"), ("section_id", .str "s"),
    ("citations", .arr citations),
    ("coverage", .obj [("review_required", .bool false)])]

def versionArgs (citations : List Json) : CreateVersionArgs where
  reportId := "r"
  sourceKind := .str "ANALYST_DRAFT"
  createdBy := .str "a"
  title := .str "R"
  executiveSummary := .str "S"
  sections := [openSection citations]
  evidenceIds := .arr [.str "disk"]
  limitations := .arr [.str "L"]

/-- One report with one version on the disk. -/
def oneVersion (citations : List Json) : List Op :=
  [.createReport
    { caseId := "case", title := .str "R", createdBy := .str "a" }
    (callAt 1 "r"),
   .createVersion (versionArgs citations) (callAt 2 "v")]

/-- A review action of the version. -/
def reviewOf (action : ReviewAction) : ReviewArgs where
  reportVersionId := "v"
  action := action
  actorId := .str "a"
  reason := .str "w"

/-- The version after a first review action. -/
def reviewedOnce (citations : List Json) (action : ReviewAction) : List Op :=
  oneVersion citations ++ [.review (reviewOf action) (callAt 3 "e")]

/-- The version completed after a first review action. -/
def completedAfter (citations : List Json) (action : ReviewAction) :
    List Op :=
  reviewedOnce citations action ++
    [.review (reviewOf .markReviewComplete) (callAt 4 "m")]

theorem reviewedOnce_facts (action : ReviewAction)
    (haction : action = .comment ∨ action = .submitForReview) :
    (reached spelledPlatform oneCase (reviewedOnce [] action)).versions.map
        (fun v => (v.reportVersionId,
          v.sections.map ReportSection.reviewRequired)) = [("v", [false])] ∧
      ((reached spelledPlatform oneCase
        (reviewedOnce [] action)).reviewEventsOf "v").map ReviewEvent.action =
          [action] ∧
      (reached spelledPlatform oneCase (reviewedOnce [] action)).reviewEvents.map
        ReviewEvent.reviewEventId = ["e"] ∧
      (appendReviewEventRead spelledPlatform
        (reached spelledPlatform oneCase (reviewedOnce [] action))
        (reviewOf .markReviewComplete) (callAt 4 "m")).toOption.isSome =
          true := by
  rcases haction with rfl | rfl
  · decide +kernel
  · decide +kernel

/-- A completion that passes its checks in a history without a submission
breaks the gate. -/
theorem not_gateHolds_of_unsubmitted {P : Platform}
    (hdigest : Function.Injective P.sha256) {s : Store}
    (hhashed : EventsHashed P s) (hmark : args.action = .markReviewComplete)
    (hpasses : (appendReviewEventRead P s args inputs).toOption.isSome = true)
    (hfresh : ∀ e ∈ s.reviewEvents, inputs.newId ≠ e.reviewEventId)
    (hnone : ∀ e ∈ s.reviewEventsOf args.reportVersionId,
      e.action ≠ .submitForReview) :
    ¬ GateHolds (step P s (.review args inputs)) := by
  obtain ⟨⟨event, report⟩, hread⟩ := exists_ok_of_isSome hpasses
  have happend := appendReviewEvent_of_read hdigest hhashed hread hfresh
  generalize s.withReview event report = s' at happend
  have hstep : step P s (.review args inputs) = s' := call_eq_of_ok happend
  obtain ⟨⟨version, hbuilt⟩, heq⟩ := appendReviewEvent_eq_ok happend
  obtain ⟨hmem, hid⟩ := mem_of_version? hbuilt.target
  have haction : event.action = .markReviewComplete := hbuilt.action.trans hmark
  have hrevision := hbuilt.reviewRevision
  rw [← hbuilt.reportVersionId] at hrevision
  have hhistory : s'.reviewEventsOf version.reportVersionId =
      s.reviewEventsOf version.reportVersionId ++ [event] := by
    rw [reviewEventsOf_append hrevision (by rw [heq]),
      if_pos hbuilt.reportVersionId]
  intro hgate
  rw [hstep] at hgate
  have hversion : version ∈ s'.versions := by
    rw [heq]
    exact hmem
  have hreviewed := hgate version hversion (by
    rw [hhistory, reviewStatus, List.getLast?_concat]
    simp [haction])
  obtain ⟨submission, hsubmission, hsubmit⟩ := hreviewed.submitted
  obtain ⟨earlier, hsuffix⟩ := currentRound_suffix
    (s'.reviewEventsOf version.reportVersionId)
  have hin : submission ∈ s'.reviewEventsOf version.reportVersionId := by
    rw [hsuffix]
    exact List.mem_append_right _ hsubmission
  rw [hhistory] at hin
  rcases List.mem_append.mp hin with hin | hin
  · rw [hid] at hin
    exact hnone submission hin hsubmit
  · rw [List.mem_singleton.mp hin, haction] at hsubmit
    cases hsubmit

/-- A comment opens the review of a draft, and the review is completed without
a submission. -/
theorem completed_without_submission :
    ¬ GateHolds (reached spelledPlatform oneCase
      (completedAfter [] .comment)) := by
  obtain ⟨-, hactions, hids, hpasses⟩ :=
    reviewedOnce_facts .comment (Or.inl rfl)
  rw [completedAfter, reached, run_concat]
  apply not_gateHolds_of_unsubmitted Custody.spellOut_injective
    (eventsHashed_reached oneCase (reviewedOnce [] .comment)) rfl hpasses
  · intro e he heq
    have hmem := List.mem_map_of_mem (f := ReviewEvent.reviewEventId) he
    rw [hids, ← heq] at hmem
    simp [callAt] at hmem
  · intro e he heq
    have hmem := List.mem_map_of_mem (f := ReviewEvent.action) he
    rw [heq] at hmem
    simp [reviewOf, hactions] at hmem

/-- Submitted before it is completed, the version passes the gate. -/
theorem gateHolds_completedAfter_submission :
    GateHolds (reached spelledPlatform oneCase
      (completedAfter [] .submitForReview)) := by
  obtain ⟨hversions, hactions, -, -⟩ :=
    reviewedOnce_facts .submitForReview (Or.inr rfl)
  refine gateHolds_reached spelledPlatform oneCase _
    ((stepsMeet_append _ _ _).mpr
      ⟨⟨trivial, trivial, fun h => (by cases h), trivial⟩, ?_, trivial⟩)
  change CompletesSubmitted
    (reached spelledPlatform oneCase (reviewedOnce [] .submitForReview)) _
  generalize reached spelledPlatform oneCase
    (reviewedOnce [] .submitForReview) = s at *
  intro _ version htarget _
  obtain ⟨hmem, hid⟩ := mem_of_version? htarget
  change version.reportVersionId = "v" at hid
  rw [hid]
  obtain ⟨e, hevents, haction⟩ : ∃ e, s.reviewEventsOf "v" = [e] ∧
      e.action = .submitForReview := by
    obtain ⟨e, rest, hevents, haction, hrest⟩ := List.map_eq_cons_iff.mp hactions
    exact ⟨e, by rw [hevents, List.map_eq_nil_iff.mp hrest], haction⟩
  have hround : currentRound (s.reviewEventsOf "v") = [e] := by
    simp [currentRound, hevents, haction]
  refine ⟨⟨e, ?_, haction⟩, ?_, ?_⟩
  · rw [hround]
    exact List.mem_cons_self
  · intro before e' after hsplit hdraft
    have hmem' : e' ∈ s.reviewEventsOf "v" := by
      rw [hsplit]
      exact List.mem_append_right _ List.mem_cons_self
    rw [hevents, List.mem_singleton] at hmem'
    rw [hmem', haction]
    rfl
  · intro item hitem hrequired
    have hdata := List.mem_map_of_mem (f := fun v : ReportVersion =>
      (v.reportVersionId, v.sections.map ReportSection.reviewRequired)) hmem
    rw [hversions, List.mem_singleton] at hdata
    have hitem' := List.mem_map_of_mem (f := ReportSection.reviewRequired) hitem
    rw [(Prod.mk.inj hdata).2, List.mem_singleton, hrequired] at hitem'
    cases hitem'

end ApexForensic.Reports
