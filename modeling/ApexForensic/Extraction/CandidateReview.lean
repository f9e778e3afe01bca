import ApexForensic.Domain.Rows
import ApexForensic.Domain.Table
import ApexForensic.Domain.TimeOrder
import ApexForensic.Support.PyText
import ApexForensic.Support.Transactions

/-!
# Reviews of machine-extracted candidates

A review reads its candidate and, in a later transaction, appends an event and
overwrites the review columns of the candidate.  The event keeps the status
that was read, and events are listed by time, so the listing tells the history
of the candidate as long as each append still finds the status its call read
and comes last in the listing.
-/

namespace ApexForensic.Extraction

open ApexForensic.Support ApexForensic.Domain

/-! ## The tables -/

inductive ReviewStatus where
  | unreviewed
  | accepted
  | rejected
  | corrected
  deriving DecidableEq

/-- A row of `machine_extracted_candidates`. -/
structure MachineExtractedCandidate where
  candidateId : String
  caseId : String
  text : String
  reviewStatus : ReviewStatus
  reviewedBy : Option String
  reviewedAt : Option String
  correctionText : Option String
  deriving DecidableEq

/-- A row of `candidate_review_events`. -/
structure CandidateReviewEvent where
  reviewEventId : String
  candidateId : String
  caseId : String
  reviewStatus : ReviewStatus
  reviewedBy : String
  reviewedAt : String
  correctionText : Option String
  previousReviewStatus : ReviewStatus
  reason : Option String
  deriving DecidableEq

structure CandidateStore where
  candidates : Table MachineExtractedCandidate.candidateId
  events : List CandidateReviewEvent

namespace CandidateStore

def getMachineCandidate (s : CandidateStore) (candidateId : String) :
    Option MachineExtractedCandidate :=
  s.candidates.find? candidateId

/-- `ORDER BY reviewed_at, review_event_id`. -/
def listCandidateReviews (s : CandidateStore) (candidateId : String) :
    List CandidateReviewEvent :=
  (s.events.filter fun e => e.candidateId = candidateId).insertionSort
    (orderBy CandidateReviewEvent.reviewedAt
      CandidateReviewEvent.reviewEventId)

end CandidateStore

def MachineExtractedCandidate.reviewed (c : MachineExtractedCandidate)
    (event : CandidateReviewEvent) (correctionText : Option String) :
    MachineExtractedCandidate :=
  { c with
    reviewStatus := event.reviewStatus
    reviewedBy := some event.reviewedBy
    reviewedAt := some event.reviewedAt
    correctionText := correctionText }

/-- The transaction of `append_candidate_review`. -/
def insertReview (event : CandidateReviewEvent)
    (correctionText : Option String) (s : CandidateStore) :
    Except PyError (Unit × CandidateStore × List CandidateReviewEvent) := do
  if event.reviewStatus = .corrected ∧ event.correctionText = none then
    .error (.builtin .integrityError ("CHECK constraint failed: " ++
      "review_status <> 'CORRECTED' OR correction_text IS NOT NULL"))
  let events ← insertRow
    [("candidate_review_events.review_event_id",
      fun a b => a.reviewEventId = b.reviewEventId)] s.events event
  let candidates := s.candidates.update
    (fun c => c.candidateId = event.candidateId)
    (fun c => c.reviewed event correctionText) fun _ => rfl
  return ((), { candidates, events }, [event])

/-! ## The call -/

abbrev ReviewScript :=
  Script CandidateStore CandidateReviewEvent PyError

def appendCandidateReview (event : CandidateReviewEvent)
    (correctionText : Option String) :
    ReviewScript MachineExtractedCandidate := do
  Script.attempt (insertReview event correctionText)
  Script.query fun s =>
    match s.getMachineCandidate event.candidateId with
    | some candidate => .ok candidate
    | none => .error (.builtin .integrityError
        "candidate disappeared after review insert")

section

/-- `value.replace("-", "_").replace(".", "_")`. -/
def underscored (value : String) : String :=
  String.ofList (value.toList.map fun c =>
    if c = '-' ∨ c = '.' then '_' else c)

variable (upper : String → String)

/-- `_parse_review_status`, under `str.upper`. -/
def parseReviewStatus (value : String) : Except PyError ReviewStatus :=
  match upper (underscored value) with
  | "UNREVIEWED" => .ok .unreviewed
  | "ACCEPTED" => .ok .accepted
  | "REJECTED" => .ok .rejected
  | "CORRECTED" => .ok .corrected
  | _ => .error (validationError "Unsupported review status."
      (some "review_status") [])

def parseFinalReviewStatus (value : String) : Except PyError ReviewStatus := do
  let normalized ← parseReviewStatus upper value
  if normalized = .unreviewed then
    .error (validationError
      "Review status must be ACCEPTED, REJECTED, or CORRECTED."
      (some "review_status") [])
  return normalized

structure ReviewArgs where
  candidateId : String
  reviewStatus : String
  reviewedBy : String
  correctionText : Option String
  reason : Option String

/-- What the clock and the id generator give a call. -/
structure ReviewInputs where
  reviewEventId : String
  now : Instant

structure ReviewRequest where
  args : ReviewArgs
  inputs : ReviewInputs

/-- `review_candidate` before it reads: the status, the reviewer and the
correction of the event. -/
def checkReview (args : ReviewArgs) :
    Except PyError (ReviewStatus × String × Option String) := do
  let status ← parseFinalReviewStatus upper args.reviewStatus
  let reviewedBy := strip args.reviewedBy
  if reviewedBy = "" then
    .error (validationError "reviewed_by is required." (some "reviewed_by") [])
  let stripped := args.correctionText.map strip
  if status = .corrected ∧ (stripped = none ∨ stripped = some "") then
    .error (validationError
      "correction_text is required when review_status is CORRECTED."
      (some "correction_text") [])
  return (status, reviewedBy, stripped.filter fun text => text ≠ "")

def ReviewRequest.event (request : ReviewRequest)
    (checked : ReviewStatus × String × Option String)
    (candidate : MachineExtractedCandidate) : CandidateReviewEvent where
  reviewEventId := request.inputs.reviewEventId
  candidateId := request.args.candidateId
  caseId := candidate.caseId
  reviewStatus := checked.1
  reviewedBy := checked.2.1
  reviewedAt := request.inputs.now.text
  correctionText := checked.2.2
  previousReviewStatus := candidate.reviewStatus
  reason := request.args.reason

def reviewCandidate (request : ReviewRequest) :
    ReviewScript MachineExtractedCandidate := do
  let checked ← Script.done (checkReview upper request.args)
  let candidate ← Script.query fun s =>
    match s.getMachineCandidate request.args.candidateId with
    | some candidate => .ok candidate
    | none => .error (notFoundError "CANDIDATE_NOT_FOUND"
        "Candidate not found." (some "candidate_id"))
  let event := request.event checked candidate
  appendCandidateReview event event.correctionText

end

/-! ## The law of a candidate -/

/-- The status after some events. -/
def statusAfter (events : List CandidateReviewEvent) : ReviewStatus :=
  events.getLast?.elim .unreviewed CandidateReviewEvent.reviewStatus

/-- Each event follows on the status of the event before it. -/
def FollowsOn (events : List CandidateReviewEvent) : Prop :=
  events.map CandidateReviewEvent.previousReviewStatus =
    (.unreviewed :: events.map CandidateReviewEvent.reviewStatus).dropLast

instance (events : List CandidateReviewEvent) :
    Decidable (FollowsOn events) :=
  inferInstanceAs (Decidable (_ = _))

/-- The candidate with this extracted text is as the listing of its reviews
tells. -/
structure ToldBy (candidate : MachineExtractedCandidate)
    (events : List CandidateReviewEvent) (text : String) : Prop where
  text : candidate.text = text
  status : candidate.reviewStatus = statusAfter events
  reviewer : candidate.reviewedBy =
    events.getLast?.map CandidateReviewEvent.reviewedBy
  correction : candidate.correctionText =
    events.getLast?.bind CandidateReviewEvent.correctionText
  chain : FollowsOn events
  corrected : candidate.reviewStatus = .corrected →
    candidate.correctionText ≠ none
  uncorrected : ∀ last, events.getLast? = some last →
    last.correctionText = none → candidate.correctionText = none

/-- The law of one candidate in a store. -/
def ReviewLaw (candidateId text : String) (s : CandidateStore) : Prop :=
  ∃ candidate, s.getMachineCandidate candidateId = some candidate ∧
    ToldBy candidate (s.listCandidateReviews candidateId) text

/-- The candidate is as `save_machine_candidate` left it. -/
structure Unreviewed (candidateId text : String) (s : CandidateStore) :
    Prop where
  candidate : ∃ caseId, s.getMachineCandidate candidateId =
    some ⟨candidateId, caseId, text, .unreviewed, none, none, none⟩
  events : ∀ e ∈ s.events, e.candidateId ≠ candidateId

/-- Appending the event now keeps the history in order: its call read the
status the candidate still has, and no event of the candidate is listed
after it. -/
structure InOrder (s : CandidateStore) (event : CandidateReviewEvent) :
    Prop where
  status : ∀ candidate,
    s.getMachineCandidate event.candidateId = some candidate →
    candidate.reviewStatus = event.previousReviewStatus
  last : ∀ e ∈ s.events, e.candidateId = event.candidateId →
    orderBy CandidateReviewEvent.reviewedAt
      CandidateReviewEvent.reviewEventId e event

/-! ## One append -/

section

variable {s : CandidateStore} {t : CandidateStore × List CandidateReviewEvent}
  {event : CandidateReviewEvent} {correctionText : Option String}
  {candidateId text : String}

theorem insertReview_cases
    (h : insertReview event correctionText s = .ok ((), t)) :
    (event.reviewStatus = .corrected → event.correctionText ≠ none) ∧
      t.1.events = s.events ++ [event] ∧ t.2 = [event] ∧
      ∀ id, t.1.getMachineCandidate id =
        (s.getMachineCandidate id).map fun c =>
          if c.candidateId = event.candidateId then
            c.reviewed event correctionText
          else c := by
  unfold insertReview at h
  obtain ⟨hcheck, h⟩ := check_ok h
  obtain ⟨events, hevents, h⟩ := bind_ok h
  obtain ⟨rfl, -⟩ := insertRow_eq_ok_iff.mp hevents
  obtain ⟨-, rfl⟩ := ok_pair_inj h
  refine ⟨fun hcorrected hnone => hcheck ⟨hcorrected, hnone⟩, rfl, rfl, ?_⟩
  intro id
  refine (Table.find?_update s.candidates _
    (fun c => c.reviewed event correctionText) (fun _ => rfl) id).trans ?_
  simp only [decide_eq_true_eq, CandidateStore.getMachineCandidate]

theorem statusAfter_concat (events : List CandidateReviewEvent) :
    statusAfter (events ++ [event]) = event.reviewStatus := by
  rw [statusAfter, List.getLast?_concat, Option.elim_some]

theorem getLast_statuses (events : List CandidateReviewEvent) :
    (ReviewStatus.unreviewed ::
        events.map CandidateReviewEvent.reviewStatus).getLast
      (List.cons_ne_nil _ _) = statusAfter events := by
  rcases List.eq_nil_or_concat events with rfl | ⟨events, event, rfl⟩
  · rfl
  · rw [List.concat_eq_append, statusAfter_concat]
    simp

theorem FollowsOn.concat {events : List CandidateReviewEvent}
    (h : FollowsOn events)
    (hevent : event.previousReviewStatus = statusAfter events) :
    FollowsOn (events ++ [event]) := by
  have hsplit := List.dropLast_append_getLast
    (List.cons_ne_nil ReviewStatus.unreviewed
      (events.map CandidateReviewEvent.reviewStatus))
  rw [getLast_statuses, ← hevent, ← show events.map _ = _ from h] at hsplit
  rw [FollowsOn, List.map_append, List.map_append, ← List.cons_append,
    List.map_singleton, List.map_singleton, List.dropLast_concat]
  exact hsplit

theorem listCandidateReviews_of_ne
    (hevents : t.1.events = s.events ++ [event])
    (hne : event.candidateId ≠ candidateId) :
    t.1.listCandidateReviews candidateId =
      s.listCandidateReviews candidateId := by
  rw [CandidateStore.listCandidateReviews, hevents, List.filter_append,
    List.filter_singleton, decide_eq_false hne]
  simp [CandidateStore.listCandidateReviews]

theorem listCandidateReviews_concat (horder : InOrder s event)
    (hevents : t.1.events = s.events ++ [event]) :
    t.1.listCandidateReviews event.candidateId =
      s.listCandidateReviews event.candidateId ++ [event] := by
  rw [CandidateStore.listCandidateReviews, hevents, List.filter_append,
    List.filter_singleton, decide_eq_true rfl]
  refine insertionSort_concat fun e he => ?_
  obtain ⟨hmem, hsame⟩ := List.mem_filter.mp he
  exact horder.last e hmem (of_decide_eq_true hsame)

/-- The law of a candidate survives an append in order, and the reviews of
others. -/
theorem ReviewLaw.insertReview (hlaw : ReviewLaw candidateId text s)
    (h : insertReview event event.correctionText s = .ok ((), t))
    (horder : event.candidateId = candidateId → InOrder s event) :
    ReviewLaw candidateId text t.1 := by
  obtain ⟨candidate, hget, htold⟩ := hlaw
  obtain ⟨hcorrected, hevents, -, hcandidates⟩ := insertReview_cases h
  have hid : candidate.candidateId = candidateId :=
    (Table.find?_eq_some_iff.mp hget).2
  have hget' := hcandidates candidateId
  rw [hget, Option.map_some] at hget'
  by_cases hsame : event.candidateId = candidateId
  · subst hsame
    rw [if_pos hid] at hget'
    refine ⟨_, hget', ?_⟩
    rw [listCandidateReviews_concat (horder rfl) hevents]
    have hread := (horder rfl).status candidate hget
    exact {
      text := htold.text
      status := (statusAfter_concat _).symm
      reviewer := by
        rw [List.getLast?_concat]
        rfl
      correction := by
        rw [List.getLast?_concat]
        rfl
      chain := htold.chain.concat (hread.symm.trans htold.status)
      corrected := hcorrected
      uncorrected := by
        intro last hlast hnone
        rw [List.getLast?_concat] at hlast
        obtain rfl := Option.some.inj hlast
        exact hnone }
  · rw [if_neg (fun heq => hsame (heq.symm.trans hid))] at hget'
    refine ⟨candidate, hget', ?_⟩
    rwa [listCandidateReviews_of_ne hevents hsame]

theorem Unreviewed.reviewLaw (h : Unreviewed candidateId text s) :
    ReviewLaw candidateId text s := by
  obtain ⟨caseId, hget⟩ := h.candidate
  have hnone : s.listCandidateReviews candidateId = [] := by
    rw [CandidateStore.listCandidateReviews, List.filter_eq_nil_iff.mpr]
    · rfl
    · intro e he
      exact decide_eq_false (h.events e he) ▸ Bool.false_ne_true
  refine ⟨_, hget, ?_⟩
  rw [hnone]
  exact ⟨rfl, rfl, rfl, rfl, rfl, nofun, nofun⟩

end

/-! ## Interleaved reviews -/

section

variable {ι : Type} [DecidableEq ι] (upper : String → String)

/-- A transaction of a review reads or appends one event. -/
def ReviewStep (s : CandidateStore)
    (t : CandidateStore × List CandidateReviewEvent) : Prop :=
  t = (s, []) ∨
    ∃ event, insertReview event event.correctionText s = .ok ((), t)

theorem reviewCandidate_respects (request : ReviewRequest) :
    (reviewCandidate upper request).Respects ReviewStep := by
  have hrefl : ∀ s, ReviewStep s (s, []) := fun s => Or.inl rfl
  refine Script.respects_bind (Script.respects_done _) fun checked => ?_
  refine Script.respects_bind (Script.respects_query hrefl _)
    fun candidate => ?_
  refine Script.respects_bind (Script.respects_attempt hrefl ?_)
    fun _ => Script.respects_query hrefl _
  intro s _ t h
  exact Or.inr ⟨_, h⟩

variable {upper}

/-- Each review of the candidate that the run appends is appended in order. -/
def AppendedInOrder (upper : String → String) (candidateId : String)
    (s₀ : CandidateStore) (moves : List (Move ι ReviewRequest)) : Prop :=
  ∀ before i after event, moves = before ++ .advance i :: after →
    event.candidateId = candidateId →
    (System.reached (reviewCandidate upper) s₀
        (before ++ [.advance i])).log =
      (System.reached (reviewCandidate upper) s₀ before).log ++
        [(i, event)] →
    InOrder (System.reached (reviewCandidate upper) s₀ before).store event

/-- However reviews interleave, the listing tells the history of a candidate
as long as each review is appended in order. -/
theorem reviewChain_holds {s₀ : CandidateStore} {candidateId text : String}
    (hfirst : Unreviewed candidateId text s₀)
    (moves : List (Move ι ReviewRequest))
    (horder : AppendedInOrder upper candidateId s₀ moves) :
    ReviewLaw candidateId text
      (System.reached (reviewCandidate upper) s₀ moves).store := by
  induction moves using List.reverseRecOn with
  | nil => exact hfirst.reviewLaw
  | append_singleton moves move ih =>
      have hlaw := ih fun before i after event hmoves =>
        horder before i (after ++ [move]) event (by simp [hmoves])
      rcases System.history_step s₀ (reviewCandidate_respects upper) moves
        move with hsame | ⟨i, t, rfl, hstep, hafter⟩
      · rwa [congrArg History.store hsame]
      rw [congrArg History.store hafter]
      rcases hstep with rfl | ⟨event, hinsert⟩
      · exact hlaw
      · refine hlaw.insertReview hinsert fun hid => ?_
        refine horder moves i [] event rfl hid ?_
        rw [congrArg History.log hafter, History.after,
          (insertReview_cases hinsert).2.2.1]
        rfl

end

/-! ## Two reviews that read the same status -/

/-- `str.upper` of a text of ASCII letters. -/
def upperLetters (s : String) : String :=
  String.ofList (s.toList.map Char.toUpper)

/-- A store with one candidate that no one has reviewed. -/
def freshStore : CandidateStore where
  candidates := ⟨[⟨"candidate", "case", "text", .unreviewed, none, none,
    none⟩], List.nodup_singleton _⟩
  events := []

def acceptance : ReviewRequest where
  args := ⟨"candidate", "ACCEPTED", "first reviewer", none, none⟩
  inputs := ⟨"event-1", ⟨0, Instant.zero_inRange⟩⟩

def rejection : ReviewRequest where
  args := ⟨"candidate", "REJECTED", "second reviewer", none, none⟩
  inputs := ⟨"event-2", ⟨1, by decide⟩⟩

theorem unreviewed_freshStore : Unreviewed "candidate" "text" freshStore :=
  ⟨⟨"case", rfl⟩, fun _ he => absurd he List.not_mem_nil⟩

/-- What the first acceptance appends. -/
def acceptanceEvent : CandidateReviewEvent where
  reviewEventId := "event-1"
  candidateId := "candidate"
  caseId := "case"
  reviewStatus := .accepted
  reviewedBy := "first reviewer"
  reviewedAt := "1970-01-01T00:00:00.000000Z"
  correctionText := none
  previousReviewStatus := .unreviewed
  reason := none

theorem reviewChain_holds_once :
    ReviewLaw "candidate" "text"
      (System.reached (reviewCandidate upperLetters) freshStore
        [.start () acceptance, .advance (), .advance ()]).store := by
  refine reviewChain_holds unreviewed_freshStore _ ?_
  intro before i after event hmoves hid hlog
  have hread : (System.reached (reviewCandidate upperLetters) freshStore
      [.start () acceptance, .advance ()]).log = [] := by
    decide +kernel
  have happended : (System.reached (reviewCandidate upperLetters) freshStore
      [.start () acceptance, .advance (), .advance ()]).log =
      [((), acceptanceEvent)] := by
    decide +kernel
  have hstatus : (System.reached (reviewCandidate upperLetters) freshStore
      [.start () acceptance, .advance ()]).store.getMachineCandidate
        "candidate" =
      some ⟨"candidate", "case", "text", .unreviewed, none, none, none⟩ := by
    decide +kernel
  have hevents : (System.reached (reviewCandidate upperLetters) freshStore
      [.start () acceptance, .advance ()]).store.events = [] := by
    decide +kernel
  rcases before with _ | ⟨m, _ | ⟨m', _ | ⟨m'', before⟩⟩⟩
  · cases hmoves
  · cases hmoves
    exact absurd (hread.symm.trans hlog) (by simp)
  · cases hmoves
    have hevent := happended.symm.trans hlog
    rw [hread, List.nil_append] at hevent
    obtain rfl := (Prod.mk.inj (List.head_eq_of_cons_eq hevent)).2
    constructor
    · intro candidate hget
      cases hstatus.symm.trans hget
      rfl
    · intro e he
      rw [hevents] at he
      cases he
  · simp at hmoves

/-- Both calls read the candidate before either appends: the second event says
that it follows on the status before the first. -/
def racingReviews : List (Move Bool ReviewRequest) :=
  [.start false acceptance, .start true rejection, .advance false,
    .advance true, .advance false, .advance true]

theorem racingReviews_not_lawful :
    ¬ ReviewLaw "candidate" "text"
      (System.reached (reviewCandidate upperLetters) freshStore
        racingReviews).store := by
  have hchain : ¬ FollowsOn ((System.reached
      (reviewCandidate upperLetters) freshStore
        racingReviews).store.listCandidateReviews "candidate") := by
    decide +kernel
  rintro ⟨candidate, -, htold⟩
  exact hchain htold.chain

end ApexForensic.Extraction
