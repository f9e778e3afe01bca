import ApexForensic.Ai.Model
import ApexForensic.Support.Run

/-!
# Review histories

The events of a target are read in the order in which they were appended, and
the status of the latest one is what all actions together make of it.  What
stands for a recommendation after its reviews is stated here on its own: the
correction that was made last, unless the result was accepted as it is or
rejected since.
-/

namespace ApexForensic.Ai

open ApexForensic.Support ApexForensic.Domain ApexForensic.Search

/-! ## What stands after a history -/

/-- The corrected value that stands after the events, if there is one. -/
def standingCorrection (events : List VerificationEvent) : Option String :=
  events.foldl (fun standing event =>
    match event.action with
    | .accept => none
    | .reject => none
    | .correct => event.correctedValue
    | .comment => standing) none

def standingValue (original : String) (events : List VerificationEvent) :
    String :=
  (standingCorrection events).getD original

/-- The status after the actions of the events. -/
def statusAfter (events : List VerificationEvent) : ReviewStatus :=
  events.foldl (fun status event => reviewStatusForAction status event.action)
    .unreviewed

theorem standingCorrection_concat (events : List VerificationEvent)
    (event : VerificationEvent) :
    standingCorrection (events ++ [event]) =
      match event.action with
      | .accept => none
      | .reject => none
      | .correct => event.correctedValue
      | .comment => standingCorrection events := by
  rw [standingCorrection, List.foldl_append]
  rfl

theorem statusAfter_concat (events : List VerificationEvent)
    (event : VerificationEvent) :
    statusAfter (events ++ [event]) =
      reviewStatusForAction (statusAfter events) event.action := by
  rw [statusAfter, List.foldl_append]
  rfl

def CorrectionsCarryValues (events : List VerificationEvent) : Prop :=
  ∀ event ∈ events, event.action = .correct → event.correctedValue.isSome

theorem statusAfter_eq_corrected_iff {events : List VerificationEvent}
    (hevents : CorrectionsCarryValues events) :
    statusAfter events = .corrected ↔ (standingCorrection events).isSome := by
  induction events using List.reverseRecOn with
  | nil => simp [statusAfter, standingCorrection]
  | append_singleton events event ih =>
      have hbefore : CorrectionsCarryValues events := fun e he =>
        hevents e (List.mem_append_left _ he)
      have hlast := hevents event (List.mem_append_right _ List.mem_cons_self)
      rw [statusAfter_concat, standingCorrection_concat]
      cases haction : event.action with
      | accept => simp [reviewStatusForAction]
      | reject => simp [reviewStatusForAction]
      | correct => simpa [reviewStatusForAction] using hlast haction
      | comment => exact ih hbefore

/-- What the last event of a history brings: its corrected value, or the
original value when it has none. -/
def broughtValue (original : String) (events : List VerificationEvent) :
    String :=
  (events.getLast?.bind VerificationEvent.correctedValue).getD original

/-- The last event brings, as it is shown, what stands. -/
def LastEventAgrees (shown : String → String) (original : String)
    (events : List VerificationEvent) : Prop :=
  match events.getLast? with
  | none => shown original = original
  | some event =>
      let brought := event.correctedValue.getD original
      match event.action with
      | .correct => shown brought = brought
      | .accept => shown brought = original
      | .reject => shown brought = original
      | .comment => shown brought = standingValue original events.dropLast

/-- The value brought by the last event is the standing one exactly when the
last event agrees with what stands. -/
theorem shown_eq_standingValue_iff {shown : String → String}
    {original : String} {events : List VerificationEvent} :
    shown (broughtValue original events) = standingValue original events ↔
      LastEventAgrees shown original events := by
  rcases List.eq_nil_or_concat events with rfl | ⟨init, event, rfl⟩
  · rfl
  · simp only [LastEventAgrees, broughtValue, standingValue,
      List.concat_eq_append, List.getLast?_concat, List.dropLast_concat,
      standingCorrection_concat, Option.bind_some]
    cases event.action with
    | accept => rfl
    | reject => rfl
    | correct => rfl
    | comment => rfl

/-! ## Histories in the store -/

/-- The events of a recommendation, in the order in which they came. -/
def Store.history (store : Store) (recommendationId : String) :
    List VerificationEvent :=
  store.events.filter fun event =>
    event.targetType = .keywordRecommendation &&
      event.targetId = recommendationId

/-- What reviews keep: revisions of a target grow, statuses follow the
actions, and corrected values are texts that are not blank. -/
structure ReviewInvariant (store : Store) : Prop where
  revisions : store.events.Pairwise fun e f =>
    e.targetType = f.targetType → e.targetId = f.targetId →
      e.reviewRevision < f.reviewRevision
  statuses : ∀ id,
    (store.history id).getLast?.elim .unreviewed VerificationEvent.newStatus =
      statusAfter (store.history id)
  corrections : ∀ id, CorrectionsCarryValues (store.history id)
  notBlank : ∀ id, ∀ event ∈ store.history id, ∀ value,
    event.correctedValue = some value → value ≠ ""
  unreviewed : ∀ r ∈ store.recommendations.rows,
    r.reviewStatus = .unreviewed ∧ r.effectiveValue = none
  keywords : store.keywords.WellFormed

theorem reviewInvariant_empty : ReviewInvariant Store.empty where
  revisions := List.Pairwise.nil
  statuses := fun _ => rfl
  corrections := fun _ _ h => absurd h List.not_mem_nil
  notBlank := fun _ _ h => absurd h List.not_mem_nil
  unreviewed := fun _ h => absurd h List.not_mem_nil
  keywords := KeywordStore.wellFormed_empty

theorem verificationEvents_eq {store : Store}
    (hrevisions : store.events.Pairwise fun e f =>
      e.targetType = f.targetType → e.targetId = f.targetId →
        e.reviewRevision < f.reviewRevision)
    (targetType : TargetType) (targetId : String) :
    store.verificationEvents targetType targetId =
      store.events.filter fun event =>
        event.targetType = targetType && event.targetId = targetId := by
  refine List.Pairwise.insertionSort_eq ?_
  rw [List.pairwise_filter]
  refine hrevisions.imp fun {e f} h he hf => Or.inl ?_
  simp only [Bool.and_eq_true, decide_eq_true_eq] at he hf
  exact h (he.1.trans hf.1.symm) (he.2.trans hf.2.symm)

theorem ReviewInvariant.verificationEvents {store : Store}
    (hstore : ReviewInvariant store) (id : String) :
    store.verificationEvents .keywordRecommendation id = store.history id :=
  verificationEvents_eq hstore.revisions _ id

/-- The effective recommendation: the stored one with the status that its
history makes and the value that the last event brings. -/
theorem ReviewInvariant.effective {store : Store}
    (hstore : ReviewInvariant store) {r : KeywordRecommendation}
    (hr : r ∈ store.recommendations.rows) :
    (store.effectiveKeyword r).reviewStatus =
        statusAfter (store.history r.recommendationId) ∧
      (store.effectiveKeyword r).effectiveOrValue =
        broughtValue r.value (store.history r.recommendationId) ∧
      (store.effectiveKeyword r).recommendationId = r.recommendationId := by
  have hstatus := hstore.statuses r.recommendationId
  have hblank := hstore.notBlank r.recommendationId
  obtain ⟨hunreviewed, hnone⟩ := hstore.unreviewed r hr
  rw [Store.effectiveKeyword, hstore.verificationEvents, broughtValue]
  cases hlast : (store.history r.recommendationId).getLast? with
  | none =>
      rw [hlast] at hstatus
      refine ⟨hunreviewed.trans hstatus, ?_, rfl⟩
      simp [KeywordRecommendation.effectiveOrValue, hnone]
  | some latest =>
      rw [hlast] at hstatus
      have hmem := List.mem_of_getLast? hlast
      cases hvalue : latest.correctedValue with
      | none =>
          simp only [hvalue]
          refine ⟨hstatus, ?_, trivial⟩
          simp [KeywordRecommendation.effectiveOrValue, hnone, hvalue]
      | some value =>
          simp only [hvalue]
          refine ⟨hstatus, ?_, trivial⟩
          simp [KeywordRecommendation.effectiveOrValue, hvalue,
            hblank latest hmem value hvalue]

/-! ## The service as a system -/

inductive Op where
  | ingest (args : IngestArgs)
  | review (recommendationId : String) (expectedCaseId : Option String)
      (args : ReviewArgs) (inputs : CallInputs)
  | reviewSummary (caseId scopeSummaryId : String)
      (previousStatus : ReviewStatus) (args : ReviewArgs) (inputs : CallInputs)
  | promote (args : PromoteArgs) (keywordInputs : AddKeywordInputs)
      (inputs : CallInputs)
  | keywords (op : KeywordOp)

section

variable (P : Platform)

def call {α : Type} (f : Store → Except PyError (α × Store)) (store : Store) :
    Store :=
  (Service.commit f).after store

def step (store : Store) : Op → Store
  | .ingest args => call (fun s => ingestRecommendation P s args) store
  | .review recommendationId expectedCaseId args inputs =>
      call (fun s => reviewKeywordRecommendation P s recommendationId
        expectedCaseId args inputs) store
  | .reviewSummary caseId scopeSummaryId previousStatus args inputs =>
      call (fun s => appendReviewEvent P s caseId .scopeSummary scopeSummaryId
        previousStatus args inputs) store
  | .promote args keywordInputs inputs =>
      (promoteAcceptedKeyword P args keywordInputs inputs).after store
  | .keywords op =>
      call (fun s => do
        let (set, keywords) ← op.apply P.toSearch s.keywords
        return (set, { s with keywords })) store

/-- The store after a list of calls, from the empty one. -/
def reached (ops : List Op) : Store :=
  run (step P) Store.empty ops

end

variable {P : Platform} {store store' : Store}

theorem call_cases {α : Type} (f : Store → Except PyError (α × Store))
    (store : Store) :
    call f store = store ∨ ∃ a, f store = .ok (a, call f store) :=
  Service.after_commit_cases f store

theorem appendReviewEvent_eq_ok {caseId targetId : String}
    {targetType : TargetType} {previousStatus : ReviewStatus}
    {args : ReviewArgs} {inputs : CallInputs} {event : VerificationEvent}
    (h : appendReviewEvent P store caseId targetType targetId previousStatus
      args inputs = .ok (event, store')) :
    store' = { store with events := store.events ++ [event] } ∧
      event.targetType = targetType ∧ event.targetId = targetId ∧
      event.correctedValue = args.correctedValue ∧
      (event.action = .correct → event.correctedValue.isSome) ∧
      event.reviewRevision =
        (store.verificationEvents targetType targetId).getLast?.elim 0
          VerificationEvent.reviewRevision + 1 ∧
      event.newStatus = reviewStatusForAction
        ((store.verificationEvents targetType targetId).getLast?.elim
          previousStatus VerificationEvent.newStatus) event.action := by
  obtain ⟨actorId, -, h⟩ := bind_ok h
  obtain ⟨reason, -, h⟩ := bind_ok h
  obtain ⟨correctedReason, -, h⟩ := bind_ok h
  obtain ⟨action, -, h⟩ := bind_ok h
  obtain ⟨_, hcheck, h⟩ := bind_ok h
  obtain ⟨events, hinsert, h⟩ := bind_ok h
  obtain ⟨rfl, rfl⟩ := ok_pair_inj h
  obtain ⟨rfl, -⟩ := insertRow_eq_ok_iff.mp hinsert
  refine ⟨rfl, rfl, rfl, rfl, fun haction => ?_, rfl, rfl⟩
  unfold checkReview at hcheck
  obtain ⟨-, hcheck⟩ := check_ok hcheck
  obtain ⟨hcorrect, -⟩ := check_ok hcheck
  exact Option.ne_none_iff_isSome.mp fun hnone => hcorrect ⟨haction, hnone⟩

/-- A corrected value that passed its check is kept as it is and is not
blank. -/
theorem validateKeywordValue_eq_ok {value value' target : String}
    {keywordType : KeywordType}
    (h : validateKeywordValue P value keywordType target = .ok value') :
    value' = value ∧ value ≠ "" := by
  unfold validateKeywordValue at h
  obtain ⟨hblank, h⟩ := check_ok h
  obtain ⟨-, h⟩ := check_ok h
  obtain ⟨-, h⟩ := check_ok h
  obtain ⟨-, -, h⟩ := bind_ok h
  refine ⟨(Except.ok.inj h).symm, ?_⟩
  rintro rfl
  exact hblank (by decide)

theorem getKeywordRecommendation_eq_ok {id : String} {r : KeywordRecommendation}
    (h : store.getKeywordRecommendation id = .ok r) :
    ∃ stored ∈ store.recommendations.rows, stored.recommendationId = id ∧
      r = store.effectiveKeyword stored := by
  rw [Store.getKeywordRecommendation] at h
  split at h
  · rename_i stored hfind
    obtain ⟨hmem, hid⟩ := Table.find?_eq_some_iff.mp hfind
    exact ⟨stored, hmem, hid, (Except.ok.inj h).symm⟩
  · cases h

theorem reviewKeywordRecommendation_eq_ok {id : String}
    {expectedCaseId : Option String} {args : ReviewArgs} {inputs : CallInputs}
    {event : VerificationEvent} (hstore : ReviewInvariant store)
    (h : reviewKeywordRecommendation P store id expectedCaseId args inputs =
      .ok (event, store')) :
    store' = { store with events := store.events ++ [event] } ∧
      event.targetType = .keywordRecommendation ∧ event.targetId = id ∧
      (∀ value, event.correctedValue = some value → value ≠ "") ∧
      (event.action = .correct → event.correctedValue.isSome) ∧
      event.reviewRevision = (store.history id).getLast?.elim 0
        VerificationEvent.reviewRevision + 1 ∧
      event.newStatus =
        reviewStatusForAction (statusAfter (store.history id)) event.action := by
  obtain ⟨r, hr, h⟩ := bind_ok h
  obtain ⟨-, -, h⟩ := bind_ok h
  obtain ⟨_, hvalue, h⟩ := bind_ok h
  obtain ⟨stored, hmem, rfl, rfl⟩ := getKeywordRecommendation_eq_ok hr
  obtain ⟨hstatus, -, hid⟩ := hstore.effective hmem
  obtain ⟨hevents, htype, htarget, hcorrected, hcorrect, hrevision, hnew⟩ :=
    appendReviewEvent_eq_ok h
  rw [hid] at htarget hrevision hnew
  rw [hstore.verificationEvents] at hrevision hnew
  refine ⟨hevents, htype, htarget, fun value heq => ?_, hcorrect, hrevision, ?_⟩
  · rw [hcorrected] at heq
    rw [heq] at hvalue
    obtain ⟨_, hvalid, -⟩ := bind_ok hvalue
    exact (validateKeywordValue_eq_ok hvalid).2
  · rw [hnew, ← hstore.statuses, hstatus, ← hstore.statuses]
    cases (store.history stored.recommendationId).getLast? with
    | none => rfl
    | some latest => rfl

/-! ## What every call keeps -/

theorem history_concat (event : VerificationEvent) (hstore : store' = { store with
      events := store.events ++ [event] }) (id : String) :
    store'.history id =
      if event.targetType = .keywordRecommendation ∧ event.targetId = id then
        store.history id ++ [event]
      else store.history id := by
  subst hstore
  rw [Store.history, List.filter_append, Store.history]
  by_cases h : event.targetType = .keywordRecommendation ∧ event.targetId = id
  · rw [if_pos h]
    simp [h.1, h.2]
  · rw [if_neg h]
    have hnone : (decide (event.targetType = .keywordRecommendation) &&
        decide (event.targetId = id)) = false := by simpa using h
    rw [List.filter_singleton, hnone]
    exact List.append_nil _

/-- An event of the next revision keeps the invariant when, for a
recommendation, it follows from the history. -/
theorem ReviewInvariant.append {event : VerificationEvent}
    (hstore : ReviewInvariant store)
    (hstore' : store' = { store with events := store.events ++ [event] })
    (hrevision : event.reviewRevision =
      (store.verificationEvents event.targetType event.targetId).getLast?.elim 0
        VerificationEvent.reviewRevision + 1)
    (hreview : event.targetType = .keywordRecommendation →
      (∀ value, event.correctedValue = some value → value ≠ "") ∧
        (event.action = .correct → event.correctedValue.isSome) ∧
        event.newStatus = reviewStatusForAction
          (statusAfter (store.history event.targetId)) event.action) :
    ReviewInvariant store' := by
  have hhistory := history_concat event hstore'
  refine ⟨?_, fun id => ?_, fun id => ?_, fun id => ?_, ?_, ?_⟩
  · subst hstore'
    refine List.pairwise_append.mpr
      ⟨hstore.revisions, List.pairwise_singleton _ _, ?_⟩
    intro e he f hf htype htarget
    obtain rfl := List.mem_singleton.mp hf
    have hmem : e ∈ store.events.filter fun e =>
        e.targetType = f.targetType && e.targetId = f.targetId := by
      simp [he, htype, htarget]
    rw [hrevision]
    apply Nat.lt_succ_of_le
    exact revision_le_last hmem
  · rw [hhistory]
    split
    · rename_i h
      obtain ⟨htype, rfl⟩ := h
      rw [List.getLast?_concat, statusAfter_concat]
      exact (hreview htype).2.2
    · exact hstore.statuses id
  · rw [hhistory]
    split
    · rename_i h
      intro e he
      rcases List.mem_append.mp he with he | he
      · exact hstore.corrections id e he
      · obtain rfl := List.mem_singleton.mp he
        exact (hreview h.1).2.1
    · exact hstore.corrections id
  · rw [hhistory]
    split
    · rename_i h
      intro e he
      rcases List.mem_append.mp he with he | he
      · exact hstore.notBlank id e he
      · obtain rfl := List.mem_singleton.mp he
        exact (hreview h.1).1
    · exact hstore.notBlank id
  · subst hstore'
    exact hstore.unreviewed
  · subst hstore'
    exact hstore.keywords

/-- What `promote_accepted_keyword` leaves: the same reviews, and the keyword
sets as they were or with the keyword of its plan. -/
theorem promoteAcceptedKeyword_after (args : PromoteArgs)
    (keywordInputs : AddKeywordInputs) (inputs : CallInputs) (store : Store) :
    let store' := (promoteAcceptedKeyword P args keywordInputs inputs).after store
    store'.recommendations = store.recommendations ∧
      store'.events = store.events ∧
      (store'.keywords = store.keywords ∨
        ∃ plan updated, promotionPlan P store args = .ok plan ∧
          addKeyword P.toSearch store.keywords plan.set.keywordSetId
            (plan.keywordArgs P) keywordInputs =
              .ok (updated, store'.keywords)) := by
  have hsave : ∀ promotion (s : Store),
      let s' := (saveKeywordPromotion promotion).after s
      s'.recommendations = s.recommendations ∧ s'.events = s.events ∧
        s'.keywords = s.keywords := by
    intro promotion s
    rcases Service.after_commit_cases (fun store => do
      let promotions ← insertRow promotionConstraints store.promotions promotion
      return (promotion, { store with promotions })) s with h | ⟨p, h⟩
    · rw [saveKeywordPromotion, h]
      exact ⟨rfl, rfl, rfl⟩
    · obtain ⟨promotions, -, h⟩ := bind_ok h
      have heq := (ok_pair_inj h).2
      rw [saveKeywordPromotion, ← heq]
      exact ⟨rfl, rfl, rfl⟩
  intro store'
  rcases Service.after_bind_eq (m := Service.read fun store =>
      promotionPlan P store args) (s := store) (t := store') rfl with
    h | ⟨plan, hplan, h⟩
  · rw [Service.after_read] at h
    rw [h]
    exact ⟨rfl, rfl, Or.inl rfl⟩
  · rw [Service.after_read] at h
    rw [Service.result_read] at hplan
    rw [← h]
    cases plan.existing with
    | some promotion => exact ⟨rfl, rfl, Or.inl rfl⟩
    | none =>
        dsimp only
        split
        · obtain ⟨hr, he, hk⟩ := hsave _ store
          exact ⟨hr, he, Or.inl hk⟩
        · rcases Service.after_bind_eq (m := Service.commit fun store : Store => do
              let (updated, keywords) ← addKeyword P.toSearch store.keywords
                plan.set.keywordSetId (plan.keywordArgs P) keywordInputs
              return (updated, { store with keywords })) (s := store) rfl with
            h | ⟨updated, hupdated, h⟩
          · rw [h]
            rcases Service.after_commit_cases (fun store : Store => do
              let (updated, keywords) ← addKeyword P.toSearch store.keywords
                plan.set.keywordSetId (plan.keywordArgs P) keywordInputs
              return (updated, { store with keywords })) store with h | ⟨u, h⟩
            · rw [h]
              exact ⟨rfl, rfl, Or.inl rfl⟩
            · obtain ⟨⟨updated, keywords⟩, hadd, h⟩ := bind_ok h
              have heq := (ok_pair_inj h).2
              rw [← heq]
              exact ⟨rfl, rfl, Or.inr ⟨plan, updated, hplan, hadd⟩⟩
          · have hcommit := Service.commit_eq_ok hupdated
            obtain ⟨⟨updated', keywords⟩, hadd, hcommit⟩ := bind_ok hcommit
            have heq := (ok_pair_inj hcommit).2
            rw [← heq] at h
            obtain ⟨hr, he, hk⟩ := hsave _ { store with keywords }
            rw [h] at hr he hk
            rw [hk]
            exact ⟨hr, he, Or.inr ⟨plan, updated', hplan, hadd⟩⟩

theorem ReviewInvariant.step (hstore : ReviewInvariant store) (op : Op) :
    ReviewInvariant (step P store op) := by
  cases op with
  | ingest args =>
      rcases call_cases (fun s => ingestRecommendation P s args) store with
        h | ⟨r, h⟩
      · rw [Ai.step, h]
        exact hstore
      · obtain ⟨value, -, hrest⟩ := bind_ok h
        obtain ⟨reason, -, hrest⟩ := bind_ok hrest
        dsimp only at hrest
        split at hrest
        · rename_i recommendations hinsert
          have heq := (ok_pair_inj hrest).2
          obtain ⟨-, hrows⟩ := Table.insert_eq_some_iff.mp hinsert
          rw [Ai.step, ← heq]
          refine ⟨hstore.revisions, hstore.statuses, hstore.corrections,
            hstore.notBlank, fun s hs => ?_, hstore.keywords⟩
          rw [hrows] at hs
          rcases List.mem_append.mp hs with hs | hs
          · exact hstore.unreviewed s hs
          · obtain rfl := List.mem_singleton.mp hs
            exact ⟨rfl, rfl⟩
        · cases hrest
  | review id expectedCaseId args inputs =>
      rcases call_cases (fun s => reviewKeywordRecommendation P s id
        expectedCaseId args inputs) store with h | ⟨event, h⟩
      · rw [Ai.step, h]
        exact hstore
      · obtain ⟨heq, htype, rfl, hblank, hcorrect, hrevision, hnew⟩ :=
          reviewKeywordRecommendation_eq_ok hstore h
        refine hstore.append heq ?_ fun _ => ⟨hblank, hcorrect, hnew⟩
        rw [htype, hstore.verificationEvents]
        exact hrevision
  | reviewSummary caseId scopeSummaryId previousStatus args inputs =>
      rcases call_cases (fun s => appendReviewEvent P s caseId .scopeSummary
        scopeSummaryId previousStatus args inputs) store with h | ⟨event, h⟩
      · rw [Ai.step, h]
        exact hstore
      · obtain ⟨heq, htype, htarget, -, -, hrevision, -⟩ :=
          appendReviewEvent_eq_ok h
        refine hstore.append heq ?_ fun hkeyword => ?_
        · rw [htype, htarget]
          exact hrevision
        · rw [htype] at hkeyword
          cases hkeyword
  | promote args keywordInputs inputs =>
      obtain ⟨hr, he, hk⟩ := promoteAcceptedKeyword_after (P := P) args
        keywordInputs inputs store
      have hhistory : ∀ id,
          (Ai.step P store (.promote args keywordInputs inputs)).history id =
            store.history id := fun id => by
        rw [Store.history, Ai.step, he, Store.history]
      refine ⟨?_, fun id => ?_, fun id => ?_, fun id => ?_, ?_, ?_⟩
      · rw [Ai.step, he]
        exact hstore.revisions
      · rw [hhistory]
        exact hstore.statuses id
      · rw [hhistory]
        exact hstore.corrections id
      · rw [hhistory]
        exact hstore.notBlank id
      · rw [Ai.step, hr]
        exact hstore.unreviewed
      · rw [Ai.step]
        rcases hk with hk | ⟨plan, updated, -, hadd⟩
        · rw [hk]
          exact hstore.keywords
        · obtain ⟨-, -, -, -, -, -, hsave⟩ := addKeyword_eq_ok hadd
          exact hstore.keywords.saveKeywordSet hsave
  | keywords op =>
      rcases call_cases (fun s : Store => do
        let (set, keywords) ← op.apply P.toSearch s.keywords
        return (set, { s with keywords })) store with h | ⟨set, h⟩
      · rw [Ai.step, h]
        exact hstore
      · obtain ⟨⟨set', keywords⟩, happly, hrest⟩ := bind_ok h
        have heq := (ok_pair_inj hrest).2
        rw [Ai.step, ← heq]
        exact ⟨hstore.revisions, hstore.statuses, hstore.corrections,
          hstore.notBlank, hstore.unreviewed,
          hstore.keywords.saveKeywordSet (KeywordOp.apply_eq_ok happly)⟩

theorem reviewInvariant_reached (ops : List Op) :
    ReviewInvariant (reached P ops) :=
  run_invariant (fun _ op h => h.step op) reviewInvariant_empty ops

end ApexForensic.Ai
