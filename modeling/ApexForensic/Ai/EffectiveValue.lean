import ApexForensic.Ai.History

/-!
# The effective value of a recommendation

Previews show, and promotions add to the keyword set, what the last review
event brings.  That is the value standing after the whole history exactly when
the last event agrees with it: a comment after a correction does not.
-/

namespace ApexForensic.Ai

open ApexForensic.Support ApexForensic.Domain ApexForensic.Search

def addedKeywords (before after : KeywordStore) (keywordSetId : String) :
    List Keyword :=
  match before.getKeywordSet keywordSetId none,
    after.getKeywordSet keywordSetId none with
  | some old, some new =>
      new.keywords.filter fun keyword =>
        keyword.keywordId ∉ old.keywords.map Keyword.keywordId
  | _, _ => []

/-- What is read as the effective value of a recommendation. -/
def Store.effectiveText (store : Store) (r : KeywordRecommendation) : String :=
  (store.effectiveKeyword r).effectiveOrValue

variable {P : Platform} {store store' : Store}

theorem previewKeywordPromotion_eq_ok {id keywordSetId : String}
    {expectedCaseId : Option String} {regexConfirmed : Bool}
    {preview : PromotionPreview}
    (h : previewKeywordPromotion P store id keywordSetId expectedCaseId
      regexConfirmed = .ok preview) :
    ∃ r ∈ store.recommendations.rows, r.recommendationId = id ∧
      preview.effectiveValue = store.effectiveText r := by
  obtain ⟨r, hr, h⟩ := bind_ok h
  obtain ⟨_, -, h⟩ := bind_ok h
  obtain ⟨set, -, h⟩ := bind_ok h
  obtain ⟨_, -, h⟩ := bind_ok h
  obtain ⟨_, -, h⟩ := bind_ok h
  obtain ⟨stored, hmem, hid, rfl⟩ := getKeywordRecommendation_eq_ok hr
  exact ⟨stored, hmem, hid, by rw [← Except.ok.inj h]; rfl⟩

theorem promotionPlan_eq_ok {args : PromoteArgs} {plan : PromotionPlan}
    (h : promotionPlan P store args = .ok plan) :
    ∃ r ∈ store.recommendations.rows,
      r.recommendationId = args.recommendationId ∧
        plan.effectiveValue = store.effectiveText r ∧
        getKeywordSet store.keywords args.keywordSetId none = .ok plan.set := by
  obtain ⟨actorId, -, h⟩ := bind_ok h
  obtain ⟨reason, -, h⟩ := bind_ok h
  obtain ⟨r, hr, h⟩ := bind_ok h
  obtain ⟨_, -, h⟩ := bind_ok h
  obtain ⟨set, hset, h⟩ := bind_ok h
  obtain ⟨_, -, h⟩ := bind_ok h
  obtain ⟨_, -, h⟩ := bind_ok h
  obtain ⟨-, h⟩ := check_ok h
  obtain ⟨-, h⟩ := check_ok h
  dsimp only at h
  split at h
  · cases h
  · obtain ⟨stored, hmem, hid, rfl⟩ := getKeywordRecommendation_eq_ok hr
    refine ⟨stored, hmem, hid, ?_, ?_⟩
    · rw [← Except.ok.inj h]
      rfl
    · rw [← Except.ok.inj h]
      exact hset

theorem getKeywordSet_eq_ok {keywords : KeywordStore} {id : String}
    {version : Option ℕ} {set : KeywordSet}
    (h : getKeywordSet keywords id version = .ok set) :
    keywords.getKeywordSet id version = some set := by
  rw [Search.getKeywordSet] at h
  split at h
  · rename_i found hfound
    rw [hfound, Except.ok.inj h]
  · cases h

/-- Whatever a promotion adds to any keyword set is the effective value of its
recommendation without the white space around it. -/
theorem term_of_mem_addedKeywords (hstore : ReviewInvariant store)
    {args : PromoteArgs} {keywordInputs : AddKeywordInputs}
    {inputs : CallInputs} {keywordSetId : String} {keyword : Keyword}
    (h : keyword ∈ addedKeywords store.keywords
      ((promoteAcceptedKeyword P args keywordInputs inputs).after
        store).keywords keywordSetId) :
    ∃ r ∈ store.recommendations.rows,
      r.recommendationId = args.recommendationId ∧
        keyword.term = strip (store.effectiveText r) := by
  obtain ⟨-, -, hk | ⟨plan, updated, hplan, hadd⟩⟩ :=
    promoteAcceptedKeyword_after (P := P) args keywordInputs inputs store
  · rw [hk, addedKeywords] at h
    split at h
    · rename_i old new hold hnew
      obtain rfl := Option.some.inj (hold.symm.trans hnew)
      obtain ⟨hmem, hfresh⟩ := List.mem_filter.mp h
      simp only [decide_eq_true_eq] at hfresh
      exact absurd (List.mem_map_of_mem hmem) hfresh
    · cases h
  · obtain ⟨r, hr, hid, hvalue, hset⟩ := promotionPlan_eq_ok hplan
    obtain ⟨current, added, hcurrent, hterm, hcurrentId, hkeywords, hsave⟩ :=
      addKeyword_eq_ok hadd
    refine ⟨r, hr, hid, ?_⟩
    have hplanId := hstore.keywords.keywordSetId_of_get
      (getKeywordSet_eq_ok hset)
    have hcurrent := getKeywordSet_eq_ok hcurrent
    have hid' := hstore.keywords.keywordSetId_of_get hcurrent
    rw [addedKeywords, hstore.keywords.getKeywordSet_save hsave] at h
    split at h
    · rename_i old new hold hnew
      obtain ⟨hmem, hfresh⟩ := List.mem_filter.mp h
      simp only [decide_eq_true_eq] at hfresh
      split at hnew
      · rename_i heq
        rw [hcurrentId, hid'] at heq
        rw [← heq, hcurrent] at hold
        obtain rfl := Option.some.inj hold
        obtain rfl := Option.some.inj hnew
        rw [KeywordStore.row, List.mem_insertionSort, hkeywords] at hmem
        rcases List.mem_append.mp hmem with hmem | hmem
        · exact absurd (List.mem_map_of_mem hmem) hfresh
        · rw [List.mem_singleton.mp hmem, hterm, ← hvalue]
          rfl
      · obtain rfl := Option.some.inj (hold.symm.trans hnew)
        exact absurd (List.mem_map_of_mem hmem) hfresh
    · cases h

/-- For every history of calls and every recommendation: a preview shows, and
a promotion adds, the standing value exactly when the last review event agrees
with it; a comment leaves the effective value exactly when it brings that value
again; and a recommendation whose status is `CORRECTED` has a standing
correction. -/
theorem effectiveValue_exact (P : Platform) (ops : List Op)
    (r : KeywordRecommendation)
    (hr : r ∈ (reached P ops).recommendations.rows) :
    (∀ keywordSetId expectedCaseId regexConfirmed preview,
      previewKeywordPromotion P (reached P ops) r.recommendationId keywordSetId
        expectedCaseId regexConfirmed = .ok preview →
      (preview.effectiveValue =
          standingValue r.value ((reached P ops).history r.recommendationId) ↔
        LastEventAgrees id r.value
          ((reached P ops).history r.recommendationId))) ∧
    (∀ args keywordInputs inputs keywordSetId,
      args.recommendationId = r.recommendationId →
      ∀ keyword ∈ addedKeywords (reached P ops).keywords
        ((promoteAcceptedKeyword P args keywordInputs inputs).after
          (reached P ops)).keywords keywordSetId,
      (keyword.term =
          standingValue r.value ((reached P ops).history r.recommendationId) ↔
        LastEventAgrees strip r.value
          ((reached P ops).history r.recommendationId))) ∧
    (∀ expectedCaseId args inputs event store',
      reviewKeywordRecommendation P (reached P ops) r.recommendationId
        expectedCaseId args inputs = .ok (event, store') →
      event.action = .comment →
      (store'.effectiveText r = (reached P ops).effectiveText r ↔
        event.correctedValue.getD r.value =
          (reached P ops).effectiveText r)) ∧
    (((reached P ops).effectiveKeyword r).reviewStatus = .corrected →
      (standingCorrection
        ((reached P ops).history r.recommendationId)).isSome) := by
  have hstore := reviewInvariant_reached (P := P) ops
  generalize reached P ops = store at hstore hr
  obtain ⟨hstatus, hvalue, -⟩ := hstore.effective hr
  have hrow : ∀ s ∈ store.recommendations.rows,
      s.recommendationId = r.recommendationId → s = r := fun s hs heq =>
    store.recommendations.row_unique hs hr heq
  refine ⟨?_, ?_, ?_, fun hcorrected => ?_⟩
  · intro keywordSetId expectedCaseId regexConfirmed preview hpreview
    obtain ⟨s, hs, hid, heq⟩ := previewKeywordPromotion_eq_ok hpreview
    rw [heq, hrow s hs hid, Store.effectiveText, hvalue]
    exact @shown_eq_standingValue_iff id _ _
  · intro args keywordInputs inputs keywordSetId hargs keyword hkeyword
    obtain ⟨s, hs, hid, heq⟩ := term_of_mem_addedKeywords hstore hkeyword
    rw [heq, hrow s hs (hid.trans hargs), Store.effectiveText, hvalue]
    exact shown_eq_standingValue_iff
  · intro expectedCaseId args inputs event store' hreview hcomment
    have hstore' : ReviewInvariant store' := by
      have hstep := hstore.step (P := P)
        (.review r.recommendationId expectedCaseId args inputs)
      rwa [step, call, Service.after,
        Service.commit_of_ok (a := event) (t := store') hreview] at hstep
    obtain ⟨heq, htype, htarget, -⟩ :=
      reviewKeywordRecommendation_eq_ok hstore hreview
    have hr' : r ∈ store'.recommendations.rows := by rw [heq]; exact hr
    have hafter : store'.effectiveText r = event.correctedValue.getD r.value := by
      rw [Store.effectiveText, (hstore'.effective hr').2.1,
        history_concat event heq, if_pos ⟨htype, htarget⟩, broughtValue,
        List.getLast?_concat, Option.bind_some]
    rw [hafter]
  · rw [← statusAfter_eq_corrected_iff (hstore.corrections r.recommendationId),
      ← hstatus]
    exact hcorrected

/-! ## A comment after a correction -/

def keywordSetArgs : CreateKeywordSetArgs where
  caseId := "case"
  name := "Keywords"

def ingestArgs : IngestArgs where
  recommendationId := "recommendation"
  caseId := "case"
  contextSnapshotId := "snapshot"
  keywordType := .documentTerm
  value := "malwre"
  reason := "seen in the report"

def correctArgs : ReviewArgs where
  action := "CORRECT"
  actorId := "reviewer"
  reason := "typo"
  correctedValue := some "malware"

def commentArgs : ReviewArgs where
  action := "COMMENT"
  actorId := "reviewer"
  reason := "see the ticket"

def promoteArgs : PromoteArgs where
  recommendationId := "recommendation"
  keywordSetId := "set"
  actorId := "analyst"
  reason := "accepted"

def correctedOps : List Op :=
  [.keywords (.create keywordSetArgs ⟨"t0", "set", "version-1", fun _ => ""⟩),
   .ingest ingestArgs,
   .review "recommendation" none correctArgs ⟨"t1", "event-1"⟩]

def commentedOps : List Op :=
  correctedOps ++
    [.review "recommendation" none commentArgs ⟨"t2", "event-2"⟩]

def typoRecommendation : KeywordRecommendation where
  recommendationId := "recommendation"
  caseId := "case"
  contextSnapshotId := "snapshot"
  keywordType := .documentTerm
  value := "malwre"
  reason := "seen in the report"
  reviewStatus := .unreviewed
  currentReviewRevision := 0
  effectiveValue := none
  effectiveReason := none
  correctedReason := none

/-- A promotion of the recommendation, with fixed ids and times. -/
def promoteTypo : Service Store PyError KeywordPromotion :=
  promoteAcceptedKeyword asciiPlatform promoteArgs
    ⟨"t3", "keyword", "t4", "version-2"⟩ ⟨"t5", "promotion"⟩

theorem previewKeywordPromotion_of_effectiveValue {id keywordSetId : String}
    {expectedCaseId : Option String} {regexConfirmed : Bool} {value : String}
    (h : (previewKeywordPromotion P store id keywordSetId expectedCaseId
      regexConfirmed).toOption.map PromotionPreview.effectiveValue =
        some value) :
    ∃ preview, previewKeywordPromotion P store id keywordSetId expectedCaseId
        regexConfirmed = .ok preview ∧ preview.effectiveValue = value := by
  obtain ⟨preview, hpreview, hvalue⟩ := Option.map_eq_some_iff.mp h
  exact ⟨preview, eq_ok_of_toOption hpreview, hvalue⟩

/-- After the correction alone the preview shows it and the promotion adds
it. -/
theorem effectiveValue_exact_corrected :
    (∃ preview, previewKeywordPromotion asciiPlatform
        (reached asciiPlatform correctedOps) "recommendation" "set" none
        false = .ok preview ∧
      preview.effectiveValue = standingValue "malwre"
        ((reached asciiPlatform correctedOps).history "recommendation")) ∧
    ∃ keyword ∈ addedKeywords (reached asciiPlatform correctedOps).keywords
        (promoteTypo.after (reached asciiPlatform correctedOps)).keywords "set",
      keyword.term = standingValue "malwre"
        ((reached asciiPlatform correctedOps).history "recommendation") := by
  have hrow : typoRecommendation ∈
      (reached asciiPlatform correctedOps).recommendations.rows :=
    List.mem_singleton.mpr rfl
  obtain ⟨hpreviews, hadded, -, -⟩ := effectiveValue_exact asciiPlatform
    correctedOps typoRecommendation hrow
  have hshown : ∃ preview, previewKeywordPromotion asciiPlatform
      (reached asciiPlatform correctedOps) "recommendation" "set" none
      false = .ok preview ∧ preview.effectiveValue = "malware" :=
    previewKeywordPromotion_of_effectiveValue (by decide +kernel)
  have hterms : ∃ keyword ∈
      addedKeywords (reached asciiPlatform correctedOps).keywords
        (promoteTypo.after (reached asciiPlatform correctedOps)).keywords "set",
      keyword.term = "malware" := by decide +kernel
  obtain ⟨preview, hpreview, -⟩ := hshown
  obtain ⟨keyword, hkeyword, -⟩ := hterms
  refine ⟨⟨preview, hpreview, ?_⟩, keyword, hkeyword, ?_⟩
  · exact (hpreviews "set" none false preview hpreview).mpr
      (shown_eq_standingValue_iff.mp (by decide +kernel))
  · exact (hadded promoteArgs _ _ "set" rfl keyword hkeyword).mpr
      (shown_eq_standingValue_iff.mp (by decide +kernel))

/-- The typo is corrected, a comment follows: the standing value is the
correction, the status still says `CORRECTED`, and the preview shows and the
promotion adds the typo. -/
theorem comment_undoes_correction :
    (∃ r ∈ (reached asciiPlatform commentedOps).recommendations.rows,
      standingValue r.value ((reached asciiPlatform commentedOps).history
          r.recommendationId) = "malware" ∧
        ((reached asciiPlatform commentedOps).effectiveKeyword r).reviewStatus =
          .corrected) ∧
    (∃ preview, previewKeywordPromotion asciiPlatform
        (reached asciiPlatform commentedOps) "recommendation" "set" none
        false = .ok preview ∧ preview.effectiveValue = "malwre") ∧
    ∃ keyword ∈ addedKeywords (reached asciiPlatform commentedOps).keywords
        (promoteTypo.after (reached asciiPlatform commentedOps)).keywords "set",
      keyword.term = "malwre" := by
  have hrun :
      (∃ r ∈ (reached asciiPlatform commentedOps).recommendations.rows,
        standingValue r.value ((reached asciiPlatform commentedOps).history
            r.recommendationId) = "malware" ∧
          ((reached asciiPlatform commentedOps).effectiveKeyword r).reviewStatus
            = .corrected) ∧
      (previewKeywordPromotion asciiPlatform
        (reached asciiPlatform commentedOps) "recommendation" "set" none
        false).toOption.map PromotionPreview.effectiveValue = some "malwre" ∧
      ∃ keyword ∈ addedKeywords (reached asciiPlatform commentedOps).keywords
          (promoteTypo.after (reached asciiPlatform commentedOps)).keywords "set",
        keyword.term = "malwre" := by decide +kernel
  exact ⟨hrun.1, previewKeywordPromotion_of_effectiveValue hrun.2.1, hrun.2.2⟩

end ApexForensic.Ai
