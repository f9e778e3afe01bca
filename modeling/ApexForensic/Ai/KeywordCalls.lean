import ApexForensic.Ai.Model
import ApexForensic.Search.KeywordVersions
import ApexForensic.Support.Transactions

/-!
# Keyword versions under interleaved calls

A call reads the current version of a keyword set and stores the next one in a
later transaction; a promotion also reads a recommendation and the promotions
before it, and keeps its record in a transaction of its own.  Between its
transactions other calls may store versions and promotions.
-/

namespace ApexForensic.Ai.Interleaved

open ApexForensic.Support ApexForensic.Domain ApexForensic.Search

/-! ## The calls -/

/-- A version was stored by a call that was to remove a keyword, or none. -/
inductive KeywordEvent where
  | saved (version : KeywordSet) (removed : Option String)

abbrev KeywordScript :=
  Script Store KeywordEvent PyError

/-- `SearchService.get_keyword_set`, of the current version. -/
def readKeywordSet (keywordSetId : String) : KeywordScript KeywordSet :=
  Script.query fun s => getKeywordSet s.keywords keywordSetId none

section

variable (P : Platform)

/-- `_new_keyword_set_version`. -/
def saveVersion (current : KeywordSet) (keywords : List Keyword)
    (status : KeywordSetStatus) (now newId : String)
    (removed : Option String) : KeywordScript KeywordSet :=
  Script.attempt fun s => do
    let saved ← newKeywordSetVersion P.toSearch s.keywords current keywords
      status now newId
    return (saved.1, { s with keywords := saved.2 },
      [.saved saved.1 removed])

/-- The keyword that `add_keyword` appends. -/
def newKeyword (args : AddKeywordArgs) (inputs : AddKeywordInputs) :
    Except PyError Keyword := do
  let term ← requireNonEmpty args.term "term"
  let keyword : Keyword :=
    { keywordId := inputs.keywordId
      term
      keywordType := args.keywordType
      matchMode := args.matchMode
      caseSensitive := args.caseSensitive
      enabled := args.enabled
      notes := args.notes
      source := args.source
      createdAt := inputs.now }
  validateKeyword P.toSearch keyword
  return keyword

def addKeyword (keywordSetId : String) (args : AddKeywordArgs)
    (inputs : AddKeywordInputs) : KeywordScript KeywordSet := do
  let set ← readKeywordSet keywordSetId
  let keyword ← Script.done (newKeyword P args inputs)
  saveVersion P set (set.keywords ++ [keyword]) .draft inputs.versionNow
    inputs.versionId none

/-- What `remove_keyword` leaves of a version. -/
def withoutKeyword (set : KeywordSet) (keywordId : String) :
    Except PyError (List Keyword) := do
  let keywords := set.keywords.filter fun keyword =>
    keyword.keywordId ≠ keywordId
  if keywords.length = set.keywords.length then
    .error (notFoundError "KEYWORD_NOT_FOUND" "Keyword not found."
      (some "keyword_id"))
  return keywords

def removeKeyword (keywordSetId keywordId : String)
    (versionNow versionId : String) : KeywordScript KeywordSet := do
  let set ← readKeywordSet keywordSetId
  let keywords ← Script.done (withoutKeyword set keywordId)
  saveVersion P set keywords .draft versionNow versionId (some keywordId)

def checkActivation (set : KeywordSet) (status : KeywordSetStatus) :
    Except PyError Unit :=
  if status = .active ∧ set.keywords = [] then
    .error (validationError "Cannot activate an empty keyword set."
      (some "keyword_set_id") [])
  else .ok ()

/-- `activate_keyword_set`, `archive_keyword_set` and
`version_keyword_set`. -/
def changeKeywordSetStatus (keywordSetId : String)
    (status : KeywordSetStatus) (versionNow versionId : String) :
    KeywordScript KeywordSet := do
  let set ← readKeywordSet keywordSetId
  Script.done (checkActivation set status)
  saveVersion P set set.keywords status versionNow versionId none

/-- `create_keyword_set`: the case apart it reads nothing. -/
def createKeywordSet (args : CreateKeywordSetArgs)
    (inputs : CreateKeywordSetInputs) : KeywordScript KeywordSet :=
  Script.attempt fun s => do
    let saved ← Search.createKeywordSet P.toSearch s.keywords args inputs
    return (saved.1, { s with keywords := saved.2 }, [.saved saved.1 none])

def changeKeywords : KeywordOp → KeywordScript KeywordSet
  | .create args inputs => createKeywordSet P args inputs
  | .add keywordSetId args inputs => addKeyword P keywordSetId args inputs
  | .remove keywordSetId keywordId versionNow versionId =>
      removeKeyword P keywordSetId keywordId versionNow versionId
  | .changeStatus keywordSetId status versionNow versionId =>
      changeKeywordSetStatus P keywordSetId status versionNow versionId

/-- `save_ai_keyword_promotion`. -/
def savePromotion (promotion : KeywordPromotion) :
    KeywordScript KeywordPromotion :=
  Script.attempt fun s => do
    let promotions ← insertRow promotionConstraints s.promotions promotion
    return (promotion, { s with promotions }, [])

/-- `promote_accepted_keyword`, once it has read all but the version that
`add_keyword` reads. -/
def finishPromotion (plan : PromotionPlan) (args : PromoteArgs)
    (keywordInputs : AddKeywordInputs) (inputs : CallInputs) :
    KeywordScript KeywordPromotion :=
  match plan.existing with
  | some promotion => pure promotion
  | none =>
      match keywordSetDuplicate P plan.set plan.effectiveValue plan.matchMode
        false with
      | some duplicate =>
          savePromotion (plan.promotion args plan.set
            (some duplicate.keywordId) true inputs)
      | none => do
          let updated ← addKeyword P plan.set.keywordSetId
            (plan.keywordArgs P) keywordInputs
          savePromotion (plan.promotion args updated
            (newKeywordId plan.set updated) false inputs)

/-- `promote_accepted_keyword` reads each table at a moment of its own. -/
def promoteAcceptedKeyword (args : PromoteArgs)
    (keywordInputs : AddKeywordInputs) (inputs : CallInputs) :
    KeywordScript KeywordPromotion := do
  let recommendations ← Script.read Store.recommendations
  let events ← Script.read Store.events
  let keywords ← Script.read Store.keywords
  let promotions ← Script.read Store.promotions
  let plan ← Script.done (promotionPlan P
    { recommendations, events, promotions, keywords } args)
  finishPromotion P plan args keywordInputs inputs

end

/-- A call that changes keyword sets, or promotes a keyword. -/
inductive KeywordRequest where
  | change (op : KeywordOp)
  | promote (args : PromoteArgs) (keywordInputs : AddKeywordInputs)
      (inputs : CallInputs)

def KeywordRequest.removes : KeywordRequest → Option String
  | .change (.remove _ keywordId _ _) => some keywordId
  | _ => none

def KeywordRequest.script (P : Platform) :
    KeywordRequest → KeywordScript Unit
  | .change op => do
      let _ ← changeKeywords P op
      pure ()
  | .promote args keywordInputs inputs => do
      let _ ← promoteAcceptedKeyword P args keywordInputs inputs
      pure ()

/-- The store before the first keyword set. -/
def initialStore
    (recommendations : Table KeywordRecommendation.recommendationId)
    (events : List VerificationEvent) : Store :=
  { Store.empty with
    recommendations := recommendations
    events := events }

/-- The system after any interleaving of calls. -/
abbrev called {ι : Type} [DecidableEq ι] (P : Platform)
    (recommendations : Table KeywordRecommendation.recommendationId)
    (events : List VerificationEvent)
    (moves : List (Move ι KeywordRequest)) :
    System Store ι KeywordEvent PyError Unit KeywordRequest :=
  System.reached (KeywordRequest.script P)
    (initialStore recommendations events) moves

end ApexForensic.Ai.Interleaved
