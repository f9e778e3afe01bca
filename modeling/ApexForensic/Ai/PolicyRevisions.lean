import ApexForensic.Ai.Governance
import ApexForensic.Support.Transactions

/-!
# Policy revisions and egress audits

A policy is inserted by a statement that compares the greatest revision of its
case with the one its caller saw, and an audit record by one that compares the
latest policy of its case with the one it names.  As each is one statement,
the comparison still holds when the row is inserted, whatever the order of the
calls.
-/

namespace ApexForensic.Ai

open ApexForensic.Support ApexForensic.Domain

variable {e : ℤ} {policy : CaseAiPolicy} {record : AiEgressAuditRecord}

/-! ## The tables -/

/-- A row of `case_ai_policies`. -/
structure PolicyRow where
  policy : CaseAiPolicy
  contentFingerprint : String

def PolicyRow.policyId (row : PolicyRow) : String :=
  row.policy.policyId

def PolicyRow.caseId (row : PolicyRow) : String :=
  row.policy.caseId

def PolicyRow.revision (row : PolicyRow) : ℕ :=
  row.policy.revision

def AiEgressAuditRecord.caseId (record : AiEgressAuditRecord) : String :=
  record.result.data.source.caseId

structure GovernanceStore where
  cases : List String
  sources : List AiProjectionSource
  policies : List PolicyRow
  audits : List AiEgressAuditRecord

/-- The store before the first policy. -/
def GovernanceStore.initial (cases : List String)
    (sources : List AiProjectionSource) : GovernanceStore where
  cases := cases
  sources := sources
  policies := []
  audits := []

namespace GovernanceStore

def policiesOf (s : GovernanceStore) (caseId : String) : List PolicyRow :=
  s.policies.filter fun row => row.caseId = caseId

/-- `COALESCE((SELECT MAX(revision) ... WHERE case_id = ?), 0)`. -/
def latestRevision (s : GovernanceStore) (caseId : String) : ℕ :=
  ((s.policiesOf caseId).map PolicyRow.revision).foldr max 0

/-- `SELECT ... WHERE case_id = ? ORDER BY revision DESC LIMIT 1`. -/
def latestPolicy (s : GovernanceStore) (caseId : String) : Option PolicyRow :=
  (s.policiesOf caseId).argmax PolicyRow.revision

def samePolicyId (row other : PolicyRow) : Bool :=
  other.policyId = row.policyId

def sameRevision (row other : PolicyRow) : Bool :=
  other.caseId = row.caseId ∧ other.revision = row.revision

def insertPolicy (s : GovernanceStore) (row : PolicyRow) :
    Except PyError GovernanceStore := do
  let policies ← insertRow
    [("case_ai_policies.policy_id", samePolicyId),
     ("case_ai_policies.case_id, case_ai_policies.revision", sameRevision)]
    s.policies row
  if row.caseId ∉ s.cases then
    .error (.builtin .integrityError "FOREIGN KEY constraint failed")
  .ok { s with policies := policies }

/-- The trigger that runs before an audit record is inserted. -/
def hasSource (s : GovernanceStore) (source : AiDataReference) : Bool :=
  s.sources.any fun other => other.sourceType = source.sourceType ∧
    other.sourceId = source.sourceId ∧ other.caseId = source.caseId

/-- The reference to `case_ai_policies`; it is not checked when the record
names no policy. -/
def hasNamedPolicy (s : GovernanceStore) (record : AiEgressAuditRecord) :
    Bool :=
  record.result.policyId = none ∨
    s.policies.any fun row => row.caseId = record.caseId ∧
      record.result.policyId = some row.policyId ∧
      record.result.policyRevision = some row.revision ∧
      record.result.policyFingerprint = some row.contentFingerprint

def insertAudit (s : GovernanceStore) (record : AiEgressAuditRecord) :
    Except PyError GovernanceStore := do
  if s.hasSource record.result.data.source = false then
    .error (.builtin .integrityError
      "AI egress source must belong to the case")
  let audits ← insertRow
    [("ai_egress_audit_records.audit_id",
      fun row other => other.auditId = row.auditId)] s.audits record
  if record.caseId ∉ s.cases ∨ s.hasNamedPolicy record = false then
    .error (.builtin .integrityError "FOREIGN KEY constraint failed")
  .ok { s with audits := audits }

end GovernanceStore

/-! ## The repository -/

/-- A policy was saved. -/
inductive GovernanceEvent where
  | saved (row : PolicyRow)

variable (P : Platform)

/-- `save_case_ai_policy`. -/
def saveCaseAiPolicy (policy : CaseAiPolicy) (expectedRevision : ℤ)
    (s : GovernanceStore) :
    Except PyError (Unit × GovernanceStore × List GovernanceEvent) := do
  if expectedRevision < 0 ∨ (policy.revision : ℤ) ≠ expectedRevision + 1 then
    .error (validationError "Invalid expected policy revision." none [])
  if (s.latestRevision policy.caseId : ℤ) ≠ expectedRevision then
    .error (stateConflictError "Case AI policy revision changed." none)
  let row : PolicyRow := ⟨policy, policy.contentFingerprint P⟩
  let t ← s.insertPolicy row
  .ok ((), t, [.saved row])

/-- `get_case_ai_policy`. -/
def getCaseAiPolicy (caseId : String) (s : GovernanceStore) :
    Except PyError (Option CaseAiPolicy) :=
  match s.latestPolicy caseId with
  | none => .ok none
  | some row =>
      if row.policy.contentFingerprint P ≠ row.contentFingerprint then
        .error (validationError
          "Stored case AI policy fingerprint mismatch." none [])
      else .ok (some row.policy)

/-- `append_ai_egress_audit`: the comparison takes two missing policies as
equal. -/
def appendAiEgressAudit (record : AiEgressAuditRecord)
    (s : GovernanceStore) :
    Except PyError (Unit × GovernanceStore × List GovernanceEvent) := do
  if (s.latestPolicy record.caseId).map PolicyRow.policyId ≠
      record.result.policyId then
    .error (stateConflictError "Case AI policy changed; evaluate egress again."
      none)
  let t ← s.insertAudit record
  .ok ((), t, [])

/-! ## The services -/

abbrev GovernanceScript :=
  Script GovernanceStore GovernanceEvent PyError

/-- `_require_case`. -/
def requireCase (caseId : String) (s : GovernanceStore) :
    Except PyError Unit :=
  if caseId ∈ s.cases then .ok ()
  else .error (notFoundError "CASE_NOT_FOUND" "Case does not exist."
    (some "case_id"))

/-- The policy that `configure` builds. -/
def configuredPolicy (caseId : String) (expectedRevision : ℤ)
    (settings : PolicySettings) (newId now : String) :
    Except PyError CaseAiPolicy := do
  if expectedRevision < 0 then
    .error (validationError "Expected a nonnegative policy revision." none [])
  CaseAiPolicy.make newId caseId (expectedRevision + 1).toNat now settings

/-- `CaseAiPolicyService.configure`. -/
def configure (caseId : String) (expectedRevision : ℤ)
    (settings : PolicySettings) (newId now : String) :
    GovernanceScript CaseAiPolicy := do
  Script.query (requireCase caseId)
  let policy ← Script.done
    (configuredPolicy caseId expectedRevision settings newId now)
  Script.attempt (saveCaseAiPolicy P policy expectedRevision)
  pure policy

/-- `AiProjectionService.get_source`, after the case was found. -/
def getSource (reference : AiDataReference) (s : GovernanceStore) :
    Except PyError AiProjectionSource :=
  match s.sources.find? fun source =>
      source.sourceType = reference.sourceType ∧
        source.sourceId = reference.sourceId with
  | none => .error (notFoundError "AI_SOURCE_NOT_FOUND"
      "AI data source does not exist." none)
  | some source =>
      if source.caseId ≠ reference.caseId then
        .error (validationError "AI source belongs to another case."
          (some "source_id") [])
      else .ok source

/-- The metadata that is assessed, once the source was read. -/
def assessedData (data : AiEgressData) (source : AiProjectionSource) :
    Except PyError AiEgressData := do
  let reference ← aiDataReference P source
  if reference ≠ data.source then
    .error (stateConflictError
      "AI data source changed; rebuild the assessment." none)
  if sourceHasSecretFields P source then .ok data.asSecret
  else .ok data

/-- The record of an assessment under a policy. -/
def assessment (policy : Option CaseAiPolicy) (data : AiEgressData)
    (destination : AiDestinationCategory) (newId now : String) :
    Except PyError AiEgressAuditRecord := do
  let result ← evaluateAiEgress P policy data destination
  AiEgressAuditRecord.make newId result now

/-- `AiEgressService._evaluate`. -/
def evaluate (data : AiEgressData) (destination : AiDestinationCategory)
    (newId now : String) : GovernanceScript AiEgressAuditRecord := do
  Script.query (requireCase data.source.caseId)
  let source ← Script.query (getSource data.source)
  let data ← Script.done (assessedData P data source)
  let policy ← Script.query (getCaseAiPolicy P data.source.caseId)
  let record ← Script.done (assessment P policy data destination newId now)
  Script.attempt (appendAiEgressAudit record)
  pure record

/-- A call of the repository or of a service. -/
inductive GovernanceRequest where
  | saveCaseAiPolicy (policy : CaseAiPolicy) (expectedRevision : ℤ)
  | appendAiEgressAudit (record : AiEgressAuditRecord)
  | configure (caseId : String) (expectedRevision : ℤ)
      (settings : PolicySettings) (newId now : String)
  | evaluate (data : AiEgressData) (destination : AiDestinationCategory)
      (newId now : String)

def GovernanceRequest.script :
    GovernanceRequest → GovernanceScript Unit
  | .saveCaseAiPolicy policy expectedRevision => do
      Script.attempt (Ai.saveCaseAiPolicy P policy expectedRevision)
      pure ()
  | .appendAiEgressAudit record => do
      Script.attempt (Ai.appendAiEgressAudit record)
      pure ()
  | .configure caseId expectedRevision settings newId now => do
      let _ ← Ai.configure P caseId expectedRevision settings newId now
      pure ()
  | .evaluate data destination newId now => do
      let _ ← Ai.evaluate P data destination newId now
      pure ()

/-- The case and the revision that a call that saves a policy expects. -/
def GovernanceRequest.expects : GovernanceRequest → Option (String × ℤ)
  | .saveCaseAiPolicy policy expectedRevision =>
      some (policy.caseId, expectedRevision)
  | .configure caseId expectedRevision _ _ _ => some (caseId, expectedRevision)
  | _ => none

/-- The system after any interleaving of calls. -/
abbrev governed {ι : Type} [DecidableEq ι] (cases : List String)
    (sources : List AiProjectionSource)
    (moves : List (Move ι GovernanceRequest)) :
    System GovernanceStore ι GovernanceEvent PyError Unit GovernanceRequest :=
  System.reached (GovernanceRequest.script P)
    (GovernanceStore.initial cases sources) moves

/-! ## What the statements do -/

section

variable {P} {s t : GovernanceStore}

theorem insertPolicy_eq_ok {row : PolicyRow} (h : s.insertPolicy row = .ok t) :
    t = { s with policies := s.policies ++ [row] } ∧
      ∀ other ∈ s.policies, other.policyId ≠ row.policyId ∧
        (other.caseId, other.revision) ≠ (row.caseId, row.revision) := by
  unfold GovernanceStore.insertPolicy at h
  obtain ⟨policies, hinsert, h⟩ := bind_ok h
  obtain ⟨-, h⟩ := check_ok h
  obtain rfl := Except.ok.inj h
  obtain ⟨rfl, hunique⟩ := insertRow_eq_ok_iff.mp hinsert
  refine ⟨rfl, fun other hother => ?_⟩
  have hid := hunique _ List.mem_cons_self other hother
  have hrevision := hunique _ (List.mem_cons_of_mem _ List.mem_cons_self)
    other hother
  constructor
  · simpa [GovernanceStore.samePolicyId] using hid
  · simpa [GovernanceStore.sameRevision] using hrevision

theorem saveCaseAiPolicy_eq_ok {events : List GovernanceEvent}
    (h : saveCaseAiPolicy P policy e s = .ok ((), t, events)) :
    ∃ row : PolicyRow, row.policy = policy ∧ events = [.saved row] ∧
      t = { s with policies := s.policies ++ [row] } ∧
      (s.latestRevision row.caseId : ℤ) = e ∧ (row.revision : ℤ) = e + 1 ∧
      ∀ other ∈ s.policies, other.policyId ≠ row.policyId ∧
        (other.caseId, other.revision) ≠ (row.caseId, row.revision) := by
  unfold saveCaseAiPolicy at h
  obtain ⟨hchecked, h⟩ := check_ok h
  obtain ⟨hlatest, h⟩ := check_ok h
  obtain ⟨t', hinsert, h⟩ := bind_ok h
  obtain ⟨rfl, rfl⟩ := Prod.mk.inj (ok_pair_inj h).2
  obtain ⟨ht, hfresh⟩ := insertPolicy_eq_ok hinsert
  push Not at hchecked hlatest
  exact ⟨_, rfl, rfl, ht, hlatest, hchecked.2, hfresh⟩

theorem appendAiEgressAudit_eq_ok {events : List GovernanceEvent}
    (h : appendAiEgressAudit record s = .ok ((), t, events)) :
    events = [] ∧ t = { s with audits := s.audits ++ [record] } ∧
      (s.latestPolicy record.caseId).map PolicyRow.policyId =
        record.result.policyId ∧
      s.hasNamedPolicy record = true := by
  unfold appendAiEgressAudit at h
  obtain ⟨hlatest, h⟩ := check_ok h
  obtain ⟨t', hinsert, h⟩ := bind_ok h
  obtain ⟨rfl, rfl⟩ := Prod.mk.inj (ok_pair_inj h).2
  unfold GovernanceStore.insertAudit at hinsert
  obtain ⟨-, hinsert⟩ := check_ok hinsert
  obtain ⟨audits, haudits, hinsert⟩ := bind_ok hinsert
  obtain ⟨hforeign, hinsert⟩ := check_ok hinsert
  obtain rfl := Except.ok.inj hinsert
  obtain ⟨rfl, -⟩ := insertRow_eq_ok_iff.mp haudits
  push Not at hlatest hforeign
  exact ⟨rfl, rfl, hlatest, by simpa using hforeign.2⟩

end

/-! ## The revisions of every case -/

/-- The revisions of each case are 1, 2, ... in the order of the table, and
the constraints of the table hold. -/
structure PolicyLaw (s : GovernanceStore) : Prop where
  revisions : ∀ caseId, (s.policiesOf caseId).map PolicyRow.revision =
    List.range' 1 (s.policiesOf caseId).length
  ids_nodup : (s.policies.map PolicyRow.policyId).Nodup
  keys_nodup : (s.policies.map fun row => (row.caseId, row.revision)).Nodup

theorem foldr_max_range' (b n : ℕ) :
    (List.range' 1 n).foldr max b = max b n := by
  induction n generalizing b with
  | zero => simp
  | succ n ih =>
      rw [List.range'_concat, List.foldr_append, ih]
      simp only [List.foldr_cons, List.foldr_nil]
      omega

theorem PolicyLaw.latestRevision_eq {s : GovernanceStore} (hs : PolicyLaw s)
    (caseId : String) :
    s.latestRevision caseId = (s.policiesOf caseId).length := by
  rw [GovernanceStore.latestRevision, hs.revisions, foldr_max_range']
  exact Nat.zero_max _

variable {P}

theorem PolicyLaw.save {s t : GovernanceStore} (hs : PolicyLaw s)
    {events : List GovernanceEvent}
    (h : saveCaseAiPolicy P policy e s = .ok ((), t, events)) :
    PolicyLaw t := by
  obtain ⟨row, -, -, rfl, hlatest, hrevision, hfresh⟩ :=
    saveCaseAiPolicy_eq_ok h
  refine ⟨fun caseId => ?_, ?_, ?_⟩
  · have hold := hs.revisions caseId
    by_cases hcase : row.caseId = caseId
    · subst hcase
      rw [hs.latestRevision_eq] at hlatest
      have hnext : row.revision =
          1 + (s.policiesOf row.caseId).length := by
        omega
      simp only [GovernanceStore.policiesOf] at hold hnext ⊢
      rw [List.filter_append, List.map_append, hold]
      simp [hnext, List.range'_concat]
    · simp only [GovernanceStore.policiesOf] at hold ⊢
      rw [List.filter_append]
      simpa [hcase] using hold
  · exact nodup_map_concat hs.ids_nodup fun other hother =>
      (hfresh other hother).1
  · exact nodup_map_concat hs.keys_nodup fun other hother =>
      (hfresh other hother).2

theorem PolicyLaw.append {s t : GovernanceStore} (hs : PolicyLaw s)
    {events : List GovernanceEvent}
    (h : appendAiEgressAudit record s = .ok ((), t, events)) : PolicyLaw t := by
  obtain ⟨-, rfl, -⟩ := appendAiEgressAudit_eq_ok h
  exact ⟨hs.revisions, hs.ids_nodup, hs.keys_nodup⟩

/-- The policy that a record of the case names is its latest one. -/
def NamesLatest (s : GovernanceStore) (record : AiEgressAuditRecord) : Prop :=
  record.result.policyId =
      (s.latestPolicy record.caseId).map PolicyRow.policyId ∧
    record.result.policyRevision =
      (s.latestPolicy record.caseId).map PolicyRow.revision ∧
    record.result.policyFingerprint =
      (s.latestPolicy record.caseId).map PolicyRow.contentFingerprint

theorem mem_of_latestPolicy {s : GovernanceStore} {caseId : String}
    {row : PolicyRow} (h : s.latestPolicy caseId = some row) :
    row ∈ s.policies :=
  List.mem_of_mem_filter (List.argmax_mem h)

/-- What names the identifier of the latest policy names its revision and its
fingerprint too. -/
theorem PolicyLaw.namesLatest {s t : GovernanceStore} (hs : PolicyLaw s)
    {events : List GovernanceEvent}
    (h : appendAiEgressAudit record s = .ok ((), t, events)) :
    NamesLatest s record := by
  obtain ⟨-, -, hlatest, hnamed⟩ := appendAiEgressAudit_eq_ok h
  cases hrow : s.latestPolicy record.caseId with
  | none =>
      rw [hrow] at hlatest
      obtain ⟨-, hrevision, hfingerprint⟩ :=
        record.result.deny_of_missing hlatest.symm
      rw [NamesLatest, hrow]
      exact ⟨hlatest.symm, hrevision, hfingerprint⟩
  | some row =>
      rw [hrow] at hlatest
      simp only [GovernanceStore.hasNamedPolicy, ← hlatest, Option.map_some,
        reduceCtorEq, false_or, decide_eq_true_eq, List.any_eq_true,
        Option.some.injEq] at hnamed
      obtain ⟨other, hother, -, hid, hrevision, hfingerprint⟩ := hnamed
      obtain rfl := List.inj_on_of_nodup_map hs.ids_nodup
        (mem_of_latestPolicy hrow) hother hid
      rw [NamesLatest, hrow]
      exact ⟨hlatest.symm, hrevision, hfingerprint⟩

/-! ## What each transaction does -/

variable (P)

/-- A transaction of a call: it saves a policy, keeps a record or changes
nothing. -/
inductive GovernanceStep : GovernanceStore → GovernanceStore → Prop
  | same (s) : GovernanceStep s s
  | saved {policy e s t events}
      (h : saveCaseAiPolicy P policy e s = .ok ((), t, events)) :
      GovernanceStep s t
  | audited {record s t events}
      (h : appendAiEgressAudit record s = .ok ((), t, events)) :
      GovernanceStep s t

theorem respects_script (request : GovernanceRequest) :
    (request.script P).Respects fun s t => GovernanceStep P s t.1 := by
  have hsame : ∀ s, GovernanceStep P s s := GovernanceStep.same
  cases request with
  | saveCaseAiPolicy policy e =>
      refine Script.respects_bind ?_ fun _ => Script.respects_done _
      exact Script.respects_attempt hsame fun _ _ _ h => .saved h
  | appendAiEgressAudit record =>
      refine Script.respects_bind ?_ fun _ => Script.respects_done _
      exact Script.respects_attempt hsame fun _ _ _ h => .audited h
  | configure caseId e settings newId now =>
      refine Script.respects_bind ?_ fun _ => Script.respects_done _
      refine Script.respects_bind (Script.respects_query hsame _) fun _ => ?_
      refine Script.respects_bind (Script.respects_done _) fun policy => ?_
      refine Script.respects_bind ?_ fun _ => Script.respects_done _
      exact Script.respects_attempt hsame fun _ _ _ h => .saved h
  | evaluate data destination newId now =>
      refine Script.respects_bind ?_ fun _ => Script.respects_done _
      refine Script.respects_bind (Script.respects_query hsame _) fun _ => ?_
      refine Script.respects_bind (Script.respects_query hsame _)
        fun source => ?_
      refine Script.respects_bind (Script.respects_done _) fun data => ?_
      refine Script.respects_bind (Script.respects_query hsame _)
        fun policy => ?_
      refine Script.respects_bind (Script.respects_done _) fun record => ?_
      refine Script.respects_bind ?_ fun _ => Script.respects_done _
      exact Script.respects_attempt hsame fun _ _ _ h => .audited h

theorem rollsBack_script (request : GovernanceRequest) :
    (request.script P).RollsBack := by
  cases request with
  | saveCaseAiPolicy policy e => exact Script.rollsBack_attempt_bind id
  | appendAiEgressAudit record => exact Script.rollsBack_attempt_bind id
  | configure caseId e settings newId now =>
      simp only [GovernanceRequest.script, configure, Script.bind_bind]
      refine Script.rollsBack_query_bind fun _ => ?_
      cases configuredPolicy caseId e settings newId now with
      | error error => exact Script.rollsBack_done _
      | ok policy => exact Script.rollsBack_attempt_bind fun _ => ()
  | evaluate data destination newId now =>
      simp only [GovernanceRequest.script, evaluate, Script.bind_bind]
      refine Script.rollsBack_query_bind fun _ => ?_
      refine Script.rollsBack_query_bind fun source => ?_
      cases assessedData P data source with
      | error error => exact Script.rollsBack_done _
      | ok assessed =>
          refine Script.rollsBack_query_bind fun policy => ?_
          cases assessment P policy assessed destination newId now with
          | error error => exact Script.rollsBack_done _
          | ok record => exact Script.rollsBack_attempt_bind fun _ => ()

variable {P}

/-! ## The protocol of the calls -/

/-- The policies saved so far, each with the call that saved it. -/
def savedIn {ι : Type} (log : List (ι × GovernanceEvent)) :
    List (ι × PolicyRow) :=
  log.map fun
    | (i, .saved row) => (i, row)

variable {ι : Type}

/-- The table of policies holds what the log says was saved. -/
structure PoliciesRecorded (h : History GovernanceStore ι GovernanceEvent) :
    Prop where
  law : PolicyLaw h.store
  policies : h.store.policies = (savedIn h.log).map Prod.snd

/-- A call that was to save a policy and returned has saved the one after the
revision it expected. -/
def SavedAsExpected (i : ι) (request : GovernanceRequest)
    (h : History GovernanceStore ι GovernanceEvent) : Prop :=
  ∀ caseId e, request.expects = some (caseId, e) →
    ∃ row, (i, .saved row) ∈ h.log ∧ row.caseId = caseId ∧
      (row.revision : ℤ) = e + 1

/-- What the calls agree on: the log is only added to. -/
def governanceProtocol (ι : Type) :
    Protocol GovernanceStore ι GovernanceEvent PyError Unit
      GovernanceRequest where
  inv := PoliciesRecorded
  rely h k := h.log <+: k.log
  post i request result h := result = .ok () → SavedAsExpected i request h
  refl h := List.prefix_refl h.log
  trans := List.IsPrefix.trans
  post_of_rely hrely hpost hresult caseId e hexpects := by
    obtain ⟨row, hrow, hcase, hrevision⟩ := hpost hresult caseId e hexpects
    exact ⟨row, hrely.subset hrow, hcase, hrevision⟩

variable {h : History GovernanceStore ι GovernanceEvent} {i : ι}
  {request : GovernanceRequest}

theorem PoliciesRecorded.save (hh : PoliciesRecorded h)
    {t : GovernanceStore × List GovernanceEvent}
    (hsave : saveCaseAiPolicy P policy e h.store = .ok ((), t)) :
    PoliciesRecorded (h.after i t) ∧
      ∃ row : PolicyRow, (i, .saved row) ∈ (h.after i t).log ∧
        row.policy = policy ∧ (row.revision : ℤ) = e + 1 := by
  obtain ⟨t, events⟩ := t
  have hlaw := hh.law.save hsave
  obtain ⟨row, hpolicy, rfl, rfl, -, hrevision, -⟩ :=
    saveCaseAiPolicy_eq_ok hsave
  refine ⟨⟨hlaw, ?_⟩, row, ?_, hpolicy, hrevision⟩
  · simp [History.after, savedIn, hh.policies]
  · simp [History.after]

theorem PoliciesRecorded.append (hh : PoliciesRecorded h)
    {t : GovernanceStore × List GovernanceEvent}
    (happend : appendAiEgressAudit record h.store = .ok ((), t)) :
    PoliciesRecorded (h.after i t) := by
  obtain ⟨t, events⟩ := t
  have hlaw := hh.law.append happend
  obtain ⟨rfl, rfl, -⟩ := appendAiEgressAudit_eq_ok happend
  exact ⟨hlaw, by simpa [History.after] using hh.policies⟩

theorem safe_error (e : PyError) :
    (Script.done (.error e) : GovernanceScript Unit).Safe
      (governanceProtocol ι) i request h := by
  intro hresult
  cases hresult

theorem safe_save (hexpects : request.expects = some (policy.caseId, e)) :
    (Script.attempt (saveCaseAiPolicy P policy e) >>= fun _ =>
      pure ()).Safe (governanceProtocol ι) i request h := by
  refine Script.safe_attempt_bind (fun _ _ _ _ _ => nofun)
    fun k _ t _ hk hsave => ?_
  obtain ⟨hsaved, row, hrow, hpolicy, hrevision⟩ := hk.save (i := i) hsave
  refine ⟨hsaved, List.prefix_append _ _, fun _ caseId e' hexpects' => ?_⟩
  rw [hexpects] at hexpects'
  obtain ⟨rfl, rfl⟩ := Prod.mk.inj (Option.some.inj hexpects')
  exact ⟨row, hrow, by rw [PolicyRow.caseId, hpolicy], hrevision⟩

theorem safe_append (hexpects : request.expects = none) :
    (Script.attempt (appendAiEgressAudit record) >>= fun _ =>
      pure ()).Safe (governanceProtocol ι) i request h := by
  refine Script.safe_attempt_bind (fun _ _ _ _ _ => nofun)
    fun k _ t _ hk happend => ?_
  refine ⟨hk.append happend, List.prefix_append _ _, fun _ _ _ h => ?_⟩
  rw [hexpects] at h
  cases h

theorem configuredPolicy_eq_ok {caseId newId now : String}
    {settings : PolicySettings}
    (h : configuredPolicy caseId e settings newId now = .ok policy) :
    policy.caseId = caseId := by
  unfold configuredPolicy at h
  obtain ⟨-, h⟩ := check_ok h
  exact (CaseAiPolicy.make_eq_ok h).1

theorem safe_governance (i : ι) (request : GovernanceRequest)
    (h : History GovernanceStore ι GovernanceEvent) :
    (request.script P).Safe (governanceProtocol ι) i request h := by
  cases request with
  | saveCaseAiPolicy policy e => exact safe_save rfl
  | appendAiEgressAudit record => exact safe_append rfl
  | configure caseId e settings newId now =>
      simp only [GovernanceRequest.script, configure, Script.bind_bind]
      refine Script.safe_query_bind (fun _ _ _ _ _ => nofun)
        fun k _ _ _ _ => ?_
      cases hpolicy : configuredPolicy caseId e settings newId now with
      | error error => exact safe_error error
      | ok policy =>
          refine safe_save ?_
          rw [configuredPolicy_eq_ok hpolicy]
          rfl
  | evaluate data destination newId now =>
      simp only [GovernanceRequest.script, evaluate, Script.bind_bind]
      refine Script.safe_query_bind (fun _ _ _ _ _ => nofun)
        fun k _ _ _ _ => ?_
      refine Script.safe_query_bind (fun _ _ _ _ _ => nofun)
        fun k source _ _ _ => ?_
      cases assessedData P data source with
      | error error => exact safe_error error
      | ok assessed =>
          refine Script.safe_query_bind (fun _ _ _ _ _ => nofun)
            fun k policy _ _ _ => ?_
          cases assessment P policy assessed destination newId now with
          | error error => exact safe_error error
          | ok record => exact safe_append rfl

/-! ## Every interleaving -/

variable [DecidableEq ι] {cases : List String}
  {sources : List AiProjectionSource}

omit [DecidableEq ι] in
theorem policiesRecorded_initial :
    PoliciesRecorded (ι := ι) ⟨.initial cases sources, []⟩ := by
  refine ⟨⟨fun caseId => ?_, ?_, ?_⟩, ?_⟩
  · rfl
  · exact List.nodup_nil
  · exact List.nodup_nil
  · rfl

theorem sound_governed (P : Platform) (cases : List String)
    (sources : List AiProjectionSource) (moves : List (Move ι GovernanceRequest)) :
    (governed P cases sources moves).Sound (governanceProtocol ι) :=
  System.sound_reached (fun i request h _ => safe_governance i request h)
    policiesRecorded_initial moves

omit [DecidableEq ι] in
theorem PoliciesRecorded.eq_of_saved (hh : PoliciesRecorded h) {j : ι}
    {row row' : PolicyRow} (hi : (i, .saved row) ∈ h.log)
    (hj : (j, .saved row') ∈ h.log) (hcase : row.caseId = row'.caseId)
    (hrevision : row.revision = row'.revision) : i = j := by
  have hkeys := hh.law.keys_nodup
  rw [hh.policies, List.map_map] at hkeys
  have hi' : (i, row) ∈ savedIn h.log := List.mem_map.mpr ⟨_, hi, rfl⟩
  have hj' : (j, row') ∈ savedIn h.log := List.mem_map.mpr ⟨_, hj, rfl⟩
  have heq := List.inj_on_of_nodup_map hkeys hi' hj'
    (by simp [hcase, hrevision])
  exact (Prod.mk.inj heq).1

theorem policies_grow (before after : List (Move ι GovernanceRequest)) :
    (governed P cases sources before).store.policies <+:
      (governed P cases sources (before ++ after)).store.policies := by
  have hrely : (governed P cases sources before).log <+:
      (governed P cases sources (before ++ after)).log :=
    System.log_grows _ _ before after
  rw [(sound_governed P cases sources before).inv.policies,
    (sound_governed P cases sources (before ++ after)).inv.policies]
  exact (hrely.map _).map _

/-- A record was kept at one step, and named the latest policy of its case
then. -/
theorem audit_kept {moves : List (Move ι GovernanceRequest)}
    (h : record ∈ (governed P cases sources moves).store.audits) :
    ∃ before move after, moves = before ++ move :: after ∧
      (governed P cases sources (before ++ [move])).store.audits =
        (governed P cases sources before).store.audits ++ [record] ∧
      NamesLatest (governed P cases sources before).store record := by
  obtain ⟨before, move, after, hsplit, hbefore, hmove⟩ := exists_step_of_run
    (P := fun w : System GovernanceStore ι GovernanceEvent PyError Unit
      GovernanceRequest => record ∈ w.store.audits)
    (fun hnil => absurd hnil List.not_mem_nil) h
  refine ⟨before, move, after, hsplit, ?_⟩
  have hlaw := (sound_governed P cases sources before).inv.law
  have hstep : GovernanceStep P (governed P cases sources before).store
      (governed P cases sources (before ++ [move])).store := by
    rcases System.history_step (.initial cases sources)
      (respects_script P) before move with hsame | ⟨i, t, -, ht, hafter⟩
    · rw [governed, congrArg History.store hsame]
      exact .same _
    · rw [governed, congrArg History.store hafter]
      exact ht
  change record ∈ (governed P cases sources (before ++ [move])).store.audits
    at hmove
  change record ∉ (governed P cases sources before).store.audits at hbefore
  generalize (governed P cases sources (before ++ [move])).store = t at *
  generalize (governed P cases sources before).store = s at *
  cases hstep with
  | same => exact absurd hmove hbefore
  | saved hsave =>
      obtain ⟨row, -, -, rfl, -⟩ := saveCaseAiPolicy_eq_ok hsave
      exact absurd hmove hbefore
  | audited happend =>
      have hnames := hlaw.namesLatest happend
      obtain ⟨-, rfl, -⟩ := appendAiEgressAudit_eq_ok happend
      rcases List.mem_append.mp hmove with hold | hnew
      · exact absurd hold hbefore
      · obtain rfl := List.mem_singleton.mp hnew
        exact ⟨rfl, hnames⟩

/-- After any interleaving of calls: the revisions of each case are 1, 2, ...;
at most one call that expects a revision of a case succeeds; the policies
stored before are still there; each audit record was inserted at a step before
which the policy it names was the latest of its case, or the case had none and
it names none; and a call that failed left the store alone at each step. -/
theorem governance_holds {ι : Type} [DecidableEq ι] (P : Platform)
    (cases : List String) (sources : List AiProjectionSource)
    (moves : List (Move ι GovernanceRequest)) :
    (∀ caseId,
      ((governed P cases sources moves).store.policiesOf caseId).map
          PolicyRow.revision =
        List.range' 1
          ((governed P cases sources moves).store.policiesOf
            caseId).length) ∧
    (∀ i j request request' caseId e,
      (governed P cases sources moves).progress i =
        .finished request (.ok ()) →
      (governed P cases sources moves).progress j =
        .finished request' (.ok ()) →
      request.expects = some (caseId, e) →
      request'.expects = some (caseId, e) → i = j) ∧
    (∀ before after, moves = before ++ after →
      (governed P cases sources before).store.policies <+:
        (governed P cases sources moves).store.policies) ∧
    (∀ record ∈ (governed P cases sources moves).store.audits,
      ∃ before move after, moves = before ++ move :: after ∧
        (governed P cases sources (before ++ [move])).store.audits =
          (governed P cases sources before).store.audits ++ [record] ∧
        NamesLatest (governed P cases sources before).store record) ∧
    ∀ i request e, (governed P cases sources moves).progress i =
        .finished request (.error e) →
      ∀ before after, moves = before ++ .advance i :: after →
        (governed P cases sources (before ++ [.advance i])).store =
          (governed P cases sources before).store := by
  have hsound := sound_governed P cases sources moves
  refine ⟨hsound.inv.law.revisions, ?_, ?_, fun _ h => audit_kept h, ?_⟩
  · intro i j request request' caseId e hi hj hexpects hexpects'
    have hsafe := hsound.safe i
    have hsafe' := hsound.safe j
    rw [hi] at hsafe
    rw [hj] at hsafe'
    obtain ⟨row, hrow, hcase, hrevision⟩ := hsafe rfl caseId e hexpects
    obtain ⟨row', hrow', hcase', hrevision'⟩ := hsafe' rfl caseId e hexpects'
    exact hsound.inv.eq_of_saved hrow hrow' (hcase.trans hcase'.symm) (by omega)
  · rintro before after rfl
    exact policies_grow before after
  · rintro i request e hfailed before after rfl
    exact System.store_eq_of_failed (rollsBack_script P) hfailed

end ApexForensic.Ai
