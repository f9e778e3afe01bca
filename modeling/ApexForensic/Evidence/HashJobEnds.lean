import ApexForensic.Evidence.HashJobs

/-!
# How a hash job ends

After a call its job should be final, its evidence not left as being hashed,
and each custody event should have the one verification that names it.  The
calls reach this from the errors that their `except` clauses catch, as long as
the writes of these clauses succeed; but a cancelled hash leaves the evidence
as it was being hashed.
-/

namespace ApexForensic.Evidence

open ApexForensic.Support ApexForensic.Domain
open ApexForensic.Jobs (JobStatus)

variable {v : HashVerification} {job job₀ : HashJob} {desk : Desk}
  {evidenceId jobId : String} {row row₀ : EvidenceRow} {args : HashArgs}
  {inputs : VerifyJobInputs}

/-! ## The law -/

/-- Each event has exactly one verification that names it, with its outcome. -/
def Desk.Recorded (desk : Desk) : Prop :=
  ∀ event ∈ desk.events, ∃ verification,
    desk.store.verifications.filter
        (fun v => v.custodyEventId = some event.eventId) = [verification] ∧
      event.action = verifiedAction verification.status

/-- How a call leaves its job, its evidence and the ledger. -/
structure Settled (before after : Desk) (call : HashCall) : Prop where
  jobFinal : ∀ job, after.jobs.find? call.jobId = some job →
    before.jobs.find? call.jobId = none → isFinal job.status = true
  notHashing : ∀ row,
    after.store.evidence.find? call.args.evidenceId = some row →
      row.status ≠ .hashing
  recorded : after.Recorded

/-! ## When it holds -/

/-- The ids of the stored verifications. -/
def usedIds (desk : Desk) : List String :=
  desk.store.verifications.map HashVerification.verificationId

section

variable (P : Platform) (segments : SegmentFinder) (faults : Faults)

/-- The call makes a job, for the evidence of a row. -/
structure Makes (desk : Desk) (call : HashCall) (row : EvidenceRow) : Prop where
  found : desk.store.evidence.find? call.args.evidenceId = some row
  supported : row.evidenceType ≠ .directory
  expected : ∀ args inputs, call = .verify args inputs →
    ∃ record, desk.store.latestHashRecord args.evidenceId args.algorithm =
      some record
  saved : faults .saveJob = none
  fresh : desk.jobs.find? call.jobId = none

/-- What the insert of a row with a used key raises. -/
def taken (column id : String) (ids : List String) : Option PyError :=
  if id ∈ ids then
    some (.builtin .integrityError ("UNIQUE constraint failed: " ++ column))
  else none

/-- What a hash raises before the evidence is stored as ready. -/
def earlyHashError (desk : Desk) (args : HashArgs) (inputs : HashJobInputs)
    (row : EvidenceRow) : Option PyError :=
  faults .markRunning <|> faults .compute <|>
    Service.errorOf (hashOutcome P segments desk.store.files row args.algorithm
      inputs.hash) <|>
    faults .saveRecord <|>
    taken "evidence_hashes.hash_id" inputs.newId
      (desk.store.hashes.map HashRecord.hashId) <|>
    faults .markReady

/-- The clause for engine errors of `calculate_hash` runs to its end. -/
def FailureStored (error : PyError) : Prop :=
  isFailure error = true ∧ faults .markEvidenceFailed = none ∧
    faults .markFailed = none

/-- The block raises nothing, or an engine error whose clause runs to its end,
or a cancellation after the evidence is stored as ready, likewise. -/
def HashEnds (desk : Desk) (args : HashArgs) (inputs : HashJobInputs)
    (row : EvidenceRow) : Prop :=
  (earlyHashError P segments faults desk args inputs row).elim
    ((faults .markSucceeded).elim True fun error =>
      FailureStored faults error ∨
        isCancellation error = true ∧ faults .markCancelled = none)
    (FailureStored faults)

/-- A clause of `verify_evidence` that catches the error runs to its end; the
ids of the verifications are given. -/
def VerifyStored (inputs : VerifyJobInputs) (used : List String)
    (error : PyError) : Prop :=
  isCancellation error = true ∧ faults .markCancelled = none ∨
    isFailure error = true ∧ faults .saveError = none ∧
      inputs.errorId ∉ used ∧ faults .markFailed = none

/-- What a verification raises before it stores its outcome. -/
def earlyVerifyError (desk : Desk) (args : HashArgs) (inputs : VerifyJobInputs)
    (row : EvidenceRow) : Option PyError :=
  faults .markRunning <|> faults .compute <|>
    Service.errorOf (computeFile P desk.store.files row.sourcePath
      args.algorithm inputs.hash) <|>
    if inputs.hasLedger then
      faults .addEvent <|>
        taken "custody_events.event_id" inputs.eventId
          (desk.events.map HashVerifiedEvent.eventId)
    else none

def storeVerifyError (desk : Desk) (inputs : VerifyJobInputs) :
    Option PyError :=
  faults .saveVerification <|>
    taken "hash_verifications.verification_id" inputs.newId (usedIds desk)

/-- The block raises nothing, or an error whose clause runs to its end; and
with a ledger the outcome is stored once its event is. -/
def VerifyEnds (desk : Desk) (args : HashArgs) (inputs : VerifyJobInputs)
    (row : EvidenceRow) : Prop :=
  (earlyVerifyError P faults desk args inputs row).elim
    ((storeVerifyError faults desk inputs).elim
      ((faults .markVerified <|> faults .markSucceeded).elim True
        (VerifyStored faults inputs (usedIds desk ++ [inputs.newId])))
      fun error => inputs.hasLedger = false ∧
        VerifyStored faults inputs (usedIds desk) error)
    (VerifyStored faults inputs (usedIds desk))

/-- The call makes a job and ends as it should. -/
def Ends (desk : Desk) : HashCall → Prop
  | .hash args inputs =>
      ∃ row, Makes faults desk (.hash args inputs) row ∧
        faults .markHashing = none ∧
          HashEnds P segments faults desk args inputs row
  | .verify args inputs =>
      ∃ row, Makes faults desk (.verify args inputs) row ∧
        row.status ≠ .hashing ∧ VerifyEnds P faults desk args inputs row

/-- What a call needs to leave things as it must: the ledger was recorded, and
the call makes no job for evidence that was not left as being hashed, or makes
one that ends as it should. -/
def Settles (desk : Desk) (call : HashCall) : Prop :=
  desk.Recorded ∧
    ((∀ row, ¬ Makes faults desk call row) ∧
        (∀ row, desk.store.evidence.find? call.args.evidenceId = some row →
          row.status ≠ .hashing) ∨
      Ends P segments faults desk call)

end

/-! ## Writes -/

def Desk.withVerification (desk : Desk) (v : HashVerification) : Desk :=
  { desk with store := { desk.store with
    verifications := desk.store.verifications ++ [v] } }

def Desk.withEvent (desk : Desk) (event : HashVerifiedEvent) : Desk :=
  { desk with events := desk.events ++ [event] }

theorem insertRow_of_key {α : Type} {key : α → String} (column : String)
    (rows : List α) (row : α) :
    insertRow [(column, fun r s => decide (key r = key s))] rows row =
      (taken column (key row) (rows.map key)).elim (.ok (rows ++ [row]))
        .error := by
  rw [taken]
  by_cases h : key row ∈ rows.map key
  · obtain ⟨r, hr, hkey⟩ := List.mem_map.mp h
    have hany : (rows.any fun s => decide (key row = key s)) = true :=
      List.any_eq_true.mpr ⟨r, hr, decide_eq_true hkey.symm⟩
    rw [if_pos h, insertRow, List.find?_cons, hany]
    rfl
  · rw [if_neg h]
    apply insertRow_eq_ok_iff.mpr
    refine ⟨rfl, fun c hc r hr => ?_⟩
    rw [List.mem_singleton.mp hc]
    exact decide_eq_false fun hkey => h (List.mem_map.mpr ⟨r, hr, hkey.symm⟩)

section

variable {desk : Desk} {error : PyError}

theorem saveHashRecord_eq (record : HashRecord) (desk : Desk) :
    onStore (saveHashRecord record) desk =
      (taken "evidence_hashes.hash_id" record.hashId
        (desk.store.hashes.map HashRecord.hashId)).elim
        (.ok (), { desk with store := { desk.store with
          hashes := desk.store.hashes ++ [record] } })
        fun e => (.error e, desk) := by
  rw [onStore, saveHashRecord, Service.commit, hashConstraints,
    @insertRow_of_key _ HashRecord.hashId]
  cases taken "evidence_hashes.hash_id" record.hashId
    (desk.store.hashes.map HashRecord.hashId) <;> rfl

theorem saveHashVerification_eq (verification : HashVerification)
    (desk : Desk) :
    onStore (saveHashVerification verification) desk =
      (taken "hash_verifications.verification_id" verification.verificationId
        (usedIds desk)).elim
        (.ok (), desk.withVerification verification)
        fun e => (.error e, desk) := by
  rw [onStore, saveHashVerification, Service.commit, verificationConstraints,
    @insertRow_of_key _ HashVerification.verificationId, usedIds]
  cases taken "hash_verifications.verification_id" verification.verificationId
    (desk.store.verifications.map HashVerification.verificationId) <;> rfl

theorem addEvent_eq (event : HashVerifiedEvent) (desk : Desk) :
    addEvent event desk =
      (taken "custody_events.event_id" event.eventId
        (desk.events.map HashVerifiedEvent.eventId)).elim
        (.ok (), desk.withEvent event) fun e => (.error e, desk) := by
  rw [addEvent, Service.commit, eventConstraints,
    @insertRow_of_key _ HashVerifiedEvent.eventId]
  cases taken "custody_events.event_id" event.eventId
    (desk.events.map HashVerifiedEvent.eventId) <;> rfl

end

/-- What the tables say of a job and of its evidence. -/
structure Shows (desk : Desk) (jobId evidenceId : String) (job : HashJob)
    (row : EvidenceRow) : Prop where
  job : desk.jobs.find? jobId = some job
  row : desk.store.evidence.find? evidenceId = some row

section

variable {desk : Desk} {jobId evidenceId : String} {job : HashJob}
  {row : EvidenceRow}

theorem Shows.updateJob (h : Shows desk jobId evidenceId job row)
    (job' : HashJob) (hid : job'.jobId = jobId) :
    Shows ((Evidence.updateJob job').after desk) jobId evidenceId job' row :=
  ⟨by
    change (desk.jobs.put job').find? jobId = some job'
    rw [Table.find?_put, if_pos hid], h.row⟩

theorem Shows.updateEvidence (h : Shows desk jobId evidenceId job row)
    (row' : EvidenceRow) (hid : row'.evidenceId = evidenceId) :
    Shows ((onStore (Evidence.updateEvidence row')).after desk) jobId
      evidenceId job row' :=
  ⟨h.job, by
    change (desk.store.evidence.put row').find? evidenceId = some row'
    rw [Table.find?_put, if_pos hid]⟩

end

/-- What a hash leaves: its job and evidence are as they must be exactly when a
condition holds, and the ledger and the verifications are untouched. -/
def Leaves (before after : Desk) (jobId evidenceId : String) (good : Prop) :
    Prop :=
  ∃ job row, Shows after jobId evidenceId job row ∧
    after.events = before.events ∧
    after.store.verifications = before.store.verifications ∧
    ((isFinal job.status = true ∧ row.status ≠ .hashing) ↔ good)

theorem not_isFailure_of_isCancellation {error : PyError}
    (h : isCancellation error = true) : ¬ isFailure error = true := by
  cases error with
  | apex e =>
      rw [isCancellation, decide_eq_true_eq] at h
      simp [isFailure, h]
  | builtin => cases h

/-- The `except` clauses of `calculate_hash`. -/
theorem leaves_exceptHash {α : Type} (faults : Faults)
    (hshows : Shows desk jobId evidenceId job₀ row₀)
    (hopen : isFinal job₀.status = false) (hjob : job.jobId = jobId)
    (hrow : row.evidenceId = evidenceId) (now : String) (error : PyError) :
    Leaves desk ((exceptHash (α := α) faults row job now error).after desk)
      jobId evidenceId
      (FailureStored faults error ∨
        isCancellation error = true ∧ faults .markCancelled = none ∧
          row₀.status ≠ .hashing) := by
  rw [exceptHash]
  split_ifs with hcancel hfailure
  · rw [exceptCancelled, Service.after_bind_of_after_eq fun _ _ => rfl]
    have hnot := not_isFailure_of_isCancellation hcancel
    cases hw : faults .markCancelled with
    | some e =>
        refine ⟨job₀, row₀, hshows, rfl, rfl, ?_⟩
        simp [hopen, FailureStored, hnot]
    | none =>
        refine ⟨_, row₀, hshows.updateJob (job.cancelled now) hjob, rfl, rfl, ?_⟩
        simp [isFinal, HashJob.cancelled, FailureStored, hnot, hcancel]
  · cases hevidence : faults .markEvidenceFailed with
    | some e =>
        refine ⟨job₀, row₀, hshows, rfl, rfl, ?_⟩
        simp [hopen, FailureStored, hevidence, hcancel]
    | none =>
        rw [Service.unlessRaised_none]
        have hshows' := hshows.updateEvidence (row.marked .failed now) hrow
        cases hw : faults .markFailed with
        | some e =>
            refine ⟨job₀, _, hshows', rfl, rfl, ?_⟩
            simp [hopen, FailureStored, hw, hcancel]
        | none =>
            refine ⟨_, _, hshows'.updateJob (job.failed now error) hjob, rfl,
              rfl, ?_⟩
            simp [isFinal, HashJob.failed, EvidenceRow.marked, FailureStored,
              hfailure, hevidence, hw]
  · refine ⟨job₀, row₀, hshows, rfl, rfl, ?_⟩
    simp [hopen, FailureStored, hfailure, hcancel]

theorem hashOutcome_evidenceId {P : Platform} {segments : SegmentFinder}
    {files : Files} {row' : EvidenceRow} {algorithm : HashAlgorithm}
    {inputs : HashInputs} {computation : HashComputation}
    {warnings : List String}
    (h : hashOutcome P segments files row algorithm inputs =
      .ok (computation, row', warnings)) :
    row'.evidenceId = row.evidenceId := by
  unfold hashOutcome at h
  obtain ⟨c, -, h⟩ := bind_ok h
  dsimp only at h
  split at h
  · obtain ⟨_, -, h⟩ := bind_ok h
    cases h
    rfl
  · cases h
    rfl

section

variable (P : Platform) (segments : SegmentFinder) (faults : Faults)

theorem Leaves.congr {before before' after : Desk} {good good' : Prop}
    (h : Leaves before after jobId evidenceId good)
    (hevents : before.events = before'.events) (hverifications :
      before.store.verifications = before'.store.verifications)
    (hgood : good ↔ good') : Leaves before' after jobId evidenceId good' := by
  obtain ⟨job, row, hshows, hevents', hverifications', hends⟩ := h
  exact ⟨job, row, hshows, hevents'.trans hevents,
    hverifications'.trans hverifications, hends.trans hgood⟩

theorem leaves_exceptHash_early {α : Type}
    (hshows : Shows desk jobId evidenceId job₀ row₀)
    (hopen : isFinal job₀.status = false) (hhashing : row₀.status = .hashing)
    (hjob : job.jobId = jobId) (hrow : row.evidenceId = evidenceId)
    (now : String) (error : PyError) :
    Leaves desk ((exceptHash (α := α) faults row job now error).after desk)
      jobId evidenceId (FailureStored faults error) :=
  (leaves_exceptHash faults hshows hopen hjob hrow now error).congr rfl rfl
    (by simp [hhashing])

section

variable {desk : Desk} {jobId evidenceId : String} {job₀ job : HashJob}
  {row₀ row : EvidenceRow} (now : String)
  (hshows : Shows desk jobId evidenceId job₀ row₀)
  (hopen : isFinal job₀.status = false) (hjob : job.jobId = jobId)
  (hrow : row.evidenceId = evidenceId)

include hshows hopen hjob hrow

theorem leaves_hashFinish (hready : row₀.status = .ready)
    (record : HashRecord) :
    Leaves desk ((hashFinish faults record row job now).after desk) jobId
      evidenceId
      ((faults .markSucceeded).elim True fun error =>
        FailureStored faults error ∨
          isCancellation error = true ∧ faults .markCancelled = none) := by
  have hshows' := hshows.updateJob (job.succeeded now) hjob
  have hdone : Leaves desk ((updateJob (job.succeeded now)).after desk) jobId
      evidenceId True := by
    refine ⟨_, row₀, hshows', rfl, rfl, ?_⟩
    simp [isFinal, HashJob.succeeded, hready]
  refine Service.after_guarded_write
    (Q := fun t => Leaves desk t jobId evidenceId) rfl (fun error => ?_) hdone
  have hid : (job.succeeded now).jobId = jobId := hjob
  apply (leaves_exceptHash faults hshows hopen hid hrow now error).congr rfl rfl
  simp [hready]

theorem leaves_hashStore (hhashing : row₀.status = .hashing)
    (record : HashRecord) :
    Leaves desk ((hashStore faults record row job now).after desk) jobId
      evidenceId
      ((faults .saveRecord <|>
          taken "evidence_hashes.hash_id" record.hashId
            (desk.store.hashes.map HashRecord.hashId) <|>
          faults .markReady).elim
        ((faults .markSucceeded).elim True fun error =>
          FailureStored faults error ∨
            isCancellation error = true ∧ faults .markCancelled = none)
        (FailureStored faults)) := by
  simp only [Service.elim_orElse]
  have hexcept := leaves_exceptHash_early (α := HashRecord × HashJob) faults
    hshows hopen hhashing hjob hrow now
  refine Service.after_guarded (Q := fun t => Leaves desk t jobId evidenceId)
    (saveHashRecord_eq record desk) hexcept fun _ => ?_
  have hshows' : Shows { desk with store := { desk.store with
      hashes := desk.store.hashes ++ [record] } } jobId evidenceId job₀ row₀ :=
    ⟨hshows.job, hshows.row⟩
  refine Service.after_guarded_write
    (Q := fun t => Leaves desk t jobId evidenceId) rfl
    (leaves_exceptHash_early faults hshows' hopen hhashing hjob hrow now) ?_
  exact leaves_hashFinish faults now
    (hshows'.updateEvidence (row.marked .ready now) hrow) hopen hjob hrow rfl
    record

end

/-- The `try` block of `calculate_hash`, statement by statement. -/
theorem leaves_hashBlock {inputs : HashJobInputs}
    (hshows : Shows desk inputs.jobId args.evidenceId job₀ row₀)
    (hopen : isFinal job₀.status = false) (hhashing : row₀.status = .hashing)
    (hjob : job.jobId = inputs.jobId) (hrow : row.evidenceId = args.evidenceId)
    :
    Leaves desk ((hashBlock P segments faults args inputs row job).after desk)
      inputs.jobId args.evidenceId
      (HashEnds P segments faults desk args inputs row) := by
  rw [hashBlock, HashEnds, earlyHashError]
  simp only [Service.elim_orElse]
  have hid : (job.running inputs.now).jobId = inputs.jobId := hjob
  refine Service.after_guarded_write
    (Q := fun t => Leaves desk t inputs.jobId args.evidenceId) rfl
    (leaves_exceptHash_early faults hshows hopen hhashing hid hrow _) ?_
  have hshows' := hshows.updateJob (job.running inputs.now) hjob
  have hexcept := leaves_exceptHash_early (α := HashRecord × HashJob) faults
    hshows' rfl hhashing hid hrow inputs.now
  refine Service.after_guarded_read
    (Q := fun t => Leaves desk t inputs.jobId args.evidenceId) hexcept
    fun outcome houtcome => ?_
  have hid' : ((job.running inputs.now).warned outcome.2.2).jobId =
      inputs.jobId := hjob
  have hrow' : outcome.2.1.evidenceId = args.evidenceId :=
    (hashOutcome_evidenceId houtcome).trans hrow
  have hstore := leaves_hashStore faults inputs.now hshows' rfl hid' hrow'
    hhashing (hashRecord args inputs outcome.1)
  simp only [Service.elim_orElse] at hstore
  exact hstore

end

/-! ## Verifications -/

/-- Each verification that names an event names one of the ledger. -/
def Desk.Known (desk : Desk) : Prop :=
  ∀ v ∈ desk.store.verifications, ∀ eventId, v.custodyEventId = some eventId →
    eventId ∈ desk.events.map HashVerifiedEvent.eventId

section

variable {desk after : Desk}

theorem recorded_congr (hevents : after.events = desk.events)
    (hnamed : ∀ event ∈ desk.events,
      after.store.verifications.filter
          (fun v => v.custodyEventId = some event.eventId) =
        desk.store.verifications.filter
          (fun v => v.custodyEventId = some event.eventId)) :
    after.Recorded ↔ desk.Recorded := by
  rw [Desk.Recorded, Desk.Recorded, hevents]
  constructor
  · intro h event hevent
    rw [← hnamed event hevent]
    exact h event hevent
  · intro h event hevent
    rw [hnamed event hevent]
    exact h event hevent

theorem recorded_withVerification (hv : v.custodyEventId = none) :
    (desk.withVerification v).Recorded ↔ desk.Recorded := by
  have hevents : (desk.withVerification v).events = desk.events := rfl
  apply recorded_congr hevents
  intro event _
  rw [Desk.withVerification, List.filter_append]
  simp [hv]

theorem not_recorded_withEvent (hknown : desk.Known) {event : HashVerifiedEvent}
    (hnew : event.eventId ∉ desk.events.map HashVerifiedEvent.eventId) :
    ¬ (desk.withEvent event).Recorded := by
  intro h
  obtain ⟨v, hfilter, -⟩ :=
    h event (List.mem_append_right _ (List.mem_singleton_self event))
  have hmem : v ∈ desk.store.verifications.filter
      (fun v => v.custodyEventId = some event.eventId) := by
    rw [Desk.withEvent] at hfilter
    rw [hfilter]
    exact List.mem_singleton_self v
  obtain ⟨hv, hnames⟩ := List.mem_filter.mp hmem
  exact hnew (hknown v hv _ (of_decide_eq_true hnames))

theorem recorded_withEvent (hknown : desk.Known) {event : HashVerifiedEvent}
    (hnew : event.eventId ∉ desk.events.map HashVerifiedEvent.eventId)
    (hv : v.custodyEventId = some event.eventId)
    (haction : event.action = verifiedAction v.status) :
    ((desk.withEvent event).withVerification v).Recorded ↔ desk.Recorded := by
  have hold : ∀ e ∈ desk.events,
      (desk.store.verifications ++ [v]).filter
          (fun v => v.custodyEventId = some e.eventId) =
        desk.store.verifications.filter
          (fun v => v.custodyEventId = some e.eventId) := by
    intro e he
    have hne : event.eventId ≠ e.eventId := fun h =>
      hnew (List.mem_map.mpr ⟨e, he, h.symm⟩)
    rw [List.filter_append]
    simp [hv, hne]
  have hown : (desk.store.verifications ++ [v]).filter
      (fun v => v.custodyEventId = some event.eventId) = [v] := by
    have hnone : desk.store.verifications.filter
        (fun v => v.custodyEventId = some event.eventId) = [] := by
      apply List.filter_eq_nil_iff.mpr
      intro w hw hnames
      exact hnew (hknown w hw _ (of_decide_eq_true hnames))
    rw [List.filter_append, hnone]
    simp [hv]
  constructor
  · intro h e he
    rw [← hold e he]
    exact h e (List.mem_append_left _ he)
  · intro h e he
    rcases List.mem_append.mp he with he | he
    · obtain ⟨w, hw, haction⟩ := h e he
      exact ⟨w, (hold e he).trans hw, haction⟩
    · rw [List.mem_singleton.mp he]
      exact ⟨v, hown, haction⟩

end

theorem known_withVerification
    (hv : ∀ eventId, v.custodyEventId = some eventId →
      eventId ∈ desk.events.map HashVerifiedEvent.eventId) (h : desk.Known) :
    (desk.withVerification v).Known := by
  intro w hw
  rcases List.mem_append.mp hw with hw | hw
  · exact h w hw
  · rw [List.mem_singleton.mp hw]
    exact hv

theorem known_withEvent (event : HashVerifiedEvent) (h : desk.Known) :
    (desk.withEvent event).Known := by
  intro v hv eventId hnames
  rw [Desk.withEvent, List.map_append]
  exact List.mem_append_left _ (h v hv eventId hnames)

/-- What a verification leaves: its job is final and the ledger recorded
exactly when a condition holds, and the evidence is untouched. -/
structure Reports (before after : Desk) (jobId : String) (good : Prop) :
    Prop where
  evidence : after.store.evidence = before.store.evidence
  known : before.Known → after.Known
  job : ∃ job, after.jobs.find? jobId = some job ∧
    ((isFinal job.status = true ∧ after.Recorded) ↔ good)

theorem Reports.congr {before before' after : Desk} {good good' : Prop}
    (h : Reports before after jobId good)
    (hevidence : before.store.evidence = before'.store.evidence)
    (hknown : before'.Known → before.Known) (hgood : good ↔ good') :
    Reports before' after jobId good' := by
  obtain ⟨hevidence', hknown', job, hjob, hends⟩ := h
  exact ⟨hevidence'.trans hevidence, fun h => hknown' (hknown h), job, hjob,
    hends.trans hgood⟩

theorem find?_updateJob (hjob : job.jobId = jobId) (desk : Desk) :
    ((updateJob job).after desk).jobs.find? jobId = some job := by
  change (desk.jobs.put job).find? jobId = some job
  rw [Table.find?_put, if_pos hjob]

theorem reports_updateJob (desk : Desk) (hjob : job.jobId = jobId)
    (hfinal : isFinal job.status = true) :
    Reports desk ((updateJob job).after desk) jobId desk.Recorded := by
  refine ⟨rfl, fun h => h, job, find?_updateJob hjob desk, ?_⟩
  · have hrecorded : ((updateJob job).after desk).Recorded ↔ desk.Recorded :=
      recorded_congr rfl fun _ _ => rfl
    rw [hfinal, hrecorded]
    simp

section

variable (faults : Faults)

/-- The `except` clauses of `verify_evidence`. -/
theorem reports_exceptVerify {α : Type} {expected : HashRecord}
    (hfind : desk.jobs.find? inputs.jobId = some job₀)
    (hopen : isFinal job₀.status = false) (hjob : job.jobId = inputs.jobId)
    (error : PyError) :
    Reports desk
      ((exceptVerify (α := α) faults row args inputs expected job error).after
        desk) inputs.jobId
      (desk.Recorded ∧ VerifyStored faults inputs (usedIds desk) error) := by
  have hunchanged : Reports desk desk inputs.jobId False :=
    ⟨rfl, fun h => h, job₀, hfind, by simp [hopen]⟩
  rw [exceptVerify]
  split_ifs with hcancel hfailure
  · rw [exceptCancelled, Service.after_bind_of_after_eq fun _ _ => rfl]
    have hnot := not_isFailure_of_isCancellation hcancel
    cases hw : faults .markCancelled with
    | some e => exact hunchanged.congr rfl id (by simp [VerifyStored, hnot, hw])
    | none =>
        have hid : (job.cancelled inputs.now).jobId = inputs.jobId := hjob
        exact (reports_updateJob desk hid rfl).congr rfl id
          (by simp [VerifyStored, hcancel, hw])
  · cases hsave : faults .saveError with
    | some e =>
        exact hunchanged.congr rfl id (by simp [VerifyStored, hcancel, hsave])
    | none =>
        rw [Service.unlessRaised_none]
        have hrow := saveHashVerification_eq
          (errorRow row args inputs expected error) desk
        have hkey : (errorRow row args inputs expected error).verificationId =
          inputs.errorId := rfl
        by_cases hused : inputs.errorId ∈ usedIds desk
        · rw [taken, hkey, if_pos hused] at hrow
          rw [Service.after_bind_of_error (congrArg Prod.fst hrow),
            Service.after, hrow]
          exact hunchanged.congr rfl id (by simp [VerifyStored, hcancel, hused])
        rw [taken, hkey, if_neg hused] at hrow
        rw [Service.after_bind_of_ok hrow,
          Service.after_bind_of_after_eq fun _ _ => rfl]
        cases hw : faults .markFailed with
        | some e =>
            refine ⟨rfl, known_withVerification (by rintro _ ⟨⟩), job₀, hfind, ?_⟩
            simp [hopen, VerifyStored, hcancel, hw]
        | none =>
            have hid : (job.failed inputs.now error).jobId = inputs.jobId :=
              hjob
            refine (reports_updateJob _ hid rfl).congr rfl ?_ ?_
            · exact known_withVerification (by rintro _ ⟨⟩)
            rw [recorded_withVerification rfl]
            simp [VerifyStored, hfailure, hsave, hused, hw]
  · exact hunchanged.congr rfl id (by simp [VerifyStored, hcancel, hfailure])

theorem and_elim {A B : Prop} (error : Option PyError) (F : PyError → Prop) :
    (A ∧ error.elim B F) ↔ error.elim (A ∧ B) fun e => A ∧ F e := by
  cases error <;> rfl

theorem appendHashVerifiedEvent_eq (hledger : inputs.hasLedger = true)
    (event : HashVerifiedEvent) :
    appendHashVerifiedEvent faults inputs event =
      Service.unlessRaised (faults .addEvent) fun desk =>
        (taken "custody_events.event_id" event.eventId
          (desk.events.map HashVerifiedEvent.eventId)).elim
          (.ok (some event.eventId), desk.withEvent event)
          fun e => (.error e, desk) := by
  rw [appendHashVerifiedEvent, if_pos hledger]
  congr 1
  funext desk
  simp only [bind, addEvent_eq]
  cases taken "custody_events.event_id" event.eventId
    (desk.events.map HashVerifiedEvent.eventId) <;> rfl

section

variable {desk : Desk} (args : HashArgs) {inputs : VerifyJobInputs}
  (row : EvidenceRow) (expected : HashRecord) {job₀ job : HashJob}
  (hopen : isFinal job₀.status = false) (hjob : job.jobId = inputs.jobId)

include hopen hjob

theorem reports_verifyFinish
    (hfind : desk.jobs.find? inputs.jobId = some job₀)
    (verification : HashVerification) :
    Reports desk
      ((verifyFinish faults args inputs row expected job verification).after
        desk) inputs.jobId
      (desk.Recorded ∧
        (faults .markVerified <|> faults .markSucceeded).elim True
          (VerifyStored faults inputs (usedIds desk))) := by
  simp only [Service.elim_orElse, and_elim]
  refine Service.after_guarded_write
    (Q := fun t => Reports desk t inputs.jobId) rfl
    (reports_exceptVerify faults hfind hopen hjob) ?_
  refine Service.after_guarded_write
    (Q := fun t => Reports desk t inputs.jobId) rfl (fun error => ?_) ?_
  · have hid : ((job.succeeded inputs.now).warned
        (if verification.status = .mismatch then ["HASH_MISMATCH"]
          else [])).jobId = inputs.jobId := hjob
    have hmarked : ((onStore (markHashRecordVerified expected.hashId
        verification.status)).after desk).jobs.find? inputs.jobId =
        some job₀ := hfind
    exact (reports_exceptVerify faults hmarked hopen hid error).congr rfl id
      (and_congr (recorded_congr rfl fun _ _ => rfl) Iff.rfl)
  · have hid : ((job.succeeded inputs.now).warned
        (if verification.status = .mismatch then ["HASH_MISMATCH"]
          else [])).jobId = inputs.jobId := hjob
    refine (reports_updateJob _ hid rfl).congr rfl ?_ ?_
    · exact id
    rw [and_true]
    exact recorded_congr rfl fun _ _ => rfl

theorem reports_saveVerification
    (hfind : desk.jobs.find? inputs.jobId = some job₀)
    {verification : HashVerification} {recorded : Prop}
    (hid : verification.verificationId = inputs.newId)
    (hknown : desk.Known → (desk.withVerification verification).Known)
    (hrecorded : (desk.withVerification verification).Recorded ↔ recorded) :
    Reports desk
      ((Service.guarded
        (Service.unlessRaised (faults .saveVerification)
          (onStore (saveHashVerification verification)))
        (exceptVerify faults row args inputs expected job) fun _ =>
        verifyFinish faults args inputs row expected job verification).after
        desk) inputs.jobId
      ((storeVerifyError faults desk inputs).elim
        (recorded ∧ (faults .markVerified <|> faults .markSucceeded).elim True
          (VerifyStored faults inputs (usedIds desk ++ [inputs.newId])))
        fun error => desk.Recorded ∧
          VerifyStored faults inputs (usedIds desk) error) := by
  rw [storeVerifyError, Service.elim_orElse, ← hid]
  refine Service.after_guarded (Q := fun t => Reports desk t inputs.jobId)
    (saveHashVerification_eq verification desk)
    (reports_exceptVerify faults hfind hopen hjob) fun _ => ?_
  have hfinish := @reports_verifyFinish faults
    (desk.withVerification verification) args inputs row expected job₀ job
    hopen hjob hfind verification
  refine hfinish.congr rfl ?_ ?_
  · exact hknown
  rw [hrecorded, usedIds, Desk.withVerification, List.map_append]
  rfl

theorem reports_verifyStore (hknown : desk.Known)
    (hfind : desk.jobs.find? inputs.jobId = some job₀)
    (computation : HashComputation) :
    Reports desk
      ((verifyStore faults args inputs row expected job computation).after desk)
      inputs.jobId
      ((if inputs.hasLedger then
          faults .addEvent <|>
            taken "custody_events.event_id" inputs.eventId
              (desk.events.map HashVerifiedEvent.eventId)
        else none).elim
        ((storeVerifyError faults desk inputs).elim
          (desk.Recorded ∧
            (faults .markVerified <|> faults .markSucceeded).elim True
              (VerifyStored faults inputs (usedIds desk ++ [inputs.newId])))
          fun error => inputs.hasLedger = false ∧ desk.Recorded ∧
            VerifyStored faults inputs (usedIds desk) error)
        fun error => desk.Recorded ∧
          VerifyStored faults inputs (usedIds desk) error) := by
  rw [verifyStore]
  cases hledger : inputs.hasLedger with
  | false =>
      have hnone : ∀ event, appendHashVerifiedEvent faults inputs event =
          Service.unlessRaised none (pure none) := by
        intro event
        rw [appendHashVerifiedEvent, if_neg (by simp [hledger])]
        rfl
      rw [hnone]
      refine Service.after_guarded_write
        (Q := fun t => Reports desk t inputs.jobId) rfl
        (reports_exceptVerify faults hfind hopen hjob) ?_
      refine (reports_saveVerification faults args row expected hopen hjob hfind
        rfl ?_ (recorded_withVerification rfl)).congr rfl id ?_
      · exact known_withVerification nofun
      · simp
  | true =>
      rw [appendHashVerifiedEvent_eq faults hledger, if_pos rfl,
        Service.elim_orElse]
      refine Service.after_guarded (Q := fun t => Reports desk t inputs.jobId)
        rfl (reports_exceptVerify faults hfind hopen hjob) fun hfree => ?_
      have hnew :
          inputs.eventId ∉ desk.events.map HashVerifiedEvent.eventId := by
        intro hmem
        change taken "custody_events.event_id" inputs.eventId _ = none at hfree
        rw [taken, if_pos hmem] at hfree
        cases hfree
      have hnot : ¬ (desk.withEvent (hashVerifiedEvent row args inputs expected
          computation (if computation.digest = expected.digest then .isMatch
            else .mismatch))).Recorded := not_recorded_withEvent hknown hnew
      refine (@reports_saveVerification faults (desk.withEvent _) args inputs
        row expected job₀ job hopen hjob hfind _ _ rfl ?_
        (recorded_withEvent hknown hnew rfl rfl)).congr rfl
        (known_withEvent _) ?_
      · apply known_withVerification
        intro eventId hid
        rw [← Option.some.inj hid, Desk.withEvent, List.map_append]
        exact List.mem_append_right _ (List.mem_singleton_self _)
      simp only [hnot, false_and, Bool.true_eq_false]
      rfl

end

/-- The `try` block of `verify_evidence`, statement by statement. -/
theorem reports_verifyBlock (P : Platform) (row : EvidenceRow)
    (expected : HashRecord) (hknown : desk.Known)
    (hfind : desk.jobs.find? inputs.jobId = some job₀)
    (hopen : isFinal job₀.status = false) (hjob : job.jobId = inputs.jobId) :
    Reports desk
      ((verifyBlock P faults args inputs row expected job).after desk)
      inputs.jobId
      (desk.Recorded ∧ VerifyEnds P faults desk args inputs row) := by
  rw [verifyBlock, VerifyEnds, earlyVerifyError]
  simp only [Service.elim_orElse, and_elim]
  have hid : (job.running inputs.now).jobId = inputs.jobId := hjob
  refine Service.after_guarded_write
    (Q := fun t => Reports desk t inputs.jobId) rfl
    (reports_exceptVerify faults hfind hopen hid) ?_
  have hrunning := find?_updateJob hid desk
  have hfrom : ∀ {t good},
      Reports ((updateJob (job.running inputs.now)).after desk) t inputs.jobId
        good → Reports desk t inputs.jobId good :=
    fun h => h.congr rfl id Iff.rfl
  apply hfrom
  refine Service.after_guarded_read
    (Q := fun t => Reports ((updateJob (job.running inputs.now)).after desk) t
      inputs.jobId)
    (fun error => ?_) fun computation _ => ?_
  · exact (reports_exceptVerify faults hrunning rfl hid error).congr rfl id
      (and_congr (recorded_congr rfl fun _ _ => rfl) Iff.rfl)
  · have hopen' : isFinal (job.running inputs.now).status = false := rfl
    have hknown' : ((updateJob (job.running inputs.now)).after desk).Known :=
      hknown
    have hrecorded : ((updateJob (job.running inputs.now)).after
        desk).Recorded ↔ desk.Recorded := recorded_congr rfl fun _ _ => rfl
    refine (reports_verifyStore faults args row expected hopen' hid hknown'
      hrunning computation).congr rfl id ?_
    simp only [hrecorded, and_elim, Service.elim_orElse]
    simp only [and_left_comm (a := inputs.hasLedger = false)]
    exact Iff.rfl

end

end ApexForensic.Evidence
