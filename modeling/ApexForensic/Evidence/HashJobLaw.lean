import ApexForensic.Evidence.HashJobEnds
import ApexForensic.Evidence.Verification

/-!
# Hash jobs over whole runs

A call of the manager leaves its job final, its evidence not as being hashed
and the ledger recorded exactly when its writes go through as far as they must,
in every state that calls, registrations and changes of files reach.
-/

namespace ApexForensic.Evidence

open ApexForensic.Support ApexForensic.Domain
open ApexForensic.Jobs (JobStatus)

/-! ## From a desk to the law -/

section

variable {desk after : Desk} {call : HashCall}

theorem settled_self :
    Settled desk desk call ↔ desk.Recorded ∧
      ∀ row, desk.store.evidence.find? call.args.evidenceId = some row →
        row.status ≠ .hashing := by
  constructor
  · intro h
    exact ⟨h.recorded, h.notHashing⟩
  · rintro ⟨hrecorded, hrow⟩
    refine ⟨fun job hsome hnone => ?_, hrow, hrecorded⟩
    rw [hnone] at hsome
    cases hsome

theorem settled_iff_of_shows {job : HashJob} {row : EvidenceRow}
    (hfresh : desk.jobs.find? call.jobId = none)
    (hshows : Shows after call.jobId call.args.evidenceId job row) :
    Settled desk after call ↔
      isFinal job.status = true ∧ row.status ≠ .hashing ∧ after.Recorded := by
  constructor
  · intro h
    exact ⟨h.jobFinal job hshows.job hfresh, h.notHashing row hshows.row,
      h.recorded⟩
  · rintro ⟨hjob, hrow, hrecorded⟩
    refine ⟨fun job' hsome _ => ?_, fun row' hsome => ?_, hrecorded⟩
    · rw [hshows.job] at hsome
      rwa [← Option.some.inj hsome]
    · rw [hshows.row] at hsome
      rwa [← Option.some.inj hsome]

theorem Leaves.settled {good : Prop}
    (h : Leaves desk after call.jobId call.args.evidenceId good)
    {before : Desk} (hfresh : before.jobs.find? call.jobId = none) :
    Settled before after call ↔ desk.Recorded ∧ good := by
  obtain ⟨job, row, hshows, hevents, hverifications, hends⟩ := h
  have hrecorded : after.Recorded ↔ desk.Recorded :=
    recorded_congr hevents fun _ _ => by rw [hverifications]
  rw [settled_iff_of_shows hfresh hshows, hrecorded, ← hends, ← and_assoc,
    and_comm]

theorem Reports.settled {good : Prop} {row : EvidenceRow}
    (h : Reports desk after call.jobId good)
    (hrow : desk.store.evidence.find? call.args.evidenceId = some row)
    {before : Desk} (hfresh : before.jobs.find? call.jobId = none) :
    Settled before after call ↔ row.status ≠ .hashing ∧ good := by
  obtain ⟨hevidence, -, job, hjob, hends⟩ := h
  rw [settled_iff_of_shows hfresh ⟨hjob, hevidence ▸ hrow⟩, ← hends]
  exact and_left_comm

end

/-! ## Calls -/

section

variable {P : Platform} {segments : SegmentFinder} {faults : Faults}
  {desk : Desk}

theorem saveJob_eq {job : HashJob} (hfresh : desk.jobs.find? job.jobId = none) :
    ∃ jobs, saveJob job desk = (.ok (), { desk with jobs }) ∧
      jobs.find? job.jobId = some job := by
  have hnew := Table.find?_eq_none_iff.mp hfresh
  have hinsert : desk.jobs.insert job = some _ := dif_neg hnew
  refine ⟨_, by rw [saveJob, Service.commit, hinsert], ?_⟩
  apply Table.find?_eq_some_iff.mpr
  rw [(Table.insert_eq_some_iff.mp hinsert).2]
  exact ⟨List.mem_append_right _ (List.mem_singleton_self job), rfl⟩

theorem saveJob_of_used {job old : HashJob}
    (hused : desk.jobs.find? job.jobId = some old) :
    ∃ e, saveJob job desk = (.error e, desk) := by
  obtain ⟨hmem, hkey⟩ := Table.find?_eq_some_iff.mp hused
  have hinsert : desk.jobs.insert job = none :=
    dif_pos (List.mem_map.mpr ⟨old, hmem, hkey⟩)
  exact ⟨_, by rw [saveJob, Service.commit, hinsert]⟩

theorem after_saveJob {α : Type} (job : HashJob)
    (rest : Service Desk PyError α) :
    ¬ (faults .saveJob = none ∧ desk.jobs.find? job.jobId = none) ∧
        (Service.unlessRaised (faults .saveJob) (saveJob job) >>=
          fun _ => rest).after desk = desk ∨
      (faults .saveJob = none ∧ desk.jobs.find? job.jobId = none) ∧
        ∃ jobs, jobs.find? job.jobId = some job ∧
          (Service.unlessRaised (faults .saveJob) (saveJob job) >>=
            fun _ => rest).after desk = rest.after { desk with jobs } := by
  cases hw : faults .saveJob with
  | some e => exact Or.inl ⟨nofun, rfl⟩
  | none =>
      rw [Service.unlessRaised_none]
      cases hfind : desk.jobs.find? job.jobId with
      | some old =>
          obtain ⟨e, he⟩ := saveJob_of_used hfind
          refine Or.inl ⟨nofun, ?_⟩
          rw [Service.after_bind_of_error (congrArg Prod.fst he), Service.after,
            he]
      | none =>
          obtain ⟨jobs, hsave, hjob⟩ := saveJob_eq hfind
          exact Or.inr ⟨⟨rfl, rfl⟩, jobs, hjob, Service.after_bind_of_ok hsave⟩

theorem getEvidence_eq_ok_iff {store : Store} {evidenceId : String}
    {row : EvidenceRow} :
    store.getEvidence evidenceId = .ok row ↔
      store.evidence.find? evidenceId = some row := by
  rw [Store.getEvidence]
  cases store.evidence.find? evidenceId with
  | none => simp
  | some row' => simp

theorem ensureHashSupported_eq_ok_iff {row : EvidenceRow} {u : Unit} :
    ensureHashSupported row = .ok u ↔ row.evidenceType ≠ .directory := by
  rw [ensureHashSupported]
  split_ifs with h
  · simp [h]
  · simp [h]

theorem expectedRecord_eq_ok_iff {store : Store} {args : HashArgs}
    {record : HashRecord} :
    expectedRecord store args = .ok record ↔
      store.latestHashRecord args.evidenceId args.algorithm = some record := by
  rw [expectedRecord]
  cases store.latestHashRecord args.evidenceId args.algorithm with
  | none => simp
  | some record' => simp

/-- A call on unknown evidence, or evidence of a type that is not hashed, leaves
things as they are. -/
theorem supported_cases {α : Type} (call : HashCall)
    (rest : EvidenceRow → Service Desk PyError α) :
    let m := Service.read (fun desk : Desk =>
        desk.store.getEvidence call.args.evidenceId) >>= fun row =>
      Service.read (fun _ => ensureHashSupported row) >>= fun _ => rest row
    (∀ row, ¬ Makes faults desk call row) ∧ m.after desk = desk ∨
      ∃ row, desk.store.evidence.find? call.args.evidenceId = some row ∧
        row.evidenceType ≠ .directory ∧
        m.after desk = (rest row).after desk := by
  intro m
  rcases Service.after_read_bind_cases
      (fun desk : Desk => desk.store.getEvidence call.args.evidenceId) _ desk with
    ⟨e, he, hafter⟩ | ⟨row, hrow, hafter⟩
  · refine Or.inl ⟨fun row h => ?_, hafter⟩
    exact absurd ((getEvidence_eq_ok_iff.mpr h.found).symm.trans he) nofun
  rw [hafter]
  have hfound := getEvidence_eq_ok_iff.mp hrow
  have hsame : ∀ {row'}, Makes faults desk call row' →
      row' = row := fun h => Option.some.inj (h.found.symm.trans hfound)
  rcases Service.after_read_bind_cases
      (fun _ : Desk => ensureHashSupported row) _ desk with
    ⟨e, he, hafter⟩ | ⟨_, hsupported, hafter⟩
  · refine Or.inl ⟨fun row' h => ?_, hafter⟩
    have hok := (ensureHashSupported_eq_ok_iff (u := ())).mpr h.supported
    rw [hsame h] at hok
    exact absurd (hok.symm.trans he) nofun
  rw [hafter]
  exact Or.inr ⟨row, hfound, ensureHashSupported_eq_ok_iff.mp hsupported, rfl⟩

theorem calculateHashJob_cases (args : HashArgs) (inputs : HashJobInputs) :
    (∀ row, ¬ Makes faults desk (.hash args inputs) row) ∧
        (calculateHashJob P segments faults args inputs).after desk = desk ∨
      ∃ row jobs, Makes faults desk (.hash args inputs) row ∧
        jobs.find? inputs.jobId =
          some (createJob row .hash inputs.jobId inputs.now) ∧
        (calculateHashJob P segments faults args inputs).after desk =
          (Service.unlessRaised (faults .markHashing)
              (onStore (updateEvidence (row.marked .hashing inputs.now))) >>=
            fun _ => hashBlock P segments faults args inputs row
              (createJob row .hash inputs.jobId inputs.now)).after
            { desk with jobs } := by
  rw [calculateHashJob]
  rcases supported_cases (.hash args inputs) _ with
    hsame | ⟨row, hfound, hsupported, hafter⟩
  · exact Or.inl hsame
  refine hafter ▸ ?_
  rcases @after_saveJob faults desk _
      (createJob row .hash inputs.jobId inputs.now) _ with
    ⟨hnot, hafter⟩ | ⟨⟨hsaved, hfresh⟩, jobs, hjob, hafter⟩
  · exact Or.inl ⟨fun row' h => hnot ⟨h.saved, h.fresh⟩, hafter⟩
  · exact Or.inr ⟨row, jobs, ⟨hfound,
      hsupported, nofun, hsaved, hfresh⟩, hjob,
      hafter⟩

theorem verifyEvidenceJob_cases (args : HashArgs) (inputs : VerifyJobInputs) :
    (∀ row, ¬ Makes faults desk (.verify args inputs) row) ∧
        (verifyEvidenceJob P faults args inputs).after desk = desk ∨
      ∃ row expected jobs, Makes faults desk (.verify args inputs) row ∧
        jobs.find? inputs.jobId =
          some (createJob row .verify inputs.jobId inputs.now) ∧
        (verifyEvidenceJob P faults args inputs).after desk =
          (verifyBlock P faults args inputs row expected
            (createJob row .verify inputs.jobId inputs.now)).after
            { desk with jobs } := by
  rw [verifyEvidenceJob]
  rcases supported_cases (.verify args inputs) _ with
    hsame | ⟨row, hfound, hsupported, hafter⟩
  · exact Or.inl hsame
  refine hafter ▸ ?_
  rcases Service.after_read_bind_cases
      (fun desk : Desk => expectedRecord desk.store args) _ desk with
    ⟨e, he, hafter⟩ | ⟨expected, hexpected, hafter⟩
  · refine Or.inl ⟨fun row' h => ?_, hafter⟩
    obtain ⟨record, hrecord⟩ := h.expected args inputs rfl
    exact absurd ((expectedRecord_eq_ok_iff.mpr hrecord).symm.trans he) nofun
  rw [hafter]
  rcases @after_saveJob faults desk _
      (createJob row .verify inputs.jobId inputs.now) _ with
    ⟨hnot, hafter⟩ | ⟨⟨hsaved, hfresh⟩, jobs, hjob, hafter⟩
  · exact Or.inl ⟨fun row' h => hnot ⟨h.saved, h.fresh⟩, hafter⟩
  · refine Or.inr ⟨row, expected, jobs, ⟨hfound,
      hsupported, ?_, hsaved, hfresh⟩, hjob,
      hafter⟩
    rintro args' inputs' ⟨⟩
    exact ⟨expected, expectedRecord_eq_ok_iff.mp hexpected⟩

theorem leaves_calculateHashJob {args : HashArgs} {inputs : HashJobInputs}
    {row : EvidenceRow} (hmakes : Makes faults desk (.hash args inputs) row) :
    Leaves desk ((calculateHashJob P segments faults args inputs).after desk)
      inputs.jobId args.evidenceId
      (faults .markHashing = none ∧
        HashEnds P segments faults desk args inputs row) := by
  rcases @calculateHashJob_cases P segments faults desk args inputs with
    ⟨hnone, -⟩ | ⟨row', jobs, hmakes', hjob, hafter⟩
  · exact absurd hmakes (hnone row)
  obtain rfl : row' = row :=
    Option.some.inj (hmakes'.found.symm.trans hmakes.found)
  rw [hafter]
  have hkey : row'.evidenceId = args.evidenceId :=
    (Table.find?_eq_some_iff.mp hmakes.found).2
  have hid : (createJob row' .hash inputs.jobId inputs.now).jobId =
      inputs.jobId := rfl
  have hshows : Shows { desk with jobs } inputs.jobId args.evidenceId
      (createJob row' .hash inputs.jobId inputs.now) row' :=
    ⟨hjob, hmakes.found⟩
  cases hw : faults .markHashing with
  | some e => exact ⟨_, _, hshows, rfl, rfl, by simp [createJob, isFinal]⟩
  | none =>
      have hshows' := hshows.updateEvidence (row'.marked .hashing inputs.now) hkey
      have hblock := leaves_hashBlock P segments faults hshows' rfl rfl hid hkey
      exact hblock.congr rfl rfl (by simp only [true_and]; rfl)

theorem reports_verifyEvidenceJob (hknown : desk.Known) {args : HashArgs}
    {inputs : VerifyJobInputs} {row : EvidenceRow}
    (hmakes : Makes faults desk (.verify args inputs) row) :
    Reports desk ((verifyEvidenceJob P faults args inputs).after desk)
      inputs.jobId
      (desk.Recorded ∧ VerifyEnds P faults desk args inputs row) := by
  rcases @verifyEvidenceJob_cases P faults desk args inputs with
    ⟨hnone, -⟩ | ⟨row', expected, jobs, hmakes', hjob, hafter⟩
  · exact absurd hmakes (hnone row)
  obtain rfl : row' = row :=
    Option.some.inj (hmakes'.found.symm.trans hmakes.found)
  rw [hafter]
  have hid : (createJob row' .verify inputs.jobId inputs.now).jobId =
      inputs.jobId := rfl
  have hopen : isFinal (createJob row' .verify inputs.jobId
      inputs.now).status = false := rfl
  have hknown' : Desk.Known { desk with jobs } := hknown
  have hrecorded : Desk.Recorded { desk with jobs } ↔ desk.Recorded :=
    recorded_congr rfl fun _ _ => rfl
  exact (reports_verifyBlock faults P row' expected hknown' hjob hopen
    hid).congr rfl id (and_congr hrecorded Iff.rfl)

/-- A call leaves things as it must exactly when its writes go through as far
as they must. -/
theorem settled_iff_of_known (hknown : desk.Known) (call : HashCall) :
    Settled desk (call.after P segments faults desk) call ↔
      Settles P segments faults desk call := by
  rw [Settles]
  by_cases hmade : ∃ row, Makes faults desk call row
  · obtain ⟨row, hmakes⟩ := hmade
    have hunique : ∀ {row'}, Makes faults desk call row' → row' = row :=
      fun h => Option.some.inj (h.found.symm.trans hmakes.found)
    have hsome : ¬ ∀ row, ¬ Makes faults desk call row := fun h => h row hmakes
    rw [or_iff_right fun h => hsome h.1]
    cases call with
    | hash args inputs =>
        have hleaves := @leaves_calculateHashJob P segments faults desk args
          inputs row hmakes
        refine (hleaves.settled hmakes.fresh).trans
          (and_congr Iff.rfl ⟨fun h => ⟨row, hmakes, h⟩, ?_⟩)
        rintro ⟨row', hmakes', h⟩
        rwa [hunique hmakes'] at h
    | verify args inputs =>
        have hreports := @reports_verifyEvidenceJob P faults desk hknown args
          inputs row hmakes
        refine (hreports.settled hmakes.found hmakes.fresh).trans
          (and_left_comm.trans
            (and_congr Iff.rfl ⟨fun h => ⟨row, hmakes, h⟩, ?_⟩))
        rintro ⟨row', hmakes', h⟩
        rwa [hunique hmakes'] at h
  · have hnone : ∀ row, ¬ Makes faults desk call row :=
      fun row h => hmade ⟨row, h⟩
    have hsame : call.after P segments faults desk = desk := by
      cases call with
      | hash args inputs =>
          rcases @calculateHashJob_cases P segments faults desk args inputs with
            ⟨-, hafter⟩ | ⟨row, -, hmakes, -⟩
          · exact hafter
          · exact absurd hmakes (hnone row)
      | verify args inputs =>
          rcases @verifyEvidenceJob_cases P faults desk args inputs with
            ⟨-, hafter⟩ | ⟨row, -, -, hmakes, -⟩
          · exact hafter
          · exact absurd hmakes (hnone row)
    have hends : ¬ Ends P segments faults desk call := by
      cases call with
      | hash args inputs =>
          rintro ⟨row, hmakes, -⟩
          exact hnone row hmakes
      | verify args inputs =>
          rintro ⟨row, hmakes, -⟩
          exact hnone row hmakes
    rw [hsame, settled_self, or_iff_left hends]
    exact and_congr Iff.rfl ⟨fun h => ⟨hnone, h⟩, fun h => h.2⟩

/-! ## Runs -/

theorem known_call (hknown : desk.Known) (call : HashCall) :
    (call.after P segments faults desk).Known := by
  cases call with
  | hash args inputs =>
      rcases @calculateHashJob_cases P segments faults desk args inputs with
        ⟨-, hafter⟩ | ⟨row, -, hmakes, -⟩
      · rw [HashCall.after, hafter]
        exact hknown
      · obtain ⟨-, -, -, hevents, hverifications, -⟩ :=
          @leaves_calculateHashJob P segments faults desk args inputs row hmakes
        intro v hv
        rw [HashCall.after, hverifications] at hv
        rw [HashCall.after, hevents]
        exact hknown v hv
  | verify args inputs =>
      rcases @verifyEvidenceJob_cases P faults desk args inputs with
        ⟨-, hafter⟩ | ⟨row, -, -, hmakes, -⟩
      · rw [HashCall.after, hafter]
        exact hknown
      · exact (@reports_verifyEvidenceJob P faults desk hknown args inputs row
          hmakes).known hknown

end

section

variable (P : Platform) (segments : SegmentFinder)

theorem known_step (desk : Desk) (op : DeskOp) (hknown : desk.Known) :
    (desk.step P segments op).Known := by
  cases op with
  | call call faults => exact known_call hknown call
  | register args inputs =>
      intro v hv
      obtain ⟨-, -, hsame, -⟩ :=
        @registerEvidence_after P segments args inputs desk.store
      exact hknown v (hsame ▸ hv)
  | modify files => exact hknown

/-- However the calls before it ended, a call leaves its job final, its evidence
not as being hashed and the ledger recorded exactly when `Settles` says so. -/
theorem settled_iff (cases : List String) (files : Files) (ops : List DeskOp)
    (faults : Faults) (call : HashCall) :
    let desk := run (Desk.step P segments) (Desk.empty cases files) ops
    Settled desk (call.after P segments faults desk) call ↔
      Settles P segments faults desk call := by
  intro desk
  apply settled_iff_of_known
  have hempty : (Desk.empty cases files).Known := fun v hv => nomatch hv
  exact run_invariant (fun s op h => known_step P segments s op h) hempty ops

end

/-! ## Without faults -/

def noFaults : Faults := fun _ => none

/-! ## A cancelled hash -/

/-- A hash of the image whose token is set at the first chunk. -/
def cancelledHash : HashCall :=
  .hash imageHashArgs
    ⟨{ hashInputs with cancelledAfter := some 0 }, "t1", "job-1", "hash-1"⟩

def imageDesk : Desk :=
  run (Desk.step letterPlatform noSegments)
    (Desk.empty ["case"] (imageFiles [97]))
    [.register ⟨"case", "/image.raw", none⟩
      { now := "t0", newId := "evidence", completedAt := "t0" }]

theorem cancelledHash_leaves_hashing :
    ¬ Settled imageDesk
      (cancelledHash.after letterPlatform noSegments noFaults imageDesk)
      cancelledHash := by
  intro h
  have hstatus : ((cancelledHash.after letterPlatform noSegments noFaults
      imageDesk).store.evidence.find? cancelledHash.args.evidenceId).map
        EvidenceRow.status = some .hashing := by decide +kernel
  obtain ⟨row, hrow, hhashing⟩ := Option.map_eq_some_iff.mp hstatus
  exact h.notHashing row hrow hhashing

end ApexForensic.Evidence
