import ApexForensic.Evidence.Manager
import ApexForensic.Support.Run

/-!
# What a verification says

A verification compares the bytes of the source with the latest stored hash.
Every stored hash comes from a hash job of the run, and the fingerprint from
the registration.  A match therefore speaks of the bytes that the hash job of
that record read; of the registered ones when no hash job read others.
-/

namespace ApexForensic.Evidence

open ApexForensic.Support ApexForensic.Domain

variable {digest id path : String} {row : EvidenceRow} {files : Files}

/-- The part of a row that no call changes. -/
def EvidenceRow.source (row : EvidenceRow) :
    String × String × EvidenceFormat × Option EvidenceFingerprint :=
  (row.evidenceId, row.sourcePath, row.evidenceType, row.fingerprint)

/-- Every row of the second store stands for one of the first. -/
def SameSources (s s' : Store) : Prop :=
  ∀ row' ∈ s'.evidence.rows, ∃ row ∈ s.evidence.rows, row.source = row'.source

theorem SameSources.refl (s : Store) : SameSources s s :=
  fun row h => ⟨row, h, rfl⟩

theorem SameSources.put {s t : Store} (h : SameSources s t) {r : EvidenceRow}
    (hrow : row ∈ s.evidence.rows) (hsource : row.source = r.source) :
    SameSources s { t with evidence := t.evidence.put r } := by
  intro r hr
  rcases Table.mem_put.mp hr with rfl | ⟨hr, -⟩
  · exact ⟨row, hrow, hsource⟩
  · exact h r hr

variable {P : Platform} {segments : SegmentFinder} {store : Store}

theorem getEvidence_eq_ok (h : store.getEvidence id = .ok row) :
    row ∈ store.evidence.rows ∧ row.evidenceId = id := by
  rw [Store.getEvidence] at h
  split at h
  · rename_i found hfound
    obtain rfl := Except.ok.inj h
    exact Table.find?_eq_some_iff.mp hfound
  · cases h

theorem hashOutcome_eq_ok {row' : EvidenceRow} {algorithm : HashAlgorithm}
    {inputs : HashInputs} {computation : HashComputation}
    {warnings : List String}
    (h : hashOutcome P segments files row algorithm inputs =
      .ok (computation, row', warnings)) :
    computeFile P files row.sourcePath algorithm inputs = .ok computation ∧
      row.source = row'.source := by
  obtain ⟨found, hfound, h⟩ := bind_ok h
  dsimp only at h
  split at h
  · obtain ⟨_, -, h⟩ := bind_ok h
    cases h
    exact ⟨hfound, rfl⟩
  · cases h
    exact ⟨hfound, rfl⟩

/-- What a hash job leaves: the same files and sources, and at most one more
hash, of the bytes that it read. -/
theorem calculateHash_after (args : HashArgs) (inputs : HashJobInputs)
    (store : Store) :
    let store' := (calculateHash P segments args inputs).after store
    store'.files = store.files ∧ SameSources store store' ∧
      (store'.hashes = store.hashes ∨
        ∃ row ∈ store.evidence.rows, row.evidenceId = args.evidenceId ∧
          ∃ computation,
            computeFile P store.files row.sourcePath args.algorithm
              inputs.hash = .ok computation ∧
            store'.hashes =
              store.hashes ++ [hashRecord args inputs computation]) := by
  simp only [calculateHash, Service.after, bind, Service.read, updateEvidence,
    Service.commit, saveHashRecord, raiseError, pure]
  cases hrow : store.getEvidence args.evidenceId with
  | error error => exact ⟨rfl, .refl store, Or.inl rfl⟩
  | ok row =>
      obtain ⟨hmem, hid⟩ := getEvidence_eq_ok hrow
      have hstarted := (SameSources.refl store).put hmem
        (r := { row with status := .hashing, updatedAt := inputs.now }) rfl
      dsimp only
      cases ensureHashSupported row with
      | error error => exact ⟨rfl, .refl store, Or.inl rfl⟩
      | ok _ =>
          dsimp only
          cases houtcome : hashOutcome P segments store.files row
            args.algorithm inputs.hash with
          | error error =>
              dsimp only
              cases isFailure error with
              | true => exact ⟨rfl, hstarted.put hmem rfl, Or.inl rfl⟩
              | false => exact ⟨rfl, hstarted, Or.inl rfl⟩
          | ok outcome =>
              obtain ⟨computation, row', warnings⟩ := outcome
              obtain ⟨hcomputed, hsource⟩ := hashOutcome_eq_ok houtcome
              dsimp only
              cases hinsert : insertRow hashConstraints store.hashes
                (hashRecord args inputs computation) with
              | error error =>
                  exact ⟨rfl, hstarted, Or.inl rfl⟩
              | ok hashes =>
                  refine ⟨rfl, ?_, Or.inr ⟨row, hmem, hid, computation,
                    hcomputed, (insertRow_eq_ok_iff.mp hinsert).1⟩⟩
                  exact SameSources.put (t := { store with evidence := _ })
                    hstarted hmem hsource

/-- The second store has the same files and sources as the first, and no hash
that the first has not, but for its verification status. -/
structure SameHashes (s s' : Store) : Prop where
  files : s'.files = s.files
  evidence : s'.evidence = s.evidence
  hashes : ∀ record' ∈ s'.hashes, ∃ record ∈ s.hashes,
    record.evidenceId = record'.evidenceId ∧
      record.algorithm = record'.algorithm ∧ record.digest = record'.digest

instance : Std.Refl SameHashes where
  refl _ := ⟨rfl, rfl, fun record h => ⟨record, h, rfl, rfl, rfl⟩⟩

instance : IsTrans Store SameHashes where
  trans _ _ _ h h' :=
    ⟨h'.files.trans h.files, h'.evidence.trans h.evidence,
      fun record'' hrecord'' => by
        obtain ⟨record', hrecord', hid', halgorithm', hdigest'⟩ :=
          h'.hashes record'' hrecord''
        obtain ⟨record, hrecord, hid, halgorithm, hdigest⟩ :=
          h.hashes record' hrecord'
        exact ⟨record, hrecord, hid.trans hid', halgorithm.trans halgorithm',
          hdigest.trans hdigest'⟩⟩

theorem saveHashVerification_respects (verification : HashVerification) :
    Service.Respects SameHashes (saveHashVerification verification) := by
  refine Service.respects_commit fun s _ s' h => ?_
  obtain ⟨verifications, -, h⟩ := bind_ok h
  cases h
  exact ⟨rfl, rfl, (refl_of SameHashes s).hashes⟩

theorem markHashRecordVerified_respects (hashId : String)
    (status : HashVerificationStatus) :
    Service.Respects SameHashes (markHashRecordVerified hashId status) := by
  refine Service.respects_commit fun s _ s' h => ?_
  cases h
  refine ⟨rfl, rfl, fun record' hrecord' => ?_⟩
  obtain ⟨record, hrecord, rfl⟩ := List.mem_map.mp hrecord'
  refine ⟨record, hrecord, ?_⟩
  split
  · exact ⟨rfl, rfl, rfl⟩
  · exact ⟨rfl, rfl, rfl⟩

theorem verifyEvidence_respects (args : HashArgs) (inputs : VerifyInputs) :
    Service.Respects SameHashes (verifyEvidence P args inputs) := by
  refine Service.respects_bind (Service.respects_read _) fun row => ?_
  refine Service.respects_bind (Service.respects_read _) fun _ => ?_
  refine Service.respects_bind (Service.respects_read _) fun expected => ?_
  refine Service.respects_bind (Service.respects_read _) fun outcome => ?_
  cases outcome with
  | ok outcome =>
      refine Service.respects_bind (saveHashVerification_respects _) fun _ => ?_
      refine Service.respects_bind (markHashRecordVerified_respects _ _)
        fun _ => ?_
      exact Service.respects_pure _
  | error error =>
      cases hfailure : isFailure error with
      | true =>
          dsimp only
          rw [hfailure]
          exact Service.respects_bind (saveHashVerification_respects _)
            fun _ => Service.respects_read _
      | false =>
          dsimp only
          rw [hfailure]
          exact Service.respects_read _

/-- What registering leaves: the same files, hashes and verifications, and at
most one more row. -/
theorem registerEvidence_after (args : RegisterArgs) (inputs : RegisterInputs)
    (store : Store) :
    let store' := (registerEvidence P segments args inputs).after store
    store'.files = store.files ∧ store'.hashes = store.hashes ∧
      store'.verifications = store.verifications ∧
      (store'.evidence = store.evidence ∨
        ∃ row, evidenceRow P segments store args inputs = .ok row ∧
          store'.evidence.rows = store.evidence.rows ++ [row]) := by
  rw [registerEvidence, Service.after_bind_of_after_eq fun _ _ =>
    Service.after_bind_of_after_eq (fun _ _ => rfl) _]
  rcases Service.after_commit_cases _ store with hsame | ⟨row', h⟩
  · rw [hsame]
    exact ⟨rfl, rfl, rfl, Or.inl rfl⟩
  · obtain ⟨row, hrow, hinsert⟩ := bind_ok h
    split at hinsert
    · rename_i evidence hevidence
      have heq := (ok_pair_inj hinsert).2
      rw [← heq]
      exact ⟨rfl, rfl, rfl, Or.inr ⟨row, hrow,
        (Table.insert_eq_some_iff.mp hevidence).2⟩⟩
    · cases hinsert

theorem rawSourceFingerprint_eq_ok {size : ℕ}
    (h : rawSourceFingerprint P files path = .ok (digest, size)) :
    ∃ content, files.content path = some content ∧
      digest = P.hexdigest .sha256 content := by
  rw [rawSourceFingerprint] at h
  split at h
  · cases h
  · rename_i content hcontent
    refine ⟨content, hcontent, ?_⟩
    rw [← (ok_pair_inj h).1, foldl_append_eq_flatten,
      flatten_reads (by decide) content.length content le_rfl, List.nil_append]

/-- The fingerprint of a source that is no directory is the digest of its
bytes. -/
theorem registrationFingerprint_eq_ok {completedAt : String}
    {format : EvidenceFormat} {fingerprint : Option EvidenceFingerprint}
    (h : registrationFingerprint P files path format completedAt =
      .ok fingerprint) (hformat : format ≠ .directory) :
    ∃ recorded content, fingerprint = some recorded ∧
      files.content path = some content ∧
      recorded.value = P.hexdigest .sha256 content := by
  have hraw : ∀ {digest : String} {size : ℕ},
      rawSourceFingerprint P files path = .ok (digest, size) →
      fingerprint = some ⟨.sha256, digest, size, completedAt⟩ →
      ∃ recorded content, fingerprint = some recorded ∧
        files.content path = some content ∧
        recorded.value = P.hexdigest .sha256 content := by
    intro digest size hdigest heq
    obtain ⟨content, hcontent, hvalue⟩ := rawSourceFingerprint_eq_ok hdigest
    exact ⟨_, content, heq, hcontent, hvalue⟩
  have hstream : ∀ {computation : HashComputation} {inputs : HashInputs},
      computeFile P files path .sha256 inputs = .ok computation →
      fingerprint = some
        ⟨.sha256, computation.digest, computation.fileSize, completedAt⟩ →
      ∃ recorded content, fingerprint = some recorded ∧
        files.content path = some content ∧
        recorded.value = P.hexdigest .sha256 content := by
    intro computation inputs hcomputed heq
    obtain ⟨content, hcontent, hvalue⟩ := computeFile_eq_ok hcomputed
    exact ⟨_, content, heq, hcontent, hvalue⟩
  cases format with
  | directory => exact absurd rfl hformat
  | raw | dd | img =>
      obtain ⟨⟨digest, size⟩, hdigest, h⟩ := bind_ok h
      exact hraw hdigest (Except.ok.inj h).symm
  | e01 | vhd | vhdx =>
      obtain ⟨computation, hcomputed, h⟩ := bind_ok h
      exact hstream hcomputed (Except.ok.inj h).symm

theorem evidenceRow_eq_ok {args : RegisterArgs} {inputs : RegisterInputs}
    (h : evidenceRow P segments store args inputs = .ok row)
    (htype : row.evidenceType ≠ .directory) :
    row.evidenceId = inputs.newId ∧
      ∃ recorded content, row.fingerprint = some recorded ∧
        store.files.content row.sourcePath = some content ∧
        recorded.value = P.hexdigest .sha256 content := by
  unfold evidenceRow at h
  obtain ⟨-, h⟩ := check_ok h
  obtain ⟨path, -, h⟩ := bind_ok h
  obtain ⟨format, -, h⟩ := bind_ok h
  obtain ⟨identity, -, h⟩ := bind_ok h
  obtain ⟨fingerprint, hfingerprint, h⟩ := bind_ok h
  obtain ⟨_, -, h⟩ := bind_ok h
  obtain rfl := Except.ok.inj h
  exact ⟨rfl, registrationFingerprint_eq_ok hfingerprint htype⟩

/-! ## Runs -/

section

variable (P : Platform) (segments : SegmentFinder) (start : Store)

/-- The store after a list of calls and changes of files. -/
def reached (ops : List Op) : Store :=
  run (step P segments) start ops

/-- A SHA-256 job of the run read bytes of the evidence with that digest. -/
def HashedInRun (ops : List Op) (evidenceId digest : String) : Prop :=
  ∃ before args inputs after row bytes,
    ops = before ++ Op.calculateHash args inputs :: after ∧
      args.evidenceId = evidenceId ∧ args.algorithm = .sha256 ∧
      row ∈ (reached P segments start before).evidence.rows ∧
      row.evidenceId = evidenceId ∧
      (reached P segments start before).files.content row.sourcePath =
        some bytes ∧
      digest = P.hexdigest .sha256 bytes

/-- The evidence was registered in the run when the bytes of its source had
that digest. -/
def RegisteredInRun (ops : List Op) (evidenceId path digest : String) : Prop :=
  ∃ before args inputs after bytes,
    ops = before ++ Op.register args inputs :: after ∧
      inputs.newId = evidenceId ∧
      (reached P segments start before).files.content path = some bytes ∧
      digest = P.hexdigest .sha256 bytes

end

variable {start : Store} {ops : List Op}

theorem HashedInRun.concat {evidenceId : String}
    (h : HashedInRun P segments start ops evidenceId digest) (op : Op) :
    HashedInRun P segments start (ops ++ [op]) evidenceId digest := by
  obtain ⟨before, args, inputs, after, row, bytes, rfl, hrest⟩ := h
  exact ⟨before, args, inputs, after ++ [op], row, bytes, by simp, hrest⟩

theorem RegisteredInRun.concat
    (h : RegisteredInRun P segments start ops id path digest) (op : Op) :
    RegisteredInRun P segments start (ops ++ [op]) id path digest := by
  obtain ⟨before, args, inputs, after, bytes, rfl, hrest⟩ := h
  exact ⟨before, args, inputs, after ++ [op], bytes, by simp, hrest⟩

/-- What the run tells of the stored hashes and fingerprints. -/
structure RunInvariant (P : Platform) (segments : SegmentFinder)
    (start : Store) (ops : List Op) : Prop where
  hashes : ∀ record ∈ (reached P segments start ops).hashes,
    record.algorithm = .sha256 →
      HashedInRun P segments start ops record.evidenceId record.digest
  fingerprints : ∀ row ∈ (reached P segments start ops).evidence.rows,
    row.evidenceType ≠ .directory → ∃ fingerprint,
      row.fingerprint = some fingerprint ∧
        RegisteredInRun P segments start ops row.evidenceId row.sourcePath
          fingerprint.value

theorem RunInvariant.fingerprints_of_sameSources
    (h : RunInvariant P segments start ops) {store' : Store}
    (hsame : SameSources (reached P segments start ops) store') (op : Op) :
    ∀ row ∈ store'.evidence.rows, row.evidenceType ≠ .directory →
      ∃ fingerprint, row.fingerprint = some fingerprint ∧
        RegisteredInRun P segments start (ops ++ [op]) row.evidenceId
          row.sourcePath fingerprint.value := by
  intro row' hrow' htype
  obtain ⟨row, hrow, hsource⟩ := hsame row' hrow'
  obtain ⟨hid, hpath, hformat, hfingerprint⟩ :
      row.evidenceId = row'.evidenceId ∧ row.sourcePath = row'.sourcePath ∧
        row.evidenceType = row'.evidenceType ∧
        row.fingerprint = row'.fingerprint := by
    simpa [EvidenceRow.source] using hsource
  obtain ⟨fingerprint, heq, hregistered⟩ :=
    h.fingerprints row hrow (hformat ▸ htype)
  rw [hid, hpath] at hregistered
  exact ⟨fingerprint, hfingerprint ▸ heq, hregistered.concat op⟩

theorem RunInvariant.concat (h : RunInvariant P segments start ops) (op : Op) :
    RunInvariant P segments start (ops ++ [op]) := by
  have hreached : reached P segments start (ops ++ [op]) =
      step P segments (reached P segments start ops) op := run_concat _ _ _ _
  cases op with
  | register args inputs =>
      obtain ⟨-, hhashes, -, hevidence⟩ := registerEvidence_after (P := P) args inputs
        (reached P segments start ops)
      constructor
      · intro record hrecord hsha
        rw [hreached, step, hhashes] at hrecord
        exact (h.hashes record hrecord hsha).concat _
      · intro row hrow htype
        rw [hreached, step] at hrow
        rcases hevidence with hevidence | ⟨added, hadded, hevidence⟩
        · rw [hevidence] at hrow
          exact h.fingerprints_of_sameSources (.refl _) _ row hrow htype
        · rw [hevidence] at hrow
          rcases List.mem_append.mp hrow with hrow | hrow
          · exact h.fingerprints_of_sameSources (.refl _) _ row hrow htype
          · obtain rfl := List.mem_singleton.mp hrow
            obtain ⟨hid, fingerprint, bytes, heq, hbytes, hvalue⟩ :=
              evidenceRow_eq_ok hadded htype
            exact ⟨fingerprint, heq, ops, args, inputs, [], bytes, rfl,
              hid.symm, hbytes, hvalue⟩
  | calculateHash args inputs =>
      obtain ⟨-, hsources, hhashes⟩ := calculateHash_after (P := P) args inputs
        (reached P segments start ops)
      constructor
      · intro record hrecord hsha
        rw [hreached, step] at hrecord
        rcases hhashes with hhashes | ⟨row, hrow, hid, computation, hcomputed,
          hhashes⟩
        · rw [hhashes] at hrecord
          exact (h.hashes record hrecord hsha).concat _
        · rw [hhashes] at hrecord
          rcases List.mem_append.mp hrecord with hrecord | hrecord
          · exact (h.hashes record hrecord hsha).concat _
          · obtain rfl := List.mem_singleton.mp hrecord
            have hsha : args.algorithm = .sha256 := hsha
            obtain ⟨bytes, hbytes, hdigest⟩ := computeFile_eq_ok hcomputed
            rw [hsha] at hdigest
            exact ⟨ops, args, inputs, [], row, bytes, rfl, rfl, hsha, hrow, hid,
              hbytes, hdigest⟩
      · rw [hreached, step]
        exact h.fingerprints_of_sameSources hsources _
  | verify args inputs =>
      have hsame := verifyEvidence_respects (P := P) args inputs
        (reached P segments start ops)
      constructor
      · intro record' hrecord' hsha
        rw [hreached, step] at hrecord'
        obtain ⟨record, hrecord, hid, halgorithm, hdigest⟩ :=
          hsame.hashes record' hrecord'
        rw [← hid, ← hdigest]
        exact (h.hashes record hrecord (halgorithm.trans hsha)).concat _
      · rw [hreached, step, hsame.evidence]
        exact h.fingerprints_of_sameSources (.refl _) _
  | modify files =>
      constructor
      · intro record hrecord hsha
        rw [hreached, step] at hrecord
        exact (h.hashes record hrecord hsha).concat _
      · rw [hreached, step]
        exact h.fingerprints_of_sameSources (.refl _) _

theorem runInvariant (P : Platform) (segments : SegmentFinder)
    (cases : List String) (files : Files) (ops : List Op) :
    RunInvariant P segments (Store.empty cases files) ops := by
  induction ops using List.reverseRecOn with
  | nil => exact ⟨fun _ h => absurd h List.not_mem_nil,
      fun _ h => absurd h List.not_mem_nil⟩
  | append_singleton ops op ih => exact ih.concat op

/-! ## The comparison -/

theorem verifyEvidence_eq_ok {args : HashArgs} {inputs : VerifyInputs}
    {verification : HashVerification} {report : JobReport}
    (h : (verifyEvidence P args inputs).result store =
      .ok (verification, report)) :
    ∃ row latest read,
      row ∈ store.evidence.rows ∧ row.evidenceId = args.evidenceId ∧
      row.evidenceType ≠ .directory ∧
      store.latestHashRecord args.evidenceId args.algorithm = some latest ∧
      store.files.content row.sourcePath = some read ∧
      verification.observedDigest = some (P.hexdigest args.algorithm read) ∧
      verification.status =
        if P.hexdigest args.algorithm read = latest.digest then .isMatch
        else .mismatch := by
  obtain ⟨row, hrow, h⟩ := Service.result_bind_eq_ok_iff.mp h
  obtain ⟨_, hsupported, h⟩ := Service.result_bind_eq_ok_iff.mp h
  obtain ⟨latest, hlatest, h⟩ := Service.result_bind_eq_ok_iff.mp h
  obtain ⟨outcome, houtcome, h⟩ := Service.result_bind_eq_ok_iff.mp h
  simp only [Service.after_read, Service.result_read] at hrow hsupported hlatest houtcome h
  obtain ⟨hmem, hid⟩ := getEvidence_eq_ok hrow
  have htype : row.evidenceType ≠ .directory := by
    intro hdirectory
    rw [ensureHashSupported, if_pos hdirectory] at hsupported
    cases hsupported
  have hlatest' : store.latestHashRecord args.evidenceId args.algorithm =
      some latest := by
    split at hlatest
    · rename_i record hrecord
      rw [hrecord, Except.ok.inj hlatest]
    · cases hlatest
  obtain rfl := Except.ok.inj houtcome
  cases hverified : verifyOutcome P store.files row latest args.algorithm
    inputs with
  | error error =>
      rw [hverified] at h
      dsimp only at h
      cases hfailure : isFailure error with
      | true =>
          rw [hfailure] at h
          obtain ⟨_, -, h⟩ := Service.result_bind_eq_ok_iff.mp h
          cases h
      | false =>
          rw [hfailure] at h
          cases h
  | ok outcome =>
      obtain ⟨computation, status, custodyEventId⟩ := outcome
      rw [hverified] at h
      obtain ⟨_, -, h⟩ := Service.result_bind_eq_ok_iff.mp h
      obtain ⟨_, -, h⟩ := Service.result_bind_eq_ok_iff.mp h
      obtain ⟨hcomputation, hcomputed, hrest⟩ := bind_ok hverified
      obtain ⟨_, -, hrest⟩ := bind_ok hrest
      cases hrest
      cases h
      obtain ⟨read, hread, hdigest⟩ := computeFile_eq_ok hcomputed
      refine ⟨row, latest, read, hmem, hid, htype, hlatest', hread, ?_, ?_⟩
      · rw [hdigest]
      · rw [hdigest]

theorem latestHashRecord_eq_some {algorithm : HashAlgorithm}
    {record : HashRecord}
    (h : store.latestHashRecord id algorithm = some record) :
    record ∈ store.hashes ∧ record.evidenceId = id ∧
      record.algorithm = algorithm := by
  have hmem := (List.mem_insertionSort _).mp (List.mem_of_getLast? h)
  simpa using hmem

/-- In every history of registrations, hash jobs, verifications and changes of
files: a SHA-256 verification that returns reports a match exactly when the
bytes it read have the digest of the latest hash record, which is that of
bytes a hash job of the history read; and when no SHA-256 job of the evidence
read bytes of another digest than the registered fingerprint, a match means
that fingerprint. -/
theorem verify_compares_with_latest (P : Platform) (segments : SegmentFinder)
    (cases : List String) (files : Files) (ops : List Op) (args : HashArgs)
    (inputs : VerifyInputs) (verification : HashVerification)
    (report : JobReport) (hsha : args.algorithm = .sha256)
    (h : (verifyEvidence P args inputs).result
      (reached P segments (Store.empty cases files) ops) =
        .ok (verification, report)) :
    ∃ row fingerprint latest read,
      row ∈ (reached P segments (Store.empty cases files) ops).evidence.rows ∧
      row.evidenceId = args.evidenceId ∧
      row.fingerprint = some fingerprint ∧
      RegisteredInRun P segments (Store.empty cases files) ops row.evidenceId
        row.sourcePath fingerprint.value ∧
      (reached P segments (Store.empty cases files) ops).latestHashRecord
        args.evidenceId .sha256 = some latest ∧
      HashedInRun P segments (Store.empty cases files) ops args.evidenceId
        latest.digest ∧
      (reached P segments (Store.empty cases files) ops).files.content
        row.sourcePath = some read ∧
      verification.observedDigest = some (P.hexdigest .sha256 read) ∧
      (verification.status = .isMatch ↔
        P.hexdigest .sha256 read = latest.digest) ∧
      ((∀ digest, HashedInRun P segments (Store.empty cases files) ops
          args.evidenceId digest → digest = fingerprint.value) →
        verification.status = .isMatch →
          P.hexdigest .sha256 read = fingerprint.value) := by
  obtain ⟨row, latest, read, hrow, hid, htype, hlatest, hread, hobserved,
    hstatus⟩ := verifyEvidence_eq_ok h
  rw [hsha] at hlatest hobserved hstatus
  have hrun := runInvariant P segments cases files ops
  obtain ⟨hmem, hlatestId, halgorithm⟩ := latestHashRecord_eq_some hlatest
  obtain ⟨fingerprint, hfingerprint, hregistered⟩ :=
    hrun.fingerprints row hrow htype
  have hhashed := hrun.hashes latest hmem halgorithm
  rw [hlatestId] at hhashed
  have hiff : verification.status = .isMatch ↔
      P.hexdigest .sha256 read = latest.digest := by
    rw [hstatus]
    split
    · exact iff_of_true rfl ‹_›
    · exact iff_of_false (fun h => nomatch h) ‹_›
  exact ⟨row, fingerprint, latest, read, hrow, hid, hfingerprint, hregistered,
    hlatest, hhashed, hread, hobserved, hiff,
    fun hall hmatch => (hiff.mp hmatch).trans (hall _ hhashed)⟩

/-! ## A source hashed again after it changed -/

/-- A platform whose digest is a letter for each byte. -/
def letterPlatform : Platform where
  hexdigest _ bytes := String.ofList (bytes.map fun b => Char.ofNat b.toNat)

def imageFiles (content : List UInt8) : Files := fun path =>
  if path = "/image.raw" then some (.file content ⟨0, 0, 0, 0⟩) else none

def noSegments : SegmentFinder := fun _ _ => .ok []

def hashInputs : HashInputs where
  chunkSize := 4096
  startedAt := "t1"
  completedAt := "t2"

def imageHashArgs : HashArgs := ⟨"evidence", .sha256⟩

def imageStart : Store := Store.empty ["case"] (imageFiles [97])

def hashedOps : List Op :=
  [.register ⟨"case", "/image.raw", none⟩
     { now := "t0", newId := "evidence", completedAt := "t0" },
   .calculateHash imageHashArgs ⟨hashInputs, "t1", "job-1", "hash-1"⟩]

def rehashedOps : List Op :=
  [.register ⟨"case", "/image.raw", none⟩
     { now := "t0", newId := "evidence", completedAt := "t0" },
   .modify (imageFiles [98]),
   .calculateHash imageHashArgs ⟨hashInputs, "t1", "job-1", "hash-1"⟩]

/-- The verification of the image, with fixed ids and times. -/
def verifyImage : Service Store PyError (HashVerification × JobReport) :=
  verifyEvidence letterPlatform imageHashArgs
    { hash := hashInputs, now := "t3", jobId := "job-2",
      newId := "verification" }

theorem verify_compares_with_latest_image :
    ∃ verification report latest read,
      verifyImage.result (reached letterPlatform noSegments imageStart
        hashedOps) = .ok (verification, report) ∧
      (reached letterPlatform noSegments imageStart hashedOps).latestHashRecord
        "evidence" .sha256 = some latest ∧
      (verification.status = .isMatch ↔
        letterPlatform.hexdigest .sha256 read = latest.digest) := by
  have hrun : (verifyImage.result (reached letterPlatform noSegments imageStart
      hashedOps)).toOption.isSome = true := by decide +kernel
  obtain ⟨⟨verification, report⟩, hok⟩ := exists_ok_of_isSome hrun
  obtain ⟨row, fingerprint, latest, read, -, -, -, -, hlatest, -, -, -, hiff,
    -⟩ := verify_compares_with_latest letterPlatform noSegments ["case"]
      (imageFiles [97]) hashedOps imageHashArgs _ verification report rfl hok
  exact ⟨verification, report, latest, read, hok, hlatest, hiff⟩

/-- The image changes after its registration and is hashed again: the
verification reports a match, of another digest than the registered one. -/
theorem match_after_rehash :
    ∃ verification report row fingerprint,
      verifyImage.result (reached letterPlatform noSegments imageStart
        rehashedOps) = .ok (verification, report) ∧
      verification.status = .isMatch ∧
      row ∈ (reached letterPlatform noSegments imageStart
        rehashedOps).evidence.rows ∧
      row.evidenceId = "evidence" ∧
      row.fingerprint = some fingerprint ∧
      verification.observedDigest = some "b" ∧ fingerprint.value = "a" := by
  have hrun : (verifyImage.result (reached letterPlatform noSegments imageStart
      rehashedOps)).toOption.map (fun r => (r.1.status, r.1.observedDigest)) =
        some (.isMatch, some "b") := by decide +kernel
  have hrows : ∃ row ∈ (reached letterPlatform noSegments imageStart
      rehashedOps).evidence.rows, row.evidenceId = "evidence" ∧
        row.fingerprint.map EvidenceFingerprint.value = some "a" := by
    decide +kernel
  obtain ⟨⟨verification, report⟩, hok, heq⟩ := Option.map_eq_some_iff.mp hrun
  obtain ⟨hstatus, hobserved⟩ := Prod.mk.inj heq
  obtain ⟨row, hrow, hid, hvalue⟩ := hrows
  obtain ⟨fingerprint, hfingerprint, hvalue⟩ := Option.map_eq_some_iff.mp hvalue
  exact ⟨verification, report, row, fingerprint, eq_ok_of_toOption hok, hstatus,
    hrow, hid, hfingerprint, hobserved, hvalue⟩

end ApexForensic.Evidence
