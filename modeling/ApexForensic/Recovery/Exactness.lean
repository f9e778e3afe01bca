import ApexForensic.Recovery.Writing

/-!
# A recovered file is exact

A recovery that returns has published the source bytes of the whole file, with
zeros where there is none and a report that agrees with them.  One that raises
leaves every file as it was, unless what failed was the removal of the
temporary name or the custody record; then a complete output may be left.
-/

namespace ApexForensic.Recovery

open ApexForensic.Support ApexForensic.Domain
open ApexForensic.Partitions (Reader)
open Service (bind_ok_iff bind_eq_iff)

variable {r : Except Failure Unit} {size : ℕ} {reader : Reader}
  {overwrite : Bool} {runs : List DataRun}

variable {env : Surroundings} {s t : Scene} {temp path : String}

/-! ## What a recovery starts from -/

/-- A deleted file whose extents are acceptable, with the image they are
extents of. -/
structure Recoverable (env : Surroundings) (request : Request) where
  node : Node
  size : ℕ
  extents : List Json
  reader : Reader
  declared : List DeclaredRun
  node_eq : checkNode env request.nodeId = .ok (node, size)
  extents_eq : recordedExtents node = .ok extents
  reader_eq : env.evidence node.evidenceId = some reader
  declares : List.Forall₂ Declares extents declared
  starts : ∀ run ∈ declared, run.Starts size
  apart : declared.Pairwise DeclaredRun.Apart

/-- The byte of the image that the extents map to a place of the file. -/
def Recoverable.source {request : Request}
    (file : Recoverable env request) : ℕ → Option UInt8 :=
  sourceByte file.reader (file.declared.map (DeclaredRun.cut file.size))

/-- An output, its missing ranges and its count are those of a source. -/
structure RecoversExactly (source : ℕ → Option UInt8) (size : ℕ)
    (content : List UInt8) (missing : List (ℕ × ℕ)) (recovered : ℕ) :
    Prop where
  bytes : content = (List.range size).map fun i => (source i).getD 0
  pos : ∀ range ∈ missing, 0 < range.2
  sorted : missing.Pairwise fun a b => a.1 + a.2 ≤ b.1
  complement : ∀ i, (∃ range ∈ missing, InRange range i) ↔
    i < size ∧ source i = none
  count : recovered = (List.range size).countP fun i => (source i).isSome
  total : recovered + (missing.map Prod.snd).sum = size

theorem recoversExactly_of_patchwork {source : ℕ → Option UInt8}
    {patch : Patchwork UInt8} (h : patch.cells = (List.range size).map source) :
    RecoversExactly source size (patch.filled 0) patch.holes patch.known where
  bytes := by
    rw [Patchwork.filled, h, List.map_map]
    rfl
  pos := patch.pos
  sorted := patch.sorted
  complement := by
    intro i
    rw [patch.inRange_iff, h, List.getElem?_map]
    rcases Nat.lt_or_ge i size with hi | hi
    · rw [List.getElem?_range hi]
      simp [hi]
    · rw [List.getElem?_eq_none (by simpa using hi)]
      simp [Nat.not_lt.mpr hi]
  count := by
    rw [Patchwork.known, h, List.countP_map]
    rfl
  total := by
    rw [patch.known_add_sum, h, List.length_map, List.length_range]

/-! ## Publishing -/

/-- Removing the temporary name raises at some moment. -/
def UnlinkFaults (env : Surroundings) : Prop :=
  ∃ moment, (env.fault .unlink moment).isSome

theorem unlink_eq (h : unlink env temp s = (r, t)) :
    (r = .ok () ∧ t.files = Function.update s.files temp none) ∨
      (∃ failure, r = .error failure) ∧ t.files = s.files ∧
        UnlinkFaults env := by
  rcases bind_eq_iff.mp h with ⟨failure, hperform, rfl⟩ | ⟨⟨⟩, u, hperform, h⟩
  · obtain ⟨hfiles, hr | ⟨failure', hfault, -⟩⟩ := attempt_eq hperform
    · cases hr
    · exact Or.inr ⟨⟨_, rfl⟩, hfiles, _, by rw [hfault]; rfl⟩
  · obtain ⟨rfl, hset⟩ := files_of_setFile h
    rw [files_of_perform hperform] at hset
    exact Or.inl ⟨rfl, hset⟩

/-- The output is put under its name whole; a failure comes before that, or is
one of removing the temporary name. -/
theorem publishOutput_eq (h : publishOutput env temp path overwrite s = (r, t))
    :
    (r = .ok () ∧ t.files =
      Function.update (Function.update s.files path (s.files temp))
        temp none) ∨
      (∃ failure, r = .error failure) ∧
        (t.files = s.files ∨
          t.files = Function.update s.files path (s.files temp) ∧
            UnlinkFaults env) := by
  rcases bind_eq_iff.mp h with ⟨failure, hderived, rfl⟩ | ⟨⟨⟩, u, hderived, h⟩
  · exact Or.inr ⟨⟨_, rfl⟩, Or.inl (files_of_perform hderived)⟩
  have hu := files_of_perform hderived
  split_ifs at h
  · rcases bind_eq_iff.mp h with ⟨failure, hop, rfl⟩ | ⟨⟨⟩, v, hop, h⟩
    · exact Or.inr ⟨⟨_, rfl⟩, Or.inl ((files_of_perform hop).trans hu)⟩
    have hv := (files_of_perform hop).trans hu
    rcases bind_eq_iff.mp h with ⟨failure, hput, rfl⟩ | ⟨⟨⟩, w, hput, h⟩
    · cases (Prod.mk.inj hput).1
    obtain ⟨-, hw⟩ := files_of_setFile hput
    obtain ⟨rfl, ht⟩ := files_of_setFile h
    rw [ht, hw, hv]
    exact Or.inl ⟨rfl, rfl⟩
  · rcases bind_eq_iff.mp h with ⟨failure, hop, rfl⟩ | ⟨⟨⟩, v, hop, h⟩
    · exact Or.inr ⟨⟨_, rfl⟩, Or.inl ((files_of_perform hop).trans hu)⟩
    have hv := (files_of_perform hop).trans hu
    rcases bind_eq_iff.mp h with ⟨failure, hput, rfl⟩ | ⟨⟨⟩, w, hput, h⟩
    · split_ifs at hput
      · obtain ⟨-, rfl⟩ := Prod.mk.inj hput
        exact Or.inr ⟨⟨_, rfl⟩, Or.inl hv⟩
      · cases (Prod.mk.inj hput).1
    · split_ifs at hput
      · cases (Prod.mk.inj hput).1
      · obtain ⟨-, hw⟩ := files_of_setFile hput
        rw [hv] at hw
        rcases unlink_eq h with ⟨rfl, ht⟩ | ⟨hr, ht, hfault⟩
        · exact Or.inl ⟨rfl, by rw [ht, hw]⟩
        · exact Or.inr ⟨hr, Or.inr ⟨by rw [ht, hw], hfault⟩⟩

theorem handle_raise_eq {α : Type} {m : Action α} {catches : Failure → Bool}
    {error : PyError} {r : Except Failure α}
    (h : Service.handle m catches (fun _ => raise error) s = (r, t)) :
    ∃ r', m s = (r', t) ∧ (∀ a, r = .ok a → r' = .ok a) ∧
      ∀ failure, r = .error failure → ∃ failure', r' = .error failure' := by
  unfold Service.handle at h
  split at h
  · rename_i heq
    obtain ⟨rfl, rfl⟩ := Prod.mk.inj h
    exact ⟨_, heq, fun _ h => h, fun _ h => ⟨_, h⟩⟩
  · rename_i failure u heq
    have hraised : u = t ∧ ∃ failure', r = .error failure' := by
      split_ifs at h
      · obtain ⟨rfl, rfl⟩ := Prod.mk.inj h
        exact ⟨rfl, _, rfl⟩
      · obtain ⟨rfl, rfl⟩ := Prod.mk.inj h
        exact ⟨rfl, _, rfl⟩
    obtain ⟨rfl, failure', rfl⟩ := hraised
    refine ⟨_, heq, fun a ha => ?_, fun _ _ => ⟨_, rfl⟩⟩
    cases ha

/-! ## Writing and publishing one output -/

/-- A complete output of the runs. -/
def IsOutput (reader : Reader) (runs : List DataRun) (size : ℕ)
    (content : List UInt8) (p : Progress) : Prop :=
  p.hashed = content ∧ RecoversExactly (sourceByte reader runs) size content
    p.missing p.recovered

/-- What the `try` statement leaves behind when it raises: nothing; or, when
removing the temporary name raised, that name or the complete output. -/
structure LeavesBehind (env : Surroundings) (path : String) (s t : Scene)
    (complete : List UInt8 → Prop) : Prop where
  files_eq : ¬ UnlinkFaults env → t.files = s.files
  path_cases : t.files path = s.files path ∨
    ∃ content, t.files path = some content ∧ complete content
  others : ∀ other, other ≠ path → (∀ n, other ≠ env.tempPath n path) →
    t.files other = s.files other

theorem LeavesBehind.of_files {complete : List UInt8 → Prop}
    (h : t.files = s.files) : LeavesBehind env path s t complete where
  files_eq _ := h
  path_cases := Or.inl (congrFun h path)
  others other _ _ := congrFun h other

theorem temporaryOutputPath_eq {r : Except Failure String}
    (h : temporaryOutputPath env path s = (r, t)) :
    (∃ failure, r = .error failure) ∧ t.files = s.files ∨
      ∃ n, r = .ok (env.tempPath n path) ∧
        s.files (env.tempPath n path) = none ∧
          t.files = Function.update s.files (env.tempPath n path)
            (some []) := by
  rcases bind_eq_iff.mp h with ⟨failure, hop, rfl⟩ | ⟨⟨⟩, u, hop, h⟩
  · exact Or.inl ⟨⟨_, rfl⟩, files_of_perform hop⟩
  have hu := files_of_perform hop
  dsimp only at h
  split_ifs at h with hexists
  · obtain ⟨rfl, rfl⟩ := Prod.mk.inj h
    exact Or.inl ⟨⟨_, rfl⟩, hu⟩
  · obtain ⟨rfl, rfl⟩ := Prod.mk.inj h
    refine Or.inr ⟨_, rfl, ?_, by rw [hu]⟩
    rw [← hu]
    simpa using hexists

/-- Whatever of the block under `try` raised, removing the temporary file
leaves the files as they were before that file was made, and the output as
the block left it. -/
theorem leavesBehind_of_unlink {complete : List UInt8 → Prop} {n : ℕ}
    {u v : Scene} (hfresh : s.files (env.tempPath n path) = none)
    (hbut : KeepsBut (env.tempPath n path) s u) (hblock : v.files = u.files ∨
      v.files = Function.update u.files path (u.files (env.tempPath n path)) ∧
        UnlinkFaults env ∧
          ∃ content, u.files (env.tempPath n path) = some content ∧
            complete content) (h : unlink env (env.tempPath n path) v = (r, t))
    : LeavesBehind env path s t complete := by
  have hne : path ≠ env.tempPath n path := (env.tempPath_ne n path).symm
  have hothers : KeepsBut (env.tempPath n path) v t :=
    fun other hother => by
      rcases unlink_eq h with ⟨-, ht⟩ | ⟨-, ht, -⟩
      · rw [ht, Function.update_of_ne hother]
      · rw [ht]
  constructor
  · intro hunlink
    rcases hblock with hv | ⟨-, hfault, -⟩
    · rcases unlink_eq h with ⟨-, ht⟩ | ⟨-, -, hfault⟩
      · funext other
        rw [ht]
        by_cases hother : other = env.tempPath n path
        · rw [hother, Function.update_self, hfresh]
        · rw [Function.update_of_ne hother, hv, hbut other hother]
      · exact absurd hfault hunlink
    · exact absurd hfault hunlink
  · rw [hothers path hne]
    rcases hblock with hv | ⟨hv, -, content, hcontent, hcomplete⟩
    · rw [hv, hbut path hne]
      exact Or.inl rfl
    · rw [hv, Function.update_self]
      exact Or.inr ⟨content, hcontent, hcomplete⟩
  · intro other hother htemp
    rw [hothers other (htemp n)]
    rcases hblock with hv | ⟨hv, -, -⟩
    · rw [hv, hbut other (htemp n)]
    · rw [hv, Function.update_of_ne hother, hbut other (htemp n)]

/-- The block under `try`, from when the temporary file is made. -/
theorem writeAndPublish_eq (hbefore : runs.Pairwise Before)
    (hstop : ∀ run ∈ runs, run.stop ≤ size) {r : Except Failure Progress}
    (h : (do
        let p ← writeTemporary env reader temp runs size
        if p.recovered = 0 then
          raise (validationError
            "Deleted file recovery produced no bytes."
            (some "node_id") [])
        checkCancel env
        publishOutput env temp path overwrite
        pure p : Action Progress) s = (r, t)) :
    ∃ u, KeepsBut temp s u ∧
      ((∃ p content, r = .ok p ∧ IsOutput reader runs size content p ∧
        t.files = Function.update (Function.update u.files path
          (some content)) temp none) ∨
        (∃ failure, r = .error failure) ∧
          (t.files = u.files ∨
            t.files = Function.update u.files path (u.files temp) ∧
              UnlinkFaults env ∧ ∃ content, u.files temp = some content ∧
                ∃ p, IsOutput reader runs size content p)) := by
  have hwriting : KeepsBut temp s
      ((writeTemporary env reader temp runs size).after s) :=
    respects_writeTemporary reader runs size s
  rcases bind_eq_iff.mp h with ⟨failure, hwrite, rfl⟩ | ⟨p, u, hwrite, h⟩
  · rw [Service.after, hwrite] at hwriting
    exact ⟨t, hwriting, Or.inr ⟨⟨_, rfl⟩, Or.inl rfl⟩⟩
  rw [Service.after, hwrite] at hwriting
  refine ⟨u, hwriting, ?_⟩
  obtain ⟨patch, hshows, hcells⟩ := writeTemporary_eq_ok hbefore hstop hwrite
  have houtput : IsOutput reader runs size (patch.filled 0) p := by
    refine ⟨hshows.hashed, ?_⟩
    rw [hshows.missing, hshows.recovered]
    exact recoversExactly_of_patchwork hcells
  have hpublished : ∀ {u' : Scene} {r' : Except Failure Progress},
      u'.files = u.files →
      (do
        checkCancel env
        publishOutput env temp path overwrite
        pure p : Action Progress) u' = (r', t) →
      (r' = .ok p ∧ t.files = Function.update (Function.update u.files path
        (some (patch.filled 0))) temp none) ∨
        (∃ failure, r' = .error failure) ∧ (t.files = u.files ∨
          t.files = Function.update u.files path (u.files temp) ∧
            UnlinkFaults env) := by
    intro u' r' hu' h
    rcases bind_eq_iff.mp h with ⟨failure, hcheck, rfl⟩ | ⟨⟨⟩, v, hcheck, h⟩
    · exact Or.inr ⟨⟨_, rfl⟩,
        Or.inl ((files_of_checkCancel hcheck).trans hu')⟩
    have hv := (files_of_checkCancel hcheck).trans hu'
    rcases bind_eq_iff.mp h with ⟨failure, hpublish, rfl⟩ | ⟨⟨⟩, w, hpublish, h⟩
    · rcases publishOutput_eq hpublish with ⟨hr, -⟩ | ⟨-, ht⟩
      · cases hr
      · rw [hv] at ht
        exact Or.inr ⟨⟨_, rfl⟩, ht⟩
    · obtain ⟨rfl, rfl⟩ := Prod.mk.inj h
      rcases publishOutput_eq hpublish with ⟨-, ht⟩ | ⟨⟨_, hr⟩, -⟩
      · rw [hv, hshows.file] at ht
        exact Or.inl ⟨rfl, ht⟩
      · cases hr
  have hend : (∃ failure, r = .error failure) ∧ t.files = u.files ∨
      ((r = .ok p ∧ t.files = Function.update (Function.update u.files path
        (some (patch.filled 0))) temp none) ∨
        (∃ failure, r = .error failure) ∧ (t.files = u.files ∨
          t.files = Function.update u.files path (u.files temp) ∧
            UnlinkFaults env)) := by
    dsimp only at h
    split_ifs at h
    · rcases bind_eq_iff.mp h with ⟨failure, hraise, rfl⟩ | ⟨⟨⟩, v, hraise, -⟩
      · obtain ⟨-, rfl⟩ := Prod.mk.inj hraise
        exact Or.inl ⟨⟨_, rfl⟩, rfl⟩
      · cases (Prod.mk.inj hraise).1
    · exact Or.inr (hpublished rfl h)
  rcases hend with ⟨hr, ht⟩ | ⟨hr, ht⟩ | ⟨hr, ht | ⟨ht, hfault⟩⟩
  · exact Or.inr ⟨hr, Or.inl ht⟩
  · exact Or.inl ⟨p, _, hr, houtput, ht⟩
  · exact Or.inr ⟨hr, Or.inl ht⟩
  · exact Or.inr ⟨hr, Or.inr ⟨ht, hfault, _, hshows.file, p, houtput⟩⟩

theorem recoverTo_eq (hbefore : runs.Pairwise Before)
    (hstop : ∀ run ∈ runs, run.stop ≤ size) {r : Except Failure Progress}
    (h : recoverTo env reader path runs size overwrite s = (r, t)) :
    (∃ p content, r = .ok p ∧ IsOutput reader runs size content p ∧
      t.files = Function.update s.files path (some content)) ∨
      (∃ failure, r = .error failure) ∧
        LeavesBehind env path s t fun content =>
          ∃ p, IsOutput reader runs size content p := by
  obtain ⟨r', h, hok, herror⟩ := handle_raise_eq h
  have hraised : ∀ failure, r' = .error failure →
      ∃ failure, r = .error failure := by
    rintro failure rfl
    cases r with
    | ok p => cases hok p rfl
    | error failure => exact ⟨failure, rfl⟩
  rcases bind_eq_iff.mp h with ⟨failure, htemp, rfl⟩ | ⟨temp, a, htemp, h⟩
  · rcases temporaryOutputPath_eq htemp with ⟨-, hfiles⟩ | ⟨n, hn, -⟩
    · exact Or.inr ⟨hraised _ rfl, LeavesBehind.of_files hfiles⟩
    · cases hn
  obtain ⟨n, rfl, hfresh, ha⟩ : ∃ n, temp = env.tempPath n path ∧
      s.files (env.tempPath n path) = none ∧
        a.files = Function.update s.files (env.tempPath n path)
          (some []) := by
    rcases temporaryOutputPath_eq htemp with ⟨⟨failure, hr⟩, -⟩ | ⟨n, hr, hn⟩
    · cases hr
    · exact ⟨n, Except.ok.inj hr, hn⟩
  have hne : path ≠ env.tempPath n path := (env.tempPath_ne n path).symm
  have hmade : KeepsBut (env.tempPath n path) s a := fun other hother => by
    rw [ha, Function.update_of_ne hother]
  rcases Service.undoing_eq_iff.mp h with
    ⟨p, hblock, rfl⟩ | ⟨failure, v, hblock, hundo⟩
  · obtain ⟨u, hbut, ⟨q, content, hq, houtput, ht⟩ | ⟨⟨_, hq⟩, -⟩⟩ :=
      writeAndPublish_eq hbefore hstop hblock
    · obtain rfl := Except.ok.inj hq
      refine Or.inl ⟨p, content, ?_, houtput, ?_⟩
      · cases r with
        | ok q => exact (hok q rfl).symm
        | error failure =>
            obtain ⟨_, h⟩ := herror failure rfl
            cases h
      · have hall : KeepsBut (env.tempPath n path) s u := trans_of _ hmade hbut
        funext other
        rw [ht]
        by_cases hother : other = env.tempPath n path
        · rw [hother, Function.update_self, Function.update_of_ne hne.symm,
            hfresh]
        · rw [Function.update_of_ne hother]
          by_cases hpath : other = path
          · rw [hpath, Function.update_self, Function.update_self]
          · rw [Function.update_of_ne hpath, Function.update_of_ne hpath,
              hall other hother]
    · cases hq
  · obtain ⟨u, hbut, ⟨q, content, hq, -⟩ | ⟨-, hv⟩⟩ :=
      writeAndPublish_eq hbefore hstop hblock
    · cases hq
    · have hall : KeepsBut (env.tempPath n path) s u := trans_of _ hmade hbut
      rcases hundo with ⟨hunlink, hr⟩ | ⟨failure', hunlink, hr⟩
      · exact Or.inr ⟨hraised _ hr,
          leavesBehind_of_unlink hfresh hall hv hunlink⟩
      · exact Or.inr ⟨hraised _ hr,
          leavesBehind_of_unlink hfresh hall hv hunlink⟩

/-! ## The whole call -/

/-- Writing the custody record raises at some moment. -/
def AuditFaults (env : Surroundings) : Prop :=
  ∃ moment, (env.fault .audit moment).isSome

theorem lift_eq {α : Type} {x : Except PyError α} {r : Except Failure α}
    (h : lift x s = (r, t)) : t = s ∧ ∀ a, r = .ok a → x = .ok a := by
  obtain ⟨rfl, rfl⟩ := Prod.mk.inj h
  exact ⟨rfl, fun a ha => mapError_eq_ok_iff.mp ha⟩

theorem safeOutputPath_eq {outputRoot filename : String}
    {r : Except Failure String}
    (h : safeOutputPath env outputRoot filename overwrite s = (r, t)) :
    t.files = s.files := by
  rcases bind_eq_iff.mp h with ⟨failure, hop, rfl⟩ | ⟨⟨⟩, u, hop, h⟩
  · exact files_of_perform hop
  · split_ifs at h
    · obtain ⟨-, rfl⟩ := Prod.mk.inj h
      exact files_of_perform hop
    · obtain ⟨-, rfl⟩ := Prod.mk.inj h
      exact files_of_perform hop

theorem auditExport_eq (h : auditExport env s = (r, t)) :
    t.files = s.files ∧ (r = .ok () ∨
      (∃ failure, r = .error failure) ∧ AuditFaults env) := by
  unfold auditExport at h
  split_ifs at h
  · obtain ⟨hfiles, hr | ⟨failure, hfault, hr⟩⟩ := attempt_eq h
    · exact ⟨hfiles, Or.inl hr⟩
    · exact ⟨hfiles, Or.inr ⟨⟨_, hr⟩, _, by rw [hfault]; rfl⟩⟩
  · obtain ⟨rfl, rfl⟩ := Prod.mk.inj h
    exact ⟨rfl, Or.inl rfl⟩

/-- What a call of `recover_deleted_file` comes to. -/
structure RecoveryLaw (env : Surroundings) (request : Request)
    (s t : Scene) (r : Except Failure Recovered) : Prop where
  /-- A recovery that returns has published an exact output, and changed no
  other file. -/
  returned : ∀ result, r = .ok result →
    ∃ (file : Recoverable env request) (content : List UInt8),
      t.files = Function.update s.files result.outputPath (some content) ∧
        result.outputSize = file.size ∧
          result.sha256 = env.sha256 content ∧
            RecoversExactly file.source file.size content
              result.missingRanges result.recoveredBytes
  /-- One that raises leaves every file as it was. -/
  raised : ∀ failure, r = .error failure → ¬ UnlinkFaults env →
    ¬ AuditFaults env → t.files = s.files
  /-- What is left where the removal of the temporary name or the custody
  record raised is that name or an exact output. -/
  left : ∀ failure, r = .error failure → ∀ path,
    t.files path = s.files path ∨ (∃ n output, path = env.tempPath n output) ∨
      ∃ (file : Recoverable env request) (content : List UInt8)
        (missing : List (ℕ × ℕ)) (recovered : ℕ),
          t.files path = some content ∧
            RecoversExactly file.source file.size content missing recovered

variable {request : Request} {node : Node} {size : ℕ}

theorem RecoveryLaw.of_raised {r : Except Failure Recovered}
    (hr : ∀ result, r ≠ .ok result) (hfiles : t.files = s.files) :
    RecoveryLaw env request s t r where
  returned result h := absurd h (hr result)
  raised _ _ _ _ := hfiles
  left _ _ path := Or.inl (congrFun hfiles path)

theorem RecoveryLaw.of_files {r : Except Failure Recovered} {s' : Scene}
    (h : RecoveryLaw env request s' t r) (hfiles : s'.files = s.files) :
    RecoveryLaw env request s t r where
  returned := by
    rw [← hfiles]
    exact h.returned
  raised failure hr hunlink haudit :=
    (h.raised failure hr hunlink haudit).trans hfiles
  left failure hr path := by
    rw [← hfiles]
    exact h.left failure hr path

theorem exists_recoverable {extents : List Json}
    (hnode : checkNode env request.nodeId = .ok (node, size))
    (hextents : recordedExtents node = .ok extents)
    (hreader : env.evidence node.evidenceId = some reader)
    (h : recoveryRuns extents size = .ok runs) :
    ∃ file : Recoverable env request, file.size = size ∧
      file.source = sourceByte reader runs ∧ runs.Pairwise Before ∧
        ∀ run ∈ runs, run.stop ≤ size := by
  obtain ⟨cut, hcut, rfl, hbefore⟩ := recoveryRuns_eq_ok_iff.mp h
  obtain ⟨declared, hall, hstart, rfl⟩ := mapM_recoveryRun_eq_ok_iff.mp hcut
  have hpos : ∀ run ∈ declared.map (DeclaredRun.cut size),
      0 < run.byteLength := by
    intro run hrun
    obtain ⟨d, hd, rfl⟩ := List.mem_map.mp hrun
    exact (hstart d hd).cut_pos
  have hapart := (pairwise_before_iff hpos).mp hbefore
  have hdeclared : declared.Pairwise DeclaredRun.Apart :=
    (List.Pairwise.iff_of_mem fun ha hb =>
      (hstart _ ha).apart_cut_iff (hstart _ hb)).mp
        (List.pairwise_map.mp hapart)
  have hperm := List.mergeSort_perm (declared.map (DeclaredRun.cut size))
    DataRun.le
  refine ⟨⟨node, size, extents, reader, declared, hnode, hextents, hreader,
    hall, hstart, hdeclared⟩, rfl, ?_, hbefore, ?_⟩
  · exact sourceByte_perm hperm.symm hapart
  · intro run hrun
    obtain ⟨d, hd, rfl⟩ := List.mem_map.mp (hperm.mem_iff.mp hrun)
    exact (hstart d hd).stop_le

theorem readerFor_eq_ok {evidenceId : String}
    (h : readerFor env evidenceId = .ok reader) :
    env.evidence evidenceId = some reader := by
  unfold readerFor at h
  split at h
  · rename_i heq
    rw [heq, Except.ok.inj h]
  · cases h

theorem recoverExtents_law {r : Except Failure Recovered}
    (hnode : checkNode env request.nodeId = .ok (node, size))
    (h : recoverExtents env request node size s = (r, t)) :
    RecoveryLaw env request s t r := by
  have hstops : ∀ {α : Type} {x : Except PyError α} {e : Failure},
      lift x s = (.error e, t) → r = .error e →
        RecoveryLaw env request s t r := by
    rintro α x e hlift rfl
    obtain ⟨rfl, -⟩ := lift_eq hlift
    exact RecoveryLaw.of_raised nofun rfl
  rcases bind_eq_iff.mp h with ⟨_, hlift, hr⟩ | ⟨extents, u, hlift, hrest⟩
  · exact hstops hlift hr
  obtain ⟨rfl, hextents⟩ := lift_eq hlift
  rcases bind_eq_iff.mp hrest with ⟨_, hlift', hr⟩ | ⟨reader, u, hlift', hnext⟩
  · exact hstops hlift' hr
  obtain ⟨rfl, hfound⟩ := lift_eq hlift'
  have hreader := readerFor_eq_ok (hfound reader rfl)
  rcases bind_eq_iff.mp hnext with ⟨_, hpath, rfl⟩ | ⟨path, v, hpath, htail⟩
  · exact RecoveryLaw.of_raised nofun
      (safeOutputPath_eq hpath)
  refine RecoveryLaw.of_files ?_ (safeOutputPath_eq hpath)
  rcases bind_eq_iff.mp htail with ⟨_, hlift'', rfl⟩ | ⟨runs, v, hlift'', h⟩
  · obtain ⟨rfl, -⟩ := lift_eq hlift''
    exact RecoveryLaw.of_raised nofun rfl
  obtain ⟨rfl, hruns⟩ := lift_eq hlift''
  obtain ⟨file, rfl, hsource, hbefore, hstop⟩ :=
    exists_recoverable hnode (hextents extents rfl) hreader (hruns runs rfl)
  rcases bind_eq_iff.mp h with ⟨failure, hto, rfl⟩ | ⟨p, w, hto, h⟩
  · rcases recoverTo_eq hbefore hstop hto with ⟨_, _, hr, -⟩ | ⟨-, hleft⟩
    · cases hr
    · refine ⟨nofun,
        fun _ _ hunlink _ => hleft.files_eq hunlink, fun _ _ other => ?_⟩
      by_cases hother : other = path
      · subst hother
        rcases hleft.path_cases with h | ⟨content, h, p, -, hexact⟩
        · exact Or.inl h
        · rw [← hsource] at hexact
          exact Or.inr (Or.inr ⟨file, content, _, _, h, hexact⟩)
      · by_cases htemp : ∃ n, other = env.tempPath n path
        · obtain ⟨n, hn⟩ := htemp
          exact Or.inr (Or.inl ⟨n, path, hn⟩)
        · exact Or.inl (hleft.others other hother
            fun n hn => htemp ⟨n, hn⟩)
  obtain ⟨content, ⟨hhashed, hexact⟩, hw⟩ : ∃ content,
      IsOutput reader runs file.size content p ∧
        w.files = Function.update v.files path (some content) := by
    rcases recoverTo_eq hbefore hstop hto with
      ⟨q, content, hq, houtput, hw⟩ | ⟨⟨_, hq⟩, -⟩
    · obtain rfl := Except.ok.inj hq
      exact ⟨content, houtput, hw⟩
    · cases hq
  rw [← hsource] at hexact
  rcases bind_eq_iff.mp h with ⟨failure, haudit, rfl⟩ | ⟨⟨⟩, x, haudit, h⟩
  · obtain ⟨ht, hr | ⟨-, hfault⟩⟩ := auditExport_eq haudit
    · cases hr
    · refine ⟨nofun,
        fun _ _ _ hnone => absurd hfault hnone, fun _ _ other => ?_⟩
      rw [ht, hw]
      by_cases hother : other = path
      · rw [hother, Function.update_self]
        exact Or.inr (Or.inr ⟨file, content, _, _, rfl, hexact⟩)
      · rw [Function.update_of_ne hother]
        exact Or.inl rfl
  · obtain ⟨ht, -⟩ := auditExport_eq haudit
    obtain ⟨rfl, rfl⟩ := Prod.mk.inj h
    refine ⟨fun result hr => ?_, nofun, nofun⟩
    obtain rfl := Except.ok.inj hr
    exact ⟨file, content, ht.trans hw, rfl, congrArg env.sha256 hhashed, hexact⟩

/-- Recovery from recorded extents: what is rejected, what is published and
what is left by a failure. -/
theorem recover_deleted_file_exact (env : Surroundings) (request : Request)
    (s : Scene)
    (hlocal : ∀ node size, checkNode env request.nodeId = .ok (node, size) →
      delegates request node = false) :
    (∀ extents size, (∃ runs, recoveryRuns extents size = .ok runs) ↔
      AcceptableExtents extents size) ∧
      RecoveryLaw env request s ((recoverDeletedFile env request).after s)
        ((recoverDeletedFile env request).result s) := by
  refine ⟨fun _ _ => exists_recoveryRuns_iff, ?_⟩
  have h : recoverDeletedFile env request s =
      ((recoverDeletedFile env request).result s,
        (recoverDeletedFile env request).after s) := rfl
  generalize (recoverDeletedFile env request).result s = r at h ⊢
  generalize (recoverDeletedFile env request).after s = t at h ⊢
  rcases bind_eq_iff.mp h with ⟨_, hcheck, rfl⟩ | ⟨⟨⟩, u, hcheck, h⟩
  · exact RecoveryLaw.of_raised nofun
      (files_of_checkCancel hcheck)
  refine RecoveryLaw.of_files ?_ (files_of_checkCancel hcheck)
  rcases bind_eq_iff.mp h with ⟨_, hlift, rfl⟩ | ⟨⟨node, size⟩, v, hlift, hrest⟩
  · obtain ⟨rfl, -⟩ := lift_eq hlift
    exact RecoveryLaw.of_raised nofun rfl
  obtain ⟨rfl, hnode⟩ := lift_eq hlift
  dsimp only at hrest
  rw [hlocal node size (hnode _ rfl), if_neg Bool.false_ne_true] at hrest
  exact recoverExtents_law (hnode _ rfl) hrest

/-! ## A run longer than the file and the image -/

def fourByteImage : Reader where
  readerId := "apex.raw_image_reader"
  readerVersion := "0.1.0"
  content i := UInt8.ofNat (i + 1)
  size := 4
  sectorSize := 512
  size_lt := by decide
  sectorSize_pos := Partitions.sector_pos
  sectorSize_lt := Partitions.sector_lt

def overlongExtent : Json :=
  .obj [("file_offset", .int 0), ("byte_offset", .int 0),
    ("byte_length", .int 20)]

/-- A deleted file of six bytes with a run of twenty. -/
def overlongNode : Node where
  nodeId := "node"
  evidenceId := "evidence"
  originalName := "deleted.bin"
  isDeleted := true
  fileSize := some 6
  providerId := "apex.image_filesystem_provider"
  providerVersion := "0.1.0"
  rawLocator := .obj []
  providerMetadata := [("extents", .arr [overlongExtent])]

/-- Surroundings in which only the custody record may raise. -/
def overlongSurroundings (auditFails : Bool) : Surroundings where
  node _ := some overlongNode
  evidence _ := some fourByteImage
  hasLedger := true
  fault operation _ :=
    if operation = .audit && auditFails then
      some (.raised (.builtin .operationalError "database is locked"))
    else none
  cancelled _ := false
  outputPath outputRoot filename := outputRoot ++ filename
  tempPath _ path := path ++ ".tmp"
  tempPath_ne _ path h := by
    have hlength := congrArg String.length h
    simp at hlength
  sha256 _ := ""
  recoverLogical _ _ := raise (.builtin .runtimeError "")

def overlongRequest : Request where
  nodeId := "node"
  outputRoot := "derived/"
  filename := some "recovered.bin"
  overwrite := false
  useFilesystem := true

def emptyScene : Scene where
  moment := 0
  files _ := none

/-- The run leaves the file and the image, and is recovered all the same; and
a failing custody record leaves the output behind. -/
theorem overlongExtent_recovered :
    (((recoverDeletedFile (overlongSurroundings false) overlongRequest).result
      emptyScene).toOption.map fun result =>
        (result.recoveredBytes, result.missingRanges)) = some (4, [(4, 2)]) ∧
      (((recoverDeletedFile (overlongSurroundings true) overlongRequest).result
        emptyScene).toOption.map Recovered.outputSize) = none ∧
        ((recoverDeletedFile (overlongSurroundings true) overlongRequest).after
          emptyScene).files "derived/recovered.bin" =
            some [1, 2, 3, 4, 0, 0] := by
  decide +kernel

theorem recover_deleted_file_exact_overlong :
    (∀ extents size, (∃ runs, recoveryRuns extents size = .ok runs) ↔
      AcceptableExtents extents size) ∧
      RecoveryLaw (overlongSurroundings false) overlongRequest emptyScene
        ((recoverDeletedFile (overlongSurroundings false)
          overlongRequest).after emptyScene)
        ((recoverDeletedFile (overlongSurroundings false)
          overlongRequest).result emptyScene) :=
  recover_deleted_file_exact _ _ _ fun node size h => by
    obtain ⟨rfl, -⟩ := ok_pair_inj h
    rfl

end ApexForensic.Recovery
