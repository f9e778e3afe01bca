import ApexForensic.Recovery.Contents
import ApexForensic.Recovery.Model

/-!
# What is written under the temporary name

Whatever raises, the loops over the runs change no file but the temporary one.
When they return, that file, the digest, the missing ranges and the count are
those of one patchwork, which has the source bytes of the whole file.
-/

namespace ApexForensic.Recovery

open ApexForensic.Support ApexForensic.Domain
open ApexForensic.Partitions (Reader maxEvidenceReadSize)
open Service (bind_ok_iff)

variable {p p' : Progress} {r : Except Failure Unit} {patch : Patchwork UInt8}
  {reader : Reader}

variable {env : Surroundings} {s t : Scene} {temp : String}

/-! ## What the operations do -/

theorem attempt_eq {fault : ℕ → Option Failure} (h : attempt fault s = (r, t)) :
    t.files = s.files ∧
      (r = .ok () ∨ ∃ failure, fault s.moment = some failure ∧
        r = .error failure) := by
  unfold attempt at h
  split at h
  · obtain ⟨rfl, rfl⟩ := Prod.mk.inj h
    exact ⟨rfl, Or.inr ⟨_, ‹_›, rfl⟩⟩
  · obtain ⟨rfl, rfl⟩ := Prod.mk.inj h
    exact ⟨rfl, Or.inl rfl⟩

theorem files_of_perform {operation : Operation}
    (h : perform env operation s = (r, t)) : t.files = s.files :=
  (attempt_eq h).1

theorem files_of_checkCancel (h : checkCancel env s = (r, t)) :
    t.files = s.files :=
  (attempt_eq h).1

theorem files_of_setFile {path : String} {content : Option (List UInt8)}
    (h : setFile path content s = (r, t)) :
    r = .ok () ∧ t.files = Function.update s.files path content := by
  obtain ⟨rfl, rfl⟩ := Prod.mk.inj h
  exact ⟨rfl, rfl⟩

/-! ## The other files -/

def KeepsBut (temp : String) (s t : Scene) : Prop :=
  ∀ path, path ≠ temp → t.files path = s.files path

instance : Std.Refl (KeepsBut temp) := ⟨fun _ _ _ => rfl⟩

instance : IsTrans Scene (KeepsBut temp) :=
  ⟨fun _ _ _ hst htu path hne => (htu path hne).trans (hst path hne)⟩

theorem respects_attempt (fault : ℕ → Option Failure) :
    Service.Respects (KeepsBut temp) (attempt fault) := by
  intro s path _
  exact congrFun (attempt_eq (Prod.eta (attempt fault s)).symm).1 path

theorem respects_perform (operation : Operation) :
    Service.Respects (KeepsBut temp) (perform env operation) :=
  respects_attempt _

theorem respects_checkCancel :
    Service.Respects (KeepsBut temp) (checkCancel env) :=
  respects_attempt _

theorem respects_setFile (content : Option (List UInt8)) :
    Service.Respects (KeepsBut temp) (setFile temp content) :=
  fun _ _ hne => Function.update_of_ne hne _ _

theorem respects_writeOutput (data : List UInt8) :
    Service.Respects (KeepsBut temp) (writeOutput env temp data) :=
  Service.respects_bind (respects_perform _) fun _ s =>
    respects_setFile _ s

theorem respects_writeZeros (remaining : ℕ) (hashed : List UInt8) :
    Service.Respects (KeepsBut temp)
      (writeZeros env temp remaining hashed) := by
  induction remaining, hashed using writeZeros.induct with
  | case1 hashed =>
      rw [writeZeros, if_pos rfl]
      exact Service.respects_pure _
  | case2 remaining hashed hpos ih =>
      rw [writeZeros, if_neg hpos]
      exact Service.respects_bind respects_checkCancel fun _ =>
        Service.respects_bind (respects_writeOutput _) fun _ => ih

theorem respects_fillMissing (start length : ℕ) (p : Progress) :
    Service.Respects (KeepsBut temp)
      (fillMissing env temp start length p) := by
  unfold fillMissing
  split_ifs
  · exact Service.respects_pure _
  · exact Service.respects_bind (respects_writeZeros _ _) fun _ =>
      Service.respects_pure _

theorem respects_readAt (reader : Reader) (offset length : ℕ) :
    Service.Respects (KeepsBut temp) (readAt env reader offset length) :=
  Service.respects_bind (respects_perform _) fun _ =>
    Service.respects_read _

theorem respects_copyRun (reader : Reader) (run : DataRun) (consumed : ℕ)
    (p : Progress) :
    Service.Respects (KeepsBut temp)
      (copyRun env reader temp run consumed p) := by
  induction h : run.byteLength - consumed using Nat.strong_induction_on
    generalizing consumed p with
  | h left ih =>
      rw [copyRun]
      split_ifs with hlt
      · refine Service.respects_bind respects_checkCancel fun _ =>
          Service.respects_bind (respects_readAt _ _ _) fun data =>
            Service.respects_bind (respects_writeOutput _) fun _ => ?_
        dsimp only
        split_ifs with hshort
        · exact Service.respects_bind (respects_fillMissing _ _ _) fun _ =>
            Service.respects_pure _
        · refine ih _ ?_ _ _ rfl
          have : 0 < maxEvidenceReadSize := by decide
          omega
      · exact Service.respects_pure _

theorem respects_copyRuns (reader : Reader) (runs : List DataRun)
    (p : Progress) :
    Service.Respects (KeepsBut temp) (copyRuns env reader temp runs p) := by
  induction runs generalizing p with
  | nil => exact Service.respects_pure _
  | cons run runs ih =>
      exact Service.respects_bind (respects_fillMissing _ _ _) fun _ =>
        Service.respects_bind (respects_copyRun _ _ _ _) fun _ => ih _

theorem respects_writeTemporary (reader : Reader) (runs : List DataRun)
    (fileSize : ℕ) :
    Service.Respects (KeepsBut temp)
      (writeTemporary env reader temp runs fileSize) := by
  have hruns : Service.Respects (KeepsBut temp)
      (writeRuns env reader temp runs fileSize) :=
    Service.respects_bind (respects_copyRuns _ _ _) fun _ =>
      respects_fillMissing _ _ _
  have hopened : Service.Respects (KeepsBut temp)
      (Service.closing (writeRuns env reader temp runs fileSize)
        (perform env .closeOutput)) :=
    Service.respects_closing hruns (respects_perform _)
  exact Service.respects_bind (respects_perform _) fun _ =>
    Service.respects_closing
      (Service.respects_bind (respects_perform _) fun _ =>
        Service.respects_bind (respects_setFile _) fun _ => hopened)
      (respects_perform _)

/-! ## The patchwork of the output -/

/-- The temporary file, the digest, the missing ranges and the count are those
of the patchwork. -/
structure Shows (temp : String) (patch : Patchwork UInt8) (s : Scene)
    (p : Progress) : Prop where
  file : s.files temp = some (patch.filled 0)
  hashed : p.hashed = patch.filled 0
  missing : p.missing = patch.holes
  recovered : p.recovered = patch.known

theorem Shows.of_files (h : Shows temp patch s p) (hfiles : t.files = s.files) :
    Shows temp patch t p :=
  { h with file := by rw [hfiles, h.file] }

theorem writeOutput_eq_ok {data content : List UInt8}
    (hfile : s.files temp = some content)
    (h : writeOutput env temp data s = (.ok (), t)) :
    t.files temp = some (content ++ data) := by
  obtain ⟨⟨⟩, u, hperform, hset⟩ := bind_ok_iff.mp h
  have hu := files_of_perform hperform
  rw [(files_of_setFile hset).2, Function.update_self, hu, hfile]
  rfl

theorem writeZeros_eq_ok {remaining : ℕ} {hashed hashed' : List UInt8}
    {content : List UInt8} (hfile : s.files temp = some content)
    (h : writeZeros env temp remaining hashed s = (.ok hashed', t)) :
    t.files temp = some (content ++ List.replicate remaining 0) ∧
      hashed' = hashed ++ List.replicate remaining 0 := by
  induction remaining, hashed using writeZeros.induct generalizing s content
    with
  | case1 hashed =>
      rw [writeZeros, if_pos rfl] at h
      obtain ⟨hresult, rfl⟩ := Prod.mk.inj h
      obtain rfl := Except.ok.inj hresult
      simp [hfile]
  | case2 remaining hashed hpos ih =>
      rw [writeZeros, if_neg hpos] at h
      obtain ⟨⟨⟩, u, hcheck, h⟩ := bind_ok_iff.mp h
      obtain ⟨⟨⟩, v, hwrite, h⟩ := bind_ok_iff.mp h
      have hu : u.files temp = some content := by
        rw [files_of_checkCancel hcheck, hfile]
      obtain ⟨hend, hhashed⟩ := ih (writeOutput_eq_ok hu hwrite) h
      have hsplit : List.replicate (min remaining maxEvidenceReadSize) 0 ++
        List.replicate
          (remaining - min remaining maxEvidenceReadSize) (0 : UInt8) =
            List.replicate remaining 0 := by
        rw [List.replicate_append_replicate]
        congr 1
        omega
      rw [hend, hhashed, List.append_assoc, List.append_assoc, hsplit]
      exact ⟨rfl, rfl⟩

theorem fillMissing_eq_ok {start length : ℕ} (hs : Shows temp patch s p)
    (hstart : start = patch.cells.length)
    (h : fillMissing env temp start length p s = (.ok p', t)) :
    Shows temp (patch.addHole length) t p' ∧ p'.cursor = p.cursor := by
  subst hstart
  unfold fillMissing at h
  split_ifs at h with hlength
  · obtain ⟨hresult, rfl⟩ := Prod.mk.inj h
    obtain rfl := Except.ok.inj hresult
    rw [hlength, Patchwork.addHole_zero]
    exact ⟨hs, rfl⟩
  · obtain ⟨hashed, u, hzeros, h⟩ := bind_ok_iff.mp h
    obtain ⟨hresult, rfl⟩ := Prod.mk.inj h
    obtain rfl := Except.ok.inj hresult
    obtain ⟨hfile, hhashed⟩ := writeZeros_eq_ok hs.file hzeros
    refine ⟨⟨?_, ?_, ?_, ?_⟩, rfl⟩
    · rw [hfile, Patchwork.filled_addHole]
    · rw [Patchwork.filled_addHole, ← hs.hashed]
      exact hhashed
    · rw [patch.holes_addHole (Nat.pos_of_ne_zero hlength), ← hs.missing]
    · rw [Patchwork.known_addHole, ← hs.recovered]

theorem readAt_action_eq_ok {offset length : ℕ} {data : List UInt8}
    (h : readAt env reader offset length s = (.ok data, t)) :
    t.files = s.files ∧ reader.readAt offset length = .ok data := by
  obtain ⟨⟨⟩, u, hperform, hread⟩ := bind_ok_iff.mp h
  obtain ⟨hresult, rfl⟩ := Prod.mk.inj hread
  exact ⟨files_of_perform hperform, mapError_eq_ok_iff.mp hresult⟩

theorem copyRun_eq_ok {run : DataRun} {consumed : ℕ} (hs : Shows temp patch s p)
    (hcursor : p.cursor = patch.cells.length)
    (hconsumed : consumed ≤ run.byteLength)
    (h : copyRun env reader temp run consumed p s = (.ok p', t)) :
    ∃ patch' : Patchwork UInt8, Shows temp patch' t p' ∧
      p'.cursor = patch'.cells.length ∧
        patch'.cells = patch.cells ++ imageCells reader
          (run.byteOffset + consumed) (run.byteLength - consumed) := by
  induction hleft : run.byteLength - consumed using Nat.strong_induction_on
    generalizing consumed p s patch with
  | h left ih =>
      subst hleft
      rw [copyRun] at h
      split_ifs at h with hlt
      · obtain ⟨⟨⟩, u, hcheck, h⟩ := bind_ok_iff.mp h
        obtain ⟨data, v, hread, h⟩ := bind_ok_iff.mp h
        obtain ⟨⟨⟩, w, hwrite, h⟩ := bind_ok_iff.mp h
        obtain ⟨hv, hdata⟩ := readAt_action_eq_ok hread
        obtain ⟨hle, hcells, hend⟩ := readAt_eq_ok hdata
        have hu := hs.of_files (files_of_checkCancel hcheck)
        -- what was read is known to the patchwork from here on
        have hw : Shows temp (patch.addData data) w
            { p with
              hashed := p.hashed ++ data
              recovered := p.recovered + data.length
              cursor := p.cursor + data.length } :=
          { file := by
              rw [Patchwork.filled_addData]
              exact writeOutput_eq_ok (hu.of_files hv).file hwrite
            hashed := by rw [Patchwork.filled_addData, ← hs.hashed]
            missing := hs.missing
            recovered := by rw [Patchwork.known_addData, ← hs.recovered] }
        have hlength : p.cursor + data.length =
            (patch.addData data).cells.length := by
          rw [hcursor, Patchwork.cells_addData, List.length_append,
            List.length_map]
        dsimp only at h
        split_ifs at h with hshort
        · obtain ⟨q, x, hfill, h⟩ := bind_ok_iff.mp h
          obtain ⟨hresult, rfl⟩ := Prod.mk.inj h
          obtain rfl := Except.ok.inj hresult
          obtain ⟨hx, hq⟩ := fillMissing_eq_ok hw hlength hfill
          refine ⟨_, ⟨hx.file, hx.hashed, hx.missing, hx.recovered⟩, ?_, ?_⟩
          · rw [Patchwork.cells_addHole, List.length_append,
              List.length_replicate, ← hlength]
            exact congrArg (· + _) hq
          · have hrest : run.byteLength - consumed =
                data.length + (run.byteLength - (consumed + data.length)) := by
              omega
            have hpast : reader.size ≤
                run.byteOffset + consumed + data.length := hend hshort
            rw [Patchwork.cells_addHole, Patchwork.cells_addData, hcells,
              hrest, imageCells_add, imageCells_of_le hpast,
              List.append_assoc]
        · have hmax : 0 < maxEvidenceReadSize := by decide
          have hfull : run.byteLength - consumed =
              data.length + (run.byteLength - (consumed + data.length)) := by
            omega
          obtain ⟨patch', hshows, hcursor', hcells'⟩ :=
            ih _ (by omega) hw hlength (by omega) h rfl
          refine ⟨patch', hshows, hcursor', ?_⟩
          rw [hcells', hfull, imageCells_add, Patchwork.cells_addData, hcells,
            List.append_assoc, Nat.add_assoc]
      · obtain ⟨hresult, rfl⟩ := Prod.mk.inj h
        obtain rfl := Except.ok.inj hresult
        have hnone : run.byteLength - consumed = 0 := by omega
        refine ⟨patch, hs, hcursor, ?_⟩
        rw [hnone]
        exact (List.append_nil _).symm

theorem copyRuns_eq_ok {size : ℕ} {runs : List DataRun}
    (hbefore : runs.Pairwise Before) (hs : Shows temp patch s p)
    (hcursor : p.cursor = patch.cells.length)
    (hstart : ∀ run ∈ runs, p.cursor ≤ run.fileOffset)
    (h : copyRuns env reader temp runs p s = (.ok p', t)) :
    ∃ patch' : Patchwork UInt8, Shows temp patch' t p' ∧
      p'.cursor = patch'.cells.length ∧
        (patch'.addHole (size - p'.cursor)).cells =
          patch.cells ++ layout reader size runs p.cursor := by
  induction hbefore generalizing patch p s with
  | nil =>
      obtain ⟨hresult, rfl⟩ := Prod.mk.inj h
      obtain rfl := Except.ok.inj hresult
      exact ⟨patch, hs, hcursor, Patchwork.cells_addHole _ _⟩
  | @cons run runs hfirst _ ih =>
      obtain ⟨q, u, hfill, h⟩ := bind_ok_iff.mp h
      obtain ⟨q', v, hcopy, h⟩ := bind_ok_iff.mp h
      have hgap := hstart run List.mem_cons_self
      obtain ⟨hu, -⟩ := fillMissing_eq_ok hs hcursor hfill
      rw [hcursor] at hu hgap
      have hlength : run.fileOffset =
          (patch.addHole
            (run.fileOffset - patch.cells.length)).cells.length := by
        rw [Patchwork.cells_addHole, List.length_append, List.length_replicate]
        omega
      have hq : Shows temp
          (patch.addHole (run.fileOffset - patch.cells.length)) u
            { q with cursor := run.fileOffset } :=
        ⟨hu.file, hu.hashed, hu.missing, hu.recovered⟩
      obtain ⟨patch', hv, hq', hcells⟩ :=
        copyRun_eq_ok hq hlength (Nat.zero_le _) hcopy
      have hstop : q'.cursor = run.stop := by
        rw [hq', hcells, List.length_append, ← hlength, length_imageCells]
        rfl
      obtain ⟨last, ht, hlast, hlayout⟩ := ih hv hq'
        (fun r hr => hstop ▸ hfirst r hr) h
      refine ⟨last, ht, hlast, ?_⟩
      rw [hlayout, hcells, Patchwork.cells_addHole, hstop, layout, hcursor]
      simp only [List.append_assoc, Nat.add_zero, Nat.sub_zero]

/-- A complete output: the file, the digest, the ranges and the count are those
of a patchwork with the source bytes of the whole file. -/
theorem writeTemporary_eq_ok {size : ℕ} {runs : List DataRun}
    (hbefore : runs.Pairwise Before) (hstop : ∀ run ∈ runs, run.stop ≤ size)
    (h : writeTemporary env reader temp runs size s = (.ok p, t)) :
    ∃ patch : Patchwork UInt8, Shows temp patch t p ∧
      patch.cells = (List.range size).map (sourceByte reader runs) := by
  obtain ⟨⟨⟩, u, -, h⟩ := bind_ok_iff.mp h
  obtain ⟨v, h, hclose⟩ := Service.closing_eq_ok h
  obtain ⟨⟨⟩, w, -, h⟩ := bind_ok_iff.mp h
  obtain ⟨⟨⟩, x, hset, h⟩ := bind_ok_iff.mp h
  obtain ⟨y, h, hclose'⟩ := Service.closing_eq_ok h
  obtain ⟨q, z, hcopy, hfill⟩ := bind_ok_iff.mp h
  have hx : Shows temp .empty x
      { hashed := [], cursor := 0, recovered := 0, missing := [] } :=
    { file := by
        rw [(files_of_setFile hset).2, Function.update_self]
        rfl
      hashed := rfl
      missing := rfl
      recovered := rfl }
  obtain ⟨patch, hz, hcursor, hcells⟩ : ∃ patch : Patchwork UInt8,
      Shows temp patch z q ∧ q.cursor = patch.cells.length ∧
        (patch.addHole (size - q.cursor)).cells =
          [] ++ layout reader size runs 0 :=
    copyRuns_eq_ok hbefore hx rfl (fun _ _ => Nat.zero_le _) hcopy
  obtain ⟨hy, -⟩ := fillMissing_eq_ok hz hcursor hfill
  refine ⟨_, (hy.of_files (files_of_perform hclose')).of_files
    (files_of_perform hclose), ?_⟩
  rw [hcells, layout_eq hbefore hstop (fun _ _ => Nat.zero_le _)
    (Nat.zero_le _), List.range_eq_range']
  rfl

end ApexForensic.Recovery
