import ApexForensic.Domain.PyJson
import ApexForensic.Partitions.Reader

/-!
# The data runs of a deleted file

The extents recorded for a file are checked, cut at its logical size, sorted
and checked for overlap.  What is accepted is said of the extents as they are
declared: runs that start in the file and do not overlap.
-/

namespace ApexForensic.Recovery

open ApexForensic.Support ApexForensic.Domain
open ApexForensic.Partitions (Reader)

variable {extents : List Json} {logicalSize : ℕ}

/-- Where the bytes of a run belong in the file, where they are in the image,
and how many there are. -/
structure DataRun where
  fileOffset : ℕ
  byteOffset : ℕ
  byteLength : ℕ
  deriving DecidableEq

/-- The end of a run in the file. -/
def DataRun.stop (run : DataRun) : ℕ :=
  run.fileOffset + run.byteLength

/-- The order of tuples. -/
def DataRun.le (a b : DataRun) : Bool :=
  a.fileOffset < b.fileOffset ||
    (a.fileOffset == b.fileOffset &&
      (a.byteOffset < b.byteOffset ||
        (a.byteOffset == b.byteOffset && a.byteLength ≤ b.byteLength)))

/-- One turn of the loop of `_recovery_runs`. -/
def recoveryRun (logicalSize : ℕ) (extent : Json) :
    Except PyError DataRun := do
  let fileOffset ← getItem extent "file_offset"
  let byteOffset ← getItem extent "byte_offset"
  let byteLength ← getItem extent "byte_length"
  match fileOffset, byteOffset, byteLength with
  | .int fileOffset, .int byteOffset, .int length =>
      if fileOffset < 0 ∨ (logicalSize : ℤ) ≤ fileOffset ∨ byteOffset < 0 ∨
          length ≤ 0 then
        .error (.builtin .valueError
          "Data run is outside the logical file or image range.")
      else
        .ok
          { fileOffset := fileOffset.toNat
            byteOffset := byteOffset.toNat
            byteLength :=
              min length.toNat (logicalSize - fileOffset.toNat) }
  | _, _, _ =>
      .error (.builtin .valueError
        "Data-run offsets and lengths must be integers.")

/-- The loop over the sorted runs; `stop` is the end of the last one. -/
def checkOverlap : (stop : ℕ) → List DataRun → Except PyError Unit
  | _, [] => .ok ()
  | stop, run :: runs =>
      if run.fileOffset < stop then
        .error (validationError "Recovery data runs overlap."
          (some "node_id") [])
      else checkOverlap run.stop runs

/-- `_recovery_runs`. -/
def recoveryRuns (extents : List Json) (logicalSize : ℕ) :
    Except PyError (List DataRun) := do
  let runs ← (extents.mapM (recoveryRun logicalSize)).mapError fun _ =>
    validationError "Invalid recovery data run." (some "node_id") []
  let runs := runs.mergeSort DataRun.le
  checkOverlap 0 runs
  pure runs

/-! ## Sorted runs -/

/-- A run ends where the next one starts, or before. -/
def Before (a b : DataRun) : Prop :=
  a.stop ≤ b.fileOffset

/-- Two runs share no byte of the file. -/
def Apart (a b : DataRun) : Prop :=
  Before a b ∨ Before b a

variable {runs : List DataRun}

theorem checkOverlap_eq_ok_iff {stop : ℕ} :
    checkOverlap stop runs = .ok () ↔
      (∀ run ∈ runs, stop ≤ run.fileOffset) ∧ runs.Pairwise Before := by
  induction runs generalizing stop with
  | nil => simp [checkOverlap]
  | cons run runs ih =>
      rw [checkOverlap, List.forall_mem_cons, List.pairwise_cons]
      split_ifs with hlt
      · simp only [reduceCtorEq, false_iff]
        exact fun h => absurd h.1.1 (Nat.not_le.mpr hlt)
      · have hstop : stop ≤ run.fileOffset := Nat.le_of_not_lt hlt
        have hrun : run.fileOffset ≤ run.stop := Nat.le_add_right _ _
        rw [ih]
        constructor
        · rintro ⟨hall, hrest⟩
          exact ⟨⟨hstop, fun r hr => (hstop.trans hrun).trans (hall r hr)⟩,
            hall, hrest⟩
        · rintro ⟨-, hall, hrest⟩
          exact ⟨hall, hrest⟩

theorem DataRun.le_trans {a b c : DataRun} (hab : a.le b = true)
    (hbc : b.le c = true) : a.le c = true := by
  simp only [DataRun.le, Bool.or_eq_true, Bool.and_eq_true, decide_eq_true_eq,
    beq_iff_eq] at *
  omega

theorem DataRun.le_total (a b : DataRun) : (a.le b || b.le a) = true := by
  simp only [DataRun.le, Bool.or_eq_true, Bool.and_eq_true, decide_eq_true_eq,
    beq_iff_eq]
  omega

theorem DataRun.fileOffset_le {a b : DataRun} (h : a.le b = true) :
    a.fileOffset ≤ b.fileOffset := by
  simp only [DataRun.le, Bool.or_eq_true, Bool.and_eq_true, decide_eq_true_eq,
    beq_iff_eq] at h
  omega

theorem sorted_mergeSort (runs : List DataRun) :
    (runs.mergeSort DataRun.le).Pairwise fun a b => a.le b = true :=
  @List.pairwise_mergeSort DataRun DataRun.le
    (fun _ _ _ => DataRun.le_trans) DataRun.le_total runs

theorem pairwise_before_iff (hpos : ∀ run ∈ runs, 0 < run.byteLength) :
    (runs.mergeSort DataRun.le).Pairwise Before ↔ runs.Pairwise Apart := by
  have hperm := List.mergeSort_perm runs DataRun.le
  have hsymm : ∀ {a b : DataRun}, Apart a b → Apart b a := fun h => h.symm
  rw [← hperm.pairwise_iff hsymm]
  constructor
  · exact fun h => h.imp Or.inl
  · intro h
    refine ((sorted_mergeSort runs).and h).imp_of_mem ?_
    rintro a b - hb ⟨hle, hapart⟩
    have hoffset := DataRun.fileOffset_le hle
    have hlength := hpos b (hperm.mem_iff.mp hb)
    rcases hapart with hapart | hapart
    · exact hapart
    · unfold Before DataRun.stop at hapart
      omega

/-! ## The extents that are accepted -/

/-- The three numbers of an extent. -/
structure DeclaredRun where
  fileOffset : ℤ
  byteOffset : ℤ
  byteLength : ℤ
  deriving DecidableEq

/-- The extent is a mapping with these three integers. -/
def Declares (extent : Json) (run : DeclaredRun) : Prop :=
  extent.field? "file_offset" = some (.int run.fileOffset) ∧
    extent.field? "byte_offset" = some (.int run.byteOffset) ∧
      extent.field? "byte_length" = some (.int run.byteLength)

/-- The run starts in the file, at a place an image can have, and has bytes. -/
def DeclaredRun.Starts (logicalSize : ℕ) (run : DeclaredRun) : Prop :=
  0 ≤ run.fileOffset ∧ run.fileOffset < logicalSize ∧ 0 ≤ run.byteOffset ∧
    0 < run.byteLength

/-- Two declared runs share no byte of the file. -/
def DeclaredRun.Apart (a b : DeclaredRun) : Prop :=
  a.fileOffset + a.byteLength ≤ b.fileOffset ∨
    b.fileOffset + b.byteLength ≤ a.fileOffset

/-- The extents declare runs that start in the file and share no byte. -/
def AcceptableExtents (extents : List Json) (logicalSize : ℕ) : Prop :=
  ∃ declared : List DeclaredRun,
    List.Forall₂ Declares extents declared ∧
      (∀ run ∈ declared, run.Starts logicalSize) ∧
        declared.Pairwise DeclaredRun.Apart

def DeclaredRun.cut (logicalSize : ℕ) (run : DeclaredRun) : DataRun where
  fileOffset := run.fileOffset.toNat
  byteOffset := run.byteOffset.toNat
  byteLength :=
    min run.byteLength.toNat (logicalSize - run.fileOffset.toNat)

theorem recoveryRun_eq_ok_iff {extent : Json} {run : DataRun} :
    recoveryRun logicalSize extent = .ok run ↔
      ∃ declared : DeclaredRun, Declares extent declared ∧
        declared.Starts logicalSize ∧ run = declared.cut logicalSize := by
  simp only [recoveryRun, bind_eq_ok_iff, getItem_eq_ok_iff]
  constructor
  · rintro ⟨fileOffset, hfile, byteOffset, hbyte, byteLength, hlength, h⟩
    split at h
    · rename_i f b n
      split_ifs at h with hout
      refine ⟨⟨f, b, n⟩, ⟨hfile, hbyte, hlength⟩, ?_, (Except.ok.inj h).symm⟩
      unfold DeclaredRun.Starts
      dsimp only
      omega
    · cases h
  · rintro ⟨⟨f, b, n⟩, ⟨hfile, hbyte, hlength⟩, hstarts, rfl⟩
    refine ⟨_, hfile, _, hbyte, _, hlength, ?_⟩
    have hin : ¬ (f < 0 ∨ (logicalSize : ℤ) ≤ f ∨ b < 0 ∨ n ≤ 0) := by
      unfold DeclaredRun.Starts at hstarts
      dsimp only at hstarts
      omega
    dsimp only
    rw [if_neg hin]
    rfl

theorem DeclaredRun.Starts.cut_pos {run : DeclaredRun}
    (h : run.Starts logicalSize) : 0 < (run.cut logicalSize).byteLength := by
  unfold DeclaredRun.Starts at h
  unfold DeclaredRun.cut
  dsimp only
  omega

theorem DeclaredRun.Starts.stop_le {run : DeclaredRun}
    (h : run.Starts logicalSize) :
    (run.cut logicalSize).stop ≤ logicalSize := by
  unfold DeclaredRun.Starts at h
  unfold DataRun.stop DeclaredRun.cut
  dsimp only
  omega

/-- Cutting runs at the end of the file neither makes nor removes an
overlap. -/
theorem DeclaredRun.Starts.apart_cut_iff {a b : DeclaredRun}
    (ha : a.Starts logicalSize) (hb : b.Starts logicalSize) :
    Recovery.Apart (a.cut logicalSize) (b.cut logicalSize) ↔ a.Apart b := by
  unfold DeclaredRun.Starts at ha hb
  unfold Recovery.Apart Before DataRun.stop DeclaredRun.cut DeclaredRun.Apart
  dsimp only
  omega

theorem recoveryRuns_eq_ok_iff :
    recoveryRuns extents logicalSize = .ok runs ↔
      ∃ cut, extents.mapM (recoveryRun logicalSize) = .ok cut ∧
        runs = cut.mergeSort DataRun.le ∧ runs.Pairwise Before := by
  simp only [recoveryRuns, bind_eq_ok_iff, mapError_eq_ok_iff]
  constructor
  · rintro ⟨cut, hcut, ⟨⟩, hcheck, h⟩
    obtain rfl := Except.ok.inj h
    exact ⟨cut, hcut, rfl, (checkOverlap_eq_ok_iff.mp hcheck).2⟩
  · rintro ⟨cut, hcut, rfl, hbefore⟩
    exact ⟨cut, hcut, (), checkOverlap_eq_ok_iff.mpr
      ⟨fun _ _ => Nat.zero_le _, hbefore⟩, rfl⟩

theorem mapM_recoveryRun_eq_ok_iff {cut : List DataRun} :
    extents.mapM (recoveryRun logicalSize) = .ok cut ↔
      ∃ declared : List DeclaredRun,
        List.Forall₂ Declares extents declared ∧
          (∀ run ∈ declared, run.Starts logicalSize) ∧
            cut = declared.map (DeclaredRun.cut logicalSize) := by
  rw [mapM_eq_ok_iff]
  constructor
  · intro h
    induction h with
    | nil => exact ⟨[], .nil, fun _ h => absurd h List.not_mem_nil, rfl⟩
    | cons hrun _ ih =>
        obtain ⟨run, hdeclares, hstarts, rfl⟩ := recoveryRun_eq_ok_iff.mp hrun
        obtain ⟨declared, hall, hstart, rfl⟩ := ih
        exact ⟨run :: declared, .cons hdeclares hall,
          List.forall_mem_cons.mpr ⟨hstarts, hstart⟩, rfl⟩
  · rintro ⟨declared, hall, hstart, rfl⟩
    induction hall with
    | nil => exact .nil
    | cons hdeclares _ ih =>
        obtain ⟨hstarts, hrest⟩ := List.forall_mem_cons.mp hstart
        exact .cons
          (recoveryRun_eq_ok_iff.mpr ⟨_, hdeclares, hstarts, rfl⟩) (ih hrest)

theorem exists_recoveryRuns_iff :
    (∃ runs, recoveryRuns extents logicalSize = .ok runs) ↔
      AcceptableExtents extents logicalSize := by
  have hdisjoint : ∀ {declared : List DeclaredRun},
      (∀ run ∈ declared, run.Starts logicalSize) →
        (((declared.map (DeclaredRun.cut logicalSize)).mergeSort
          DataRun.le).Pairwise Before ↔
            declared.Pairwise DeclaredRun.Apart) := by
    intro declared hstart
    rw [pairwise_before_iff (by
      intro run hrun
      obtain ⟨d, hd, rfl⟩ := List.mem_map.mp hrun
      exact (hstart d hd).cut_pos), List.pairwise_map]
    exact List.Pairwise.iff_of_mem fun ha hb =>
      (hstart _ ha).apart_cut_iff (hstart _ hb)
  simp only [recoveryRuns_eq_ok_iff, mapM_recoveryRun_eq_ok_iff]
  constructor
  · rintro ⟨-, -, ⟨declared, hall, hstart, rfl⟩, rfl, hbefore⟩
    exact ⟨declared, hall, hstart, (hdisjoint hstart).mp hbefore⟩
  · rintro ⟨declared, hall, hstart, hapart⟩
    exact ⟨_, _, ⟨declared, hall, hstart, rfl⟩, rfl,
      (hdisjoint hstart).mpr hapart⟩

end ApexForensic.Recovery
