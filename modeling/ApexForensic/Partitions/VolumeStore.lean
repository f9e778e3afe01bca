import ApexForensic.Partitions.Parser
import ApexForensic.Support.JsonText

/-!
# The volume table of the store

`replaceEvidenceVolumes` inserts volumes one by one under the constraints of
the volume table.  A volume's id is made from a name, and the name tells the
evidence, the scheme and the declared range.
-/

namespace ApexForensic.Partitions

open ApexForensic.Support ApexForensic.Domain

/-! ## The volume table -/

/-- What an integer column holds. -/
def FitsColumn (n : ℤ) : Prop :=
  -2 ^ 63 ≤ n ∧ n < 2 ^ 63

instance : DecidablePred FitsColumn := fun n =>
  inferInstanceAs (Decidable (-2 ^ 63 ≤ n ∧ n < 2 ^ 63))

def EvidenceVolume.integers (v : EvidenceVolume) : List ℤ :=
  [v.volumeIndex, v.startLba, v.endLba, v.byteOffset, v.byteLength,
    v.sectorSize]

/-- The columns of the table's uniqueness constraint. -/
def EvidenceVolume.uniqueColumns (v : EvidenceVolume) :
    String × String × String × String × ℕ × ℕ :=
  (v.evidenceId, v.readerId, v.readerVersion, v.scheme.value, v.byteOffset,
    v.byteLength)

def insertVolume (rows : List EvidenceVolume) (v : EvidenceVolume) :
    Except PyError (List EvidenceVolume) :=
  if ∃ n ∈ v.integers, ¬ FitsColumn n then
    .error (.builtin .overflowError
      "Python int too large to convert to SQLite INTEGER")
  else if ∃ row ∈ rows, row.volumeId = v.volumeId then
    .error (.builtin .integrityError
      "UNIQUE constraint failed: evidence_volumes.volume_id")
  else if ∃ row ∈ rows, row.uniqueColumns = v.uniqueColumns then
    .error (.builtin .integrityError
      "UNIQUE constraint failed: evidence_volumes.evidence_id, evidence_volumes.reader_id, evidence_volumes.reader_version, evidence_volumes.scheme, evidence_volumes.byte_offset, evidence_volumes.byte_length")
  else .ok (rows ++ [v])

/-- Replace the rows of one evidence; an error leaves the table as it was. -/
def replaceEvidenceVolumes (rows : List EvidenceVolume) (evidenceId : String)
    (volumes : List EvidenceVolume) : Except PyError (List EvidenceVolume) :=
  volumes.foldlM insertVolume
    (rows.filter fun row => row.evidenceId ≠ evidenceId)

/-- Parse an image and store its volumes. -/
def enumerateVolumes (ctx : Context) (reader : Reader)
    (rows : List EvidenceVolume) :
    Except PyError (List EvidenceVolume × List EvidenceVolume) := do
  let volumes ← parse ctx reader
  let rows ← replaceEvidenceVolumes rows ctx.evidenceId volumes
  .ok (volumes, rows)

theorem insertVolume_eq_ok_iff {rows rows' : List EvidenceVolume}
    {v : EvidenceVolume} :
    insertVolume rows v = .ok rows' ↔
      rows' = rows ++ [v] ∧ (∀ n ∈ v.integers, FitsColumn n) ∧
        ∀ row ∈ rows, row.volumeId ≠ v.volumeId ∧
          row.uniqueColumns ≠ v.uniqueColumns := by
  unfold insertVolume
  split_ifs with hfits hid hcolumns
  · simp only [false_iff, not_and]
    intro _ h
    obtain ⟨n, hn, hnot⟩ := hfits
    exact (hnot (h n hn)).elim
  · simp only [false_iff, not_and]
    intro _ _ h
    obtain ⟨row, hrow, heq⟩ := hid
    exact (h row hrow).1 heq
  · simp only [false_iff, not_and]
    intro _ _ h
    obtain ⟨row, hrow, heq⟩ := hcolumns
    exact (h row hrow).2 heq
  · push Not at hfits hid hcolumns
    constructor
    · intro h
      exact ⟨(Except.ok.inj h).symm, hfits,
        fun row hrow => ⟨hid row hrow, hcolumns row hrow⟩⟩
    · rintro ⟨rfl, -, -⟩
      rfl

/-- A list of volumes is inserted exactly when its integers fit and no
constraint is broken, among the volumes or against the rows. -/
theorem foldlM_insertVolume_eq_ok_iff {volumes rows rows' : List EvidenceVolume} :
    volumes.foldlM insertVolume rows = .ok rows' ↔
      rows' = rows ++ volumes ∧
        (∀ v ∈ volumes, ∀ n ∈ v.integers, FitsColumn n) ∧
        (volumes.map EvidenceVolume.volumeId).Nodup ∧
        (volumes.map EvidenceVolume.uniqueColumns).Nodup ∧
        ∀ v ∈ volumes, ∀ row ∈ rows, row.volumeId ≠ v.volumeId ∧
          row.uniqueColumns ≠ v.uniqueColumns := by
  induction volumes generalizing rows with
  | nil => simp [pure, Except.pure, eq_comm]
  | cons v volumes ih =>
      rw [List.foldlM_cons, bind_eq_ok_iff, List.map_cons, List.map_cons,
        List.nodup_cons, List.nodup_cons, List.forall_mem_cons,
        List.forall_mem_cons]
      constructor
      · rintro ⟨next, hinsert, htail⟩
        obtain ⟨rfl, hfits, hrows⟩ := insertVolume_eq_ok_iff.mp hinsert
        obtain ⟨rfl, hfitsTail, hids, hcolumns, hrest⟩ := ih.mp htail
        have hv : v ∈ rows ++ [v] := List.mem_append_right _ List.mem_cons_self
        refine ⟨by simp, ⟨hfits, hfitsTail⟩, ⟨?_, hids⟩, ⟨?_, hcolumns⟩, hrows,
          fun w hw row hrow => hrest w hw row (List.mem_append_left _ hrow)⟩
        · intro hmem
          obtain ⟨w, hw, heq⟩ := List.mem_map.mp hmem
          exact (hrest w hw v hv).1 heq.symm
        · intro hmem
          obtain ⟨w, hw, heq⟩ := List.mem_map.mp hmem
          exact (hrest w hw v hv).2 heq.symm
      · rintro ⟨rfl, ⟨hfits, hfitsTail⟩, ⟨hid, hids⟩, ⟨hcolumn, hcolumns⟩,
          hrows, hrest⟩
        refine ⟨rows ++ [v], insertVolume_eq_ok_iff.mpr ⟨rfl, hfits, hrows⟩,
          ih.mpr ⟨by simp, hfitsTail, hids, hcolumns, ?_⟩⟩
        intro w hw row hrow
        rcases List.mem_append.mp hrow with hrow | hrow
        · exact hrest w hw row hrow
        · rw [List.mem_singleton.mp hrow]
          exact ⟨fun heq => hid (heq ▸ List.mem_map_of_mem hw),
            fun heq => hcolumn (heq ▸ List.mem_map_of_mem hw)⟩

/-! ## Volume names -/

/-- The name a volume's id is made from, read off the volume. -/
def EvidenceVolume.idName (v : EvidenceVolume) : String :=
  String.ofList (joinColon
    ["apex-volume-v1", v.caseId, v.evidenceId, v.scheme.value,
     v.partitionType, String.ofList (Nat.toDigits 10 v.startLba),
     String.ofList (Nat.toDigits 10 v.rawLocator.declaredByteLength),
     v.guid.getD "", if v.isAllocated then "True" else "False"])

/-- The volume's id is made from its name, and its texts have no colon. -/
structure EvidenceVolume.Named (uuid5 : String → String)
    (v : EvidenceVolume) : Prop where
  volumeId : v.volumeId = uuid5 v.idName
  caseId : Plain v.caseId
  evidenceId : Plain v.evidenceId
  partitionType : Plain v.partitionType
  guid : Plain (v.guid.getD "")

theorem joinColon_inj {xs ys : List String} (hne : xs ≠ []) (hne' : ys ≠ [])
    (hxs : ∀ x ∈ xs, Plain x) (hys : ∀ y ∈ ys, Plain y)
    (h : joinColon xs = joinColon ys) : xs = ys := by
  have hsplit {zs : List String} (hzne : zs ≠ []) (hzs : ∀ z ∈ zs, Plain z) :
      (joinColon zs).splitOn ':' = zs.map String.toList := by
    apply List.splitOn_intercalate
    · intro part hpart
      obtain ⟨z, hz, rfl⟩ := List.mem_map.mp hpart
      exact hzs z hz
    · simpa using hzne
  have hmap := congrArg (List.splitOn ':') h
  rw [hsplit hne hxs, hsplit hne' hys] at hmap
  exact List.map_injective_iff.mpr (fun _ _ => String.toList_inj.mp) hmap

theorem plain_digits (n : ℕ) :
    Plain (String.ofList (Nat.toDigits 10 n)) := by
  rw [Plain, String.toList_ofList]
  intro hmem
  have hdigit := Json.isDigit_of_mem_toDigits hmem
  exact absurd hdigit (by decide)

theorem VolumeScheme.plain_value (scheme : VolumeScheme) :
    Plain scheme.value := by
  cases scheme <;> decide

theorem VolumeScheme.value_injective :
    Function.Injective VolumeScheme.value := by
  intro a b h
  cases a <;> cases b <;> first | rfl | (revert h; decide)

/-- Volumes of one name are volumes of one evidence, scheme and declared
range. -/
theorem EvidenceVolume.Named.eq_of_idName_eq {uuid5 : String → String}
    {v w : EvidenceVolume} (hv : v.Named uuid5) (hw : w.Named uuid5)
    (h : v.idName = w.idName) :
    v.evidenceId = w.evidenceId ∧ v.scheme = w.scheme ∧
      v.startLba = w.startLba ∧
      v.rawLocator.declaredByteLength = w.rawLocator.declaredByteLength := by
  have hplain {x : EvidenceVolume} (hx : x.Named uuid5) : ∀ part ∈
      ["apex-volume-v1", x.caseId, x.evidenceId, x.scheme.value,
        x.partitionType, String.ofList (Nat.toDigits 10 x.startLba),
        String.ofList (Nat.toDigits 10 x.rawLocator.declaredByteLength),
        x.guid.getD "", if x.isAllocated then "True" else "False"],
      Plain part := by
    have hflag : Plain (if x.isAllocated then "True" else "False") := by
      cases x.isAllocated <;> decide
    have hversion : Plain "apex-volume-v1" := by decide
    simp only [List.forall_mem_cons]
    exact ⟨hversion, hx.caseId, hx.evidenceId, x.scheme.plain_value,
      hx.partitionType, plain_digits _, plain_digits _, hx.guid, hflag,
      fun part hpart => (List.not_mem_nil hpart).elim⟩
  have hparts := joinColon_inj (List.cons_ne_nil _ _) (List.cons_ne_nil _ _)
    (hplain hv) (hplain hw) (String.ofList_injective h)
  simp only [List.cons.injEq] at hparts
  obtain ⟨-, -, hevidence, hscheme, -, hstart, hlength, -⟩ := hparts
  exact ⟨hevidence, VolumeScheme.value_injective hscheme,
    Json.toDigits_inj (String.ofList_injective hstart),
    Json.toDigits_inj (String.ofList_injective hlength)⟩

end ApexForensic.Partitions
