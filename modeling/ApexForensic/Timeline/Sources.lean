import ApexForensic.Timeline.Build

/-!
# The order in which a build reads its sources

`timelineSources` is the list of all source rows of a build.  A read after a
position returns the first of the rows that follow it there, so that a build
walks along the list.
-/

namespace ApexForensic.Timeline

open ApexForensic.Support ApexForensic.Domain

variable (store : CaseStore) (caseId : String) (evidenceId : Option String)

/-- All rows of one source type, in the order of their ids. -/
def rowsOf (sourceType : TimelineSourceType) : List SourceRow :=
  match sourceType with
  | .fileSystemNode =>
      ((store.nodes.rows.filter fun row =>
          row.caseId = caseId &&
            evidenceId.all fun id => row.evidenceId = id).insertionSort
        fun a b => a.nodeId ≤ b.nodeId).map .node
  | sourceType =>
      ((store.artifacts.rows.filter fun row =>
          row.caseId = caseId &&
            row.artifactType ∈ timelineSourceArtifactTypes sourceType &&
            evidenceId.all fun id => row.evidenceId = id).insertionSort
        fun a b => a.artifactId ≤ b.artifactId).map (.artifact sourceType)

def timelineSources (sourceTypes : List TimelineSourceType) :
    List SourceRow :=
  (selectedTypes sourceTypes).flatMap (rowsOf store caseId evidenceId)

variable {store caseId evidenceId}

/-! ## One table -/

/-- Reading the rows after an id, or reading all and passing over the
others. -/
theorem sorted_filter_after {α : Type} {id : α → String} {rows : List α}
    (hid : ∀ a ∈ rows, ∀ b ∈ rows, id a = id b → a = b) (p q : α → Bool) :
    ((rows.filter fun row => p row && q row).insertionSort
        fun a b => id a ≤ id b) =
      ((rows.filter p).insertionSort fun a b => id a ≤ id b).filter q := by
  have : Std.Total fun a b : α => id a ≤ id b := ⟨fun _ _ => le_total _ _⟩
  have : IsTrans α fun a b => id a ≤ id b := ⟨fun _ _ _ => le_trans⟩
  have hseparates : Separates (fun a b => id a ≤ id b) (rows.filter p) :=
    Separates.filter (fun a ha b hb hab hba =>
      hid a ha b hb (le_antisymm hab hba)) p
  rw [← insertionSort_filter hseparates, List.filter_filter]
  congr 1
  exact List.filter_congr fun row _ => Bool.and_comm _ _

theorem iterRows_eq (sourceType : TimelineSourceType) (afterId : Option String)
    (n : ℕ) :
    iterRows store caseId evidenceId sourceType afterId n =
      ((rowsOf store caseId evidenceId sourceType).filter fun row =>
        afterId.all fun id => decide (id < row.position.2)).take n := by
  have hartifacts : ∀ sourceType : TimelineSourceType,
      iterArtifactTimelineRows store caseId evidenceId sourceType afterId n =
        ((((store.artifacts.rows.filter fun row =>
            row.caseId = caseId &&
              row.artifactType ∈ timelineSourceArtifactTypes sourceType &&
              evidenceId.all fun id => row.evidenceId = id).insertionSort
          fun a b => a.artifactId ≤ b.artifactId).map
            (.artifact sourceType)).filter fun row : SourceRow =>
          afterId.all fun id => decide (id < row.position.2)).take n := by
    intro sourceType
    rw [iterArtifactTimelineRows, List.filter_map, List.map_take,
      sorted_filter_after (fun a ha b hb => store.artifacts.row_unique ha hb)]
    rfl
  cases sourceType with
  | fileSystemNode =>
      have hid : ∀ a ∈ store.nodes.rows, ∀ b ∈ store.nodes.rows,
          a.nodeId = b.nodeId → a = b := fun a ha b hb =>
        store.nodes.row_unique ha hb
      rw [iterRows, iterFsTimelineRows, rowsOf, List.filter_map, List.map_take,
        sorted_filter_after hid]
      rfl
  | _ => exact hartifacts _

theorem mem_rowsOf {sourceType : TimelineSourceType} {row : SourceRow} :
    row ∈ rowsOf store caseId evidenceId sourceType ↔
      row.sourceType = sourceType ∧ row.caseId = caseId ∧
        (∀ id, evidenceId = some id → row.evidenceId = id) ∧
        match row with
        | .node node => node ∈ store.nodes.rows
        | .artifact sourceType artifact =>
            artifact ∈ store.artifacts.rows ∧ sourceType ≠ .fileSystemNode ∧
              artifact.artifactType ∈
                timelineSourceArtifactTypes sourceType := by
  have hevidence : ∀ id' : String,
      (evidenceId.all fun id => decide (id' = id)) = true ↔
        ∀ id, evidenceId = some id → id' = id := by
    intro id'
    cases evidenceId <;> simp
  have hartifact : ∀ {t : TimelineSourceType}, t ≠ .fileSystemNode →
      (row ∈ ((store.artifacts.rows.filter fun row =>
          row.caseId = caseId &&
            row.artifactType ∈ timelineSourceArtifactTypes t &&
            evidenceId.all fun id => row.evidenceId = id).insertionSort
          fun a b => a.artifactId ≤ b.artifactId).map (.artifact t) ↔
        row.sourceType = t ∧ row.caseId = caseId ∧
          (∀ id, evidenceId = some id → row.evidenceId = id) ∧
          match row with
          | .node node => node ∈ store.nodes.rows
          | .artifact sourceType artifact =>
              artifact ∈ store.artifacts.rows ∧
                sourceType ≠ .fileSystemNode ∧
                artifact.artifactType ∈
                  timelineSourceArtifactTypes sourceType) := by
    intro t ht
    simp only [List.mem_map, List.mem_insertionSort, List.mem_filter,
      Bool.and_eq_true, decide_eq_true_eq, hevidence]
    cases row with
    | node node =>
        simp only [reduceCtorEq, and_false, exists_false, false_iff]
        rintro ⟨rfl, -⟩
        exact ht rfl
    | artifact sourceType artifact =>
        constructor
        · rintro ⟨a, ⟨hmem, ⟨hcase, htype⟩, hid⟩, heq⟩
          obtain ⟨rfl, rfl⟩ := SourceRow.artifact.inj heq
          exact ⟨rfl, hcase, hid, hmem, ht, htype⟩
        · rintro ⟨rfl, hcase, hid, hmem, -, htype⟩
          exact ⟨artifact, ⟨hmem, ⟨hcase, htype⟩, hid⟩, rfl⟩
  cases sourceType with
  | fileSystemNode =>
      simp only [rowsOf, List.mem_map, List.mem_insertionSort,
        List.mem_filter, Bool.and_eq_true, decide_eq_true_eq, hevidence]
      cases row with
      | node node =>
          constructor
          · rintro ⟨a, ⟨hmem, hcase, hid⟩, heq⟩
            obtain rfl := SourceRow.node.inj heq
            exact ⟨rfl, hcase, hid, hmem⟩
          · rintro ⟨-, hcase, hid, hmem⟩
            exact ⟨node, ⟨hmem, hcase, hid⟩, rfl⟩
      | artifact sourceType artifact =>
          simp only [reduceCtorEq, and_false, exists_false, false_iff]
          rintro ⟨rfl, -, -, -, hne, -⟩
          exact hne rfl
  | _ => exact hartifact (by decide)

/-! ## All tables -/

theorem sourceType_of_mem_rowsOf {sourceType : TimelineSourceType}
    {row : SourceRow} (h : row ∈ rowsOf store caseId evidenceId sourceType) :
    row.sourceType = sourceType :=
  (mem_rowsOf.mp h).1

/-- A source is read before another. -/
def ReadBefore (a b : SourceRow) : Prop :=
  a.sourceType.value < b.sourceType.value ∨
    (a.sourceType.value = b.sourceType.value ∧ a.sourceId < b.sourceId)

theorem ReadBefore.asymm {a b : SourceRow} (hab : ReadBefore a b) :
    ¬ ReadBefore b a := by
  rcases hab with hab | ⟨hab, hid⟩
  · rintro (hba | ⟨hba, -⟩)
    · exact lt_asymm hab hba
    · exact hab.ne hba.symm
  · rintro (hba | ⟨-, hid'⟩)
    · exact hba.ne hab.symm
    · exact lt_asymm hid hid'

theorem isAfter_position {last row : SourceRow} :
    isAfter SourceRow.position (some last.position) row = true ↔
      ReadBefore last row := by
  simp [isAfter, SourceRow.position, ReadBefore,
    eq_comm (a := row.sourceType.value)]

theorem pairwise_rowsOf (sourceType : TimelineSourceType) :
    (rowsOf store caseId evidenceId sourceType).Pairwise
      fun a b => a.sourceId < b.sourceId := by
  have hlt : ∀ {α : Type} {id : α → String} {rows : List α},
      (rows.map id).Nodup →
      (rows.insertionSort fun a b => id a ≤ id b).Pairwise
        fun a b => id a < id b := by
    intro α id rows hnodup
    have : Std.Total fun a b : α => id a ≤ id b := ⟨fun _ _ => le_total _ _⟩
    have : IsTrans α fun a b => id a ≤ id b := ⟨fun _ _ _ => le_trans⟩
    have hsorted := List.pairwise_insertionSort (fun a b => id a ≤ id b) rows
    have hne : (rows.insertionSort fun a b => id a ≤ id b).Pairwise
        fun a b => id a ≠ id b := by
      have hperm := (List.perm_insertionSort (fun a b => id a ≤ id b) rows).map
        id
      exact List.pairwise_map.mp (hperm.nodup_iff.mpr hnodup)
    exact (hsorted.and hne).imp fun h => lt_of_le_of_ne h.1 h.2
  have hnodes := (store.nodes.filter fun row => row.caseId = caseId &&
    evidenceId.all fun id => row.evidenceId = id).keys_nodup
  have hartifacts := fun t => (store.artifacts.filter fun row =>
    row.caseId = caseId && row.artifactType ∈ timelineSourceArtifactTypes t &&
      evidenceId.all fun id => row.evidenceId = id).keys_nodup
  cases sourceType with
  | fileSystemNode => exact List.pairwise_map.mpr (hlt hnodes)
  | _ => exact List.pairwise_map.mpr (hlt (hartifacts _))

theorem pairwise_selectedTypes (sourceTypes : List TimelineSourceType) :
    (selectedTypes sourceTypes).Pairwise fun a b => a.value < b.value := by
  apply List.Pairwise.filter
  decide

variable (store caseId evidenceId) in
theorem pairwise_timelineSources (sourceTypes : List TimelineSourceType) :
    (timelineSources store caseId evidenceId sourceTypes).Pairwise
      ReadBefore := by
  rw [timelineSources, List.pairwise_flatMap]
  constructor
  · intro t _
    refine (pairwise_rowsOf t).imp_of_mem fun {a b} ha hb hlt => ?_
    rw [ReadBefore, sourceType_of_mem_rowsOf ha, sourceType_of_mem_rowsOf hb]
    exact Or.inr ⟨rfl, hlt⟩
  · refine (pairwise_selectedTypes sourceTypes).imp ?_
    intro t t' hlt a ha b hb
    rw [ReadBefore, sourceType_of_mem_rowsOf ha, sourceType_of_mem_rowsOf hb]
    exact Or.inl hlt

theorem filter_isAfter {before rest : List SourceRow} {last : SourceRow}
    (h : (before ++ last :: rest).Pairwise ReadBefore) :
    (before ++ last :: rest).filter
      (isAfter SourceRow.position (some last.position)) = rest := by
  obtain ⟨-, hlast, hbefore⟩ := List.pairwise_append.mp h
  have hfirst : before.filter
      (isAfter SourceRow.position (some last.position)) = [] := by
    rw [List.filter_eq_nil_iff]
    intro row hrow hafter
    exact (hbefore row hrow last List.mem_cons_self).asymm
      (isAfter_position.mp hafter)
  have hself : ¬ isAfter SourceRow.position (some last.position) last =
      true := fun hafter =>
    (isAfter_position.mp hafter).asymm (isAfter_position.mp hafter)
  rw [List.filter_append, hfirst, List.nil_append,
    List.filter_cons_of_neg hself, List.filter_eq_self]
  intro row hrow
  exact isAfter_position.mpr (List.rel_of_pairwise_cons hlast hrow)

variable (store caseId evidenceId) in
theorem readTables_iterRows (sourceTypes : List TimelineSourceType)
    (after : Option (String × String)) (n : ℕ) :
    readTables TimelineSourceType.value (iterRows store caseId evidenceId)
        (selectedTypes sourceTypes) after n =
      ((timelineSources store caseId evidenceId sourceTypes).filter
        (isAfter SourceRow.position after)).take n := by
  apply readTables_eq
  · intro t row hrow
    rw [← sourceType_of_mem_rowsOf hrow]
    rfl
  · exact iterRows_eq

theorem mem_timelineSources_of_mem_iter
    {sourceTypes : List TimelineSourceType}
    {after : Option (String × String)} {n : ℕ} {row : SourceRow}
    (h : row ∈ iterTimelineSourceRows store caseId evidenceId sourceTypes
      after n) :
    row ∈ timelineSources store caseId evidenceId sourceTypes := by
  have h := (List.mem_insertionSort _).mp (List.mem_of_mem_take h)
  rw [readTables_iterRows] at h
  exact List.mem_of_mem_filter (List.mem_of_mem_take h)

theorem iterTimelineSourceRows_eq {sourceTypes : List TimelineSourceType}
    {after : Option (String × String)} {rest : List SourceRow}
    (h : StandsAfter SourceRow.position
      (timelineSources store caseId evidenceId sourceTypes) after rest)
    (n : ℕ) :
    iterTimelineSourceRows store caseId evidenceId sourceTypes after n =
      rest.take n := by
  have hpairwise := pairwise_timelineSources store caseId evidenceId sourceTypes
  have hafter : (timelineSources store caseId evidenceId sourceTypes).filter
      (isAfter SourceRow.position after) = rest := by
    cases after with
    | none => exact (List.filter_eq_self.mpr fun _ _ => rfl).trans h
    | some p =>
        obtain ⟨before, last, hall, rfl⟩ := h
        rw [hall] at hpairwise ⊢
        exact filter_isAfter hpairwise
  have hsorted : (rest.take n).Pairwise
      (orderBy (fun row => row.sourceType.value) SourceRow.sourceId) := by
    have hsub : (rest.take n).Sublist
        (timelineSources store caseId evidenceId sourceTypes) :=
      (List.take_sublist n rest).trans h.isSuffix.sublist
    exact (hpairwise.sublist hsub).imp fun hbefore =>
      hbefore.imp_right fun ⟨htype, hid⟩ => ⟨htype, hid.le⟩
  rw [iterTimelineSourceRows, readTables_iterRows, hafter,
    hsorted.insertionSort_eq, List.take_take, min_self]

end ApexForensic.Timeline
