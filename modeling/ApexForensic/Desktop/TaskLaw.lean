import ApexForensic.Desktop.Tasks

/-!
# The life cycle of a desktop task

A worker assigns the final status of its record in one locked step and takes
the cancel action away in a later one.  As long as no cancel is accepted in
between, no run reports a live status as its outcome and the services close,
a finished task has left its slot of the queue.
-/

namespace ApexForensic.Desktop

open ApexForensic.Support ApexForensic.Domain

/-! ## What a run reports -/

def jobItem : Json → Option (List (String × Json))
  | .obj job => if (Json.lookup "job_type" job).isSome then some job else none
  | _ => none

def returnedJobs : Json → List (List (String × Json))
  | .arr items => items.filterMap jobItem
  | _ => []

/-- Every returned job has a status. -/
def StatusesNamed (result : Json) : Prop :=
  ∀ job ∈ returnedJobs result, (Json.lookup "status" job).isSome

/-- The status that a run reports which returned the result: that of the last
job in it, or else that of the last progress. -/
def TaskRecord.reported (record : TaskRecord) (result : Json) : Json :=
  ((returnedJobs result).getLast?.bind (Json.lookup "status")).getD
    (if isPartial result then .str "PARTIAL" else record.jobStatus)

namespace TaskRecord

theorem withJobs_cons (record : TaskRecord) (item : Json) (items : List Json) :
    record.withJobs (item :: items) =
      match jobItem item with
      | none => record.withJobs items
      | some job =>
          match Json.lookup "status" job with
          | some status =>
              { record with job := some job, status }.withJobs items
          | none =>
              ({ record with job := some job },
                some (.builtin .keyError "'status'")) := by
  cases item with
  | obj job =>
      rw [withJobs, jobItem]
      split
      · rfl
      · rfl
  | _ => rfl

theorem status_withJobs {record : TaskRecord} {items : List Json}
    (h : (record.withJobs items).2 = none) :
    (∀ job ∈ items.filterMap jobItem, (Json.lookup "status" job).isSome) ∧
      (record.withJobs items).1.status =
        ((items.filterMap jobItem).getLast?.bind
          (Json.lookup "status")).getD record.status := by
  induction items generalizing record with
  | nil => exact ⟨nofun, rfl⟩
  | cons item items ih =>
      rw [withJobs_cons] at h ⊢
      cases hitem : jobItem item with
      | none =>
          rw [hitem] at h
          rw [List.filterMap_cons_none hitem]
          exact ih h
      | some job =>
          rw [hitem] at h
          rw [List.filterMap_cons_some hitem]
          cases hstatus : Json.lookup "status" job with
          | none =>
              simp only [hstatus] at h
              cases h
          | some status =>
              simp only [hstatus] at h ⊢
              obtain ⟨hnamed, hlast⟩ := ih h
              refine ⟨fun other hmem => ?_, hlast.trans ?_⟩
              · rcases List.mem_cons.mp hmem with rfl | hmem
                · exact hstatus ▸ rfl
                · exact hnamed other hmem
              · rw [List.getLast?_cons]
                cases hrest : (items.filterMap jobItem).getLast? with
                | none => simp [hstatus]
                | some last =>
                    obtain ⟨last', hlast'⟩ := Option.isSome_iff_exists.mp
                      (hnamed last (List.mem_of_getLast? hrest))
                    simp [hlast']

theorem status_returned {record : TaskRecord} {result : Json}
    (h : (record.returned result).2 = none) :
    StatusesNamed result ∧
      (record.returned result).1.status = record.reported result := by
  cases result with
  | arr items => exact status_withJobs h
  | _ => exact ⟨nofun, rfl⟩

end TaskRecord

/-! ## Where a task stands -/

namespace Tasks

/-- The status and the actions of a task. -/
def seen (s : Tasks) (taskId : String) : Option (Json × List String) :=
  (s.records.find? taskId).map fun r => (r.status, r.actions)

/-- A final status, which is that of a cancelled task once its token is
set. -/
def Ended (status : Json) (isCancelled : Prop) : Prop :=
  isLive status = false ∧ (isCancelled → status = .str "CANCELLED")

/-- What is known of a task in each phase. -/
def StandsAt (seen : Option (Json × List String))
    (hasToken isCancelled : Prop) : Phase → Prop
  | .unused => ¬ hasToken ∧ ¬ isCancelled ∧ ∀ r, seen = some r → r.2 = []
  | .rejected => seen = none ∧ ¬ hasToken
  | .failing _ => ∃ r, seen = some r
  | .stopping => ∃ r, seen = some r ∧ isCancelled
  | .closing => ∃ r, seen = some r ∧ Ended r.1 isCancelled
  | .cleaning => ∃ r, seen = some r ∧ Ended r.1 isCancelled
  | .finished => ∃ r, seen = some r ∧ Ended r.1 isCancelled ∧ r.2 = []
  | _ => ∃ r, seen = some r ∧ isLive r.1 = true

def Stands (s : Tasks) (taskId : String) : Prop :=
  StandsAt (s.seen taskId) (taskId ∈ s.tokens) (s.isCancelled taskId)
    (s.phase taskId)

/-- Every task stands well, and the live ones fit the queue. -/
structure Sound (s : Tasks) : Prop where
  stands : ∀ taskId, s.Stands taskId
  bounded : s.liveCount ≤ 16

/-- A step of one task leaves the others where they stand. -/
structure Spares (taskId : String) (s t : Tasks) : Prop where
  seen : ∀ id, id ≠ taskId → t.seen id = s.seen id
  tokens : ∀ id, id ≠ taskId → (id ∈ t.tokens ↔ id ∈ s.tokens)
  cancelled : ∀ id, id ≠ taskId → (t.isCancelled id ↔ s.isCancelled id)
  phase : ∀ id, id ≠ taskId → t.phase id = s.phase id

section Primitives

variable {s t u : Tasks} {taskId id : String} {phase : Phase}
  {change : TaskChange} {save : Save}

theorem Spares.trans (hst : Spares taskId s t) (htu : Spares taskId t u) :
    Spares taskId s u :=
  ⟨fun id h => (htu.seen id h).trans (hst.seen id h),
    fun id h => (htu.tokens id h).trans (hst.tokens id h),
    fun id h => (htu.cancelled id h).trans (hst.cancelled id h),
    fun id h => (htu.phase id h).trans (hst.phase id h)⟩

theorem Sound.of_spares (hs : s.Sound) (h : Spares taskId s t)
    (hself : t.Stands taskId) (hcount : t.liveCount ≤ 16) : t.Sound := by
  refine ⟨fun id => ?_, hcount⟩
  by_cases hid : id = taskId
  · exact hid ▸ hself
  · have hstands := hs.stands id
    rwa [Stands, ← h.seen id hid, ← h.phase id hid,
      ← propext (h.tokens id hid), ← propext (h.cancelled id hid)] at hstands

@[simp] theorem seen_setPhase : (s.setPhase taskId phase).seen id =
    s.seen id := rfl

@[simp] theorem phase_setPhase :
    (s.setPhase taskId phase).phase taskId = phase :=
  Function.update_self ..

theorem spares_setPhase : Spares taskId s (s.setPhase taskId phase) :=
  ⟨fun _ _ => rfl, fun _ _ => Iff.rfl, fun _ _ => Iff.rfl,
    fun _ h => Function.update_of_ne h ..⟩

theorem find?_modify :
    (s.modify taskId change).records.find? id =
      (s.records.find? id).map fun r =>
        if r.taskId = taskId then change.1 r else r := by
  refine (Table.find?_update s.records _ change.1 change.2 id).trans ?_
  simp only [decide_eq_true_eq]

theorem seen_modify_self :
    (s.modify taskId change).seen taskId =
      (s.records.find? taskId).map fun r =>
        ((change.1 r).status, (change.1 r).actions) := by
  rw [seen, find?_modify, Option.map_map]
  cases h : s.records.find? taskId with
  | none => rfl
  | some r => simp [(Table.find?_eq_some_iff.mp h).2]

theorem spares_modify : Spares taskId s (s.modify taskId change) := by
  refine ⟨fun id hid => ?_, fun _ _ => Iff.rfl, fun _ _ => Iff.rfl,
    fun _ _ => rfl⟩
  rw [seen, find?_modify, seen]
  cases h : s.records.find? id with
  | none => rfl
  | some r => simp [(Table.find?_eq_some_iff.mp h).2, hid]

theorem liveCount_modify_le
    (h : ∀ r, s.records.find? taskId = some r →
      isLive (change.1 r).status = true → isLive r.status = true) :
    (s.modify taskId change).liveCount ≤ s.liveCount := by
  refine Table.countP_update_le s.records _ change.1 change.2
    fun r hr hid hlive => ?_
  have hid : r.taskId = taskId := of_decide_eq_true hid
  exact h r (Table.find?_eq_some_iff.mpr ⟨hr, hid⟩) hlive

theorem liveCount_modify_le_of_same
    (h : ∀ r, (change.1 r).status = r.status) :
    (s.modify taskId change).liveCount ≤ s.liveCount := by
  refine liveCount_modify_le fun r _ hlive => ?_
  rwa [h] at hlive

theorem seen_update {p : TaskRecord → Bool}
    (h : ∀ r, (change.1 r).status = r.status ∧
      (change.1 r).actions = r.actions) :
    ({ s with records := s.records.update p change.1 change.2 } :
      Tasks).seen id = s.seen id := by
  have hfind := Table.find?_update s.records p change.1 change.2 id
  rw [seen, seen]
  refine (congrArg (Option.map _) hfind).trans ?_
  rw [Option.map_map]
  congr 1
  funext r
  by_cases hp : p r = true
  · simp [hp, h r]
  · simp [hp]

@[simp] theorem seen_saved : (s.saved save).seen id = s.seen id := by
  cases save with
  | saved => exact seen_update fun _ => ⟨rfl, rfl⟩
  | _ => rfl

@[simp] theorem tokens_saved : (s.saved save).tokens = s.tokens := by
  cases save <;> rfl

@[simp] theorem cancelled_saved : (s.saved save).cancelled = s.cancelled := by
  cases save <;> rfl

@[simp] theorem phase_saved : (s.saved save).phase = s.phase := by
  cases save <;> rfl

theorem liveCount_saved_le : (s.saved save).liveCount ≤ s.liveCount := by
  cases save with
  | saved =>
      exact Table.countP_update_le s.records (fun _ => true)
        (TaskChange.setReceiptError none).1 (TaskChange.setReceiptError none).2
        fun _ _ _ h => h
  | _ => exact le_refl _

theorem spares_saved : Spares taskId s (s.saved save) :=
  ⟨fun _ _ => seen_saved, fun _ _ => by rw [tokens_saved],
    fun _ _ => by rw [isCancelled, cancelled_saved, isCancelled],
    fun _ _ => by rw [phase_saved]⟩

theorem seen_add_self {record : TaskRecord} :
    (s.add record).seen record.taskId =
      some (record.status, record.actions) := by
  rw [seen, add, Table.find?_put, if_pos rfl, Option.map_some]

theorem spares_add {record : TaskRecord} :
    Spares record.taskId s (s.add record) := by
  refine ⟨fun id hid => ?_, fun id hid => ?_, fun _ _ => Iff.rfl,
    fun _ _ => rfl⟩
  · rw [seen, add, Table.find?_put, if_neg hid.symm, seen]
  · simp [add, hid]

theorem liveCount_add_le {record : TaskRecord}
    (hnone : s.records.find? record.taskId = none) :
    (s.add record).liveCount ≤ s.liveCount + 1 := by
  rw [liveCount, add, Table.rows_put_of_find?_eq_none hnone, List.countP_append]
  exact Nat.add_le_add_left List.countP_le_length _

theorem seen_pop_self : (s.pop taskId).seen taskId = none := by
  rw [seen, pop, Table.find?_filter]
  cases h : s.records.find? taskId with
  | none => rfl
  | some r => simp [(Table.find?_eq_some_iff.mp h).2]

theorem notMem_tokens_pop : taskId ∉ (s.pop taskId).tokens := by
  simp [pop]

theorem spares_pop : Spares taskId s (s.pop taskId) := by
  refine ⟨fun id hid => ?_, fun id hid => ?_, fun _ _ => Iff.rfl,
    fun _ _ => rfl⟩
  · rw [seen, pop, Table.find?_filter, seen]
    cases h : s.records.find? id with
    | none => rfl
    | some r => simp [(Table.find?_eq_some_iff.mp h).2, hid]
  · simp [pop, hid]

theorem liveCount_pop_le : (s.pop taskId).liveCount ≤ s.liveCount :=
  List.filter_sublist.countP_le

end Primitives

/-! ## Each step -/

section Steps

variable {s : Tasks} {taskId : String}

theorem Stands.of_eq (hs : s.Stands taskId) {phase : Phase}
    (h : s.phase taskId = phase) :
    StandsAt (s.seen taskId) (taskId ∈ s.tokens) (s.isCancelled taskId)
      phase := by
  rw [← h]
  exact hs

theorem Sound.setPhase (hs : s.Sound) {phase : Phase}
    (h : StandsAt (s.seen taskId) (taskId ∈ s.tokens) (s.isCancelled taskId)
      phase) : (s.setPhase taskId phase).Sound := by
  refine hs.of_spares spares_setPhase ?_ hs.bounded
  rw [Stands, phase_setPhase]
  exact h

theorem Sound.modify (hs : s.Sound) {change : TaskChange} {phase : Phase}
    (hlive : ∀ r, s.records.find? taskId = some r →
      isLive (change.1 r).status = true → isLive r.status = true)
    (hstands : StandsAt
      ((s.records.find? taskId).map fun r =>
        ((change.1 r).status, (change.1 r).actions))
      (taskId ∈ s.tokens) (s.isCancelled taskId) phase) :
    ((s.modify taskId change).setPhase taskId phase).Sound := by
  refine hs.of_spares (spares_modify.trans spares_setPhase) ?_
    ((liveCount_modify_le hlive).trans hs.bounded)
  rw [Stands, phase_setPhase, seen_setPhase, seen_modify_self]
  exact hstands

theorem find?_of_seen {r : Json × List String} (h : s.seen taskId = some r) :
    ∃ record, s.records.find? taskId = some record ∧
      record.status = r.1 ∧ record.actions = r.2 := by
  obtain ⟨record, hfind, rfl⟩ := Option.map_eq_some_iff.mp h
  exact ⟨record, hfind, rfl, rfl⟩

theorem Sound.admitTask (hs : s.Sound) {caseId kind : String}
    {cancellable : Bool} {save : Save} (hunused : s.phase taskId = .unused)
    (hnone : s.records.find? taskId = none) :
    (s.admitTask taskId caseId kind cancellable save).Sound := by
  obtain ⟨htoken, -, -⟩ := (hs.stands taskId).of_eq hunused
  have hrejected : (s.setPhase taskId .rejected).Sound :=
    hs.setPhase ⟨by rw [seen, hnone, Option.map_none], htoken⟩
  rw [Tasks.admitTask]
  split
  · exact hrejected
  split
  · exact hrejected
  rename_i hroom
  have hadded := @spares_add s (newRecord taskId caseId kind cancellable)
  have hcount :=
    @liveCount_add_le s (newRecord taskId caseId kind cancellable) hnone
  have hseen := @seen_add_self s (newRecord taskId caseId kind cancellable)
  dsimp only
  split
  · refine hs.of_spares (hadded.trans (spares_saved.trans spares_setPhase)) ?_
      ((liveCount_saved_le.trans hcount).trans (by omega))
    change Stands _ taskId
    rw [Stands, phase_setPhase, seen_setPhase, seen_saved]
    exact ⟨_, hseen, rfl⟩
  · refine hs.of_spares (hadded.trans (spares_pop.trans spares_setPhase)) ?_
      ((liveCount_pop_le.trans hcount).trans (by omega))
    change Stands _ taskId
    rw [Stands, phase_setPhase, seen_setPhase]
    exact ⟨seen_pop_self, notMem_tokens_pop⟩

theorem Sound.submit (hs : s.Sound) {accepted : Bool} {save : Save}
    (hadmitted : s.phase taskId = .admitted) :
    (s.submit taskId accepted save).Sound := by
  rw [Tasks.submit]
  split
  · have hstands := (hs.stands taskId).of_eq hadmitted
    exact hs.setPhase hstands
  · refine hs.of_spares
      (spares_pop.trans (spares_saved.trans spares_setPhase)) ?_
      ((liveCount_saved_le.trans liveCount_pop_le).trans hs.bounded)
    rw [Stands, phase_setPhase, seen_setPhase, seen_saved]
    refine ⟨seen_pop_self, ?_⟩
    change taskId ∉ ((s.pop taskId).saved save).tokens
    rw [tokens_saved]
    exact notMem_tokens_pop

theorem cancellable_eq_ok {caseId : String} {record : TaskRecord}
    (h : s.cancellable caseId taskId = .ok record) :
    s.records.find? taskId = some record ∧ "CANCEL" ∈ record.actions := by
  rw [cancellable] at h
  split at h
  · cases h
  rename_i hfind
  split at h
  · cases h
  split at h
  · cases h
  rename_i hok
  obtain rfl := Except.ok.inj h
  exact ⟨hfind, not_not.mp (not_or.mp hok).1⟩

/-- A live task that offers actions has not ended, and stands as well with its
token set. -/
theorem StandsAt.cancelling {r : Json × List String}
    {hasToken isCancelled : Prop} {phase : Phase}
    (h : StandsAt (some r) hasToken isCancelled phase)
    (hlive : isLive r.1 = true) (hactions : r.2 ≠ []) :
    StandsAt (some (.str "CANCELLING", r.2)) hasToken True phase := by
  cases phase with
  | unused => exact absurd (h.2.2 r rfl) hactions
  | rejected => cases h.1
  | closing =>
      obtain ⟨r', hr, hended, -⟩ := h
      cases hr
      rw [hlive] at hended
      cases hended
  | cleaning =>
      obtain ⟨r', hr, hended, -⟩ := h
      cases hr
      rw [hlive] at hended
      cases hended
  | finished =>
      obtain ⟨r', hr, ⟨hended, -⟩, -⟩ := h
      cases hr
      rw [hlive] at hended
      cases hended
  | stopping => exact ⟨_, rfl, trivial⟩
  | failing error => exact ⟨_, rfl⟩
  | _ => exact ⟨_, rfl, rfl⟩

theorem Sound.cancel (hs : s.Sound) {caseId : String}
    (hlive : ∀ record, s.cancellable caseId taskId = .ok record →
      isLive record.status = true) :
    (s.cancel caseId taskId).2.Sound := by
  rw [Tasks.cancel]
  split
  · exact hs
  rename_i record hcancellable
  obtain ⟨hfind, haction⟩ := cancellable_eq_ok hcancellable
  have hstatus := hlive record hcancellable
  have hstands := hs.stands taskId
  rw [Stands, seen, hfind, Option.map_some] at hstands
  have hspares : Spares taskId s (s.setToken taskId) :=
    ⟨fun _ _ => rfl, fun _ _ => Iff.rfl,
      fun id hid => by simp [isCancelled, setToken, hid], fun _ _ => rfl⟩
  have hcount := @liveCount_modify_le (s.setToken taskId) taskId
    (.setStatus "CANCELLING") fun r hr _ => by
      rw [setToken, hfind] at hr
      exact Option.some.inj hr ▸ hstatus
  refine hs.of_spares (hspares.trans spares_modify) ?_
    (hcount.trans hs.bounded)
  rw [Stands, seen_modify_self, setToken, hfind]
  have hset : (({ s with cancelled := taskId :: s.cancelled } : Tasks).modify
      taskId (.setStatus "CANCELLING")).isCancelled taskId = True :=
    eq_true List.mem_cons_self
  rw [hset]
  exact hstands.cancelling hstatus (List.ne_nil_of_mem haction)

/-- What a step needs for the law: a cancel that is accepted finds its task
live, a run that returns reports a status that is not live, and the services
close. -/
def Meets (s : Tasks) : TaskMove → Prop
  | .cancel caseId taskId =>
      ∀ record, s.cancellable caseId taskId = .ok record →
        isLive record.status = true
  | .work taskId (.returned result) =>
      ∀ record, s.records.find? taskId = some record →
        ¬ s.isCancelled taskId → StatusesNamed result →
        isLive (record.reported result) = false
  | .work _ (.closeServices raises) => raises = false
  | _ => True

theorem Sound.finish (hs : s.Sound) {result : Json}
    (hrunning : s.phase taskId = .running)
    (hmeets : s.Meets (.work taskId (.returned result))) :
    (s.finish taskId result).Sound := by
  obtain ⟨_, hseen, hlive⟩ := (hs.stands taskId).of_eq hrunning
  obtain ⟨record, hfind, hstatus, -⟩ := find?_of_seen hseen
  rw [← hstatus] at hlive
  have hsame : ∀ r, s.records.find? taskId = some r → isLive r.status = true :=
    fun r hr => Option.some.inj (hfind.symm.trans hr) ▸ hlive
  rw [Tasks.finish, hfind]
  dsimp only
  split
  · refine hs.modify (fun r hr _ => hsame r hr) ?_
    rw [hfind]
    exact ⟨_, rfl⟩
  · rename_i hnone
    refine hs.modify (fun r hr _ => hsame r hr) ?_
    rw [hfind]
    obtain ⟨hnamed, hreported⟩ := TaskRecord.status_returned hnone
    refine ⟨_, rfl, ?_⟩
    by_cases hcancelled : s.isCancelled taskId
    · rw [TaskChange.unlessCancelled, if_pos hcancelled]
      exact ⟨rfl, fun _ => rfl⟩
    · rw [TaskChange.unlessCancelled, if_neg hcancelled]
      refine ⟨?_, fun h => absurd h hcancelled⟩
      change isLive (record.returned result).1.status = false
      rw [hreported]
      exact hmeets record hfind hcancelled hnamed

theorem Sound.recordError (hs : s.Sound) {error : PyError}
    (hfailing : s.phase taskId = .failing error) :
    (s.recordError taskId error).Sound := by
  obtain ⟨_, hseen⟩ := (hs.stands taskId).of_eq hfailing
  obtain ⟨record, hfind, -⟩ := find?_of_seen hseen
  have hended : ∀ r, Ended ((TaskChange.andThen (.unlessCancelled
      (s.isCancelled taskId) (.setStatus "FAILED"))
        (.setError error)).1 r).status (s.isCancelled taskId) := by
    intro r
    by_cases hcancelled : s.isCancelled taskId
    · rw [TaskChange.unlessCancelled, if_pos hcancelled]
      exact ⟨rfl, fun _ => rfl⟩
    · rw [TaskChange.unlessCancelled, if_neg hcancelled]
      exact ⟨rfl, fun h => absurd h hcancelled⟩
  refine hs.modify (fun r _ h => ?_) ?_
  · rw [(hended r).1] at h
    cases h
  · rw [hfind]
    exact ⟨_, rfl, hended record⟩

theorem spares_dropToken : Spares taskId s (s.dropToken taskId) :=
  ⟨fun _ _ => rfl, fun id hid => by simp [dropToken, hid],
    fun _ _ => Iff.rfl, fun _ _ => rfl⟩

theorem Sound.cleanUp (hs : s.Sound) {save : Save}
    (hcleaning : s.phase taskId = .cleaning) :
    (s.cleanUp taskId save).Sound := by
  obtain ⟨_, hseen, hended⟩ := (hs.stands taskId).of_eq hcleaning
  obtain ⟨record, hfind, hstatus, -⟩ := find?_of_seen hseen
  have hspares := spares_dropToken.trans
    (@spares_modify (s.dropToken taskId) taskId .clearActions)
  have hcleared := @seen_modify_self (s.dropToken taskId) taskId .clearActions
  have hcount := @liveCount_modify_le_of_same (s.dropToken taskId) taskId
    .clearActions fun _ => rfl
  have hbounded := hcount.trans hs.bounded
  have hcancelled : ((s.dropToken taskId).modify taskId
      .clearActions).cancelled = s.cancelled := rfl
  rw [show (s.dropToken taskId).records.find? taskId = some record from hfind]
    at hcleared
  rw [← hstatus, isCancelled, ← hcancelled] at hended
  unfold Tasks.cleanUp
  generalize (s.dropToken taskId).modify taskId .clearActions = cleared at *
  dsimp only
  split
  · refine hs.of_spares (hspares.trans (spares_modify.trans spares_setPhase))
      ?_ ((liveCount_modify_le_of_same fun _ => rfl).trans hbounded)
    rw [Stands, phase_setPhase, seen_setPhase]
    exact ⟨_, (seen_update fun _ => ⟨rfl, rfl⟩).trans hcleared, hended, rfl⟩
  · refine hs.of_spares (hspares.trans (spares_saved.trans spares_setPhase))
      ?_ (liveCount_saved_le.trans hbounded)
    rw [Stands, phase_setPhase, seen_setPhase, seen_saved]
    refine ⟨_, hcleared, ?_, rfl⟩
    change Ended _ (taskId ∈ (Tasks.saved _ _).cancelled)
    rw [cancelled_saved]
    exact hended

theorem Sound.work (hs : s.Sound) {step : WorkerStep}
    (hmeets : s.Meets (.work taskId step)) :
    (s.work taskId step).Sound := by
  have hstands := @Stands.of_eq s taskId (hs.stands taskId)
  unfold Tasks.work
  split
  · rename_i hphase
    obtain ⟨_, hseen, hlive⟩ := hstands hphase
    obtain ⟨record, hfind, hstatus, -⟩ := find?_of_seen hseen
    refine hs.modify (fun r hr _ => ?_) ?_
    · rw [← Option.some.inj (hfind.symm.trans hr), hstatus]
      exact hlive
    · rw [hfind]
      exact ⟨_, rfl, rfl⟩
  · rename_i hphase
    obtain ⟨r, hseen, hlive⟩ := hstands hphase
    refine hs.setPhase ?_
    by_cases hcancelled : s.isCancelled taskId
    · rw [if_pos hcancelled]
      exact ⟨r, hseen, hcancelled⟩
    · rw [if_neg hcancelled]
      exact ⟨r, hseen, hlive⟩
  · rename_i hphase
    obtain ⟨_, hseen, -⟩ := hstands hphase
    obtain ⟨record, hfind, -⟩ := find?_of_seen hseen
    refine hs.modify (fun r _ h => by cases h) ?_
    rw [hfind]
    exact ⟨_, rfl, rfl, fun _ => rfl⟩
  · rename_i hphase
    obtain ⟨r, hseen, hlive⟩ := hstands hphase
    exact hs.setPhase ⟨r, hseen, hlive⟩
  · rename_i hphase
    obtain ⟨r, hseen, -⟩ := hstands hphase
    exact hs.setPhase ⟨r, hseen⟩
  · rename_i hphase
    refine hs.of_spares spares_modify ?_
      ((liveCount_modify_le_of_same fun _ => rfl).trans hs.bounded)
    have hsame := hs.stands taskId
    rwa [Stands, ← @seen_update s taskId (.setJob _) _ fun _ => ⟨rfl, rfl⟩]
      at hsame
  · rename_i hphase
    exact hs.finish hphase hmeets
  · rename_i hphase
    obtain ⟨r, hseen, -⟩ := hstands hphase
    exact hs.setPhase ⟨r, hseen⟩
  · rename_i hphase
    exact hs.recordError hphase
  · rename_i hphase
    have hclosing := hstands hphase
    exact hs.setPhase hclosing
  · cases hmeets
  · rename_i hphase
    exact hs.cleanUp hphase
  · exact hs

theorem Sound.step (hs : s.Sound) {move : TaskMove} (hmeets : s.Meets move) :
    (s.step move).Sound := by
  cases move with
  | admitTask taskId caseId kind cancellable save =>
      rw [Tasks.step]
      split
      · rename_i hunused hnone
        exact hs.admitTask hunused hnone
      · exact hs
  | submit taskId accepted save =>
      rw [Tasks.step]
      split
      · rename_i hadmitted
        exact hs.submit hadmitted
      · exact hs
  | cancel caseId taskId => exact hs.cancel hmeets
  | work taskId step => exact hs.work hmeets

end Steps

theorem sound_opened (receipts : Table TaskRecord.taskId) :
    (opened receipts).Sound := by
  have hfinal : ∀ r : TaskRecord, isLive (if isLive r.status then
      .str "INTERRUPTED" else r.status) = false := by
    intro r
    split
    · rfl
    · rename_i hlive
      exact Bool.eq_false_of_not_eq_true hlive
  refine ⟨fun taskId => ⟨List.not_mem_nil, List.not_mem_nil, ?_⟩, ?_⟩
  · intro r hr
    obtain ⟨record, hfind, -, hactions⟩ := find?_of_seen hr
    have hmem := (Table.find?_eq_some_iff.mp hfind).1
    obtain ⟨receipt, -, rfl⟩ := List.mem_map.mp hmem
    exact hactions.symm
  · refine le_of_eq_of_le (List.countP_eq_zero.mpr ?_) (Nat.zero_le 16)
    intro record hmem
    obtain ⟨receipt, -, rfl⟩ := List.mem_map.mp hmem
    exact Bool.eq_false_iff.mp (hfinal receipt)

/-- The life cycle of tasks: a worker that has finished has left the queue, a
cancelled task ends cancelled, the queue holds at most 16, and a start that
raised leaves nothing. -/
structure LifeCycle (s : Tasks) : Prop where
  finished : ∀ taskId, s.phase taskId = .finished →
    ∃ record, s.records.find? taskId = some record ∧
      isLive record.status = false ∧ record.actions = [] ∧
      (s.isCancelled taskId → record.status = .str "CANCELLED")
  bounded : s.liveCount ≤ 16
  rejected : ∀ taskId, s.phase taskId = .rejected →
    s.records.find? taskId = none ∧ taskId ∉ s.tokens

theorem Sound.lifeCycle {s : Tasks} (hs : s.Sound) : s.LifeCycle := by
  refine ⟨fun taskId hfinished => ?_, hs.bounded, fun taskId hrejected => ?_⟩
  · obtain ⟨_, hseen, ⟨hlive, hcancelled⟩, hactions⟩ :=
      (hs.stands taskId).of_eq hfinished
    obtain ⟨record, hfind, hstatus, hsame⟩ := find?_of_seen hseen
    rw [← hstatus] at hlive hcancelled
    exact ⟨record, hfind, hlive, hsame.trans hactions, hcancelled⟩
  · obtain ⟨hseen, htoken⟩ := (hs.stands taskId).of_eq hrejected
    exact ⟨Option.map_eq_none_iff.mp hseen, htoken⟩

/-- However tasks interleave, their life cycle is kept as long as each step
meets its condition. -/
theorem lifeCycle_holds (receipts : Table TaskRecord.taskId)
    {moves : List TaskMove}
    (hmeets : StepsMeet step Meets (opened receipts) moves) :
    (reached receipts moves).LifeCycle := by
  have hsound := @run_invariant_of_stepsMeet _ _ step Meets Sound
    (fun _ _ hs hmove => hs.step hmove) _ (sound_opened receipts) _ hmeets
  exact hsound.lifeCycle

/-! ## A cancel that comes late -/

/-- A task that runs to its end, but for the cancels in a place. -/
def taskRun (cancels : List TaskMove) : List TaskMove :=
  [.admitTask "task" "case" "ANALYSIS" true .saved, .submit "task" true .saved,
    .work "task" .begin, .work "task" .check,
    .work "task" (.buildServices none), .work "task" (.returned .null)] ++
  cancels ++
  [.work "task" (.closeServices false), .work "task" (.cleanUp .saved)]

theorem lifeCycle_holds_once :
    (reached (.empty _) (taskRun [])).LifeCycle := by
  refine lifeCycle_holds _ ⟨trivial, trivial, trivial, trivial, trivial, ?_,
    rfl, trivial, trivial⟩
  intro record hfind _ _
  cases hfind
  rfl

/-- A cancel accepted between the final status and the clean-up. -/
theorem lifeCycle_broken :
    ¬ (reached (.empty _) (taskRun [.cancel "case" "task"])).LifeCycle := by
  intro h
  obtain ⟨record, hfind, hlive, -⟩ := h.finished "task" rfl
  cases hfind
  cases hlive

end Tasks

end ApexForensic.Desktop
