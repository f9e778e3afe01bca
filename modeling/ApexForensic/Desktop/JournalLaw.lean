import ApexForensic.Desktop.Journal
import ApexForensic.Domain.Errors
import ApexForensic.Support.PyValueText

/-!
# Recovery from the journal

Loading and saving agree on a journal exactly when each record has its own id,
a kind that can be looked up in a set, and texts and a nesting that the writer
can write.  A corrupt file is put aside, and then there is nothing to agree
on.
-/

namespace ApexForensic.Desktop

open ApexForensic.Support ApexForensic.Domain

variable {n : ℕ} {item record : PyFields} {key : PyStr} {records : Records}
  {items : List PyFields}

/-! ## What a journal promises -/

/-- The record is the item after a restart: without actions, with the status
of a live task replaced, and with the defaults of what is missing. -/
structure Restarts (item record : PyFields) : Prop where
  actions : record.lookup (py "actions") = some (.list [])
  interrupted : ∀ live ∈ liveStatuses,
    item.lookup (py "status") = some (.str live) →
      record.lookup (py "status") = some (.str (py "INTERRUPTED"))
  status : (∀ live ∈ liveStatuses,
      item.lookup (py "status") ≠ some (.str live)) →
    record.lookup (py "status") = item.lookup (py "status")
  kept : ∀ key value, key ∉ [py "status", py "actions"] →
    item.lookup key = some value → record.lookup key = some value

/-- The record of a task that has ended, which the loader has room for. -/
structure Finished (P : JournalPlatform) (r : PyStr × PyFields) : Prop where
  taskId : r.2.lookup (py "task_id") = some (.str r.1)
  valid : ∀ key ∈ [py "task_id", py "case_id", py "status"],
    validField P r.2 key = true
  status : ∀ live ∈ liveStatuses,
    r.2.lookup (py "status") ≠ some (.str live)
  actions : r.2.lookup (py "actions") = some (.list [])
  present : ∀ key ∈ [py "kind", py "job", py "error"],
    (r.2.lookup key).isSome = true
  distinctKeys : (PyValue.dict r.2).DistinctKeys
  depth_le : (PyValue.dict (receipt r.2)).depth + 1 ≤ P.loadDepth

/-- Two receipts are the same mapping; the fields of their summaries may stand
in another order. -/
inductive SameReceipt : PyFields → PyFields → Prop
  | plain (fields : PyFields) : SameReceipt fields fields
  | summed (fields : PyFields) {a b : PyFields}
      (h : ∀ key, a.lookup key = b.lookup key) :
      SameReceipt (fields ++ [(py "result", .dict a)])
        (fields ++ [(py "result", .dict b)])

variable (P : JournalPlatform)

/-- What loading a journal with this content promises, together with the tasks
that come later. -/
structure JournalLaw (content : List UInt8) : Prop where
  corrupt : readJournal P content = none → ∀ putAside,
    (loadTasks P content putAside).records = [] ∧
      (putAside ≠ .refused →
        (loadTasks P content putAside).kept = some content)
  loaded : ∀ items, readJournal P content = some items → ∀ putAside,
    List.Forall₂ Restarts items
      ((loadTasks P content putAside).records.map Prod.snd)
  saves : ∀ putAside others,
    (∃ written, saveTasks P others = .ok written) →
      ∃ written, saveTasks P
        ((loadTasks P content putAside).records ++ others) = .ok written
  roundTrip : ∀ putAside others, (∀ r ∈ others, Finished P r) →
    (((loadTasks P content putAside).records ++ others).map
      Prod.fst).Nodup →
    ∀ written, saveTasks P
      ((loadTasks P content putAside).records ++ others) = .ok written →
    ∀ putAside', (loadTasks P written putAside').records =
      ((loadTasks P content putAside).records ++ others).map fun r =>
        (r.1, receipt r.2)
  saveAgain : ∀ putAside, ∀ r ∈ (loadTasks P content putAside).records,
    SameReceipt (receipt r.2) (receipt (receipt r.2))

/-- What is saved of the item after a restart can be written. -/
structure Savable (item : PyFields) : Prop where
  hashable : ∀ kind ∈ item.lookup (py "kind"), kind.hashable = true
  encodable : (PyValue.dict (receipt (restarted item))).encodable = true
  depth_le : (PyValue.dict (receipt (restarted item))).depth + 1 ≤ P.dumpDepth

variable {P}

/-! ## Records after a restart -/

theorem isText_iff {text : PyStr} {v : PyValue} :
    isText text v = true ↔ v = .str text := by
  cases v <;> simp [isText]

theorem any_live_iff {status : Option PyValue} :
    (status.any fun status => liveStatuses.any fun live =>
        isText live status) = true ↔
      ∃ live ∈ liveStatuses, status = some (.str live) := by
  cases status with
  | none => simp
  | some status =>
      rw [Option.any_some, List.any_eq_true]
      simp only [isText_iff, Option.some.injEq]

theorem lookup_interrupted_of_ne (h : key ≠ py "status") :
    (interrupted item).lookup key = item.lookup key := by
  rw [interrupted]
  split_ifs
  · rw [lookup_setField, if_neg h]
  · rfl

theorem lookup_restarted_of_ne
    (h : key ∉ [py "error", py "job", py "kind", py "actions"]) :
    (restarted item).lookup key = (interrupted item).lookup key := by
  simp only [List.mem_cons, List.not_mem_nil, or_false, not_or] at h
  rw [restarted, lookup_setDefaultField, if_neg h.1, lookup_setDefaultField,
    if_neg h.2.1, lookup_setDefaultField, if_neg h.2.2.1, lookup_setField,
    if_neg h.2.2.2]

theorem lookup_restarted_actions (item : PyFields) :
    (restarted item).lookup (py "actions") = some (.list []) := by
  rw [restarted, lookup_setDefaultField, if_neg (by decide),
    lookup_setDefaultField, if_neg (by decide), lookup_setDefaultField,
    if_neg (by decide), lookup_setField, if_pos rfl]

theorem lookup_restarted_kind (item : PyFields) :
    (restarted item).lookup (py "kind") =
      some ((item.lookup (py "kind")).getD (.str (py "UNKNOWN"))) := by
  rw [restarted, lookup_setDefaultField, if_neg (by decide),
    lookup_setDefaultField, if_neg (by decide), lookup_setDefaultField,
    if_pos rfl, lookup_setField, if_neg (by decide),
    lookup_interrupted_of_ne (by decide)]

theorem exists_default_restarted (item : PyFields)
    (h : key ∈ [py "kind", py "job", py "error"]) :
    ∃ fallback, (restarted item).lookup key =
      some ((item.lookup key).getD fallback) := by
  simp only [List.mem_cons, List.not_mem_nil, or_false] at h
  rcases h with rfl | rfl | rfl
  · exact ⟨.str (py "UNKNOWN"), lookup_restarted_kind item⟩
  · refine ⟨.null, ?_⟩
    rw [restarted, lookup_setDefaultField, if_neg (by decide),
      lookup_setDefaultField, if_pos rfl, lookup_setDefaultField,
      if_neg (by decide), lookup_setField, if_neg (by decide),
      lookup_interrupted_of_ne (by decide)]
  · refine ⟨.null, ?_⟩
    rw [restarted, lookup_setDefaultField, if_pos rfl, lookup_setDefaultField,
      if_neg (by decide), lookup_setDefaultField, if_neg (by decide),
      lookup_setField, if_neg (by decide),
      lookup_interrupted_of_ne (by decide)]

theorem lookup_restarted_status (item : PyFields) :
    (restarted item).lookup (py "status") =
      (interrupted item).lookup (py "status") :=
  lookup_restarted_of_ne (by decide)

theorem restarts_restarted (item : PyFields) :
    Restarts item (restarted item) where
  actions := lookup_restarted_actions item
  interrupted live hlive hstatus := by
    rw [lookup_restarted_status, interrupted,
      if_pos (any_live_iff.mpr ⟨live, hlive, hstatus⟩), lookup_setField,
      if_pos rfl]
  status hstatus := by
    rw [lookup_restarted_status, interrupted, if_neg]
    rw [any_live_iff]
    exact fun ⟨live, hlive, h⟩ => hstatus live hlive h
  kept key value hkey hvalue := by
    simp only [List.mem_cons, List.not_mem_nil, or_false, not_or] at hkey
    by_cases hdefault : key ∈ [py "kind", py "job", py "error"]
    · obtain ⟨fallback, h⟩ := exists_default_restarted item hdefault
      rw [h, hvalue, Option.getD_some]
    · simp only [List.mem_cons, List.not_mem_nil, or_false, not_or]
        at hdefault
      rw [lookup_restarted_of_ne, lookup_interrupted_of_ne hkey.1, hvalue]
      simp [hdefault, hkey]

theorem not_live_restarted (item : PyFields) :
    ∀ live ∈ liveStatuses,
      (restarted item).lookup (py "status") ≠ some (.str live) := by
  intro live hlive h
  rw [lookup_restarted_status, interrupted] at h
  split_ifs at h with hany
  · rw [lookup_setField, if_pos rfl] at h
    cases h
    exact absurd hlive (by decide)
  · exact hany (any_live_iff.mpr ⟨live, hlive, h⟩)

theorem restarted_of_finished {r : PyFields} (hstatus : ∀ live ∈ liveStatuses,
      r.lookup (py "status") ≠ some (.str live))
    (hactions : r.lookup (py "actions") = some (.list []))
    (hpresent : ∀ key ∈ [py "kind", py "job", py "error"],
      (r.lookup key).isSome = true) : restarted r = r := by
  have hinterrupted : interrupted r = r := by
    rw [interrupted, if_neg]
    rw [any_live_iff]
    exact fun ⟨live, hlive, h⟩ => hstatus live hlive h
  rw [restarted, hinterrupted, setField_of_lookup hactions, setDefaultField,
    setDefaultField, setDefaultField, if_pos (hpresent _ (by decide)),
    if_pos (hpresent _ (by decide)), if_pos (hpresent _ (by decide))]

/-! ## Records by their ids -/

theorem length_setField {α : Type} (key : PyStr) (value : α)
    (fields : List (PyStr × α)) :
    (setField key value fields).length =
      if key ∈ fields.map Prod.fst then fields.length
      else fields.length + 1 := by
  have h := congrArg List.length (map_fst_setField key value fields)
  rw [List.length_map] at h
  rw [h]
  split_ifs <;> simp

theorem foldl_setField_of_nodup (hnodup : (items.map taskIdOf).Nodup)
    (hfresh : ∀ item ∈ items, taskIdOf item ∉ records.map Prod.fst) :
    items.foldl (fun records item =>
        setField (taskIdOf item) (restarted item) records) records =
      records ++ items.map fun item => (taskIdOf item, restarted item) := by
  induction items generalizing records with
  | nil => rw [List.foldl_nil, List.map_nil, List.append_nil]
  | cons item items ih =>
      rw [List.map_cons, List.nodup_cons] at hnodup
      rw [List.foldl_cons,
        setField_of_notMem (hfresh item List.mem_cons_self), ih hnodup.2,
        List.map_cons, List.append_assoc, List.singleton_append]
      intro item' hitem' hmem
      rw [List.map_append, List.mem_append, List.map_singleton,
        List.mem_singleton] at hmem
      rcases hmem with hmem | hmem
      · exact hfresh item' (List.mem_cons_of_mem _ hitem') hmem
      · exact hnodup.1 (List.mem_map.mpr ⟨item', hitem', hmem⟩)

theorem length_foldl_setField_le (items : List PyFields) (records : Records) :
    (items.foldl (fun records item =>
        setField (taskIdOf item) (restarted item) records) records).length ≤
      records.length + items.length := by
  induction items generalizing records with
  | nil => rfl
  | cons item items ih =>
      rw [List.foldl_cons, List.length_cons]
      refine (ih _).trans ?_
      rw [length_setField]
      split_ifs <;> omega

theorem nodup_of_length_foldl
    (h : (items.foldl (fun records item =>
        setField (taskIdOf item) (restarted item) records) records).length =
      records.length + items.length) :
    (items.map taskIdOf).Nodup ∧
      ∀ item ∈ items, taskIdOf item ∉ records.map Prod.fst := by
  induction items generalizing records with
  | nil => exact ⟨List.nodup_nil, fun _ h => nomatch h⟩
  | cons item items ih =>
      rw [List.foldl_cons, List.length_cons] at h
      have hle := length_foldl_setField_le items
        (setField (taskIdOf item) (restarted item) records)
      have hlength := length_setField (taskIdOf item) (restarted item) records
      by_cases hmem : taskIdOf item ∈ records.map Prod.fst
      · rw [if_pos hmem] at hlength
        omega
      · rw [if_neg hmem] at hlength
        obtain ⟨hnodup, hfresh⟩ := ih (h.trans (by omega))
        have hkeys : ∀ item' ∈ items, taskIdOf item' ∉ records.map Prod.fst ∧
            taskIdOf item' ≠ taskIdOf item := by
          intro item' hitem'
          have h := hfresh item' hitem'
          rw [map_fst_setField, if_neg hmem, List.mem_append,
            List.mem_singleton, not_or] at h
          exact h
        rw [List.map_cons, List.nodup_cons]
        refine ⟨⟨fun hitem => ?_, hnodup⟩, fun item' hitem' => ?_⟩
        · obtain ⟨item', hitem', heq⟩ := List.mem_map.mp hitem
          exact (hkeys item' hitem').2 heq
        · rcases List.mem_cons.mp hitem' with rfl | hitem'
          · exact hmem
          · exact (hkeys item' hitem').1

section Loading

variable {content : List UInt8} {items : List PyFields}

theorem records_loadTasks (h : readJournal P content = some items)
    (putAside : PutAside) :
    (loadTasks P content putAside).records = items.foldl (fun records item =>
      setField (taskIdOf item) (restarted item) records) [] := by
  rw [loadTasks, h]

theorem records_loadTasks_of_nodup (h : readJournal P content = some items)
    (hnodup : (items.map taskIdOf).Nodup) (putAside : PutAside) :
    (loadTasks P content putAside).records =
      items.map fun item => (taskIdOf item, restarted item) := by
  have hfresh : ∀ item ∈ items,
      taskIdOf item ∉ ([] : Records).map Prod.fst :=
    fun _ _ => List.not_mem_nil
  rw [records_loadTasks h, foldl_setField_of_nodup hnodup hfresh,
    List.nil_append]

variable (P) in
/-- The item passes the checks of the loader. -/
def ValidItem (item : PyFields) : Prop :=
  ∀ key ∈ [py "task_id", py "case_id", py "status"],
    validField P item key = true

theorem validItem?_eq_some_iff {v : PyValue} :
    validItem? P v = some item ↔ v = .dict item ∧ ValidItem P item := by
  cases v with
  | dict fields =>
      rw [validItem?, PyValue.dict.injEq, ValidItem, ← List.all_eq_true]
      split_ifs with h
      · rw [Option.some.injEq]
        exact ⟨fun heq => ⟨heq, heq ▸ h⟩, fun heq => heq.1⟩
      · exact iff_of_false (fun heq => nomatch heq) fun heq =>
          h (heq.1 ▸ heq.2)
  | _ => simp [validItem?]

theorem mapM_validItem_eq_some_iff {values : List PyValue} :
    values.mapM (validItem? P) = some items ↔
      values = items.map .dict ∧ ∀ item ∈ items, ValidItem P item := by
  induction values generalizing items with
  | nil =>
      rw [List.mapM_nil]
      cases items <;> simp
  | cons v values ih =>
      rw [List.mapM_cons]
      constructor
      · intro h
        obtain ⟨item, hitem, h⟩ := Option.bind_eq_some_iff.mp h
        obtain ⟨rest, hrest, h⟩ := Option.bind_eq_some_iff.mp h
        obtain rfl := Option.some.inj h
        obtain ⟨rfl, hvalid⟩ := validItem?_eq_some_iff.mp hitem
        obtain ⟨rfl, hall⟩ := ih.mp hrest
        exact ⟨rfl, List.forall_mem_cons.mpr ⟨hvalid, hall⟩⟩
      · rintro ⟨heq, hall⟩
        cases items with
        | nil => cases heq
        | cons item items =>
            obtain ⟨rfl, rfl⟩ := List.cons.inj heq
            rw [List.forall_mem_cons] at hall
            rw [validItem?_eq_some_iff.mpr ⟨rfl, hall.1⟩]
            rw [ih.mpr ⟨rfl, hall.2⟩]
            rfl

/-- The records of a readable journal are the mappings in its list, and each
passed the checks. -/
theorem readJournal_eq_some_iff :
    readJournal P content = some items ↔
      P.loads content = some (.list (items.map .dict)) ∧
        ∀ item ∈ items, ValidItem P item := by
  rw [readJournal]
  cases hloads : P.loads content with
  | none => simp
  | some v =>
      cases v with
      | list values =>
          dsimp only
          rw [mapM_validItem_eq_some_iff, Option.some.injEq, PyValue.list.injEq]
      | _ => simp

end Loading

/-! ## Receipts -/

theorem lookup_savedFields (h : key ∉ [py "result", py "receipt_error"]) :
    (savedFields record).lookup key = record.lookup key := by
  rw [savedFields, lookup_filter_key
    (fun k => k ∉ [py "result", py "receipt_error"]), if_pos (by simpa using h)]

theorem savedFields_append_result (record : PyFields) (v : PyValue) :
    savedFields (savedFields record ++ [(py "result", v)]) =
      savedFields record := by
  have hresult : savedFields [(py "result", v)] = [] := rfl
  have happend : ∀ a b : PyFields,
      savedFields (a ++ b) = savedFields a ++ savedFields b :=
    fun a b => List.filter_append a b
  rw [happend, hresult, List.append_nil, savedFields, savedFields,
    List.filter_filter]
  simp

theorem savedFields_savedFields (record : PyFields) :
    savedFields (savedFields record) = savedFields record := by
  rw [savedFields, savedFields, List.filter_filter]
  simp

/-- A receipt has the saved fields, and a summary where there is a result of
a kind that is summed up. -/
theorem receipt_cases (record : PyFields) :
    (∃ kind result, record.lookup (py "kind") = some (.str kind) ∧
        kind ∈ resultKinds ∧
        record.lookup (py "result") = some (.dict result) ∧
        receipt record = savedFields record ++
          [(py "result", .dict (summary result))]) ∨
      receipt record = savedFields record ∧
        ∀ kind ∈ resultKinds, ∀ result,
          record.lookup (py "kind") = some (.str kind) →
            record.lookup (py "result") ≠ some (.dict result) := by
  rw [receipt]
  split
  · rename_i kind result hkind hresult
    split_ifs with hmem
    · exact Or.inl ⟨kind, result, hkind, hmem, hresult, rfl⟩
    · refine Or.inr ⟨rfl, fun kind' hmem' _ hkind' _ => ?_⟩
      rw [hkind] at hkind'
      cases hkind'
      exact hmem hmem'
  · rename_i hnone
    exact Or.inr ⟨rfl, fun kind _ result hkind hresult =>
      hnone kind result hkind hresult⟩

theorem lookup_receipt (h : key ∉ [py "result", py "receipt_error"]) :
    (receipt record).lookup key = record.lookup key := by
  have hne : key ≠ py "result" := fun heq => h (heq ▸ List.mem_cons_self)
  rcases receipt_cases record with ⟨kind, result, -, -, -, hreceipt⟩ |
    ⟨hreceipt, -⟩
  · rw [hreceipt, List.lookup_append, lookup_savedFields h, lookup_field,
      if_neg hne, List.lookup_nil, Option.or_none]
  · rw [hreceipt, lookup_savedFields h]

theorem lookup_summary (result : PyFields) (key : PyStr) :
    (summary result).lookup key =
      if key = py "candidate_count" then
        match result.lookup (py "candidates") with
        | some (.list candidates) => some (.int candidates.length)
        | _ => result.lookup key
      else if key ∈ summaryKeys then result.lookup key else none := by
  have hcount : py "candidate_count" ∈ summaryKeys := by decide +kernel
  fun_cases summary result with
  | case1 _ candidates hcandidates =>
    rw [lookup_setField, lookup_pickFields, hcandidates]
  | case2 _ hnone =>
    rw [lookup_pickFields]
    by_cases hkey : key = py "candidate_count"
    · rw [hkey, if_pos hcount, if_pos rfl]
      split
      · rename_i candidates hcandidates
        exact absurd hcandidates (hnone candidates)
      · rfl
    · rw [if_neg hkey]

theorem lookup_summary_summary (result : PyFields) (key : PyStr) :
    (summary (summary result)).lookup key = (summary result).lookup key := by
  have hcandidates : (summary result).lookup (py "candidates") = none := by
    rw [lookup_summary, if_neg (by decide), if_neg (by decide +kernel)]
  have hsummary := lookup_summary (summary result) key
  rw [hcandidates] at hsummary
  rw [hsummary]
  by_cases hkey : key = py "candidate_count"
  · rw [if_pos hkey]
  · rw [if_neg hkey]
    split_ifs with hmem
    · rfl
    · rw [lookup_summary, if_neg hkey, if_neg hmem]

theorem sameReceipt_receipt (record : PyFields) :
    SameReceipt (receipt record) (receipt (receipt record)) := by
  have hkind : (receipt record).lookup (py "kind") =
      record.lookup (py "kind") := lookup_receipt (by decide)
  rcases receipt_cases record with
    ⟨kind, result, hrecord, hmem, hresult, hreceipt⟩ | ⟨hreceipt, hplain⟩
  · have hagain : receipt (receipt record) = savedFields record ++
        [(py "result", .dict (summary (summary result)))] := by
      have hsummed : (receipt record).lookup (py "result") =
          some (.dict (summary result)) := by
        have hnone : (savedFields record).lookup (py "result") = none := by
          rw [savedFields, lookup_filter_key
            (fun k => k ∉ [py "result", py "receipt_error"])]
          exact if_neg (by decide)
        rw [hreceipt, List.lookup_append, hnone, Option.none_or, lookup_field,
          if_pos rfl]
      rw [receipt, hkind, hrecord, hsummed]
      dsimp only
      rw [if_pos hmem, hreceipt, savedFields_append_result]
    rw [hagain, hreceipt]
    exact .summed _ fun key => (lookup_summary_summary result key).symm
  · have hagain : receipt (receipt record) = receipt record := by
      have hnone : (receipt record).lookup (py "result") = none := by
        rw [hreceipt, savedFields, lookup_filter_key
          (fun k => k ∉ [py "result", py "receipt_error"])]
        exact if_neg (by decide)
      rcases receipt_cases (receipt record) with ⟨_, _, _, _, h, _⟩ | ⟨h, -⟩
      · rw [hnone] at h
        cases h
      · rw [h, hreceipt, savedFields_savedFields]
    rw [hagain]
    exact .plain _

/-! ## Saving -/

variable (P) in
/-- `_save` can write the receipt of the record. -/
structure Writable (record : PyFields) : Prop where
  hashable : ∃ kind, record.lookup (py "kind") = some kind ∧
    kind.hashable = true
  encodable : (PyValue.dict (receipt record)).encodable = true
  depth_le : (PyValue.dict (receipt record)).depth + 1 ≤ P.dumpDepth

theorem receiptOf_eq_ok_iff {fields : PyFields} :
    receiptOf record = .ok fields ↔
      (∃ kind, record.lookup (py "kind") = some kind ∧
        kind.hashable = true) ∧ fields = receipt record := by
  rw [receiptOf]
  cases record.lookup (py "kind") with
  | none =>
      exact iff_of_false (fun h => nomatch h) fun ⟨⟨_, h, _⟩, _⟩ => nomatch h
  | some kind =>
      dsimp only
      split_ifs with h
      · rw [Except.ok.injEq, eq_comm]
        exact ⟨fun heq => ⟨⟨kind, rfl, h⟩, heq⟩, fun heq => heq.2⟩
      · refine iff_of_false (fun h => nomatch h) fun ⟨⟨_, hkind, hh⟩, _⟩ => ?_
        exact h (Option.some.inj hkind ▸ hh)

theorem mapM_receiptOf_eq_ok_iff {receipts : List PyFields} :
    (records.mapM fun r => receiptOf r.2) = .ok receipts ↔
      (∀ r ∈ records, ∃ kind, r.2.lookup (py "kind") = some kind ∧
        kind.hashable = true) ∧
      receipts = records.map fun r => receipt r.2 := by
  rw [mapM_eq_ok_iff]
  simp only [receiptOf_eq_ok_iff]
  induction records generalizing receipts with
  | nil => simp
  | cons r records ih =>
      rw [List.forall₂_cons_left_iff, List.forall_mem_cons, List.map_cons]
      constructor
      · rintro ⟨fields, rest, ⟨hkind, rfl⟩, hrest, rfl⟩
        obtain ⟨hall, rfl⟩ := ih.mp hrest
        exact ⟨⟨hkind, hall⟩, rfl⟩
      · rintro ⟨⟨hkind, hall⟩, rfl⟩
        exact ⟨_, _, ⟨hkind, rfl⟩, ih.mpr ⟨hall, rfl⟩, rfl⟩

def receiptDocument (records : Records) : PyValue :=
  .list (records.map fun r => .dict (receipt r.2))

theorem writeReceipts_eq_ok_iff {receipts : List PyFields}
    {written : List UInt8} :
    writeReceipts P receipts = .ok written ↔
      ((PyValue.list (receipts.map .dict)).depth ≤ P.dumpDepth ∧
        (PyValue.list (receipts.map .dict)).encodable = true) ∧
      written = P.document (.list (receipts.map .dict)) := by
  rw [writeReceipts]
  split_ifs with hdepth hencodable
  · exact iff_of_false (fun h => nomatch h) fun h =>
      absurd h.1.1 (Nat.not_le.mpr hdepth)
  · rw [Except.ok.injEq, eq_comm]
    exact ⟨fun h => ⟨⟨Nat.not_lt.mp hdepth, hencodable⟩, h⟩, fun h => h.2⟩
  · exact iff_of_false (fun h => nomatch h) fun h => hencodable h.1.2

theorem saveTasks_eq_ok_iff {written : List UInt8} :
    saveTasks P records = .ok written ↔ (∀ r ∈ records, Writable P r.2) ∧
      written = P.document (receiptDocument records) := by
  have hroom : ∃ n, P.dumpDepth = n + 1 :=
    ⟨P.dumpDepth - 1, by have := P.three_le_dumpDepth; omega⟩
  obtain ⟨n, hn⟩ := hroom
  have hvalues : (records.map fun r => receipt r.2).map PyValue.dict =
      records.map fun r => .dict (receipt r.2) := by
    rw [List.map_map]
    rfl
  rw [saveTasks, bind_eq_ok_iff]
  simp only [mapM_receiptOf_eq_ok_iff, and_assoc, exists_and_left,
    exists_eq_left, writeReceipts_eq_ok_iff, hvalues, receiptDocument]
  rw [hn, PyValue.depth_list_le_iff, PyValue.encodable_list_iff]
  constructor
  · rintro ⟨hkinds, hdepth, hencodable, hwritten⟩
    refine ⟨fun r hr => ⟨hkinds r hr, ?_, ?_⟩, hwritten⟩
    · exact hencodable _ (List.mem_map_of_mem hr)
    · have hle := hdepth _ (List.mem_map_of_mem hr)
      omega
  · rintro ⟨hwritable, hwritten⟩
    refine ⟨fun r hr => (hwritable r hr).hashable, fun v hv => ?_,
      fun v hv => ?_, hwritten⟩
    · obtain ⟨r, hr, rfl⟩ := List.mem_map.mp hv
      have hle := (hwritable r hr).depth_le
      omega
    · obtain ⟨r, hr, rfl⟩ := List.mem_map.mp hv
      exact (hwritable r hr).encodable

/-! ## The shape of receipts -/

theorem mem_savedFields {f : PyStr × PyValue} (h : f ∈ savedFields record) :
    f ∈ record :=
  List.mem_of_mem_filter h

theorem distinctKeys_summary {result : PyFields}
    (h : (PyValue.dict result).DistinctKeys) :
    (PyValue.dict (summary result)).DistinctKeys := by
  have hnodup : summaryKeys.Nodup := by decide +kernel
  have hvalues := (PyValue.distinctKeys_dict_iff.mp h).2
  rw [PyValue.distinctKeys_dict_iff, summary]
  split
  · refine ⟨nodup_setField (nodup_pickFields hnodup), fun f hf => ?_⟩
    rcases mem_setField hf with rfl | hf
    · trivial
    · exact hvalues f (mem_pickFields hf).2
  · exact ⟨nodup_pickFields hnodup, fun f hf =>
      hvalues f (mem_pickFields hf).2⟩

theorem distinctKeys_receipt (h : (PyValue.dict record).DistinctKeys) :
    (PyValue.dict (receipt record)).DistinctKeys := by
  obtain ⟨hnodup, hvalues⟩ := PyValue.distinctKeys_dict_iff.mp h
  have hsaved : ((savedFields record).map Prod.fst).Nodup :=
    (List.filter_sublist.map Prod.fst).nodup hnodup
  have hsavedValues : ∀ f ∈ savedFields record, f.2.DistinctKeys :=
    fun f hf => hvalues f (mem_savedFields hf)
  rw [PyValue.distinctKeys_dict_iff]
  rcases receipt_cases record with ⟨kind, result, -, -, hresult, hreceipt⟩ |
    ⟨hreceipt, -⟩
  · have hfresh : py "result" ∉ (savedFields record).map Prod.fst := by
      intro hmem
      obtain ⟨f, hf, heq⟩ := List.mem_map.mp hmem
      have hkey := (List.mem_filter.mp hf).2
      rw [heq] at hkey
      exact absurd hkey (by decide)
    rw [hreceipt, List.map_append]
    refine ⟨hsaved.append (List.nodup_singleton _)
      (List.disjoint_singleton.mpr hfresh), fun f hf => ?_⟩
    rcases List.mem_append.mp hf with hf | hf
    · exact hsavedValues f hf
    · obtain rfl := List.mem_singleton.mp hf
      exact distinctKeys_summary (hvalues _ (mem_of_lookup hresult))
  · rw [hreceipt]
    exact ⟨hsaved, hsavedValues⟩

theorem depth_summary_le {result : PyFields}
    (h : (PyValue.dict result).depth ≤ n + 1) :
    (PyValue.dict (summary result)).depth ≤ n + 1 := by
  rw [PyValue.depth_dict_le_iff] at h ⊢
  intro f hf
  rw [summary] at hf
  split at hf
  · rcases mem_setField hf with rfl | hf
    · exact Nat.zero_le n
    · exact h f (mem_pickFields hf).2
  · exact h f (mem_pickFields hf).2

theorem depth_receipt_le (h : (PyValue.dict record).depth ≤ n + 1) :
    (PyValue.dict (receipt record)).depth ≤ n + 1 := by
  rw [PyValue.depth_dict_le_iff] at h ⊢
  intro f hf
  rcases receipt_cases record with ⟨kind, result, -, -, hresult, hreceipt⟩ |
    ⟨hreceipt, -⟩
  · rw [hreceipt] at hf
    rcases List.mem_append.mp hf with hf | hf
    · exact h f (mem_savedFields hf)
    · obtain rfl := List.mem_singleton.mp hf
      have hdepth : (PyValue.dict result).depth ≤ n :=
        h _ (mem_of_lookup hresult)
      cases n with
      | zero => exact absurd hdepth (by simp [PyValue.depth])
      | succ n => exact depth_summary_le hdepth
  · rw [hreceipt] at hf
    exact h f (mem_savedFields hf)

theorem mem_restarted {f : PyStr × PyValue} (h : f ∈ restarted item) :
    f ∈ item ∨ f.2.depth ≤ 1 ∧ f.2.DistinctKeys := by
  have hempty : (PyValue.list []).depth ≤ 1 ∧
      (PyValue.list []).DistinctKeys := by
    simp [PyValue.depth, PyValue.itemsDepth, PyValue.DistinctKeys,
      PyValue.ItemsDistinct]
  have hscalar : (∀ s, (PyValue.str s).depth ≤ 1 ∧
      (PyValue.str s).DistinctKeys) ∧
      PyValue.null.depth ≤ 1 ∧ PyValue.null.DistinctKeys := by
    simp [PyValue.depth, PyValue.DistinctKeys]
  rcases mem_setDefaultField h with rfl | h
  · exact Or.inr hscalar.2
  rcases mem_setDefaultField h with rfl | h
  · exact Or.inr hscalar.2
  rcases mem_setDefaultField h with rfl | h
  · exact Or.inr (hscalar.1 _)
  rcases mem_setField h with rfl | h
  · exact Or.inr hempty
  rw [interrupted] at h
  split_ifs at h
  · rcases mem_setField h with rfl | h
    · exact Or.inr (hscalar.1 _)
    · exact Or.inl h
  · exact Or.inl h

theorem distinctKeys_restarted (h : (PyValue.dict item).DistinctKeys) :
    (PyValue.dict (restarted item)).DistinctKeys := by
  obtain ⟨hnodup, hvalues⟩ := PyValue.distinctKeys_dict_iff.mp h
  refine PyValue.distinctKeys_dict_iff.mpr ⟨?_, fun f hf =>
    (mem_restarted hf).elim (hvalues f) fun h => h.2⟩
  refine nodup_setDefaultField (nodup_setDefaultField (nodup_setDefaultField
    (nodup_setField ?_)))
  rw [interrupted]
  split_ifs
  · exact nodup_setField hnodup
  · exact hnodup

theorem depth_restarted_le (hn : 1 ≤ n) (h : (PyValue.dict item).depth ≤ n + 1)
    : (PyValue.dict (restarted item)).depth ≤ n + 1 := by
  rw [PyValue.depth_dict_le_iff] at h ⊢
  exact fun f hf => (mem_restarted hf).elim (h f) fun hf => hf.1.trans hn

theorem validField_congr {record' : PyFields}
    (h : record.lookup key = record'.lookup key) :
    validField P record key = validField P record' key := by
  rw [validField, validField, h]

theorem lookup_task_id (h : ValidItem P item) :
    item.lookup (py "task_id") = some (.str (taskIdOf item)) := by
  have hfield := h (py "task_id") List.mem_cons_self
  rw [validField] at hfield
  rw [taskIdOf]
  split at hfield
  · rename_i s hs
    rw [hs]
  · cases hfield

/-! ## Loading what was saved -/

theorem finished_restarted {content : List UInt8}
    (h : readJournal P content = some items) (hitem : item ∈ items) :
    Finished P (taskIdOf item, restarted item) := by
  obtain ⟨hloads, hvalid⟩ := readJournal_eq_some_iff.mp h
  have hmem : PyValue.dict item ∈ items.map PyValue.dict :=
    List.mem_map_of_mem hitem
  have hdistinct : (PyValue.dict item).DistinctKeys :=
    PyValue.distinctKeys_list_iff.mp (P.distinctKeys_of_loads hloads) _ hmem
  have hroom := P.three_le_loadDepth
  obtain ⟨n, hn⟩ : ∃ n, P.loadDepth = n + 1 + 1 := ⟨P.loadDepth - 2, by omega⟩
  have hdepth : (PyValue.dict item).depth ≤ n + 1 := by
    have hlist := P.depth_of_loads hloads
    rw [hn, PyValue.depth_list_le_iff] at hlist
    exact hlist _ hmem
  have hlookup : ∀ key, key ∉ [py "error", py "job", py "kind",
      py "actions"] → key ≠ py "status" →
        (restarted item).lookup key = item.lookup key := fun key hkey hne =>
    (lookup_restarted_of_ne hkey).trans (lookup_interrupted_of_ne hne)
  have htaskId := hlookup (py "task_id") (by decide) (by decide)
  have hcaseId := hlookup (py "case_id") (by decide) (by decide)
  constructor
  · exact htaskId.trans (lookup_task_id (hvalid item hitem))
  · intro key hkey
    have hfield := hvalid item hitem key hkey
    simp only [List.mem_cons, List.not_mem_nil, or_false] at hkey
    rcases hkey with rfl | rfl | rfl
    · rw [validField_congr htaskId, hfield]
    · rw [validField_congr hcaseId, hfield]
    · by_cases hany : (item.lookup (py "status")).any fun status =>
          liveStatuses.any fun live => isText live status
      · have hstatus : (restarted item).lookup (py "status") =
            some (.str (py "INTERRUPTED")) := by
          rw [lookup_restarted_status, interrupted, if_pos hany,
            lookup_setField, if_pos rfl]
        rw [validField, hstatus]
        simp [P.not_isBlank_interrupted]
      · have hstatus : (restarted item).lookup (py "status") =
            item.lookup (py "status") := by
          rw [lookup_restarted_status, interrupted, if_neg hany]
        rw [validField_congr hstatus, hfield]
  · exact not_live_restarted item
  · exact lookup_restarted_actions item
  · intro key hkey
    obtain ⟨fallback, hpresent⟩ := exists_default_restarted item hkey
    rw [hpresent]
    rfl
  · exact distinctKeys_restarted hdistinct
  · have hreceipt := depth_receipt_le (depth_restarted_le (by omega) hdepth)
    rw [hn]
    exact Nat.add_le_add_right hreceipt 1

theorem records_loadTasks_written (hfinished : ∀ r ∈ records, Finished P r)
    (hwritable : ∀ r ∈ records, Writable P r.2)
    (hnodup : (records.map Prod.fst).Nodup) (putAside : PutAside) :
    (loadTasks P (P.document (receiptDocument records)) putAside).records =
      records.map fun r => (r.1, receipt r.2) := by
  have hvalues : receiptDocument records =
      .list ((records.map fun r => receipt r.2).map .dict) := by
    rw [receiptDocument, List.map_map]
    rfl
  have hlookup : ∀ (record : PyFields) (key : PyStr),
      key ∈ [py "task_id", py "case_id", py "status", py "actions", py "kind",
        py "job", py "error"] →
      (receipt record).lookup key = record.lookup key := by
    have hsaved : ∀ key ∈ [py "task_id", py "case_id", py "status",
        py "actions", py "kind", py "job", py "error"],
        key ∉ [py "result", py "receipt_error"] := by
      decide
    exact fun record key hkey => lookup_receipt (hsaved key hkey)
  have hread : readJournal P (P.document (receiptDocument records)) =
      some (records.map fun r => receipt r.2) := by
    rw [readJournal_eq_some_iff]
    refine ⟨?_, fun item hitem key hkey => ?_⟩
    · rw [← hvalues]
      have hroom := P.three_le_loadDepth
      have hroom' := P.three_le_dumpDepth
      obtain ⟨n, hn⟩ : ∃ n, P.loadDepth = n + 1 := ⟨P.loadDepth - 1, by omega⟩
      obtain ⟨m, hm⟩ : ∃ m, P.dumpDepth = m + 1 := ⟨P.dumpDepth - 1, by omega⟩
      apply P.loads_document
      · exact PyValue.encodable_list_iff.mpr fun v hv => by
          obtain ⟨r, hr, rfl⟩ := List.mem_map.mp hv
          exact (hwritable r hr).encodable
      · exact PyValue.distinctKeys_list_iff.mpr fun v hv => by
          obtain ⟨r, hr, rfl⟩ := List.mem_map.mp hv
          exact distinctKeys_receipt (hfinished r hr).distinctKeys
      · rw [hn, receiptDocument, PyValue.depth_list_le_iff]
        intro v hv
        obtain ⟨r, hr, rfl⟩ := List.mem_map.mp hv
        have hle := (hfinished r hr).depth_le
        omega
      · rw [hm, receiptDocument, PyValue.depth_list_le_iff]
        intro v hv
        obtain ⟨r, hr, rfl⟩ := List.mem_map.mp hv
        have hle := (hwritable r hr).depth_le
        omega
    · obtain ⟨r, hr, rfl⟩ := List.mem_map.mp hitem
      have hmem : key ∈ [py "task_id", py "case_id", py "status",
          py "actions", py "kind", py "job", py "error"] :=
        List.mem_append_left [py "actions", py "kind", py "job", py "error"]
          hkey
      rw [validField_congr (hlookup r.2 key hmem)]
      exact (hfinished r hr).valid key hkey
  have hids : ∀ r ∈ records, taskIdOf (receipt r.2) = r.1 := by
    intro r hr
    rw [taskIdOf, hlookup r.2 _ (by decide), (hfinished r hr).taskId]
  have hsame : ∀ r ∈ records, restarted (receipt r.2) = receipt r.2 := by
    intro r hr
    have hr := hfinished r hr
    apply restarted_of_finished
    · rw [hlookup r.2 _ (by decide)]
      exact hr.status
    · rw [hlookup r.2 _ (by decide)]
      exact hr.actions
    · intro key hkey
      have hmem : key ∈ [py "task_id", py "case_id", py "status",
          py "actions", py "kind", py "job", py "error"] :=
        List.mem_append_right [py "task_id", py "case_id", py "status",
          py "actions"] hkey
      rw [hlookup r.2 key hmem]
      exact hr.present key hkey
  have hidsNodup : ((records.map fun r => receipt r.2).map taskIdOf).Nodup := by
    have hmap : (records.map fun r => receipt r.2).map taskIdOf =
        records.map Prod.fst := by
      rw [List.map_map]
      exact List.map_congr_left fun r hr => hids r hr
    rw [hmap]
    exact hnodup
  rw [records_loadTasks_of_nodup hread hidsNodup, List.map_map]
  refine List.map_congr_left fun r hr => ?_
  exact Prod.ext (hids r hr) (hsame r hr)

/-! ## The law of the journal -/

theorem writable_restarted_iff :
    Writable P (restarted item) ↔ Savable P item := by
  constructor
  · rintro ⟨⟨kind, hkind, hhashable⟩, hencodable, hdepth⟩
    refine ⟨fun kind' hkind' => ?_, hencodable, hdepth⟩
    rw [lookup_restarted_kind, Option.mem_def.mp hkind', Option.getD_some]
      at hkind
    rw [Option.some.inj hkind]
    exact hhashable
  · rintro ⟨hhashable, hencodable, hdepth⟩
    refine ⟨⟨_, lookup_restarted_kind item, ?_⟩, hencodable, hdepth⟩
    cases hkind : item.lookup (py "kind") with
    | none => rfl
    | some kind => exact hhashable kind hkind

section Law

variable {content : List UInt8} {items : List PyFields}

theorem records_loadTasks_of_none (h : readJournal P content = none)
    (putAside : PutAside) : (loadTasks P content putAside).records = [] := by
  rw [loadTasks, h]

theorem finished_and_writable (h : readJournal P content = some items)
    (hnodup : (items.map taskIdOf).Nodup)
    (hsavable : ∀ item ∈ items, Savable P item) (putAside : PutAside) :
    ∀ r ∈ (loadTasks P content putAside).records,
      Finished P r ∧ Writable P r.2 := by
  rw [records_loadTasks_of_nodup h hnodup]
  intro r hr
  obtain ⟨item, hitem, rfl⟩ := List.mem_map.mp hr
  exact ⟨finished_restarted h hitem,
    writable_restarted_iff.mpr (hsavable item hitem)⟩

/-- Loading and saving keep the promises of the journal exactly when each
record of a readable journal has an id of its own and can be written. -/
theorem journalLaw_iff (content : List UInt8) :
    JournalLaw P content ↔ ∀ items, readJournal P content = some items →
      (items.map taskIdOf).Nodup ∧ ∀ item ∈ items, Savable P item := by
  constructor
  · intro hlaw items hread
    have hlength := (hlaw.loaded items hread .renamed).length_eq
    rw [List.length_map, records_loadTasks hread] at hlength
    have hnodup : (items.map taskIdOf).Nodup := by
      have hkept : (items.foldl (fun records item =>
          setField (taskIdOf item) (restarted item) records)
            ([] : Records)).length =
          ([] : Records).length + items.length := by
        rw [List.length_nil, Nat.zero_add]
        exact hlength.symm
      exact (nodup_of_length_foldl hkept).1
    refine ⟨hnodup, fun item hitem => ?_⟩
    have hempty : saveTasks P [] = .ok (P.document (receiptDocument [])) :=
      saveTasks_eq_ok_iff.mpr ⟨fun _ h => absurd h List.not_mem_nil, rfl⟩
    obtain ⟨written, hwritten⟩ := hlaw.saves .renamed [] ⟨_, hempty⟩
    rw [List.append_nil, records_loadTasks_of_nodup hread hnodup,
      saveTasks_eq_ok_iff] at hwritten
    exact writable_restarted_iff.mp
      (hwritten.1 (taskIdOf item, restarted item) (List.mem_map_of_mem hitem))
  · intro h
    have hrecords : ∀ putAside, ∀ r ∈ (loadTasks P content putAside).records,
        Finished P r ∧ Writable P r.2 := by
      cases hread : readJournal P content with
      | none =>
          intro putAside r hr
          rw [records_loadTasks_of_none hread] at hr
          cases hr
      | some items =>
          obtain ⟨hnodup, hsavable⟩ := h items hread
          exact finished_and_writable hread hnodup hsavable
    constructor
    · intro hread putAside
      refine ⟨records_loadTasks_of_none hread putAside, fun hrefused => ?_⟩
      rw [loadTasks, hread]
      exact if_neg hrefused
    · intro items hread putAside
      rw [records_loadTasks_of_nodup hread (h items hread).1, List.map_map,
        List.forall₂_map_right_iff, List.forall₂_same]
      exact fun item _ => restarts_restarted item
    · rintro putAside others ⟨written, hwritten⟩
      refine ⟨_, saveTasks_eq_ok_iff.mpr ⟨fun r hr => ?_, rfl⟩⟩
      rcases List.mem_append.mp hr with hr | hr
      · exact (hrecords putAside r hr).2
      · exact (saveTasks_eq_ok_iff.mp hwritten).1 r hr
    · intro putAside others hfinished hnodup written hwritten putAside'
      obtain ⟨hwritable, rfl⟩ := saveTasks_eq_ok_iff.mp hwritten
      refine records_loadTasks_written (fun r hr => ?_) hwritable hnodup
        putAside'
      rcases List.mem_append.mp hr with hr | hr
      · exact (hrecords putAside r hr).1
      · exact hfinished r hr
    · exact fun putAside r _ => sameReceipt_receipt r.2

end Law

/-! ## A kind that is a list -/

/-- A platform on which the documents are the compact JSON texts. -/
noncomputable def compactJournal : JournalPlatform where
  loads content := by
    classical
    exact if h : ∃ v : PyValue, v.textBytes = content ∧ v.encodable = true ∧
        v.DistinctKeys ∧ v.depth ≤ 900 then some h.choose
      else none
  document v := v.textBytes
  isBlank s := s.all fun c => c.val ∈ [9, 10, 11, 12, 13, 32]
  loadDepth := 900
  dumpDepth := 900
  not_isBlank_interrupted := by decide
  three_le_loadDepth := by decide
  three_le_dumpDepth := by decide
  distinctKeys_of_loads {content v} hloads := by
    split_ifs at hloads with h
    rw [← Option.some.inj hloads]
    exact h.choose_spec.2.2.1
  depth_of_loads {content v} hloads := by
    split_ifs at hloads with h
    rw [← Option.some.inj hloads]
    exact h.choose_spec.2.2.2
  loads_document {v} hencodable hdistinct hdepth _ := by
    have h : ∃ w : PyValue, w.textBytes = v.textBytes ∧ w.encodable = true ∧
        w.DistinctKeys ∧ w.depth ≤ 900 :=
      ⟨v, rfl, hencodable, hdistinct, hdepth⟩
    rw [dif_pos h]
    exact congrArg some
      (PyValue.textBytes_inj h.choose_spec.2.1 hencodable h.choose_spec.1)

def listKindItem : PyFields :=
  [(py "task_id", .str (py "t")), (py "case_id", .str (py "c")),
    (py "status", .str (py "SUCCEEDED")), (py "kind", .list [])]

/-- `[{"task_id":"t","case_id":"c","status":"SUCCEEDED","kind":[]}]` -/
def listKindContent : List UInt8 :=
  (PyValue.list [.dict listKindItem]).textBytes

theorem readJournal_listKindContent :
    readJournal compactJournal listKindContent = some [listKindItem] := by
  refine readJournal_eq_some_iff.mpr ⟨?_, ?_⟩
  · have hdistinct : (PyValue.list [.dict listKindItem]).DistinctKeys := by
      rw [PyValue.distinctKeys_list_iff, List.forall_mem_singleton,
        PyValue.distinctKeys_dict_iff]
      refine ⟨by decide, ?_⟩
      simp [listKindItem, PyValue.DistinctKeys, PyValue.ItemsDistinct]
    exact compactJournal.loads_document (by decide +kernel) hdistinct
      (by decide +kernel) (by decide +kernel)
  · intro item hitem
    obtain rfl := List.mem_singleton.mp hitem
    show ∀ key ∈ [py "task_id", py "case_id", py "status"], _
    simp only [List.forall_mem_cons, List.not_mem_nil, false_imp_iff,
      implies_true, and_true]
    refine ⟨?_, ?_, ?_⟩ <;> decide +kernel

/-- The journal is loaded, and nothing can be saved any more. -/
theorem list_kind_stops_saving :
    (∀ putAside, saveTasks compactJournal
        (loadTasks compactJournal listKindContent putAside).records =
      .error .typeError) ∧
      ¬ JournalLaw compactJournal listKindContent := by
  have hsave : ∀ putAside, saveTasks compactJournal
      (loadTasks compactJournal listKindContent putAside).records =
        .error .typeError := by
    intro putAside
    rw [records_loadTasks readJournal_listKindContent]
    rfl
  refine ⟨hsave, fun hlaw => ?_⟩
  have hempty : saveTasks compactJournal [] =
      .ok (compactJournal.document (receiptDocument [])) :=
    saveTasks_eq_ok_iff.mpr
      ⟨fun _ h => absurd h List.not_mem_nil, rfl⟩
  obtain ⟨written, hwritten⟩ := hlaw.saves .renamed [] ⟨_, hempty⟩
  rw [List.append_nil, hsave] at hwritten
  cases hwritten

end ApexForensic.Desktop
