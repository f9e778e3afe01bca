import ApexForensic.Custody.Chain
import ApexForensic.Support.Run

/-!
# Interleaved writers of the custody ledger

A call of `add_event` is two steps, a read of the store and later an insert,
and the steps of any number of writers interleave freely.  A call whose read
raised, or whose insert was rejected, is finished with that error.  The
invariant says that each evidence's rows form a chain and that every event
still waiting for its insert was built on a prefix of its chain; the
uniqueness constraint then admits only an event built on the whole chain.
-/

namespace ApexForensic.Custody

open ApexForensic.Support ApexForensic.Domain

variable {d : EventData} {store : Store} {rows : List CustodyRow} {P : Platform}

variable {ι : Type*} [DecidableEq ι]

/-- The store, the events built but not yet inserted, and the results of the
calls that are over. -/
structure World (ι : Type*) where
  store : Store
  pending : ι → Option EventData
  outcomes : List (ι × Except PyError Json)

inductive Action (ι : Type*) where
  | saveCase (case : CaseRecord)
  | saveEvidence (evidence : EvidenceRecord)
  | read (writer : ι) (args : AddEventArgs) (inputs : CallInputs)
  | insert (writer : ι)

def World.initial : World ι where
  store := ⟨[], [], []⟩
  pending := fun _ => none
  outcomes := []

/-- End a call with its result. -/
def World.finish (w : World ι) (writer : ι)
    (result : Except PyError Json) : World ι :=
  { w with
    pending := Function.update w.pending writer none
    outcomes := w.outcomes ++ [(writer, result)] }

def World.step (P : Platform) (w : World ι) : Action ι → World ι
  | .saveCase case =>
      { w with store := { w.store with
          cases := case ::
            w.store.cases.filter fun c => c.caseId ≠ case.caseId } }
  | .saveEvidence evidence =>
      { w with store := { w.store with
          evidence := evidence ::
            w.store.evidence.filter fun e =>
              e.evidenceId ≠ evidence.evidenceId } }
  | .read writer args inputs =>
      match w.pending writer with
      | some _ => w
      | none =>
          match addEventRead P w.store args inputs with
          | .ok d =>
              { w with pending := Function.update w.pending writer (some d) }
          | .error e => w.finish writer (.error e)
  | .insert writer =>
      match w.pending writer with
      | none => w
      | some d =>
          match w.store.saveCustodyEvent d with
          | .ok store =>
              { w with store := store }.finish writer (.ok d.toSchemaDict)
          | .error e => w.finish writer (.error e)

/-- The world after a list of steps of any writers. -/
def exec (P : Platform) (actions : List (Action ι)) : World ι :=
  run (World.step P) World.initial actions

/-! ## What a step can do -/

theorem saveCustodyEvent_eq_ok {store' : Store}
    (h : store.saveCustodyEvent d = .ok store') :
    store' = { store with
        custodyEvents := store.custodyEvents ++ [d.toRow] } ∧
      (∀ row ∈ store.custodyEvents, row.eventId ≠ d.eventId) ∧
      (∀ row ∈ store.custodyEvents, row.evidenceId = d.evidenceId →
        row.immutableRevision ≠ d.immutableRevision) := by
  simp only [Store.saveCustodyEvent] at h
  split_ifs at h with _ hid hunique
  refine ⟨(Except.ok.inj h).symm, ?_, ?_⟩
  · intro row hrow heq
    exact hid (List.any_eq_true.mpr ⟨row, hrow, decide_eq_true heq⟩)
  · intro row hrow hevidence hrevision
    exact hunique (List.any_eq_true.mpr
      ⟨row, hrow, decide_eq_true ⟨hevidence, hrevision⟩⟩)

theorem addEventRead_eq_ok {args : AddEventArgs} {inputs : CallInputs}
    (h : addEventRead P store args inputs = .ok d) :
    ∃ head, chainHead (store.listCustodyEvents d.evidenceId) = .ok head ∧
      d.immutableRevision = head.elim 1 (fun h => h.2 + 1) ∧
      d.previousEventHash = head.map Prod.fst ∧ Hashed P d := by
  unfold addEventRead at h
  simp only [bind_eq_ok_iff] at h
  obtain ⟨evidence, -, case, -, -, -, head, hhead, offset, -, displayedAt, -,
    occurredAtUtc, -, createdAt, -, h⟩ := h
  obtain rfl := Except.ok.inj h
  exact ⟨head, hhead, rfl, rfl, hashed_withHash P _⟩

/-- A step that stores nothing: it keeps the rows, adds no returned event,
and the events waiting after it waited before or were just read. -/
structure KeepsRows (P : Platform) (w w' : World ι) : Prop where
  rows : w'.store.custodyEvents = w.store.custodyEvents
  pending : ∀ writer d, w'.pending writer = some d →
    w.pending writer = some d ∨
      ∃ args inputs, addEventRead P w.store args inputs = .ok d
  outcomes : ∀ writer data, (writer, .ok data) ∈ w'.outcomes →
    (writer, .ok data) ∈ w.outcomes

/-- A step that stores a waiting event and returns it. -/
structure Stores (w w' : World ι) (writer : ι) (d : EventData) : Prop where
  waiting : w.pending writer = some d
  saved : w.store.saveCustodyEvent d = .ok w'.store
  pending : w'.pending = Function.update w.pending writer none
  outcomes : w'.outcomes = w.outcomes ++ [(writer, .ok d.toSchemaDict)]

omit [DecidableEq ι] in
theorem keepsRows_refl (P : Platform) (w : World ι) : KeepsRows P w w :=
  ⟨rfl, fun _ _ h => Or.inl h, fun _ _ h => h⟩

theorem keepsRows_finish_error (P : Platform) (w : World ι)
    (writer : ι) (e : PyError) :
    KeepsRows P w (w.finish writer (.error e)) := by
  refine ⟨rfl, ?_, ?_⟩
  · intro other d h
    by_cases hother : other = writer
    · subst hother
      simp [World.finish] at h
    · exact Or.inl (by simpa [World.finish, hother] using h)
  · intro other data h
    simpa [World.finish] using h

theorem step_cases (P : Platform) (w : World ι) (a : Action ι) :
    KeepsRows P w (w.step P a) ∨
      ∃ writer d, Stores w (w.step P a) writer d := by
  cases a with
  | saveCase case =>
      exact Or.inl ⟨rfl, fun _ _ h => Or.inl h, fun _ _ h => h⟩
  | saveEvidence evidence =>
      exact Or.inl ⟨rfl, fun _ _ h => Or.inl h, fun _ _ h => h⟩
  | read writer args inputs =>
      refine Or.inl ?_
      cases hpending : w.pending writer with
      | some d => simpa [World.step, hpending] using keepsRows_refl P w
      | none =>
          cases hread : addEventRead P w.store args inputs with
          | error e =>
              simpa [World.step, hpending, hread] using
                keepsRows_finish_error P w writer e
          | ok d =>
              simp only [World.step, hpending, hread]
              refine ⟨rfl, ?_, fun _ _ h => h⟩
              intro other d' h
              by_cases hother : other = writer
              · subst hother
                obtain rfl : d = d' := by simpa using h
                exact Or.inr ⟨args, inputs, hread⟩
              · exact Or.inl (by simpa [hother] using h)
  | insert writer =>
      cases hpending : w.pending writer with
      | none =>
          left
          simpa [World.step, hpending] using keepsRows_refl P w
      | some d =>
          cases hsave : w.store.saveCustodyEvent d with
          | error e =>
              left
              simpa [World.step, hpending, hsave] using
                keepsRows_finish_error P w writer e
          | ok store =>
              right
              refine ⟨writer, d, ?_⟩
              simp only [World.step, hpending, hsave]
              exact ⟨hpending, hsave, rfl, rfl⟩

/-! ## The invariant -/

/-- The event was built on a prefix of its evidence's rows. -/
def BuiltOnPrefix (rows : List CustodyRow) (d : EventData) : Prop :=
  ∃ xs, xs <+: evidenceRows d.evidenceId rows ∧
    d.immutableRevision = xs.length + 1 ∧ d.previousEventHash = rowHead xs

structure Invariant (P : Platform) (w : World ι) : Prop where
  chained : ∀ evidenceId,
    ChainedRows P (evidenceRows evidenceId w.store.custodyEvents)
  eventIds : (w.store.custodyEvents.map CustodyRow.eventId).Nodup
  pending : ∀ writer d, w.pending writer = some d →
    Hashed P d ∧ BuiltOnPrefix w.store.custodyEvents d
  returned : ∀ writer data, (writer, .ok data) ∈ w.outcomes →
    ∃ d : EventData, data = d.toSchemaDict ∧
      d.toRow ∈ w.store.custodyEvents

omit [DecidableEq ι] in
theorem invariant_initial (P : Platform) :
    Invariant P (World.initial : World ι) where
  chained := fun _ => chainedRows_nil P
  eventIds := List.nodup_nil
  pending := by simp [World.initial]
  returned := by simp [World.initial]

theorem evidenceRows_append (evidenceId : String) (xs ys : List CustodyRow) :
    evidenceRows evidenceId (xs ++ ys) =
      evidenceRows evidenceId xs ++ evidenceRows evidenceId ys :=
  List.filter_append ..

theorem evidenceRows_toRow_self (d : EventData) :
    evidenceRows d.evidenceId [d.toRow] = [d.toRow] := by
  simp [evidenceRows, EventData.toRow]

theorem evidenceRows_toRow_of_ne {evidenceId : String}
    (h : d.evidenceId ≠ evidenceId) :
    evidenceRows evidenceId [d.toRow] = [] := by
  simp [evidenceRows, EventData.toRow, h]

theorem listCustodyEvents_eq {evidenceId : String}
    (h : ChainedRows P (evidenceRows evidenceId store.custodyEvents)) :
    store.listCustodyEvents evidenceId =
      (evidenceRows evidenceId store.custodyEvents).map
        CustodyRow.eventJson := by
  rw [Store.listCustodyEvents, h.sorted]

theorem rowHead_eq_none_iff : rowHead rows = none ↔ rows = [] := by
  simp [rowHead, rowEntries, ChainClaims.headHash]

omit [DecidableEq ι] in
theorem builtOnPrefix_of_read {w : World ι} (hinv : Invariant P w)
    {args : AddEventArgs} {inputs : CallInputs}
    (h : addEventRead P w.store args inputs = .ok d) :
    Hashed P d ∧ BuiltOnPrefix w.store.custodyEvents d := by
  obtain ⟨head, hhead, hrevision, hprevious, hhash⟩ := addEventRead_eq_ok h
  have hchain := hinv.chained d.evidenceId
  rw [listCustodyEvents_eq hchain, hchain.chainHead_eq] at hhead
  obtain rfl := Except.ok.inj hhead
  refine ⟨hhash, _, List.prefix_refl _, ?_, ?_⟩
  · rw [hrevision]
    cases hhead : rowHead (evidenceRows d.evidenceId w.store.custodyEvents) with
    | none => simp [rowHead_eq_none_iff.mp hhead]
    | some hash => simp
  · rw [hprevious, Option.map_map]
    simp [Function.comp_def]

/-- An event whose revision is free is built on the whole chain, not on a
proper prefix of it. -/
theorem builtOn_of_fresh
    (hchain : ChainedRows P (evidenceRows d.evidenceId rows))
    (hbuilt : BuiltOnPrefix rows d)
    (hfresh : ∀ row ∈ rows, row.evidenceId = d.evidenceId →
      row.immutableRevision ≠ d.immutableRevision) :
    d.immutableRevision = (evidenceRows d.evidenceId rows).length + 1 ∧
      d.previousEventHash = rowHead (evidenceRows d.evidenceId rows) := by
  obtain ⟨xs, ⟨ys, hxs⟩, hrevision, hprevious⟩ := hbuilt
  cases ys with
  | nil =>
      rw [List.append_nil] at hxs
      rw [← hxs]
      exact ⟨hrevision, hprevious⟩
  | cons row ys =>
      -- the row after the prefix already carries the revision
      have hmem : row ∈ evidenceRows d.evidenceId rows := by simp [← hxs]
      have hrow := List.mem_filter.mp hmem
      have hinit : xs ++ [row] <+: evidenceRows d.evidenceId rows :=
        ⟨ys, by simp [← hxs]⟩
      have hrevisions := (hchain.of_initial hinit).revisions
      rw [List.map_append, List.length_append, List.length_singleton,
        List.range'_concat, List.map_append] at hrevisions
      have hlast := List.append_inj_right' hrevisions rfl
      have heq : row.immutableRevision = d.immutableRevision := by
        simpa [hrevision, add_comm] using hlast
      exact (hfresh row hrow.1 (by simpa using hrow.2) heq).elim

theorem builtOnPrefix_append (hbuilt : BuiltOnPrefix rows d)
    (more : List CustodyRow) : BuiltOnPrefix (rows ++ more) d := by
  obtain ⟨xs, hxs, hrest⟩ := hbuilt
  refine ⟨xs, ?_, hrest⟩
  rw [evidenceRows_append]
  exact hxs.trans (List.prefix_append _ _)

omit [DecidableEq ι] in
theorem invariant_of_keepsRows {w w' : World ι} (hinv : Invariant P w)
    (h : KeepsRows P w w') : Invariant P w' where
  chained := by
    rw [h.rows]
    exact hinv.chained
  eventIds := by
    rw [h.rows]
    exact hinv.eventIds
  pending := by
    intro writer d hd
    rw [h.rows]
    rcases h.pending writer d hd with hd | ⟨args, inputs, hread⟩
    · exact hinv.pending writer d hd
    · exact builtOnPrefix_of_read hinv hread
  returned := by
    intro writer data hdata
    rw [h.rows]
    exact hinv.returned writer data (h.outcomes writer data hdata)

theorem invariant_of_stores {w w' : World ι} (hinv : Invariant P w) {writer : ι}
    (h : Stores w w' writer d) : Invariant P w' := by
  obtain ⟨hstore, hid, hrevision⟩ := saveCustodyEvent_eq_ok h.saved
  obtain ⟨hhash, hbuilt⟩ := hinv.pending writer d h.waiting
  have hrows : w'.store.custodyEvents =
      w.store.custodyEvents ++ [d.toRow] := by rw [hstore]
  have hwhole := builtOn_of_fresh (hinv.chained d.evidenceId) hbuilt hrevision
  constructor
  · intro evidenceId
    rw [hrows, evidenceRows_append]
    by_cases hevidence : d.evidenceId = evidenceId
    · subst hevidence
      rw [evidenceRows_toRow_self]
      exact (hinv.chained d.evidenceId).concat hhash hwhole.1 hwhole.2
    · rw [evidenceRows_toRow_of_ne hevidence, List.append_nil]
      exact hinv.chained evidenceId
  · rw [hrows, List.map_append, List.nodup_append]
    refine ⟨hinv.eventIds, List.nodup_singleton _, ?_⟩
    intro a ha b hb
    obtain ⟨row, hrow, rfl⟩ := List.mem_map.mp ha
    obtain rfl := List.mem_singleton.mp hb
    exact hid row hrow
  · intro other d' hd'
    rw [h.pending] at hd'
    rw [hrows]
    by_cases hother : other = writer
    · subst hother
      simp at hd'
    · rw [Function.update_of_ne hother] at hd'
      obtain ⟨hhash', hbuilt'⟩ := hinv.pending other d' hd'
      exact ⟨hhash', builtOnPrefix_append hbuilt' _⟩
  · intro other data hdata
    rw [h.outcomes, List.mem_append] at hdata
    rw [hrows]
    rcases hdata with hdata | hdata
    · obtain ⟨d', hd', hmem⟩ := hinv.returned other data hdata
      exact ⟨d', hd', List.mem_append_left _ hmem⟩
    · refine ⟨d, ?_, by simp⟩
      have := List.mem_singleton.mp hdata
      injection this with _ hok
      exact Except.ok.inj hok

theorem invariant_step (P : Platform) (w : World ι) (a : Action ι)
    (hinv : Invariant P w) : Invariant P (w.step P a) := by
  rcases step_cases P w a with hkeeps | ⟨writer, d, hstores⟩
  · exact invariant_of_keepsRows hinv hkeeps
  · exact invariant_of_stores hinv hstores

theorem invariant_exec (P : Platform) (actions : List (Action ι)) :
    Invariant P (exec P actions) :=
  run_invariant (invariant_step P) (invariant_initial P) actions

/-! ## Runs of interleaved writers -/

theorem exec_append (P : Platform) (before after : List (Action ι)) :
    exec P (before ++ after) = run (World.step P) (exec P before) after :=
  run_append _ _ _ _

theorem step_custodyEvents_grow (P : Platform) (w : World ι) (a : Action ι) :
    w.store.custodyEvents <+: (w.step P a).store.custodyEvents := by
  rcases step_cases P w a with hkeeps | ⟨writer, d, hstores⟩
  · rw [hkeeps.rows]
  · rw [(saveCustodyEvent_eq_ok hstores.saved).1]
    exact List.prefix_append _ _

theorem custodyEvents_grow (P : Platform) (before after : List (Action ι)) :
    (exec P before).store.custodyEvents <+:
      (exec P (before ++ after)).store.custodyEvents := by
  rw [exec_append]
  exact run_related (R := fun w w' : World ι =>
      w.store.custodyEvents <+: w'.store.custodyEvents)
    (fun w a _ => trivial) (fun w => List.prefix_refl _)
    (fun h h' => h.trans h')
    (fun w a (_ : True) => step_custodyEvents_grow P w a) trivial after

omit [DecidableEq ι] in
/-- Revisions of the listed events are exactly `1..n`. -/
theorem listed_revisions {w : World ι} (hinv : Invariant P w)
    (evidenceId : String) :
    (w.store.listCustodyEvents evidenceId).map
        (Json.field? "immutable_revision") =
      (List.range' 1 (w.store.listCustodyEvents evidenceId).length).map
        fun n : ℕ => some (.int n) := by
  have hchain := hinv.chained evidenceId
  have hrevisions := congrArg (List.map fun n : ℤ => some (Json.int n))
    hchain.revisions
  rw [listCustodyEvents_eq hchain, List.length_map, List.map_map]
  rw [List.map_map, List.map_map] at hrevisions
  rw [show ((fun n : ℕ => some (Json.int n))) =
    (fun n : ℤ => some (Json.int n)) ∘ (Nat.cast : ℕ → ℤ) from rfl,
    ← hrevisions]
  apply List.map_congr_left
  intro row hrow
  obtain ⟨d, rfl⟩ := hchain.built row hrow
  exact field?_immutableRevision d

/-- The stored chain of one evidence: revisions `1..n`, every event naming
the hash of the one before it, and a true verification. -/
structure ChainIntact (P : Platform) (store : Store) (evidenceId : String) :
    Prop where
  revisions :
    (store.listCustodyEvents evidenceId).map
        (Json.field? "immutable_revision") =
      (List.range' 1 (store.listCustodyEvents evidenceId).length).map
        fun n : ℕ => some (.int n)
  first : ∀ x rest, store.listCustodyEvents evidenceId = x :: rest →
    x.field? "previous_event_hash" = some .null
  links : ∀ before x y after,
    store.listCustodyEvents evidenceId = before ++ x :: y :: after →
      y.field? "previous_event_hash" = x.field? "event_hash"
  verifies : verifyChain P store evidenceId = .ok true

/-- The store holds this very document, by its event id and in the list of
its evidence. -/
def HoldsEvent (store : Store) (data : Json) : Prop :=
  ∃ eventId evidenceId, data.field? "event_id" = some (.str eventId) ∧
    data.field? "evidence_id" = some (.str evidenceId) ∧
    store.getCustodyEvent eventId = some data ∧
    data ∈ store.listCustodyEvents evidenceId

omit [DecidableEq ι] in
theorem chainIntact_of_invariant {w : World ι} (hinv : Invariant P w)
    (evidenceId : String) : ChainIntact P w.store evidenceId := by
  have hverifies : verifyChain P w.store evidenceId = .ok true := by
    rw [verifyChain, listCustodyEvents_eq (hinv.chained evidenceId)]
    exact (hinv.chained evidenceId).verifyFrom_eq
  obtain ⟨hlinked, hrecords⟩ := verifyChain_eq_true_iff.mp hverifies
  refine ⟨listed_revisions hinv evidenceId, ?_, ?_, hverifies⟩
  · intro x rest heq
    rw [heq] at hlinked
    exact follows_canonicalForm.mp hlinked.2.1
  · intro before x y after heq
    rw [show before ++ x :: y :: after = (before ++ [x]) ++ y :: after by
      simp] at heq
    rw [heq, List.map_append, List.map_cons] at hlinked
    have hfollows := (ChainClaims.Linked.entry hlinked).2.1
    rw [List.map_append, List.map_singleton, ChainClaims.headHash_concat]
      at hfollows
    obtain ⟨hash, hhash⟩ := hrecords x (by simp [heq])
    rw [follows_canonicalForm.mp hfollows, hhash]
    exact congrArg (fun h => some (Json.str h)) (recordedHash_eq hhash)

theorem getCustodyEvent_toRow
    (hids : (store.custodyEvents.map CustodyRow.eventId).Nodup)
    (hd : d.toRow ∈ store.custodyEvents) :
    store.getCustodyEvent d.eventId = some d.toSchemaDict := by
  obtain ⟨before, after, heq⟩ := List.append_of_mem hd
  have hfirst : ∀ row ∈ before, ¬ row.eventId = d.eventId := by
    intro row hrow heqId
    rw [heq, List.map_append, List.map_cons, List.nodup_append] at hids
    exact hids.2.2 _ (List.mem_map_of_mem hrow) _ List.mem_cons_self heqId
  rw [Store.getCustodyEvent, heq, List.find?_append,
    List.find?_eq_none.mpr (by simpa using hfirst)]
  simp [EventData.toRow]

omit [DecidableEq ι] in
theorem holdsEvent_of_mem {w : World ι} (hinv : Invariant P w)
    (hd : d.toRow ∈ w.store.custodyEvents) :
    HoldsEvent w.store d.toSchemaDict := by
  refine ⟨d.eventId, d.evidenceId, rfl, rfl,
    getCustodyEvent_toRow hinv.eventIds hd, ?_⟩
  rw [listCustodyEvents_eq (hinv.chained d.evidenceId)]
  exact List.mem_map.mpr
    ⟨d.toRow, List.mem_filter.mpr ⟨hd, decide_eq_true rfl⟩, rfl⟩

theorem step_store_of_error (P : Platform) (w : World ι) (a : Action ι)
    {writer : ι} {e : PyError}
    (h : (w.step P a).outcomes = w.outcomes ++ [(writer, .error e)]) :
    (w.step P a).store = w.store := by
  cases a with
  | saveCase case => simp [World.step] at h
  | saveEvidence evidence => simp [World.step] at h
  | read other args inputs =>
      cases hpending : w.pending other with
      | some d => simp [World.step, hpending]
      | none =>
          cases hread : addEventRead P w.store args inputs <;>
            simp [World.step, hpending, hread, World.finish]
  | insert other =>
      cases hpending : w.pending other with
      | none => simp [World.step, hpending]
      | some d =>
          cases hsave : w.store.saveCustodyEvent d with
          | error e' => simp [World.step, hpending, hsave, World.finish]
          | ok store => simp [World.step, hpending, hsave, World.finish] at h

/-- Whatever the interleaving, every chain is intact, a returned event stays
in the store, and only the step that returns an event changes the rows. -/
theorem addEvent_interleaved (P : Platform) (actions : List (Action ι)) :
    (∀ evidenceId, ChainIntact P (exec P actions).store evidenceId) ∧
      (∀ later writer data,
        (writer, .ok data) ∈ (exec P actions).outcomes →
          HoldsEvent (exec P (actions ++ later)).store data) ∧
      (∀ a, (exec P (actions ++ [a])).store.custodyEvents =
            (exec P actions).store.custodyEvents ∨
          ∃ (writer : ι) (d : EventData),
            (exec P (actions ++ [a])).outcomes =
              (exec P actions).outcomes ++ [(writer, .ok d.toSchemaDict)] ∧
            (exec P (actions ++ [a])).store.custodyEvents =
              (exec P actions).store.custodyEvents ++ [d.toRow]) ∧
      (∀ a writer e,
        (exec P (actions ++ [a])).outcomes =
            (exec P actions).outcomes ++ [(writer, .error e)] →
          (exec P (actions ++ [a])).store = (exec P actions).store) := by
  have hinv := invariant_exec P actions
  refine ⟨chainIntact_of_invariant hinv, ?_, ?_, ?_⟩
  · intro later writer data hdata
    obtain ⟨d, rfl, hd⟩ := hinv.returned writer data hdata
    exact holdsEvent_of_mem (invariant_exec P (actions ++ later))
      ((custodyEvents_grow P actions later).subset hd)
  · intro a
    rw [exec_append, run_cons, run_nil]
    rcases step_cases P (exec P actions) a with hkeeps | ⟨writer, d, hstores⟩
    · exact Or.inl hkeeps.rows
    · refine Or.inr ⟨writer, d, hstores.outcomes, ?_⟩
      rw [(saveCustodyEvent_eq_ok hstores.saved).1]
  · intro a writer e h
    rw [exec_append, run_cons, run_nil] at h ⊢
    exact step_store_of_error P _ a h

end ApexForensic.Custody
