import ApexForensic.Reports.ExportCalls
import ApexForensic.Reports.ExportTerminality
import ApexForensic.Support.SortedChain

/-!
# The audit events of an export as a chain

Audit events are listed by time and identifier, and a new one names the last
of those its call has listed.  They are a chain with one event for each change
for as long as every event comes last when it is stored, nothing else was
stored for the export since its call listed the events, and none is refused.
-/

namespace ApexForensic.Reports.Interleaved

open ApexForensic.Support ApexForensic.Domain

variable {m : ExportManifest} {s t : Store} {e : ExportAuditEvent} {u : Unit}
  {events : List ExportAuditEvent} {P : Platform} {own : List Note}
  {inputs : CallInputs} {package : RenderPackage}

/-! ## What is promised -/

/-- The order in which audit events are listed. -/
def auditOrder : ExportAuditEvent → ExportAuditEvent → Prop :=
  orderBy (fun e => e.createdAt.utcMicros) ExportAuditEvent.auditEventId

instance : DecidableRel auditOrder :=
  inferInstanceAs (DecidableRel (orderBy _ _))

instance : Std.Total auditOrder :=
  inferInstanceAs (Std.Total (orderBy _ _))

instance : IsTrans ExportAuditEvent auditOrder :=
  inferInstanceAs (IsTrans _ (orderBy _ _))

/-- The events of the export, of all events. -/
def ofExport (k : String) (events : List ExportAuditEvent) :
    List ExportAuditEvent :=
  events.filter fun e => e.exportManifestId = k

theorem auditEventsOf_eq (s : Store) (k : String) :
    s.auditEventsOf k = (ofExport k s.auditEvents).insertionSort auditOrder :=
  rfl

def hashOfLast (events : List ExportAuditEvent) : Option String :=
  lastHash ExportAuditEvent.eventHash events

/-- The statuses that the notes of a call change the export to. -/
def changesOf (k : String) (own : List Note) : List ExportStatus :=
  own.filterMap fun
    | .changed m => if m.exportManifestId = k then some m.status else none
    | _ => none

/-- The statuses in the events that the notes of a call record for the
export. -/
def recordsOf (k : String) (own : List Note) : List ExportStatus :=
  own.filterMap fun
    | .recorded e => if e.exportManifestId = k then some e.status else none
    | _ => none

variable {ι : Type} [DecidableEq ι]

abbrev ExportSystem (ι : Type) :=
  System Store ι Note PyError Unit ExportCall

/-- As they are listed, the events of the export are one chain, and each
change that a call has made has one event of that call. -/
structure Audited (k : String) (w : ExportSystem ι) : Prop where
  chained : Chained ExportAuditEvent.previousEventHash
    ExportAuditEvent.eventHash none (w.store.auditEventsOf k)
  recorded : ∀ i call result, w.progress i = .finished call result →
    recordsOf k (eventsOf i w.log) = changesOf k (eventsOf i w.log)

/-! ## When it is kept -/

def Note.event? : Note → Option ExportAuditEvent
  | .recorded e => some e
  | _ => none

/-- The events that the notes record. -/
def recordedIn (log : List (ι × Note)) : List ExportAuditEvent :=
  log.filterMap fun x => x.2.event?

/-- Since the call listed the events of the export last, none was stored. -/
def Undisturbed (k : String) (i : ι) (log : List (ι × Note)) : Prop :=
  ∃ before seen after, log = before ++ (i, .listed k seen) :: after ∧
    eventsOf i after = [] ∧ ofExport k (recordedIn after) = []

/-- The next note on the export keeps its chain: an event is stored last, by a
call that was not disturbed, and no event is lost. -/
def KeepsChain (k : String) (events : List ExportAuditEvent)
    (log : List (ι × Note)) (i : ι) : Note → Prop
  | .recorded e => e.exportManifestId = k →
      Undisturbed k i log ∧
        ∀ x ∈ ofExport k (events ++ recordedIn log), auditOrder x e
  | .lost id => id ≠ k
  | _ => True

/-- All notes keep the chain, when the first events are these. -/
def Orderly (k : String) (events : List ExportAuditEvent)
    (log : List (ι × Note)) : Prop :=
  ∀ before i note after, log = before ++ (i, note) :: after →
    KeepsChain k events before i note

/-! ## The notes of a call -/

/-- A change of an export, the events listed after it, and its own. -/
structure Block where
  manifest : ExportManifest
  seen : List ExportAuditEvent
  event : ExportAuditEvent

def Block.notes (b : Block) : List Note :=
  [.changed b.manifest, .listed b.manifest.exportManifestId b.seen,
    .recorded b.event]

/-- The event tells of the change, and names the last of the events listed. -/
structure Block.Valid (b : Block) : Prop where
  exportManifestId :
    b.event.exportManifestId = b.manifest.exportManifestId
  status : b.event.status = b.manifest.status
  previous : b.event.previousEventHash = hashOfLast b.seen

/-- Every change has its event. -/
def Settled (own : List Note) : Prop :=
  ∃ blocks : List Block, (∀ b ∈ blocks, b.Valid) ∧
    own = blocks.flatMap Block.notes

/-- Every change but the last has its event. -/
def InProgress (own : List Note) : Prop :=
  ∃ earlier, Settled earlier ∧ (own = earlier ∨
    ∃ m : ExportManifest, own = earlier ++ [.changed m] ∨ ∃ seen,
      own = earlier ++ [.changed m, .listed m.exportManifestId seen])

/-- The event of the last change is lost. -/
def LostLast (own : List Note) : Prop :=
  ∃ earlier, Settled earlier ∧ ∃ (m : ExportManifest) (seen : _),
    own = earlier ++ [.changed m, .listed m.exportManifestId seen,
      .lost m.exportManifestId]

/-- What a transaction of an export call leaves of the audit events, and what
it notes. -/
inductive Writes (s : Store) : Store × List Note → Prop where
  | quiet {t : Store} (h : t.auditEvents = s.auditEvents) : Writes s (t, [])
  | changed {t : Store} {m : ExportManifest}
      (h : t.auditEvents = s.auditEvents) : Writes s (t, [.changed m])
  | listed (k : String) : Writes s (s, [.listed k (s.auditEventsOf k)])
  | recorded {t : Store} {e : ExportAuditEvent}
      (h : s.appendReportExportAuditEvent e = .ok t) :
      Writes s (t, [.recorded e])
  | lost (k : String) : Writes s (s, [.lost k])

/-- The notes that the script adds to those there are a change, a listing and
an event, in turn; when an event is lost the script ends in an error that
`render_export` does not catch. -/
def Audits {α : Type} : ExportScript α → List Note → Prop
  | .done result, own => Settled own ∨
      (LostLast own ∧ ∃ e, result = .error e ∧ isReportError e = false)
  | .transaction effect next, own => InProgress own ∧
      ∀ s, Writes s (effect s) ∧ Audits (next s) (own ++ (effect s).2)

theorem settled_nil : Settled [] :=
  ⟨[], fun _ hb => absurd hb List.not_mem_nil, rfl⟩

theorem Settled.inProgress (h : Settled own) : InProgress own :=
  ⟨own, h, Or.inl rfl⟩

theorem Settled.block (h : Settled own) {b : Block} (hb : b.Valid) :
    Settled (own ++ b.notes) := by
  obtain ⟨blocks, hblocks, rfl⟩ := h
  refine ⟨blocks ++ [b], fun x hx => ?_, by simp⟩
  rcases List.mem_append.mp hx with hx | hx
  · exact hblocks x hx
  · rw [List.mem_singleton.mp hx]
    exact hb

section

variable {α β : Type} {own : List Note}

theorem audits_bind {m : ExportScript α} {f : α → ExportScript β}
    (hm : Audits m own) (hf : ∀ own a, Settled own → Audits (f a) own) :
    Audits (m >>= f) own := by
  induction m generalizing own with
  | done result =>
      cases result with
      | error e =>
          rcases hm with hsettled | ⟨hlost, e', he, hreport⟩
          · exact Or.inl hsettled
          · obtain rfl := Except.error.inj he
            exact Or.inr ⟨hlost, e, rfl, hreport⟩
      | ok a =>
          rcases hm with hsettled | ⟨-, e, he, -⟩
          · exact hf own a hsettled
          · cases he
  | transaction effect next ih =>
      exact ⟨hm.1, fun s => ⟨(hm.2 s).1, ih s (hm.2 s).2⟩⟩

theorem audits_handle {m : ExportScript α}
    {handler : PyError → ExportScript α} (hm : Audits m own)
    (hhandler : ∀ own e, Settled own → Audits (handler e) own) :
    Audits (m.handle isReportError handler) own := by
  induction m generalizing own with
  | done result =>
      cases result with
      | error e =>
          rw [Script.handle]
          rcases hm with hsettled | ⟨hlost, e', he, hreport⟩
          · split
            · exact hhandler own e hsettled
            · exact Or.inl hsettled
          · obtain rfl := Except.error.inj he
            rw [if_neg (by rw [hreport]; decide)]
            exact Or.inr ⟨hlost, e, rfl, hreport⟩
      | ok a => exact hm
  | transaction effect next ih =>
      exact ⟨hm.1, fun s => ⟨(hm.2 s).1, ih s (hm.2 s).2⟩⟩

theorem audits_query (hown : Settled own) (g : Store → Except PyError α) :
    Audits (Script.query g : ExportScript α) own := by
  refine ⟨hown.inProgress, fun s => ⟨.quiet rfl, ?_⟩⟩
  rw [List.append_nil]
  exact Or.inl hown

theorem audits_pure (hown : Settled own) (a : α) :
    Audits (pure a : ExportScript α) own :=
  Or.inl hown

theorem audits_attempt (hown : Settled own)
    {g : Store → Except PyError (α × Store)}
    (hg : ∀ s a t, g s = .ok (a, t) → t.auditEvents = s.auditEvents) :
    Audits (Script.attempt fun s => (g s).map fun r => (r.1, r.2, []) :
      ExportScript α) own := by
  refine ⟨hown.inProgress, fun s => ?_⟩
  cases hs : g s with
  | error e =>
      simp only [hs, Except.map, List.append_nil]
      exact ⟨.quiet rfl, Or.inl hown⟩
  | ok r =>
      simp only [hs, Except.map, List.append_nil]
      exact ⟨.quiet (hg s r.1 r.2 hs), Or.inl hown⟩

/-! ## The notes of each call -/

theorem auditEvent_eq_ok {action : String} {actorId : Option String}
    {details : Json} {seen : List ExportAuditEvent}
    (h : auditEvent P m action actorId details inputs seen = .ok e) :
    Block.Valid ⟨m, seen, e⟩ := by
  obtain ⟨createdAt, -, h⟩ := bind_ok h
  obtain rfl := Except.ok.inj h
  exact ⟨rfl, rfl, rfl⟩

theorem saveEvent_error {action : String} {actorId : Option String}
    {details : Json} {seen : List ExportAuditEvent} {e : PyError}
    (h : saveEvent (auditEvent P m action actorId details inputs seen) s =
      .error e) : isReportError e = false := by
  rw [saveEvent] at h
  rcases hevent : auditEvent P m action actorId details inputs seen
    with e' | event
  · rw [hevent] at h
    obtain rfl := Except.error.inj h
    rw [auditEvent] at hevent
    rcases hnow : toJsonTimestamp inputs.now with e' | createdAt
    · rw [hnow] at hevent
      obtain rfl := Except.error.inj hevent
      exact toJsonTimestamp_error hnow
    · rw [hnow] at hevent
      cases hevent
  · rw [hevent] at h
    simp only [bind, Except.bind, Store.appendReportExportAuditEvent] at h
    split at h
    · rename_i heq
      split at heq
      · rename_i hinsert
        obtain rfl := Except.error.inj heq
        obtain rfl := Except.error.inj h
        exact insertRow_error hinsert
      · cases heq
    · cases h

theorem audits_recordChange (hown : Settled own) (m : ExportManifest)
    {save : Store → Except PyError (Unit × Store)}
    (hsave : ∀ s u t, save s = .ok (u, t) → t.auditEvents = s.auditEvents)
    (action : String) (actorId : Option String) (details : Json)
    (inputs : CallInputs) :
    Audits (recordChange P m save action actorId details inputs) own := by
  refine ⟨hown.inProgress, fun s => ?_⟩
  cases hs : save s with
  | error e =>
      simp only [hs, Except.map, List.append_nil]
      exact ⟨.quiet rfl, Or.inl hown⟩
  | ok r =>
      simp only [hs, Except.map]
      refine ⟨.changed (hsave s r.1 r.2 hs), ?_⟩
      refine ⟨⟨own, hown, Or.inr ⟨m, Or.inl rfl⟩⟩, fun t => ⟨.listed _, ?_⟩⟩
      dsimp only
      generalize t.auditEventsOf m.exportManifestId = seen
      rw [List.append_assoc]
      refine ⟨⟨own, hown, Or.inr ⟨m, Or.inr ⟨seen, rfl⟩⟩⟩, fun u => ?_⟩
      rcases hevent : saveEvent (auditEvent P m action actorId details inputs
          seen) u with e | ⟨event, v⟩
      · simp only [hevent, Except.map, List.append_assoc]
        refine ⟨.lost _, Or.inr ⟨⟨own, hown, m, seen, rfl⟩, e, rfl, ?_⟩⟩
        exact saveEvent_error hevent
      · simp only [hevent, Except.map, List.append_assoc]
        obtain ⟨event', hbuilt, hevent⟩ := bind_ok hevent
        obtain ⟨v', happend, hevent⟩ := bind_ok hevent
        obtain ⟨rfl, rfl⟩ := ok_pair_inj hevent
        exact ⟨.recorded happend, Or.inl (hown.block (auditEvent_eq_ok hbuilt))⟩

theorem saveUpdate_auditEvents (h : saveUpdate m s = .ok (u, t)) :
    t.auditEvents = s.auditEvents := by
  rw [← (ok_pair_inj h).2]
  rfl

theorem saveManifest_auditEvents (h : saveManifest m inputs s = .ok (u, t)) :
    t.auditEvents = s.auditEvents := by
  obtain ⟨report, -, -, rfl⟩ := saveManifest_spec h
  rfl

theorem saveCompletion_auditEvents {artifact : RenderedArtifact}
    (h : saveCompletion artifact m inputs s = .ok (u, t)) :
    t.auditEvents = s.auditEvents := by
  obtain ⟨report, -, rfl⟩ := saveCompletion_spec h
  rfl

theorem createRenderPackage_auditEvents {args : PackageArgs}
    (h : createRenderPackage P args inputs s = .ok (package, t)) :
    t.auditEvents = s.auditEvents := by
  rcases createRenderPackage_eq_ok h with ⟨-, rfl⟩ | ⟨-, rfl, -⟩
  · rfl
  · rfl

variable {P : Platform}

theorem audits_recordFailure (hown : Settled own) (m : ExportManifest)
    (status : ExportStatus) (payload : List (String × Json))
    (warnings : List Json) (inputs : ℕ → CallInputs) :
    Audits (recordFailure P m status payload warnings inputs) own := by
  refine audits_bind (audits_query hown _) fun own warnings hown => ?_
  exact audits_recordChange hown _ (fun _ _ _ h => saveUpdate_auditEvents h)
    _ _ _ _

theorem audits_recordExportResult (hown : Settled own)
    (exportManifestId : String) (payload : List (String × Json))
    (inputs : ℕ → CallInputs) :
    Audits (recordExportResult P exportManifestId payload inputs) own := by
  refine audits_bind (audits_query hown _) fun own manifest hown => ?_
  refine audits_bind (audits_query hown _) fun own warnings hown => ?_
  dsimp only
  split
  · exact audits_recordFailure hown _ _ _ _ _
  split
  · exact audits_recordFailure hown _ _ _ _ _
  split
  · exact audits_query hown _
  split
  · exact audits_query hown _
  · refine audits_bind (audits_query hown _) fun own artifact hown => ?_
    refine audits_bind (audits_query hown _) fun own warnings hown => ?_
    exact audits_recordChange hown _
      (fun _ _ _ h => saveCompletion_auditEvents h) _ _ _ _

theorem audits_renderExport (hown : Settled own) (exportManifestId : String)
    (renderer : Renderer) (inputs : ℕ → CallInputs) :
    Audits (renderExport P exportManifestId renderer inputs) own := by
  refine audits_bind (audits_query hown _) fun own manifest hown => ?_
  refine audits_bind (audits_query hown _) fun own _ hown => ?_
  split
  · refine audits_bind (audits_query hown _) fun own warnings hown => ?_
    refine audits_bind (audits_recordChange hown _
      (fun _ _ _ h => saveUpdate_auditEvents h) _ _ _ _) fun own _ hown => ?_
    exact audits_pure hown _
  refine audits_bind (audits_query hown _) fun own package hown => ?_
  refine audits_bind (audits_recordChange hown _
    (fun _ _ _ h => saveUpdate_auditEvents h) _ _ _ _) fun own _ hown => ?_
  refine audits_bind (audits_handle ?_ fun own error hown => ?_)
    fun own _ hown => audits_query hown _
  · refine audits_bind (audits_query hown _) fun own payload hown => ?_
    exact audits_recordExportResult hown _ _ _
  · refine audits_bind (audits_query hown _) fun own warnings hown => ?_
    exact audits_recordChange hown _
      (fun _ _ _ h => saveUpdate_auditEvents h) _ _ _ _

theorem audits_prepareExport (hown : Settled own) (args : PrepareArgs)
    (renderer : Renderer) (inputs : ℕ → CallInputs) :
    Audits (prepareExport P args renderer inputs) own := by
  refine audits_bind (audits_query hown _) fun own plan hown => ?_
  refine audits_bind (audits_query hown _) fun own existing hown => ?_
  cases existing with
  | some manifest => exact audits_pure hown _
  | none =>
      refine audits_bind (audits_attempt hown fun _ _ _ h =>
        createRenderPackage_auditEvents h) fun own package hown => ?_
      refine audits_bind (audits_query hown _) fun own warnings hown => ?_
      refine audits_bind (audits_recordChange hown _
        (fun _ _ _ h => saveManifest_auditEvents h) _ _ _ _)
        fun own _ hown => ?_
      exact audits_pure hown _

theorem audits_script (call : ExportCall) : Audits (script P call) [] := by
  cases call with
  | prepare args renderer inputs =>
      exact audits_bind (audits_prepareExport settled_nil _ _ _)
        fun own _ hown => audits_pure hown _
  | render exportManifestId renderer inputs =>
      exact audits_bind (audits_renderExport settled_nil _ _ _)
        fun own _ hown => audits_pure hown _
  | record exportManifestId payload inputs =>
      exact audits_recordExportResult settled_nil _ _ _

theorem Audits.respects {α : Type} {m : ExportScript α} (h : Audits m own) :
    m.Respects Writes := by
  induction m generalizing own with
  | done result => trivial
  | transaction effect next ih => exact fun s => ⟨(h.2 s).1, ih s (h.2 s).2⟩

end

/-! ## The notes of a run -/

section

variable {P : Platform} {store : Store} {moves : List (Move ι ExportCall)}

theorem exists_moves_of_log {before after : List (ι × Note)}
    (h : (System.reached (script P) store moves).log = before ++ after) :
    ∃ earlier later, moves = earlier ++ later ∧
      (System.reached (script P) store earlier).log = before := by
  induction moves using List.reverseRecOn generalizing after with
  | nil =>
      have hnil : [] = before ++ after := h
      obtain ⟨rfl, -⟩ := List.append_eq_nil_iff.mp hnil.symm
      exact ⟨[], [], rfl, rfl⟩
  | append_singleton moves move ih =>
      have hsuffices : ∀ after,
          (System.reached (script P) store moves).log = before ++ after →
            ∃ earlier later, moves ++ [move] = earlier ++ later ∧
              (System.reached (script P) store earlier).log = before := by
        intro after hlog
        obtain ⟨earlier, later, rfl, hearlier⟩ := ih hlog
        exact ⟨earlier, later ++ [move], by simp, hearlier⟩
      have hdone : (System.reached (script P) store (moves ++ [move])).log =
          before → ∃ earlier later, moves ++ [move] = earlier ++ later ∧
            (System.reached (script P) store earlier).log = before :=
        fun hlog => ⟨moves ++ [move], [], by simp, hlog⟩
      rcases System.history_step store (fun call =>
        (audits_script (P := P) call).respects) moves move with
        hsame | ⟨i, t, -, hwrites, hafter⟩
      · refine hsuffices after ?_
        rw [← h]
        exact congrArg History.log hsame.symm
      · have hlog := congrArg History.log hafter
        change (System.reached (script P) store (moves ++ [move])).log =
          (System.reached (script P) store moves).log ++
            t.2.map fun note => (i, note) at hlog
        have hshort : ∀ note, t.2 = [note] → ∃ earlier later,
            moves ++ [move] = earlier ++ later ∧
              (System.reached (script P) store earlier).log = before := by
          intro note hnote
          rw [hnote] at hlog
          rcases List.eq_nil_or_concat after with rfl | ⟨rest, x, rfl⟩
          · rw [List.append_nil] at h
            exact hdone h
          · rw [h, List.concat_eq_append, ← List.append_assoc] at hlog
            exact hsuffices rest (List.append_inj_left' hlog rfl).symm
        generalize ht : t.2 = notes at hlog hshort
        cases hwrites with
        | quiet hkept =>
            subst ht
            refine hsuffices after ?_
            rw [← h, hlog]
            simp
        | changed hkept => exact hshort _ ht.symm
        | listed k => exact hshort _ ht.symm
        | recorded happend => exact hshort _ ht.symm
        | lost k => exact hshort _ ht.symm

omit [DecidableEq ι] in
@[simp] theorem recordedIn_append (log log' : List (ι × Note)) :
    recordedIn (log ++ log') = recordedIn log ++ recordedIn log' :=
  List.filterMap_append

@[simp] theorem ofExport_append (k : String)
    (events events' : List ExportAuditEvent) :
    ofExport k (events ++ events') = ofExport k events ++ ofExport k events' :=
  List.filter_append ..

/-- The events of the export as they were listed at a point of the log. -/
def listing (k : String) (events : List ExportAuditEvent)
    (log : List (ι × Note)) : List ExportAuditEvent :=
  (ofExport k (events ++ recordedIn log)).insertionSort auditOrder

/-- What the notes say was true when they were taken. -/
structure Truthful (events : List ExportAuditEvent)
    (h : History Store ι Note) : Prop where
  stored : h.store.auditEvents = events ++ recordedIn h.log
  listed : ∀ before i k seen after,
    h.log = before ++ (i, .listed k seen) :: after →
      seen = listing k events before
  fresh : ∀ before i e after, h.log = before ++ (i, .recorded e) :: after →
    ∀ x ∈ ofExport e.exportManifestId (events ++ recordedIn before),
      x.eventHash ≠ e.eventHash

omit [DecidableEq ι] in
theorem Truthful.auditEventsOf {h : History Store ι Note}
    (hh : Truthful events h) (k : String) :
    h.store.auditEventsOf k = listing k events h.log := by
  rw [auditEventsOf_eq, hh.stored]
  rfl

theorem appendReportExportAuditEvent_eq_ok
    (h : s.appendReportExportAuditEvent e = .ok t) :
    t.auditEvents = s.auditEvents ++ [e] ∧
      ∀ x ∈ ofExport e.exportManifestId s.auditEvents,
        x.eventHash ≠ e.eventHash := by
  obtain ⟨events, hinsert, h⟩ := bind_ok h
  obtain ⟨rfl, hkeys⟩ := insertRow_eq_ok_iff.mp hinsert
  obtain rfl := Except.ok.inj h
  refine ⟨rfl, fun x hx heq => ?_⟩
  obtain ⟨hx, hid⟩ := List.mem_filter.mp hx
  have hclash := hkeys _ (List.mem_cons_of_mem _ List.mem_cons_self) x hx
  simp [of_decide_eq_true hid, heq] at hclash

omit [DecidableEq ι] in
theorem Truthful.after {h : History Store ι Note} {i : ι}
    {t : Store × List Note} (hh : Truthful events h)
    (hwrites : Writes h.store t) : Truthful events (h.after i t) := by
  have hnote : ∀ (u : Store) (note : Note),
      u.auditEvents = events ++ recordedIn (h.log ++ [(i, note)]) →
      (∀ k seen, note = .listed k seen → seen = listing k events h.log) →
      (∀ e, note = .recorded e →
        ∀ x ∈ ofExport e.exportManifestId (events ++ recordedIn h.log),
          x.eventHash ≠ e.eventHash) →
        Truthful events (h.after i (u, [note])) := by
    intro u note hevents hlisted hfresh
    refine ⟨hevents, fun before j k seen after hsplit => ?_,
      fun before j e after hsplit => ?_⟩
    · rcases split_concat hsplit with ⟨rfl, heq, -⟩ | ⟨rest, -, hlog⟩
      · exact hlisted k seen (Prod.mk.inj heq).2.symm
      · exact hh.listed before j k seen rest hlog
    · rcases split_concat hsplit with ⟨rfl, heq, -⟩ | ⟨rest, -, hlog⟩
      · exact hfresh e (Prod.mk.inj heq).2.symm
      · exact hh.fresh before j e rest hlog
  cases hwrites with
  | quiet hkept =>
      refine ⟨?_, ?_, ?_⟩
      · simpa [History.after] using hkept.trans hh.stored
      · simpa [History.after] using hh.listed
      · simpa [History.after] using hh.fresh
  | changed hkept =>
      refine hnote _ _ ?_ (by simp) (by simp)
      simpa [recordedIn, Note.event?] using hkept.trans hh.stored
  | listed k =>
      refine hnote _ _ ?_ (fun k' seen h => ?_) (by simp)
      · simpa [recordedIn, Note.event?] using hh.stored
      · obtain ⟨rfl, rfl⟩ := Note.listed.inj h
        exact hh.auditEventsOf k
  | recorded happend =>
      obtain ⟨hevents, hfresh⟩ := appendReportExportAuditEvent_eq_ok happend
      refine hnote _ _ ?_ (by simp) fun e h => ?_
      · rw [hevents, hh.stored]
        simp [recordedIn, Note.event?]
      · obtain rfl := Note.recorded.inj h
        rw [← hh.stored]
        exact hfresh
  | lost k =>
      refine hnote _ _ ?_ (by simp) (by simp)
      simpa [recordedIn, Note.event?] using hh.stored

theorem truthful_reached (P : Platform) (store : Store)
    (moves : List (Move ι ExportCall)) :
    Truthful store.auditEvents
      (System.reached (script P) store moves).toHistory := by
  refine System.history_invariant
    (fun call => (audits_script (P := P) call).respects) ?_
    (fun h i t hh hwrites => hh.after hwrites) moves
  refine ⟨by simp [recordedIn], fun before i k seen after h => ?_,
    fun before i e after h => ?_⟩
  · simp at h
  · simp at h

theorem audits_reached (P : Platform) (store : Store)
    (moves : List (Move ι ExportCall)) (i : ι) :
    ((System.reached (script P) store moves).progress i).Tracks
      (fun _ m own => Audits m own)
      (eventsOf i (System.reached (script P) store moves).log) :=
  System.tracks_reached (G := fun _ m own => Audits m own) store
    (fun h s => (h.2 s).2) (fun call => audits_script call) moves i

theorem notes_reached (P : Platform) (store : Store)
    (moves : List (Move ι ExportCall)) (i : ι) :
    InProgress (eventsOf i (System.reached (script P) store moves).log) ∨
      LostLast (eventsOf i (System.reached (script P) store moves).log) := by
  have hcall : ∀ {m : ExportScript Unit} {own : List Note}, Audits m own →
      InProgress own ∨ LostLast own := by
    intro m own h
    cases m with
    | done result =>
        rcases h with h | ⟨h, -⟩
        · exact Or.inl h.inProgress
        · exact Or.inr h
    | transaction effect next => exact Or.inl h.1
  have hi := audits_reached P store moves i
  cases hprogress : (System.reached (script P) store moves).progress i with
  | idle =>
      rw [hprogress] at hi
      rw [show eventsOf i _ = [] from hi]
      exact Or.inl settled_nil.inProgress
  | running request m =>
      rw [hprogress] at hi
      exact hcall hi
  | finished request result =>
      rw [hprogress] at hi
      exact hcall hi

end

theorem exists_block_of_recorded {xs : List Note}
    (h : InProgress own ∨ LostLast own) (hown : own = xs ++ [.recorded e]) :
    ∃ (earlier : List Note) (b : Block), b.Valid ∧ b.event = e ∧
      xs = earlier ++ [.changed b.manifest] ++
        [.listed b.manifest.exportManifestId b.seen] := by
  subst hown
  have hlast : ∀ {ys : List Note} {n : Note},
      xs ++ [.recorded e] = ys ++ [n] → n = .recorded e := fun heq =>
    (List.singleton_inj.mp (List.append_inj' heq rfl).2).symm
  rcases h with
    ⟨earlier, ⟨blocks, hblocks, rfl⟩, heq | ⟨m, heq | ⟨seen, heq⟩⟩⟩ |
    ⟨earlier, -, m, seen, heq⟩
  · rcases List.eq_nil_or_concat blocks with rfl | ⟨rest, b, rfl⟩
    · simp at heq
    · rw [List.concat_eq_append] at heq hblocks
      have hsplit : xs ++ [.recorded e] = (rest.flatMap Block.notes ++
          [.changed b.manifest] ++
            [.listed b.manifest.exportManifestId b.seen]) ++
              [.recorded b.event] := by
        rw [heq]
        simp [Block.notes]
      refine ⟨rest.flatMap Block.notes, b, hblocks b ?_, ?_, ?_⟩
      · exact List.mem_append_right _ List.mem_cons_self
      · exact Note.recorded.inj (hlast hsplit)
      · exact (List.append_inj' hsplit rfl).1
  · cases hlast heq
  · cases hlast (heq.trans (List.append_cons _ _ _))
  · have hcut : earlier ++ [Note.changed m, .listed m.exportManifestId seen,
        .lost m.exportManifestId] = (earlier ++ [.changed m,
          .listed m.exportManifestId seen]) ++ [.lost m.exportManifestId] := by
      simp
    cases hlast (heq.trans hcut)

theorem Settled.lost_not_mem (h : Settled own) (k : String) :
    .lost k ∉ own := by
  obtain ⟨blocks, -, rfl⟩ := h
  simp [Block.notes]

theorem InProgress.lost_not_mem (h : InProgress own) (k : String) :
    .lost k ∉ own := by
  obtain ⟨earlier, hearlier, rfl | ⟨m, rfl | ⟨seen, rfl⟩⟩⟩ := h
  · exact hearlier.lost_not_mem k
  · simp [hearlier.lost_not_mem k]
  · simp [hearlier.lost_not_mem k]

theorem LostLast.exists_lost_mem (h : LostLast own) : ∃ k, .lost k ∈ own := by
  obtain ⟨earlier, -, m, seen, rfl⟩ := h
  exact ⟨m.exportManifestId, by simp⟩

theorem InProgress.not_lostLast (h : InProgress own) :
    ¬ LostLast own := fun hlost =>
  let ⟨k, hk⟩ := hlost.exists_lost_mem
  h.lost_not_mem k hk

theorem Settled.recordsOf_eq (h : Settled own) (k : String) :
    recordsOf k own = changesOf k own := by
  obtain ⟨blocks, hblocks, rfl⟩ := h
  induction blocks with
  | nil => rfl
  | cons b blocks ih =>
      have hb := hblocks b List.mem_cons_self
      have hrest := ih fun x hx => hblocks x (List.mem_cons_of_mem _ hx)
      rw [recordsOf, changesOf] at hrest
      simp only [List.flatMap_cons, Block.notes, recordsOf, changesOf,
        List.cons_append, List.nil_append, List.filterMap_cons,
        hb.exportManifestId, hb.status, hrest]

theorem LostLast.recordsOf_eq_iff (h : LostLast own) (k : String) :
    recordsOf k own = changesOf k own ↔ .lost k ∉ own := by
  obtain ⟨earlier, hearlier, m, seen, rfl⟩ := h
  have hsettled := hearlier.recordsOf_eq k
  have hnot := hearlier.lost_not_mem k
  rw [recordsOf, changesOf] at hsettled ⊢
  rw [List.filterMap_append, List.filterMap_append, hsettled,
    List.append_right_inj]
  by_cases hid : m.exportManifestId = k
  · simp [hid]
  · simp [hid, hnot, Ne.symm hid]

theorem exists_split_of_eventsOf {log : List (ι × Note)} {i : ι}
    {xs : List Note} {n : Note} (h : eventsOf i log = xs ++ [n]) :
    ∃ before after, log = before ++ (i, n) :: after ∧
      eventsOf i after = [] := by
  induction log using List.reverseRecOn with
  | nil => simp [eventsOf] at h
  | append_singleton log x ih =>
      by_cases hi : x.1 = i
      · refine ⟨log, [], ?_, rfl⟩
        have hx : eventsOf i (log ++ [x]) = eventsOf i log ++ [x.2] := by
          simp [eventsOf, hi]
        rw [hx] at h
        rw [← List.singleton_inj.mp (List.append_inj' h rfl).2, ← hi]
      · have hx : eventsOf i (log ++ [x]) = eventsOf i log := by
          simp [eventsOf, hi]
        rw [hx] at h
        obtain ⟨before, after, rfl, hafter⟩ := ih h
        refine ⟨before, after ++ [x], by simp, ?_⟩
        rw [eventsOf] at hafter ⊢
        simpa [List.filter_append, hi] using hafter

/-! ## One more event -/

section

variable {P : Platform} {store : Store} {k : String}

omit [DecidableEq ι] in
theorem listing_of_quiet {log later : List (ι × Note)}
    (h : ofExport k (recordedIn later) = []) :
    listing k events (log ++ later) = listing k events log := by
  simp [listing, h]

omit [DecidableEq ι] in
theorem ofExport_concat {log : List (ι × Note)} {i : ι}
    (hid : e.exportManifestId = k) :
    ofExport k (events ++ recordedIn (log ++ [(i, .recorded e)])) =
      ofExport k (events ++ recordedIn log) ++ [e] := by
  simp [recordedIn, Note.event?, ofExport, hid]

omit [DecidableEq ι] in
theorem ofExport_of_not_recorded {i : ι} {note : Note}
    (h : ¬ ∃ e, note = .recorded e ∧ e.exportManifestId = k) :
    ofExport k (recordedIn [(i, note)]) = [] := by
  cases note with
  | recorded e =>
      have hid : e.exportManifestId ≠ k := fun hid => h ⟨e, rfl, hid⟩
      simp [recordedIn, Note.event?, ofExport, hid]
  | _ => rfl

/-- An event that is stored keeps the chain if it comes last and names the
hash of the last event. -/
theorem chained_recorded_iff {moves : List (Move ι ExportCall)}
    {log : List (ι × Note)} {i : ι}
    (hlog : (System.reached (script P) store moves).log =
      log ++ [(i, .recorded e)]) (hid : e.exportManifestId = k)
    (hbefore : Chained ExportAuditEvent.previousEventHash
      ExportAuditEvent.eventHash none (listing k store.auditEvents log)) :
    Chained ExportAuditEvent.previousEventHash ExportAuditEvent.eventHash
        none (listing k store.auditEvents (log ++ [(i, .recorded e)])) ↔
      (∀ x ∈ ofExport k (store.auditEvents ++ recordedIn log),
        auditOrder x e) ∧
      e.previousEventHash = hashOfLast (listing k store.auditEvents log) := by
  have hfresh := (truthful_reached P store moves).fresh log i e [] hlog
  rw [hid] at hfresh
  have hiff := chained_insertionSort_concat hbefore hfresh
  rw [listing, ofExport_concat hid, hiff]
  refine and_congr_left fun _ => ⟨fun h x hx => ?_, insertionSort_concat⟩
  exact rel_of_insertionSort_concat h hx

theorem exists_listed_of_recorded {moves : List (Move ι ExportCall)}
    {log : List (ι × Note)} {i : ι}
    (hlog : (System.reached (script P) store moves).log =
      log ++ [(i, .recorded e)]) :
    ∃ seen xs, eventsOf i log = xs ++ [.listed e.exportManifestId seen] ∧
      e.previousEventHash = hashOfLast seen := by
  have hnotes := notes_reached P store moves i
  have hown : eventsOf i (System.reached (script P) store moves).log =
      eventsOf i log ++ [.recorded e] := by
    rw [hlog]
    simp [eventsOf]
  obtain ⟨earlier, b, hb, rfl, hxs⟩ := exists_block_of_recorded hnotes hown
  refine ⟨b.seen, earlier ++ [.changed b.manifest], ?_, hb.previous⟩
  rw [hxs, hb.exportManifestId]

theorem Orderly.initial {log later : List (ι × Note)}
    (h : Orderly k events (log ++ later)) : Orderly k events log := by
  rintro before i note after rfl
  exact h before i note (after ++ later) (by simp)

/-- In an orderly log events are listed in the order in which they were
stored. -/
theorem Orderly.listing_append {log later : List (ι × Note)}
    (h : Orderly k events (log ++ later)) :
    listing k events (log ++ later) =
      listing k events log ++ ofExport k (recordedIn later) := by
  induction later using List.reverseRecOn with
  | nil => simp [recordedIn, ofExport]
  | append_singleton later x ih =>
      rw [← List.append_assoc] at h ⊢
      obtain ⟨i, note⟩ := x
      have hinitial := ih h.initial
      by_cases hnote : ∃ e, note = .recorded e ∧ e.exportManifestId = k
      · obtain ⟨e, rfl, hid⟩ := hnote
        have horder := (h (log ++ later) i (.recorded e) [] rfl hid).2
        rw [listing, ofExport_concat hid, insertionSort_concat horder]
        have hlater : ofExport k (recordedIn (later ++ [(i, .recorded e)])) =
            ofExport k (recordedIn later) ++ [e] := by
          simp [recordedIn, Note.event?, ofExport, hid]
        rw [hlater, ← List.append_assoc, ← hinitial]
        rfl
      · have hquiet := ofExport_of_not_recorded (i := i) hnote
        rw [listing_of_quiet hquiet, hinitial, recordedIn_append,
          ofExport_append, hquiet, List.append_nil]

/-! ## Orderly logs and chains -/

theorem chained_of_orderly
    (hstore : Chained ExportAuditEvent.previousEventHash
      ExportAuditEvent.eventHash none (store.auditEventsOf k))
    {log : List (ι × Note)} (moves : List (Move ι ExportCall))
    (hlog : (System.reached (script P) store moves).log = log)
    (h : Orderly k store.auditEvents log) :
    Chained ExportAuditEvent.previousEventHash ExportAuditEvent.eventHash
      none (listing k store.auditEvents log) := by
  induction log using List.reverseRecOn generalizing moves with
  | nil =>
      rw [auditEventsOf_eq] at hstore
      simpa [listing, recordedIn] using hstore
  | append_singleton log x ih =>
      obtain ⟨i, note⟩ := x
      obtain ⟨earlier, later, rfl, hearlier⟩ := exists_moves_of_log hlog
      have hchained := ih earlier hearlier h.initial
      by_cases hnote : ∃ e, note = .recorded e ∧ e.exportManifestId = k
      · obtain ⟨e, rfl, hid⟩ := hnote
        obtain ⟨⟨before, seen, after, hsplit, hnone, hquiet⟩, horder⟩ :=
          h log i (.recorded e) [] rfl hid
        rw [chained_recorded_iff hlog hid hchained]
        refine ⟨horder, ?_⟩
        obtain ⟨seen', xs, hown, hprevious⟩ := exists_listed_of_recorded hlog
        have hlisted : eventsOf i log =
            eventsOf i before ++ [.listed k seen] := by
          rw [hsplit]
          rw [eventsOf] at hnone ⊢
          simpa [eventsOf, List.filter_append] using hnone
        rw [hlisted] at hown
        have hsame := List.singleton_inj.mp (List.append_inj' hown rfl).2
        obtain ⟨-, rfl⟩ := Note.listed.inj hsame
        have hseen := (truthful_reached P store
          earlier).listed before i k seen after (hearlier.trans hsplit)
        rw [hprevious, hseen, hsplit]
        refine congrArg hashOfLast (listing_of_quiet ?_).symm
        rw [← hquiet]
        rfl
      · rw [listing_of_quiet (ofExport_of_not_recorded hnote)]
        exact hchained

theorem finished_of_lost {moves : List (Move ι ExportCall)} {i : ι}
    (h : LostLast (eventsOf i (System.reached (script P) store moves).log)) :
    ∃ call result,
      (System.reached (script P) store moves).progress i =
        .finished call result := by
  have hi := audits_reached P store moves i
  cases hprogress : (System.reached (script P) store moves).progress i with
  | idle =>
      rw [hprogress] at hi
      rw [show eventsOf i _ = [] from hi] at h
      exact absurd h settled_nil.inProgress.not_lostLast
  | running call m =>
      obtain ⟨effect, next, rfl⟩ :=
        System.exists_transaction_of_running _ _ _ hprogress
      rw [hprogress] at hi
      exact absurd h (InProgress.not_lostLast hi.1)
  | finished call result => exact ⟨call, result, rfl⟩

theorem orderly_of_audited {moves : List (Move ι ExportCall)}
    (haudited : ∀ before after, moves = before ++ after →
      Audited k (System.reached (script P) store before))
    {log : List (ι × Note)} {before after : List (Move ι ExportCall)}
    (hmoves : moves = before ++ after)
    (hlog : (System.reached (script P) store before).log = log) :
    Orderly k store.auditEvents log := by
  have hchain : ∀ {first rest} {entries : List (ι × Note)},
      moves = first ++ rest →
      (System.reached (script P) store first).log = entries →
      Chained ExportAuditEvent.previousEventHash ExportAuditEvent.eventHash
        none (listing k store.auditEvents entries) := by
    intro first rest entries hsplit hentries
    have hchained := (haudited first rest hsplit).chained
    rwa [(truthful_reached P store first).auditEventsOf, hentries] at hchained
  induction log using List.reverseRecOn generalizing before after with
  | nil =>
      intro start i note later h
      simp at h
  | append_singleton log x ih =>
      obtain ⟨i, note⟩ := x
      obtain ⟨earlier, later, rfl, hearlier⟩ := exists_moves_of_log hlog
      have hprevious := ih (by rw [hmoves, List.append_assoc]) hearlier
      intro start j n rest h
      rcases split_concat h with ⟨rfl, heq, -⟩ | ⟨rest, -, hold⟩
      swap
      · exact hprevious start j n rest hold
      obtain ⟨rfl, rfl⟩ := Prod.mk.inj heq
      have hown : eventsOf j (System.reached (script P) store
          (earlier ++ later)).log = eventsOf j start ++ [n] := by
        rw [hlog]
        simp [eventsOf]
      cases n with
      | recorded e =>
          intro hid
          have hbefore := hchain (by rw [hmoves, List.append_assoc]) hearlier
          obtain ⟨horder, hlast⟩ :=
            (chained_recorded_iff hlog hid hbefore).mp (hchain hmoves hlog)
          refine ⟨?_, horder⟩
          obtain ⟨seen, xs, hlisted, hbuilt⟩ := exists_listed_of_recorded hlog
          obtain ⟨first, second, rfl, hsecond⟩ :=
            exists_split_of_eventsOf hlisted
          rw [hid] at hearlier hprevious hlast ⊢
          refine ⟨first, seen, second, rfl, hsecond, ?_⟩
          have htruthful := truthful_reached P store earlier
          have hseen := htruthful.listed first j k seen second hearlier
          have hsame : hashOfLast seen = hashOfLast
              (seen ++ ofExport k (recordedIn second)) := by
            rw [← hbuilt, hlast, hprevious.listing_append, ← hseen]
            rfl
          by_contra hsome
          obtain ⟨init, x, hx⟩ := (List.eq_nil_or_concat _).resolve_left hsome
          rw [List.concat_eq_append] at hx
          rw [hx, ← List.append_assoc, hashOfLast, hashOfLast,
            lastHash_concat] at hsame
          obtain ⟨y, hy, hhash⟩ := Option.map_eq_some_iff.mp hsame
          have hxmem : x ∈ ofExport k (recordedIn second) := by
            rw [hx]
            exact List.mem_append_right _ List.mem_cons_self
          obtain ⟨hxrecorded, hxid⟩ := List.mem_filter.mp hxmem
          obtain ⟨⟨i', note⟩, hnote, hevent⟩ := List.mem_filterMap.mp hxrecorded
          obtain ⟨left, right, rfl⟩ := List.append_of_mem hnote
          cases note with
          | recorded x' =>
              obtain rfl := Option.some.inj hevent
              have hxid := of_decide_eq_true hxid
              have hfresh := htruthful.fresh
                (first ++ (j, .listed k seen) :: left) i' x' right
                (by rw [hearlier]; simp)
              refine hfresh y ?_ hhash
              have hymem := List.mem_of_getLast? hy
              rw [hseen, listing, List.mem_insertionSort] at hymem
              rw [hxid, recordedIn_append, ← List.append_assoc, ofExport_append]
              exact List.mem_append_left _ hymem
          | _ => cases hevent
      | lost id =>
          intro hid
          subst hid
          have hmem : .lost id ∈ eventsOf j (System.reached (script P) store
              (earlier ++ later)).log := by
            rw [hown]
            exact List.mem_append_right _ List.mem_cons_self
          have hlost : LostLast (eventsOf j (System.reached (script P) store
              (earlier ++ later)).log) :=
            (notes_reached P store (earlier ++ later) j).resolve_left
              fun h => h.lost_not_mem id hmem
          obtain ⟨call, result, hfinished⟩ := finished_of_lost hlost
          have hrecorded := (haudited _ _ hmoves).recorded j call result
            hfinished
          exact (hlost.recordsOf_eq_iff id).mp hrecorded hmem
      | _ => trivial

theorem audited_of_orderly
    (hstore : Chained ExportAuditEvent.previousEventHash
      ExportAuditEvent.eventHash none (store.auditEventsOf k))
    {moves : List (Move ι ExportCall)} (h : Orderly k store.auditEvents
      (System.reached (script P) store moves).log) :
    Audited k (System.reached (script P) store moves) where
  chained := by
    rw [(truthful_reached P store moves).auditEventsOf]
    exact chained_of_orderly hstore moves rfl h
  recorded := by
    intro i call result hfinished
    have hi := audits_reached P store moves i
    rw [hfinished] at hi
    rcases hi with hsettled | ⟨hlost, -⟩
    · exact hsettled.recordsOf_eq k
    · rw [hlost.recordsOf_eq_iff]
      intro hmem
      obtain ⟨⟨j, note⟩, hnote, rfl⟩ := List.mem_map.mp hmem
      obtain ⟨before, after, hsplit⟩ :=
        List.append_of_mem (List.mem_of_mem_filter hnote)
      exact h before j _ after hsplit rfl

/-- The events of an export are a chain with one event for each change in
every state of a run exactly when they were one before it and every event
comes last, is built on the last event, and is not lost. -/
theorem audited_iff_orderly (P : Platform) (store : Store) (k : String)
    (moves : List (Move ι ExportCall)) :
    (∀ before after, moves = before ++ after →
      Audited k (System.reached (script P) store before)) ↔
        Chained ExportAuditEvent.previousEventHash ExportAuditEvent.eventHash
          none (store.auditEventsOf k) ∧
        Orderly k store.auditEvents
          (System.reached (script P) store moves).log := by
  constructor
  · intro h
    exact ⟨(h [] moves rfl).chained,
      orderly_of_audited h (List.append_nil moves).symm rfl⟩
  · rintro ⟨hstore, horderly⟩ before after rfl
    obtain ⟨later, hlater⟩ := System.log_grows (script P) store before after
    rw [← hlater] at horderly
    exact audited_of_orderly hstore horderly.initial

/-! ## Two overlapping calls -/

theorem advance_render {renderer : Renderer} (inputs : ℕ → CallInputs)
    (hm : s.getExportManifest k = .ok m) (hprepared : m.status = .prepared)
    (hcapability : validateRendererCapability P renderer.capability = .ok ())
    (hsupports : renderer.capability.supports m.format = true)
    (hpackage : s.getRenderPackage m.renderPackageId = .ok package) :
    ∃ rest, (script P (.render k renderer inputs)).advance 3 s = (s, [],
      recordChange P m.inRendering (saveUpdate m.inRendering) "RENDER_START"
        none (.obj []) (inputs 0) >>= rest) := by
  have hcheck : (if m.status ≠ .prepared then
      .error (reportError "REPORT_RENDER_FAILED"
        "Export manifest is not prepared for rendering."
        (some "export_manifest_id")
        [("manifest_status", .str m.status.value)] false)
    else validateRendererCapability P renderer.capability :
      Except PyError Unit) = .ok () := by
    rw [if_neg (not_not.mpr hprepared), hcapability]
  rw [script, renderExport, Script.bind_bind,
    Script.advance_query_bind (s := s) hm, Script.bind_bind,
    Script.advance_query_bind (s := s) hcheck,
    if_neg (by rw [hsupports]; decide), Script.bind_bind,
    Script.advance_query_bind (s := s) hpackage, Script.bind_bind]
  exact ⟨_, rfl⟩

theorem advance_recordChange {α : Type}
    (save : Store → Except PyError (Unit × Store)) (action : String)
    (actorId : Option String) (details : Json) (inputs : CallInputs)
    (rest : Unit → ExportScript α) (hsave : save s = .ok ((), t)) :
    ∃ seen event,
      (recordChange P m save action actorId details inputs >>= rest).advance
        2 s = (t, [.changed m, .listed m.exportManifestId seen],
          insertEvent m (auditEvent P m action actorId details inputs event)
            >>= rest) := by
  refine ⟨t.auditEventsOf m.exportManifestId,
    t.auditEventsOf m.exportManifestId, ?_⟩
  have hmap : ((save s).map fun r => (r.1, r.2, [Note.changed m])) =
      .ok ((), t, [.changed m]) := by
    rw [hsave]
    rfl
  rw [recordChange, Script.bind_bind, Script.advance_attempt_bind (s := s) hmap]
  rfl

theorem advance_insertEvent {α : Type} (m : ExportManifest) (action : String)
    (actorId : Option String) (details : Json) (inputs : CallInputs)
    (seen : List ExportAuditEvent) (rest : Unit → ExportScript α) (s : Store) :
    ∃ note t m', (insertEvent m (auditEvent P m action actorId details inputs
        seen) >>= rest).advance 1 s = (t, [note], m') ∧
      (note = .lost m.exportManifestId ∨
        ∃ e, note = .recorded e ∧
          e.exportManifestId = m.exportManifestId) := by
  rw [insertEvent, Script.advance_one_bind]
  rcases hevent : saveEvent (auditEvent P m action actorId details inputs
    seen) s with e | ⟨event, t⟩
  · exact ⟨_, _, _, rfl, Or.inl rfl⟩
  · obtain ⟨event', hbuilt, hevent⟩ := bind_ok hevent
    obtain ⟨t', -, hevent⟩ := bind_ok hevent
    obtain ⟨rfl, rfl⟩ := ok_pair_inj hevent
    exact ⟨_, _, _, rfl, Or.inr ⟨event', rfl,
      (auditEvent_eq_ok hbuilt).exportManifestId⟩⟩

/-- Two calls that mark and list before either has stored its event. -/
def overlapping (call call' : ExportCall) : List (Move Bool ExportCall) :=
  [.start true call, .start false call'] ++ List.replicate 3 (.advance true) ++
    List.replicate 3 (.advance false) ++ List.replicate 2 (.advance true) ++
    List.replicate 2 (.advance false) ++ List.replicate 1 (.advance true) ++
    List.replicate 1 (.advance false)

theorem overlapping_log {renderer : Renderer} (inputs inputs' : ℕ → CallInputs)
    (hm : s.getExportManifest k = .ok m) (hprepared : m.status = .prepared)
    (hcapability : validateRendererCapability P renderer.capability = .ok ())
    (hsupports : renderer.capability.supports m.format = true)
    (hpackage : s.getRenderPackage m.renderPackageId = .ok package) :
    ∃ seen seen' note note', (System.reached (script P) s
        (overlapping (.render k renderer inputs)
          (.render k renderer inputs'))).log =
      [(true, .changed m.inRendering), (true, .listed k seen),
        (false, .changed m.inRendering), (false, .listed k seen'),
        (true, note), (false, note')] ∧
      (note = .lost k ∨ ∃ e, note = .recorded e ∧ e.exportManifestId = k) ∧
      (note' = .lost k ∨
        ∃ e, note' = .recorded e ∧ e.exportManifestId = k) := by
  obtain rfl := (getExportManifest_mem hm).2
  obtain ⟨rest, hrest⟩ := advance_render (P := P) inputs hm hprepared
    hcapability hsupports hpackage
  obtain ⟨rest', hrest'⟩ := advance_render (P := P) inputs' hm hprepared
    hcapability hsupports hpackage
  have hstart : ∃ w : ExportSystem Bool, run (System.step (script P))
      (System.initial s) [.start true (.render m.exportManifestId renderer
        inputs), .start false (.render m.exportManifestId renderer inputs')] =
          w ∧ w.store = s ∧ w.log = [] ∧
      w.progress true = .settle (.render m.exportManifestId renderer inputs)
        (script P (.render m.exportManifestId renderer inputs)) ∧
      w.progress false = .settle (.render m.exportManifestId renderer inputs')
        (script P (.render m.exportManifestId renderer inputs')) :=
    ⟨_, rfl, rfl, rfl, rfl, rfl⟩
  obtain ⟨w, hw, hstore, hlog, htrue, hfalse⟩ := hstart
  rw [System.reached, overlapping, run_append, run_append, run_append,
    run_append, run_append, run_append, hw]
  obtain ⟨a, ha, hstorea, hloga, htruea, hkepta⟩ :=
    System.exists_run_advance htrue (by rw [hstore, hrest])
  have hfalsea := (hkepta false (by decide)).trans hfalse
  obtain ⟨b, hb, hstoreb, hlogb, hfalseb, hkeptb⟩ :=
    System.exists_run_advance hfalsea (by rw [hstorea, hrest'])
  have htrueb := (hkeptb true (by decide)).trans htruea
  obtain ⟨seen, event, hchange⟩ := advance_recordChange (P := P)
    (m := m.inRendering) (s := b.store) (saveUpdate m.inRendering)
    "RENDER_START" none (.obj []) (inputs 0) rest rfl
  obtain ⟨c, hc, hstorec, hlogc, htruec, hkeptc⟩ :=
    System.exists_run_advance htrueb hchange
  have hfalsec := (hkeptc false (by decide)).trans hfalseb
  obtain ⟨seen', event', hchange'⟩ := advance_recordChange (P := P)
    (m := m.inRendering) (s := c.store) (saveUpdate m.inRendering)
    "RENDER_START" none (.obj []) (inputs' 0) rest' rfl
  obtain ⟨d, hd, hstored, hlogd, hfalsed, hkeptd⟩ :=
    System.exists_run_advance hfalsec hchange'
  have htrued := (hkeptd true (by decide)).trans htruec
  obtain ⟨note, t, rest₁, hinsert, hnote⟩ := advance_insertEvent (P := P)
    m.inRendering "RENDER_START" none (.obj []) (inputs 0) event rest d.store
  obtain ⟨e, he, hstoree, hloge, htruee, hkepte⟩ :=
    System.exists_run_advance htrued hinsert
  have hfalsee := (hkepte false (by decide)).trans hfalsed
  obtain ⟨note', t', rest₂, hinsert', hnote'⟩ := advance_insertEvent (P := P)
    m.inRendering "RENDER_START" none (.obj []) (inputs' 0) event' rest'
    e.store
  obtain ⟨g, hg, hstoreg, hlogg, hfalseg, hkeptg⟩ :=
    System.exists_run_advance hfalsee hinsert'
  refine ⟨seen, seen', note, note', ?_, hnote, hnote'⟩
  rw [ha, hb, hc, hd, he, hg, hlogg, hloge, hlogd, hlogc, hlogb, hloga, hlog]
  rfl

theorem overlapping_not_orderly {events seen seen' : List _} {note note' : Note}
    (hnote : note = .lost k ∨ ∃ e, note = .recorded e ∧
      e.exportManifestId = k)
    (hnote' : note' = .lost k ∨ ∃ e, note' = .recorded e ∧
      e.exportManifestId = k) :
    ¬ Orderly k events [(true, .changed m), (true, .listed k seen),
      (false, .changed m), (false, .listed k seen'), (true, note),
      (false, note')] := by
  intro h
  have hfirst := h [(true, .changed m), (true, .listed k seen),
    (false, .changed m), (false, .listed k seen')] true note
    [(false, note')] rfl
  have hsecond := h [(true, .changed m), (true, .listed k seen),
    (false, .changed m), (false, .listed k seen'), (true, note)] false note'
    [] rfl
  rcases hnote with rfl | ⟨e, rfl, hid⟩
  · exact hfirst rfl
  rcases hnote' with rfl | ⟨e', rfl, hid'⟩
  · exact hsecond rfl
  obtain ⟨⟨before, x, after, hsplit, -, hquiet⟩, -⟩ := hsecond hid'
  have hconcat : [(true, Note.changed m), (true, .listed k seen),
      (false, .changed m), (false, .listed k seen')] ++
        [(true, .recorded e)] = before ++ (false, .listed k x) :: after :=
    hsplit
  rcases split_concat hconcat with ⟨-, heq, -⟩ | ⟨rest, rfl, -⟩
  · cases (Prod.mk.inj heq).1
  · simp [recordedIn, Note.event?, ofExport, hid] at hquiet

end

/-- The export of an approved version, rendered by two calls at once. -/
theorem overlappingRenders_not_audited :
    ¬ ∀ before after, overlapping
        (.render "x" failingRenderer exportInputs)
        (.render "x" failingRenderer exportInputs) = before ++ after →
      Audited "x" (System.reached (script spelledPlatform)
        (Reports.reached spelledPlatform oneCase exportedReview) before) := by
  intro h
  obtain ⟨m, package, hm, hprepared, hcapability, hsupports, hpackage⟩ :=
    exportedReview_renders
  obtain ⟨seen, seen', note, note', hlog, hnote, hnote'⟩ :=
    overlapping_log (P := spelledPlatform) exportInputs exportInputs hm
      hprepared hcapability hsupports hpackage
  have horderly := orderly_of_audited h (List.append_nil _).symm hlog
  exact overlapping_not_orderly hnote hnote' horderly

end ApexForensic.Reports.Interleaved
