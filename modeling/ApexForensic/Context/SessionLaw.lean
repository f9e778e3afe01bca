import ApexForensic.Context.SessionRevisions

/-!
# The law of session contexts

Each call is followed through its transactions: what it read stays a revision
of the context, and what it saves follows that revision.
-/

namespace ApexForensic.Context

open ApexForensic.Support ApexForensic.Domain

variable {context : GuiSessionContext}

variable {ι : Type} {P : Platform} {i : ι} {request : Request} {β : Type}
  {φ : β → Reply} {h : History SessionStore ι Saved}

/-! ## The parts of a call -/

theorem safe_raise (error : PyError) :
    (φ <$> (Script.raise error : SessionScript β)).Safe revisionOrder i request
      h := by
  intro reply hreply
  cases hreply

theorem safe_getContext {id : String} {f : GuiSessionContext → SessionScript β}
    (hsafe : ∀ k, Extends h k → Kept k → ∀ context,
      IsRevision context k →
      (φ <$> f context).Safe revisionOrder i request k) :
    (φ <$> (getContext id >>= f)).Safe revisionOrder i request h := by
  rw [getContext, Script.read_bind_bind]
  refine Script.safe_map_read_bind fun k hrely hkept => ?_
  cases hfound : k.store.contexts.find? id with
  | none => exact safe_raise _
  | some context =>
      refine hsafe k hrely hkept context fun hundisturbed => ?_
      exact (hkept.recorded hundisturbed).live context
        (Table.find?_eq_some_iff.mp hfound).1

/-- A call that goes on has found the row still live; it then was not stored
as an expired one. -/
theorem safe_ensureLive {f : Unit → SessionScript β}
    (hrow : IsRevision context h) (hsafe : ∀ k, Extends h k → Kept k →
      (Undisturbed k.log → ¬ context.StoredExpired) →
      (φ <$> f ()).Safe revisionOrder i request k) :
    (φ <$> (ensureLive context >>= f)).Safe revisionOrder i request h := by
  rw [ensureLive, clockNow, Script.read_bind_bind]
  refine Script.safe_map_read_bind fun k hrely hkept => ?_
  split_ifs with hexpired
  · exact safe_raise _
  · refine hsafe k hrely hkept fun hundisturbed hstored => hexpired ?_
    obtain ⟨t, ht, hle⟩ := hstored
    have hpast := (hkept.recorded hundisturbed).past context
      (hrow.of_extends hrely hundisturbed)
    rw [Option.mem_def.mp ht]
    exact decide_eq_true (hle.trans hpast)

theorem safe_ensureRevision {expected : ℕ} {f : Unit → SessionScript β}
    (hsafe : context.contextRevision = expected →
      (φ <$> f ()).Safe revisionOrder i request h) :
    (φ <$> (ensureRevision context expected >>= f)).Safe revisionOrder i
      request h := by
  rw [ensureRevision]
  split_ifs with hrevision
  · exact safe_raise _
  · exact hsafe (not_not.mp hrevision)

theorem safe_validateNow {f : List RevisionState → SessionScript β}
    (hsafe : ∀ k, Extends h k → Kept k → ∀ states,
      (φ <$> f states).Safe revisionOrder i request k) :
    (φ <$> (validateNow P context >>= f)).Safe revisionOrder i request h := by
  rw [validateNow, Script.read_bind_bind]
  refine Script.safe_map_read_bind fun k hrely hkept => ?_
  cases validateSourceRevisions P k.store.sources context k.store.now with
  | error error => exact safe_raise _
  | ok states => exact hsafe k hrely hkept states

theorem safe_clockNow {f : Instant → SessionScript β}
    (hsafe : ∀ k, Extends h k → Kept k →
      (φ <$> f k.store.now).Safe revisionOrder i request k) :
    (φ <$> (clockNow >>= f)).Safe revisionOrder i request h :=
  Script.safe_map_read_bind hsafe

theorem safe_saveContext {base saved : GuiSessionContext} {result : β}
    (hfollows : Follows base saved h)
    (hstored : ∀ context, (φ result).stored = some context →
      context = saved) :
    (φ <$> (saveContext base saved >>= fun _ =>
      (pure result : SessionScript β))).Safe revisionOrder i request h := by
  refine Script.safe_map_commit_bind fun k hrely hkept => ?_
  have hkept' : Kept (afterSave k i base saved) :=
    hkept.save (hfollows.of_extends hrely)
  refine ⟨hkept', extends_afterSave, fun reply hreply context hcontext => ?_⟩
  obtain rfl := Except.ok.inj hreply
  rw [hstored context hcontext]
  intro hundisturbed
  have hmem := (hkept'.recorded hundisturbed).saved _
    (List.mem_append_right _ (List.mem_singleton_self _))
  exact hmem.1

/-! ## The calls -/

theorem applyUpdates_keeps {updated : GuiSessionContext}
    {updates : ContextUpdates}
    (h : applyUpdates P context updates = .ok updated) :
    updated.sessionContextId = context.sessionContextId ∧
      updated.caseId = context.caseId ∧
      updated.createdAt = context.createdAt := by
  obtain ⟨_, -, h⟩ := bind_ok h
  obtain ⟨_, -, h⟩ := bind_ok h
  obtain ⟨_, -, h⟩ := bind_ok h
  obtain ⟨_, -, h⟩ := bind_ok h
  obtain rfl := Except.ok.inj h
  exact ⟨rfl, rfl, rfl⟩

theorem safe_persistContextUpdate {base updated : GuiSessionContext}
    {expected : ℕ} (hrow : IsRevision base h)
    (hlive : Undisturbed h.log → ¬ base.StoredExpired)
    (hexpected : base.contextRevision = expected)
    (hkeeps : updated.sessionContextId = base.sessionContextId ∧
      updated.caseId = base.caseId ∧ updated.createdAt = base.createdAt) :
    (Reply.context <$> persistContextUpdate P base updated expected).Safe
      revisionOrder i request h := by
  refine safe_validateNow fun k hhk _ states => ?_
  refine safe_clockNow fun l hkl _ => ?_
  have hhl := revisionOrder.trans hhk hkl
  dsimp only
  cases validateContextPayload P
      (nextRevision P updated expected states l.store.now) with
  | error error => exact safe_raise _
  | ok _ =>
      refine safe_saveContext ?_ fun context hcontext =>
        (Option.some.inj hcontext).symm
      exact {
        row := hrow.of_extends hhl
        sessionContextId := hkeeps.1
        contextRevision := by rw [hexpected]; rfl
        caseId := hkeeps.2.1
        createdAt := hkeeps.2.2
        updatedAt := le_rfl
        expired := fun hl hexpired =>
          absurd hexpired (hlive (hhl.undisturbed hl)) }

theorem safe_update (id : String) (expected : ℕ) (updates : ContextUpdates) :
    (Reply.context <$> update P id expected updates).Safe revisionOrder i
      request h := by
  refine safe_getContext fun k _ _ context hrow => ?_
  refine safe_ensureLive hrow fun l hkl _ hlive => ?_
  refine safe_ensureRevision fun hrevision => ?_
  cases hupdated : applyUpdates P context updates with
  | error error => exact safe_raise _
  | ok updated =>
      exact safe_persistContextUpdate (hrow.of_extends hkl) hlive hrevision
        (applyUpdates_keeps hupdated)

theorem safe_selectItems (id : String) (expected : ℕ) (resourceType : String)
    (resourceIds : List String) (mode : String) :
    (Reply.context <$> selectItems P id expected resourceType resourceIds
      mode).Safe revisionOrder i request h := by
  refine safe_getContext fun k _ _ context hrow => ?_
  refine safe_ensureLive hrow fun l _ _ _ => ?_
  refine safe_ensureRevision fun _ => ?_
  cases selectionField resourceType with
  | error error => exact safe_raise _
  | ok field =>
      cases selectionMode mode with
      | error error => exact safe_raise _
      | ok mode => exact safe_update _ _ _

theorem refreshed_eq_of_not_changed {states : List RevisionState}
    {now : Instant}
    (h : ¬ context.changed (context.refreshed P states now) = true) :
    context.refreshed P states now = context := by
  simp only [GuiSessionContext.changed, Bool.or_eq_true, decide_eq_true_eq,
    not_or, not_not] at h
  obtain ⟨⟨hpart, hreasons⟩, hupdated⟩ := h
  cases context
  simp only [GuiSessionContext.refreshed] at hpart hreasons hupdated ⊢
  simp [hpart, hreasons, hupdated]

theorem safe_refreshRevisionState (id : String) (expected : Option ℕ) :
    (Reply.report <$> refreshRevisionState P id expected).Safe revisionOrder i
      request h := by
  refine safe_getContext fun k _ _ context hrow => ?_
  refine safe_ensureLive hrow fun l hkl _ hlive => ?_
  refine safe_ensureRevision fun _ => ?_
  refine safe_validateNow fun m hlm _ states => ?_
  refine safe_clockNow fun n hmn _ => ?_
  have hln := revisionOrder.trans hlm hmn
  have hkn := revisionOrder.trans hkl hln
  dsimp only
  split_ifs with hchanged
  · refine safe_saveContext ?_ fun context hcontext =>
      (Option.some.inj hcontext).symm
    exact {
      row := hrow.of_extends hkn
      sessionContextId := rfl
      contextRevision := rfl
      caseId := rfl
      createdAt := rfl
      updatedAt := le_rfl
      expired := fun hn hexpired =>
        absurd hexpired (hlive (hln.undisturbed hn)) }
  · intro reply hreply stored hstored
    obtain rfl := Except.ok.inj hreply
    obtain rfl := Option.some.inj hstored
    rw [refreshed_eq_of_not_changed hchanged]
    exact hrow.of_extends hkn

theorem safe_expire (id : String) (expected : Option ℕ) :
    (Reply.context <$> expire id expected).Safe revisionOrder i request h := by
  refine safe_getContext fun k _ _ context hrow => ?_
  refine safe_ensureRevision fun _ => ?_
  refine safe_clockNow fun l hkl _ => ?_
  refine safe_clockNow fun m hlm _ => ?_
  refine safe_saveContext ?_ fun context hcontext =>
    (Option.some.inj hcontext).symm
  exact {
    row := hrow.of_extends (revisionOrder.trans hkl hlm)
    sessionContextId := rfl
    contextRevision := rfl
    caseId := rfl
    createdAt := rfl
    updatedAt := le_rfl
    expired := fun _ _ => ⟨l.store.now, rfl, hlm.now⟩ }

/-! ## Any number of clients -/

theorem safe_environment {f : SessionStore → SessionStore}
    (hf : ∀ s, (f s).contexts = s.contexts ∧ (f s).revisions = s.revisions ∧
      s.now.micros ≤ (f s).now.micros) :
    (Script.write (fun s => (f s, [])) >>= fun _ =>
      (pure Reply.nothing : SessionScript Reply)).Safe revisionOrder i request
      h := by
  refine Script.safe_commit_bind fun k _ hkept => ?_
  obtain ⟨hcontexts, hrevisions, hnow⟩ := hf k.store
  have hlog : (k.after i (f k.store, [])).log = k.log := List.append_nil _
  have hstore : (k.after i (f k.store, [])).store = f k.store := rfl
  change Kept (k.after i (f k.store, [])) ∧
    Extends k (k.after i (f k.store, [])) ∧ _
  refine ⟨⟨?_, ?_⟩, ⟨?_, ?_, hnow⟩, ?_⟩
  · rw [hlog, hstore]
    intro hundisturbed
    obtain ⟨hlive, hrange, howned, hpast, hmade, hsaved, honce, hexpired⟩ :=
      hkept.recorded hundisturbed
    rw [← hcontexts, ← hrevisions] at hlive hrange howned
    rw [← hrevisions] at hpast hmade hsaved hexpired
    exact ⟨hlive, hrange, howned, fun row hrow => (hpast row hrow).trans hnow,
      hmade, hsaved, honce, hexpired⟩
  · rw [hlog]
    exact hkept.disturbed
  · rw [hlog]
  · intro row hrow
    rw [hstore, hrevisions]
    exact hrow
  · intro reply hreply context hstored
    obtain rfl := Except.ok.inj hreply
    cases hstored

variable (P) in
theorem safe_script (i : ι) (request : Request)
    (h : History SessionStore ι Saved) :
    (script P request).Safe revisionOrder i request h := by
  cases request with
  | update id expected updates => exact safe_update id expected updates
  | selectItems id expected resourceType resourceIds mode =>
      exact safe_selectItems id expected resourceType resourceIds mode
  | clearSelection id expected => exact safe_update id expected clearedSelection
  | refreshRevisionState id expected =>
      exact safe_refreshRevisionState id expected
  | expire id expected => exact safe_expire id expected
  | elapse time =>
      refine safe_environment fun s => ⟨rfl, rfl, ?_⟩
      dsimp only
      split_ifs with hlater
      · exact hlater
      · exact le_rfl
  | changeSources sources =>
      exact safe_environment fun s => ⟨rfl, rfl, le_rfl⟩

/-- The contexts have been created, and nothing else has happened. -/
structure Created (store : SessionStore) : Prop where
  first : ∀ c ∈ store.contexts.rows, c.contextRevision = 1
  revisions : store.revisions.rows = store.contexts.rows
  past : ∀ c ∈ store.contexts.rows, c.updatedAt.micros ≤ store.now.micros

theorem Created.kept {store : SessionStore} (hcreated : Created store) :
    Kept (ι := ι) ⟨store, []⟩ := by
  have hempty : Undisturbed ([] : List (ι × Saved)) := fun _ hp =>
    absurd hp List.not_mem_nil
  refine ⟨fun _ => ?_, fun h => absurd hempty h⟩
  have hrows := hcreated.revisions
  refine ⟨?_, ?_, ?_, ?_, ?_, fun p hp => absurd hp List.not_mem_nil,
    List.nodup_nil, ?_⟩
  · intro c hc
    rwa [hrows]
  · intro c hc n
    rw [hrows, hcreated.first c hc]
    constructor
    · rintro ⟨row, hrow, hkey⟩
      have hrevision := (Prod.mk.inj hkey).2
      rw [hcreated.first row hrow] at hrevision
      omega
    · rintro ⟨hlow, hhigh⟩
      refine ⟨c, hc, Prod.ext rfl ?_⟩
      change c.contextRevision = n
      rw [hcreated.first c hc]
      omega
  · intro row hrow
    rw [hrows] at hrow
    exact ⟨row, hrow, rfl⟩
  · intro row hrow
    rw [hrows] at hrow
    exact hcreated.past row hrow
  · intro row hrow
    rw [hrows] at hrow
    exact Or.inl (hcreated.first row hrow)
  · intro a ha b hb hid _ hexpired
    rw [hrows] at ha hb
    rwa [← store.contexts.row_unique ha hb hid]

/-- What optimistic concurrency promises in a reachable state. -/
structure Lawful (w : System SessionStore ι Saved PyError Reply Request) :
    Prop where
  /-- The live row is the revision row of its revision. -/
  live : ∀ c ∈ w.store.contexts.rows,
    w.store.revisions.find? c.revisionKey = some c
  /-- The revisions of a context are those from 1 to that of its live row. -/
  range : ∀ c ∈ w.store.contexts.rows, ∀ n,
    (w.store.revisions.find? (c.sessionContextId, n)).isSome ↔
      1 ≤ n ∧ n ≤ c.contextRevision
  /-- A revision is committed by one call at most. -/
  once : SavedOnce w.log
  /-- What a call returned is a stored revision. -/
  returned : ∀ i request reply,
    w.progress i = .finished request (.ok reply) → ∀ context,
      reply.stored = some context → context ∈ w.store.revisions.rows
  /-- A revision is live, or a call that had read it has stored the next. -/
  followed : ∀ row ∈ w.store.revisions.rows, row ∈ w.store.contexts.rows ∨
    ∃ p ∈ w.log, p.2.base = row ∧ p.2.saved.revisionKey =
      (row.sessionContextId, row.contextRevision + 1)
  /-- A context that was stored as expired is not live again. -/
  expired : ∀ row ∈ w.store.revisions.rows, row.StoredExpired →
    ∀ c ∈ w.store.contexts.rows, c.sessionContextId = row.sessionContextId →
      ∃ t ∈ c.expiresAt, t.micros ≤ w.store.now.micros

theorem Recorded.lawful
    {w : System SessionStore ι Saved PyError Reply Request}
    (hrecorded : Recorded w.store w.log) (hreturned : ∀ i request reply,
      w.progress i = .finished request (.ok reply) → ∀ context,
        reply.stored = some context → context ∈ w.store.revisions.rows) :
    Lawful w := by
  refine ⟨?_, ?_, hrecorded.once, hreturned, ?_, ?_⟩
  · intro c hc
    exact Table.find?_eq_some_iff.mpr ⟨hrecorded.live c hc, rfl⟩
  · intro c hc n
    rw [← hrecorded.range c hc n, Option.isSome_iff_exists]
    exact exists_congr fun row => Table.find?_eq_some_iff
  · intro row hrow
    obtain ⟨c, hc, hcid⟩ := hrecorded.owned row hrow
    have hle := (hrecorded.range c hc row.contextRevision).mp
      ⟨row, hrow, Prod.ext hcid.symm rfl⟩
    by_cases hlast : row.contextRevision = c.contextRevision
    · left
      have hkey : row.revisionKey = c.revisionKey := Prod.ext hcid.symm hlast
      rwa [w.store.revisions.row_unique hrow (hrecorded.live c hc) hkey]
    · right
      obtain ⟨next, hnext, hkey⟩ :=
        (hrecorded.range c hc (row.contextRevision + 1)).mpr (by omega)
      rcases hrecorded.made next hnext with hfirst | ⟨p, hp, rfl⟩
      · have := (Prod.mk.inj hkey).2
        omega
      · obtain ⟨-, hbase, hsaved⟩ := hrecorded.saved p hp
        refine ⟨p, hp, ?_, by rw [hkey, hcid]⟩
        rw [hkey] at hsaved
        obtain ⟨hid, hrevision⟩ := Prod.mk.inj hsaved
        exact w.store.revisions.row_unique hbase hrow
          (Prod.ext (hid.symm.trans hcid) (Nat.succ.inj hrevision).symm)
  · intro row hrow hexpired c hc hcid
    have hle := (hrecorded.range c hc row.contextRevision).mp
      ⟨row, hrow, Prod.ext hcid.symm rfl⟩
    obtain ⟨t, ht, hstored⟩ := hrecorded.expired row hrow c
      (hrecorded.live c hc) hcid.symm hle.2 hexpired
    exact ⟨t, ht, hstored.trans (hrecorded.past c (hrecorded.live c hc))⟩

/-- In every interleaving of any number of clients a revision row never
changes, and the contexts are lawful exactly as long as each save has found
the live row that its call had read. -/
theorem session_contexts_lawful [DecidableEq ι] {store : SessionStore}
    (hcreated : Created store) (moves : List (Move ι Request)) :
    (∀ more, ∀ row ∈
        (System.reached (script P) store moves).store.revisions.rows, row ∈
        (System.reached (script P) store (moves ++ more)).store.revisions.rows) ∧
      (Lawful (System.reached (script P) store moves) ↔
        Undisturbed (System.reached (script P) store moves).log) := by
  have hscripts : ∀ (i : ι) request h, revisionOrder.inv h →
      (script P request).Safe revisionOrder i request h :=
    fun i request h _ => safe_script P i request h
  have hsound := System.sound_reached hscripts hcreated.kept moves
  refine ⟨fun more => ?_, fun hlawful => ?_, fun hundisturbed => ?_⟩
  · exact (System.rely_reached hscripts hcreated.kept moves more).revisions
  · by_contra hdisturbed
    exact hsound.inv.disturbed hdisturbed hlawful.once
  · apply (hsound.inv.recorded hundisturbed).lawful
    intro i request reply hfinished context hstored
    have hpost := hsound.safe i
    rw [hfinished] at hpost
    exact hpost reply rfl context hstored hundisturbed

/-! ## A refresh that overtakes an expiry -/

/-- A platform with no texts to parse. -/
def plainPlatform : Platform where
  casefold s := s
  sha256 _ := ""
  uuid5 s := s
  parseTimestamp _ := .error (.builtin .valueError "")

def noSources : Sources where
  cases := ["case"]
  evidence := Table.empty _
  nodes := Table.empty _
  artifacts := Table.empty _
  events := Table.empty _
  queries := Table.empty _
  results := Table.empty _
  executions := Table.empty _
  candidates := Table.empty _
  custody := Table.empty _

/-- A context that was just created and is live for a while. -/
def newContext : GuiSessionContext where
  sessionContextId := "context"
  sessionId := "session"
  caseId := "case"
  actorId := none
  locale := "ko-KR"
  timezone := "Asia/Seoul"
  currentRoute := .caseOverview
  currentPanel := none
  activeEvidenceId := none
  selectedFileNodeIds := []
  selectedArtifactIds := []
  selectedTimelineEventIds := []
  selectedSearchResultIds := []
  selectedMediaArtifactIds := []
  selectedBrowserArtifactIds := []
  selectedCandidateIds := []
  activeFilters := []
  activeSort := []
  activeTimeRange := []
  activeKeywordSetId := none
  activeKeywordSetVersion := none
  activeSearchExecutionId := none
  activeTimelineRevision := none
  activeContextScope := .case
  uiPreferences := []
  contextRevision := 1
  sourceRevisionFingerprint := ""
  isPartial := false
  staleReasons := []
  createdAt := ⟨0, Instant.zero_inRange⟩
  updatedAt := ⟨0, Instant.zero_inRange⟩
  expiresAt := some ⟨1000, by omega⟩

def oneContext : SessionStore where
  contexts := ⟨[newContext], List.nodup_singleton _⟩
  revisions := ⟨[newContext], List.nodup_singleton _⟩
  sources := noSources
  now := ⟨10, by omega⟩

theorem created_oneContext : Created oneContext where
  first c hc := by
    obtain rfl := List.mem_singleton.mp hc
    rfl
  revisions := rfl
  past c hc := by
    obtain rfl := List.mem_singleton.mp hc
    decide

/-- A client expires the context while another one refreshes it. -/
def overtaken : List (Move ℕ Request) :=
  [.start 0 (.refreshRevisionState "context" none), .advance 0,
    .start 1 (.expire "context" none), .advance 1, .advance 1, .advance 1,
    .advance 1, .advance 0, .advance 0, .advance 0, .advance 0]

/-- The refresh stores the revision of the expiry again, and the context is
live. -/
theorem overtaken_not_lawful :
    ¬ ∀ (P : Platform) (store : SessionStore) (moves : List (Move ℕ Request)),
      Created store → Lawful (System.reached (script P) store moves) := by
  intro h
  have honce := (h plainPlatform oneContext overtaken created_oneContext).once
  have hkeys : (System.reached (script plainPlatform) oneContext
      overtaken).log.map (fun p => p.2.saved.revisionKey) =
        [("context", 2), ("context", 2)] := by
    decide +kernel
  rw [SavedOnce, hkeys] at honce
  exact absurd honce (by decide)

/-- Without the refresh the expiry is the last word. -/
theorem session_contexts_lawful_expired :
    Lawful (System.reached (script plainPlatform) oneContext
      [.start 1 (.expire "context" none), .advance (1 : ℕ), .advance 1,
        .advance 1, .advance 1]) := by
  apply (session_contexts_lawful created_oneContext _).2.mpr
  intro p hp
  obtain rfl := List.mem_singleton.mp hp
  rfl

end ApexForensic.Context
