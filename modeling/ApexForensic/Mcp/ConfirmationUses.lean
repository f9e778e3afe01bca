import ApexForensic.Mcp.Confirmation

/-!
# Grants authorize what they were issued for

Every use increments the counter of a grant that has uses left, so the uses in
the log never exceed the limit of the grant, in any interleaving.  A grant
keeps what it was issued for, so what `authorize` compared still holds when
its update commits; the expiry was compared with the clock that the call read
first.
-/

namespace ApexForensic.Mcp

open ApexForensic.Support ApexForensic.Domain

variable {a b grant : ConfirmationGrantRow} {store : GrantStore}

/-! ## Grants that differ in their uses only -/

/-- The row is the grant, used some times since. -/
def SameGrant (grant row : ConfirmationGrantRow) : Prop :=
  row = { grant with usesCount := row.usesCount }

theorem SameGrant.refl (grant : ConfirmationGrantRow) :
    SameGrant grant grant := rfl

theorem SameGrant.trans {c : ConfirmationGrantRow} (hab : SameGrant a b)
    (hbc : SameGrant b c) : SameGrant a c := by
  rw [SameGrant] at *
  rw [hbc, hab]

theorem SameGrant.grantId_eq (h : SameGrant a b) : b.grantId = a.grantId := by
  rw [h]

theorem SameGrant.expiresAt_eq (h : SameGrant a b) :
    b.expiresAt = a.expiresAt := by
  rw [h]

theorem SameGrant.maxUses_eq (h : SameGrant a b) : b.maxUses = a.maxUses := by
  rw [h]

theorem SameGrant.matches_iff (h : SameGrant a b)
    (request : ConfirmationRequest) :
    b.Matches request ↔ a.Matches request := by
  rw [h]
  rfl

/-! ## The invariant -/

/-- The grant whose use an event records. -/
def GrantEvent.usedGrant? : GrantEvent → Option String
  | used request _ _ => some request.grantId
  | issued _ => none

section

variable {ι : Type}

/-- The uses of a grant so far. -/
def usesOf (grantId : String) (log : List (ι × GrantEvent)) :
    List (ι × GrantEvent) :=
  log.filter fun e => e.2.usedGrant? = some grantId

/-- A grant as it was stored at first or issued since. -/
def IssuedAs (initial : GrantStore) (log : List (ι × GrantEvent))
    (grant : ConfirmationGrantRow) : Prop :=
  grant ∈ initial.grants.rows ∨ ∃ i, (i, .issued grant) ∈ log

structure GrantInvariant (initial : GrantStore)
    (h : History GrantStore ι GrantEvent) : Prop where
  origin : ∀ row ∈ h.store.grants.rows,
    ∃ grant, IssuedAs initial h.log grant ∧ SameGrant grant row
  kept : ∀ grant, IssuedAs initial h.log grant →
    ∃ row ∈ h.store.grants.rows, SameGrant grant row
  counted : ∀ row ∈ h.store.grants.rows,
    (usesOf row.grantId h.log).length ≤ row.usesCount ∧
      (usesOf row.grantId h.log).length ≤ row.maxUses
  matched : ∀ i request readAt usedAt,
    (i, .used request readAt usedAt) ∈ h.log →
    ∃ row ∈ h.store.grants.rows, row.grantId = request.grantId ∧
      row.Matches request ∧ readAt.utcMicros < row.expiresAt.utcMicros

/-- Later histories keep the events, and the grants but for their uses. -/
structure GrantsGrow (h k : History GrantStore ι GrantEvent) : Prop where
  log : h.log ⊆ k.log
  grants : ∀ grant ∈ h.store.grants.rows,
    ∃ row ∈ k.store.grants.rows, SameGrant grant row

/-- A call that authorized has used the grant it presents. -/
def UsedIfAuthorized (i : ι) :
    GrantRequest → Except RouteError GrantReply →
      History GrantStore ι GrantEvent → Prop
  | .authorize request, .ok (.decision true), h =>
      ∃ readAt usedAt, (i, .used request readAt usedAt) ∈ h.log
  | _, _, _ => True

theorem UsedIfAuthorized.of_subset {i : ι} {request : GrantRequest}
    {result : Except RouteError GrantReply}
    {h k : History GrantStore ι GrantEvent} (hlog : h.log ⊆ k.log)
    (hused : UsedIfAuthorized i request result h) :
    UsedIfAuthorized i request result k := by
  cases request with
  | authorize request =>
      match result with
      | .ok (.decision true) =>
          obtain ⟨readAt, usedAt, hmem⟩ := hused
          exact ⟨readAt, usedAt, hlog hmem⟩
      | .ok (.decision false) => trivial
      | .ok (.issued _) => trivial
      | .ok .done => trivial
      | .error _ => trivial
  | _ => trivial

/-- What the requests on grants agree on. -/
def grantProtocol (initial : GrantStore) :
    Protocol GrantStore ι GrantEvent RouteError GrantReply GrantRequest where
  inv := GrantInvariant initial
  rely := GrantsGrow
  post := UsedIfAuthorized
  refl h := ⟨List.Subset.refl _, fun grant hgrant =>
    ⟨grant, hgrant, SameGrant.refl grant⟩⟩
  trans hhk hkl := ⟨List.Subset.trans hhk.log hkl.log, fun grant hgrant => by
    obtain ⟨row, hrow, hsame⟩ := hhk.grants grant hgrant
    obtain ⟨row', hrow', hsame'⟩ := hkl.grants row hrow
    exact ⟨row', hrow', hsame.trans hsame'⟩⟩
  post_of_rely hrely := UsedIfAuthorized.of_subset hrely.log

theorem grantInvariant_initial (initial : GrantStore) :
    GrantInvariant initial (⟨initial, []⟩ : History GrantStore ι GrantEvent)
    where
  origin row hrow := ⟨row, Or.inl hrow, SameGrant.refl row⟩
  kept grant hissued := by
    rcases hissued with hinitial | ⟨i, hmem⟩
    · exact ⟨grant, hinitial, SameGrant.refl grant⟩
    · exact absurd hmem List.not_mem_nil
  counted row _ := by simp [usesOf]
  matched i request readAt usedAt hmem := absurd hmem List.not_mem_nil

/-! ## Transactions that leave the grants alone -/

variable {initial : GrantStore} {h : History GrantStore ι GrantEvent} {i : ι}

theorem GrantInvariant.of_same_grants (hinv : GrantInvariant initial h)
    (hgrants : store.grants = h.store.grants) :
    GrantInvariant initial (h.after i (store, [])) := by
  have hlog : (h.after i (store, [])).log = h.log := List.append_nil _
  have hrows : (h.after i (store, [])).store.grants = h.store.grants := hgrants
  exact
    { origin := by rw [hrows, hlog]; exact hinv.origin
      kept := by rw [hrows, hlog]; exact hinv.kept
      counted := by rw [hrows, hlog]; exact hinv.counted
      matched := by rw [hrows, hlog]; exact hinv.matched }

theorem grantsGrow_of_same_grants (hgrants : store.grants = h.store.grants) :
    GrantsGrow h (h.after i (store, [])) := by
  refine ⟨List.subset_append_left _ _, fun grant hgrant => ?_⟩
  refine ⟨grant, ?_, SameGrant.refl grant⟩
  change grant ∈ store.grants.rows
  rw [hgrants]
  exact hgrant

/-! ## Using a grant -/

theorem use_eq_self {request : ConfirmationRequest} {readAt : Datetime}
    (hzero : store.grants.rowcount
      (ConfirmationGrantRow.usable request.grantId) = 0) :
    store.use request readAt = (0, store, []) := by
  have hnone := Table.rowcount_eq_zero_iff.mp hzero
  have hsame : ∀ row ∈ store.grants.rows,
      ConfirmationGrantRow.usable request.grantId row = true →
        { row with usesCount := row.usesCount + 1 } = row := by
    intro row hrow hp
    rw [hnone row hrow] at hp
    cases hp
  simp [GrantStore.use, hzero, Table.update_eq_self hsame]

/-- A row with the use that is being made. -/
def ConfirmationGrantRow.afterUse (grantId : String)
    (row : ConfirmationGrantRow) : ConfirmationGrantRow :=
  if row.usable grantId then { row with usesCount := row.usesCount + 1 }
  else row

theorem sameGrant_afterUse (grantId : String) (row : ConfirmationGrantRow) :
    SameGrant row (row.afterUse grantId) := by
  rw [SameGrant, ConfirmationGrantRow.afterUse]
  split
  · rfl
  · rfl

theorem rows_use (store : GrantStore) (request : ConfirmationRequest)
    (readAt : Datetime) :
    (store.use request readAt).2.1.grants.rows =
      store.grants.rows.map (·.afterUse request.grantId) := rfl

theorem grantsGrow_use (request : ConfirmationRequest) (readAt : Datetime) :
    GrantsGrow h (h.after i (h.store.use request readAt).2) := by
  refine ⟨List.subset_append_left _ _, fun grant hgrant => ?_⟩
  refine ⟨grant.afterUse request.grantId, ?_, sameGrant_afterUse _ grant⟩
  change _ ∈ (h.store.use request readAt).2.1.grants.rows
  rw [rows_use]
  exact List.mem_map_of_mem hgrant

theorem usesOf_append (grantId : String) (log : List (ι × GrantEvent))
    (e : ι × GrantEvent) :
    (usesOf grantId (log ++ [e])).length = (usesOf grantId log).length +
      if e.2.usedGrant? = some grantId then 1 else 0 := by
  rw [usesOf, List.filter_append, List.length_append, List.filter_singleton]
  by_cases he : e.2.usedGrant? = some grantId
  · simp [usesOf, he]
  · simp [usesOf, he]

/-- Using a grant that was found to be for the request keeps the
invariant. -/
theorem GrantInvariant.use (hinv : GrantInvariant initial h)
    {request : ConfirmationRequest} {readAt : Datetime}
    (hgrant : grant ∈ h.store.grants.rows)
    (hid : grant.grantId = request.grantId) (hmatch : grant.Matches request)
    (hlive : readAt.utcMicros < grant.expiresAt.utcMicros) :
    GrantInvariant initial (h.after i (h.store.use request readAt).2) := by
  by_cases hzero : h.store.grants.rowcount
      (ConfirmationGrantRow.usable request.grantId) = 0
  · rw [use_eq_self hzero, History.after_nil]
    exact hinv
  have hlog : (h.after i (h.store.use request readAt).2).log =
      h.log ++ [(i, .used request readAt h.store.now)] := by
    simp [History.after, GrantStore.use, hzero]
  have hrows : (h.after i (h.store.use request readAt).2).store.grants.rows =
      h.store.grants.rows.map (·.afterUse request.grantId) := rfl
  have hissued : ∀ g, IssuedAs initial
      (h.after i (h.store.use request readAt).2).log g ↔
      IssuedAs initial h.log g := by
    intro g
    simp [IssuedAs, hlog]
  -- the row that the update matches is the one that was read
  have husable : grant.usesCount < grant.maxUses := by
    by_contra hfull
    apply hzero
    rw [Table.rowcount_eq_zero_iff]
    intro row hrow
    by_contra hp
    simp only [ConfirmationGrantRow.usable, decide_eq_true_eq,
      Bool.not_eq_false] at hp
    obtain rfl := h.store.grants.row_unique hrow hgrant (hp.1.trans hid.symm)
    exact hfull hp.2
  refine ⟨?_, ?_, ?_, ?_⟩
  · intro row hrow
    rw [hrows] at hrow
    obtain ⟨old, hold, rfl⟩ := List.mem_map.mp hrow
    obtain ⟨g, hg, hsame⟩ := hinv.origin old hold
    exact ⟨g, (hissued g).mpr hg, hsame.trans (sameGrant_afterUse _ old)⟩
  · intro g hg
    obtain ⟨old, hold, hsame⟩ := hinv.kept g ((hissued g).mp hg)
    refine ⟨old.afterUse request.grantId, ?_,
      hsame.trans (sameGrant_afterUse _ old)⟩
    rw [hrows]
    exact List.mem_map_of_mem hold
  · intro row hrow
    rw [hrows] at hrow
    obtain ⟨old, hold, rfl⟩ := List.mem_map.mp hrow
    obtain ⟨hcount, hmax⟩ := hinv.counted old hold
    rw [hlog, usesOf_append, (sameGrant_afterUse _ old).grantId_eq,
      (sameGrant_afterUse _ old).maxUses_eq]
    simp only [GrantEvent.usedGrant?, Option.some.injEq]
    by_cases hkey : request.grantId = old.grantId
    · obtain rfl := h.store.grants.row_unique hold hgrant
        (hkey.symm.trans hid.symm)
      have hafter : old.afterUse request.grantId =
          { old with usesCount := old.usesCount + 1 } := by
        simp [ConfirmationGrantRow.afterUse, ConfirmationGrantRow.usable, hkey,
          husable]
      rw [hafter, if_pos hkey]
      dsimp only
      omega
    · have hafter : old.afterUse request.grantId = old := by
        simp [ConfirmationGrantRow.afterUse, ConfirmationGrantRow.usable,
          Ne.symm hkey]
      rw [hafter, if_neg hkey]
      omega
  · intro j request' readAt' usedAt hmem
    rw [hlog] at hmem
    rw [hrows]
    have hfound : ∃ old ∈ h.store.grants.rows,
        old.grantId = request'.grantId ∧ old.Matches request' ∧
          readAt'.utcMicros < old.expiresAt.utcMicros := by
      rcases List.mem_append.mp hmem with hold | hnew
      · exact hinv.matched j request' readAt' usedAt hold
      · obtain ⟨-, hevent⟩ := Prod.mk.inj (List.mem_singleton.mp hnew)
        obtain ⟨rfl, rfl, -⟩ := GrantEvent.used.inj hevent
        exact ⟨grant, hgrant, hid, hmatch, hlive⟩
    obtain ⟨old, hold, hkey, hm, ht⟩ := hfound
    have hsame := sameGrant_afterUse request.grantId old
    refine ⟨old.afterUse request.grantId, List.mem_map_of_mem hold,
      hsame.grantId_eq.trans hkey, (hsame.matches_iff request').mpr hm, ?_⟩
    rw [hsame.expiresAt_eq]
    exact ht

/-! ## Issuing a grant -/

theorem GrantInvariant.insert (hinv : GrantInvariant initial h)
    {grants : Table ConfirmationGrantRow.grantId}
    (hinsert : h.store.grants.insert grant = some grants) :
    GrantInvariant initial
      (h.after i ({ h.store with grants }, [.issued grant])) := by
  obtain ⟨hfresh, hrows⟩ := Table.insert_eq_some_iff.mp hinsert
  have hlog : (h.after i ({ h.store with grants }, [.issued grant])).log =
      h.log ++ [(i, .issued grant)] := rfl
  have hissued : ∀ g, IssuedAs initial
      (h.after i ({ h.store with grants }, [.issued grant])).log g ↔
      IssuedAs initial h.log g ∨ g = grant := by
    intro g
    simp only [IssuedAs, hlog, List.mem_append, List.mem_singleton,
      Prod.mk.injEq, GrantEvent.issued.injEq]
    constructor
    · rintro (hg | ⟨j, hg | ⟨-, rfl⟩⟩)
      · exact Or.inl (Or.inl hg)
      · exact Or.inl (Or.inr ⟨j, hg⟩)
      · exact Or.inr rfl
    · rintro ((hg | ⟨j, hg⟩) | rfl)
      · exact Or.inl hg
      · exact Or.inr ⟨j, Or.inl hg⟩
      · exact Or.inr ⟨i, Or.inr ⟨rfl, rfl⟩⟩
  have hmem : ∀ {row}, row ∈ grants.rows ↔
      row ∈ h.store.grants.rows ∨ row = grant := by
    intro row
    rw [hrows, List.mem_append, List.mem_singleton]
  have huses : ∀ grantId, (usesOf grantId (h.log ++
      [(i, GrantEvent.issued grant)])).length =
      (usesOf grantId h.log).length := by
    intro grantId
    rw [usesOf_append]
    rfl
  refine ⟨?_, ?_, ?_, ?_⟩
  · intro row hrow
    rcases hmem.mp hrow with hold | rfl
    · obtain ⟨g, hg, hsame⟩ := hinv.origin row hold
      exact ⟨g, (hissued g).mpr (Or.inl hg), hsame⟩
    · exact ⟨row, (hissued row).mpr (Or.inr rfl), SameGrant.refl row⟩
  · intro g hg
    rcases (hissued g).mp hg with hold | rfl
    · obtain ⟨row, hrow, hsame⟩ := hinv.kept g hold
      exact ⟨row, hmem.mpr (Or.inl hrow), hsame⟩
    · exact ⟨g, hmem.mpr (Or.inr rfl), SameGrant.refl g⟩
  · intro row hrow
    rw [hlog, huses]
    rcases hmem.mp hrow with hold | rfl
    · exact hinv.counted row hold
    -- nothing was used under the identifier of the new grant
    have hnone : usesOf row.grantId h.log = [] := by
      rw [usesOf, List.filter_eq_nil_iff]
      rintro ⟨j, event⟩ hevent hused
      cases event with
      | issued g => simp [GrantEvent.usedGrant?] at hused
      | used request readAt usedAt =>
          simp only [GrantEvent.usedGrant?, Option.some.injEq,
            decide_eq_true_eq] at hused
          obtain ⟨old, hold, hkey, -⟩ :=
            hinv.matched j request readAt usedAt hevent
          exact hfresh (List.mem_map.mpr ⟨old, hold, hkey.trans hused⟩)
    simp [hnone]
  · intro j request readAt usedAt hevent
    have hold : (j, .used request readAt usedAt) ∈ h.log := by
      simpa [hlog] using hevent
    obtain ⟨row, hrow, hfound⟩ := hinv.matched j request readAt usedAt hold
    exact ⟨row, hmem.mpr (Or.inl hrow), hfound⟩

theorem grantsGrow_insert {grants : Table ConfirmationGrantRow.grantId}
    (hinsert : h.store.grants.insert grant = some grants) :
    GrantsGrow h (h.after i ({ h.store with grants }, [.issued grant])) := by
  refine ⟨List.subset_append_left _ _, fun g hg => ⟨g, ?_, SameGrant.refl g⟩⟩
  change g ∈ grants.rows
  rw [(Table.insert_eq_some_iff.mp hinsert).2]
  exact List.mem_append_left _ hg

/-! ## Every request keeps the invariant -/

variable {P : Platform}

theorem authorize_safe (request : ConfirmationRequest)
    (h : History GrantStore ι GrantEvent) :
    (GrantRequest.script P (.authorize request)).Safe (grantProtocol initial)
      i (.authorize request) h := by
  refine Script.safe_map_read_bind fun k _ _ => ?_
  refine Script.safe_map_read_bind fun l _ _ => ?_
  cases hfound : l.store.grants.find? request.grantId with
  | none => trivial
  | some row =>
      obtain ⟨hrow, hid⟩ := Table.find?_eq_some_iff.mp hfound
      dsimp only
      split
      · rename_i haccepts
        obtain ⟨hlive, -, hmatch⟩ := accepts_eq_true_iff.mp haccepts
        refine Script.safe_map_commit_bind fun m hrely hinv => ?_
        -- the grant that was read is still there when the update commits
        obtain ⟨grant, hgrant, hsame⟩ := hrely.grants row hrow
        refine ⟨hinv.use hgrant (hsame.grantId_eq.trans hid)
          ((hsame.matches_iff request).mpr hmatch)
          (hsame.expiresAt_eq ▸ hlive), grantsGrow_use request _, ?_⟩
        by_cases hzero : m.store.grants.rowcount
            (ConfirmationGrantRow.usable request.grantId) = 0
        · have hno : decide (0 < (m.store.use request k.store.now).1) =
              false := by
            simp [GrantStore.use, hzero]
          rw [hno]
          trivial
        · have hyes : decide (0 < (m.store.use request k.store.now).1) =
              true := by
            exact decide_eq_true (Nat.pos_of_ne_zero hzero)
          rw [hyes]
          refine ⟨k.store.now, m.store.now, ?_⟩
          simp [History.after, GrantStore.use, hzero]
      · trivial

theorem issue_safe (verified : Option AccessToken) (body : ConfirmationBody)
    (grantId : String) (h : History GrantStore ι GrantEvent) :
    (GrantRequest.script P (.issue verified body grantId)).Safe
      (grantProtocol initial) i (.issue verified body grantId) h := by
  cases verified with
  | none => trivial
  | some token =>
      rw [GrantRequest.script, issueConfirmation]
      split
      · trivial
      refine Script.safe_map_read_bind fun k _ _ => ?_
      refine Script.safe_map_read_bind fun l _ _ => ?_
      split
      · trivial
      refine Script.safe_map_read_bind fun m _ _ => ?_
      refine Script.safe_map_commit_bind fun n _ hinv => ?_
      rw [GrantStore.insertGrant]
      split
      · rename_i grants hinsert
        exact ⟨hinv.insert hinsert, grantsGrow_insert hinsert, trivial⟩
      · rw [History.after_nil]
        exact ⟨hinv, (grantProtocol initial).refl n, trivial⟩

theorem grantRequest_safe (request : GrantRequest)
    (h : History GrantStore ι GrantEvent) :
    (request.script P).Safe (grantProtocol initial) i request h := by
  cases request with
  | authorize request => exact authorize_safe request h
  | issue verified body grantId => exact issue_safe verified body grantId h
  | clock now =>
      refine Script.safe_map_write fun k _ hinv => ?_
      exact ⟨hinv.of_same_grants rfl, grantsGrow_of_same_grants rfl, trivial⟩
  | sessions table =>
      refine Script.safe_map_write fun k _ hinv => ?_
      exact ⟨hinv.of_same_grants rfl, grantsGrow_of_same_grants rfl, trivial⟩

/-! ## Runs -/

/-- The call returned that the request is authorized. -/
def Authorized
    (w : System GrantStore ι GrantEvent RouteError GrantReply GrantRequest)
    (i : ι) (request : ConfirmationRequest) : Prop :=
  w.progress i = .finished (.authorize request) (.ok (.decision true))

/-- No grant authorizes more calls than its limit, and none for another
request than it was issued for, nor for a call that read the clock after the
expiry. -/
structure GrantsRespected (initial : GrantStore)
    (w : System GrantStore ι GrantEvent RouteError GrantReply GrantRequest) :
    Prop where
  bounded : ∀ grant, IssuedAs initial w.log grant →
    ∀ calls : List ι, calls.Nodup →
      (∀ i ∈ calls, ∃ request, Authorized w i request ∧
        request.grantId = grant.grantId) →
      calls.length ≤ grant.maxUses
  purposeful : ∀ i request, Authorized w i request →
    ∃ grant readAt usedAt, IssuedAs initial w.log grant ∧
      grant.grantId = request.grantId ∧ grant.Matches request ∧
      (i, .used request readAt usedAt) ∈ w.log ∧
      readAt.utcMicros < grant.expiresAt.utcMicros

theorem length_calls_le_usesOf {log : List (ι × GrantEvent)}
    {grantId : String} {calls : List ι} (hnodup : calls.Nodup)
    (hused : ∀ i ∈ calls, ∃ request readAt usedAt,
      (i, .used request readAt usedAt) ∈ log ∧ request.grantId = grantId) :
    calls.length ≤ (usesOf grantId log).length := by
  have hsubset : calls ⊆ (usesOf grantId log).map Prod.fst := by
    intro i hi
    obtain ⟨request, readAt, usedAt, hmem, hid⟩ := hused i hi
    refine List.mem_map.mpr ⟨(i, .used request readAt usedAt), ?_, rfl⟩
    refine List.mem_filter.mpr ⟨hmem, ?_⟩
    simp [GrantEvent.usedGrant?, hid]
  have hlength := (hnodup.subperm hsubset).length_le
  rwa [List.length_map] at hlength

end

/-! ## A use after the expiry -/

/-- Every use commits before the expiry of its grant. -/
def UsedBeforeExpiry {ι : Type}
    (w : System GrantStore ι GrantEvent RouteError GrantReply GrantRequest) :
    Prop :=
  ∀ i request readAt usedAt, (i, .used request readAt usedAt) ∈ w.log →
    ∀ grant ∈ w.store.grants.rows, grant.grantId = request.grantId →
      usedAt.utcMicros < grant.expiresAt.utcMicros

def sampleRequest : ConfirmationRequest where
  grantId := "g"
  actorId := "u"
  sessionId := "s"
  caseId := "case"
  toolName := "report.approve"
  requestFingerprint := "f"
  targetIds := ["v"]

/-- One grant for the request, with one use, that expires at 300 s. -/
def oneGrant : GrantStore where
  grants := ⟨[{ sampleRequest with
                expiresAt := ⟨300000000, some 0⟩, maxUses := 1,
                usesCount := 0 }], List.nodup_singleton _⟩
  sessions := Table.empty _
  now := ⟨299000000, some 0⟩

/-- Two seconds pass between the check of a call and its update. -/
def slowCall : List (Move ℕ GrantRequest) :=
  [.start 0 (.authorize sampleRequest), .advance 0, .advance 0,
   .start 1 (.clock ⟨301000000, some 0⟩), .advance 1, .advance 0]

end ApexForensic.Mcp
