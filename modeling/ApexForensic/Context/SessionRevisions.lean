import ApexForensic.Context.Session

/-!
# Revisions of interleaved session calls

The save of a call overwrites the live row whatever it holds by then.  The
revisions of a context are in order exactly as long as every save finds the
row that its call had read.
-/

namespace ApexForensic.Context

open ApexForensic.Support ApexForensic.Domain

variable {ι : Type}

/-! ## The law of a history -/

def GuiSessionContext.StoredExpired (context : GuiSessionContext) : Prop :=
  ∃ t ∈ context.expiresAt, t.micros ≤ context.updatedAt.micros

/-- Every save found the live row that its call had read. -/
def Undisturbed (log : List (ι × Saved)) : Prop :=
  ∀ p ∈ log, p.2.replaced = some p.2.base

/-- No two saves stored the same revision of one context. -/
def SavedOnce (log : List (ι × Saved)) : Prop :=
  (log.map fun p => p.2.saved.revisionKey).Nodup

/-- What a history in which nothing was disturbed looks like. -/
structure Recorded (store : SessionStore) (log : List (ι × Saved)) :
    Prop where
  live : ∀ c ∈ store.contexts.rows, c ∈ store.revisions.rows
  range : ∀ c ∈ store.contexts.rows, ∀ n,
    (∃ row ∈ store.revisions.rows,
      row.revisionKey = (c.sessionContextId, n)) ↔
        1 ≤ n ∧ n ≤ c.contextRevision
  owned : ∀ row ∈ store.revisions.rows, ∃ c ∈ store.contexts.rows,
    c.sessionContextId = row.sessionContextId
  past : ∀ row ∈ store.revisions.rows,
    row.updatedAt.micros ≤ store.now.micros
  made : ∀ row ∈ store.revisions.rows, row.contextRevision = 1 ∨
    ∃ p ∈ log, p.2.saved = row
  saved : ∀ p ∈ log, p.2.saved ∈ store.revisions.rows ∧
    p.2.base ∈ store.revisions.rows ∧
    p.2.saved.revisionKey =
      (p.2.base.sessionContextId, p.2.base.contextRevision + 1)
  once : SavedOnce log
  expired : ∀ a ∈ store.revisions.rows, ∀ b ∈ store.revisions.rows,
    a.sessionContextId = b.sessionContextId →
    a.contextRevision ≤ b.contextRevision → a.StoredExpired → b.StoredExpired

/-- The law holds as long as nothing was disturbed, and no longer. -/
structure Kept (h : History SessionStore ι Saved) : Prop where
  recorded : Undisturbed h.log → Recorded h.store h.log
  disturbed : ¬ Undisturbed h.log → ¬ SavedOnce h.log

/-- What later histories keep. -/
structure Extends (h k : History SessionStore ι Saved) : Prop where
  log : h.log <+: k.log
  revisions : ∀ row ∈ h.store.revisions.rows, row ∈ k.store.revisions.rows
  now : h.store.now.micros ≤ k.store.now.micros

theorem Extends.undisturbed {h k : History SessionStore ι Saved}
    (hext : Extends h k) (hk : Undisturbed k.log) : Undisturbed h.log :=
  fun p hp => hk p (hext.log.subset hp)

/-- The context that a call returned. -/
def Reply.stored : Reply → Option GuiSessionContext
  | .context stored => some stored
  | .report made => some made.sessionContext
  | .nothing => none

/-- The row is a stored revision, as far as nothing was disturbed. -/
def IsRevision (context : GuiSessionContext)
    (h : History SessionStore ι Saved) : Prop :=
  Undisturbed h.log → context ∈ h.store.revisions.rows

theorem IsRevision.of_extends {context : GuiSessionContext}
    {h k : History SessionStore ι Saved} (hext : Extends h k)
    (hrow : IsRevision context h) : IsRevision context k :=
  fun hk => hext.revisions context (hrow (hext.undisturbed hk))

/-- What the calls on session contexts agree on. -/
def revisionOrder : Protocol SessionStore ι Saved PyError Reply Request where
  inv := Kept
  rely := Extends
  post _ _ result h := ∀ reply, result = .ok reply →
    ∀ context, reply.stored = some context → IsRevision context h
  refl _ := ⟨List.prefix_rfl, fun _ h => h, le_rfl⟩
  trans hhk hkl := ⟨hhk.log.trans hkl.log,
    fun row h => hkl.revisions row (hhk.revisions row h), hhk.now.trans hkl.now⟩
  post_of_rely hext hpost := fun reply hreply context hstored =>
    (hpost reply hreply context hstored).of_extends hext

/-! ## A save -/

/-- What a call knows when it saves: the row it has read, and how the one it
stores follows it. -/
structure Follows (base saved : GuiSessionContext)
    (h : History SessionStore ι Saved) : Prop where
  row : IsRevision base h
  sessionContextId : saved.sessionContextId = base.sessionContextId
  contextRevision : saved.contextRevision = base.contextRevision + 1
  caseId : saved.caseId = base.caseId
  createdAt : saved.createdAt = base.createdAt
  updatedAt : saved.updatedAt.micros ≤ h.store.now.micros
  expired : Undisturbed h.log → base.StoredExpired → saved.StoredExpired

def afterSave (h : History SessionStore ι Saved) (i : ι)
    (base saved : GuiSessionContext) : History SessionStore ι Saved :=
  h.after i (saveGuiSessionContext h.store saved,
    [⟨base, h.store.contexts.find? saved.sessionContextId, saved⟩])

variable {h k : History SessionStore ι Saved} {i : ι}
  {base saved : GuiSessionContext}

theorem log_afterSave : (afterSave h i base saved).log =
    h.log ++ [(i,
      ⟨base, h.store.contexts.find? saved.sessionContextId, saved⟩)] := rfl

theorem mem_revisions_save {row : GuiSessionContext}
    (hrow : row ∈ h.store.revisions.rows) :
    row ∈ (afterSave h i base saved).store.revisions.rows := by
  change row ∈ ((h.store.revisions.insert saved).getD h.store.revisions).rows
  cases hinsert : h.store.revisions.insert saved with
  | none => exact hrow
  | some revisions =>
      rw [Option.getD_some, (Table.insert_eq_some_iff.mp hinsert).2]
      exact List.mem_append_left _ hrow

theorem extends_afterSave : Extends h (afterSave h i base saved) :=
  ⟨List.prefix_append _ _, fun _ hrow => mem_revisions_save hrow, le_rfl⟩

theorem Recorded.save (hrecorded : Recorded h.store h.log)
    (hundisturbed : Undisturbed h.log) (hfollows : Follows base saved h)
    (hfound : h.store.contexts.find? saved.sessionContextId = some base) :
    Recorded (afterSave h i base saved).store
      (afterSave h i base saved).log := by
  obtain ⟨hbase, -⟩ := Table.find?_eq_some_iff.mp hfound
  have hid := hfollows.sessionContextId
  have hrevision := hfollows.contextRevision
  have hrow := hrecorded.live base hbase
  have hnew : saved.revisionKey ∉
      h.store.revisions.rows.map GuiSessionContext.revisionKey := by
    intro hmem
    obtain ⟨row, hrow, hkey⟩ := List.mem_map.mp hmem
    have hrange := (hrecorded.range base hbase saved.contextRevision).mp
      ⟨row, hrow, by rw [hkey, GuiSessionContext.revisionKey, hid]⟩
    omega
  have hrevisions : (afterSave h i base saved).store.revisions.rows =
      h.store.revisions.rows ++ [saved] := by
    obtain ⟨revisions, hinsert⟩ : ∃ revisions,
        h.store.revisions.insert saved = some revisions := by
      rw [Table.insert, dif_neg hnew]
      exact ⟨_, rfl⟩
    change ((h.store.revisions.insert saved).getD h.store.revisions).rows = _
    rw [hinsert]
    exact (Table.insert_eq_some_iff.mp hinsert).2
  have hcontexts : ∀ c,
      c ∈ (afterSave h i base saved).store.contexts.rows ↔ c = saved ∨
        c ∈ h.store.contexts.rows ∧
          c.sessionContextId ≠ saved.sessionContextId := by
    intro c
    have hexcluded : base.excluded saved = saved := by
      rw [GuiSessionContext.excluded, ← hfollows.caseId, ← hfollows.createdAt]
    change c ∈ (h.store.contexts.put _).rows ↔ _
    rw [hfound, Option.map_some, Option.getD_some, hexcluded, Table.mem_put]
  have hmem : ∀ row, row ∈ (afterSave h i base saved).store.revisions.rows ↔
      row ∈ h.store.revisions.rows ∨ row = saved := by
    intro row
    rw [hrevisions, List.mem_append, List.mem_singleton]
  constructor
  · intro c hc
    rcases (hcontexts c).mp hc with rfl | ⟨hc, -⟩
    · exact (hmem c).mpr (Or.inr rfl)
    · exact (hmem c).mpr (Or.inl (hrecorded.live c hc))
  · intro c hc n
    rcases (hcontexts c).mp hc with rfl | ⟨hc, hne⟩
    · have hrange := hrecorded.range base hbase n
      rw [← hid] at hrange
      constructor
      · rintro ⟨row, hrow', hkey⟩
        rcases (hmem row).mp hrow' with hrow' | rfl
        · have := hrange.mp ⟨row, hrow', hkey⟩
          omega
        · have := (Prod.mk.inj hkey).2
          omega
      · rintro ⟨hlow, hhigh⟩
        by_cases hlast : n = c.contextRevision
        · exact ⟨c, (hmem c).mpr (Or.inr rfl), by rw [hlast]; rfl⟩
        · obtain ⟨row, hrow', hkey⟩ := hrange.mpr (by omega)
          exact ⟨row, (hmem row).mpr (Or.inl hrow'), hkey⟩
    · rw [← hrecorded.range c hc n]
      constructor
      · rintro ⟨row, hrow', hkey⟩
        rcases (hmem row).mp hrow' with hrow' | rfl
        · exact ⟨row, hrow', hkey⟩
        · exact absurd (Prod.mk.inj hkey).1.symm hne
      · rintro ⟨row, hrow', hkey⟩
        exact ⟨row, (hmem row).mpr (Or.inl hrow'), hkey⟩
  · intro row hrow'
    have hlive : ∀ c ∈ h.store.contexts.rows,
        c.sessionContextId = row.sessionContextId →
        ∃ c ∈ (afterSave h i base saved).store.contexts.rows,
          c.sessionContextId = row.sessionContextId := by
      intro c hc hcid
      by_cases hsame : c.sessionContextId = saved.sessionContextId
      · exact ⟨saved, (hcontexts saved).mpr (Or.inl rfl),
          hsame.symm.trans hcid⟩
      · exact ⟨c, (hcontexts c).mpr (Or.inr ⟨hc, hsame⟩), hcid⟩
    rcases (hmem row).mp hrow' with hrow' | rfl
    · obtain ⟨c, hc, hcid⟩ := hrecorded.owned row hrow'
      exact hlive c hc hcid
    · exact hlive base hbase hid.symm
  · intro row hrow'
    rcases (hmem row).mp hrow' with hrow' | rfl
    · exact hrecorded.past row hrow'
    · exact hfollows.updatedAt
  · intro row hrow'
    rw [log_afterSave]
    rcases (hmem row).mp hrow' with hrow' | rfl
    · rcases hrecorded.made row hrow' with hfirst | ⟨p, hp, hsaved⟩
      · exact Or.inl hfirst
      · exact Or.inr ⟨p, List.mem_append_left _ hp, hsaved⟩
    · exact Or.inr ⟨_, List.mem_append_right _ (List.mem_singleton_self _),
        rfl⟩
  · intro p hp
    rw [log_afterSave, List.mem_append, List.mem_singleton] at hp
    rcases hp with hp | rfl
    · obtain ⟨hsaved, hpbase, hkey⟩ := hrecorded.saved p hp
      exact ⟨(hmem _).mpr (Or.inl hsaved), (hmem _).mpr (Or.inl hpbase), hkey⟩
    · exact ⟨(hmem _).mpr (Or.inr rfl), (hmem _).mpr (Or.inl hrow),
        Prod.ext hid hrevision⟩
  · rw [SavedOnce, log_afterSave, List.map_append]
    refine List.nodup_append.mpr
      ⟨hrecorded.once, List.nodup_singleton _, fun key hkey key' hkey' => ?_⟩
    obtain ⟨p, hp, rfl⟩ := List.mem_map.mp hkey
    obtain rfl := List.mem_singleton.mp hkey'
    intro heq
    refine hnew (List.mem_map.mpr ⟨p.2.saved, (hrecorded.saved p hp).1, ?_⟩)
    exact heq
  · intro a ha b hb hab hle hexpired
    have hsaved : ∀ row ∈ h.store.revisions.rows, row.StoredExpired →
        row.sessionContextId = saved.sessionContextId →
        saved.StoredExpired := by
      intro row hrow' hexpired hrowid
      have hrange := (hrecorded.range base hbase row.contextRevision).mp
        ⟨row, hrow', Prod.ext (hrowid.trans hid) rfl⟩
      exact hfollows.expired hundisturbed
        (hrecorded.expired row hrow' base hrow (hrowid.trans hid) hrange.2
          hexpired)
    rcases (hmem a).mp ha with hrowa | rfl
    · rcases (hmem b).mp hb with hrowb | rfl
      · exact hrecorded.expired a hrowa b hrowb hab hle hexpired
      · exact hsaved a hrowa hexpired hab
    · rcases (hmem b).mp hb with hrowb | rfl
      · have hrange := (hrecorded.range base hbase b.contextRevision).mp
          ⟨b, hrowb, Prod.ext (hab.symm.trans hid) rfl⟩
        omega
      · exact hexpired

theorem not_savedOnce_save (hkept : Kept h) (hfollows : Follows base saved h)
    (hfound : h.store.contexts.find? saved.sessionContextId ≠ some base) :
    ¬ SavedOnce (afterSave h i base saved).log := by
  rw [SavedOnce, log_afterSave, List.map_append]
  intro hnodup
  obtain ⟨hbefore, -, hdisjoint⟩ := List.nodup_append.mp hnodup
  by_cases hundisturbed : Undisturbed h.log
  · have hrecorded := hkept.recorded hundisturbed
    have hbase := hfollows.row hundisturbed
    obtain ⟨c, hc, hcbase⟩ := hrecorded.owned base hbase
    have hcid := hcbase.trans hfollows.sessionContextId.symm
    -- the live row is a later revision than the row read
    have hle := (hrecorded.range c hc base.contextRevision).mp
      ⟨base, hbase, Prod.ext hcbase.symm rfl⟩
    have hne : c.contextRevision ≠ base.contextRevision := by
      intro heq
      obtain rfl := h.store.revisions.row_unique (hrecorded.live c hc) hbase
        (Prod.ext hcbase heq)
      exact hfound (Table.find?_eq_some_iff.mpr ⟨hc, hcid⟩)
    obtain ⟨row, hrow, hkey⟩ :=
      (hrecorded.range c hc (base.contextRevision + 1)).mpr (by omega)
    rcases hrecorded.made row hrow with hfirst | ⟨p, hp, rfl⟩
    · have := (Prod.mk.inj hkey).2
      omega
    · refine hdisjoint _ (List.mem_map_of_mem hp) saved.revisionKey
        (List.mem_singleton_self _) ?_
      rw [hkey]
      exact Prod.ext hcid hfollows.contextRevision.symm
  · exact hkept.disturbed hundisturbed hbefore

theorem Kept.save (hkept : Kept h) (hfollows : Follows base saved h) :
    Kept (afterSave h i base saved) := by
  have hlog : Undisturbed (afterSave h i base saved).log ↔
      Undisturbed h.log ∧
        h.store.contexts.find? saved.sessionContextId = some base := by
    simp only [Undisturbed, log_afterSave, List.mem_append,
      List.mem_singleton, or_imp, forall_and, forall_eq]
  constructor
  · intro h'
    obtain ⟨hundisturbed, hfound⟩ := hlog.mp h'
    exact (hkept.recorded hundisturbed).save hundisturbed hfollows hfound
  · intro h'
    by_cases hfound :
        h.store.contexts.find? saved.sessionContextId = some base
    · have hdisturbed : ¬ Undisturbed h.log := fun hu => h' (hlog.mpr ⟨hu, hfound⟩)
      intro honce
      apply hkept.disturbed hdisturbed
      rw [SavedOnce, log_afterSave, List.map_append] at honce
      exact (List.nodup_append.mp honce).1
    · exact not_savedOnce_save hkept hfollows hfound

theorem Follows.of_extends (hfollows : Follows base saved h)
    (hext : Extends h k) : Follows base saved k where
  row := hfollows.row.of_extends hext
  sessionContextId := hfollows.sessionContextId
  contextRevision := hfollows.contextRevision
  caseId := hfollows.caseId
  createdAt := hfollows.createdAt
  updatedAt := hfollows.updatedAt.trans hext.now
  expired hk := hfollows.expired (hext.undisturbed hk)

end ApexForensic.Context
