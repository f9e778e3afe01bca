import ApexForensic.Custody.Ledger

/-!
# Stored events as a hash chain

An event contributes its canonical form, which is what the digest sees, and
the hash recorded in it.  `verifyChain` returns true exactly when the stored
events of the evidence are linked in the sense of `ChainClaims.Linked`.
-/

namespace ApexForensic.Custody

open ApexForensic.Support ApexForensic.Domain

variable {p : Option String} {n : ℕ} {d : EventData} {P : Platform}
  {data : Json} {rows : List CustodyRow}

/-- What a canonical form claims about its revision, its predecessor and its
digest. -/
def custodyClaims (P : Platform) : ChainClaims Json String where
  placed c n :=
    ∃ v, c.field? "immutable_revision" = some v ∧ equalsInt v n = true
  follows c p :=
    ∃ v, c.field? "previous_event_hash" = some v ∧ equalsStr? v p = true
  digest c := P.sha256 (String.ofList c.render).toUTF8
  placed_unique := by
    rintro c m n ⟨v, hv, hm⟩ ⟨w, hw, hn⟩
    obtain rfl : v = w := Option.some.inj (hv.symm.trans hw)
    exact_mod_cast equalsInt_unique hm hn
  follows_unique := by
    rintro c p q ⟨v, hv, hp⟩ ⟨w, hw, hq⟩
    obtain rfl : v = w := Option.some.inj (hv.symm.trans hw)
    rw [equalsStr?_iff] at hp hq
    cases p <;> cases q <;> simp_all

def recordedHash (data : Json) : String :=
  match data.field? "event_hash" with
  | some (.str hash) => hash
  | _ => ""

/-- An event as an entry of a hash chain. -/
def entryOf (data : Json) : Json × String :=
  (canonicalForm data hashExcluded, recordedHash data)

theorem recordedHash_eq {hash : String}
    (h : data.field? "event_hash" = some (.str hash)) :
    recordedHash data = hash := by
  simp [recordedHash, h]

theorem digest_canonicalForm (P : Platform) (data : Json) :
    (custodyClaims P).digest (canonicalForm data hashExcluded) =
      canonicalSha256 P.sha256 data hashExcluded := rfl

theorem placed_canonicalForm :
    (custodyClaims P).placed (canonicalForm data hashExcluded) n ↔
      ∃ v, data.field? "immutable_revision" = some v ∧
        equalsInt v n = true := by
  have hkey : "immutable_revision" ∉ hashExcluded := by
    simp [hashExcluded]
  constructor
  · rintro ⟨v, hv, hn⟩
    have hscalar := isScalar_of_equalsInt hn
    exact ⟨v, (field?_canonicalForm_scalar hkey hscalar).mp hv, hn⟩
  · rintro ⟨v, hv, hn⟩
    have hscalar := isScalar_of_equalsInt hn
    exact ⟨v, (field?_canonicalForm_scalar hkey hscalar).mpr hv, hn⟩

theorem isScalar_jsonStr? (s : Option String) :
    (jsonStr? s).isScalar = true := by
  cases s <;> rfl

theorem follows_canonicalForm :
    (custodyClaims P).follows (canonicalForm data hashExcluded) p ↔
      data.field? "previous_event_hash" = some (jsonStr? p) := by
  have hkey : "previous_event_hash" ∉ hashExcluded := by
    simp [hashExcluded]
  rw [← field?_canonicalForm_scalar hkey (isScalar_jsonStr? p)]
  constructor
  · rintro ⟨v, hv, hp⟩
    rw [equalsStr?_iff.mp hp] at hv
    exact hv
  · intro h
    exact ⟨jsonStr? p, h, equalsStr?_iff.mpr rfl⟩

/-! ## The verification loop -/

/-- A check that returns `False` early is passed when the result is
`True`. -/
theorem check_eq_ok_true_iff {passed : Bool} {rest : Except PyError Bool} :
    (if passed = false then pure false else rest) = .ok true ↔
      passed = true ∧ rest = .ok true := by
  cases passed <;> simp [pure, Except.pure]

theorem verifyFrom_cons_iff {events : List Json} :
    verifyFrom P n p (data :: events) = .ok true ↔
      (custodyClaims P).placed (canonicalForm data hashExcluded) n ∧
        (custodyClaims P).follows (canonicalForm data hashExcluded) p ∧
        data.field? "event_hash" =
          some (.str (canonicalSha256 P.sha256 data hashExcluded)) ∧
        verifyFrom P (n + 1)
          (some (canonicalSha256 P.sha256 data hashExcluded)) events =
            .ok true := by
  rw [placed_canonicalForm, follows_canonicalForm]
  simp only [verifyFrom, bind_eq_ok_iff, getItem_eq_ok_iff,
    check_eq_ok_true_iff, equalsStr?_iff]
  constructor
  · rintro ⟨v, hv, hplaced, previous, hprevious, rfl, hash, hhash, rfl, hrest⟩
    exact ⟨⟨v, hv, hplaced⟩, hprevious, hhash, hrest⟩
  · rintro ⟨⟨v, hv, hplaced⟩, hprevious, hhash, hrest⟩
    exact ⟨v, hv, hplaced, _, hprevious, rfl, _, hhash, rfl, hrest⟩

/-- The event records its hash as a string. -/
def RecordsHash (data : Json) : Prop :=
  ∃ hash, data.field? "event_hash" = some (.str hash)

theorem verifyFrom_eq_true_iff {events : List Json} :
    verifyFrom P n p events = .ok true ↔
      (custodyClaims P).Linked n p (events.map entryOf) ∧
        ∀ data ∈ events, RecordsHash data := by
  induction events generalizing n p with
  | nil => simp [verifyFrom, ChainClaims.Linked]
  | cons data events ih =>
      rw [verifyFrom_cons_iff, ih, List.map_cons, List.forall_mem_cons]
      constructor
      · rintro ⟨hplaced, hfollows, hhash, hlinked, hrest⟩
        have hrecorded := recordedHash_eq hhash
        refine ⟨⟨hplaced, hfollows, ?_, ?_⟩, ⟨_, hhash⟩, hrest⟩
        · exact (digest_canonicalForm P data).trans hrecorded.symm
        · rwa [hrecorded]
      · rintro ⟨⟨hplaced, hfollows, hdigest, hlinked⟩, ⟨hash, hhash⟩, hrest⟩
        have hrecorded := recordedHash_eq hhash
        obtain rfl := (digest_canonicalForm P data).symm.trans
          (hdigest.trans hrecorded)
        rw [hrecorded] at hlinked
        exact ⟨hplaced, hfollows, hhash, hlinked, hrest⟩

theorem verifyChain_eq_true_iff {store : Store} {evidenceId : String} :
    verifyChain P store evidenceId = .ok true ↔
      (custodyClaims P).Linked 1 none
          ((store.listCustodyEvents evidenceId).map entryOf) ∧
        ∀ data ∈ store.listCustodyEvents evidenceId, RecordsHash data :=
  verifyFrom_eq_true_iff

/-! ## Rows written by the ledger -/

/-- The recorded hash of an event is the digest of the event. -/
def Hashed (P : Platform) (d : EventData) : Prop :=
  d.eventHash = canonicalSha256 P.sha256 d.toSchemaDict hashExcluded

theorem hashed_withHash (P : Platform) (d : EventData) :
    Hashed P (d.withHash P) := by
  unfold Hashed canonicalSha256 canonicalJsonBytes
  rw [show canonicalForm (d.withHash P).toSchemaDict hashExcluded = _ from
    canonicalForm_eventHash d _]
  rfl

theorem entryOf_toRow (d : EventData) :
    entryOf d.toRow.eventJson =
      (canonicalForm d.toSchemaDict hashExcluded, d.eventHash) :=
  Prod.ext rfl (recordedHash_eq (field?_eventHash d))

/-- Rows as entries of a hash chain. -/
def rowEntries (rows : List CustodyRow) : List (Json × String) :=
  rows.map fun row => entryOf row.eventJson

/-- Rows of one evidence in the order they were inserted: each was built by
the ledger, and together they form a linked chain. -/
structure ChainedRows (P : Platform) (rows : List CustodyRow) : Prop where
  built : ∀ row ∈ rows, ∃ d : EventData, row = d.toRow
  linked : (custodyClaims P).Linked 1 none (rowEntries rows)

/-- The hash a new event of the chain has to name. -/
def rowHead (rows : List CustodyRow) : Option String :=
  ChainClaims.headHash none (rowEntries rows)

theorem rowEntries_concat (rows : List CustodyRow) (d : EventData) :
    rowEntries (rows ++ [d.toRow]) =
      rowEntries rows ++
        [(canonicalForm d.toSchemaDict hashExcluded, d.eventHash)] := by
  rw [rowEntries, List.map_append, List.map_singleton, entryOf_toRow]
  rfl

@[simp] theorem length_rowEntries (rows : List CustodyRow) :
    (rowEntries rows).length = rows.length := by
  simp [rowEntries]

theorem chainedRows_nil (P : Platform) : ChainedRows P [] :=
  ⟨by simp, trivial⟩

theorem placed_toRow :
    (custodyClaims P).placed (canonicalForm d.toSchemaDict hashExcluded) n ↔
      d.immutableRevision = n := by
  rw [placed_canonicalForm]
  simp [equalsInt]

theorem follows_toRow :
    (custodyClaims P).follows (canonicalForm d.toSchemaDict hashExcluded) p ↔
      d.previousEventHash = p := by
  rw [follows_canonicalForm, field?_previousEventHash]
  cases d.previousEventHash <;> cases p <;> simp [jsonStr?]

theorem ChainedRows.concat (hrows : ChainedRows P rows) (hhash : Hashed P d)
    (hrevision : d.immutableRevision = rows.length + 1)
    (hprevious : d.previousEventHash = rowHead rows) :
    ChainedRows P (rows ++ [d.toRow]) := by
  constructor
  · intro row hrow
    rcases List.mem_append.mp hrow with hrow | hrow
    · exact hrows.built row hrow
    · exact ⟨d, List.mem_singleton.mp hrow⟩
  · rw [rowEntries_concat]
    refine ChainClaims.linked_concat.mpr ⟨hrows.linked, ?_, ?_, ?_⟩
    · refine placed_toRow.mpr ?_
      rw [hrevision, length_rowEntries]
      push_cast
      omega
    · exact follows_toRow.mpr hprevious
    · rw [digest_canonicalForm]
      exact hhash.symm

theorem ChainedRows.of_initial {xs : List CustodyRow}
    (hrows : ChainedRows P rows) (hinit : xs <+: rows) : ChainedRows P xs :=
  ⟨fun row hrow => hrows.built row (hinit.subset hrow),
    hrows.linked.of_initial (hinit.map _)⟩

theorem ChainedRows.revisions (hrows : ChainedRows P rows) :
    rows.map CustodyRow.immutableRevision =
      (List.range' 1 rows.length).map (Nat.cast : ℕ → ℤ) := by
  induction rows using List.reverseRecOn with
  | nil => rfl
  | append_singleton rows row ih =>
      obtain ⟨d, rfl⟩ := hrows.built row (by simp)
      have hlast := hrows.linked
      rw [rowEntries_concat] at hlast
      have hplaced := (ChainClaims.linked_concat.mp hlast).2.1
      rw [placed_toRow, length_rowEntries] at hplaced
      rw [List.map_append, ih (hrows.of_initial (List.prefix_append _ _)),
        List.length_append, List.length_singleton, List.range'_concat,
        List.map_append]
      simp [EventData.toRow, hplaced]

theorem ChainedRows.sorted (hrows : ChainedRows P rows) :
    rows.insertionSort revisionLE = rows := by
  apply List.Pairwise.insertionSort_eq
  have hpairwise : (rows.map CustodyRow.immutableRevision).Pairwise
      (· ≤ ·) := by
    rw [hrows.revisions, List.pairwise_map]
    exact (List.pairwise_lt_range').imp fun h => by exact_mod_cast h.le
  exact (List.pairwise_map.mp hpairwise :
    rows.Pairwise fun a b => a.immutableRevision ≤ b.immutableRevision)

theorem ChainedRows.chainHead_eq (hrows : ChainedRows P rows) :
    chainHead (rows.map CustodyRow.eventJson) =
      .ok ((rowHead rows).map fun hash => (hash, (rows.length : ℤ))) := by
  rcases rows.eq_nil_or_concat' with rfl | ⟨xs, row, rfl⟩
  · rfl
  · obtain ⟨d, rfl⟩ := hrows.built row (by simp)
    have hrevisions := hrows.revisions
    rw [List.map_append, List.length_append, List.length_singleton,
      List.range'_concat, List.map_append] at hrevisions
    have hlast := List.append_inj_right' hrevisions rfl
    have hrevision : d.immutableRevision = xs.length + 1 := by
      simpa [EventData.toRow, add_comm] using hlast
    have hhead : rowHead (xs ++ [d.toRow]) = some d.eventHash := by
      rw [rowHead, rowEntries_concat, ChainClaims.headHash_concat]
    rw [hhead, List.map_append, List.map_singleton, chainHead,
      List.getLast?_concat, List.length_append, List.length_singleton]
    simp [EventData.toRow, eventHash, immutableRevision,
      getItem_eq_ok_iff.mpr (field?_eventHash d),
      getItem_eq_ok_iff.mpr (field?_immutableRevision d), bind,
      Except.bind, hrevision]

theorem ChainedRows.verifyFrom_eq (hrows : ChainedRows P rows) :
    verifyFrom P 1 none (rows.map CustodyRow.eventJson) = .ok true := by
  rw [verifyFrom_eq_true_iff, List.map_map]
  refine ⟨hrows.linked, ?_⟩
  intro data hdata
  obtain ⟨row, hrow, rfl⟩ := List.mem_map.mp hdata
  obtain ⟨d, rfl⟩ := hrows.built row hrow
  exact ⟨d.eventHash, field?_eventHash d⟩

end ApexForensic.Custody
