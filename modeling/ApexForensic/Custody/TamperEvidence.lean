import ApexForensic.Custody.Concurrency

/-!
# Tamper evidence of the custody chain

An editor of the store may replace, insert, delete and reorder rows, but
computes no new event hash.  The links and hashes then tie a stored chain that
verifies to one written chain: it is a prefix of the chain of the evidence
its own events name, up to nested `event_hash` keys, which the digest leaves
out, and up to the order of object keys.  Which evidence the rows are filed
under is not part of the check.
-/

namespace ApexForensic.Custody

open ApexForensic.Support ApexForensic.Domain

variable {v : Json} {P : Platform} {evidenceId : String}

/-- Two documents the digest does not tell apart, with the same recorded
hash. -/
def SameEvent (v w : Json) : Prop :=
  canonicalForm v hashExcluded = canonicalForm w hashExcluded ∧
    v.field? "event_hash" = w.field? "event_hash"

/-- The digest does not collide on the canonical bytes of these documents. -/
def CollisionFree (P : Platform) (documents : Set Json) : Prop :=
  ∀ v ∈ documents, ∀ w ∈ documents,
    canonicalSha256 P.sha256 v hashExcluded =
        canonicalSha256 P.sha256 w hashExcluded →
      canonicalJsonBytes v hashExcluded = canonicalJsonBytes w hashExcluded

/-- The documents of the rows of a store. -/
def documents (store : Store) : Set Json :=
  {v | ∃ row ∈ store.custodyEvents, row.eventJson = v}

/-- A recorded hash that fits its document is one that was written. -/
def NoNewHash (P : Platform) (written edited : Store) : Prop :=
  ∀ v ∈ documents edited,
    v.field? "event_hash" =
        some (.str (canonicalSha256 P.sha256 v hashExcluded)) →
      ∃ w ∈ documents written, w.field? "event_hash" = v.field? "event_hash"

theorem listCustodyEvents_subset {store : Store}
    (hv : v ∈ store.listCustodyEvents evidenceId) : v ∈ documents store := by
  obtain ⟨row, hrow, rfl⟩ := List.mem_map.mp hv
  have hmem := (List.mem_insertionSort revisionLE).mp hrow
  exact ⟨row, (List.mem_filter.mp hmem).1, rfl⟩

/-! ## The written chains as a family -/

/-- The evidence a canonical form names. -/
def namedEvidence (c : Json) : Option String :=
  match c.field? "evidence_id" with
  | some (.str evidenceId) => some evidenceId
  | _ => none

theorem namedEvidence_eq_some_iff :
    namedEvidence (canonicalForm v hashExcluded) = some evidenceId ↔
      v.field? "evidence_id" = some (.str evidenceId) := by
  have hkey : "evidence_id" ∉ hashExcluded := by simp [hashExcluded]
  rw [← field?_canonicalForm_scalar hkey (w := .str evidenceId) rfl,
    namedEvidence]
  split
  · simp_all
  · simp_all

section Written

variable {P : Platform} {store : Store}

/-- What the ledger guarantees about the written store. -/
structure WrittenStore (P : Platform) (store : Store) : Prop where
  chained : ∀ evidenceId,
    ChainedRows P (evidenceRows evidenceId store.custodyEvents)
  built : ∀ row ∈ store.custodyEvents, ∃ d : EventData, row = d.toRow

theorem Invariant.writtenStore {ι : Type*} {w : World ι}
    (hinv : Invariant P w) : WrittenStore P w.store := by
  refine ⟨hinv.chained, ?_⟩
  intro row hrow
  exact (hinv.chained row.evidenceId).built row
    (List.mem_filter.mpr ⟨hrow, decide_eq_true rfl⟩)

/-- The written chain of an evidence, as entries of a hash chain. -/
def writtenEntries (store : Store) (evidenceId : String) :
    List (Json × String) :=
  (store.listCustodyEvents evidenceId).map entryOf

theorem WrittenStore.linked (hstore : WrittenStore P store)
    (evidenceId : String) :
    (custodyClaims P).Linked 1 none (writtenEntries store evidenceId) := by
  rw [writtenEntries, listCustodyEvents_eq (hstore.chained evidenceId),
    List.map_map]
  exact (hstore.chained evidenceId).linked

theorem WrittenStore.evidence_of_mem (hstore : WrittenStore P store)
    (hv : v ∈ store.listCustodyEvents evidenceId) :
    v.field? "evidence_id" = some (.str evidenceId) ∧ RecordsHash v := by
  rw [listCustodyEvents_eq (hstore.chained evidenceId)] at hv
  obtain ⟨row, hrow, rfl⟩ := List.mem_map.mp hv
  obtain ⟨d, rfl⟩ := (hstore.chained evidenceId).built row hrow
  obtain rfl : d.evidenceId = evidenceId :=
    of_decide_eq_true (List.mem_filter.mp hrow).2
  exact ⟨field?_evidenceId d, d.eventHash, field?_eventHash d⟩

theorem WrittenStore.mem_list (hstore : WrittenStore P store)
    (hv : v ∈ documents store) :
    ∃ evidenceId, v ∈ store.listCustodyEvents evidenceId := by
  obtain ⟨row, hrow, rfl⟩ := hv
  refine ⟨row.evidenceId, ?_⟩
  rw [listCustodyEvents_eq (hstore.chained row.evidenceId)]
  exact List.mem_map_of_mem (List.mem_filter.mpr ⟨hrow, decide_eq_true rfl⟩)

theorem WrittenStore.owner (hstore : WrittenStore P store)
    (evidenceId : String) :
    ∀ x ∈ writtenEntries store evidenceId,
      namedEvidence x.1 = some evidenceId := by
  intro x hx
  obtain ⟨v, hv, rfl⟩ := List.mem_map.mp hx
  exact namedEvidence_eq_some_iff.mpr (hstore.evidence_of_mem hv).1

end Written

/-! ## Edited stores -/

theorem sameEvent_of_entryOf_eq {w : Json} (h : entryOf v = entryOf w)
    (hv : RecordsHash v) (hw : RecordsHash w) : SameEvent v w := by
  obtain ⟨hash, hhash⟩ := hv
  obtain ⟨hash', hhash'⟩ := hw
  refine ⟨congrArg Prod.fst h, ?_⟩
  have hrecorded : recordedHash v = recordedHash w := congrArg Prod.snd h
  rw [hhash, hhash', ← recordedHash_eq hhash, ← recordedHash_eq hhash',
    hrecorded]

theorem forall₂_of_entries_le :
    ∀ {vs ws : List Json}, vs.map entryOf <+: ws.map entryOf →
      (∀ v ∈ vs, RecordsHash v) → (∀ w ∈ ws, RecordsHash w) →
      List.Forall₂ SameEvent vs (ws.take vs.length)
  | [], ws, _, _, _ => by simp
  | v :: vs, [], hinit, _, _ => by simp at hinit
  | v :: vs, w :: ws, hinit, hvs, hws => by
      rw [List.map_cons, List.map_cons, List.cons_prefix_cons] at hinit
      rw [List.forall_mem_cons] at hvs hws
      rw [List.length_cons, List.take_succ_cons]
      exact List.Forall₂.cons
        (sameEvent_of_entryOf_eq hinit.1 hvs.1 hws.1)
        (forall₂_of_entries_le hinit.2 hvs.2 hws.2)

/-- An entry of a verified chain has a written hash, and so the canonical
form of a written event. -/
theorem recorded_of_verified {written edited : Store}
    (hwritten : WrittenStore P written) (hnew : NoNewHash P written edited)
    (hverify : verifyChain P edited evidenceId = .ok true) :
    ∀ x ∈ (edited.listCustodyEvents evidenceId).map entryOf,
      ∃ owner, ∃ y ∈ writtenEntries written owner, y.2 = x.2 := by
  obtain ⟨hlinked, hrecords⟩ := verifyChain_eq_true_iff.mp hverify
  intro x hx
  obtain ⟨v, hv, rfl⟩ := List.mem_map.mp hx
  obtain ⟨hash, hhash⟩ := hrecords v hv
  have hdigest : canonicalSha256 P.sha256 v hashExcluded = hash :=
    (hlinked.digest_eq hx).trans (recordedHash_eq hhash)
  obtain ⟨w, hw, hsame⟩ := hnew v (listCustodyEvents_subset hv)
    (by rw [hhash, hdigest])
  obtain ⟨owner, howner⟩ := hwritten.mem_list hw
  refine ⟨owner, entryOf w, List.mem_map_of_mem howner, ?_⟩
  change recordedHash w = recordedHash v
  rw [recordedHash_eq (hsame.trans hhash), recordedHash_eq hhash]

theorem digest_injOn {docs : Set Json} (hcollision : CollisionFree P docs) :
    Set.InjOn (custodyClaims P).digest
      {c | ∃ v ∈ docs, canonicalForm v hashExcluded = c} := by
  rintro _ ⟨v, hv, rfl⟩ _ ⟨w, hw, rfl⟩ h
  exact canonicalForm_eq_of_bytes_eq (hcollision v hv w hw h)

theorem verified_prefix_of_written {written edited : Store}
    (hwritten : WrittenStore P written)
    (hcollision : CollisionFree P (documents written ∪ documents edited))
    (hnew : NoNewHash P written edited)
    (hverify : verifyChain P edited evidenceId = .ok true) :
    ∃ owner,
      List.Forall₂ SameEvent (edited.listCustodyEvents evidenceId)
          ((written.listCustodyEvents owner).take
            (edited.listCustodyEvents evidenceId).length) ∧
        ∀ v ∈ edited.listCustodyEvents evidenceId,
          v.field? "evidence_id" = some (.str owner) := by
  obtain ⟨hlinked, hrecords⟩ := verifyChain_eq_true_iff.mp hverify
  by_cases hempty : edited.listCustodyEvents evidenceId = []
  · exact ⟨evidenceId, by simp [hempty], by simp [hempty]⟩
  have hwrittenDocs : ∀ owner, ∀ x ∈ writtenEntries written owner,
      x.1 ∈ {c | ∃ v ∈ documents written ∪ documents edited,
        canonicalForm v hashExcluded = c} := by
    intro owner x hx
    obtain ⟨v, hv, rfl⟩ := List.mem_map.mp hx
    exact ⟨v, Or.inl (listCustodyEvents_subset hv), rfl⟩
  have heditedDocs : ∀ x ∈ (edited.listCustodyEvents evidenceId).map entryOf,
      x.1 ∈ {c | ∃ v ∈ documents written ∪ documents edited,
        canonicalForm v hashExcluded = c} := by
    intro x hx
    obtain ⟨v, hv, rfl⟩ := List.mem_map.mp hx
    exact ⟨v, Or.inr (listCustodyEvents_subset hv), rfl⟩
  obtain ⟨owner, hinit⟩ := hlinked.initial_of_recorded hwritten.linked
    hwritten.owner (digest_injOn hcollision) hwrittenDocs heditedDocs
    (recorded_of_verified hwritten hnew hverify) (by simpa using hempty)
  refine ⟨owner, forall₂_of_entries_le hinit hrecords
    (fun w hw => (hwritten.evidence_of_mem hw).2), ?_⟩
  intro v hv
  have hmem : entryOf v ∈ writtenEntries written owner :=
    hinit.subset (List.mem_map_of_mem hv)
  exact namedEvidence_eq_some_iff.mp (hwritten.owner owner _ hmem)

/-- A stored chain that verifies is a prefix of the chain that was written
for the one evidence its events name. -/
theorem verified_chain_was_written {ι : Type*} [DecidableEq ι]
    (P : Platform) (actions : List (Action ι)) (edited : Store)
    (evidenceId : String) (hcollision : CollisionFree P
      (documents (exec P actions).store ∪ documents edited))
    (hnew : NoNewHash P (exec P actions).store edited)
    (hverify : verifyChain P edited evidenceId = .ok true) :
    ∃ owner,
      List.Forall₂ SameEvent (edited.listCustodyEvents evidenceId)
          (((exec P actions).store.listCustodyEvents owner).take
            (edited.listCustodyEvents evidenceId).length) ∧
        ∀ v ∈ edited.listCustodyEvents evidenceId,
          v.field? "evidence_id" = some (.str owner) :=
  verified_prefix_of_written (invariant_exec P actions).writtenStore
    hcollision hnew hverify

/-! ## Edits the check does not see -/

/-- A digest that spells its bytes out, so that it has no collisions. -/
def spellOut (bytes : ByteArray) : String :=
  String.ofList (bytes.data.toList.map Char.ofUInt8)

theorem spellOut_injective : Function.Injective spellOut := by
  intro a b h
  have hchar : Function.Injective Char.ofUInt8 := by
    intro x y hxy
    have hval : x.toUInt32 = y.toUInt32 := congrArg Char.val hxy
    simpa [← UInt32.toNat_inj, ← UInt8.toNat_inj] using hval
  have hdata := List.map_injective_iff.mpr hchar (String.ofList_injective h)
  exact ByteArray.ext (Array.toList_inj.mp hdata)

def spelledPlatform : Platform where
  sha256 := spellOut
  zoneOffset := fun _ _ => some 0

def epoch : Datetime := ⟨0, some 0⟩

def acquired (evidenceId : String)
    (currentHash : Option (List (String × String))) : AddEventArgs where
  evidenceId := evidenceId
  eventType := .acquisition
  actorName := "examiner"
  action := "Acquired"
  currentHash := currentHash

/-- Two pieces of evidence of one case, with one event each. -/
def twoChains : List (Action Unit) :=
  [.saveCase ⟨"case", "UTC"⟩,
   .saveEvidence ⟨"disk", "case"⟩,
   .saveEvidence ⟨"phone", "case"⟩,
   .read () (acquired "disk" (some [("event_hash", "00")]))
     ⟨epoch, epoch, "e1"⟩,
   .insert (),
   .read () (acquired "phone" none) ⟨epoch, epoch, "e2"⟩,
   .insert ()]

def diskEvent : EventData := EventData.withHash spelledPlatform
    { eventId := "e1"
      caseId := "case"
      evidenceId := "disk"
      eventType := .acquisition
      actorId := none
      actorName := "examiner"
      actorRole := none
      organization := none
      sourceLocation := none
      destinationLocation := none
      action := "Acquired"
      reason := none
      occurredAtUtc := "1970-01-01T00:00:00.000000Z"
      displayedAt := "1970-01-01T00:00:00.000000+00:00"
      timezone := "UTC"
      toolName := some "APEX Forensic Core"
      toolVersion := some engineVersion
      previousHash := none
      currentHash := some [("event_hash", "00")]
      notes := none
      createdAt := "1970-01-01T00:00:00.000000Z"
      immutableRevision := 1
      previousEventHash := none
      eventHash := ""
      correctionOfEventId := none }

def phoneEvent : EventData := 
  EventData.withHash spelledPlatform { diskEvent with
    eventId := "e2"
    evidenceId := "phone"
    currentHash := none
    eventHash := "" }

theorem twoChains_rows :
    (exec spelledPlatform twoChains).store.custodyEvents =
      [diskEvent.toRow, phoneEvent.toRow] := rfl

theorem collisionFree_of_injective (hinjective : Function.Injective P.sha256)
    (docs : Set Json) : CollisionFree P docs :=
  fun _ _ _ _ h => hinjective h

/-- The chain of the phone filed under the disk. -/
def refiledStore : Store :=
  { (exec spelledPlatform twoChains).store with
    custodyEvents :=
      [{ diskEvent.toRow with eventJson := phoneEvent.toSchemaDict }] }

/-- The disk's event with another value under a nested `event_hash`. -/
def rehashedEvent : EventData :=
  { diskEvent with currentHash := some [("event_hash", "ff")] }

def rehashedStore : Store :=
  { (exec spelledPlatform twoChains).store with
    custodyEvents := [rehashedEvent.toRow] }

theorem hashed_rehashedEvent : Hashed spelledPlatform rehashedEvent := by
  have hform : canonicalForm rehashedEvent.toSchemaDict hashExcluded =
      canonicalForm diskEvent.toSchemaDict hashExcluded := rfl
  have hhash : Hashed spelledPlatform diskEvent := hashed_withHash _ _
  unfold Hashed canonicalSha256 canonicalJsonBytes at hhash ⊢
  rw [hform]
  exact hhash

theorem verifyFrom_single {d : EventData} (hhash : Hashed P d)
    (hrevision : d.immutableRevision = 1)
    (hprevious : d.previousEventHash = none) :
    verifyFrom P 1 none [d.toSchemaDict] = .ok true :=
  ((chainedRows_nil P).concat hhash hrevision hprevious).verifyFrom_eq

/-- The check accepts a chain moved to another evidence, and a change below a
nested `event_hash` key. -/
theorem tampering_accepted :
    (CollisionFree spelledPlatform
        (documents (exec spelledPlatform twoChains).store ∪
          documents refiledStore) ∧
      NoNewHash spelledPlatform (exec spelledPlatform twoChains).store
        refiledStore ∧
      verifyChain spelledPlatform refiledStore "disk" = .ok true ∧
      ∃ v ∈ refiledStore.listCustodyEvents "disk",
        v.field? "evidence_id" = some (.str "phone")) ∧
    (CollisionFree spelledPlatform
        (documents (exec spelledPlatform twoChains).store ∪
          documents rehashedStore) ∧
      NoNewHash spelledPlatform (exec spelledPlatform twoChains).store
        rehashedStore ∧
      verifyChain spelledPlatform rehashedStore "disk" = .ok true ∧
      ¬ rehashedStore.listCustodyEvents "disk" <+:
        (exec spelledPlatform twoChains).store.listCustodyEvents "disk") := by
  have hphone : Hashed spelledPlatform phoneEvent := hashed_withHash _ _
  refine ⟨⟨collisionFree_of_injective spellOut_injective _, ?_,
    verifyFrom_single hphone rfl rfl, ?_⟩,
    ⟨collisionFree_of_injective spellOut_injective _, ?_,
    verifyFrom_single hashed_rehashedEvent rfl rfl, ?_⟩⟩
  · rintro v ⟨row, hrow, rfl⟩ -
    obtain rfl := List.mem_singleton.mp hrow
    exact ⟨phoneEvent.toSchemaDict, ⟨phoneEvent.toRow, by
      rw [twoChains_rows]; simp, rfl⟩, rfl⟩
  · exact ⟨phoneEvent.toSchemaDict, List.mem_singleton.mpr rfl, rfl⟩
  · rintro v ⟨row, hrow, rfl⟩ -
    obtain rfl := List.mem_singleton.mp hrow
    exact ⟨diskEvent.toSchemaDict, ⟨diskEvent.toRow, by
      rw [twoChains_rows]; simp, rfl⟩, rfl⟩
  · intro hinit
    have hlist : [rehashedEvent.toSchemaDict] <+: [diskEvent.toSchemaDict] :=
      hinit
    have heq := (List.cons_prefix_cons.mp hlist).1
    have hfield := congrArg (Json.field? "current_hash") heq
    have hvalue : jsonHashes? (some [("event_hash", "ff")]) =
      jsonHashes? (some [("event_hash", "00")]) := Option.some.inj hfield
    simp [jsonHashes?] at hvalue

/-- The theorem at the store of the run itself. -/
theorem verified_chain_was_written_twoChains :
    ∃ owner,
      List.Forall₂ SameEvent
          ((exec spelledPlatform twoChains).store.listCustodyEvents "phone")
          (((exec spelledPlatform twoChains).store.listCustodyEvents
            owner).take 1) ∧
        ∀ v ∈ (exec spelledPlatform twoChains).store.listCustodyEvents "phone",
          v.field? "evidence_id" = some (.str owner) :=
  verified_chain_was_written spelledPlatform twoChains
    (exec spelledPlatform twoChains).store "phone"
    (collisionFree_of_injective spellOut_injective _)
    (fun v hv _ => ⟨v, hv, rfl⟩)
    (verifyFrom_single (d := phoneEvent) (hashed_withHash _ _) rfl rfl)

end ApexForensic.Custody
