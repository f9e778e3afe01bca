import ApexForensic.Search.Keywords

/-!
# The versions of a keyword set

A version is only stored under a number its set has not used yet.  Where the
versions of a set are 1, 2, ..., n, the successor of a version can therefore be
stored only when that version is the last one.
-/

namespace ApexForensic.Search

open ApexForensic.Support ApexForensic.Domain

variable {P : Platform} {store store' : KeywordStore} {set : KeywordSet}

namespace KeywordStore

def versionsOf (store : KeywordStore) (keywordSetId : String) :
    List KeywordSet :=
  store.versions.filter fun version => version.keywordSetId = keywordSetId

/-- The versions of each set are 1, 2, ... in the order of the table, the set
points to the last of them, and no version holds a keyword or an id twice. -/
structure VersionLaw (P : Platform) (store : KeywordStore) : Prop where
  numbers : ∀ keywordSetId,
    (store.versionsOf keywordSetId).map KeywordSet.version =
      List.range' 1 (store.versionsOf keywordSetId).length
  ids_nodup : (store.versions.map KeywordSet.keywordSetVersionId).Nodup
  current : ∀ keywordSetId,
    (store.sets.find? keywordSetId).map KeywordSetRow.currentVersionId =
      (store.versionsOf keywordSetId).getLast?.map
        KeywordSet.keywordSetVersionId
  keys_nodup : ∀ version ∈ store.versions,
    (version.keywords.map (Keyword.key P)).Nodup
  keywordIds_nodup : ∀ version ∈ store.versions,
    (version.keywords.map Keyword.keywordId).Nodup

theorem mem_versionsOf {version : KeywordSet} {keywordSetId : String} :
    version ∈ store.versionsOf keywordSetId ↔
      version ∈ store.versions ∧ version.keywordSetId = keywordSetId := by
  simp [versionsOf]

theorem versionLaw_empty : KeywordStore.empty.VersionLaw P where
  numbers _ := rfl
  ids_nodup := List.nodup_nil
  current _ := rfl
  keys_nodup _ h := absurd h List.not_mem_nil
  keywordIds_nodup _ h := absurd h List.not_mem_nil

/-! ## Reading a version -/

theorem mem_row_keywords {keyword : Keyword} :
    keyword ∈ (row set).keywords ↔ keyword ∈ set.keywords :=
  List.mem_insertionSort _

theorem VersionLaw.mem_of_get (hstore : store.VersionLaw P)
    {keywordSetId : String}
    (h : store.getKeywordSet keywordSetId none = some set) :
    ∃ version ∈ store.versions, set = row version ∧
      version.keywordSetId = keywordSetId := by
  obtain ⟨current, hcurrent, h⟩ := Option.bind_eq_some_iff.mp h
  obtain ⟨version, hversion, h⟩ := Option.bind_eq_some_iff.mp h
  obtain rfl := Option.some.inj h
  have hid : version.keywordSetVersionId = current.currentVersionId := by
    simpa using List.find?_some hversion
  have hmem := List.mem_of_find?_eq_some hversion
  have hlast := hstore.current keywordSetId
  rw [hcurrent, Option.map_some] at hlast
  obtain ⟨last, hget, hlastId⟩ := Option.map_eq_some_iff.mp hlast.symm
  obtain ⟨hlastMem, hset⟩ := mem_versionsOf.mp (List.mem_of_getLast? hget)
  have hsame : version = last := List.inj_on_of_nodup_map hstore.ids_nodup
    hmem hlastMem (hid.trans hlastId.symm)
  exact ⟨version, hmem, rfl, by rw [hsame, hset]⟩

theorem VersionLaw.version_bounds (hstore : store.VersionLaw P)
    {version : KeywordSet} (h : version ∈ store.versions) :
    1 ≤ version.version ∧
      version.version ≤ (store.versionsOf version.keywordSetId).length := by
  have hmem : version.version ∈
      (store.versionsOf version.keywordSetId).map KeywordSet.version :=
    List.mem_map_of_mem (mem_versionsOf.mpr ⟨h, rfl⟩)
  rw [hstore.numbers, List.mem_range'_1] at hmem
  omega

theorem VersionLaw.exists_version (hstore : store.VersionLaw P)
    {keywordSetId : String} {n : ℕ} (hpos : 1 ≤ n)
    (hle : n ≤ (store.versionsOf keywordSetId).length) :
    ∃ version ∈ store.versions, version.keywordSetId = keywordSetId ∧
      version.version = n := by
  have hmem : n ∈
      (store.versionsOf keywordSetId).map KeywordSet.version := by
    rw [hstore.numbers, List.mem_range'_1]
    omega
  obtain ⟨version, hversion, hn⟩ := List.mem_map.mp hmem
  obtain ⟨hversion, hset⟩ := mem_versionsOf.mp hversion
  exact ⟨version, hversion, hset, hn⟩

theorem VersionLaw.eq_of_version (hstore : store.VersionLaw P)
    {v w : KeywordSet} (hv : v ∈ store.versions) (hw : w ∈ store.versions)
    (hset : v.keywordSetId = w.keywordSetId) (heq : v.version = w.version) :
    v = w := by
  have hnodup : ((store.versionsOf w.keywordSetId).map
      KeywordSet.version).Nodup := by
    rw [hstore.numbers]
    exact List.nodup_range'
  exact List.inj_on_of_nodup_map hnodup (mem_versionsOf.mpr ⟨hv, hset⟩)
    (mem_versionsOf.mpr ⟨hw, rfl⟩) heq

/-! ## Storing a version -/

theorem saveKeywordSet_unique (h : store.saveKeywordSet P set = .ok store') :
    (∀ version ∈ store.versions,
      ¬(version.keywordSetId = set.keywordSetId ∧
        version.version = set.version)) ∧
      (set.keywords.map (Keyword.key P)).Nodup ∧
      (set.keywords.map Keyword.keywordId).Nodup := by
  obtain ⟨versions, hversions, h⟩ := bind_ok h
  obtain ⟨keywords, hkeywords, -⟩ := bind_ok h
  obtain ⟨-, hnew⟩ := insertRow_eq_ok_iff.mp hversions
  refine ⟨?_, ?_, ?_⟩
  · rintro version hmem ⟨hset, hversion⟩
    have hclash := hnew _ (List.mem_cons_of_mem _ List.mem_cons_self)
      version hmem
    simp [hset, hversion] at hclash
  · have hnil : (([] : List Keyword).map (Keyword.key P)).Nodup :=
      List.nodup_nil
    obtain ⟨rfl, hnodup⟩ := nodup_of_insertRows
      (List.mem_cons_of_mem _ List.mem_cons_self)
      (fun a b hkey => decide_eq_true hkey.symm) hnil hkeywords
    exact hnodup
  · have hnil : (([] : List Keyword).map Keyword.keywordId).Nodup :=
      List.nodup_nil
    obtain ⟨rfl, hnodup⟩ := nodup_of_insertRows List.mem_cons_self
      (fun a b hkey => decide_eq_true hkey.symm) hnil hkeywords
    exact hnodup

/-- A first version, or the successor of a version of the set. -/
def Follows (store : KeywordStore) (set : KeywordSet) : Prop :=
  set.version = 1 ∨ ∃ version ∈ store.versions,
    version.keywordSetId = set.keywordSetId ∧
      set.version = version.version + 1

theorem VersionLaw.version_of_save (hstore : store.VersionLaw P)
    (hfollows : store.Follows set)
    (h : store.saveKeywordSet P set = .ok store') :
    set.version = (store.versionsOf set.keywordSetId).length + 1 := by
  obtain ⟨hnew, -⟩ := saveKeywordSet_unique h
  have hfree : ¬(1 ≤ set.version ∧
      set.version ≤ (store.versionsOf set.keywordSetId).length) := by
    rintro ⟨hpos, hle⟩
    obtain ⟨version, hversion, hset, hn⟩ := hstore.exists_version hpos hle
    exact hnew version hversion ⟨hset, hn⟩
  rcases hfollows with hfirst | ⟨version, hversion, hset, hnext⟩
  · omega
  · have hbounds := hstore.version_bounds hversion
    rw [hset] at hbounds
    omega

theorem VersionLaw.save (hstore : store.VersionLaw P)
    (hfollows : store.Follows set)
    (h : store.saveKeywordSet P set = .ok store') : store'.VersionLaw P := by
  have hnumber := hstore.version_of_save hfollows h
  obtain ⟨-, hkeys, hids⟩ := saveKeywordSet_unique h
  obtain ⟨hsets, hversions, hfresh⟩ := saveKeywordSet_eq_ok h
  have hown : store'.versionsOf set.keywordSetId =
      store.versionsOf set.keywordSetId ++ [set] := by
    simp [versionsOf, hversions, List.filter_append]
  have hother : ∀ keywordSetId, set.keywordSetId ≠ keywordSetId →
      store'.versionsOf keywordSetId = store.versionsOf keywordSetId := by
    intro keywordSetId hne
    simp [versionsOf, hversions, List.filter_append, hne]
  refine ⟨fun keywordSetId => ?_, ?_, fun keywordSetId => ?_, ?_, ?_⟩
  · by_cases hid : set.keywordSetId = keywordSetId
    · subst hid
      rw [hown, List.map_append, hstore.numbers, List.length_append,
        List.length_singleton, List.range'_concat, List.map_singleton,
        hnumber, one_mul, Nat.add_comm 1]
    · rw [hother keywordSetId hid]
      exact hstore.numbers keywordSetId
  · rw [hversions]
    exact nodup_map_concat hstore.ids_nodup fun version hmem heq =>
      hfresh version hmem heq.symm
  · rw [hsets, Table.find?_put]
    by_cases hid : set.keywordSetId = keywordSetId
    · subst hid
      rw [hown, List.getLast?_concat, if_pos rfl]
      rfl
    · rw [hother keywordSetId hid, if_neg hid]
      exact hstore.current keywordSetId
  · rw [hversions]
    intro version hmem
    rcases List.mem_append.mp hmem with hold | hnew
    · exact hstore.keys_nodup version hold
    · obtain rfl := List.mem_singleton.mp hnew
      exact hkeys
  · rw [hversions]
    intro version hmem
    rcases List.mem_append.mp hmem with hold | hnew
    · exact hstore.keywordIds_nodup version hold
    · obtain rfl := List.mem_singleton.mp hnew
      exact hids

end KeywordStore

theorem newKeywordSetVersion_follows {current : KeywordSet}
    {keywords : List Keyword} {status : KeywordSetStatus} {now newId : String}
    (h : newKeywordSetVersion P store current keywords status now newId =
      .ok (set, store')) : set.version = current.version + 1 := by
  obtain ⟨-, -, h⟩ := bind_ok h
  obtain ⟨store'', -, h⟩ := bind_ok h
  obtain ⟨rfl, -⟩ := ok_pair_inj h
  rfl

theorem createKeywordSet_eq_ok {args : CreateKeywordSetArgs}
    {inputs : CreateKeywordSetInputs}
    (h : createKeywordSet P store args inputs = .ok (set, store')) :
    set.version = 1 ∧ store.saveKeywordSet P set = .ok store' := by
  obtain ⟨_, -, h⟩ := bind_ok h
  obtain ⟨_, -, h⟩ := bind_ok h
  obtain ⟨_, -, h⟩ := bind_ok h
  obtain ⟨store'', hsave, h⟩ := bind_ok h
  obtain ⟨rfl, rfl⟩ := ok_pair_inj h
  exact ⟨rfl, hsave⟩

end ApexForensic.Search
