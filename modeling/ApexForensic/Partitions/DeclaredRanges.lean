import ApexForensic.Partitions.Uniqueness

/-!
# The ranges a table declares

What a table says of the disk, before any volume is built: the sector ranges
of its used entries, and an empty range where the parser stops an extended
chain.  `listedKey` is what the store will compare of a range.  A chain that
hits a corrupt EBR stops twice, once for the record and once because the
record was just visited.
-/

namespace ApexForensic.Partitions

open ApexForensic.Support ApexForensic.Domain

variable {table : Table} {walk : ChainWalk} {items : List MbrItem}

structure DeclaredRange where
  scheme : VolumeScheme
  startLba : ℕ
  sectorCount : ℕ

/-- The scheme and the byte range under which a declared range is listed. -/
def DeclaredRange.listedKey (reader : Reader) (r : DeclaredRange) :
    VolumeScheme × ℕ × ℕ :=
  (r.scheme, r.startLba * reader.sectorSize,
    clippedLength reader.size (r.startLba * reader.sectorSize)
      (r.sectorCount * reader.sectorSize))

/-- The logical partitions of a chain, and where the parser stops it. -/
def ChainWalk.ranges (walk : ChainWalk) : List DeclaredRange :=
  walk.logicals.map (fun logical =>
      ⟨.mbrExtended, logical.ebrLba + logical.entry.startLba,
        logical.entry.sectorCount⟩) ++
    if walk.endedNormally then [] else [⟨.mbrExtended, walk.nextEbrLba, 0⟩]

def MbrItem.ranges : MbrItem → List DeclaredRange
  | .primary entry => [⟨.mbr, entry.startLba, entry.sectorCount⟩]
  | .extended walk => walk.ranges

/-- The range of a GPT entry, empty when its end is before its start. -/
def GptEntry.range (entry : GptEntry) : DeclaredRange :=
  ⟨.gpt, entry.startLba, entry.endLba + 1 - entry.startLba⟩

def Table.ranges (reader : Reader) : Table → List DeclaredRange
  | .empty => []
  | .superfloppy _ =>
      [⟨.superfloppy, 0, ceilTrueDiv reader.size reader.sectorSize⟩]
  | .protective entry =>
      [⟨.protectiveMbr, entry.startLba, entry.sectorCount⟩]
  | .mbr items => items.flatMap MbrItem.ranges
  | .gptTooLarge header => [⟨.gpt, header.entryLba, 0⟩]
  | .gpt _ _ entries => entries.map GptEntry.range

def VolumeSpec.range (spec : VolumeSpec) : DeclaredRange :=
  ⟨spec.scheme, spec.startLba, spec.sectorCount⟩

/-! ## How a walk ends -/

/-- The walk of a chain ends at its last record, at the safety limit, at a
record visited before, or at a corrupt one. -/
inductive WalkEnd : ChainWalk → Prop
  | normal (logicals : List Logical) (visited : List ℕ) (nextEbrLba : ℕ) :
      WalkEnd ⟨logicals, false, visited, nextEbrLba, true, false⟩
  | limited (logicals : List Logical) (visited : List ℕ) (nextEbrLba : ℕ) :
      WalkEnd ⟨logicals, false, visited, nextEbrLba, false, true⟩
  | stopped (logicals : List Logical) (corrupt : Bool) (visited : List ℕ)
      (nextEbrLba : ℕ) (hvisited : nextEbrLba ∈ visited) :
      WalkEnd ⟨logicals, corrupt, visited, nextEbrLba, false, false⟩

theorem walkEnd_walkChain {reader : Reader} {baseLba remaining : ℕ}
    {visited : List ℕ} {nextEbrLba : ℕ} {logicals : List Logical}
    (h : walkChain reader baseLba remaining visited nextEbrLba logicals =
      .ok walk) :
    WalkEnd walk ∧ walk.logicals.length ≤ logicals.length + remaining := by
  induction remaining generalizing visited nextEbrLba logicals with
  | zero =>
      rw [walkChain] at h
      split_ifs at h with hvisited
      · obtain rfl := Except.ok.inj h
        exact ⟨.stopped _ _ _ _ hvisited, le_rfl⟩
      · obtain rfl := Except.ok.inj h
        exact ⟨.limited _ _ _, le_rfl⟩
  | succ remaining ih =>
      rw [walkChain] at h
      by_cases hvisited : nextEbrLba ∈ visited
      · rw [if_pos hvisited] at h
        obtain rfl := Except.ok.inj h
        exact ⟨.stopped _ _ _ _ hvisited, Nat.le_add_right _ _⟩
      · rw [if_neg hvisited] at h
        obtain ⟨ebr, -, h⟩ := bind_ok h
        by_cases hebr : ebr.length < 512 ∨ slice ebr 510 512 ≠ mbrSignature
        · rw [if_pos hebr] at h
          obtain rfl := Except.ok.inj h
          exact ⟨.stopped _ _ _ _ List.mem_cons_self, Nat.le_add_right _ _⟩
        · rw [if_neg hebr] at h
          dsimp only at h
          -- the record adds at most one logical partition
          have hadd : (if (mbrEntry ebr 0).partitionType ≠ 0 ∧
              0 < (mbrEntry ebr 0).sectorCount then
                logicals ++ [⟨nextEbrLba, mbrEntry ebr 0⟩]
              else logicals).length ≤ logicals.length + 1 := by
            split_ifs <;> simp
          generalize (if (mbrEntry ebr 0).partitionType ≠ 0 ∧
              0 < (mbrEntry ebr 0).sectorCount then
                logicals ++ [⟨nextEbrLba, mbrEntry ebr 0⟩]
              else logicals) = added at h hadd
          split_ifs at h
          · obtain rfl := Except.ok.inj h
            exact ⟨.normal _ _ _, by dsimp only; omega⟩
          · obtain ⟨hend, hlength⟩ := ih h
            exact ⟨hend, by omega⟩

def Table.chains : Table → List ChainWalk
  | .mbr items => items.filterMap fun
      | .primary _ => none
      | .extended walk => some walk
  | _ => []

theorem chains_extended (walk : ChainWalk) (items : List MbrItem) :
    (Table.mbr (.extended walk :: items)).chains =
      walk :: (Table.mbr items).chains := rfl

/-- A chain was walked to one of its ends, over at most 128 records. -/
def MbrItem.Walked : MbrItem → Prop
  | .primary _ => True
  | .extended walk => WalkEnd walk ∧ walk.logicals.length ≤ maxExtendedChain

theorem walked_mbrItems {reader : Reader} {entries : List MbrEntry}
    (h : mbrItems reader entries = .ok items) :
    items.length ≤ entries.length ∧ ∀ item ∈ items, item.Walked := by
  unfold mbrItems at h
  have hfilter := List.length_filter_le
    (fun entry : MbrEntry => entry.partitionType ≠ 0 ∧ entry.sectorCount ≠ 0)
    entries
  generalize entries.filter (fun entry =>
    entry.partitionType ≠ 0 ∧ entry.sectorCount ≠ 0) = used at h hfilter
  suffices hall : items.length = used.length ∧ ∀ item ∈ items, item.Walked by
    exact ⟨hall.1.trans_le hfilter, hall.2⟩
  clear hfilter
  induction used generalizing items with
  | nil =>
      obtain rfl : [] = items := Except.ok.inj h
      exact ⟨rfl, fun item hitem => (List.not_mem_nil hitem).elim⟩
  | cons entry used ih =>
      rw [List.mapM_cons] at h
      obtain ⟨item, hitem, h⟩ := bind_ok h
      obtain ⟨rest, hrest, h⟩ := bind_ok h
      obtain rfl : item :: rest = items := Except.ok.inj h
      obtain ⟨hlength, hall⟩ := ih hrest
      refine ⟨congrArg (· + 1) hlength, List.forall_mem_cons.mpr ⟨?_, hall⟩⟩
      unfold mbrItem at hitem
      split_ifs at hitem
      · obtain ⟨walk, hwalk, h⟩ := bind_ok hitem
        obtain rfl := Except.ok.inj h
        obtain ⟨hend, hbound⟩ := walkEnd_walkChain hwalk
        exact ⟨hend, by simpa using hbound⟩
      · obtain rfl := Except.ok.inj hitem
        exact True.intro

/-! ## The specs of a table and its ranges -/

section Ranges

variable (reader : Reader)

theorem range_warningSpec (index : ℕ) (scheme : VolumeScheme) (lba : ℕ)
    (w : Warning) :
    (warningSpec reader index scheme (lba * reader.sectorSize) w).range =
      ⟨scheme, lba, 0⟩ := by
  rw [VolumeSpec.range, warningSpec,
    Nat.mul_div_cancel lba reader.sectorSize_pos]

theorem map_range_logicals (walk : ChainWalk) (index : ℕ) :
    (walk.logicals.zipIdx.map (logicalSpec index)).map VolumeSpec.range =
      walk.logicals.map fun logical =>
        ⟨.mbrExtended, logical.ebrLba + logical.entry.startLba,
          logical.entry.sectorCount⟩ := by
  conv_rhs => rw [← List.zipIdx_map_fst 0 walk.logicals]
  rw [List.map_map, List.map_map]
  rfl

theorem map_range_chainSpecs (hend : WalkEnd walk)
    (hcorrupt : walk.corrupt = false) (index : ℕ) :
    (chainSpecs reader index walk).map VolumeSpec.range = walk.ranges := by
  cases hend with
  | normal logicals visited nextEbrLba =>
      have := map_range_logicals
        ⟨logicals, false, visited, nextEbrLba, true, false⟩ index
      simpa [chainSpecs, ChainWalk.ranges] using this
  | limited logicals visited nextEbrLba =>
      have := map_range_logicals
        ⟨logicals, false, visited, nextEbrLba, false, true⟩ index
      simpa [chainSpecs, ChainWalk.ranges, range_warningSpec] using this
  | stopped logicals corrupt visited nextEbrLba hvisited =>
      obtain rfl : corrupt = false := hcorrupt
      have := map_range_logicals
        ⟨logicals, false, visited, nextEbrLba, false, false⟩ index
      simpa [chainSpecs, ChainWalk.ranges, range_warningSpec, hvisited]
        using this

theorem not_nodup_chainSpecs (hend : WalkEnd walk)
    (hcorrupt : walk.corrupt = true) (index : ℕ) :
    ¬ ((chainSpecs reader index walk).map VolumeSpec.range).Nodup := by
  cases hend with
  | normal logicals visited nextEbrLba => exact Bool.noConfusion hcorrupt
  | limited logicals visited nextEbrLba => exact Bool.noConfusion hcorrupt
  | stopped logicals corrupt visited nextEbrLba hvisited =>
      obtain rfl : corrupt = true := hcorrupt
      simp [chainSpecs, range_warningSpec, hvisited, List.nodup_append]

theorem map_range_mbrSpecs (hwalked : ∀ item ∈ items, item.Walked)
    (hcorrupt : ∀ walk ∈ (Table.mbr items).chains, walk.corrupt = false)
    (index : ℕ) :
    (mbrSpecs reader index items).map VolumeSpec.range =
      items.flatMap MbrItem.ranges := by
  induction items generalizing index with
  | nil => rfl
  | cons item items ih =>
      rw [List.forall_mem_cons] at hwalked
      rw [mbrSpecs, List.map_append, List.flatMap_cons]
      cases item with
      | primary entry =>
          rw [ih hwalked.2 hcorrupt]
          rfl
      | extended walk =>
          rw [chains_extended, List.forall_mem_cons] at hcorrupt
          rw [ih hwalked.2 hcorrupt.2]
          rw [itemSpecs, map_range_chainSpecs reader hwalked.1.1 hcorrupt.1]
          rfl

theorem not_nodup_mbrSpecs (hwalked : ∀ item ∈ items, item.Walked)
    (hwalk : walk ∈ (Table.mbr items).chains) (hcorrupt : walk.corrupt = true)
    (index : ℕ) :
    ¬ ((mbrSpecs reader index items).map VolumeSpec.range).Nodup := by
  induction items generalizing index with
  | nil => exact (List.not_mem_nil hwalk).elim
  | cons item items ih =>
      rw [List.forall_mem_cons] at hwalked
      intro hnodup
      rw [mbrSpecs, List.map_append] at hnodup
      have hhead := hnodup.of_append_left
      have htail := hnodup.of_append_right
      cases item with
      | primary entry => exact ih hwalked.2 hwalk _ htail
      | extended other =>
          rw [chains_extended, List.mem_cons] at hwalk
          rcases hwalk with rfl | hwalk
          · exact not_nodup_chainSpecs reader hwalked.1.1 hcorrupt index hhead
          · exact ih hwalked.2 hwalk _ htail

theorem range_gptSpec (header : GptHeader) (warnings : List Warning)
    (entry : GptEntry × ℕ) :
    (gptSpec reader header warnings entry).range = entry.1.range := by
  unfold gptSpec
  split_ifs with hinvalid
  · rw [range_warningSpec, GptEntry.range]
    congr 1
    omega
  · simp only [VolumeSpec.range, GptEntry.range]
    congr 1
    omega

theorem ReadTable.walked (h : ReadTable reader table)
    (htable : table = .mbr items) :
    items.length ≤ 4 ∧ ∀ item ∈ items, item.Walked := by
  subst htable
  cases h with
  | mbr entries _ hsector hentries hitems hne =>
      rw [← hentries]
      exact walked_mbrItems hitems

theorem map_range_specs (h : ReadTable reader table)
    (hcorrupt : ∀ walk ∈ table.chains, walk.corrupt = false) :
    (table.specs reader).map VolumeSpec.range = table.ranges reader := by
  cases table with
  | empty => rfl
  | superfloppy warnings => rfl
  | protective entry => rfl
  | mbr items =>
      exact map_range_mbrSpecs reader (h.walked reader rfl).2 hcorrupt 0
  | gptTooLarge header =>
      rw [Table.specs, List.map_singleton, range_warningSpec]
      rfl
  | gpt header warnings entries =>
      rw [Table.specs, Table.ranges, List.map_map]
      conv_rhs => rw [← List.zipIdx_map_fst 0 entries]
      rw [List.map_map]
      apply List.map_congr_left
      intro entry _
      exact range_gptSpec reader header warnings entry

/-- The keys of the specs are distinct exactly when no chain is corrupt and
the declared ranges are listed under distinct keys. -/
theorem nodup_specs_iff (h : ReadTable reader table) :
    (((table.specs reader).map (specExtent reader)).map Extent.key).Nodup ↔
      (∀ walk ∈ table.chains, walk.corrupt = false) ∧
        ((table.ranges reader).map (DeclaredRange.listedKey reader)).Nodup := by
  have hkeys : ((table.specs reader).map (specExtent reader)).map Extent.key =
      ((table.specs reader).map VolumeSpec.range).map
        (DeclaredRange.listedKey reader) := by
    rw [List.map_map, List.map_map]
    rfl
  rw [hkeys]
  constructor
  · intro hnodup
    have hcorrupt : ∀ walk ∈ table.chains, walk.corrupt = false := by
      intro walk hwalk
      cases hwalkCorrupt : walk.corrupt with
      | false => rfl
      | true =>
          cases table with
          | mbr items =>
              exact (not_nodup_mbrSpecs reader (h.walked reader rfl).2 hwalk
                hwalkCorrupt 0 (List.Nodup.of_map _ hnodup)).elim
          | _ => exact (List.not_mem_nil hwalk).elim
    rw [map_range_specs reader h hcorrupt] at hnodup
    exact ⟨hcorrupt, hnodup⟩
  · rintro ⟨hcorrupt, hnodup⟩
    rwa [map_range_specs reader h hcorrupt]

end Ranges

end ApexForensic.Partitions
