import ApexForensic.Partitions.Coverage
import ApexForensic.Support.LinkWalk

/-!
# The walk of an extended chain

The links of the EBRs decide how the walk ends: at an EBR without a link, at a
corrupt one, at one visited before, or at the bound.  The walk reads each EBR
it visits once and lists the logical partitions of all of them.  What it says
about its end is right unless it comes to a corrupt EBR, which it also reports
as a cycle.
-/

namespace ApexForensic.Partitions

open ApexForensic.Support ApexForensic.Domain

/-! ## Links -/

section Links

variable (reader : Reader) (baseLba : ℕ)

/-- The bytes the walk reads of an EBR. -/
def readEbr (lba : ℕ) : List UInt8 :=
  (reader.readAt (lba * reader.sectorSize)
    (min reader.sectorSize 512)).toOption.getD []

def Corrupt (lba : ℕ) : Prop :=
  (readEbr reader lba).length < 512 ∨
    slice (readEbr reader lba) 510 512 ≠ mbrSignature

instance (lba : ℕ) : Decidable (Corrupt reader lba) :=
  inferInstanceAs (Decidable (_ ∨ _))

def ebrLink (lba : ℕ) : Option ℕ :=
  let link := mbrEntry (readEbr reader lba) 1
  if Corrupt reader lba ∨ link.partitionType ∉ extendedTypes ∨
      link.sectorCount = 0 then none
  else some (baseLba + link.startLba)

/-- The logical partition that a valid EBR describes. -/
def ebrLogical (lba : ℕ) : Option Logical :=
  let logical := mbrEntry (readEbr reader lba) 0
  if ¬ Corrupt reader lba ∧ logical.partitionType ≠ 0 ∧
      0 < logical.sectorCount then some ⟨lba, logical⟩
  else none

/-- The EBR some links behind the first one. -/
def ebrAt (n : ℕ) : Option ℕ :=
  linked (ebrLink reader baseLba) baseLba n

theorem readAt_ebr (lba : ℕ) :
    reader.readAt (lba * reader.sectorSize) (min reader.sectorSize 512) =
      .ok (readEbr reader lba) := by
  have hbound : ¬ maxEvidenceReadSize < min reader.sectorSize 512 := by
    unfold maxEvidenceReadSize
    omega
  unfold readEbr Reader.readAt
  rw [if_neg hbound]
  split_ifs <;> rfl

end Links

/-! ## The walk and its reads -/

/-- The bytes of an EBR, as an offset and a length. -/
def ebrRange (reader : Reader) (lba : ℕ) : ℕ × ℕ :=
  (lba * reader.sectorSize, min reader.sectorSize 512)

/-- The walk with the byte ranges it reads. -/
def walkReads (reader : Reader) (baseLba : ℕ) :
    (remaining : ℕ) → (visited : List ℕ) → (nextEbrLba : ℕ) →
      (logicals : List Logical) →
        List (ℕ × ℕ) × Except PyError ChainWalk
  | remaining, visited, nextEbrLba, logicals =>
      if nextEbrLba ∈ visited then
        ([], .ok ⟨logicals, false, visited, nextEbrLba, false, false⟩)
      else
        match remaining with
        | 0 => ([], .ok ⟨logicals, false, visited, nextEbrLba, false, true⟩)
        | remaining + 1 =>
            let visited := nextEbrLba :: visited
            let range := ebrRange reader nextEbrLba
            match reader.readAt range.1 range.2 with
            | .error error => ([range], .error error)
            | .ok ebr =>
                if ebr.length < 512 ∨ slice ebr 510 512 ≠ mbrSignature then
                  ([range],
                    .ok ⟨logicals, true, visited, nextEbrLba, false, false⟩)
                else
                  let logical := mbrEntry ebr 0
                  let logicals :=
                    if logical.partitionType ≠ 0 ∧ 0 < logical.sectorCount then
                      logicals ++ [⟨nextEbrLba, logical⟩]
                    else logicals
                  let link := mbrEntry ebr 1
                  if link.partitionType ∉ extendedTypes ∨
                      link.sectorCount = 0 then
                    ([range],
                      .ok ⟨logicals, false, visited, nextEbrLba, true, false⟩)
                  else
                    let rest := walkReads reader baseLba remaining visited
                      (baseLba + link.startLba) logicals
                    (range :: rest.1, rest.2)

section Walk

variable {reader : Reader} {baseLba : ℕ}

theorem walkReads_snd (remaining : ℕ) (visited : List ℕ) (nextEbrLba : ℕ)
    (logicals : List Logical) :
    (walkReads reader baseLba remaining visited nextEbrLba logicals).2 =
      walkChain reader baseLba remaining visited nextEbrLba logicals := by
  induction remaining generalizing visited nextEbrLba logicals with
  | zero =>
      rw [walkReads, walkChain]
      split_ifs <;> rfl
  | succ remaining ih =>
      rw [walkReads, walkChain]
      by_cases hmem : nextEbrLba ∈ visited
      · rw [if_pos hmem, if_pos hmem]
      · rw [if_neg hmem, if_neg hmem]
        dsimp only [ebrRange]
        rw [readAt_ebr]
        simp only [bind, Except.bind]
        by_cases hcorrupt : (readEbr reader nextEbrLba).length < 512 ∨
            slice (readEbr reader nextEbrLba) 510 512 ≠ mbrSignature
        · rw [if_pos hcorrupt, if_pos hcorrupt]
        · rw [if_neg hcorrupt, if_neg hcorrupt]
          by_cases hlast :
              (mbrEntry (readEbr reader nextEbrLba) 1).partitionType ∉
                  extendedTypes ∨
                (mbrEntry (readEbr reader nextEbrLba) 1).sectorCount = 0
          · rw [if_pos hlast, if_pos hlast]
          · rw [if_neg hlast, if_neg hlast]
            exact ih _ _ _

section Step

variable {remaining start : ℕ} {visited : List ℕ} {logicals : List Logical}

theorem ebrLogical_of_corrupt (h : Corrupt reader start) :
    ebrLogical reader start = none := by
  unfold ebrLogical
  exact if_neg fun hvalid => hvalid.1 h

theorem ebrLink_of_corrupt (h : Corrupt reader start) :
    ebrLink reader baseLba start = none := by
  unfold ebrLink
  exact if_pos (Or.inl h)

theorem walkReads_corrupt (hmem : start ∉ visited) (h : Corrupt reader start) :
    walkReads reader baseLba (remaining + 1) visited start logicals =
      ([ebrRange reader start],
        .ok ⟨logicals, true, start :: visited, start, false, false⟩) := by
  rw [walkReads, if_neg hmem]
  dsimp only [ebrRange]
  rw [readAt_ebr]
  dsimp only
  exact if_pos h

theorem walkReads_valid (hmem : start ∉ visited) (h : ¬ Corrupt reader start) :
    walkReads reader baseLba (remaining + 1) visited start logicals =
      match ebrLink reader baseLba start with
      | none => ([ebrRange reader start],
          .ok ⟨logicals ++ (ebrLogical reader start).toList, false,
            start :: visited, start, true, false⟩)
      | some next =>
          let rest := walkReads reader baseLba remaining (start :: visited)
            next (logicals ++ (ebrLogical reader start).toList)
          (ebrRange reader start :: rest.1, rest.2) := by
  have hvalid : ¬ ((readEbr reader start).length < 512 ∨
      slice (readEbr reader start) 510 512 ≠ mbrSignature) := h
  have hlogical :
      (if (mbrEntry (readEbr reader start) 0).partitionType ≠ 0 ∧
          0 < (mbrEntry (readEbr reader start) 0).sectorCount then
        logicals ++ [⟨start, mbrEntry (readEbr reader start) 0⟩]
      else logicals) = logicals ++ (ebrLogical reader start).toList := by
    simp only [ebrLogical, h, not_false_eq_true, true_and]
    split_ifs <;> simp
  rw [walkReads, if_neg hmem]
  dsimp only [ebrRange]
  rw [readAt_ebr]
  dsimp only
  rw [if_neg hvalid, hlogical]
  simp only [ebrLink, h, false_or]
  split_ifs <;> rfl

end Step

/-- The state in which the walk along the links is left. -/
structure Left (reader : Reader) (baseLba : ℕ) (visited : List ℕ)
    (start : ℕ) (logicals : List Logical) (path : List ℕ × WalkStop)
    (left : ChainWalk) : Prop where
  logicals_eq : left.logicals =
    logicals ++ path.1.filterMap (ebrLogical reader)
  visited_eq : left.visited = path.1.reverse ++ visited
  corrupt_iff : left.corrupt ↔
    path.2 = .ended ∧ Corrupt reader left.nextEbrLba
  normal_iff : left.endedNormally ↔
    path.2 = .ended ∧ ¬ Corrupt reader left.nextEbrLba
  limited_iff : left.chainLimited ↔ path.2 = .limited
  next_mem : path.2 ≠ .limited → left.nextEbrLba ∈ left.visited
  last : path.2 = .ended → ∃ n, path.1.length = n + 1 ∧
    linked (ebrLink reader baseLba) start n = some left.nextEbrLba
  standing : path.2 ≠ .ended →
    linked (ebrLink reader baseLba) start path.1.length =
      some left.nextEbrLba

variable (reader baseLba) in
theorem walkReads_spec (remaining : ℕ) (visited : List ℕ) (start : ℕ)
    (logicals : List Logical) :
    ∃ left, walkReads reader baseLba remaining visited start logicals =
        ((walk (ebrLink reader baseLba) remaining visited start).1.map
          (ebrRange reader), .ok left) ∧
      Left reader baseLba visited start logicals
        (walk (ebrLink reader baseLba) remaining visited start) left := by
  induction remaining generalizing visited start logicals with
  | zero =>
      rw [walkReads, walk]
      by_cases hmem : start ∈ visited
      · rw [if_pos hmem, if_pos hmem]
        exact ⟨_, rfl, by simp, rfl, by simp, by simp, by simp,
          fun _ => hmem, by simp, fun _ => rfl⟩
      · rw [if_neg hmem, if_neg hmem]
        exact ⟨_, rfl, by simp, rfl, by simp, by simp, by simp, by simp,
          by simp, fun _ => rfl⟩
  | succ remaining ih =>
      rw [walk]
      by_cases hmem : start ∈ visited
      · rw [walkReads, if_pos hmem, if_pos hmem]
        exact ⟨_, rfl, by simp, rfl, by simp, by simp, by simp,
          fun _ => hmem, by simp, fun _ => rfl⟩
      · rw [if_neg hmem]
        by_cases hcorrupt : Corrupt reader start
        · rw [walkReads_corrupt hmem hcorrupt]
          simp only [ebrLink_of_corrupt hcorrupt]
          refine ⟨_, rfl, ?_, rfl, ?_, ?_, ?_, ?_, ?_, ?_⟩
          · simp [ebrLogical_of_corrupt hcorrupt]
          · simp [hcorrupt]
          · simp [hcorrupt]
          · simp
          · simp
          · exact fun _ => ⟨0, rfl, rfl⟩
          · simp
        · rw [walkReads_valid hmem hcorrupt]
          rcases hlink : ebrLink reader baseLba start with _ | next
          · refine ⟨_, rfl, ?_, rfl, ?_, ?_, ?_, ?_, ?_, ?_⟩
            · rw [List.filterMap_cons]
              cases ebrLogical reader start <;> rfl
            · simp [hcorrupt]
            · simp [hcorrupt]
            · simp
            · simp
            · exact fun _ => ⟨0, rfl, rfl⟩
            · simp
          · obtain ⟨left, hreads, hleft⟩ := ih (start :: visited) next
              (logicals ++ (ebrLogical reader start).toList)
            dsimp only
            rw [hreads]
            refine ⟨left, rfl, ?_, ?_, hleft.corrupt_iff, hleft.normal_iff,
              hleft.limited_iff, hleft.next_mem, ?_, ?_⟩
            · rw [hleft.logicals_eq, List.append_assoc, List.filterMap_cons]
              cases ebrLogical reader start <;> rfl
            · rw [hleft.visited_eq]
              simp
            · intro hstop
              obtain ⟨n, hlength, hn⟩ := hleft.last hstop
              exact ⟨n + 1, congrArg (· + 1) hlength,
                (linked_of_link hlink n).trans hn⟩
            · intro hstop
              exact (linked_of_link hlink _).trans (hleft.standing hstop)

/-! ## How a walk ends -/

inductive ChainEnd where
  | normal
  | corrupt
  | cycle
  | limited
  deriving DecidableEq

/-- What the links say about the end of a walk. -/
def ChainEnd.Holds (reader : Reader) (baseLba : ℕ) : ChainEnd → Prop
  | normal => ∃ n < maxExtendedChain, ∃ lba, ebrAt reader baseLba n = some lba ∧
      ¬ Corrupt reader lba ∧ ebrLink reader baseLba lba = none
  | corrupt => ∃ n < maxExtendedChain, ∃ lba,
      ebrAt reader baseLba n = some lba ∧ Corrupt reader lba
  | cycle => ∃ i j, i < j ∧ j ≤ maxExtendedChain ∧
      (ebrAt reader baseLba j).isSome ∧
        ebrAt reader baseLba i = ebrAt reader baseLba j
  | limited => Fresh (ebrLink reader baseLba) baseLba maxExtendedChain

def ChainEnd.warnings : ChainEnd → List Warning
  | normal => []
  | corrupt => [corruptWarning]
  | cycle => [cycleWarning]
  | limited => [limitWarning]

/-- The volumes say how the walk ended, which is what the links say. -/
def EndReported (reader : Reader) (baseLba firstVolumeIndex : ℕ)
    (left : ChainWalk) : Prop :=
  ∃ e : ChainEnd, e.Holds reader baseLba ∧
    (∀ e' : ChainEnd, e'.Holds reader baseLba → e' = e) ∧
    chainSpecs reader firstVolumeIndex left =
      left.logicals.zipIdx.map (logicalSpec firstVolumeIndex) ++
        e.warnings.map (warningSpec reader
          (firstVolumeIndex + left.logicals.length) .mbrExtended
          (left.nextEbrLba * reader.sectorSize))

/-- How the walk to an EBR ends. -/
def chainEnd (reader : Reader) (lba : ℕ) : WalkStop → ChainEnd
  | .ended => if Corrupt reader lba then .corrupt else .normal
  | .repeated => .cycle
  | .limited => .limited

section Ends

variable {stop : WalkStop} {path : List ℕ} {left : ChainWalk}

theorem ended_of_link_none {visits n lba : ℕ}
    (hwalked : Walked (ebrLink reader baseLba) baseLba maxExtendedChain visits
      stop) (hn : n < maxExtendedChain)
    (hat : ebrAt reader baseLba n = some lba)
    (hlink : ebrLink reader baseLba lba = none) :
    stop = .ended ∧ visits = n + 1 := by
  have hnone : linked (ebrLink reader baseLba) baseLba (n + 1) = none := by
    rw [linked]
    exact (congrArg (Option.bind · (ebrLink reader baseLba)) hat).trans hlink
  have hstop : stop = .ended := hwalked.ended_iff.mpr ⟨n + 1, hn, hnone⟩
  refine ⟨hstop, ?_⟩
  rcases lt_trichotomy visits (n + 1) with hlt | heq | hgt
  · have hsome : (linked (ebrLink reader baseLba) baseLba visits).isSome :=
      linked_isSome_of_le (Nat.lt_succ_iff.mp hlt) (Option.isSome_of_mem hat)
    rw [hwalked.ended hstop] at hsome
    cases hsome
  · exact heq
  · have hsome := (hwalked.fresh (n + 1) hgt).1
    rw [hnone] at hsome
    cases hsome

theorem holds_iff
    (hwalked : Walked (ebrLink reader baseLba) baseLba maxExtendedChain
      path.length stop)
    (hleft : Left reader baseLba [] baseLba [] (path, stop) left)
    (e : ChainEnd) :
    e.Holds reader baseLba ↔ e = chainEnd reader left.nextEbrLba stop := by
  have hended (lba : ℕ) (n : ℕ) (hn : n < maxExtendedChain)
      (hat : ebrAt reader baseLba n = some lba)
      (hlink : ebrLink reader baseLba lba = none) :
      stop = .ended ∧ lba = left.nextEbrLba := by
    obtain ⟨hstop, hlength⟩ := ended_of_link_none hwalked hn hat hlink
    obtain ⟨m, hm, hlast⟩ := hleft.last hstop
    have heq : n = m := Nat.succ_injective (hlength.symm.trans hm)
    rw [heq] at hat
    exact ⟨hstop, Option.some.inj (hat.symm.trans hlast)⟩
  have hlast (hstop : stop = .ended) : ∃ n < maxExtendedChain,
      ebrAt reader baseLba n = some left.nextEbrLba ∧
        ebrLink reader baseLba left.nextEbrLba = none := by
    obtain ⟨n, hlength, hat⟩ := hleft.last hstop
    have hle := hwalked.le_bound
    have hnone := hwalked.ended hstop
    have hlength : path.length = n + 1 := hlength
    rw [hlength, linked, hat, Option.bind_some] at hnone
    exact ⟨n, by omega, hat, hnone⟩
  cases e with
  | normal =>
      constructor
      · rintro ⟨n, hn, lba, hat, hvalid, hlink⟩
        obtain ⟨rfl, rfl⟩ := hended lba n hn hat hlink
        rw [chainEnd, if_neg hvalid]
      · intro heq
        cases stop with
        | ended =>
            obtain ⟨n, hn, hat, hlink⟩ := hlast rfl
            refine ⟨n, hn, _, hat, fun hcorrupt => ?_, hlink⟩
            rw [chainEnd, if_pos hcorrupt] at heq
            cases heq
        | repeated => cases heq
        | limited => cases heq
  | corrupt =>
      constructor
      · rintro ⟨n, hn, lba, hat, hcorrupt⟩
        obtain ⟨rfl, rfl⟩ := hended lba n hn hat (ebrLink_of_corrupt hcorrupt)
        rw [chainEnd, if_pos hcorrupt]
      · intro heq
        cases stop with
        | ended =>
            obtain ⟨n, hn, hat, -⟩ := hlast rfl
            refine ⟨n, hn, _, hat, ?_⟩
            by_contra hvalid
            rw [chainEnd, if_neg hvalid] at heq
            cases heq
        | repeated => cases heq
        | limited => cases heq
  | cycle =>
      have hrepeated := hwalked.repeated_iff
      constructor
      · intro h
        obtain rfl := hrepeated.mpr h
        rfl
      · intro heq
        apply hrepeated.mp
        cases stop with
        | ended =>
            rw [chainEnd] at heq
            split_ifs at heq
        | repeated => rfl
        | limited => cases heq
  | limited =>
      have hlimited := hwalked.limited_iff
      constructor
      · intro h
        obtain rfl := hlimited.mpr h
        rfl
      · intro heq
        apply hlimited.mp
        cases stop with
        | ended =>
            rw [chainEnd] at heq
            split_ifs at heq
        | repeated => cases heq
        | limited => rfl

theorem chainSpecs_of_corrupt (firstVolumeIndex : ℕ)
    (hleft : Left reader baseLba [] baseLba [] (path, .ended) left)
    (hcorrupt : Corrupt reader left.nextEbrLba) :
    chainSpecs reader firstVolumeIndex left =
      left.logicals.zipIdx.map (logicalSpec firstVolumeIndex) ++
        [warningSpec reader (firstVolumeIndex + left.logicals.length)
            .mbrExtended (left.nextEbrLba * reader.sectorSize) corruptWarning,
          warningSpec reader (firstVolumeIndex + (left.logicals.length + 1))
            .mbrExtended (left.nextEbrLba * reader.sectorSize)
            cycleWarning] := by
  have hflag : left.corrupt = true := hleft.corrupt_iff.mpr ⟨rfl, hcorrupt⟩
  have hnormal : left.endedNormally = false := by
    rw [← Bool.not_eq_true]
    exact fun h => (hleft.normal_iff.mp h).2 hcorrupt
  have hlimited : left.chainLimited = false := by
    rw [← Bool.not_eq_true]
    exact fun h => nomatch hleft.limited_iff.mp h
  have hmem : left.nextEbrLba ∈ left.visited := hleft.next_mem nofun
  simp [chainSpecs, hflag, hnormal, hlimited, hmem]

theorem chainSpecs_of_valid (firstVolumeIndex : ℕ)
    (hleft : Left reader baseLba [] baseLba [] (path, stop) left)
    (hvalid : chainEnd reader left.nextEbrLba stop ≠ .corrupt) :
    chainSpecs reader firstVolumeIndex left =
      left.logicals.zipIdx.map (logicalSpec firstVolumeIndex) ++
        (chainEnd reader left.nextEbrLba stop).warnings.map
          (warningSpec reader (firstVolumeIndex + left.logicals.length)
            .mbrExtended (left.nextEbrLba * reader.sectorSize)) := by
  have hcorrupt : left.corrupt = false := by
    rw [← Bool.not_eq_true]
    intro h
    obtain ⟨hstop, hcorrupt⟩ := hleft.corrupt_iff.mp h
    have hstop : stop = .ended := hstop
    rw [hstop, chainEnd, if_pos hcorrupt] at hvalid
    exact hvalid rfl
  have hlimited := hleft.limited_iff
  have hnormal := hleft.normal_iff
  cases stop with
  | ended =>
      have hgood : ¬ Corrupt reader left.nextEbrLba := by
        intro h
        rw [chainEnd, if_pos h] at hvalid
        exact hvalid rfl
      have hended : left.endedNormally = true := hnormal.mpr ⟨rfl, hgood⟩
      simp_all [chainSpecs, chainEnd, ChainEnd.warnings]
  | repeated =>
      have hmem : left.nextEbrLba ∈ left.visited := hleft.next_mem nofun
      simp_all [chainSpecs, chainEnd, ChainEnd.warnings]
  | limited =>
      simp_all [chainSpecs, chainEnd, ChainEnd.warnings]

theorem endReported_iff (firstVolumeIndex : ℕ)
    (hwalked : Walked (ebrLink reader baseLba) baseLba maxExtendedChain
      path.length stop)
    (hleft : Left reader baseLba [] baseLba [] (path, stop) left) :
    EndReported reader baseLba firstVolumeIndex left ↔
      ¬ ChainEnd.corrupt.Holds reader baseLba := by
  rw [holds_iff hwalked hleft]
  constructor
  · rintro ⟨e, he, -, hspecs⟩ hcorrupt
    obtain rfl := (holds_iff hwalked hleft e).mp he
    rw [← hcorrupt] at hspecs
    cases stop with
    | ended =>
        have hbad : Corrupt reader left.nextEbrLba := by
          by_contra hgood
          rw [chainEnd, if_neg hgood] at hcorrupt
          cases hcorrupt
        rw [chainSpecs_of_corrupt firstVolumeIndex hleft hbad,
          List.append_right_inj] at hspecs
        have hlength := congrArg List.length hspecs
        simp [ChainEnd.warnings] at hlength
    | repeated => cases hcorrupt
    | limited => cases hcorrupt
  · intro hvalid
    exact ⟨chainEnd reader left.nextEbrLba stop,
      (holds_iff hwalked hleft _).mpr rfl,
      fun e' he' => (holds_iff hwalked hleft e').mp he',
      chainSpecs_of_valid firstVolumeIndex hleft fun h => hvalid h.symm⟩

end Ends

end Walk

theorem pairwise_ebrRange {reader : Reader} {path : List ℕ} (h : path.Nodup) :
    (path.map (ebrRange reader)).Pairwise fun a b =>
      a.1 + a.2 ≤ b.1 ∨ b.1 + b.2 ≤ a.1 := by
  rw [List.pairwise_map]
  refine h.imp fun {a b} hne => ?_
  have hsector := min_le_left reader.sectorSize 512
  rcases lt_or_gt_of_ne hne with hlt | hgt
  · have := Nat.mul_le_mul_right reader.sectorSize (Nat.succ_le_of_lt hlt)
    rw [Nat.succ_mul] at this
    exact Or.inl (by simp only [ebrRange]; omega)
  · have := Nat.mul_le_mul_right reader.sectorSize (Nat.succ_le_of_lt hgt)
    rw [Nat.succ_mul] at this
    exact Or.inr (by simp only [ebrRange]; omega)

/-- The walk of an extended chain ends without an error after at most as many
EBRs as it may visit.  It reads each of them once and no others: those before
the first that is missing or was visited.  The logical partitions of all of
them are listed.  The end it reports is the one of the links, and the only one,
exactly when it comes to no corrupt EBR. -/
theorem walkChain_end_reported_iff (reader : Reader)
    (baseLba firstVolumeIndex : ℕ) :
    ∃ (path : List ℕ) (left : ChainWalk),
      walkReads reader baseLba maxExtendedChain [] baseLba [] =
        (path.map (ebrRange reader), .ok left) ∧
      walkChain reader baseLba maxExtendedChain [] baseLba [] = .ok left ∧
      path.length ≤ maxExtendedChain ∧
      (path.map (ebrRange reader)).Pairwise (fun a b =>
        a.1 + a.2 ≤ b.1 ∨ b.1 + b.2 ≤ a.1) ∧
      (∀ n lba, path[n]? = some lba ↔ n < maxExtendedChain ∧
        Fresh (ebrLink reader baseLba) baseLba n ∧
          ebrAt reader baseLba n = some lba) ∧
      left.logicals = path.filterMap (ebrLogical reader) ∧
      left.logicals.zipIdx.map (logicalSpec firstVolumeIndex) <+:
        chainSpecs reader firstVolumeIndex left ∧
      (EndReported reader baseLba firstVolumeIndex left ↔
        ¬ ChainEnd.corrupt.Holds reader baseLba) := by
  obtain ⟨left, hreads, hleft⟩ :=
    walkReads_spec reader baseLba maxExtendedChain [] baseLba []
  obtain ⟨hwalked, hpath⟩ :=
    walk_spec (ebrLink reader baseLba) maxExtendedChain baseLba
  revert hreads hleft hwalked hpath
  generalize walk (ebrLink reader baseLba) maxExtendedChain [] baseLba = run
  obtain ⟨path, stop⟩ := run
  intro hreads hleft hwalked hpath
  have hat (n : ℕ) (lba : ℕ) : path[n]? = some lba ↔
      n < maxExtendedChain ∧ Fresh (ebrLink reader baseLba) baseLba n ∧
        ebrAt reader baseLba n = some lba := by
    rw [← and_assoc, ← hwalked.lt_visits_iff n]
    constructor
    · intro h
      have hn : n < path.length := (List.getElem?_eq_some_iff.mp h).1
      exact ⟨hn, (hpath n hn).symm.trans h⟩
    · rintro ⟨hn, h⟩
      exact (hpath n hn).trans h
  have hnodup : path.Nodup := by
    rw [List.nodup_iff_getElem?_ne_getElem?]
    intro i j hij hj heq
    rw [hpath j hj, hpath i (hij.trans hj)] at heq
    exact (hwalked.fresh j hj).2 i j hij le_rfl heq
  have hlogicals : left.logicals = path.filterMap (ebrLogical reader) :=
    hleft.logicals_eq
  refine ⟨path, left, hreads, ?_, hwalked.le_bound, pairwise_ebrRange hnodup,
    hat, hlogicals, ?_, endReported_iff firstVolumeIndex hwalked hleft⟩
  · rw [← walkReads_snd, hreads]
  · by_cases hvalid : chainEnd reader left.nextEbrLba stop = .corrupt
    · cases stop with
      | ended =>
          have hbad : Corrupt reader left.nextEbrLba := by
            by_contra hgood
            rw [chainEnd, if_neg hgood] at hvalid
            cases hvalid
          rw [chainSpecs_of_corrupt firstVolumeIndex hleft hbad]
          exact List.prefix_append _ _
      | repeated => cases hvalid
      | limited => cases hvalid
    · rw [chainSpecs_of_valid firstVolumeIndex hleft hvalid]
      exact List.prefix_append _ _

/-- An image whose extended partition begins behind the end of the image. -/
def missingEbr : Reader :=
  patchedReader [(450, 0x05), (454, 1), (458, 1), (510, 0x55), (511, 0xAA)]
    512 sector_lt

/-- Its one EBR is reported as corrupt and as a cycle. -/
theorem missingEbr_end_not_reported :
    ∃ left, walkChain missingEbr 1 maxExtendedChain [] 1 [] = .ok left ∧
      (chainSpecs missingEbr 0 left).map
          (fun spec => spec.warnings.map (·.code)) =
        [["CORRUPT_EXTENDED_BOOT_RECORD"], ["EXTENDED_CHAIN_CYCLE"]] ∧
      ¬ EndReported missingEbr 1 0 left := by
  refine ⟨⟨[], true, [1], 1, false, false⟩, rfl, by decide +kernel, ?_⟩
  rintro ⟨e, -, -, hspecs⟩
  have hlength := congrArg List.length hspecs
  cases e <;> simp [chainSpecs, ChainEnd.warnings] at hlength

end ApexForensic.Partitions
