import ApexForensic.Registry.CellCarving

/-!
# The limit of a carve

Without a limit the carver returns the candidates of every free cell and every
uncovered place, bin by bin.  A positive limit cuts this list, and nothing in
the report tells that it did.
-/

namespace ApexForensic.Registry

open ApexForensic.Support

variable {n o : ℕ} {state : CarveState}

/-! ## A run that is cut -/

theorem limitReached_none (candidates : List Candidate) :
    limitReached none candidates = false :=
  rfl

theorem limitReached_some {candidates : List Candidate} :
    limitReached (some n) candidates = true ↔ n ≤ candidates.length := by
  simp [limitReached]

/-- A run with a limit against the run without: cut after as many candidates,
or the same run if there are fewer. -/
def CutAfter {α : Type} (n : ℕ) (out : α → List Candidate) (whole limited : α) :
    Prop :=
  if n ≤ (out whole).length then out limited = (out whole).take n
  else limited = whole

section Cut

variable {α : Type} {n : ℕ} {out : α → List Candidate} {whole limited : α}

theorem cutAfter_of_le (h : n ≤ (out whole).length)
    (heq : out limited = (out whole).take n) :
    CutAfter n out whole limited := by
  unfold CutAfter
  rwa [if_pos h]

theorem cutAfter_of_lt (h : (out whole).length < n) (heq : limited = whole) :
    CutAfter n out whole limited := by
  unfold CutAfter
  rwa [if_neg (not_le.mpr h)]

theorem CutAfter.eq (h : CutAfter n out whole limited)
    (hlt : (out whole).length < n) : limited = whole := by
  unfold CutAfter at h
  rwa [if_neg (not_le.mpr hlt)] at h

theorem CutAfter.out_eq (h : CutAfter n out whole limited) :
    out limited = (out whole).take n := by
  by_cases hle : n ≤ (out whole).length
  · unfold CutAfter at h
    rwa [if_pos hle] at h
  · rw [h.eq (not_le.mp hle), List.take_of_length_le (not_le.mp hle).le]

theorem take_of_initial {found candidates : List Candidate}
    (hinitial : found <+: candidates) (h : n ≤ found.length) :
    found.take n = candidates.take n ∧ n ≤ candidates.length := by
  obtain ⟨rest, rfl⟩ := hinitial
  refine ⟨(List.take_append_of_le_length h).symm, ?_⟩
  rw [List.length_append]
  omega

end Cut

section Bin

variable {isPrintable : Char → Bool} {data : List UInt8}
  {maxCandidates : Option ℕ} {hbin : Hbin} {n : ℕ}

/-! ## The cells of a bin -/

/-- A walk behind a cell, its candidate left out. -/
def CellWalk.past (hbin : Hbin) (cell : Cell) (walk : CellWalk) : CellWalk :=
  { walk.cover (cell.offset - hbin.offset) cell.size with
    freeCells :=
      if 0 < cell.rawSize then walk.freeCells + 1 else walk.freeCells }

/-- A walk behind a free cell with its candidate. -/
def CellWalk.take (hbin : Hbin) (cell : Cell) (candidate : Candidate)
    (walk : CellWalk) : CellWalk :=
  { walk.past hbin cell with candidates := walk.candidates ++ [candidate] }

def cellCandidate (isPrintable : Char → Bool) (data : List UInt8) (hbin : Hbin)
    (cell : Cell) : Option Candidate :=
  if 0 < cell.rawSize then
    candidateFromCell isPrintable data hbin.offset cell
  else none

theorem walkCells_of_none {walk : CellWalk} (h : cellAt data hbin.stop o = none)
    : walkCells isPrintable data maxCandidates hbin o walk = walk := by
  rw [walkCells]
  split <;> simp_all

theorem walkCells_of_some {cell : Cell} {walk : CellWalk}
    (h : cellAt data hbin.stop o = some cell) :
    walkCells isPrintable data maxCandidates hbin o walk =
      match cellCandidate isPrintable data hbin cell with
      | none =>
          walkCells isPrintable data maxCandidates hbin cell.stop
            (walk.past hbin cell)
      | some candidate =>
          let next := walk.take hbin cell candidate
          if limitReached maxCandidates next.candidates then
            { next with full := true }
          else
            walkCells isPrintable data maxCandidates hbin cell.stop next := by
  obtain rfl := offset_of_cellAt h
  rw [walkCells]
  split
  · simp_all
  · next found hfound =>
      obtain rfl := Option.some.inj (h.symm.trans hfound)
      unfold cellCandidate CellWalk.take CellWalk.past
      by_cases hfree : 0 < cell.rawSize
      · simp only [hfree, if_true]
        cases candidateFromCell isPrintable data hbin.offset cell <;> rfl
      · simp only [hfree, if_false]
        rfl

theorem walkCells_candidates (o : ℕ) (walk : CellWalk) :
    (walkCells isPrintable data none hbin o walk).candidates =
      walk.candidates ++ (cells data hbin.stop o).filterMap
        (cellCandidate isPrintable data hbin) := by
  induction o using cells_induction generalizing walk with
  | stop o h =>
      rw [walkCells_of_none h, (cells_of_none h).1]
      simp
  | step o cell h ih =>
      rw [walkCells_of_some h, (cells_of_some h).1, List.filterMap_cons]
      cases cellCandidate isPrintable data hbin cell with
      | none => exact ih _
      | some candidate =>
          simp only [limitReached_none, Bool.false_eq_true, if_false]
          rw [ih]
          simp [CellWalk.take, CellWalk.past, CellWalk.cover]

theorem walkCells_full (o : ℕ) (walk : CellWalk) :
    (walkCells isPrintable data none hbin o walk).full = walk.full := by
  induction o using cells_induction generalizing walk with
  | stop o h => rw [walkCells_of_none h]
  | step o cell h ih =>
      rw [walkCells_of_some h]
      cases cellCandidate isPrintable data hbin cell with
      | none => exact ih _
      | some candidate =>
          simp only [limitReached_none, Bool.false_eq_true, if_false]
          exact ih _

theorem walkCells_cutAfter (o : ℕ) (walk : CellWalk)
    (hroom : walk.candidates.length < n) :
    CutAfter n CellWalk.candidates
        (walkCells isPrintable data none hbin o walk)
        (walkCells isPrintable data (some n) hbin o walk) ∧
      (n ≤ (walkCells isPrintable data none hbin o walk).candidates.length →
        (walkCells isPrintable data (some n) hbin o walk).full = true) := by
  induction o using cells_induction generalizing walk with
  | stop o h =>
      rw [walkCells_of_none h, walkCells_of_none h]
      exact ⟨cutAfter_of_lt hroom rfl, fun hle => absurd hroom (not_lt.mpr hle)⟩
  | step o cell h ih =>
      rw [walkCells_of_some h, walkCells_of_some h]
      cases cellCandidate isPrintable data hbin cell with
      | none => exact ih _ hroom
      | some candidate =>
          simp only [limitReached_none, Bool.false_eq_true, if_false]
          set next := walk.take hbin cell candidate with hnext
          have hlength : next.candidates.length =
              walk.candidates.length + 1 := by
            rw [hnext]
            simp [CellWalk.take]
          by_cases hfull : limitReached (some n) next.candidates = true
          · rw [if_pos hfull]
            rw [limitReached_some] at hfull
            have hinitial : next.candidates <+:
                (walkCells isPrintable data none hbin cell.stop
                  next).candidates := by
              rw [walkCells_candidates]
              exact List.prefix_append _ _
            obtain ⟨htake, hle⟩ := take_of_initial hinitial hfull
            rw [List.take_of_length_le (by omega)] at htake
            exact ⟨cutAfter_of_le hle htake, fun _ => rfl⟩
          · rw [if_neg hfull]
            rw [limitReached_some] at hfull
            exact ih next (not_le.mp hfull)

/-! ## The slack of a bin -/

theorem scanSlack_none (covered : ℕ → Bool) (places : List ℕ)
    (found : List Candidate) :
    scanSlack isPrintable data none hbin covered places found =
      found ++ (places.filter fun relative => !covered relative).filterMap
        (candidateFromSlack isPrintable data hbin) := by
  induction places generalizing found with
  | nil => simp [scanSlack]
  | cons relative places ih =>
      rw [scanSlack]
      cases hcovered : covered relative with
      | true =>
          rw [if_pos rfl, ih]
          simp [hcovered]
      | false =>
          simp only [Bool.false_eq_true, if_false]
          cases hcandidate : candidateFromSlack isPrintable data hbin relative
            with
          | none =>
              rw [ih]
              simp [hcovered, hcandidate]
          | some candidate =>
              simp only [limitReached_none, Bool.false_eq_true, if_false]
              rw [ih]
              simp [hcovered, hcandidate]

theorem scanSlack_some (covered : ℕ → Bool) (places : List ℕ)
    (found : List Candidate) (hroom : found.length < n) :
    scanSlack isPrintable data (some n) hbin covered places found =
      (scanSlack isPrintable data none hbin covered places found).take n := by
  induction places generalizing found with
  | nil =>
      rw [scanSlack, scanSlack, List.take_of_length_le hroom.le]
  | cons relative places ih =>
      rw [scanSlack, scanSlack]
      cases covered relative with
      | true => exact ih found hroom
      | false =>
          simp only [Bool.false_eq_true, if_false]
          cases candidateFromSlack isPrintable data hbin relative with
          | none => exact ih found hroom
          | some candidate =>
              simp only [limitReached_none, Bool.false_eq_true, if_false]
              by_cases hfull :
                  limitReached (some n) (found ++ [candidate]) = true
              · rw [if_pos hfull]
                rw [limitReached_some, List.length_append,
                  List.length_singleton] at hfull
                have hinitial : found ++ [candidate] <+:
                    scanSlack isPrintable data none hbin covered places
                      (found ++ [candidate]) := by
                  rw [scanSlack_none]
                  exact List.prefix_append _ _
                have htake := (take_of_initial hinitial (by simpa : n ≤ _)).1
                rwa [List.take_of_length_le (by simpa)] at htake
              · rw [if_neg hfull]
                rw [limitReached_some] at hfull
                exact ih _ (not_le.mp hfull)

/-! ## One bin -/

/-- The walk over the cells of a whole bin. -/
def hbinWalk (isPrintable : Char → Bool) (data : List UInt8)
    (maxCandidates : Option ℕ) (hbin : Hbin) : CellWalk :=
  walkCells isPrintable data maxCandidates hbin (hbin.offset + hbinHeaderSize)
    ⟨[], 0, fun i => i < hbinHeaderSize, false⟩

/-- The result for a bin whose cells the limit has ended. -/
def fullResult (hbin : Hbin) (walk : CellWalk) : HbinResult :=
  ⟨walk.candidates, walk.freeCells, slackCount hbin.size walk.covered⟩

/-- The result for a bin whose cells are all walked. -/
def slackResult (isPrintable : Char → Bool) (data : List UInt8)
    (maxCandidates : Option ℕ) (hbin : Hbin) (walk : CellWalk) : HbinResult :=
  ⟨scanSlack isPrintable data maxCandidates hbin walk.covered
    (slackPlaces hbin.size) walk.candidates, walk.freeCells,
    slackCount hbin.size walk.covered⟩

theorem carveHbin_eq :
    carveHbin isPrintable data maxCandidates hbin =
      if (hbinWalk isPrintable data maxCandidates hbin).full then
        fullResult hbin (hbinWalk isPrintable data maxCandidates hbin)
      else
        slackResult isPrintable data maxCandidates hbin
          (hbinWalk isPrintable data maxCandidates hbin) :=
  rfl

theorem hbinWalk_open : (hbinWalk isPrintable data none hbin).full = false :=
  walkCells_full _ _

theorem carveHbin_none :
    carveHbin isPrintable data none hbin =
      slackResult isPrintable data none hbin
        (hbinWalk isPrintable data none hbin) := by
  rw [carveHbin_eq, hbinWalk_open]
  rfl

theorem prefix_slackResult (walk : CellWalk) :
    walk.candidates <+:
      (slackResult isPrintable data none hbin walk).candidates := by
  unfold slackResult
  rw [scanSlack_none]
  exact List.prefix_append _ _

theorem slackResult_cutAfter (walk : CellWalk)
    (hroom : walk.candidates.length < n) :
    CutAfter n HbinResult.candidates
      (slackResult isPrintable data none hbin walk)
      (slackResult isPrintable data (some n) hbin walk) := by
  have hslack : (slackResult isPrintable data (some n) hbin walk).candidates =
      (slackResult isPrintable data none hbin walk).candidates.take n :=
    scanSlack_some _ _ _ hroom
  by_cases hmany :
      n ≤ (slackResult isPrintable data none hbin walk).candidates.length
  · exact cutAfter_of_le hmany hslack
  · apply cutAfter_of_lt (not_le.mp hmany)
    rw [List.take_of_length_le (not_le.mp hmany).le] at hslack
    unfold slackResult at hslack ⊢
    rw [HbinResult.mk.injEq]
    exact ⟨hslack, rfl, rfl⟩

theorem carveHbin_cutAfter (hn : 0 < n) :
    CutAfter n HbinResult.candidates (carveHbin isPrintable data none hbin)
      (carveHbin isPrintable data (some n) hbin) := by
  obtain ⟨hcut, hfull⟩ : CutAfter n CellWalk.candidates
      (hbinWalk isPrintable data none hbin)
      (hbinWalk isPrintable data (some n) hbin) ∧ _ :=
    walkCells_cutAfter _ _ hn
  rw [carveHbin_none, carveHbin_eq]
  by_cases hle :
      n ≤ (hbinWalk isPrintable data none hbin).candidates.length
  · have hinitial : (hbinWalk isPrintable data none hbin).candidates <+:
        (slackResult isPrintable data none hbin
          (hbinWalk isPrintable data none hbin)).candidates :=
      prefix_slackResult _
    apply cutAfter_of_le (hle.trans hinitial.length_le)
    have hstop : (hbinWalk isPrintable data (some n) hbin).full = true :=
      hfull hle
    rw [if_pos hstop]
    exact hcut.out_eq.trans (take_of_initial hinitial hle).1
  · rw [hcut.eq (not_le.mp hle), hbinWalk_open]
    exact slackResult_cutAfter _ (not_le.mp hle)

/-! ## The bins -/

/-- The loop variables behind a bin. -/
def CarveState.past (result : HbinResult) (state : CarveState) : CarveState :=
  { state with
    candidates := state.candidates ++ result.candidates
    hbinCount := state.hbinCount + 1
    freeCellCount := state.freeCellCount + result.freeCells
    slackBytes := state.slackBytes + result.slack }

theorem carveHbins_of_missing (h : headerAt data o = .missing) :
    carveHbins isPrintable maxCandidates data o state = state := by
  rw [carveHbins]
  split <;> simp_all

theorem carveHbins_of_skipped {nextHbin : ℕ}
    (h : headerAt data o = .skipped nextHbin) :
    carveHbins isPrintable maxCandidates data o state =
      carveHbins isPrintable maxCandidates data nextHbin
        { state with warnings :=
            state.warnings ++ [alignmentRecovered o nextHbin] } := by
  rw [carveHbins]
  split <;> simp_all

theorem carveHbins_of_sizeInvalid {declared : Option ℕ}
    (h : headerAt data o = .sizeInvalid declared) :
    carveHbins isPrintable maxCandidates data o state =
      { state with warnings :=
          state.warnings ++ [hbinSizeInvalid o declared] } := by
  rw [carveHbins]
  split <;> simp_all

theorem carveHbins_of_hbin {size : ℕ} (h : headerAt data o = .hbin size) :
    carveHbins isPrintable maxCandidates data o state =
      let next := state.past (carveHbin isPrintable data
        (maxCandidates.map fun n => n - state.candidates.length) ⟨o, size⟩)
      if limitReached maxCandidates next.candidates then next
      else carveHbins isPrintable maxCandidates data (o + size) next := by
  rw [carveHbins]
  split
  · simp_all
  · simp_all
  · simp_all
  · next found hfound =>
      obtain rfl := Header.hbin.inj (h.symm.trans hfound)
      rfl

theorem carveHbins_candidates (o : ℕ) (state : CarveState) :
    (carveHbins isPrintable none data o state).candidates =
      state.candidates ++ (hbins data o).flatMap fun hbin =>
        (carveHbin isPrintable data none hbin).candidates := by
  induction o using hbins_induction generalizing state with
  | missing o h =>
      rw [carveHbins_of_missing h, hbins_of_missing h]
      simp
  | skipped o nextHbin h ih =>
      rw [carveHbins_of_skipped h, hbins_of_skipped h, ih]
  | sizeInvalid o declared h =>
      rw [carveHbins_of_sizeInvalid h, hbins_of_sizeInvalid h]
      simp
  | hbin o size h ih =>
      rw [carveHbins_of_hbin h, hbins_of_hbin h]
      simp only [limitReached_none, Bool.false_eq_true, if_false]
      rw [ih]
      simp [CarveState.past]

theorem warnings_prefix_carveHbins (o : ℕ) (state : CarveState) :
    state.warnings <+:
      (carveHbins isPrintable none data o state).warnings := by
  induction o using hbins_induction generalizing state with
  | missing o h =>
      exact ⟨[], by
        rw [List.append_nil, carveHbins_of_missing h]⟩
  | skipped o nextHbin h ih =>
      rw [carveHbins_of_skipped h]
      refine List.IsPrefix.trans ?_ (ih _)
      exact List.prefix_append _ _
  | sizeInvalid o declared h =>
      rw [carveHbins_of_sizeInvalid h]
      exact List.prefix_append _ _
  | hbin o size h ih =>
      rw [carveHbins_of_hbin h]
      simp only [limitReached_none, Bool.false_eq_true, if_false]
      exact ih (state.past _)

theorem carveHbins_cutAfter (o : ℕ) (state : CarveState)
    (hroom : state.candidates.length < n) :
    CutAfter n CarveState.candidates
        (carveHbins isPrintable none data o state)
        (carveHbins isPrintable (some n) data o state) ∧
      (carveHbins isPrintable (some n) data o state).warnings <+:
        (carveHbins isPrintable none data o state).warnings := by
  induction o using hbins_induction generalizing state with
  | missing o h =>
      rw [carveHbins_of_missing h, carveHbins_of_missing h]
      exact ⟨cutAfter_of_lt hroom rfl, List.prefix_rfl⟩
  | skipped o nextHbin h ih =>
      rw [carveHbins_of_skipped h, carveHbins_of_skipped h]
      exact ih _ hroom
  | sizeInvalid o declared h =>
      rw [carveHbins_of_sizeInvalid h, carveHbins_of_sizeInvalid h]
      exact ⟨cutAfter_of_lt hroom rfl, List.prefix_rfl⟩
  | hbin o size h ih =>
      rw [carveHbins_of_hbin h, carveHbins_of_hbin h]
      simp only [limitReached_none, Bool.false_eq_true, if_false,
        Option.map_none, Option.map_some]
      set left := n - state.candidates.length with hleft
      have hcut : CutAfter left HbinResult.candidates
          (carveHbin isPrintable data none ⟨o, size⟩)
          (carveHbin isPrintable data (some left) ⟨o, size⟩) :=
        carveHbin_cutAfter (by omega)
      set whole := carveHbin isPrintable data none ⟨o, size⟩
      have hlength : (state.past whole).candidates.length =
          state.candidates.length + whole.candidates.length :=
        List.length_append
      by_cases hle : left ≤ whole.candidates.length
      · set limited := carveHbin isPrintable data (some left) ⟨o, size⟩
        have htake : (state.past limited).candidates =
            (state.past whole).candidates.take n := by
          calc (state.past limited).candidates
            _ = state.candidates ++ limited.candidates := rfl
            _ = state.candidates.take n ++ whole.candidates.take left := by
                rw [hcut.out_eq, List.take_of_length_le hroom.le]
            _ = (state.past whole).candidates.take n :=
                List.take_append.symm
        have hmany : n ≤ (state.past whole).candidates.length := by omega
        have hfull : limitReached (some n) (state.past limited).candidates =
            true := by
          rw [limitReached_some, htake, List.length_take]
          omega
        rw [if_pos hfull]
        have hinitial : (state.past whole).candidates <+:
            (carveHbins isPrintable none data (o + size)
              (state.past whole)).candidates := by
          rw [carveHbins_candidates]
          exact List.prefix_append _ _
        constructor
        · apply cutAfter_of_le (hmany.trans hinitial.length_le)
          exact htake.trans (take_of_initial hinitial hmany).1
        · exact warnings_prefix_carveHbins (o + size) (state.past whole)
      · rw [hcut.eq (not_le.mp hle), if_neg]
        · exact ih _ (by omega)
        · rw [limitReached_some]
          omega

/-! ## A limit of zero

The limit is looked at behind a candidate only, so in a bin zero is as good as
one. -/

theorem limitReached_zero (found : List Candidate) (candidate : Candidate) :
    limitReached (some 0) (found ++ [candidate]) =
      limitReached (some 1) (found ++ [candidate]) := by
  simp [limitReached]

theorem walkCells_zero (o : ℕ) (walk : CellWalk) :
    walkCells isPrintable data (some 0) hbin o walk =
      walkCells isPrintable data (some 1) hbin o walk := by
  induction o using cells_induction generalizing walk with
  | stop o h => rw [walkCells_of_none h, walkCells_of_none h]
  | step o cell h ih =>
      rw [walkCells_of_some h, walkCells_of_some h]
      cases cellCandidate isPrintable data hbin cell with
      | none => exact ih _
      | some candidate =>
          simp only [CellWalk.take, limitReached_zero, ih]
          rfl

theorem scanSlack_zero (covered : ℕ → Bool) (places : List ℕ)
    (found : List Candidate) :
    scanSlack isPrintable data (some 0) hbin covered places found =
      scanSlack isPrintable data (some 1) hbin covered places found := by
  induction places generalizing found with
  | nil => rfl
  | cons relative places ih =>
      rw [scanSlack, scanSlack]
      simp only [limitReached_zero, ih]

theorem carveHbin_zero :
    carveHbin isPrintable data (some 0) hbin =
      carveHbin isPrintable data (some 1) hbin := by
  simp only [carveHbin_eq, slackResult, hbinWalk, walkCells_zero,
    scanSlack_zero]
  rfl

theorem carveHbins_prefix (o : ℕ) (state : CarveState) :
    (carveHbins isPrintable (some 0) data o state).candidates <+:
      (carveHbins isPrintable none data o state).candidates := by
  induction o using hbins_induction generalizing state with
  | missing o h =>
      exact ⟨[], by
        rw [List.append_nil, carveHbins_of_missing h, carveHbins_of_missing h]⟩
  | skipped o nextHbin h ih =>
      rw [carveHbins_of_skipped h, carveHbins_of_skipped h]
      exact ih _
  | sizeInvalid o declared h =>
      exact ⟨[], by
        rw [List.append_nil, carveHbins_of_sizeInvalid h, carveHbins_of_sizeInvalid h]⟩
  | hbin o size h ih =>
      rw [carveHbins_of_hbin h, carveHbins_candidates, hbins_of_hbin h,
        List.flatMap_cons, ← List.append_assoc]
      refine List.IsPrefix.trans ?_ (List.prefix_append _ _)
      simp only [limitReached, Option.any_some, Nat.zero_le, decide_true,
        if_true, Option.map_some, Nat.zero_sub]
      unfold CarveState.past
      rw [carveHbin_zero, List.prefix_append_right_inj,
        (carveHbin_cutAfter Nat.one_pos).out_eq]
      exact List.take_prefix _ _

end Bin

/-! ## The report -/

section Report

variable {isPrintable : Char → Bool} {data : List UInt8}

theorem carve_of_supported (maxCandidates : Option ℕ) (h : Supported data) :
    carve isPrintable maxCandidates (.ok data) =
      hiveReport data
        (carveHbins isPrintable maxCandidates data hiveHeaderSize {}) :=
  if_pos h

theorem carve_of_unsupported (maxCandidates : Option ℕ) (h : ¬ Supported data) :
    carve isPrintable maxCandidates (.ok data) = unsupportedReport data :=
  if_neg h

theorem hiveReport_candidates (state : CarveState) :
    (hiveReport data state).candidates = state.candidates :=
  rfl

end Report

/-- A report cut after `n` candidates.  It has the status and the coverage
keys of the whole report and no warning of its own, so that it does not tell
that it is cut. -/
structure CutReport (n : ℕ) (whole limited : CarvingReport) : Prop where
  candidates : limited.candidates = whole.candidates.take n
  status : limited.status = whole.status
  warnings : limited.warnings <+: whole.warnings
  coverage : limited.coverage.map Prod.fst = whole.coverage.map Prod.fst
  same : whole.candidates.length < n → limited = whole

theorem cutReport_self {report : CarvingReport} (h : report.candidates = []) :
    CutReport n report report where
  candidates := by rw [h, List.take_nil]
  status := rfl
  warnings := List.prefix_rfl
  coverage := rfl
  same _ := rfl

theorem cutReport_hiveReport {data : List UInt8} (hn : 0 < n)
    {whole limited : CarveState}
    (hcut : CutAfter n CarveState.candidates whole limited)
    (hwarnings : limited.warnings <+: whole.warnings) :
    CutReport n (hiveReport data whole) (hiveReport data limited) where
  candidates := hcut.out_eq
  status := by
    unfold hiveReport
    rw [hcut.out_eq]
    simp [List.take_eq_nil_iff, hn.ne']
  warnings := hwarnings
  coverage := rfl
  same hlt := by rw [hcut.eq hlt]

/-- A positive limit cuts the report of the carver, whatever it is given as a
hive. -/
theorem carve_limit_takes_first (isPrintable : Char → Bool)
    (hive : Except String (List UInt8)) {n : ℕ} (hn : 0 < n) :
    CutReport n (carve isPrintable none hive)
      (carve isPrintable (some n) hive) := by
  cases hive with
  | error errorType => exact cutReport_self rfl
  | ok data =>
      by_cases hsupported : Supported data
      · rw [carve_of_supported none hsupported,
          carve_of_supported (some n) hsupported]
        apply cutReport_hiveReport hn
        · exact (carveHbins_cutAfter hiveHeaderSize {} hn).1
        · exact (carveHbins_cutAfter hiveHeaderSize {} hn).2
      · rw [carve_of_unsupported none hsupported,
          carve_of_unsupported (some n) hsupported]
        exact cutReport_self rfl

theorem carve_candidates_prefix (isPrintable : Char → Bool)
    (maxCandidates : Option ℕ) (data : List UInt8) :
    (carve isPrintable maxCandidates (.ok data)).candidates <+:
      (carve isPrintable none (.ok data)).candidates := by
  by_cases hsupported : Supported data
  · rw [carve_of_supported none hsupported,
      carve_of_supported maxCandidates hsupported, hiveReport_candidates,
      hiveReport_candidates]
    rcases maxCandidates with _ | n
    · exact List.prefix_rfl
    · rcases n.eq_zero_or_pos with rfl | hn
      · exact carveHbins_prefix hiveHeaderSize {}
      · rw [(carveHbins_cutAfter hiveHeaderSize {} hn).1.out_eq]
        exact List.take_prefix n _
  · exact ⟨[], by
      rw [List.append_nil, carve_of_unsupported none hsupported,
        carve_of_unsupported maxCandidates hsupported]⟩

/-! ## A hive with one candidate -/

/-- A header before one bin. -/
def hiveOf (hbin : List UInt8) : List UInt8 :=
  regfSignature ++ List.replicate 4092 0 ++ hbin

/-- A bin whose only cell is free and holds a security record. -/
def securityHbin : List UInt8 :=
  hbinSignature ++ [0, 0, 0, 0, 48, 0, 0, 0] ++ List.replicate 20 0 ++
    [16, 0, 0, 0, 0x73, 0x6B, 0, 0, 0, 0, 0, 0, 0, 0, 0, 0]

theorem supported_hiveOf (hbin : List UInt8) : Supported (hiveOf hbin) := by
  constructor
  · rw [hiveOf, List.length_append, List.length_append, List.length_replicate]
    exact Nat.le_add_right 4096 _
  · rfl

theorem carve_limit_takes_first_one :
    CutReport 1 (carve (fun _ => true) none (.ok (hiveOf securityHbin)))
      (carve (fun _ => true) (some 1) (.ok (hiveOf securityHbin))) :=
  carve_limit_takes_first _ _ Nat.one_pos

theorem headerAt_securityHbin :
    headerAt (hiveOf securityHbin) hiveHeaderSize = .hbin 48 := by
  rw [headerAt_hbin_iff]
  decide +kernel

theorem cellAt_securityHbin :
    cellAt (hiveOf securityHbin) (Hbin.stop ⟨hiveHeaderSize, 48⟩)
      (hiveHeaderSize + hbinHeaderSize) =
      some ⟨hiveHeaderSize + hbinHeaderSize, 16⟩ := by
  decide +kernel

theorem cellCandidate_securityHbin :
    (cellCandidate (fun _ => true) (hiveOf securityHbin)
      ⟨hiveHeaderSize, 48⟩ ⟨hiveHeaderSize + hbinHeaderSize, 16⟩).isSome := by
  decide +kernel

/-- With a limit of zero the carver returns a candidate. -/
theorem zero_limit_not_prefix :
    (carve (fun _ => true) (some 0) (.ok (hiveOf securityHbin))).candidates ≠
      (carve (fun _ => true) none
        (.ok (hiveOf securityHbin))).candidates.take 0 := by
  obtain ⟨candidate, hcandidate⟩ :=
    Option.isSome_iff_exists.mp cellCandidate_securityHbin
  rw [carve_of_supported (some 0) (supported_hiveOf _), List.take_zero]
  unfold hiveReport
  rw [carveHbins_of_hbin headerAt_securityHbin]
  simp only [limitReached, Option.any_some, Nat.zero_le, decide_true, if_true]
  have hwalk : (carveHbin (fun _ => true) (hiveOf securityHbin) (some 0)
      ⟨hiveHeaderSize, 48⟩).candidates = [candidate] := by
    rw [carveHbin_eq, hbinWalk, walkCells_of_some cellAt_securityHbin,
      hcandidate]
    rfl
  simp [CarveState.past, hwalk]

end ApexForensic.Registry
