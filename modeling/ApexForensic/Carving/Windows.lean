import ApexForensic.Carving.Resume

/-!
# Windows of any length

The windows of a range are as long as the reads that fill them, and a read may
come back short.  What the loop over windows examines is decided by the bytes
of the range alone: its marks, in order, each of them once.  What is done with
a hit, and what ends the loop early, are parameters of the loop.
-/

namespace ApexForensic.Carving

open ApexForensic.Domain
open ApexForensic.Partitions (Reader maxEvidenceReadSize)

/-! ## Reads that come back short -/

/-- Reads of an image.  The n-th read may raise or come back short, but what
comes back are bytes of the image. -/
structure Source (content : ℕ → UInt8) where
  readAt (n offset length : ℕ) : Except PyError (List UInt8)
  bytes_of_ok : ∀ {n offset length data}, readAt n offset length = .ok data →
    ∃ k ≤ length, data = bytesAt content offset k

theorem Source.length_le {content : ℕ → UInt8} (source : Source content)
    {n offset length : ℕ} {data : List UInt8}
    (h : source.readAt n offset length = .ok data) :
    data.length ≤ length := by
  obtain ⟨k, hk, rfl⟩ := source.bytes_of_ok h
  rwa [length_bytesAt]

theorem Source.eq_bytesAt {content : ℕ → UInt8} (source : Source content)
    {n offset length : ℕ} {data : List UInt8}
    (h : source.readAt n offset length = .ok data) :
    data = bytesAt content offset data.length := by
  obtain ⟨k, -, rfl⟩ := source.bytes_of_ok h
  rw [length_bytesAt]

/-- A reader whose reads are cut at the end of the image only. -/
def Source.ofReader (reader : Reader) : Source reader.content where
  readAt _ offset length := reader.readAt offset length
  bytes_of_ok := by
    intro _ offset length data h
    unfold Reader.readAt at h
    split_ifs at h
    · exact ⟨0, Nat.zero_le _, (Except.ok.inj h).symm⟩
    · refine ⟨min length (reader.size - offset), min_le_left _ _, ?_⟩
      rw [← Except.ok.inj h, bytesAt, List.range'_eq_map_range, List.map_map]
      rfl

/-! ## The loop over windows -/

/-- What ends a scan early. -/
inductive Halt where
  | stopped
  | raised (error : PyError)

/-- What a turn over a hit comes to: the scan halts before the hit is
examined, or the hit is examined and the scan goes on or halts. -/
inductive Turn where
  | refused (halt : Halt)
  | examined (halt : Option Halt)

/-- What a scan does besides looking for hits. -/
structure Body (σ : Type) where
  /-- The checks before a window is read at a cursor. -/
  enter (cursor : ℕ) (s : σ) : σ × Option Halt
  /-- How many bytes a window may have. -/
  quota (s : σ) : ℕ
  visit (hit : Hit) (s : σ) : σ × Turn
  advance (length : ℕ) (s : σ) : σ

/-- A scan with the hits it has examined. -/
structure Visit (σ : Type) where
  state : σ
  examined : List Hit
  halt : Option Halt

section Windows

variable {σ : Type}

/-- The loop over the hits of a window. -/
def visitHits (body : Body σ) : List Hit → σ → Visit σ
  | [], s => ⟨s, [], none⟩
  | hit :: hits, s =>
      match body.visit hit s with
      | (s, .refused halt) => ⟨s, [], some halt⟩
      | (s, .examined (some halt)) => ⟨s, [hit], some halt⟩
      | (s, .examined none) =>
          let rest := visitHits body hits s
          { rest with examined := hit :: rest.examined }

/-- The loop over the windows of a range; `n` reads were made before. -/
def scanWindows (job : Job) (source : Source job.reader.content)
    (body : Body σ) (rangeEnd n cursor : ℕ) (tail : List UInt8) (s : σ) :
    Visit σ :=
  if cursor < rangeEnd then
    match body.enter cursor s with
    | (s, some halt) => ⟨s, [], some halt⟩
    | (s, none) =>
        match source.readAt n cursor
            (min (body.quota s) (rangeEnd - cursor)) with
        | .error error => ⟨s, [], some (.raised error)⟩
        | .ok data =>
            if data = [] then
              ⟨s, [], some (.raised (validationError
                "Image changed during carving." none []))⟩
            else
              let window := tail ++ data
              let visit := visitHits body (windowHits job.formats window
                (cursor - tail.length) cursor) s
              match visit.halt with
              | some (.raised _) => visit
              | some .stopped => { visit with
                  state := body.advance data.length visit.state }
              | none =>
                  let rest := scanWindows job source body rangeEnd (n + 1)
                    (cursor + data.length)
                    (window.drop (window.length - 16))
                    (body.advance data.length visit.state)
                  { rest with examined := visit.examined ++ rest.examined }
  else ⟨s, [], none⟩
termination_by rangeEnd - cursor
decreasing_by
  have : 0 < data.length := List.length_pos_iff.mpr ‹_›
  omega

/-- The hits examined are the first of the hits of a window, and all of them
unless the scan halts. -/
theorem visitHits_examined (body : Body σ) (hits : List Hit) (s : σ) :
    (visitHits body hits s).examined <+: hits ∧
      ((visitHits body hits s).halt = none →
        (visitHits body hits s).examined = hits) := by
  induction hits generalizing s with
  | nil => exact ⟨List.prefix_rfl, fun _ => rfl⟩
  | cons hit hits ih =>
      rw [visitHits]
      rcases body.visit hit s with ⟨s', halt | (halt | _)⟩
      · exact ⟨List.nil_prefix, nofun⟩
      · obtain ⟨hinitial, heq⟩ := ih s'
        exact ⟨List.cons_prefix_cons.mpr ⟨rfl, hinitial⟩,
          fun h => congrArg (hit :: ·) (heq h)⟩
      · exact ⟨List.cons_prefix_cons.mpr ⟨rfl, List.nil_prefix⟩, nofun⟩

/-- From a cursor on, with the tail of the bytes before it, the marks of the
range that end behind the cursor are examined. -/
theorem scanWindows_examined {job : Job}
    (source : Source job.reader.content) (body : Body σ) {low rangeEnd : ℕ}
    (n : ℕ) {cursor : ℕ} (s : σ) (hlow : low ≤ cursor)
    (hend : cursor ≤ rangeEnd) :
    marks job low cursor ++ (scanWindows job source body rangeEnd n cursor
        (tailAt job low cursor) s).examined <+: marks job low rangeEnd ∧
      ((scanWindows job source body rangeEnd n cursor
          (tailAt job low cursor) s).halt = none →
        marks job low cursor ++ (scanWindows job source body rangeEnd n cursor
          (tailAt job low cursor) s).examined = marks job low rangeEnd) := by
  induction hleft : rangeEnd - cursor using Nat.strong_induction_on
    generalizing n cursor s with
  | _ left ih =>
    subst hleft
    have hbefore : marks job low cursor ++ [] <+: marks job low rangeEnd := by
      rw [List.append_nil]
      exact marks_isPrefix job hlow hend
    rw [scanWindows]
    by_cases hlt : cursor < rangeEnd
    · rw [if_pos hlt]
      rcases body.enter cursor s with ⟨s', _ | halt⟩
      · dsimp only
        rcases hread : source.readAt n cursor
            (min (body.quota s') (rangeEnd - cursor)) with error | data
        · exact ⟨hbefore, by simp⟩
        · have hlength : cursor + data.length ≤ rangeEnd := by
            have := source.length_le hread
            omega
          have hdata := source.eq_bytesAt hread
          dsimp only
          by_cases hempty : data = []
          · rw [if_pos hempty]
            exact ⟨hbefore, by simp⟩
          · have hpos : 0 < data.length := List.length_pos_iff.mpr hempty
            obtain ⟨hinitial, hall⟩ := visitHits_examined body
              (nextHits job low cursor data.length) s'
            have hmarks := marks_nextHits job hlow data.length
            have hwindow : marks job low cursor ++ (visitHits body
                (nextHits job low cursor data.length) s').examined <+:
                marks job low rangeEnd := by
              refine List.IsPrefix.trans ?_
                (marks_isPrefix job (hlow.trans (Nat.le_add_right _ _))
                  hlength)
              rw [hmarks]
              exact (List.prefix_append_right_inj _).mpr hinitial
            have hhits : windowHits job.formats
                (tailAt job low cursor ++ data)
                (cursor - (tailAt job low cursor).length) cursor =
                nextHits job low cursor data.length := by
              rw [nextHits, ← hdata]
            have htail : (tailAt job low cursor ++ data).drop
                ((tailAt job low cursor ++ data).length - 16) =
                tailAt job low (cursor + data.length) := by
              rw [← drop_tail hlow, ← hdata]
            simp only [if_neg hempty, hhits, htail]
            rcases hhalt : (visitHits body
                (nextHits job low cursor data.length) s').halt with
              _ | (_ | error)
            · obtain ⟨hrest, hdone⟩ := ih _ (by omega) (n + 1)
                (body.advance data.length (visitHits body
                  (nextHits job low cursor data.length) s').state)
                (hlow.trans (Nat.le_add_right _ _)) hlength rfl
              rw [hmarks, List.append_assoc] at hrest hdone
              simp only [hall hhalt]
              exact ⟨hrest, hdone⟩
            · exact ⟨hwindow, by simp⟩
            · refine ⟨hwindow, fun h => ?_⟩
              rw [hhalt] at h
              cases h
      · exact ⟨hbefore, by simp⟩
    · rw [if_neg hlt, List.append_nil]
      obtain rfl : cursor = rangeEnd := by omega
      exact ⟨List.prefix_rfl, fun _ => rfl⟩

theorem marks_nodup (job : Job) (low high : ℕ) :
    (marks job low high).Nodup :=
  (marks_pairwise job low high).imp fun h heq => h.ne (congrArg _ heq)

/-- However the source splits the bytes of a range into reads, a scan of the
range that is not halted examines each occurrence of a signature that lies in
the range exactly once and nothing else, and a halted one examines the first
of these. -/
theorem scanWindows_examines_each_mark_once (job : Job)
    (source : Source job.reader.content) (body : Body σ)
    (low rangeEnd n : ℕ) (s : σ) :
    let visit := scanWindows job source body rangeEnd n low [] s
    (∀ hit, visit.examined.count hit ≤ 1) ∧
      (∀ hit ∈ visit.examined, IsMark job hit ∧ low ≤ hit.offset ∧
        hit.endOffset ≤ rangeEnd) ∧
      visit.examined.Pairwise (fun a b => a.offset < b.offset) ∧
      (∀ hit ∈ visit.examined, ∀ earlier, IsMark job earlier →
        low ≤ earlier.offset → earlier.offset < hit.offset →
        earlier ∈ visit.examined) ∧
      (visit.halt = none → ∀ hit, IsMark job hit → low ≤ hit.offset →
        hit.endOffset ≤ rangeEnd → visit.examined.count hit = 1) := by
  intro visit
  obtain ⟨hinitial, hall⟩ : visit.examined <+: marks job low rangeEnd ∧
      (visit.halt = none → visit.examined = marks job low rangeEnd) := by
    rcases le_or_gt low rangeEnd with hle | hgt
    · have hscan := scanWindows_examined source body n s le_rfl hle
      rw [marks_of_le le_rfl, tailAt_self] at hscan
      exact hscan
    · have hnone : visit = ⟨s, [], none⟩ := by
        simp only [visit]
        rw [scanWindows, if_neg (by omega)]
      rw [hnone, marks_of_le hgt.le]
      exact ⟨List.prefix_rfl, fun _ => rfl⟩
  have hnodup := (marks_nodup job low rangeEnd).sublist hinitial.sublist
  have hpairwise := (marks_pairwise job low rangeEnd).sublist hinitial.sublist
  refine ⟨List.nodup_iff_count_le_one.mp hnodup,
    fun hit hhit => mem_marks.mp (hinitial.subset hhit), hpairwise, ?_, ?_⟩
  · intro hit hhit earlier hmark hlow hlt
    obtain ⟨rest, hrest⟩ := hinitial
    have hmem : earlier ∈ marks job low rangeEnd := by
      obtain ⟨hmark', -, hhigh⟩ := mem_marks.mp
        (hrest ▸ List.mem_append_left rest hhit)
      have := hmark.end_lt hmark' hlt
      exact mem_marks.mpr ⟨hmark, hlow, by omega⟩
    rw [← hrest] at hmem
    rcases List.mem_append.mp hmem with hin | hout
    · exact hin
    · have hsplit := marks_pairwise job low rangeEnd
      rw [← hrest] at hsplit
      have := (List.pairwise_append.mp hsplit).2.2 hit hhit earlier hout
      omega
  · intro hhalt hit hmark hlow hhigh
    rw [hall hhalt]
    exact List.count_eq_one_of_mem (marks_nodup job low rangeEnd)
      (mem_marks.mpr ⟨hmark, hlow, hhigh⟩)

end Windows

/-! ## The windows of `carve` -/

section Carve

variable (platform : Platform) (job : Job) (limits : Option Limits)

/-- What `carve` does in a range. -/
def carveBody (rangeStart rangeEnd : ℕ) : Body Scan where
  enter cursor scan :=
    if remaining limits scan.scannedBytes = some 0 then
      ({ scan with stop := some (.scanBudget rangeStart rangeEnd cursor) },
        some .stopped)
    else (scan, none)
  quota scan :=
    ((remaining limits scan.scannedBytes).map (min chunk)).getD chunk
  visit hit scan :=
    if probeBudgetReached job limits scan.candidateReadBytes then
      ({ scan with
        stop := some (.probeBudget hit.offset)
        warnings := scan.warnings ++ ["CANDIDATE_READ_BUDGET_REACHED"] },
        .refused .stopped)
    else
      match probe platform job hit.kind hit.offset
          (min job.maxFileBytes (rangeEnd - hit.offset)) [] with
      | .error error => (scan, .examined (some (.raised error)))
      | .ok (data, none) => (scan.skip data.length, .examined none)
      | .ok (data, some size) =>
          if ∃ c ∈ scan.candidates,
              c.offset = hit.offset ∧ c.format = hit.kind then
            (scan, .examined (some (.raised (stateConflictError
              "Derived output already exists; overwrite is disabled."
              (some "output_root")))))
          else
            let scan := scan.report data.length
              (candidate platform hit data size)
            if resultsReached limits scan.candidates then
              ({ scan with stop := some (.results hit.offset) },
                .examined (some .stopped))
            else (scan, .examined none)
  advance length scan := scan.advance length

/-- The scan a visit ends with, unless it raised. -/
def Visit.result {σ : Type} (visit : Visit σ) : Except PyError σ :=
  match visit.halt with
  | some (.raised error) => .error error
  | _ => .ok visit.state

variable {platform job limits} {rangeStart rangeEnd : ℕ}

/-- The scan a visit leaves says whether it was stopped. -/
def Visit.Marked (visit : Visit Scan) : Prop :=
  match visit.halt with
  | none => visit.state.stop = none
  | some .stopped => visit.state.stop.isSome
  | some (.raised _) => True

variable (platform job limits rangeStart rangeEnd) in
theorem scanHits_eq_visitHits (hits : List Hit) {scan : Scan}
    (hstop : scan.stop = none) :
    scanHits platform job limits rangeEnd hits scan =
        (visitHits (carveBody platform job limits rangeStart rangeEnd)
          hits scan).result ∧
      (visitHits (carveBody platform job limits rangeStart rangeEnd)
        hits scan).Marked := by
  induction hits generalizing scan with
  | nil => exact ⟨rfl, hstop⟩
  | cons hit hits ih =>
      rw [scanHits, visitHits]
      by_cases hbudget : probeBudgetReached job limits scan.candidateReadBytes
      · simp only [carveBody, if_pos hbudget]
        exact ⟨rfl, rfl⟩
      · simp only [carveBody, if_neg hbudget]
        rcases probe platform job hit.kind hit.offset
            (min job.maxFileBytes (rangeEnd - hit.offset)) [] with
          error | ⟨data, _ | size⟩
        · exact ⟨rfl, trivial⟩
        · have hskip : (scan.skip data.length).stop = none := hstop
          exact ih hskip
        · simp only [bind, Except.bind]
          by_cases hexists : ∃ c ∈ scan.candidates,
              c.offset = hit.offset ∧ c.format = hit.kind
          · simp only [if_pos hexists]
            exact ⟨rfl, trivial⟩
          · simp only [if_neg hexists]
            by_cases hresults : resultsReached limits (scan.report data.length
                (candidate platform hit data size)).candidates
            · simp only [if_pos hresults]
              exact ⟨rfl, rfl⟩
            · simp only [if_neg hresults]
              have hreport : (scan.report data.length
                  (candidate platform hit data size)).stop = none := hstop
              exact ih hreport

theorem windowLength_eq (scannedBytes left : ℕ) :
    windowLength limits scannedBytes left =
      min (((remaining limits scannedBytes).map (min chunk)).getD chunk)
        left := by
  unfold windowLength
  cases remaining limits scannedBytes <;> rfl

/-- `carve` scans a range as the loop over windows does. -/
theorem scanRange_eq_scanWindows (n : ℕ) {cursor : ℕ} {tail : List UInt8}
    {scan : Scan} (hstop : scan.stop = none) :
    scanRange platform job limits rangeStart rangeEnd cursor tail scan =
      (scanWindows job (Source.ofReader job.reader)
        (carveBody platform job limits rangeStart rangeEnd)
        rangeEnd n cursor tail scan).result := by
  induction hleft : rangeEnd - cursor using Nat.strong_induction_on
    generalizing n cursor tail scan with
  | _ left ih =>
    subst hleft
    rw [scanRange, scanWindows]
    by_cases hlt : cursor < rangeEnd
    · rw [if_pos hlt, if_pos hlt]
      by_cases hremaining : remaining limits scan.scannedBytes = some 0
      · simp only [carveBody, if_pos hremaining]
        rfl
      · have henter : (carveBody platform job limits rangeStart
            rangeEnd).enter cursor scan = (scan, none) := by
          simp only [carveBody, if_neg hremaining]
        have hquota : min ((carveBody platform job limits rangeStart
            rangeEnd).quota scan) (rangeEnd - cursor) =
            windowLength limits scan.scannedBytes (rangeEnd - cursor) :=
          (windowLength_eq _ _).symm
        have hsource (length : ℕ) : (Source.ofReader job.reader).readAt n
            cursor length = job.reader.readAt cursor length := rfl
        rw [if_neg hremaining, henter]
        dsimp only
        rw [hquota, hsource]
        rcases hread : job.reader.readAt cursor (windowLength limits
            scan.scannedBytes (rangeEnd - cursor)) with error | data
        · rfl
        · by_cases hempty : data = []
          · simp only [bind, Except.bind, if_pos hempty]
            rfl
          · have hpos : 0 < data.length := List.length_pos_iff.mpr hempty
            obtain ⟨hhits, hmarked⟩ := scanHits_eq_visitHits platform job
              limits rangeStart rangeEnd (windowHits job.formats (tail ++ data)
                (cursor - tail.length) cursor) hstop
            simp only [bind, Except.bind, if_neg hempty, hhits]
            revert hmarked
            generalize visitHits _ _ scan = visit
            obtain ⟨scan', examined, _ | (_ | error)⟩ := visit
            · intro hnone
              have hnone : (scan'.advance data.length).stop = none := hnone
              have hrest : scanRange platform job limits rangeStart rangeEnd
                  (cursor + data.length)
                  ((tail ++ data).drop ((tail ++ data).length - 16))
                  (scan'.advance data.length) = _ :=
                ih _ (by omega) (n + 1) hnone rfl
              simp only [Visit.result, hnone]
              exact hrest
            · intro hsome
              have hsome : scan'.stop.isSome := hsome
              simp only [Visit.result, Scan.advance, hsome, if_true]
              rfl
            · intro _
              rfl
    · rw [if_neg hlt, if_neg hlt]
      rfl

end Carve

end ApexForensic.Carving
