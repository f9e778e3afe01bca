import ApexForensic.Carving.Hits

/-!
# What a scan reports

A scan that is not stopped reports the candidates of all marks of its ranges.
A stopped one reports those of a first part of the marks of the range in which
it stopped: the marks before its resume offset, or, out of scan budget, the
marks that end before its cursor.
-/

namespace ApexForensic.Carving

open ApexForensic.Domain

variable {scan scan' : Scan} {high rangeEnd rangeStart : ℕ}
  {done todo : List Hit}

section Scan

variable (platform : Platform) (job : Job) (limits : Option Limits)

/-- The candidate that reading a hit yields, if its end is recognized. -/
def examine (rangeEnd : ℕ) (hit : Hit) : Option Candidate :=
  match probe platform job hit.kind hit.offset
      (min job.maxFileBytes (rangeEnd - hit.offset)) [] with
  | .ok (data, some size) => some (candidate platform hit data size)
  | _ => none

/-- What names the output file of a candidate. -/
def Candidate.key (c : Candidate) : ℕ × Kind :=
  (c.offset, c.format)

variable {platform job limits}

variable (platform) in
theorem probe_eq_ok (kind : Kind) {absolute available : ℕ}
    (hsize : absolute + available ≤ job.reader.size)
    (read : List UInt8) (hread : read.length ≤ available) :
    ∃ data found, probe platform job kind absolute available read =
        .ok (data, found) ∧ read.length ≤ data.length ∧
      (read.length < available → read.length < data.length) := by
  induction hleft : available - read.length using Nat.strong_induction_on
    generalizing read with
  | _ left ih =>
    subst hleft
    rw [probe]
    by_cases hlt : read.length < available
    · rw [if_pos hlt, readAt_eq_ok (by omega) (min_le_left _ _)]
      set block := bytesAt job.reader.content (absolute + read.length)
        (min (min chunk (available - read.length))
          (job.reader.size - (absolute + read.length))) with hblock
      have hchunk : 0 < chunk := by unfold chunk; omega
      have hlength : block.length = min chunk (available - read.length) := by
        rw [hblock, length_bytesAt]
        omega
      have happend : (read ++ block).length = read.length + block.length :=
        List.length_append
      have hne : block ≠ [] := by
        intro hnil
        rw [hnil] at hlength
        simp at hlength
        omega
      simp only [bind, Except.bind, if_neg hne]
      cases hfound : candidateLength platform kind (read ++ block) with
      | some size => exact ⟨read ++ block, some size, rfl, by omega, by omega⟩
      | none =>
          obtain ⟨data, found, hprobe, hle, -⟩ := ih
            (available - (read ++ block).length) (by omega) (read ++ block)
            (by omega) rfl
          exact ⟨data, found, hprobe, by omega, by omega⟩
    · rw [if_neg hlt]
      exact ⟨read, none, rfl, le_rfl, fun h => (hlt h).elim⟩

variable (platform) in
theorem probe_hit {hit : Hit} (hfile : 0 < job.maxFileBytes)
    (hhit : hit.offset < rangeEnd) (hend : rangeEnd ≤ job.reader.size) :
    ∃ data found, probe platform job hit.kind hit.offset
        (min job.maxFileBytes (rangeEnd - hit.offset)) [] =
          .ok (data, found) ∧ 0 < data.length ∧
      examine platform job rangeEnd hit =
        found.map (candidate platform hit data) := by
  have hsize : hit.offset + min job.maxFileBytes (rangeEnd - hit.offset) ≤
      job.reader.size := by omega
  obtain ⟨data, found, hprobe, -, hpos⟩ :=
    probe_eq_ok platform hit.kind hsize [] (Nat.zero_le _)
  refine ⟨data, found, hprobe, hpos (by simp only [List.length_nil]; omega), ?_⟩
  rw [examine, hprobe]
  cases found <;> rfl

/-! ## The hits of a window -/

/-- How a loop over hits ends: it is done with all of them, or it is stopped
before the first of the rest, or right after the last one done. -/
inductive HitsEnd (done todo : List Hit) : Option Stop → Prop
  | complete (htodo : todo = []) : HitsEnd done todo none
  | probeBudget (hit : Hit) (rest : List Hit) (htodo : todo = hit :: rest) :
      HitsEnd done todo (some (.probeBudget hit.offset))
  | results (hit : Hit) (before : List Hit) (hdone : done = before ++ [hit]) :
      HitsEnd done todo (some (.results hit.offset))

theorem HitsEnd.cons {stop : Option Stop} (h : HitsEnd done todo stop)
    (hit : Hit) : HitsEnd (hit :: done) todo stop := by
  cases h with
  | complete htodo => exact .complete htodo
  | probeBudget next rest htodo => exact .probeBudget next rest htodo
  | results last before hdone =>
      exact .results last (hit :: before) (by rw [hdone]; rfl)

/-- A loop over hits has examined the first ones of them. -/
structure HitsScanned (platform : Platform) (job : Job)
    (limits : Option Limits) (rangeEnd : ℕ) (done todo : List Hit)
    (scan scan' : Scan) : Prop where
  candidates : scan'.candidates =
    scan.candidates ++ done.filterMap (examine platform job rangeEnd)
  scannedBytes : scan'.scannedBytes = scan.scannedBytes
  ends : HitsEnd done todo scan'.stop
  limited : scan'.stop.isSome → limits.isSome
  reads : 0 < scan'.candidateReadBytes →
    done ≠ [] ∨ 0 < scan.candidateReadBytes
  probes : ∀ a, scan'.stop = some (.probeBudget a) →
    0 < scan'.candidateReadBytes
  unique : (scan.candidates.map Candidate.key).Nodup →
    (scan'.candidates.map Candidate.key).Nodup

theorem probeBudgetReached_pos {read : ℕ} (hfile : 0 < job.maxFileBytes)
    (h : probeBudgetReached job limits read) : 0 < read := by
  obtain ⟨l, -, hle⟩ := h
  omega

theorem probeBudgetReached_isSome {read : ℕ}
    (h : probeBudgetReached job limits read) : limits.isSome := by
  obtain ⟨l, hl, -⟩ := h
  exact Option.isSome_of_mem hl

theorem resultsReached_isSome {candidates : List Candidate}
    (h : resultsReached limits candidates) : limits.isSome := by
  obtain ⟨l, hl, -⟩ := h
  exact Option.isSome_of_mem hl

theorem exists_candidate_iff {candidates : List Candidate} {hit : Hit} :
    (∃ c ∈ candidates, c.offset = hit.offset ∧ c.format = hit.kind) ↔
      (hit.offset, hit.kind) ∈ candidates.map Candidate.key := by
  simp [Candidate.key]

section Cons

variable {rangeEnd : ℕ} {hit : Hit} {hits : List Hit} {scan : Scan}
  {data : List UInt8}

theorem scanHits_skip
    (hbudget : ¬ probeBudgetReached job limits scan.candidateReadBytes)
    (hprobe : probe platform job hit.kind hit.offset
      (min job.maxFileBytes (rangeEnd - hit.offset)) [] = .ok (data, none)) :
    scanHits platform job limits rangeEnd (hit :: hits) scan =
      scanHits platform job limits rangeEnd hits (scan.skip data.length) := by
  rw [scanHits, if_neg hbudget, hprobe]
  rfl

theorem scanHits_report {size : ℕ}
    (hbudget : ¬ probeBudgetReached job limits scan.candidateReadBytes)
    (hprobe : probe platform job hit.kind hit.offset
      (min job.maxFileBytes (rangeEnd - hit.offset)) [] =
        .ok (data, some size)) :
    scanHits platform job limits rangeEnd (hit :: hits) scan =
      if ∃ c ∈ scan.candidates,
          c.offset = hit.offset ∧ c.format = hit.kind then
        .error (stateConflictError
          "Derived output already exists; overwrite is disabled."
          (some "output_root"))
      else
        let scan := scan.report data.length
          (candidate platform hit data size)
        if resultsReached limits scan.candidates then
          .ok { scan with stop := some (.results hit.offset) }
        else scanHits platform job limits rangeEnd hits scan := by
  rw [scanHits, if_neg hbudget, hprobe]
  rfl

end Cons

theorem nodup_report (read : ℕ) {c : Candidate}
    (hnew : c.key ∉ scan.candidates.map Candidate.key)
    (hscan : (scan.candidates.map Candidate.key).Nodup) :
    ((scan.report read c).candidates.map Candidate.key).Nodup := by
  have hconcat := hscan.concat hnew
  rw [List.concat_eq_append] at hconcat
  simpa [Scan.report] using hconcat

theorem scanHits_spec (hfile : 0 < job.maxFileBytes)
    (hend : rangeEnd ≤ job.reader.size) {hits : List Hit}
    (hhits : ∀ hit ∈ hits, hit.offset < rangeEnd) (hstop : scan.stop = none)
    (h : scanHits platform job limits rangeEnd hits scan = .ok scan') :
    ∃ done todo, hits = done ++ todo ∧
      HitsScanned platform job limits rangeEnd done todo scan scan' := by
  induction hits generalizing scan with
  | nil =>
      obtain rfl : scan = scan' := Except.ok.inj h
      refine ⟨[], [], rfl, by simp, rfl, ?_, by simp [hstop], Or.inr,
        by simp [hstop], id⟩
      rw [hstop]
      exact .complete rfl
  | cons hit hits ih =>
      rw [List.forall_mem_cons] at hhits
      by_cases hbudget : probeBudgetReached job limits scan.candidateReadBytes
      · rw [scanHits, if_pos hbudget] at h
        obtain rfl := Except.ok.inj h
        exact ⟨[], hit :: hits, rfl, by simp, rfl, .probeBudget hit hits rfl,
          fun _ => probeBudgetReached_isSome hbudget, Or.inr,
          fun _ _ => probeBudgetReached_pos hfile hbudget, id⟩
      obtain ⟨data, found, hprobe, hpos, hexamine⟩ :=
        probe_hit platform hfile hhits.1 hend
      cases found with
      | none =>
          rw [scanHits_skip hbudget hprobe] at h
          have hskip : (scan.skip data.length).stop = none := hstop
          obtain ⟨done, todo, rfl, hscanned⟩ := ih hhits.2 hskip h
          refine ⟨hit :: done, todo, rfl, ?_, hscanned.scannedBytes,
            hscanned.ends.cons hit, hscanned.limited,
            fun _ => Or.inl (List.cons_ne_nil _ _), hscanned.probes,
            hscanned.unique⟩
          rw [hscanned.candidates, List.filterMap_cons_none hexamine]
          rfl
      | some size =>
          rw [scanHits_report hbudget hprobe] at h
          dsimp only at h
          split_ifs at h with hexists hresults
          · obtain rfl := Except.ok.inj h
            refine ⟨[hit], hits, rfl, ?_, rfl, .results hit [] rfl,
              fun _ => resultsReached_isSome hresults,
              fun _ => Or.inl (List.cons_ne_nil _ _), ?_, ?_⟩
            · rw [List.filterMap_cons_some hexamine]
              rfl
            · intro a ha
              exact Stop.noConfusion (Option.some.inj ha)
            · exact nodup_report data.length
                (by rwa [exists_candidate_iff] at hexists)
          · have hreport : (scan.report data.length
                (candidate platform hit data size)).stop = none := hstop
            obtain ⟨done, todo, rfl, hscanned⟩ := ih hhits.2 hreport h
            refine ⟨hit :: done, todo, rfl, ?_, hscanned.scannedBytes,
              hscanned.ends.cons hit, hscanned.limited,
              fun _ => Or.inl (List.cons_ne_nil _ _), hscanned.probes, ?_⟩
            · rw [hscanned.candidates, List.filterMap_cons_some hexamine]
              simp [Scan.report]
            · intro hnodup
              rw [exists_candidate_iff] at hexists
              exact hscanned.unique (nodup_report data.length hexists hnodup)

theorem scanHits_total (hfile : 0 < job.maxFileBytes)
    (hend : rangeEnd ≤ job.reader.size) {hits : List Hit}
    (hhits : ∀ hit ∈ hits, hit.offset < rangeEnd)
    (hnodup : ((scan.candidates ++ hits.filterMap
      (examine platform job rangeEnd)).map Candidate.key).Nodup) :
    ∃ scan', scanHits platform job limits rangeEnd hits scan = .ok scan' := by
  induction hits generalizing scan with
  | nil => exact ⟨scan, rfl⟩
  | cons hit hits ih =>
      rw [List.forall_mem_cons] at hhits
      by_cases hbudget : probeBudgetReached job limits scan.candidateReadBytes
      · exact ⟨_, by rw [scanHits, if_pos hbudget]⟩
      obtain ⟨data, found, hprobe, -, hexamine⟩ :=
        probe_hit platform hfile hhits.1 hend
      cases found with
      | none =>
          rw [scanHits_skip hbudget hprobe]
          rw [List.filterMap_cons_none hexamine] at hnodup
          exact ih hhits.2 hnodup
      | some size =>
          rw [List.filterMap_cons_some hexamine] at hnodup
          have hnew : ¬ ∃ c ∈ scan.candidates,
              c.offset = hit.offset ∧ c.format = hit.kind := by
            rw [exists_candidate_iff]
            intro hmem
            rw [List.map_append, List.nodup_append] at hnodup
            exact hnodup.2.2 _ hmem _ List.mem_cons_self rfl
          rw [scanHits_report hbudget hprobe, if_neg hnew]
          dsimp only
          split_ifs
          · exact ⟨_, rfl⟩
          · exact ih hhits.2 (by simpa [Scan.report] using hnodup)

/-! ## The windows of a range -/

/-- Where a scan of a range stops, and what it has reported of the range. -/
inductive RangeStopped (platform : Platform) (job : Job)
    (low rangeStart rangeEnd : ℕ) : Stop → List Candidate → Prop
  | scanBudget (cursor : ℕ) (hlow : low ≤ cursor) (hend : cursor < rangeEnd) :
      RangeStopped platform job low rangeStart rangeEnd
        (.scanBudget rangeStart rangeEnd cursor)
        ((marks job low cursor).filterMap (examine platform job rangeEnd))
  | probeBudget (absolute : ℕ) (hlow : low ≤ absolute)
      (hend : absolute < rangeEnd) :
      RangeStopped platform job low rangeStart rangeEnd
        (.probeBudget absolute)
        (((marks job low rangeEnd).filter fun hit =>
          hit.offset < absolute).filterMap (examine platform job rangeEnd))
  | results (absolute : ℕ) (hlow : low ≤ absolute)
      (hend : absolute < rangeEnd) :
      RangeStopped platform job low rangeStart rangeEnd (.results absolute)
        (((marks job low rangeEnd).filter fun hit =>
          hit.offset < absolute + 1).filterMap (examine platform job rangeEnd))

/-- The candidates of a range from an offset on. -/
def candidatesFrom (platform : Platform) (job : Job) (startOffset : ℕ)
    (range : ℕ × ℕ) : List Candidate :=
  (marks job (max range.1 startOffset)
    (min (range.1 + range.2) job.reader.size)).filterMap
      (examine platform job (min (range.1 + range.2) job.reader.size))

/-- The marks done are those before a cut, when the cut separates them from
the rest and no mark before it ends behind the window. -/
theorem done_eq_filter {low cut : ℕ}
    (hmarks : marks job low high = done ++ todo) (hhigh : high ≤ rangeEnd)
    (hdone : ∀ hit ∈ done, hit.offset < cut)
    (htodo : ∀ hit ∈ todo, cut ≤ hit.offset)
    (hends : ∀ hit, IsMark job hit → hit.offset < cut →
      hit.endOffset ≤ high) :
    done = (marks job low rangeEnd).filter fun hit => hit.offset < cut := by
  have hpairwise := marks_pairwise job low high
  rw [hmarks] at hpairwise
  refine eq_of_mem_iff (List.pairwise_append.mp hpairwise).1
    ((marks_pairwise _ _ _).filter _) ?_
  intro hit
  rw [List.mem_filter, mem_marks, decide_eq_true_eq]
  constructor
  · intro hmem
    have hmark := mem_marks.mp (hmarks ▸ List.mem_append_left todo hmem)
    exact ⟨⟨hmark.1, hmark.2.1, hmark.2.2.trans hhigh⟩, hdone hit hmem⟩
  · rintro ⟨⟨hmark, hlow, -⟩, hcut⟩
    have hmem : hit ∈ marks job low high :=
      mem_marks.mpr ⟨hmark, hlow, hends hit hmark hcut⟩
    rw [hmarks] at hmem
    rcases List.mem_append.mp hmem with h | h
    · exact h
    · have := htodo hit h
      omega

theorem rangeStopped_of_hitsEnd {low : ℕ} {before : List Hit} {stop : Stop}
    (hmarks : marks job low high = before ++ (done ++ todo))
    (hhigh : high ≤ rangeEnd) (hends : HitsEnd done todo (some stop)) :
    RangeStopped platform job low rangeStart rangeEnd stop
        ((before ++ done).filterMap (examine platform job rangeEnd)) ∧
      (∀ a, stop = .probeBudget a → before ++ done ≠ [] → low < a) := by
  rw [← List.append_assoc] at hmarks
  have hpairwise := marks_pairwise job low high
  rw [hmarks] at hpairwise
  have hmem {hit : Hit} (h : hit ∈ before ++ done ++ todo) :
      IsMark job hit ∧ low ≤ hit.offset ∧ hit.endOffset ≤ high :=
    mem_marks.mp (hmarks ▸ h)
  have hoffset (hit : Hit) : hit.offset < hit.endOffset :=
    Nat.lt_add_of_pos_right (signature_length_pos hit.kind)
  cases hends with
  | probeBudget hit rest htodo =>
      subst htodo
      have hhit := hmem (List.mem_append_right _ List.mem_cons_self)
      have hfirst : ∀ x ∈ before ++ done, x.offset < hit.offset :=
        fun x hx => (List.pairwise_append.mp hpairwise).2.2 x hx hit
          List.mem_cons_self
      refine ⟨?_, ?_⟩
      · have hcut := done_eq_filter hmarks hhigh hfirst
          (List.forall_mem_cons.mpr ⟨le_rfl, fun x hx =>
            ((List.pairwise_cons.mp
              (List.pairwise_append.mp hpairwise).2.1).1 x hx).le⟩)
          (fun x hx hlt => ((hx.end_lt hhit.1 hlt).le.trans hhit.2.2))
        rw [hcut]
        have := hoffset hit
        exact .probeBudget hit.offset hhit.2.1 (by omega)
      · intro a ha hne
        obtain rfl : hit.offset = a := by simpa using ha
        obtain ⟨x, hx⟩ := List.exists_mem_of_ne_nil _ hne
        have := hfirst x hx
        have := (hmem (List.mem_append_left _ hx)).2.1
        omega
  | results hit init hdone =>
      have hin : hit ∈ before ++ done := by simp [hdone]
      have hhit := hmem (List.mem_append_left _ hin)
      have hlast : ∀ x ∈ before ++ done, x.offset < hit.offset + 1 := by
        intro x hx
        have hsplit : before ++ done = (before ++ init) ++ [hit] := by
          simp [hdone]
        have hp := (List.pairwise_append.mp hpairwise).1
        rw [hsplit] at hx hp
        rcases List.mem_append.mp hx with h | h
        · have := (List.pairwise_append.mp hp).2.2 x h hit List.mem_cons_self
          omega
        · rw [List.mem_singleton.mp h]
          exact Nat.lt_succ_self _
      refine ⟨?_, fun a ha => Stop.noConfusion ha⟩
      have hcut := done_eq_filter hmarks hhigh hlast
        (fun x hx => (List.pairwise_append.mp hpairwise).2.2 hit hin x hx)
        (fun x hx hlt => by
          rcases Nat.lt_succ_iff_lt_or_eq.mp hlt with h | h
          · exact (hx.end_lt hhit.1 h).le.trans hhit.2.2
          · rw [hx.kind_eq hhit.1 h]
            exact hhit.2.2)
      rw [hcut]
      have := hoffset hit
      exact .results hit.offset hhit.2.1 (by omega)

/-- The state of a scan at a cursor of a range: the marks that end before the
cursor are reported.  `reads` and `bytes` are the counters with which the
range was entered. -/
structure InRange (platform : Platform) (job : Job) (limits : Option Limits)
    (low rangeEnd reads bytes : ℕ) (reported : List Candidate) (cursor : ℕ)
    (scan : Scan) : Prop where
  low_le : low ≤ cursor
  le_rangeEnd : cursor ≤ rangeEnd
  stop : scan.stop = none
  candidates : scan.candidates = reported ++
    (marks job low cursor).filterMap (examine platform job rangeEnd)
  read : 0 < scan.candidateReadBytes → marks job low cursor ≠ [] ∨ 0 < reads
  scanned : scan.scannedBytes + low = bytes + cursor
  budget : ∀ l ∈ limits, scan.scannedBytes ≤ l.maxScanBytes

/-- What a scan of a range has done when it is over. -/
structure RangeScanned (platform : Platform) (job : Job)
    (limits : Option Limits) (low rangeStart rangeEnd reads bytes : ℕ)
    (reported : List Candidate) (scan : Scan) : Prop where
  outcome : (scan.stop = none ∧ scan.candidates = reported ++
      (marks job low rangeEnd).filterMap (examine platform job rangeEnd)) ∨
    ∃ stop part, scan.stop = some stop ∧
      RangeStopped platform job low rangeStart rangeEnd stop part ∧
      scan.candidates = reported ++ part
  limited : scan.stop.isSome → limits.isSome
  probes : ∀ a, scan.stop = some (.probeBudget a) → low < a ∨ 0 < reads
  scanned : ∀ l ∈ limits, ∀ first last cursor,
    scan.stop = some (.scanBudget first last cursor) →
      l.maxScanBytes + low = bytes + cursor
  budget : ∀ l ∈ limits, scan.scannedBytes ≤ l.maxScanBytes

theorem windowLength_bounds {scanned left : ℕ}
    (hremaining : remaining limits scanned ≠ some 0) (hleft : 0 < left) :
    0 < windowLength limits scanned left ∧
      windowLength limits scanned left ≤ chunk ∧
      windowLength limits scanned left ≤ left ∧
      ∀ l ∈ limits, windowLength limits scanned left ≤
        l.maxScanBytes - scanned := by
  have hchunk : 0 < chunk := by unfold chunk; omega
  cases limits with
  | none =>
      refine ⟨?_, ?_, ?_, fun l hl => by simp at hl⟩ <;>
        simp only [windowLength, remaining, Option.map_none] <;> omega
  | some l =>
      simp only [remaining, Option.map_some, ne_eq, Option.some.injEq]
        at hremaining
      refine ⟨?_, ?_, ?_, fun l' hl' => ?_⟩
      · simp only [windowLength, remaining, Option.map_some]
        omega
      · simp only [windowLength, remaining, Option.map_some]
        omega
      · simp only [windowLength, remaining, Option.map_some]
        omega
      · obtain rfl : l = l' := Option.some.inj hl'
        simp only [windowLength, remaining, Option.map_some]
        omega

section Window

variable {low rangeEnd reads bytes cursor : ℕ}
  {reported : List Candidate} {scan : Scan}

/-- What the loop keeps of the bytes before the cursor. -/
def tailAt (job : Job) (low cursor : ℕ) : List UInt8 :=
  bytesAt job.reader.content (max low (cursor - 16))
    (cursor - max low (cursor - 16))

/-- The hits of the window that a cursor reads next. -/
def nextHits (job : Job) (low cursor length : ℕ) : List Hit :=
  windowHits job.formats
    (tailAt job low cursor ++ bytesAt job.reader.content cursor length)
    (cursor - (tailAt job low cursor).length) cursor

theorem tailAt_append (hlow : low ≤ cursor) (length : ℕ) :
    tailAt job low cursor ++ bytesAt job.reader.content cursor length =
      bytesAt job.reader.content (max low (cursor - 16))
        (cursor + length - max low (cursor - 16)) := by
  have happend := bytesAt_append job.reader.content (max low (cursor - 16))
    (cursor - max low (cursor - 16)) length
  rw [show max low (cursor - 16) + (cursor - max low (cursor - 16)) = cursor
    by omega] at happend
  rw [tailAt, happend]
  congr 1
  omega

variable (job) in
theorem marks_nextHits (hlow : low ≤ cursor) (length : ℕ) :
    marks job low (cursor + length) =
      marks job low cursor ++ nextHits job low cursor length := by
  rw [marks_append rfl hlow, nextHits, tailAt_append hlow, tailAt,
    length_bytesAt,
    show cursor - (cursor - max low (cursor - 16)) = max low (cursor - 16)
      by omega]

theorem drop_tail (hlow : low ≤ cursor) (length : ℕ) :
    (tailAt job low cursor ++
        bytesAt job.reader.content cursor length).drop
      ((tailAt job low cursor ++
        bytesAt job.reader.content cursor length).length - 16) =
      tailAt job low (cursor + length) := by
  rw [tailAt_append hlow, length_bytesAt, drop_bytesAt, tailAt]
  congr 1 <;> omega

theorem scanRange_window (hlow : low ≤ cursor) (hlt : cursor < rangeEnd)
    (hend : rangeEnd ≤ job.reader.size)
    (hremaining : remaining limits scan.scannedBytes ≠ some 0) :
    scanRange platform job limits rangeStart rangeEnd cursor
        (tailAt job low cursor) scan = (do
      let length := windowLength limits scan.scannedBytes (rangeEnd - cursor)
      let scan' ← scanHits platform job limits rangeEnd
        (nextHits job low cursor length) scan
      if scan'.stop.isSome then .ok (scan'.advance length)
      else
        scanRange platform job limits rangeStart rangeEnd (cursor + length)
          (tailAt job low (cursor + length)) (scan'.advance length)) := by
  obtain ⟨hpos, hchunk, hleft, -⟩ :=
    windowLength_bounds hremaining (show 0 < rangeEnd - cursor by omega)
  rw [scanRange, if_pos hlt, if_neg hremaining,
    readAt_eq_ok (by omega) hchunk, min_eq_left (by omega)]
  have hne : bytesAt job.reader.content cursor
      (windowLength limits scan.scannedBytes (rangeEnd - cursor)) ≠ [] := by
    intro hnil
    have := length_bytesAt job.reader.content cursor
      (windowLength limits scan.scannedBytes (rangeEnd - cursor))
    rw [hnil] at this
    simp at this
    omega
  simp only [bind, Except.bind, if_neg hne, drop_tail hlow, length_bytesAt,
    nextHits]
  rfl

theorem InRange.hits_lt
    (h : InRange platform job limits low rangeEnd reads bytes reported cursor
      scan) {length : ℕ} (hlength : cursor + length ≤ rangeEnd) :
    ∀ hit ∈ nextHits job low cursor length, hit.offset < rangeEnd := by
  intro hit hhit
  have hmem : hit ∈ marks job low (cursor + length) := by
    rw [marks_nextHits job h.low_le]
    exact List.mem_append_right _ hhit
  have hmark := mem_marks.mp hmem
  have hpos := signature_length_pos hit.kind
  have hhigh := hmark.2.2
  unfold Hit.endOffset at hhigh
  omega

/-- A window that is not stopped leaves the scan at the next cursor; a stopped
one ends the scan of the range. -/
theorem InRange.window (hfile : 0 < job.maxFileBytes)
    (hend : rangeEnd ≤ job.reader.size)
    (h : InRange platform job limits low rangeEnd reads bytes reported cursor
      scan) {length : ℕ} (hlength : cursor + length ≤ rangeEnd)
    (hbudget : ∀ l ∈ limits, length ≤ l.maxScanBytes - scan.scannedBytes)
    (hscan : scanHits platform job limits rangeEnd
      (nextHits job low cursor length) scan = .ok scan') (rangeStart : ℕ) :
    (scan'.stop = none ∧
      InRange platform job limits low rangeEnd reads bytes reported
        (cursor + length) (scan'.advance length)) ∨
    (scan'.stop.isSome ∧
      RangeScanned platform job limits low rangeStart rangeEnd reads bytes
        reported (scan'.advance length)) := by
  obtain ⟨done, todo, hhits, hdone⟩ :=
    scanHits_spec hfile hend (h.hits_lt hlength) h.stop hscan
  have hmarks := marks_nextHits job h.low_le length
  have hcandidates : scan'.candidates = reported ++
      (marks job low cursor ++ done).filterMap
        (examine platform job rangeEnd) := by
    rw [hdone.candidates, h.candidates, List.filterMap_append,
      List.append_assoc]
  have hscanned := hdone.scannedBytes
  have hbytes := h.scanned
  have hwithin : ∀ l ∈ limits,
      scan'.scannedBytes + length ≤ l.maxScanBytes := by
    intro l hl
    have := hbudget l hl
    have := h.budget l hl
    omega
  have hread : 0 < scan'.candidateReadBytes →
      marks job low cursor ++ done ≠ [] ∨ 0 < reads := by
    intro hpos
    rcases hdone.reads hpos with hne | hpos
    · exact Or.inl (List.append_ne_nil_of_right_ne_nil _ hne)
    · rcases h.read hpos with hne | hpos
      · exact Or.inl (List.append_ne_nil_of_left_ne_nil hne _)
      · exact Or.inr hpos
  rcases Option.eq_none_or_eq_some scan'.stop with hstop | ⟨stop, hstop⟩
  · have htodo : todo = [] := by
      have hends := hdone.ends
      rw [hstop] at hends
      cases hends with
      | complete htodo => exact htodo
    rw [htodo, List.append_nil] at hhits
    rw [hhits] at hmarks
    refine Or.inl ⟨hstop, by have := h.low_le; omega, hlength, hstop, ?_, ?_,
      ?_, hwithin⟩
    · rw [hmarks]
      exact hcandidates
    · rw [hmarks]
      exact hread
    · simp only [Scan.advance]
      omega
  · have hends := hdone.ends
    rw [hstop] at hends
    rw [hhits] at hmarks
    obtain ⟨hstopped, hprobe⟩ : RangeStopped platform job low rangeStart
          rangeEnd stop ((marks job low cursor ++ done).filterMap
            (examine platform job rangeEnd)) ∧
        ∀ a, stop = .probeBudget a → marks job low cursor ++ done ≠ [] →
          low < a := rangeStopped_of_hitsEnd hmarks hlength hends
    refine Or.inr ⟨by rw [hstop]; rfl,
      Or.inr ⟨stop, _, hstop, hstopped, hcandidates⟩,
      fun _ => hdone.limited (by rw [hstop]; rfl), ?_, ?_, hwithin⟩
    · intro a ha
      exact (hread (hdone.probes a ha)).imp_left fun hne =>
        hprobe a (Option.some.inj (hstop.symm.trans ha)) hne
    · intro l _ first last position hposition
      obtain rfl := Option.some.inj (hstop.symm.trans hposition)
      cases hends

theorem scanRange_spec (hfile : 0 < job.maxFileBytes)
    (hend : rangeEnd ≤ job.reader.size)
    (h : InRange platform job limits low rangeEnd reads bytes reported cursor
      scan)
    (hscan : scanRange platform job limits rangeStart rangeEnd cursor
      (tailAt job low cursor) scan = .ok scan') :
    RangeScanned platform job limits low rangeStart rangeEnd reads bytes
      reported scan' := by
  induction hleft : rangeEnd - cursor using Nat.strong_induction_on
    generalizing cursor scan with
  | _ left ih =>
    subst hleft
    by_cases hlt : cursor < rangeEnd
    · by_cases hremaining : remaining limits scan.scannedBytes = some 0
      · rw [scanRange, if_pos hlt, if_pos hremaining] at hscan
        obtain rfl := Except.ok.inj hscan
        refine ⟨Or.inr ⟨_, _, rfl, .scanBudget cursor h.low_le hlt,
          h.candidates⟩, fun _ => ?_, fun a ha => ?_, ?_, h.budget⟩
        · cases limits with
          | none => simp [remaining] at hremaining
          | some l => rfl
        · exact Stop.noConfusion (Option.some.inj ha)
        · intro l hl first last position hposition
          obtain ⟨-, -, rfl⟩ := by simpa using hposition
          obtain rfl : limits = some l := hl
          have hzero : l.maxScanBytes - scan.scannedBytes = 0 := by
            simpa [remaining] using hremaining
          have := h.budget l rfl
          have := h.scanned
          omega
      · obtain ⟨hpos, -, hleft, hbudget⟩ :=
          windowLength_bounds hremaining (show 0 < rangeEnd - cursor by omega)
        have hlength : cursor + windowLength limits scan.scannedBytes
            (rangeEnd - cursor) ≤ rangeEnd := by omega
        rw [scanRange_window h.low_le hlt hend hremaining] at hscan
        obtain ⟨mid, hhits, hscan⟩ := bind_ok hscan
        have hwindow := h.window hfile hend hlength hbudget hhits rangeStart
        rcases hwindow with ⟨hstop, hnext⟩ | ⟨hstop, hover⟩
        · rw [hstop] at hscan
          exact ih _ (by omega) hnext hscan rfl
        · rw [if_pos hstop] at hscan
          obtain rfl := Except.ok.inj hscan
          exact hover
    · rw [scanRange, if_neg hlt] at hscan
      obtain rfl := Except.ok.inj hscan
      have heq : cursor = rangeEnd := le_antisymm h.le_rangeEnd (not_lt.mp hlt)
      subst heq
      exact ⟨Or.inl ⟨h.stop, h.candidates⟩, by simp [h.stop],
        by simp [h.stop], by simp [h.stop], h.budget⟩

variable (job) in
theorem marks_isPrefix (hlow : low ≤ cursor) (hhigh : cursor ≤ high) :
    marks job low cursor <+: marks job low high := by
  obtain ⟨length, rfl⟩ := Nat.exists_eq_add_of_le hhigh
  exact ⟨_, (marks_nextHits job hlow length).symm⟩

theorem scanRange_total (hfile : 0 < job.maxFileBytes)
    (hend : rangeEnd ≤ job.reader.size)
    (h : InRange platform job limits low rangeEnd reads bytes reported cursor
      scan)
    (hnodup : ((reported ++ (marks job low rangeEnd).filterMap
      (examine platform job rangeEnd)).map Candidate.key).Nodup) :
    ∃ scan', scanRange platform job limits rangeStart rangeEnd cursor
      (tailAt job low cursor) scan = .ok scan' := by
  induction hleft : rangeEnd - cursor using Nat.strong_induction_on
    generalizing cursor scan with
  | _ left ih =>
    subst hleft
    by_cases hlt : cursor < rangeEnd
    · by_cases hremaining : remaining limits scan.scannedBytes = some 0
      · exact ⟨_, by rw [scanRange, if_pos hlt, if_pos hremaining]⟩
      · obtain ⟨hpos, -, hleft, hbudget⟩ :=
          windowLength_bounds hremaining (show 0 < rangeEnd - cursor by omega)
        have hlength : cursor + windowLength limits scan.scannedBytes
            (rangeEnd - cursor) ≤ rangeEnd := by omega
        have hnames : ((scan.candidates ++ (nextHits job low cursor
            (windowLength limits scan.scannedBytes
              (rangeEnd - cursor))).filterMap
            (examine platform job rangeEnd)).map Candidate.key).Nodup := by
          rw [h.candidates, List.append_assoc, ← List.filterMap_append,
            ← marks_nextHits job h.low_le]
          have hfront := marks_isPrefix job
            (h.low_le.trans (Nat.le_add_right cursor _)) hlength
          refine hnodup.sublist (List.Sublist.map _ ?_)
          exact List.Sublist.append (List.Sublist.refl _)
            (hfront.sublist.filterMap _)
        obtain ⟨mid, hhits⟩ : ∃ mid, scanHits platform job limits rangeEnd
            (nextHits job low cursor (windowLength limits scan.scannedBytes
              (rangeEnd - cursor))) scan = .ok mid :=
          scanHits_total hfile hend (h.hits_lt hlength) hnames
        rw [scanRange_window h.low_le hlt hend hremaining]
        simp only [hhits]
        rcases h.window hfile hend hlength hbudget hhits rangeStart with
          ⟨hstop, hnext⟩ | ⟨hstop, -⟩
        · obtain ⟨scan', hscan⟩ := ih _ (by omega) hnext rfl
          refine ⟨scan', ?_⟩
          simpa [bind, Except.bind, hstop] using hscan
        · refine ⟨mid.advance (windowLength limits scan.scannedBytes
            (rangeEnd - cursor)), ?_⟩
          simp only [bind, Except.bind, if_pos hstop]
    · exact ⟨scan, by rw [scanRange, if_neg hlt]⟩

theorem scanRange_unique (hfile : 0 < job.maxFileBytes)
    (hend : rangeEnd ≤ job.reader.size)
    (h : InRange platform job limits low rangeEnd reads bytes reported cursor
      scan) (hnodup : (scan.candidates.map Candidate.key).Nodup)
    (hscan : scanRange platform job limits rangeStart rangeEnd cursor
      (tailAt job low cursor) scan = .ok scan') :
    (scan'.candidates.map Candidate.key).Nodup := by
  induction hleft : rangeEnd - cursor using Nat.strong_induction_on
    generalizing cursor scan with
  | _ left ih =>
    subst hleft
    by_cases hlt : cursor < rangeEnd
    · by_cases hremaining : remaining limits scan.scannedBytes = some 0
      · rw [scanRange, if_pos hlt, if_pos hremaining] at hscan
        obtain rfl := Except.ok.inj hscan
        exact hnodup
      · obtain ⟨hpos, -, hleft, hbudget⟩ :=
          windowLength_bounds hremaining (show 0 < rangeEnd - cursor by omega)
        have hlength : cursor + windowLength limits scan.scannedBytes
            (rangeEnd - cursor) ≤ rangeEnd := by omega
        rw [scanRange_window h.low_le hlt hend hremaining] at hscan
        obtain ⟨mid, hhits, hscan⟩ := bind_ok hscan
        obtain ⟨done, todo, -, hdone⟩ :=
          scanHits_spec hfile hend (h.hits_lt hlength) h.stop hhits
        rcases h.window hfile hend hlength hbudget hhits rangeStart with
          ⟨hstop, hnext⟩ | ⟨hstop, -⟩
        · rw [hstop] at hscan
          exact ih _ (by omega) hnext (hdone.unique hnodup) hscan rfl
        · rw [if_pos hstop] at hscan
          obtain rfl := Except.ok.inj hscan
          exact hdone.unique hnodup
    · rw [scanRange, if_neg hlt] at hscan
      obtain rfl := Except.ok.inj hscan
      exact hnodup

end Window

end Scan

end ApexForensic.Carving
