import ApexForensic.Carving.Scan

/-!
# Resuming a scan

Calls are repeated from the returned offset until one is complete.  Over
ranges that follow one another the reported candidates are those of the whole
scan, up to those whose signature lies in the bytes that a call out of scan
budget leaves to be scanned again.
-/

namespace ApexForensic.Carving

open ApexForensic.Domain

variable {result scan : Scan} {ranges : List (ℕ × ℕ)} {range : ℕ × ℕ}
  {low rangeEnd startOffset : ℕ} {stop : Stop}

section Ranges

variable (platform : Platform) (job : Job)

/-- The ranges follow one another. -/
def Ascending (ranges : List (ℕ × ℕ)) : Prop :=
  ranges.Pairwise fun a b => a.1 + a.2 ≤ b.1

/-- The candidates of all ranges from an offset on. -/
def allFrom (startOffset : ℕ) (ranges : List (ℕ × ℕ)) : List Candidate :=
  ranges.flatMap (candidatesFrom platform job startOffset)

variable {platform job} {limits : Option Limits} {startOffset : ℕ}

/-- Where a scan of ranges stops, and what it has reported of them. -/
inductive RangesOutcome (platform : Platform) (job : Job) (startOffset : ℕ)
    (ranges : List (ℕ × ℕ)) : Option Stop → List Candidate → Prop
  | complete : RangesOutcome platform job startOffset ranges none
      (allFrom platform job startOffset ranges)
  | stopped (before after : List (ℕ × ℕ)) (range : ℕ × ℕ) (stop : Stop)
      (part : List Candidate) (hranges : ranges = before ++ range :: after)
      (hstopped : RangeStopped platform job (max range.1 startOffset) range.1
        (min (range.1 + range.2) job.reader.size) stop part) :
      RangesOutcome platform job startOffset ranges (some stop)
        (allFrom platform job startOffset before ++ part)

theorem RangesOutcome.cons (range : ℕ × ℕ) {stop : Option Stop}
    {reported : List Candidate}
    (h : RangesOutcome platform job startOffset ranges stop reported) :
    RangesOutcome platform job startOffset (range :: ranges) stop
      (candidatesFrom platform job startOffset range ++ reported) := by
  cases h with
  | complete => exact .complete
  | stopped before after last stop part hranges hstopped =>
      rw [← List.append_assoc]
      exact .stopped (range :: before) after last stop part
        (by rw [hranges]; rfl) hstopped

theorem candidatesFrom_of_le
    (h : min (range.1 + range.2) job.reader.size ≤ max range.1 startOffset) :
    candidatesFrom platform job startOffset range = [] := by
  rw [candidatesFrom, marks_of_le h]
  rfl

theorem scanRanges_skip
    (h : min (range.1 + range.2) job.reader.size ≤ max range.1 startOffset) :
    scanRanges platform job limits startOffset (range :: ranges) scan =
      scanRanges platform job limits startOffset ranges scan := by
  obtain ⟨start, length⟩ := range
  rw [scanRanges]
  dsimp only at h ⊢
  rw [if_pos h]

theorem tailAt_self (low : ℕ) : tailAt job low low = [] := by
  simp [tailAt, bytesAt]

theorem scanRanges_enter
    (h : max range.1 startOffset < min (range.1 + range.2) job.reader.size) :
    scanRanges platform job limits startOffset (range :: ranges) scan = (do
      let scan' ← scanRange platform job limits range.1
        (min (range.1 + range.2) job.reader.size) (max range.1 startOffset)
        (tailAt job (max range.1 startOffset) (max range.1 startOffset)) scan
      if scan'.stop.isSome then .ok scan'
      else scanRanges platform job limits startOffset ranges scan') := by
  obtain ⟨start, length⟩ := range
  rw [scanRanges, tailAt_self]
  dsimp only at h ⊢
  rw [if_neg (by omega)]

variable (platform job) in
theorem inRange_enter (hle : low ≤ rangeEnd) (hstop : scan.stop = none)
    (hbudget : ∀ l ∈ limits, scan.scannedBytes ≤ l.maxScanBytes) :
    InRange platform job limits low rangeEnd scan.candidateReadBytes
      scan.scannedBytes scan.candidates low scan where
  low_le := le_rfl
  le_rangeEnd := hle
  stop := hstop
  candidates := by simp [marks_of_le le_rfl]
  read := Or.inr
  scanned := rfl
  budget := hbudget

theorem scanRanges_spec (hfile : 0 < job.maxFileBytes) {scan' : Scan}
    (hstop : scan.stop = none)
    (hbudget : ∀ l ∈ limits, scan.scannedBytes ≤ l.maxScanBytes)
    (h : scanRanges platform job limits startOffset ranges scan = .ok scan') :
    (∃ reported, scan'.candidates = scan.candidates ++ reported ∧
      RangesOutcome platform job startOffset ranges scan'.stop reported) ∧
      (scan'.stop.isSome → limits.isSome) ∧
      ((scan.candidates.map Candidate.key).Nodup →
        (scan'.candidates.map Candidate.key).Nodup) := by
  induction ranges generalizing scan with
  | nil =>
      obtain rfl : scan = scan' := Except.ok.inj h
      rw [hstop]
      exact ⟨⟨[], by simp, .complete⟩, by simp, id⟩
  | cons range ranges ih =>
      rcases le_or_gt (min (range.1 + range.2) job.reader.size)
        (max range.1 startOffset) with hskip | henter
      · rw [scanRanges_skip hskip] at h
        obtain ⟨⟨reported, hcandidates, houtcome⟩, hlimited, hunique⟩ :=
          ih hstop hbudget h
        refine ⟨⟨reported, hcandidates, ?_⟩, hlimited, hunique⟩
        have hcons := houtcome.cons range
        rwa [candidatesFrom_of_le hskip, List.nil_append] at hcons
      · rw [scanRanges_enter henter] at h
        obtain ⟨mid, hrange, h⟩ := bind_ok h
        have hstart := inRange_enter platform job henter.le hstop hbudget
        have hscanned := scanRange_spec hfile (min_le_right _ _) hstart hrange
        have hnames := fun hnodup =>
          scanRange_unique hfile (min_le_right _ _) hstart hnodup hrange
        rcases hscanned.outcome with ⟨hnone, hall⟩ |
          ⟨stop, part, hsome, hstopped, hpart⟩
        · rw [hnone] at h
          obtain ⟨⟨reported, hcandidates, houtcome⟩, hlimited, hunique⟩ :=
            ih hnone hscanned.budget h
          refine ⟨⟨_, ?_, houtcome.cons _⟩, hlimited,
            fun hnodup => hunique (hnames hnodup)⟩
          rw [hcandidates, hall, List.append_assoc]
          rfl
        · rw [hsome] at h
          obtain rfl : mid = scan' := Except.ok.inj h
          refine ⟨⟨part, hpart, ?_⟩, hscanned.limited, hnames⟩
          rw [hsome]
          exact .stopped [] ranges range stop part rfl hstopped

/-- Ranges whose candidates have distinct names are scanned without an
error. -/
theorem scanRanges_total (hfile : 0 < job.maxFileBytes)
    (hstop : scan.stop = none)
    (hbudget : ∀ l ∈ limits, scan.scannedBytes ≤ l.maxScanBytes)
    (hnodup : ((scan.candidates ++
      allFrom platform job startOffset ranges).map Candidate.key).Nodup) :
    ∃ scan', scanRanges platform job limits startOffset ranges scan =
      .ok scan' := by
  induction ranges generalizing scan with
  | nil => exact ⟨scan, rfl⟩
  | cons range ranges ih =>
      rcases le_or_gt (min (range.1 + range.2) job.reader.size)
        (max range.1 startOffset) with hskip | henter
      · rw [scanRanges_skip hskip]
        rw [allFrom, List.flatMap_cons, candidatesFrom_of_le hskip] at hnodup
        exact ih hstop hbudget hnodup
      · have hstart := inRange_enter platform job
          henter.le hstop hbudget
        rw [allFrom, List.flatMap_cons, ← List.append_assoc] at hnodup
        have hfirst : ((scan.candidates ++
            candidatesFrom platform job startOffset range).map
              Candidate.key).Nodup :=
          hnodup.sublist ((List.sublist_append_left _ _).map _)
        obtain ⟨mid, hrange⟩ : ∃ mid, scanRange platform job limits range.1
            (min (range.1 + range.2) job.reader.size) (max range.1 startOffset)
            (tailAt job (max range.1 startOffset) (max range.1 startOffset))
            scan = .ok mid :=
          scanRange_total hfile (min_le_right _ _) hstart hfirst
        have hscanned := scanRange_spec hfile (min_le_right _ _) hstart hrange
        rw [scanRanges_enter henter, hrange]
        rcases hscanned.outcome with ⟨hnone, hall⟩ | ⟨stop, part, hsome, -, -⟩
        · have hrest : ((mid.candidates ++
              allFrom platform job startOffset ranges).map
                Candidate.key).Nodup := by
            rw [hall]
            exact hnodup
          obtain ⟨scan', h⟩ := ih hnone hscanned.budget hrest
          exact ⟨scan', by simpa [bind, Except.bind, hnone] using h⟩
        · exact ⟨mid, by simp [bind, Except.bind, hsome]⟩

/-- Over ranges that follow one another a scan stops behind its start offset,
if it has a scan budget of more than the bytes it would scan again. -/
theorem scanRanges_progress (hfile : 0 < job.maxFileBytes)
    (hranges : Ascending ranges) {scan' : Scan} (hstop : scan.stop = none)
    (hbudget : ∀ l ∈ limits, scan.scannedBytes ≤ l.maxScanBytes)
    (hfirst : (scan.candidateReadBytes = 0 ∧ scan.scannedBytes = 0) ∨
      ∀ range ∈ ranges, startOffset < range.1)
    (h : scanRanges platform job limits startOffset ranges scan = .ok scan')
    (hstopped : scan'.stop = some stop)
    (hscan : ∀ first last cursor, stop = .scanBudget first last cursor →
      ∀ l ∈ limits, 16 < l.maxScanBytes) : startOffset < stop.nextOffset := by
  induction ranges generalizing scan with
  | nil =>
      obtain rfl : scan = scan' := Except.ok.inj h
      simp [hstop] at hstopped
  | cons range ranges ih =>
      obtain ⟨hlater, hrest⟩ := List.pairwise_cons.mp hranges
      rcases le_or_gt (min (range.1 + range.2) job.reader.size)
        (max range.1 startOffset) with hskip | henter
      · rw [scanRanges_skip hskip] at h
        exact ih hrest hstop hbudget
          (hfirst.imp_right fun hall x hx => hall x (List.mem_cons_of_mem _ hx))
          h
      · rw [scanRanges_enter henter] at h
        obtain ⟨mid, hrange, h⟩ := bind_ok h
        have hscanned := scanRange_spec hfile (min_le_right _ _)
          (inRange_enter platform job henter.le hstop
            hbudget) hrange
        rcases hscanned.outcome with ⟨hnone, -⟩ | ⟨stop', part, hsome, hin, -⟩
        · rw [hnone] at h
          refine ih hrest hnone hscanned.budget (Or.inr fun x hx => ?_) h
          have := hlater x hx
          omega
        · rw [hsome] at h
          obtain rfl : mid = scan' := Except.ok.inj h
          obtain rfl := Option.some.inj (hsome.symm.trans hstopped)
          have hhead := hfirst.imp_right fun hall =>
            hall range List.mem_cons_self
          cases hin with
          | scanBudget cursor hlow hend =>
              have hlimits := hscanned.limited (by rw [hsome]; rfl)
              obtain ⟨l, hl⟩ := Option.isSome_iff_exists.mp hlimits
              have hbig := hscan _ _ _ rfl l hl
              have hbytes := hscanned.scanned l hl _ _ _ hsome
              simp only [Stop.nextOffset]
              omega
          | probeBudget absolute hlow hend =>
              have := hscanned.probes absolute hsome
              simp only [Stop.nextOffset]
              omega
          | results absolute hlow hend =>
              simp only [Stop.nextOffset]
              omega

end Ranges

/-! ## One call -/

section Call

variable {platform : Platform} {job : Job} {limits : Limits}

theorem checkArguments_eq_ok (h : checkArguments platform job limits = .ok ()) :
    0 < job.maxFileBytes ∧ 0 < limits.maxScanBytes := by
  unfold checkArguments at h
  split_ifs at h with hinvalid
  push Not at hinvalid
  omega

@[simp] theorem finish_stop (scan : Scan) : (finish scan).stop = scan.stop := by
  unfold finish
  split_ifs <;> rfl

@[simp] theorem finish_candidates (scan : Scan) :
    (finish scan).candidates = scan.candidates := by
  unfold finish
  split_ifs <;> rfl

theorem carve_eq_ok_iff :
    carve platform job limits startOffset = .ok result ↔
      checkArguments platform job limits = .ok () ∧
        ∃ scan, scanRanges platform job (some limits) startOffset job.ranges {} =
          .ok scan ∧ finish scan = result := by
  simp only [carve, bind_eq_ok_iff, Except.ok.injEq]
  constructor
  · rintro ⟨⟨⟩, hcheck, hscan⟩
    exact ⟨hcheck, hscan⟩
  · rintro ⟨hcheck, hscan⟩
    exact ⟨(), hcheck, hscan⟩

theorem carve_spec (h : carve platform job limits startOffset = .ok result) :
    RangesOutcome platform job startOffset job.ranges result.stop
      result.candidates := by
  obtain ⟨hcheck, scan, hscan, rfl⟩ := carve_eq_ok_iff.mp h
  obtain ⟨⟨reported, hcandidates, houtcome⟩, -, -⟩ :=
    scanRanges_spec (checkArguments_eq_ok hcheck).1 rfl
      (fun l _ => Nat.zero_le _) hscan
  rw [finish_stop, finish_candidates, hcandidates]
  exact houtcome

theorem carve_progress (hranges : Ascending job.ranges)
    (h : carve platform job limits startOffset = .ok result)
    (hstop : result.stop = some stop)
    (hscan : ∀ first last cursor, stop = .scanBudget first last cursor →
      16 < limits.maxScanBytes) : startOffset < stop.nextOffset := by
  obtain ⟨hcheck, scan, hrun, rfl⟩ := carve_eq_ok_iff.mp h
  rw [finish_stop] at hstop
  refine scanRanges_progress (checkArguments_eq_ok hcheck).1 hranges rfl
    (fun l _ => Nat.zero_le _) (Or.inl ⟨rfl, rfl⟩) hrun hstop ?_
  intro first last cursor heq l hl
  obtain rfl : limits = l := Option.some.inj hl
  exact hscan first last cursor heq

theorem carveUnlimited_spec (hfile : 0 < job.maxFileBytes) {whole : Scan}
    (h : carveUnlimited platform job = .ok whole) :
    whole.candidates = allFrom platform job 0 job.ranges ∧
      ((allFrom platform job 0 job.ranges).map Candidate.key).Nodup := by
  unfold carveUnlimited at h
  obtain ⟨scan, hscan, h⟩ := bind_ok h
  obtain rfl := Except.ok.inj h
  obtain ⟨⟨reported, hcandidates, houtcome⟩, hlimited, hunique⟩ :=
    scanRanges_spec hfile rfl (fun l hl => by simp at hl) hscan
  have hnone : scan.stop = none := by
    rcases Option.eq_none_or_eq_some scan.stop with hnone | ⟨stop, hsome⟩
    · exact hnone
    · exact Bool.noConfusion (hlimited (by rw [hsome]; rfl))
  have hall : scan.candidates = allFrom platform job 0 job.ranges := by
    rw [hcandidates]
    rw [hnone] at houtcome
    cases houtcome
    rfl
  rw [finish_candidates, ← hall]
  exact ⟨rfl, hunique List.nodup_nil⟩

theorem allFrom_sublist {high : ℕ} (h : low ≤ high) (ranges : List (ℕ × ℕ)) :
    (allFrom platform job high ranges).Sublist
      (allFrom platform job low ranges) := by
  induction ranges with
  | nil => exact List.Sublist.refl _
  | cons range ranges ih =>
      refine List.Sublist.append ?_ ih
      have hsplit := marks_split job (max_le_max_left range.1 h)
        (min (range.1 + range.2) job.reader.size)
      rw [candidatesFrom, candidatesFrom]
      refine List.Sublist.filterMap _ ?_
      rw [hsplit]
      exact List.sublist_append_right _ _

theorem carve_total (hcheck : checkArguments platform job limits = .ok ())
    (hnodup : ((allFrom platform job 0 job.ranges).map Candidate.key).Nodup)
    (startOffset : ℕ) :
    ∃ result, carve platform job limits startOffset = .ok result := by
  have hfrom : ((([] : List Candidate) ++
      allFrom platform job startOffset job.ranges).map Candidate.key).Nodup :=
    hnodup.sublist ((allFrom_sublist (Nat.zero_le _) job.ranges).map _)
  obtain ⟨scan, hscan⟩ : ∃ scan, scanRanges platform job (some limits)
      startOffset job.ranges {} = .ok scan :=
    scanRanges_total (checkArguments_eq_ok hcheck).1 rfl
      (fun l _ => Nat.zero_le _) hfrom
  exact ⟨finish scan, carve_eq_ok_iff.mpr ⟨hcheck, scan, hscan, rfl⟩⟩

/-! ## The bytes that are scanned again -/

/-- The candidates whose signature lies in the bytes that are scanned again
after a stop. -/
def scannedAgain (platform : Platform) (job : Job) : Stop → List Candidate
  | .scanBudget rangeStart rangeEnd cursor =>
      (marks job (max rangeStart (cursor - 16)) cursor).filterMap
        (examine platform job rangeEnd)
  | .probeBudget _ => []
  | .results _ => []

theorem Stop.nextOffset_bounds {rangeStart : ℕ} {part : List Candidate}
    (hlow : rangeStart ≤ low)
    (h : RangeStopped platform job low rangeStart rangeEnd stop part) :
    rangeStart ≤ stop.nextOffset ∧ stop.nextOffset ≤ rangeEnd := by
  cases h with
  | scanBudget cursor hle hend =>
      simp only [Stop.nextOffset]
      omega
  | probeBudget absolute hle hend =>
      simp only [Stop.nextOffset]
      omega
  | results absolute hle hend =>
      simp only [Stop.nextOffset]
      omega

/-- What a stopped range has reported, and what it reports from the resume
offset on, are its candidates and those scanned again. -/
theorem part_eq {rangeStart : ℕ} {part : List Candidate}
    (h : RangeStopped platform job low rangeStart rangeEnd stop part)
    (hrange : rangeStart ≤ low) (hnext : low ≤ stop.nextOffset) :
    ∃ front, part = front ++ scannedAgain platform job stop ∧
      front ++ (marks job stop.nextOffset rangeEnd).filterMap
          (examine platform job rangeEnd) =
        (marks job low rangeEnd).filterMap (examine platform job rangeEnd) := by
  refine ⟨((marks job low rangeEnd).filter fun hit =>
    hit.offset < stop.nextOffset).filterMap (examine platform job rangeEnd),
    ?_, ?_⟩
  · cases h with
    | scanBudget cursor hlow hend =>
        set next := (Stop.scanBudget rangeStart rangeEnd cursor).nextOffset
          with hdef
        have hvalue : next = max rangeStart (cursor - 16) := rfl
        have hfront : (marks job low cursor).filter (fun hit =>
              hit.offset < next) =
            (marks job low rangeEnd).filter (fun hit => hit.offset < next) := by
          refine eq_of_mem_iff ((marks_pairwise _ _ _).filter _)
            ((marks_pairwise _ _ _).filter _) fun hit => ?_
          have hlength := signature_length_le hit.kind
          simp only [List.mem_filter, mem_marks, decide_eq_true_eq,
            Hit.endOffset]
          constructor
          · rintro ⟨⟨hmark, hle, hhigh⟩, hcut⟩
            exact ⟨⟨hmark, hle, by omega⟩, hcut⟩
          · rintro ⟨⟨hmark, hle, hhigh⟩, hcut⟩
            exact ⟨⟨hmark, hle, by omega⟩, hcut⟩
        rw [← hfront]
        conv_lhs => rw [marks_split job hnext cursor]
        rw [List.filterMap_append]
        rfl
    | probeBudget absolute hlow hend => exact (List.append_nil _).symm
    | results absolute hlow hend => exact (List.append_nil _).symm
  · conv_rhs => rw [marks_split job hnext rangeEnd]
    rw [List.filterMap_append]

/-- A stopped call reports the candidates before its resume offset, and then
those whose signature will be scanned again. -/
theorem carve_split (hranges : Ascending job.ranges)
    (h : carve platform job limits startOffset = .ok result)
    (hstop : result.stop = some stop) (hnext : startOffset < stop.nextOffset) :
    ∃ front, result.candidates = front ++ scannedAgain platform job stop ∧
      front ++ allFrom platform job stop.nextOffset job.ranges =
        allFrom platform job startOffset job.ranges := by
  have houtcome := carve_spec h
  rw [hstop] at houtcome
  generalize result.candidates = reported at houtcome
  cases houtcome with
  | stopped before after range _ part hsplit hstopped =>
      have hmax : range.1 ≤ max range.1 startOffset := le_max_left _ _
      obtain ⟨hlow, hhigh⟩ := Stop.nextOffset_bounds hmax hstopped
      obtain ⟨front, rfl, hrange⟩ := part_eq hstopped hmax (by omega)
      rw [hsplit] at hranges
      obtain ⟨-, hafter, hbefore⟩ := List.pairwise_append.mp hranges
      -- ranges before the stop end before the resume offset
      have hdone : allFrom platform job stop.nextOffset before = [] := by
        rw [allFrom, List.flatMap_eq_nil_iff]
        intro x hx
        have := hbefore x hx range List.mem_cons_self
        exact candidatesFrom_of_le (by omega)
      -- and ranges after it start behind it
      have hlater : allFrom platform job stop.nextOffset after =
          allFrom platform job startOffset after := by
        refine List.flatMap_congr fun x hx => ?_
        have := (List.pairwise_cons.mp hafter).1 x hx
        rw [candidatesFrom, candidatesFrom,
          show max x.1 stop.nextOffset = max x.1 startOffset by omega]
      have hhere : candidatesFrom platform job stop.nextOffset range =
          (marks job stop.nextOffset
            (min (range.1 + range.2) job.reader.size)).filterMap
              (examine platform job
                (min (range.1 + range.2) job.reader.size)) := by
        rw [candidatesFrom, max_eq_right hlow]
      refine ⟨allFrom platform job startOffset before ++ front,
        (List.append_assoc _ _ _).symm, ?_⟩
      have hunfold (offset : ℕ) : allFrom platform job offset job.ranges =
          allFrom platform job offset before ++
            (candidatesFrom platform job offset range ++
              allFrom platform job offset after) := by
        rw [hsplit, allFrom, List.flatMap_append, List.flatMap_cons]
        rfl
      rw [hunfold, hunfold, hdone, hlater, hhere, List.nil_append,
        List.append_assoc, ← List.append_assoc front, hrange]
      rfl

/-! ## Repeated calls -/

/-- The call from one offset stops and returns the other. -/
def Resumes (platform : Platform) (job : Job) (limits : Limits)
    (startOffset next : ℕ) : Prop :=
  ∃ result stop, carve platform job limits startOffset = .ok result ∧
    result.stop = some stop ∧ next = stop.nextOffset

/-- The calls from an offset on, until one is complete. -/
inductive Calls (platform : Platform) (job : Job) (limits : Limits) :
    ℕ → List Scan → Prop
  | last {startOffset : ℕ} {result : Scan}
      (hcall : carve platform job limits startOffset = .ok result)
      (hcomplete : result.stop = none) :
      Calls platform job limits startOffset [result]
  | resume {startOffset : ℕ} {result : Scan} {stop : Stop}
      {calls : List Scan}
      (hcall : carve platform job limits startOffset = .ok result)
      (hstop : result.stop = some stop)
      (hrest : Calls platform job limits stop.nextOffset calls) :
      Calls platform job limits startOffset (result :: calls)

/-- The calls come to an end and report the candidates of the whole scan,
each once. -/
def ResumeLaw (platform : Platform) (job : Job) (limits : Limits)
    (whole : Scan) : Prop :=
  ∃ calls, Calls platform job limits 0 calls ∧
    (calls.flatMap Scan.candidates).Perm whole.candidates

/-- A stop out of scan budget is behind the start of the call, and no
candidate's signature lies in the bytes that are scanned again. -/
def CleanStop (platform : Platform) (job : Job) (startOffset : ℕ) :
    Stop → Prop
  | .scanBudget rangeStart rangeEnd cursor =>
      startOffset < max rangeStart (cursor - 16) ∧
        ∀ hit, IsMark job hit → max rangeStart (cursor - 16) ≤ hit.offset →
          hit.endOffset ≤ cursor → examine platform job rangeEnd hit = none
  | .probeBudget _ => True
  | .results _ => True

/-- Every call made from an offset on stops cleanly. -/
def CleanFrom (platform : Platform) (job : Job) (limits : Limits)
    (startOffset : ℕ) : Prop :=
  ∀ offset, Relation.ReflTransGen (Resumes platform job limits) startOffset
      offset →
    ∀ result stop, carve platform job limits offset = .ok result →
      result.stop = some stop → CleanStop platform job offset stop

theorem scannedAgain_eq_nil_iff (hnext : startOffset < stop.nextOffset) :
    scannedAgain platform job stop = [] ↔
      CleanStop platform job startOffset stop := by
  cases stop with
  | scanBudget rangeStart rangeEnd cursor =>
      simp only [scannedAgain, CleanStop, List.filterMap_eq_nil_iff, mem_marks]
      constructor
      · intro h
        exact ⟨hnext, fun hit hmark hle hend => h hit ⟨hmark, hle, hend⟩⟩
      · rintro ⟨-, h⟩ hit ⟨hmark, hle, hend⟩
        exact h hit hmark hle hend
  | probeBudget absolute => simp [scannedAgain, CleanStop]
  | results absolute => simp [scannedAgain, CleanStop]

theorem CleanStop.next_lt (hranges : Ascending job.ranges)
    (h : carve platform job limits startOffset = .ok result)
    (hstop : result.stop = some stop)
    (hclean : CleanStop platform job startOffset stop) :
    startOffset < stop.nextOffset := by
  cases stop with
  | scanBudget rangeStart rangeEnd cursor => exact hclean.1
  | probeBudget absolute =>
      exact carve_progress hranges h hstop fun _ _ _ h => Stop.noConfusion h
  | results absolute =>
      exact carve_progress hranges h hstop fun _ _ _ h => Stop.noConfusion h

theorem nextOffset_le (h : carve platform job limits startOffset = .ok result)
    (hstop : result.stop = some stop) : stop.nextOffset ≤ job.reader.size := by
  have houtcome := carve_spec h
  rw [hstop] at houtcome
  generalize result.candidates = reported at houtcome
  cases houtcome with
  | stopped before after range _ part hsplit hstopped =>
      exact (Stop.nextOffset_bounds (le_max_left _ _) hstopped).2.trans
        (min_le_right _ _)

theorem exists_calls (hcheck : checkArguments platform job limits = .ok ())
    (hnodup : ((allFrom platform job 0 job.ranges).map Candidate.key).Nodup)
    (hranges : Ascending job.ranges)
    (hclean : CleanFrom platform job limits startOffset) :
    ∃ calls, Calls platform job limits startOffset calls ∧
      calls.flatMap Scan.candidates =
        allFrom platform job startOffset job.ranges := by
  induction hleft : job.reader.size - startOffset using
    Nat.strong_induction_on generalizing startOffset with
  | _ left ih =>
    subst hleft
    obtain ⟨result, hcall⟩ := carve_total hcheck hnodup startOffset
    rcases Option.eq_none_or_eq_some result.stop with hnone | ⟨stop, hstop⟩
    · refine ⟨[result], .last hcall hnone, ?_⟩
      have houtcome := carve_spec hcall
      rw [hnone] at houtcome
      generalize hreported : result.candidates = reported at houtcome
      cases houtcome
      simp [hreported]
    · have hstopClean := hclean startOffset .refl result stop hcall hstop
      have hnext := hstopClean.next_lt hranges hcall hstop
      have hsize := nextOffset_le hcall hstop
      have hcleanNext : CleanFrom platform job limits stop.nextOffset := by
        intro offset hreach
        exact hclean offset (.head ⟨result, stop, hcall, hstop, rfl⟩ hreach)
      obtain ⟨calls, hcalls, hrest⟩ := ih _ (by omega) hcleanNext rfl
      obtain ⟨front, hfront, hall⟩ := carve_split hranges hcall hstop hnext
      refine ⟨result :: calls, .resume hcall hstop hcalls, ?_⟩
      rw [List.flatMap_cons, hrest, hfront,
        (scannedAgain_eq_nil_iff hnext).mpr hstopClean, List.append_nil, hall]

/-- Calls that come to an end report at least the candidates from their start
on, and more unless they all stop cleanly. -/
theorem length_calls (hranges : Ascending job.ranges)
    (hbudget : 16 < limits.maxScanBytes) {calls : List Scan}
    (hcalls : Calls platform job limits startOffset calls) :
    (allFrom platform job startOffset job.ranges).length ≤
        (calls.flatMap Scan.candidates).length ∧
      ((calls.flatMap Scan.candidates).length =
          (allFrom platform job startOffset job.ranges).length →
        CleanFrom platform job limits startOffset) := by
  induction hcalls with
  | @last startOffset result hcall hcomplete =>
      have houtcome := carve_spec hcall
      rw [hcomplete] at houtcome
      generalize hreported : result.candidates = reported at houtcome
      cases houtcome
      refine ⟨by simp [hreported], fun _ offset hreach other stop hother hstop => ?_⟩
      rcases Relation.ReflTransGen.cases_head hreach with rfl | ⟨next, hnext, -⟩
      · obtain rfl := Except.ok.inj (hcall.symm.trans hother)
        simp [hcomplete] at hstop
      · obtain ⟨other', stop', hother', hstop', -⟩ := hnext
        obtain rfl := Except.ok.inj (hcall.symm.trans hother')
        simp [hcomplete] at hstop'
  | @resume startOffset result stop calls hcall hstop hrest ih =>
      have hnext := carve_progress hranges hcall hstop fun _ _ _ _ => hbudget
      obtain ⟨front, hfront, hall⟩ := carve_split hranges hcall hstop hnext
      have hlength : (allFrom platform job startOffset job.ranges).length =
          front.length +
            (allFrom platform job stop.nextOffset job.ranges).length := by
        rw [← hall, List.length_append]
      have hreported : ((result :: calls).flatMap Scan.candidates).length =
          front.length + (scannedAgain platform job stop).length +
            (calls.flatMap Scan.candidates).length := by
        rw [List.flatMap_cons, hfront, List.length_append, List.length_append]
      refine ⟨by omega, fun heq offset hreach other stop' hother hstop' => ?_⟩
      have hempty : scannedAgain platform job stop = [] :=
        List.length_eq_zero_iff.mp (by omega)
      rcases Relation.ReflTransGen.cases_head hreach with
        rfl | ⟨next, ⟨first, stop'', hfirst, hstop'', rfl⟩, hreach⟩
      · obtain rfl := Except.ok.inj (hcall.symm.trans hother)
        obtain rfl := Option.some.inj (hstop.symm.trans hstop')
        exact (scannedAgain_eq_nil_iff hnext).mp hempty
      · obtain rfl := Except.ok.inj (hcall.symm.trans hfirst)
        obtain rfl := Option.some.inj (hstop.symm.trans hstop'')
        exact ih.2 (by omega) offset hreach other stop' hother hstop'

/-- Repeated calls report the candidates of the whole scan, each once, when
the first one is complete, or when the ranges follow one another and every
call stops cleanly.  Over such ranges, with a scan budget of more than the
bytes that are scanned again, they do so only then. -/
theorem carve_resumes (platform : Platform) (job : Job) (limits : Limits)
    (hcheck : checkArguments platform job limits = .ok ()) (whole : Scan)
    (hwhole : carveUnlimited platform job = .ok whole) :
    (((∃ result, carve platform job limits 0 = .ok result ∧
          result.stop = none) ∨
        (Ascending job.ranges ∧ CleanFrom platform job limits 0)) →
      ResumeLaw platform job limits whole) ∧
    (Ascending job.ranges → 16 < limits.maxScanBytes →
      ResumeLaw platform job limits whole →
        CleanFrom platform job limits 0) := by
  obtain ⟨hall, hnodup⟩ :=
    carveUnlimited_spec (checkArguments_eq_ok hcheck).1 hwhole
  refine ⟨?_, ?_⟩
  · rintro (⟨result, hcall, hcomplete⟩ | ⟨hranges, hclean⟩)
    · refine ⟨[result], .last hcall hcomplete, ?_⟩
      have houtcome := carve_spec hcall
      rw [hcomplete] at houtcome
      generalize hreported : result.candidates = reported at houtcome
      cases houtcome
      simp [hreported, hall]
    · obtain ⟨calls, hcalls, hreported⟩ :=
        exists_calls hcheck hnodup hranges hclean
      exact ⟨calls, hcalls, by rw [hreported, hall]⟩
  · rintro hranges hbudget ⟨calls, hcalls, hperm⟩
    apply (length_calls hranges hbudget hcalls).2
    rw [hperm.length_eq, hall]

end Call

/-! ## A document in a small image -/

/-- Forty bytes with a document of thirteen bytes at offset five. -/
def documentImage : Partitions.Reader where
  readerId := "raw"
  readerVersion := "1"
  content := fun i => ([0, 0, 0, 0, 0, 0x25, 0x50, 0x44, 0x46, 0x2D, 0x6F,
    0x62, 0x6A, 0x25, 0x25, 0x45, 0x4F, 0x46] : List UInt8).getD i 0
  size := 40
  sectorSize := 1
  size_lt := by decide
  sectorSize_pos := by decide
  sectorSize_lt := by decide

def documentJob : Job where
  reader := documentImage
  ranges := [(0, 40)]
  formats := [.pdf, .zip]
  maxFileBytes := 1024

def plainPlatform : Platform where
  verify := fun _ => false
  sha256 := fun _ => ""
  pillow := false

def documentLimits (maxScanBytes : ℕ) : Limits where
  maxScanBytes := maxScanBytes
  maxResults := 10

theorem checkArguments_document {maxScanBytes : ℕ} (hpos : 1 ≤ maxScanBytes)
    (hle : maxScanBytes ≤ 1024 ^ 4) :
    checkArguments plainPlatform documentJob (documentLimits maxScanBytes) =
      .ok () := by
  rw [checkArguments, if_neg, if_neg]
  · decide
  · simp only [documentJob, documentLimits, not_or, not_not]
    exact ⟨by decide, ⟨hpos, hle⟩, by decide, by decide⟩

theorem exists_carve_eq {limits : Limits} {stop : Option Stop}
    (h : ((carve plainPlatform documentJob limits startOffset).toOption.map
      Scan.stop) = some stop) :
    ∃ result, carve plainPlatform documentJob limits startOffset =
      .ok result ∧ result.stop = stop := by
  cases hcall : carve plainPlatform documentJob limits startOffset with
  | error e => simp [hcall, Except.toOption] at h
  | ok result => exact ⟨result, rfl, by simpa [hcall, Except.toOption] using h⟩

theorem document_20 :
    ((carve plainPlatform documentJob (documentLimits 20) 0).toOption.map
      Scan.stop) = some (some (.scanBudget 0 40 20)) := by
  decide +kernel

theorem document_30 :
    ((carve plainPlatform documentJob (documentLimits 30) 0).toOption.map
      Scan.stop) = some (some (.scanBudget 0 40 30)) ∧
    ((carve plainPlatform documentJob (documentLimits 30) 14).toOption.map
      Scan.stop) = some none := by
  decide +kernel

theorem exists_carveUnlimited_document :
    ∃ whole, carveUnlimited plainPlatform documentJob = .ok whole := by
  have h : (carveUnlimited plainPlatform documentJob).toOption.isSome := by
    decide +kernel
  cases hwhole : carveUnlimited plainPlatform documentJob with
  | error e => simp [hwhole, Except.toOption] at h
  | ok whole => exact ⟨whole, rfl⟩

theorem ascending_document : Ascending documentJob.ranges :=
  List.pairwise_singleton _ _

theorem cleanFrom_document :
    CleanFrom plainPlatform documentJob (documentLimits 30) 0 := by
  obtain ⟨first, hfirst, hfirstStop⟩ := exists_carve_eq document_30.1
  obtain ⟨second, hsecond, hsecondStop⟩ := exists_carve_eq document_30.2
  intro offset hreach result stop hcall hstop
  have hoffset : offset = 0 ∨ offset = 14 := by
    clear hcall hstop
    induction hreach with
    | refl => exact Or.inl rfl
    | tail _ hstep ih =>
        obtain ⟨other, stop', hother, hstop', rfl⟩ := hstep
        rcases ih with rfl | rfl
        · obtain rfl := Except.ok.inj (hfirst.symm.trans hother)
          obtain rfl := Option.some.inj (hfirstStop.symm.trans hstop')
          exact Or.inr rfl
        · obtain rfl := Except.ok.inj (hsecond.symm.trans hother)
          simp [hsecondStop] at hstop'
  rcases hoffset with rfl | rfl
  · obtain rfl := Except.ok.inj (hfirst.symm.trans hcall)
    obtain rfl := Option.some.inj (hfirstStop.symm.trans hstop)
    refine (scannedAgain_eq_nil_iff (by decide)).mp ?_
    decide +kernel
  · obtain rfl := Except.ok.inj (hsecond.symm.trans hcall)
    simp [hsecondStop] at hstop

/-- A document in the middle of the scanned bytes is reported by one of two
calls. -/
theorem carve_resumes_document :
    ∃ whole, carveUnlimited plainPlatform documentJob = .ok whole ∧
      ResumeLaw plainPlatform documentJob (documentLimits 30) whole := by
  obtain ⟨whole, hwhole⟩ := exists_carveUnlimited_document
  exact ⟨whole, hwhole, (carve_resumes plainPlatform documentJob
    (documentLimits 30)
    (checkArguments_document (by decide) (by decide)) whole hwhole).1
    (Or.inr ⟨ascending_document, cleanFrom_document⟩)⟩

/-- With a scan budget of 20 the first call resumes before the document it has
reported. -/
theorem carve_reports_twice :
    checkArguments plainPlatform documentJob (documentLimits 20) = .ok () ∧
      ∃ whole, carveUnlimited plainPlatform documentJob = .ok whole ∧
        ¬ ResumeLaw plainPlatform documentJob (documentLimits 20) whole := by
  refine ⟨checkArguments_document (by decide) (by decide), ?_⟩
  obtain ⟨whole, hwhole⟩ := exists_carveUnlimited_document
  refine ⟨whole, hwhole, ?_⟩
  rintro ⟨calls, hcalls, hperm⟩
  have hall := (carveUnlimited_spec (by decide) hwhole).1
  have hclean := (length_calls ascending_document (by decide) hcalls).2
    (by rw [hperm.length_eq, hall])
  obtain ⟨result, hcall, hstop⟩ := exists_carve_eq document_20
  have hnone := (hclean 0 .refl result _ hcall hstop).2 ⟨5, .pdf⟩
    ⟨by decide, by decide +kernel⟩ (by decide) (by decide)
  revert hnone
  decide +kernel

end ApexForensic.Carving
