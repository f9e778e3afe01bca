import ApexForensic.Domain.Table
import ApexForensic.Support.Run
import ApexForensic.Support.SlidingWindow
import Mathlib.Data.List.DropRight
import Mathlib.Data.Rat.Floor

/-!
# The rate limiter of the HTTP transport

Requests are counted in one bucket for each client address, and in one shared
bucket while the table of buckets is full.  A client that was counted in the
shared bucket gets a bucket of its own once the table has room again, so its
windows are limited for each of the two buckets.
-/

namespace ApexForensic.Mcp

open ApexForensic.Support ApexForensic.Domain

variable {n : ℕ} {key : String}

/-! ## The middleware -/

/-- `_MAX_BUCKETS`. -/
def maxBuckets : ℕ := 4096

def overflowKey : String := "overflow"

/-- The times of the requests that were counted under a key. -/
structure ClientBucket where
  key : String
  times : List ℚ
  deriving DecidableEq

abbrev BucketTable :=
  Table ClientBucket.key

/-- `HttpRateLimitMiddleware`, with the hexadecimal digest of a text. -/
structure RateLimiter where
  hexdigest : String → String
  maxRequests : ℕ
  windowSeconds : ℚ

inductive RateOutcome where
  | passed
  | limited (retryAfter : ℤ)
  | indexError
  deriving DecidableEq

/-- `_key`. -/
def RateLimiter.clientKey (L : RateLimiter) (client : Option String) :
    String :=
  L.hexdigest (client.getD "unknown")

/-- The times that have not passed the threshold. -/
def ClientBucket.expire (threshold : ℚ) (bucket : ClientBucket) :
    ClientBucket :=
  { bucket with times := bucket.times.dropWhile (· ≤ threshold) }

theorem key_expire (threshold : ℚ) (bucket : ClientBucket) :
    (bucket.expire threshold).key = bucket.key := rfl

/-- The buckets without their expired times, and without the empty ones. -/
def evict (threshold : ℚ) (requests : BucketTable) : BucketTable :=
  (requests.update (fun _ => true) (ClientBucket.expire threshold)
    (key_expire threshold)).filter fun bucket => bucket.times ≠ []

/-- The table has no bucket for the key, and no room. -/
def LacksRoom (key : String) (requests : BucketTable) : Prop :=
  requests.find? key = none ∧ maxBuckets ≤ requests.rows.length

instance (key : String) (requests : BucketTable) :
    Decidable (LacksRoom key requests) :=
  inferInstanceAs (Decidable (_ ∧ _))

/-- The buckets after an eviction, when there was no room for the key. -/
def makeRoom (key : String) (threshold : ℚ) (requests : BucketTable) :
    BucketTable :=
  if LacksRoom key requests then evict threshold requests else requests

/-- The times in the bucket of a key; a new bucket is empty. -/
def bucketTimes (requests : BucketTable) (key : String) : List ℚ :=
  ((requests.find? key).map ClientBucket.times).getD []

/-- `Retry-After`. -/
def retryAfterSeconds (retryAfter : ℚ) : ℤ :=
  max 1 ⌊retryAfter + 999 / 1000⌋

/-- `__call__` under the lock: whether the request is passed on, the key that
it was counted under, and the buckets. -/
def RateLimiter.call (L : RateLimiter) (client : Option String) (now : ℚ)
    (requests : BucketTable) : RateOutcome × String × BucketTable :=
  let threshold := now - L.windowSeconds
  let roomy := makeRoom (L.clientKey client) threshold requests
  let key :=
    if LacksRoom (L.clientKey client) roomy then overflowKey
    else L.clientKey client
  let times := (bucketTimes roomy key).dropWhile (· ≤ threshold)
  if L.maxRequests ≤ times.length then
    match times with
    | [] => (.indexError, key, roomy.put ⟨key, []⟩)
    | first :: rest =>
        let retryAfter := max 0 (L.windowSeconds - (now - first))
        if 0 < retryAfter then
          (.limited (retryAfterSeconds retryAfter), key,
            roomy.put ⟨key, first :: rest⟩)
        else (.passed, key, roomy.put ⟨key, first :: rest⟩)
  else (.passed, key, roomy.put ⟨key, times ++ [now]⟩)

/-! ## Runs -/

/-- A request, and the time since the one before it. -/
structure HttpRequest where
  client : Option String
  elapsed : ℚ≥0

structure Passed where
  client : Option String
  bucket : String
  time : ℚ

structure RateState where
  requests : BucketTable
  clock : ℚ
  log : List Passed

def RateState.initial : RateState where
  requests := Table.empty _
  clock := 0
  log := []

def RateLimiter.step (L : RateLimiter) (s : RateState) (request : HttpRequest) :
    RateState :=
  let now := s.clock + request.elapsed
  let (outcome, bucket, requests) := L.call request.client now s.requests
  { requests
    clock := now
    log :=
      if outcome = .passed then s.log ++ [⟨request.client, bucket, now⟩]
      else s.log }

/-! ## What one request does -/

section

variable {L : RateLimiter} {requests : BucketTable} {now threshold : ℚ}

open SlidingWindow

theorem bucketTimes_put (bucket : ClientBucket) (key : String) :
    bucketTimes (requests.put bucket) key =
      if bucket.key = key then bucket.times else bucketTimes requests key := by
  rw [bucketTimes, Table.find?_put]
  split
  · rfl
  · rfl

theorem bucketTimes_evict (key : String) :
    bucketTimes (evict threshold requests) key =
      (bucketTimes requests key).dropWhile (· ≤ threshold) := by
  rw [bucketTimes, bucketTimes, evict, Table.find?_filter, Table.find?_update]
  cases requests.find? key with
  | none => rfl
  | some bucket =>
      by_cases h : bucket.times.dropWhile (· ≤ threshold) = []
      · simp [ClientBucket.expire, Option.filter, h]
      · simp [ClientBucket.expire, Option.filter, h]

theorem bucketTimes_of_lacksRoom (h : LacksRoom key requests) :
    bucketTimes requests key = [] := by
  rw [bucketTimes, h.1]
  rfl

theorem bucketTimes_makeRoom (key key' : String) :
    bucketTimes (makeRoom key threshold requests) key' =
        bucketTimes requests key' ∨
      bucketTimes (makeRoom key threshold requests) key' =
        (bucketTimes requests key').dropWhile (· ≤ threshold) := by
  rw [makeRoom]
  split
  · exact Or.inr (bucketTimes_evict key')
  · exact Or.inl rfl

/-- What a request does to the buckets. -/
structure CallEffect (L : RateLimiter) (client : Option String) (now : ℚ)
    (requests : BucketTable) (outcome : RateOutcome) (key : String)
    (after : BucketTable) : Prop where
  place : key = L.clientKey client ∨ key = overflowKey ∧
    (bucketTimes requests (L.clientKey client)).dropWhile
      (· ≤ now - L.windowSeconds) = []
  others : ∀ key', key' ≠ key →
    bucketTimes after key' = bucketTimes requests key' ∨
      bucketTimes after key' = (bucketTimes requests key').dropWhile
        (· ≤ now - L.windowSeconds)
  passed : outcome = .passed →
    ((bucketTimes requests key).dropWhile
        (· ≤ now - L.windowSeconds)).length < L.maxRequests ∧
      bucketTimes after key = (bucketTimes requests key).dropWhile
        (· ≤ now - L.windowSeconds) ++ [now]
  refused : outcome ≠ .passed → bucketTimes after key =
    (bucketTimes requests key).dropWhile (· ≤ now - L.windowSeconds)

theorem dropWhile_dropWhile_le (times : List ℚ) :
    (times.dropWhile (· ≤ threshold)).dropWhile (· ≤ threshold) =
      times.dropWhile (· ≤ threshold) :=
  List.dropWhile_idempotent _ _

/-- The bucket of a request is expired before it is compared with the limit,
whether or not an eviction came before. -/
theorem dropWhile_bucketTimes_makeRoom (key key' : String) :
    (bucketTimes (makeRoom key threshold requests) key').dropWhile
        (· ≤ threshold) =
      (bucketTimes requests key').dropWhile (· ≤ threshold) := by
  rcases bucketTimes_makeRoom key key' with heq | heq
  · rw [heq]
  · rw [heq, dropWhile_dropWhile_le]

/-- A client is sent away only while its bucket holds a time of the window. -/
theorem retryAfter_pos {times : List ℚ} {first : ℚ} {rest : List ℚ}
    (h : times.dropWhile (· ≤ now - L.windowSeconds) = first :: rest) :
    0 < max 0 (L.windowSeconds - (now - first)) := by
  have hhead : ¬ first ≤ now - L.windowSeconds := by
    have hnot := List.head?_dropWhile_not (· ≤ now - L.windowSeconds) times
    rw [h] at hnot
    simpa using hnot
  exact lt_max_of_lt_right (by linarith)

theorem callEffect_call (L : RateLimiter) (client : Option String) (now : ℚ)
    (requests : BucketTable) :
    CallEffect L client now requests (L.call client now requests).1
      (L.call client now requests).2.1 (L.call client now requests).2.2 := by
  rw [RateLimiter.call]
  dsimp only
  generalize hkey : (if LacksRoom (L.clientKey client) (makeRoom
    (L.clientKey client) (now - L.windowSeconds) requests) then overflowKey
    else L.clientKey client) = key
  have hplace : key = L.clientKey client ∨ key = overflowKey ∧
      (bucketTimes requests (L.clientKey client)).dropWhile
        (· ≤ now - L.windowSeconds) = [] := by
    split at hkey
    · rename_i hfull
      refine Or.inr ⟨hkey.symm, ?_⟩
      rw [← dropWhile_bucketTimes_makeRoom (L.clientKey client),
        bucketTimes_of_lacksRoom hfull]
      rfl
    · exact Or.inl hkey.symm
  have hothers : ∀ times key', key' ≠ key →
      bucketTimes ((makeRoom (L.clientKey client) (now - L.windowSeconds)
          requests).put ⟨key, times⟩) key' = bucketTimes requests key' ∨
        bucketTimes ((makeRoom (L.clientKey client) (now - L.windowSeconds)
          requests).put ⟨key, times⟩) key' =
            (bucketTimes requests key').dropWhile
              (· ≤ now - L.windowSeconds) := by
    intro times key' hne
    rw [bucketTimes_put, if_neg hne.symm]
    exact bucketTimes_makeRoom _ _
  rw [dropWhile_bucketTimes_makeRoom]
  split
  · split
    · rename_i htimes
      refine ⟨hplace, hothers _, nofun, fun _ => ?_⟩
      rw [bucketTimes_put, if_pos rfl, htimes]
    · rename_i first rest htimes
      rw [if_pos (retryAfter_pos htimes)]
      refine ⟨hplace, hothers _, nofun, fun _ => ?_⟩
      rw [bucketTimes_put, if_pos rfl, htimes]
  · rename_i hroom
    refine ⟨hplace, hothers _, fun _ => ⟨not_le.mp hroom, ?_⟩,
      fun h => absurd rfl h⟩
    rw [bucketTimes_put, if_pos rfl]

/-! ## What holds after every request -/

/-- The times of the requests that were passed on under a key. -/
def timesOf (key : String) (log : List Passed) : List ℚ :=
  (log.filter fun a => a.bucket = key).map Passed.time

/-- The request was counted in the bucket of its client. -/
def Passed.Own (L : RateLimiter) (a : Passed) : Prop :=
  a.bucket = L.clientKey a.client

instance (L : RateLimiter) (a : Passed) : Decidable (a.Own L) :=
  inferInstanceAs (Decidable (_ = _))

/-- A client that is counted in its own bucket is not counted in the shared
one before the window has passed. -/
def OwnFirst (L : RateLimiter) (a b : Passed) : Prop :=
  b.client = a.client → a.Own L → ¬ b.Own L →
    a.time + L.windowSeconds ≤ b.time

structure RateInvariant (L : RateLimiter) (s : RateState) : Prop where
  tracked : ∀ key, Tracks L.windowSeconds s.clock (timesOf key s.log)
    (bucketTimes s.requests key)
  limited : ∀ key, Limited L.windowSeconds L.maxRequests (timesOf key s.log)
  places : ∀ a ∈ s.log, a.Own L ∨ a.bucket = overflowKey
  past : ∀ a ∈ s.log, a.time ≤ s.clock
  ordered : s.log.Pairwise fun a b => a.time ≤ b.time
  ownFirst : s.log.Pairwise (OwnFirst L)

theorem rateInvariant_initial (L : RateLimiter) :
    RateInvariant L RateState.initial where
  tracked _ := Tracks.self
  limited _ := limited_nil
  places := nofun
  past := nofun
  ordered := List.Pairwise.nil
  ownFirst := List.Pairwise.nil

theorem timesOf_concat (key : String) (log : List Passed) (a : Passed) :
    timesOf key (log ++ [a]) =
      timesOf key log ++ if a.bucket = key then [a.time] else [] := by
  rw [timesOf, List.filter_append, List.map_append, timesOf]
  congr 1
  by_cases h : a.bucket = key
  · simp [h]
  · simp [h]

theorem tracks_others {times : List ℚ} {after : BucketTable}
    (htracks : Tracks L.windowSeconds now times (bucketTimes requests key))
    (h : bucketTimes after key = bucketTimes requests key ∨
      bucketTimes after key = (bucketTimes requests key).dropWhile
        (· ≤ now - L.windowSeconds)) :
    Tracks L.windowSeconds now times (bucketTimes after key) := by
  rcases h with heq | heq
  · rw [heq]
    exact htracks
  · rw [heq]
    exact htracks.dropWhile

theorem RateInvariant.step {s : RateState} (h : RateInvariant L s)
    (request : HttpRequest) : RateInvariant L (L.step s request) := by
  rw [RateLimiter.step]
  dsimp only
  have heffect := callEffect_call L request.client (s.clock + request.elapsed)
    s.requests
  have hnow : s.clock ≤ s.clock + request.elapsed :=
    le_add_of_nonneg_right request.elapsed.2
  generalize s.clock + (request.elapsed : ℚ) = now at *
  generalize L.call request.client now s.requests = called at *
  obtain ⟨outcome, key, after⟩ := called
  dsimp only at heffect
  have htracked := fun key => (h.tracked key).later hnow
  by_cases hpassed : outcome = .passed
  swap
  · dsimp only
    rw [if_neg hpassed]
    refine ⟨fun key' => ?_, h.limited, h.places,
      fun a ha => (h.past a ha).trans hnow, h.ordered, h.ownFirst⟩
    by_cases hkey : key' = key
    · subst hkey
      exact tracks_others (htracked key') (Or.inr (heffect.refused hpassed))
    · exact tracks_others (htracked key') (heffect.others key' hkey)
  dsimp only
  rw [if_pos hpassed]
  obtain ⟨hroom, hbucket⟩ := heffect.passed hpassed
  refine ⟨fun key' => ?_, fun key' => ?_, ?_, ?_, ?_, ?_⟩
  · rw [timesOf_concat]
    by_cases hkey : key = key'
    · subst hkey
      rw [if_pos rfl]
      dsimp only at hbucket ⊢
      rw [hbucket]
      exact (htracked key).dropWhile.concat now
    · rw [if_neg hkey, List.append_nil]
      exact tracks_others (htracked key')
        (heffect.others key' fun heq => hkey heq.symm)
  · rw [timesOf_concat]
    by_cases hkey : key = key'
    · subst hkey
      rw [if_pos rfl]
      exact (h.limited key).concat_of_tracks (htracked key).dropWhile hroom
    · rw [if_neg hkey, List.append_nil]
      exact h.limited key'
  · intro a ha
    rcases List.mem_append.mp ha with hold | hnew
    · exact h.places a hold
    · rw [List.mem_singleton.mp hnew]
      rcases heffect.place with hown | ⟨hshared, -⟩
      · exact Or.inl hown
      · exact Or.inr hshared
  · intro a ha
    rcases List.mem_append.mp ha with hold | hnew
    · exact (h.past a hold).trans hnow
    · rw [List.mem_singleton.mp hnew]
  · refine List.pairwise_append.mpr ⟨h.ordered, List.pairwise_singleton _ _,
      fun a ha b hb => ?_⟩
    rw [List.mem_singleton.mp hb]
    exact (h.past a ha).trans hnow
  · refine List.pairwise_append.mpr ⟨h.ownFirst, List.pairwise_singleton _ _,
      fun a ha b hb hclient hown hshared => ?_⟩
    rw [List.mem_singleton.mp hb] at hclient hshared ⊢
    rcases heffect.place with hplace | ⟨-, hempty⟩
    · exact absurd hplace hshared
    -- the own bucket held no time of the window, so `a` had passed out of it
    have hgone := (htracked (L.clientKey request.client)).dropWhile
    rw [hempty] at hgone
    have hmem : a.time ∈ timesOf (L.clientKey request.client) s.log := by
      refine List.mem_map_of_mem (List.mem_filter.mpr ⟨ha, ?_⟩)
      rw [show request.client = a.client from hclient]
      exact decide_eq_true hown
    exact le_sub_iff_add_le.mp (hgone.le_of_nil _ hmem)

theorem rateInvariant_run (L : RateLimiter) (requests : List HttpRequest) :
    RateInvariant L (run L.step RateState.initial requests) :=
  run_invariant (fun _ request h => h.step request) (rateInvariant_initial L)
    requests

/-! ## Windows -/

/-- The requests of a client that were passed on in the window that one of
them opens. -/
def window (L : RateLimiter) (a : Passed) (later : List Passed) :
    List Passed :=
  (a :: later).filter fun b =>
    b.client = a.client ∧ b.time < a.time + L.windowSeconds

/-- How many requests a window can hold. -/
structure WindowBounded (L : RateLimiter) (a : Passed) (later : List Passed) :
    Prop where
  own : (window L a later).countP (·.Own L) ≤ L.maxRequests
  shared : (window L a later).countP (¬ ·.Own L) ≤ L.maxRequests
  shared_overflow : ∀ b ∈ window L a later, ¬ b.Own L →
    b.bucket = overflowKey
  opened_own : a.Own L → (window L a later).length ≤ L.maxRequests

/-- The requests of a window that were counted under one key are among the
times that the limiter recorded for it. -/
theorem RateInvariant.countP_window_le {s : RateState} (h : RateInvariant L s)
    {before later : List Passed} {a : Passed}
    (hlog : s.log = before ++ a :: later) {p : Passed → Bool}
    (hp : ∀ b ∈ window L a later, p b = true → b.bucket = key) :
    (window L a later).countP p ≤ L.maxRequests := by
  refine le_trans ?_ ((h.limited key).length_startingAt_le a.time)
  have hordered := h.ordered
  rw [hlog] at hordered
  obtain ⟨hlater, -⟩ :=
    List.pairwise_cons.mp (List.pairwise_append.mp hordered).2.1
  have hfrom : ∀ b ∈ a :: later, a.time ≤ b.time := by
    intro b hb
    rcases List.mem_cons.mp hb with rfl | hb
    · exact le_rfl
    · exact hlater b hb
  rw [startingAt, timesOf, hlog, List.filter_map, List.length_map,
    List.filter_filter, ← List.countP_eq_length_filter, List.countP_append,
    window, List.countP_filter]
  refine Nat.le_add_left_of_le (List.countP_mono_left fun b hb hcount => ?_)
  obtain ⟨hpb, hin⟩ := Bool.and_eq_true_iff.mp hcount
  have hwindow : b ∈ window L a later := List.mem_filter.mpr ⟨hb, hin⟩
  have htime := (of_decide_eq_true hin).2
  simp [hp b hwindow hpb, hfrom b hb, htime]

theorem RateInvariant.windowBounded {s : RateState} (h : RateInvariant L s)
    {before later : List Passed} {a : Passed}
    (hlog : s.log = before ++ a :: later) : WindowBounded L a later := by
  have hmem : ∀ b ∈ window L a later, b ∈ s.log := by
    intro b hb
    rw [hlog]
    exact List.mem_append_right _ (List.mem_of_mem_filter hb)
  have hclient : ∀ b ∈ window L a later, b.client = a.client := fun b hb =>
    (of_decide_eq_true (List.mem_filter.mp hb).2).1
  have hshared : ∀ b ∈ window L a later, ¬ b.Own L →
      b.bucket = overflowKey := fun b hb hnot =>
    (h.places b (hmem b hb)).resolve_left hnot
  have hown : (window L a later).countP (·.Own L) ≤ L.maxRequests := by
    have hbucket : ∀ b ∈ window L a later, decide (b.Own L) = true →
        b.bucket = L.clientKey a.client := by
      intro b hb howned
      rw [← hclient b hb]
      exact of_decide_eq_true howned
    exact h.countP_window_le hlog hbucket
  refine ⟨hown, ?_, hshared, fun hopened => ?_⟩
  · exact h.countP_window_le hlog fun b hb hnot =>
      hshared b hb (of_decide_eq_true hnot)
  · -- once counted in its own bucket, the client stays there for a window
    have hall : (window L a later).countP (·.Own L) =
        (window L a later).length := by
      rw [List.countP_eq_length]
      intro b hb
      have hordered := h.ownFirst
      rw [hlog] at hordered
      obtain ⟨hlater, -⟩ :=
        List.pairwise_cons.mp (List.pairwise_append.mp hordered).2.1
      rcases List.mem_cons.mp (List.mem_of_mem_filter hb) with rfl | hb'
      · exact decide_eq_true hopened
      · by_contra hnot
        have hfar := hlater b hb' (hclient b hb) hopened
          fun howned => hnot (decide_eq_true howned)
        exact absurd (of_decide_eq_true (List.mem_filter.mp hb).2).2
          (not_lt.mpr hfar)
    rwa [hall] at hown

/-- Every window that a request opens holds no more requests of its client
than the limit for the client's own bucket and for the shared bucket, and no
more than the limit at all when it was opened in the client's own bucket. -/
def WindowsBounded (L : RateLimiter) (log : List Passed) : Prop :=
  ∀ before a later, log = before ++ a :: later → WindowBounded L a later

theorem windowsBounded_run (L : RateLimiter) (requests : List HttpRequest) :
    WindowsBounded L (run L.step RateState.initial requests).log :=
  fun _ _ _ hlog => (rateInvariant_run L requests).windowBounded hlog

end

/-! ## A client that leaves the shared bucket -/

/-- Every window that a request opens holds no more requests of its client
than the limit. -/
def ClientLimited (L : RateLimiter) (log : List Passed) : Prop :=
  ∀ before a later, log = before ++ a :: later →
    (window L a later).length ≤ L.maxRequests

section

variable {L : RateLimiter} {requests : BucketTable} {now : ℚ}
  {client : Option String}

theorem rows_evict (threshold : ℚ) (requests : BucketTable) :
    (evict threshold requests).rows =
      (requests.rows.map (ClientBucket.expire threshold)).filter
        fun bucket => bucket.times ≠ [] := rfl

theorem bucketTimes_of_find?_eq_none (h : requests.find? key = none) :
    bucketTimes requests key = [] := by
  rw [bucketTimes, h]
  rfl

theorem call_of_room (hmax : 0 < L.maxRequests)
    (hnew : requests.find? (L.clientKey client) = none)
    (hroom : ¬ LacksRoom (L.clientKey client) requests) :
    L.call client now requests = (.passed, L.clientKey client,
      requests.put ⟨L.clientKey client, [now]⟩) := by
  have hmake : makeRoom (L.clientKey client) (now - L.windowSeconds)
      requests = requests := if_neg hroom
  rw [RateLimiter.call]
  dsimp only
  rw [hmake, if_neg hroom, bucketTimes_of_find?_eq_none hnew]
  exact if_neg (by simpa using hmax.ne')

theorem call_of_evicted (hmax : 0 < L.maxRequests)
    (hfull : LacksRoom (L.clientKey client) requests)
    (hroom : ¬ LacksRoom (L.clientKey client)
      (evict (now - L.windowSeconds) requests)) :
    L.call client now requests = (.passed, L.clientKey client,
      (evict (now - L.windowSeconds) requests).put
        ⟨L.clientKey client, [now]⟩) := by
  have hmake : makeRoom (L.clientKey client) (now - L.windowSeconds)
      requests = evict (now - L.windowSeconds) requests := if_pos hfull
  have hnew : bucketTimes (evict (now - L.windowSeconds) requests)
      (L.clientKey client) = [] := by
    rw [bucketTimes_evict, bucketTimes_of_lacksRoom hfull]
    rfl
  rw [RateLimiter.call]
  dsimp only
  rw [hmake, if_neg hroom, hnew]
  exact if_neg (by simpa using hmax.ne')

theorem call_of_lacksRoom (hmax : 0 < L.maxRequests)
    (hfull : LacksRoom (L.clientKey client) requests)
    (hlacks : LacksRoom (L.clientKey client)
      (evict (now - L.windowSeconds) requests))
    (hnew : requests.find? overflowKey = none) :
    L.call client now requests = (.passed, overflowKey,
      (evict (now - L.windowSeconds) requests).put ⟨overflowKey, [now]⟩) := by
  have hmake : makeRoom (L.clientKey client) (now - L.windowSeconds)
      requests = evict (now - L.windowSeconds) requests := if_pos hfull
  have hshared : bucketTimes (evict (now - L.windowSeconds) requests)
      overflowKey = [] := by
    rw [bucketTimes_evict, bucketTimes_of_find?_eq_none hnew]
    rfl
  rw [RateLimiter.call]
  dsimp only
  rw [hmake, if_pos hlacks, hshared]
  exact if_neg (by simpa using hmax.ne')

end

/-- One request in a minute; the texts stand for their own digests. -/
def oneInAMinute : RateLimiter where
  hexdigest text := text
  maxRequests := 1
  windowSeconds := 60

def clientName (n : ℕ) : String :=
  String.ofList (List.replicate n 'a')

theorem clientName_injective : Function.Injective clientName := by
  intro m n h
  have hlength := congrArg String.length h
  rwa [clientName, clientName, String.length_ofList, String.length_ofList,
    List.length_replicate, List.length_replicate] at hlength

def manyClients (n : ℕ) : List HttpRequest :=
  (List.range n).map fun i => ⟨some (clientName i), 0⟩

def manyBuckets (n : ℕ) : List ClientBucket :=
  (List.range n).map fun i => ⟨clientName i, [0]⟩

theorem find?_eq_none_of_rows {requests : BucketTable}
    (hrows : requests.rows = manyBuckets n) (hkey : ∀ i < n, clientName i ≠ key)
    : requests.find? key = none := by
  rw [Table.find?_eq_none_iff, hrows, manyBuckets, List.map_map]
  intro hmem
  obtain ⟨i, hi, rfl⟩ := List.mem_map.mp hmem
  exact hkey i (List.mem_range.mp hi) rfl

theorem run_manyClients (hn : n ≤ maxBuckets) :
    let s := run oneInAMinute.step RateState.initial (manyClients n)
    s.requests.rows = manyBuckets n ∧ s.clock = 0 := by
  induction n with
  | zero => exact ⟨rfl, rfl⟩
  | succ n ih =>
      obtain ⟨hrows, hclock⟩ := ih (Nat.le_of_succ_le hn)
      have hrun : run oneInAMinute.step RateState.initial
          (manyClients (n + 1)) =
          oneInAMinute.step (run oneInAMinute.step RateState.initial
            (manyClients n)) ⟨some (clientName n), 0⟩ := by
        rw [manyClients, List.range_succ, List.map_append, List.map_singleton,
          run_concat, manyClients]
      have hnew : (run oneInAMinute.step RateState.initial
          (manyClients n)).requests.find?
            (oneInAMinute.clientKey (some (clientName n))) = none :=
        find?_eq_none_of_rows hrows fun i hi heq =>
          hi.ne (clientName_injective heq)
      have hroom : ¬ LacksRoom (oneInAMinute.clientKey
          (some (clientName n))) (run oneInAMinute.step RateState.initial
            (manyClients n)).requests := by
        rintro ⟨-, hlength⟩
        rw [hrows, manyBuckets, List.length_map, List.length_range] at hlength
        omega
      rw [hrun, RateLimiter.step]
      dsimp only
      rw [call_of_room Nat.one_pos hnew hroom, hclock]
      refine ⟨?_, by simp⟩
      rw [Table.rows_put_of_find?_eq_none hnew, hrows, manyBuckets,
        manyBuckets, List.range_succ, List.map_append]
      simp [RateLimiter.clientKey, oneInAMinute]

theorem rows_evict_of_early {requests : BucketTable} {threshold : ℚ}
    (hrows : requests.rows = manyBuckets n) (hneg : threshold < 0) :
    (evict threshold requests).rows = manyBuckets n := by
  rw [rows_evict, hrows, manyBuckets, List.map_map]
  have hkeep : ∀ i ∈ List.range n,
      (ClientBucket.expire threshold ∘ fun i => ⟨clientName i, [0]⟩) i =
        (⟨clientName i, [0]⟩ : ClientBucket) := by
    intro i _
    simp [ClientBucket.expire, hneg]
  rw [List.map_congr_left hkeep, List.filter_eq_self]
  intro bucket hbucket
  obtain ⟨i, -, rfl⟩ := List.mem_map.mp hbucket
  rfl

theorem rows_evict_of_late {requests : BucketTable}
    (hrows : requests.rows = manyBuckets n ++ [⟨overflowKey, [30]⟩]) :
    (evict 0 requests).rows = [⟨overflowKey, [30]⟩] := by
  have hnone : ((manyBuckets n).map (ClientBucket.expire 0)).filter
      (fun bucket => bucket.times ≠ []) = [] := by
    rw [manyBuckets, List.map_map, List.filter_eq_nil_iff]
    intro bucket hbucket
    obtain ⟨i, -, rfl⟩ := List.mem_map.mp hbucket
    simp [ClientBucket.expire]
  rw [rows_evict, hrows, List.map_append, List.filter_append, hnone]
  simp [ClientBucket.expire]

theorem clientName_ne {c : Char} (hmem : c ∈ key.toList) (hc : c ≠ 'a') (n : ℕ)
    : clientName n ≠ key := by
  rintro rfl
  rw [clientName, String.toList_ofList] at hmem
  exact hc (List.eq_of_mem_replicate hmem)

theorem lacksRoom_of_rows {requests : BucketTable} {c : Char}
    (hmem : c ∈ key.toList) (hc : c ≠ 'a') {more : List ClientBucket}
    (hmore : ∀ bucket ∈ more, bucket.key ≠ key)
    (hrows : requests.rows = manyBuckets maxBuckets ++ more) :
    LacksRoom key requests := by
  refine ⟨?_, ?_⟩
  · rw [Table.find?_eq_none_iff, hrows, List.map_append, List.mem_append]
    rintro (hfilled | hother)
    · rw [manyBuckets, List.map_map] at hfilled
      obtain ⟨i, -, hi⟩ := List.mem_map.mp hfilled
      exact clientName_ne hmem hc i hi
    · obtain ⟨bucket, hbucket, hkey⟩ := List.mem_map.mp hother
      exact hmore bucket hbucket hkey
  · rw [hrows, List.length_append, manyBuckets, List.length_map,
      List.length_range]
    exact Nat.le_add_right _ _

theorem call_of_full {requests : BucketTable}
    (hrows : requests.rows = manyBuckets maxBuckets) :
    ∃ after, oneInAMinute.call (some "b") 30 requests =
        (.passed, overflowKey, after) ∧
      after.rows = manyBuckets maxBuckets ++ [⟨overflowKey, [30]⟩] := by
  have hthreshold : (30 : ℚ) - oneInAMinute.windowSeconds = -30 := by
    norm_num [oneInAMinute]
  have hevicted : (evict (30 - oneInAMinute.windowSeconds) requests).rows =
      manyBuckets maxBuckets :=
    rows_evict_of_early hrows (by rw [hthreshold]; norm_num)
  have hnew : ∀ {requests : BucketTable},
      requests.rows = manyBuckets maxBuckets →
        requests.find? overflowKey = none := fun hrows =>
    (lacksRoom_of_rows (c := 'o') (by decide) (by decide)
      (fun _ h => absurd h List.not_mem_nil)
      (hrows.trans (List.append_nil _).symm)).1
  have hlacks : ∀ {requests : BucketTable},
      requests.rows = manyBuckets maxBuckets → LacksRoom "b" requests :=
    fun hrows => lacksRoom_of_rows (c := 'b') (by decide) (by decide)
      (fun _ h => absurd h List.not_mem_nil)
      (hrows.trans (List.append_nil _).symm)
  refine ⟨_, call_of_lacksRoom Nat.one_pos (hlacks hrows) (hlacks hevicted)
    (hnew hrows), ?_⟩
  rw [Table.rows_put_of_find?_eq_none (hnew hevicted), hevicted]

theorem call_of_freed {requests : BucketTable} (hrows : requests.rows =
      manyBuckets maxBuckets ++ [⟨overflowKey, [30]⟩]) :
    ∃ after, oneInAMinute.call (some "b") 60 requests =
      (.passed, "b", after) := by
  have hthreshold : (60 : ℚ) - oneInAMinute.windowSeconds = 0 := by
    norm_num [oneInAMinute]
  have hevicted : (evict (60 - oneInAMinute.windowSeconds) requests).rows =
      [⟨overflowKey, [30]⟩] := by
    rw [hthreshold]
    exact rows_evict_of_late hrows
  have hroom : ¬ LacksRoom "b"
      (evict (60 - oneInAMinute.windowSeconds) requests) := by
    rintro ⟨-, hlength⟩
    rw [hevicted] at hlength
    exact absurd hlength (by decide)
  refine ⟨_, call_of_evicted Nat.one_pos
    (lacksRoom_of_rows (c := 'b') (by decide) (by decide) ?_ hrows) hroom⟩
  intro bucket hbucket
  rw [List.mem_singleton.mp hbucket]
  exact (by decide : overflowKey ≠ "b")

/-- The table is full when a client comes first, so it is counted in the shared
bucket; half a minute later there is room, and it is counted in a bucket of
its own. -/
theorem client_passes_twice :
    ¬ ClientLimited oneInAMinute
      (run oneInAMinute.step RateState.initial
        (manyClients maxBuckets ++
          [⟨some "b", 30⟩, ⟨some "b", 30⟩])).log := by
  obtain ⟨hrows, hclock⟩ := run_manyClients le_rfl
  rw [run_append, run_cons, run_cons, run_nil]
  generalize run oneInAMinute.step RateState.initial
    (manyClients maxBuckets) = s at *
  obtain ⟨requests, clock, log⟩ := s
  dsimp only at hrows hclock
  subst hclock
  obtain ⟨full, hfirst, hfull⟩ := call_of_full hrows
  obtain ⟨freed, hsecond⟩ := call_of_freed hfull
  have hone : oneInAMinute.step ⟨requests, 0, log⟩ ⟨some "b", 30⟩ =
      ⟨full, 30, log ++ [⟨some "b", overflowKey, 30⟩]⟩ := by
    rw [RateLimiter.step]
    simp [hfirst]
  have htwo : (oneInAMinute.step ⟨full, 30, log ++
      [⟨some "b", overflowKey, 30⟩]⟩ ⟨some "b", 30⟩).log =
      log ++ ⟨some "b", overflowKey, 30⟩ :: [⟨some "b", "b", 60⟩] := by
    have hnow : (30 : ℚ) + 30 = 60 := by norm_num
    rw [RateLimiter.step]
    simp [hnow, hsecond]
  rw [hone, htwo]
  intro hlimited
  have hwindow := hlimited log _ _ rfl
  rw [window, List.filter_eq_self.mpr] at hwindow
  · exact absurd hwindow (by decide)
  · intro b hb
    rcases List.mem_cons.mp hb with rfl | hb
    · simp [oneInAMinute]
    · rw [List.mem_singleton.mp hb]
      simp [oneInAMinute]

end ApexForensic.Mcp
