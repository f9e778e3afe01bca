import ApexForensic.Auth.KeyCache

/-!
# What the key cache guarantees

The cached keys are always those of the last fetch that returned a key list.
A fetch of a stale cache that returns no key list leaves the cache stale, so
the next call fetches again: the number of fetches is bounded only where each
fetch of a stale cache returns a key list.
-/

namespace ApexForensic.Auth

open ApexForensic.Support ApexForensic.Domain

section

variable {L : TokenLibrary} {ttl : ℚ}

/-! ## One call -/

/-- What a call that fetches leaves of the cache. -/
structure Fetches (L : TokenLibrary) (ttl : ℚ) (call : VerifyCall)
    (cache : KeyCache) (fetch : Fetch) (cache' : KeyCache) : Prop where
  start : fetch.start = call.now
  response : fetch.response = call.response
  completedAt : fetch.completedAt = call.completedAt
  stale : fetch.stale = true ↔ ttl < call.now - cache.fetchedAt
  unknown : fetch.stale = false →
    unknownKidCooldown < call.now - cache.unknownKidFetchedAt ∧
      cache'.unknownKidFetchedAt = call.now
  keys : cache'.keys = (fetch.keyList L).getD cache.keys
  fetchedAt : cache'.fetchedAt =
    (fetch.keyList L).elim cache.fetchedAt fun _ => call.completedAt
  timer : cache'.unknownKidFetchedAt = cache.unknownKidFetchedAt ∨
    cache'.unknownKidFetchedAt = call.now

theorem fetchJwks_keys (fetch : Fetch) (cache : KeyCache) :
    (fetchJwks L fetch cache).keys = (fetch.keyList L).getD cache.keys := by
  rw [fetchJwks]
  cases fetch.keyList L with
  | none => rfl
  | some keys => rfl

theorem fetchJwks_fetchedAt (fetch : Fetch) (cache : KeyCache) :
    (fetchJwks L fetch cache).fetchedAt =
      (fetch.keyList L).elim cache.fetchedAt fun _ => fetch.completedAt := by
  rw [fetchJwks]
  cases fetch.keyList L with
  | none => rfl
  | some keys => rfl

theorem fetchJwks_timer (fetch : Fetch) (cache : KeyCache) :
    (fetchJwks L fetch cache).unknownKidFetchedAt =
      cache.unknownKidFetchedAt := by
  rw [fetchJwks]
  cases fetch.keyList L with
  | none => rfl
  | some keys => rfl

theorem resolveKey_cases (call : VerifyCall) (kid : Option String)
    (cache : KeyCache) :
    (∃ fetch, (resolveKey L ttl call kid cache).fetch = some fetch ∧
      Fetches L ttl call cache fetch (resolveKey L ttl call kid cache).cache) ∨
    ((resolveKey L ttl call kid cache).fetch = none ∧
      (resolveKey L ttl call kid cache).cache = cache ∧
      ¬ ttl < call.now - cache.fetchedAt) := by
  unfold resolveKey
  simp only
  generalize (kid.any fun kid => (cache.keys.lookup kid).isNone) = unknownKid
  by_cases hfetch : (decide (ttl < call.now - cache.fetchedAt) ||
      unknownKid && decide (unknownKidCooldown <
        call.now - cache.unknownKidFetchedAt)) = true
  · rw [if_pos hfetch]
    refine Or.inl ⟨_, rfl, ?_⟩
    constructor
    · rfl
    · rfl
    · rfl
    · exact decide_eq_true_iff
    · intro hfresh
      change decide (ttl < call.now - cache.fetchedAt) = false at hfresh
      rw [hfresh, Bool.false_or, Bool.and_eq_true] at hfetch
      obtain ⟨rfl, hcooldown⟩ := hfetch
      exact ⟨of_decide_eq_true hcooldown, rfl⟩
    · rw [apply_ite KeyCache.keys, ite_self]
      exact fetchJwks_keys _ _
    · rw [apply_ite KeyCache.fetchedAt, ite_self]
      exact fetchJwks_fetchedAt _ _
    · by_cases hunknown : unknownKid = true
      · rw [if_pos hunknown]
        exact Or.inr rfl
      · rw [if_neg hunknown]
        exact Or.inl (fetchJwks_timer _ _)
  · rw [if_neg hfetch]
    rw [Bool.or_eq_true, not_or] at hfetch
    exact Or.inr ⟨rfl, rfl, fun hstale => hfetch.1 (decide_eq_true hstale)⟩

theorem verifyToken_cases (call : VerifyCall) (cache : KeyCache) :
    (∃ fetch, (verifyToken L ttl call cache).fetch = some fetch ∧
      Fetches L ttl call cache fetch (verifyToken L ttl call cache).cache) ∨
    ((verifyToken L ttl call cache).fetch = none ∧
      (verifyToken L ttl call cache).cache = cache) := by
  unfold verifyToken
  cases (L.unverifiedHeader call.token).bind headerKid with
  | none => exact Or.inr ⟨rfl, rfl⟩
  | some kid =>
      rcases @resolveKey_cases L ttl call kid cache with
        hfetch | ⟨hnone, hcache, -⟩
      · exact Or.inl hfetch
      · exact Or.inr ⟨hnone, hcache⟩

/-! ## The cached keys -/

/-- The last fetch that returned a key list. -/
def lastRead (L : TokenLibrary) (fetches : List Fetch) : Option Fetch :=
  (fetches.filter fun fetch => (fetch.keyList L).isSome).getLast?

/-- The keys of the last fetch that returned a key list. -/
def currentKeys (L : TokenLibrary) (fetches : List Fetch) :
    List (String × String) :=
  ((lastRead L fetches).bind (Fetch.keyList L)).getD []

/-- The cache holds the last key list, and the time when it came. -/
structure CacheCurrent (L : TokenLibrary) (s : Verified) : Prop where
  keys : s.cache.keys = currentKeys L s.fetches
  fetchedAt : s.cache.fetchedAt =
    (lastRead L s.fetches).elim 0 Fetch.completedAt

theorem lastRead_concat (fetches : List Fetch) (fetch : Fetch) :
    lastRead L (fetches ++ [fetch]) =
      if (fetch.keyList L).isSome then some fetch
      else lastRead L fetches := by
  rw [lastRead, List.filter_append]
  by_cases h : (fetch.keyList L).isSome = true
  · simp [h]
  · simp [h, lastRead]

theorem CacheCurrent.step {s : Verified} (hs : CacheCurrent L s)
    (call : VerifyCall) : CacheCurrent L (s.step L ttl call) := by
  rcases @verifyToken_cases L ttl call s.cache with
    ⟨fetch, hfetch, hmade⟩ | ⟨hnone, hcache⟩
  · have hfetches : (s.step L ttl call).fetches = s.fetches ++ [fetch] := by
      rw [Verified.step, hfetch]
      rfl
    have hread := @lastRead_concat L s.fetches fetch
    constructor
    · rw [currentKeys, hfetches, hread]
      refine hmade.keys.trans ?_
      cases hlist : fetch.keyList L with
      | none => exact hs.keys
      | some keys => simp [hlist]
    · rw [hfetches, hread]
      refine hmade.fetchedAt.trans ?_
      cases hlist : fetch.keyList L with
      | none => exact hs.fetchedAt
      | some keys => exact hmade.completedAt.symm
  · have hsame : s.step L ttl call = s := by
      rw [Verified.step, hnone, hcache]
      simp
    rw [hsame]
    exact hs

theorem cacheCurrent_verified (calls : List VerifyCall) :
    CacheCurrent L (verified L ttl calls) :=
  run_invariant (fun _ call hs => hs.step call) ⟨rfl, rfl⟩ calls

/-! ## The timers -/

/-- The readings of the clock do not decrease. -/
def Clocked (t : ℚ) : List VerifyCall → Prop
  | [] => True
  | call :: calls =>
      t ≤ call.now ∧ call.now ≤ call.completedAt ∧
        Clocked call.completedAt calls

/-- The times at which a fetch was made of a stale cache, or else for a key
id. -/
def starts (stale : Bool) (fetches : List Fetch) : List ℚ :=
  (fetches.filter fun fetch => fetch.stale = stale).map Fetch.start

/-- Each timer is not before the fetches it was set for. -/
structure TimerInvariant (ttl t : ℚ) (s : Verified) : Prop where
  fetchedAt_le : s.cache.fetchedAt ≤ t
  timer_le : s.cache.unknownKidFetchedAt ≤ t
  stale_le : ∀ u ∈ starts true s.fetches, u ≤ s.cache.fetchedAt
  unknown_le : ∀ u ∈ starts false s.fetches, u ≤ s.cache.unknownKidFetchedAt
  stale_spaced : Spaced ttl (starts true s.fetches)
  unknown_spaced : Spaced unknownKidCooldown (starts false s.fetches)

/-- Fetches of a stale cache return key lists. -/
def StaleFetchesRead (L : TokenLibrary) (fetches : List Fetch) : Prop :=
  ∀ fetch ∈ fetches, fetch.stale = true → (fetch.keyList L).isSome

theorem starts_concat (stale : Bool) (fetches : List Fetch) (fetch : Fetch) :
    starts stale (fetches ++ [fetch]) =
      if fetch.stale = stale then starts stale fetches ++ [fetch.start]
      else starts stale fetches := by
  rw [starts, List.filter_append, List.map_append]
  by_cases h : fetch.stale = stale
  · simp [h, starts]
  · simp [h, starts]

theorem TimerInvariant.mono {t u : ℚ} {s : Verified}
    (hs : TimerInvariant ttl t s) (htu : t ≤ u) : TimerInvariant ttl u s :=
  { hs with
    fetchedAt_le := hs.fetchedAt_le.trans htu
    timer_le := hs.timer_le.trans htu }

theorem TimerInvariant.step {t : ℚ} {s : Verified} {call : VerifyCall}
    (hs : TimerInvariant ttl t s) (hnow : t ≤ call.now)
    (hcompleted : call.now ≤ call.completedAt)
    (hread : StaleFetchesRead L (s.step L ttl call).fetches) :
    TimerInvariant ttl call.completedAt (s.step L ttl call) := by
  rcases @verifyToken_cases L ttl call s.cache with
    ⟨fetch, hfetch, hmade⟩ | ⟨hnone, hcache⟩
  · have hfetches : (s.step L ttl call).fetches = s.fetches ++ [fetch] := by
      rw [Verified.step, hfetch]
      rfl
    have hlater : t ≤ call.completedAt := hnow.trans hcompleted
    have hage : s.cache.fetchedAt ≤ (s.step L ttl call).cache.fetchedAt ∧
        (s.step L ttl call).cache.fetchedAt ≤ call.completedAt := by
      rw [show (s.step L ttl call).cache.fetchedAt = _ from hmade.fetchedAt]
      cases fetch.keyList L with
      | none => exact ⟨le_rfl, hs.fetchedAt_le.trans hlater⟩
      | some keys => exact ⟨hs.fetchedAt_le.trans hlater, le_rfl⟩
    have htimer : s.cache.unknownKidFetchedAt ≤
        (s.step L ttl call).cache.unknownKidFetchedAt ∧
        (s.step L ttl call).cache.unknownKidFetchedAt ≤ call.completedAt := by
      rcases hmade.timer with hsame | hset
      · exact ⟨hsame.ge, hsame.le.trans (hs.timer_le.trans hlater)⟩
      · exact ⟨(hs.timer_le.trans hnow).trans hset.ge,
          hset.le.trans hcompleted⟩
    have hstale := starts_concat true s.fetches fetch
    have hunknown := starts_concat false s.fetches fetch
    rw [← hfetches] at hstale hunknown
    cases hkind : fetch.stale with
    | true =>
        rw [hkind, if_pos rfl] at hstale
        rw [hkind, if_neg Bool.true_eq_false.mp] at hunknown
        have hlist := hread fetch
          (hfetches ▸ List.mem_append_right _ List.mem_cons_self) hkind
        have hset : (s.step L ttl call).cache.fetchedAt =
            call.completedAt := by
          obtain ⟨keys, hkeys⟩ := Option.isSome_iff_exists.mp hlist
          exact hmade.fetchedAt.trans (by rw [hkeys]; rfl)
        have hold := hmade.stale.mp hkind
        refine ⟨hage.2, htimer.2, ?_, ?_, ?_, ?_⟩
        · intro u hu
          rw [hstale] at hu
          rcases List.mem_append.mp hu with hu | hu
          · exact (hs.stale_le u hu).trans hage.1
          · rw [List.mem_singleton.mp hu, hmade.start, hset]
            exact hcompleted
        · intro u hu
          rw [hunknown] at hu
          exact (hs.unknown_le u hu).trans htimer.1
        · rw [hstale]
          refine hs.stale_spaced.concat fun u hu => ?_
          have hle := hs.stale_le u hu
          rw [hmade.start]
          linarith
        · rw [hunknown]
          exact hs.unknown_spaced
    | false =>
        rw [hkind, if_neg Bool.false_eq_true.mp] at hstale
        rw [hkind, if_pos rfl] at hunknown
        obtain ⟨hcooldown, hset⟩ := hmade.unknown hkind
        refine ⟨hage.2, htimer.2, ?_, ?_, ?_, ?_⟩
        · intro u hu
          rw [hstale] at hu
          exact (hs.stale_le u hu).trans hage.1
        · intro u hu
          rw [hunknown] at hu
          rcases List.mem_append.mp hu with hu | hu
          · exact (hs.unknown_le u hu).trans htimer.1
          · rw [List.mem_singleton.mp hu, hmade.start]
            exact hset.ge
        · rw [hstale]
          exact hs.stale_spaced
        · rw [hunknown]
          refine hs.unknown_spaced.concat fun u hu => ?_
          have hle := hs.unknown_le u hu
          rw [hmade.start]
          linarith
  · have hsame : s.step L ttl call = s := by
      rw [Verified.step, hnone, hcache]
      simp
    rw [hsame]
    exact hs.mono (hnow.trans hcompleted)

/-! ## Every run -/

theorem fetches_isPrefix (s : Verified) (calls : List VerifyCall) :
    s.fetches <+: (run (Verified.step L ttl) s calls).fetches := by
  refine @run_related _ _ _ (fun _ => True)
    (fun s s' : Verified => s.fetches <+: s'.fetches) (fun _ _ _ => trivial)
    (fun _ => List.prefix_refl _) List.IsPrefix.trans
    (fun s call _ => ?_) s trivial calls
  exact List.prefix_append _ _

theorem timerInvariant_run {t : ℚ} {s : Verified} {calls : List VerifyCall}
    (hs : TimerInvariant ttl t s) (hclock : Clocked t calls)
    (hread : StaleFetchesRead L (run (Verified.step L ttl) s calls).fetches) :
    ∃ u, TimerInvariant ttl u (run (Verified.step L ttl) s calls) := by
  induction calls generalizing t s with
  | nil => exact ⟨t, hs⟩
  | cons call calls ih =>
      obtain ⟨hnow, hcompleted, hclock⟩ := hclock
      have hstep := hs.step hnow hcompleted fun fetch hfetch =>
        hread fetch ((fetches_isPrefix _ calls).subset hfetch)
      exact ih hstep hclock hread

/-- A bound on the fetches in a span of a given length. -/
def fetchBound (ttl length : ℚ) : ℕ :=
  ⌊length / ttl⌋₊ + 1 + (⌊length / unknownKidCooldown⌋₊ + 1)

/-- The fetches that are made from one time to another. -/
def fetchesIn (a b : ℚ) (fetches : List Fetch) : List Fetch :=
  fetches.filter fun fetch => a ≤ fetch.start ∧ fetch.start ≤ b

theorem length_filter_start (p : ℚ → Bool) (fetches : List Fetch) :
    (fetches.filter fun fetch => p fetch.start).length =
      ((starts true fetches).filter p).length +
        ((starts false fetches).filter p).length := by
  induction fetches with
  | nil => rfl
  | cons fetch fetches ih =>
      cases hspan : p fetch.start with
      | true =>
          cases hkind : fetch.stale with
          | true =>
              simp [starts, hspan, hkind] at ih ⊢
              omega
          | false =>
              simp [starts, hspan, hkind] at ih ⊢
              omega
      | false =>
          cases hkind : fetch.stale with
          | true => simpa [starts, hspan, hkind] using ih
          | false => simpa [starts, hspan, hkind] using ih

theorem TimerInvariant.bounded {t : ℚ} {s : Verified}
    (hs : TimerInvariant ttl t s) (httl : 0 < ttl) (a b : ℚ) :
    (fetchesIn a b s.fetches).length ≤ fetchBound ttl (b - a) := by
  have hspan : ∀ (times : List ℚ), ∀ u ∈ times.filter
      (fun u => a ≤ u ∧ u ≤ b), a ≤ u ∧ u ≤ b := by
    intro times u hu
    exact of_decide_eq_true (List.mem_filter.mp hu).2
  have hstale := (hs.stale_spaced.filter fun u => a ≤ u ∧ u ≤ b).length_le
    httl (hspan _)
  have hunknown := (hs.unknown_spaced.filter
    fun u => a ≤ u ∧ u ≤ b).length_le (by norm_num [unknownKidCooldown])
    (hspan _)
  rw [fetchesIn, length_filter_start fun u => decide (a ≤ u ∧ u ≤ b),
    fetchBound]
  exact Nat.add_le_add hstale hunknown

/-! ## The law -/

/-- A token is accepted under a key of a list, and under the one that its
header names. -/
structure AcceptedUnder (L : TokenLibrary) (keys : List (String × String))
    (call : VerifyCall) (a : Acceptance) : Prop where
  kid : (L.unverifiedHeader call.token).bind headerKid = some a.kid
  decoded : L.decode call.token a.pem = some a.claims
  cached : a.pem ∈ keys.map Prod.snd
  named : ∀ kid, a.kid = some kid → keys.lookup kid = some a.pem

/-- What holds of the calls made so far. -/
structure KeyCacheLaw (L : TokenLibrary) (ttl : ℚ)
    (calls : List VerifyCall) : Prop where
  accepted : ∀ before call after, calls = before ++ call :: after →
    ∀ a, (verifyToken L ttl call
        (verified L ttl before).cache).accepted = some a →
      AcceptedUnder L
        (currentKeys L (verified L ttl (before ++ [call])).fetches) call a
  kept : ∀ before call after, calls = before ++ call :: after →
    call.response.bind (readJwks L) = none →
      (verified L ttl (before ++ [call])).cache.keys =
        (verified L ttl before).cache.keys
  rotated : ∀ t keys,
    (∀ fetch ∈ (verified L ttl calls).fetches, t ≤ fetch.completedAt →
      fetch.keyList L = some keys) →
    ∀ before call after, calls = before ++ call :: after →
      t + ttl < call.now →
      ((L.unverifiedHeader call.token).bind headerKid).isSome →
        (verified L ttl (before ++ [call])).cache.keys = keys
  bounded : ∀ a b, (fetchesIn a b (verified L ttl calls).fetches).length ≤
    fetchBound ttl (b - a)

theorem acceptedUnder_of_accepted {call : VerifyCall} {cache : KeyCache}
    {a : Acceptance} (h : (verifyToken L ttl call cache).accepted = some a) :
    AcceptedUnder L (verifyToken L ttl call cache).cache.keys call a := by
  unfold verifyToken at h ⊢
  cases hheader : (L.unverifiedHeader call.token).bind headerKid with
  | none =>
      rw [hheader] at h
      cases h
  | some kid =>
      rw [hheader] at h
      obtain ⟨pem, hpem, h⟩ := Option.bind_eq_some_iff.mp h
      obtain ⟨claims, hclaims, h⟩ := Option.bind_eq_some_iff.mp h
      obtain rfl := Option.some.inj h
      have hfind : (resolveKey L ttl call kid cache).cache.find kid =
          some pem := by
        rw [← hpem, resolveKey]
        simp only
        split
        · rfl
        · rfl
      refine ⟨hheader, hclaims, ?_, fun kid' hkid => ?_⟩
      · cases kid with
        | none =>
            obtain ⟨entry, hentry, rfl⟩ := Option.map_eq_some_iff.mp hfind
            exact List.mem_map_of_mem (List.mem_of_head? hentry)
        | some kid =>
            obtain ⟨before, after, hkeys, -⟩ := List.lookup_eq_some_iff.mp hfind
            change pem ∈ (resolveKey L ttl call (some kid)
              cache).cache.keys.map Prod.snd
            rw [hkeys]
            exact List.mem_map.mpr ⟨(kid, pem),
              List.mem_append_right _ List.mem_cons_self, rfl⟩
      · subst hkid
        exact hfind

theorem verified_concat (calls : List VerifyCall) (call : VerifyCall) :
    verified L ttl (calls ++ [call]) =
      (verified L ttl calls).step L ttl call :=
  run_concat _ _ _ _

theorem currentKeys_of_lastRead {fetches : List Fetch} {fetch : Fetch}
    {keys : List (String × String)} (hlast : lastRead L fetches = some fetch)
    (hkeys : fetch.keyList L = some keys) : currentKeys L fetches = keys := by
  rw [currentKeys, hlast, Option.bind_some, hkeys, Option.getD_some]

theorem mem_of_lastRead {fetches : List Fetch} {fetch : Fetch}
    (h : lastRead L fetches = some fetch) : fetch ∈ fetches :=
  List.mem_of_mem_filter (List.mem_of_getLast? h)

theorem keys_of_rotated {s : Verified} (hs : CacheCurrent L s) {t : ℚ}
    {keys : List (String × String)} {call : VerifyCall} (httl : 0 < ttl)
    (hfirst : ttl < call.now) (hcompleted : call.now ≤ call.completedAt)
    (hserved : ∀ fetch ∈ (s.step L ttl call).fetches,
      t ≤ fetch.completedAt → fetch.keyList L = some keys)
    (hlate : t + ttl < call.now)
    (hheader : ((L.unverifiedHeader call.token).bind headerKid).isSome) :
    (s.step L ttl call).cache.keys = keys := by
  obtain ⟨kid, hkid⟩ := Option.isSome_iff_exists.mp hheader
  have hcurrent := @CacheCurrent.step L ttl s hs call
  rw [hcurrent.keys]
  rcases @resolveKey_cases L ttl call kid s.cache with
    ⟨fetch, hfetch, hmade⟩ | ⟨hnone, hcache, hfresh⟩
  · have hfetches : (s.step L ttl call).fetches = s.fetches ++ [fetch] := by
      rw [Verified.step, verifyToken, hkid]
      simp only [hfetch]
      rfl
    have hlist : fetch.keyList L = some keys := by
      refine hserved fetch ?_ ?_
      · rw [hfetches]
        exact List.mem_append_right _ List.mem_cons_self
      · rw [hmade.completedAt]
        linarith
    refine currentKeys_of_lastRead ?_ hlist
    rw [hfetches, lastRead_concat, hlist]
    rfl
  · have hsame : s.step L ttl call = s := by
      rw [Verified.step, verifyToken, hkid]
      simp [hnone, hcache]
    rw [hsame] at hserved hcurrent ⊢
    have hage := hcurrent.fetchedAt
    cases hlast : lastRead L s.fetches with
    | none =>
        rw [hlast, Option.elim_none] at hage
        rw [hage, sub_zero] at hfresh
        exact absurd hfirst hfresh
    | some fetch =>
        rw [hlast, Option.elim_some] at hage
        refine currentKeys_of_lastRead hlast
          (hserved fetch (mem_of_lastRead hlast) ?_)
        linarith

theorem Clocked.of_mem {t : ℚ} {calls : List VerifyCall}
    (h : Clocked t calls) {call : VerifyCall} (hcall : call ∈ calls) :
    t ≤ call.now ∧ call.now ≤ call.completedAt := by
  induction calls generalizing t with
  | nil => cases hcall
  | cons first calls ih =>
      obtain ⟨hnow, hcompleted, hclock⟩ := h
      rcases List.mem_cons.mp hcall with rfl | hcall
      · exact ⟨hnow, hcompleted⟩
      · obtain ⟨hlater, hends⟩ := ih hclock hcall
        exact ⟨by linarith, hends⟩

end

/-! ## Fetches that fail -/

/-- A library in which every token has a header without a key id and every
entry of a key set is a key. -/
def plainLibrary : TokenLibrary where
  unverifiedHeader _ := some (.obj [("alg", .str algorithm)])
  jwkToPem _ := some "pem"
  decode _ _ := some []

def keySet : Json :=
  .obj [("keys", .arr [.obj [("kid", .str "current")]])]

/-- A call that finds the endpoint down. -/
def failingCall : VerifyCall where
  token := "token"
  now := 301
  response := none
  completedAt := 301

def failedFetch : Fetch where
  stale := true
  start := 301
  response := none
  completedAt := 301

theorem step_failingCall (fetches : List Fetch) :
    Verified.step plainLibrary 300 ⟨.new, fetches⟩ failingCall =
      ⟨.new, fetches ++ [failedFetch]⟩ := by
  have hheader : (plainLibrary.unverifiedHeader failingCall.token).bind
      headerKid = some none := by
    decide
  rw [Verified.step, verifyToken, hheader]
  simp [resolveKey, KeyCache.new, failingCall, fetchJwks, Fetch.keyList,
    failedFetch]
  norm_num

theorem run_failingCalls (n : ℕ) (fetches : List Fetch) :
    run (Verified.step plainLibrary 300) ⟨.new, fetches⟩
        (List.replicate n failingCall) =
      ⟨.new, fetches ++ List.replicate n failedFetch⟩ := by
  induction n generalizing fetches with
  | zero => simp
  | succ n ih =>
      rw [List.replicate_succ, run_cons, step_failingCall, ih,
        List.append_assoc, List.replicate_succ, List.singleton_append]

theorem clocked_failingCalls (n : ℕ) :
    Clocked 301 (List.replicate n failingCall) := by
  induction n with
  | zero => trivial
  | succ n ih => exact ⟨le_rfl, le_rfl, ih⟩

end ApexForensic.Auth
